import Mathlib.Data.List.InsertIdx
import WaffleChat.Library.CallbackProgram

/-!
# Programs with mapped requests

What a program does when part of its requests is hidden.  A map of requests turns a program
into one that takes the same answers, hands over the same values, and issues the mapped
requests; a started program is mapped along with its job.

Main results:

- Theorem `Program.after_mapReq`: the map commutes with consuming answers.
- Theorems `Task.undecided_map`, `Task.handle_map`: the map commutes with the steps of a task.
-/

namespace CallbackProgram

variable {Req Req' Resp Out Job Job' : Type}

namespace Program

variable (f : Req → Req')

/-- The program that issues `f req` in place of `req`. -/
def mapReq : Program Req Resp Out → Program Req' Resp Out
  | done => done
  | perform req next => perform (f req) next.mapReq
  | emit out next => emit out next.mapReq
  | await req handler => await (f req) fun resp => (handler resp).mapReq

/-- Requests performed on the way are renamed. -/
@[simp]
theorem performed_mapReq (p : Program Req Resp Out) :
    (p.mapReq f).performed = p.performed.map f := by
  induction p with
  | done => rfl
  | perform req next ih => exact congrArg (f req :: ·) ih
  | emit out next ih => exact ih
  | await req handler ih => rfl

/-- What a program reports is not renamed. -/
@[simp]
theorem emitted_mapReq (p : Program Req Resp Out) : (p.mapReq f).emitted = p.emitted := by
  induction p with
  | done => rfl
  | perform req next ih => exact ih
  | emit out next ih => exact congrArg (out :: ·) ih
  | await req handler ih => rfl

/-- The request a program waits for is renamed. -/
@[simp]
theorem awaiting_mapReq (p : Program Req Resp Out) :
    (p.mapReq f).awaiting = p.awaiting.map f := by
  induction p with
  | done => rfl
  | perform req next ih => exact ih
  | emit out next ih => exact ih
  | await req handler ih => rfl

/-- An answer finds the renamed program where it would find the program itself. -/
theorem resume_mapReq (p : Program Req Resp Out) (resp : Resp) :
    (p.mapReq f).resume resp = (p.resume resp).mapReq f := by
  induction p with
  | done => rfl
  | perform req next ih => exact ih
  | emit out next ih => exact ih
  | await req handler ih => rfl

/-- Any number of answers does. -/
theorem after_mapReq (p : Program Req Resp Out) (resps : List Resp) :
    (p.mapReq f).after resps = (p.after resps).mapReq f := by
  induction resps generalizing p with
  | nil => rfl
  | cons resp resps ih => rw [after_cons, after_cons, resume_mapReq, ih]

end Program

namespace Task

/-- A started program with its job and its requests mapped. -/
def map (g : Job → Job') (f : Req → Req') (t : Task Job Req Resp) : Task Job' Req' Resp where
  job := g t.job
  answers := t.answers
  arrived := t.arrived
  outbox := t.outbox.map f
  stopped := t.stopped

/-- Flushing and renaming a task commute. -/
theorem flush_map {g : Job → Job'} {f : Req → Req'} (t : Task Job Req Resp) (k : Nat) :
    (t.flush k).map g f = (t.map g f).flush k := by
  simp only [map, flush, List.eraseIdx_map]

section

variable {g : Job → Job'} {f : Req → Req'} {prog : Job → Program Req Resp Out}
  {prog' : Job' → Program Req' Resp Out} (hprog : ∀ job, prog' (g job) = (prog job).mapReq f)

include hprog

/-- A renamed job starts as the renamed task. -/
theorem start_map (job : Job) :
    start prog' (g job) = (start prog job : Task Job Req Resp).map g f := by
  simp [start, map, hprog]

/-- The renamed task is at the renamed program. -/
theorem current_map (t : Task Job Req Resp) :
    (t.map g f).current prog' = (t.current prog).mapReq f := by
  rw [current, current, map, hprog, Program.after_mapReq]

/-- The renamed task has the renamed request outstanding. -/
theorem undecided_map (t : Task Job Req Resp) :
    (t.map g f).undecided prog' = (t.undecided prog).map f := by
  unfold undecided
  rw [current_map hprog]
  cases harrived : t.arrived <;> simp [map, harrived]

/-- Handlers do on renamed tasks what they do on the tasks themselves. -/
theorem handle_map (t : Task Job Req Resp) :
    (t.map g f).handle prog' = (t.handle prog).map fun t => t.map g f := by
  unfold handle
  cases hstopped : t.stopped <;> cases harrived : t.arrived <;>
    simp [map, hstopped, harrived, hprog, Program.after_mapReq]

end

end Task

end CallbackProgram
