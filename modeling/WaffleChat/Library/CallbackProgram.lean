import Mathlib.Data.List.Basic

/-!
# Programs with completion handlers

Client code written against an asynchronous backend issues a request and hands
over a completion handler; the handler runs later, with the backend's answer,
and may issue further requests.  `Program` is the text of such code: nested
handlers are functions from answers to programs.  A `Task` is a started program
on its way, and stores only first-order data: the answers its handlers have
already consumed determine where it stands.

Main results:

- Theorems `requests_concat` and `outputs_concat`: consuming one more answer runs
  exactly one more handler.
- Theorem `AlwaysReports.outputs_ne_nil`: a program every path of which reports has
  reported once it waits no more.
- Theorem `Task.sound_handle`: an answer is only ever consumed by a program that
  is waiting for one.
- Theorem `Task.Quiet.eq_done`: a quiet task has nothing left to do.
-/

namespace CallbackProgram

/-- Code that talks to a backend through completion handlers. -/
inductive Program (Req Resp Out : Type) where
  /-- Nothing left to do. -/
  | done : Program Req Resp Out
  /-- Issue a request without a completion handler and go on. -/
  | perform (req : Req) (next : Program Req Resp Out) : Program Req Resp Out
  /-- Hand a value to the caller and go on. -/
  | emit (out : Out) (next : Program Req Resp Out) : Program Req Resp Out
  /-- Issue a request; the handler runs with its answer. -/
  | await (req : Req) (handler : Resp → Program Req Resp Out) : Program Req Resp Out

namespace Program

variable {Req Resp Out : Type}

/-- Requests issued without a handler before the program next waits. -/
def performed : Program Req Resp Out → List Req
  | done => []
  | perform req next => req :: next.performed
  | emit _ next => next.performed
  | await _ _ => []

/-- Values handed to the caller before the program next waits. -/
def emitted : Program Req Resp Out → List Out
  | done => []
  | perform _ next => next.emitted
  | emit out next => out :: next.emitted
  | await _ _ => []

/-- The request whose answer the program waits for, if it waits at all. -/
def awaiting : Program Req Resp Out → Option Req
  | done => none
  | perform _ next => next.awaiting
  | emit _ next => next.awaiting
  | await req _ => some req

/-- The requests the program issues before it next waits, in order; the awaited
one comes last. -/
def issues (p : Program Req Resp Out) : List Req :=
  p.performed ++ p.awaiting.toList

/-- Run the completion handler the program waits in. -/
def resume : Program Req Resp Out → Resp → Program Req Resp Out
  | done, _ => done
  | perform _ next, resp => next.resume resp
  | emit _ next, resp => next.resume resp
  | await _ handler, resp => handler resp

/-- The program left after the handlers have consumed a list of answers. -/
def after : Program Req Resp Out → List Resp → Program Req Resp Out
  | p, [] => p
  | p, resp :: resps => (p.resume resp).after resps

/-- All requests issued while the answers are consumed, in order. -/
def requests : Program Req Resp Out → List Resp → List Req
  | p, [] => p.issues
  | p, resp :: resps => p.issues ++ (p.resume resp).requests resps

/-- All values handed to the caller while the answers are consumed. -/
def outputs : Program Req Resp Out → List Resp → List Out
  | p, [] => p.emitted
  | p, resp :: resps => p.emitted ++ (p.resume resp).outputs resps

/-- Without an answer the program is where it was. -/
@[simp]
theorem after_nil (p : Program Req Resp Out) : p.after [] = p :=
  rfl

/-- Answers are taken one after the other. -/
@[simp]
theorem after_cons (p : Program Req Resp Out) (resp : Resp) (resps : List Resp) :
    p.after (resp :: resps) = (p.resume resp).after resps :=
  rfl

/-- A program that is done stays so. -/
@[simp]
theorem done_after (resps : List Resp) :
    (done : Program Req Resp Out).after resps = done := by
  induction resps with
  | nil => rfl
  | cons r resps ih => exact ih

/-- A program that is done reports nothing. -/
@[simp]
theorem done_outputs (resps : List Resp) :
    (done : Program Req Resp Out).outputs resps = [] := by
  induction resps with
  | nil => rfl
  | cons r resps ih => exact ih

/-- A program that is done asks for nothing. -/
@[simp]
theorem done_requests (resps : List Resp) :
    (done : Program Req Resp Out).requests resps = [] := by
  induction resps with
  | nil => rfl
  | cons r resps ih => exact ih

/-- A program that only reports waits for nothing. -/
@[simp]
theorem emit_done_awaiting (out : Out) (resps : List Resp) :
    ((emit out done : Program Req Resp Out).after resps).awaiting = none := by
  cases resps with
  | nil => rfl
  | cons r resps =>
      rw [after_cons]
      exact congrArg awaiting (done_after resps)

/-- A last report is all that is reported. -/
@[simp]
theorem emit_done_outputs (out : Out) (resps : List Resp) :
    (emit out done : Program Req Resp Out).outputs resps = [out] := by
  cases resps with
  | nil => rfl
  | cons r resps => exact congrArg (out :: ·) (done_outputs resps)

/-- The values handed over grow by what the last handler emits. -/
theorem outputs_concat (p : Program Req Resp Out) (resps : List Resp) (resp : Resp) :
    p.outputs (resps ++ [resp]) =
      p.outputs resps ++ (p.after (resps ++ [resp])).emitted := by
  induction resps generalizing p with
  | nil => rfl
  | cons r resps ih =>
      simp only [List.cons_append, outputs, after_cons, ih, List.append_assoc]

/-- The requests issued grow by what the last handler issues. -/
theorem requests_concat (p : Program Req Resp Out) (resps : List Resp) (resp : Resp) :
    p.requests (resps ++ [resp]) =
      p.requests resps ++ (p.after (resps ++ [resp])).issues := by
  induction resps generalizing p with
  | nil => rfl
  | cons r resps ih =>
      simp only [List.cons_append, requests, after_cons, ih, List.append_assoc]

/-- What has been handed over stays handed over. -/
theorem outputs_isPrefix (p : Program Req Resp Out) {resps resps' : List Resp}
    (h : resps <+: resps') : p.outputs resps <+: p.outputs resps' := by
  rcases h with ⟨rest, rfl⟩
  induction resps generalizing p with
  | nil =>
      cases rest with
      | nil => exact List.prefix_refl _
      | cons resp rest => exact List.prefix_append _ _
  | cons resp resps ih => exact (List.prefix_append_right_inj _).2 (ih (p.resume resp))

/-! ### Programs that always report -/

/-- Hand a list of values to the caller and stop. -/
def report : List Out → Program Req Resp Out
  | [] => done
  | out :: outs => emit out (report outs)

/-- Reports come at once. -/
@[simp]
theorem report_emitted (outs : List Out) :
    (report outs : Program Req Resp Out).emitted = outs := by
  induction outs with
  | nil => rfl
  | cons out outs ih => exact congrArg (out :: ·) ih

/-- Nothing is left to do once the values are handed over. -/
@[simp]
theorem report_resume (outs : List Out) (resp : Resp) :
    (report outs : Program Req Resp Out).resume resp = done := by
  induction outs with
  | nil => rfl
  | cons out outs ih => exact ih

/-- Reports come whatever is answered. -/
@[simp]
theorem report_outputs (outs : List Out) (resps : List Resp) :
    (report outs : Program Req Resp Out).outputs resps = outs := by
  cases resps with
  | nil => exact report_emitted outs
  | cons resp resps => simp [outputs]

/-- Every path of the program hands a value to the caller. -/
def AlwaysReports : Program Req Resp Out → Prop
  | done => False
  | perform _ next => next.AlwaysReports
  | emit _ _ => True
  | await _ handler => ∀ resp, (handler resp).AlwaysReports

/-- A program that ends with a report has reported. -/
theorem alwaysReports_report {outs : List Out} (h : outs ≠ []) :
    (report outs : Program Req Resp Out).AlwaysReports := by
  cases outs with
  | nil => exact absurd rfl h
  | cons out outs => trivial

/-- A program that waits for an answer reports before or after it. -/
theorem AlwaysReports.resume {p : Program Req Resp Out} (h : p.AlwaysReports) (resp : Resp) :
    p.emitted ≠ [] ∨ (p.resume resp).AlwaysReports := by
  induction p with
  | done => exact h.elim
  | perform req next ih => exact ih h
  | emit out next ih => exact Or.inl (List.cons_ne_nil out next.emitted)
  | await req handler ih => exact Or.inr (h resp)

/-- A program that waits for nothing has reported. -/
theorem AlwaysReports.emitted_ne_nil {p : Program Req Resp Out} (h : p.AlwaysReports)
    (hfinished : p.awaiting = none) : p.emitted ≠ [] := by
  induction p with
  | done => exact h.elim
  | perform req next ih => exact ih h hfinished
  | emit out next ih => exact List.cons_ne_nil out next.emitted
  | await req handler ih => cases hfinished

/-- A program every path of which reports has reported once it waits no more. -/
theorem AlwaysReports.outputs_ne_nil {p : Program Req Resp Out} (h : p.AlwaysReports)
    {resps : List Resp} (hfinished : (p.after resps).awaiting = none) :
    p.outputs resps ≠ [] := by
  induction resps generalizing p with
  | nil => exact h.emitted_ne_nil hfinished
  | cons resp resps ih =>
      rcases h.resume resp with hemitted | hrest
      · exact List.append_ne_nil_of_left_ne_nil hemitted _
      · exact List.append_ne_nil_of_right_ne_nil _ (ih hrest hfinished)

/-! ### Requests that raise an exception -/

/-- The program in a process that an exception ends: at a request that raises one, nothing more
is run. -/
def raisingAt (raises : Req → Prop) [DecidablePred raises] :
    Program Req Resp Out → Program Req Resp Out
  | done => done
  | perform req next => if raises req then done else perform req (next.raisingAt raises)
  | emit out next => emit out (next.raisingAt raises)
  | await req handler =>
      if raises req then done else await req fun resp => (handler resp).raisingAt raises

/-- The requests the program issues before it first hands over a value, while the answers are
consumed. -/
def unreported : Program Req Resp Out → List Resp → List Req
  | done, _ => []
  | perform req next, resps => req :: next.unreported resps
  | emit _ _, _ => []
  | await req _, [] => [req]
  | await req handler, resp :: resps => req :: (handler resp).unreported resps

variable {raises : Req → Prop} [DecidablePred raises]

/-- Reports raise nothing. -/
@[simp]
theorem raisingAt_report (outs : List Out) :
    (report outs : Program Req Resp Out).raisingAt raises = report outs := by
  induction outs with
  | nil => rfl
  | cons out outs ih => exact congrArg (emit out) ih

/-- A program that only reports is not ended before it does. -/
@[simp]
theorem unreported_report (outs : List Out) (resps : List Resp) :
    (report outs : Program Req Resp Out).unreported resps = [] := by
  cases outs <;> rfl

/-- A request that nobody waits for reports nothing. -/
theorem perform_outputs (req : Req) (next : Program Req Resp Out) (resps : List Resp) :
    (perform req next).outputs resps = next.outputs resps := by
  cases resps <;> rfl

/-- A request that nobody waits for takes no answer. -/
theorem perform_after_awaiting (req : Req) (next : Program Req Resp Out) (resps : List Resp) :
    ((perform req next).after resps).awaiting = (next.after resps).awaiting := by
  cases resps <;> rfl

/-- A program every path of which reports has reported, once it waits no more, exactly if no
request before its first report raises an exception. -/
theorem AlwaysReports.outputs_raisingAt_ne_nil_iff {p : Program Req Resp Out}
    (h : p.AlwaysReports) {resps : List Resp}
    (hfinished : ((p.raisingAt raises).after resps).awaiting = none) :
    (p.raisingAt raises).outputs resps ≠ [] ↔ ∀ req ∈ p.unreported resps, ¬ raises req := by
  induction p generalizing resps with
  | done => exact h.elim
  | perform req next ih =>
      by_cases hraises : raises req
      · simp [raisingAt, unreported, hraises]
      · have hgoes : (perform req next).raisingAt raises = perform req (next.raisingAt raises) :=
          if_neg hraises
        rw [hgoes, perform_after_awaiting] at hfinished
        rw [hgoes, perform_outputs, ih h hfinished, unreported, List.forall_mem_cons]
        exact (and_iff_right hraises).symm
  | emit out next ih =>
      refine iff_of_true ?_ (by simp [unreported])
      cases resps <;> simp [raisingAt, outputs, emitted]
  | await req handler ih =>
      by_cases hraises : raises req
      · cases resps <;> simp [raisingAt, unreported, hraises]
      · have hgoes : (await req handler).raisingAt raises =
            await req fun resp => (handler resp).raisingAt raises :=
          if_neg hraises
        rw [hgoes] at hfinished ⊢
        cases resps with
        | nil => cases hfinished
        | cons resp resps =>
            rw [unreported, List.forall_mem_cons]
            exact (ih resp (h resp) hfinished).trans (and_iff_right hraises).symm

end Program

/-! ## Started programs -/

/-- A started program.  `answers` were consumed by its handlers; `arrived` is the
answer of the awaited request once the backend has decided it and until the
handler runs; `outbox` holds the handlerless requests not yet decided; a
`stopped` task belongs to a process that is gone and runs no handler any more. -/
structure Task (Job Req Resp : Type) where
  job : Job
  answers : List Resp
  arrived : Option Resp
  outbox : List Req
  stopped : Bool
deriving DecidableEq, Repr

namespace Task

variable {Job Req Resp Out : Type} (prog : Job → Program Req Resp Out)

/-- The program as it stands, waiting or done. -/
def current (t : Task Job Req Resp) : Program Req Resp Out :=
  (prog t.job).after t.answers

/-- Start a program: its first requests are issued at once. -/
def start (job : Job) : Task Job Req Resp where
  job := job
  answers := []
  arrived := none
  outbox := (prog job).performed
  stopped := false

/-- The awaited request the backend has still to decide. -/
def undecided (t : Task Job Req Resp) : Option Req :=
  match t.arrived with
  | some _ => none
  | none => (t.current prog).awaiting

/-- The backend decides the awaited request. -/
def arrive (t : Task Job Req Resp) (resp : Resp) : Task Job Req Resp :=
  { t with arrived := some resp }

/-- Run the completion handler of a decided request. -/
def handle (t : Task Job Req Resp) : Option (Task Job Req Resp) :=
  match t.stopped, t.arrived with
  | false, some resp =>
      some
        { t with
          answers := t.answers ++ [resp]
          arrived := none
          outbox := t.outbox ++ ((prog t.job).after (t.answers ++ [resp])).performed }
  | _, _ => none

/-- The backend decides the handlerless request at position `k` of the outbox. -/
def flush (t : Task Job Req Resp) (k : Nat) : Task Job Req Resp :=
  { t with outbox := t.outbox.eraseIdx k }

/-- The process the task runs in stops. -/
def stop (t : Task Job Req Resp) : Task Job Req Resp :=
  { t with stopped := true }

/-- Everything handed to the caller so far. -/
def outputs (t : Task Job Req Resp) : List Out :=
  (prog t.job).outputs t.answers

/-- Answers of the awaited requests decided so far, handled or not. -/
def outcomes (t : Task Job Req Resp) : List Resp :=
  t.answers ++ t.arrived.toList

/-- Nothing of the task is on its way: it waits for nothing, no handler is due
and every handlerless request has been decided. -/
structure Quiet (t : Task Job Req Resp) : Prop where
  arrived_eq : t.arrived = none
  awaiting_eq : (t.current prog).awaiting = none
  outbox_eq : t.outbox = []

instance (t : Task Job Req Resp) [DecidableEq Req] [DecidableEq Resp] :
    Decidable (t.Quiet prog) :=
  decidable_of_iff
    (t.arrived = none ∧ (t.current prog).awaiting = none ∧ t.outbox = [])
    ⟨fun h => ⟨h.1, h.2.1, h.2.2⟩, fun h => ⟨h.arrived_eq, h.awaiting_eq, h.outbox_eq⟩⟩

/-- An undelivered answer belongs to a request the program waits for. -/
def Sound (t : Task Job Req Resp) : Prop :=
  t.arrived.isSome → (t.current prog).awaiting.isSome

variable {prog}

/-- A handler runs once for an answer that has arrived. -/
theorem handle_eq_some_iff {t t' : Task Job Req Resp} :
    t.handle prog = some t' ↔
      t.stopped = false ∧ ∃ resp, t.arrived = some resp ∧
        t' = { t with
          answers := t.answers ++ [resp]
          arrived := none
          outbox := t.outbox ++ ((prog t.job).after (t.answers ++ [resp])).performed } := by
  unfold handle
  cases hstopped : t.stopped <;> cases harrived : t.arrived <;> simp [eq_comm]

/-- What the backend has yet to decide: the request of a task that waits. -/
theorem undecided_eq_some_iff {t : Task Job Req Resp} {req : Req} :
    t.undecided prog = some req ↔
      t.arrived = none ∧ (t.current prog).awaiting = some req := by
  unfold undecided
  cases harrived : t.arrived <;> simp

/-- An answer that arrives is the last of the outcomes. -/
@[simp]
theorem outcomes_arrive {t : Task Job Req Resp} {resp : Resp} (h : t.arrived = none) :
    (t.arrive resp).outcomes = t.outcomes ++ [resp] := by
  simp [outcomes, arrive, h]

/-- Running a handler moves an answer from the arrived to the consumed ones. -/
theorem outcomes_handle {t t' : Task Job Req Resp} (h : t.handle prog = some t') :
    t'.outcomes = t.outcomes := by
  rcases handle_eq_some_iff.1 h with ⟨-, resp, harrived, rfl⟩
  simp [outcomes, harrived]

/-- A handler belongs to the same job. -/
theorem job_handle {t t' : Task Job Req Resp} (h : t.handle prog = some t') :
    t'.job = t.job := by
  rcases handle_eq_some_iff.1 h with ⟨-, _, -, rfl⟩
  rfl

/-- What the last handler has handed over is among all that has been. -/
theorem mem_outputs_of_emitted {t t' : Task Job Req Resp} (h : t.handle prog = some t')
    {out : Out} (hmem : out ∈ (t'.current prog).emitted) : out ∈ t'.outputs prog := by
  rcases handle_eq_some_iff.1 h with ⟨-, resp, -, rfl⟩
  rw [outputs, Program.outputs_concat]
  exact List.mem_append_right _ hmem

/-- A task that starts has no answer. -/
theorem sound_start (job : Job) : (start prog job : Task Job Req Resp).Sound prog := by
  simp [Sound, start]

/-- An answer arrives only where one is awaited. -/
theorem sound_arrive {t : Task Job Req Resp} {req : Req} {resp : Resp}
    (h : t.undecided prog = some req) : (t.arrive resp).Sound prog := by
  intro _
  have hawaiting := (undecided_eq_some_iff.1 h).2
  simpa [current, arrive] using congrArg Option.isSome hawaiting

/-- After its handler has run a task holds no undelivered answer. -/
theorem sound_handle {t t' : Task Job Req Resp} (h : t.handle prog = some t') :
    t'.Sound prog := by
  rcases handle_eq_some_iff.1 h with ⟨-, resp, -, rfl⟩
  simp [Sound]

/-- A quiet task can take none of the steps above. -/
theorem Quiet.eq_done {t : Task Job Req Resp} (h : t.Quiet prog) :
    t.undecided prog = none ∧ t.handle prog = none ∧ t.outbox = [] := by
  refine ⟨?_, ?_, h.outbox_eq⟩
  · simp [undecided, h.arrived_eq, h.awaiting_eq]
  · simp [handle, h.arrived_eq]

end Task

end CallbackProgram
