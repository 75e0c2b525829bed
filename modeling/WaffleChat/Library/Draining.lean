import Mathlib.Algebra.Order.BigOperators.Group.List
import Mathlib.Algebra.Order.Ring.Nat
import Mathlib.Data.Nat.Cast.Basic
import WaffleChat.Library.CallbackProgram
import WaffleChat.Library.EventSystem

/-!
# Systems that run dry

Some events of a system start work, others work it off.  When every event of the second
kind takes something from a measure, a run of such events is no longer than the measure.
For started programs the measure comes from a bound on the answers a program takes.

Main results:

- Theorem `length_add_work_le`: a run that works off is no longer than the work.
- Theorem `countP_add_work_le`: events that work off are no more than the work, whatever else
  happens.
- Theorem `Program.Within.length_lt`: a program that waits has not taken all its answers.
- Theorem `Task.answersLeft_handle`: a handler takes one of the answers left.
-/

namespace EventSystem

variable {σ ε : Type*} {step : σ → ε → Option σ}

/-- If under the invariant `I` the events of a run each take one from the work, or more, the
run is no longer than the work there is. -/
theorem length_add_work_le (work : σ → Nat) {I : σ → Prop} {E : ε → Prop}
    (hI : ∀ s e s', I s → step s e = some s' → I s')
    (hwork : ∀ s e s', I s → E e → step s e = some s' → work s' < work s) {s t : σ} {es : List ε}
    (hs : I s) (hes : ∀ e ∈ es, E e) (hrun : run step s es = some t) :
    es.length + work t ≤ work s := by
  induction es generalizing s with
  | nil =>
      obtain rfl := Option.some.inj hrun
      exact (Nat.zero_add _).le
  | cons e es ih =>
      rcases run_cons_eq_some.1 hrun with ⟨a, hstep, hrest⟩
      have hfirst := hwork s e a hs (hes e List.mem_cons_self) hstep
      have hafter := ih (hI s e a hs hstep) (fun e he => hes e (List.mem_cons_of_mem _ he)) hrest
      rw [List.length_cons]
      omega

/-- If no event adds to the work and those that meet `p` each take one from it, or more, a run
has no more of them than there is work. -/
theorem countP_add_work_le (work : σ → Nat) (p : ε → Bool)
    (hkeeps : ∀ s e s', step s e = some s' → work s' ≤ work s)
    (htakes : ∀ s e s', p e → step s e = some s' → work s' < work s) {s t : σ} {es : List ε}
    (hrun : run step s es = some t) : es.countP p + work t ≤ work s := by
  induction es generalizing s with
  | nil =>
      obtain rfl := Option.some.inj hrun
      exact (Nat.zero_add _).le
  | cons e es ih =>
      rcases run_cons_eq_some.1 hrun with ⟨a, hstep, hrest⟩
      have hafter := ih hrest
      by_cases he : p e
      · have htaken := htakes s e a he hstep
        rw [List.countP_cons_of_pos he]
        omega
      · have hkept := hkeeps s e a hstep
        rw [List.countP_cons_of_neg he]
        omega

/-- If no entry of a list weighs more than `bound`, all together weigh no more than `bound` for
each. -/
theorem sum_map_le_mul_length {α : Type*} (weight : α → Nat) {bound : Nat} {xs : List α}
    (hweight : ∀ x ∈ xs, weight x ≤ bound) : (xs.map weight).sum ≤ bound * xs.length := by
  have hle := List.sum_le_card_nsmul (xs.map weight) bound (List.forall_mem_map.2 hweight)
  rwa [List.length_map, nsmul_eq_mul, Nat.cast_id, Nat.mul_comm] at hle

/-- Exchanging an entry of a list exchanges its weight in the sum. -/
theorem sum_map_set {α : Type*} (weight : α → Nat) {xs : List α} {i : Nat} {x : α}
    (hget : xs[i]? = some x) (x' : α) :
    ((xs.set i x').map weight).sum + weight x = (xs.map weight).sum + weight x' := by
  induction xs generalizing i with
  | nil => cases hget
  | cons y ys ih =>
      cases i with
      | zero =>
          obtain rfl := Option.some.inj hget
          simp only [List.set_cons_zero, List.map_cons, List.sum_cons]
          omega
      | succ i =>
          have hrest := ih (i := i) hget
          simp only [List.set_cons_succ, List.map_cons, List.sum_cons]
          omega

end EventSystem

namespace CallbackProgram

variable {Req Resp Out Job : Type}

namespace Program

/-- The program takes at most `n` answers, whatever they are. -/
def Within : Nat → Program Req Resp Out → Prop
  | _, done => True
  | n, perform _ next => next.Within n
  | n, emit _ next => next.Within n
  | 0, await _ _ => False
  | n + 1, await _ handler => ∀ resp, (handler resp).Within n

/-- A program that waits takes an answer. -/
theorem Within.pos {p : Program Req Resp Out} {n : Nat} (h : p.Within n)
    (hwaits : p.awaiting.isSome) : 0 < n := by
  induction p with
  | done => cases hwaits
  | perform req next ih => exact ih h hwaits
  | emit out next ih => exact ih h hwaits
  | await req handler _ =>
      cases n with
      | zero => exact h.elim
      | succ n => exact Nat.succ_pos n

/-- An answer taken is one less to take. -/
theorem Within.resume {p : Program Req Resp Out} {n : Nat} (h : p.Within n)
    (hwaits : p.awaiting.isSome) (resp : Resp) : (p.resume resp).Within (n - 1) := by
  induction p with
  | done => cases hwaits
  | perform req next ih => exact ih h hwaits
  | emit out next ih => exact ih h hwaits
  | await req handler _ =>
      cases n with
      | zero => exact h.elim
      | succ n => exact h resp

/-- A program that waits for nothing has nothing left to do. -/
theorem resume_of_awaiting_none {p : Program Req Resp Out} (h : p.awaiting = none) (resp : Resp) :
    p.resume resp = done := by
  induction p with
  | done => rfl
  | perform req next ih => exact ih h
  | emit out next ih => exact ih h
  | await req handler _ => cases h

/-- A program that still waits has taken fewer answers than it takes. -/
theorem Within.length_lt {p : Program Req Resp Out} {n : Nat} (h : p.Within n)
    {resps : List Resp} (hwaits : (p.after resps).awaiting.isSome) : resps.length < n := by
  induction resps generalizing p n with
  | nil => exact h.pos hwaits
  | cons resp resps ih =>
      cases hrequest : p.awaiting with
      | none => simp [resume_of_awaiting_none hrequest, awaiting] at hwaits
      | some request =>
          have hfirst : p.awaiting.isSome := by simp [hrequest]
          have hpos := h.pos hfirst
          have hlt := ih (h.resume hfirst resp) hwaits
          rw [List.length_cons]
          omega

end Program

namespace Task

variable (prog : Job → Program Req Resp Out) (bound : Job → Nat)

/-- How many answers a task can still take. -/
def answersLeft (t : Task Job Req Resp) : Nat :=
  if (t.current prog).awaiting.isSome then bound t.job - t.answers.length else 0

variable {prog bound}

theorem answersLeft_le (t : Task Job Req Resp) : t.answersLeft prog bound ≤ bound t.job := by
  unfold answersLeft
  split <;> omega

/-- An answer taken is one less to take. -/
theorem answersLeft_handle (hbound : ∀ job, (prog job).Within (bound job))
    {t t' : Task Job Req Resp} (hsound : t.Sound prog) (h : t.handle prog = some t') :
    t'.answersLeft prog bound < t.answersLeft prog bound := by
  rcases handle_eq_some_iff.1 h with ⟨-, resp, harrived, rfl⟩
  have hwaits := hsound (by simp [harrived])
  have hlt := (hbound t.job).length_lt hwaits
  rw [answersLeft, answersLeft, if_pos hwaits]
  split
  · simp only [List.length_append, List.length_singleton]
    omega
  · omega

end Task

end CallbackProgram
