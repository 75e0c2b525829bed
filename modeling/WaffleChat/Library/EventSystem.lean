import Mathlib.Data.List.Infix

/-!
# Deterministic event systems

A system is a partial step function: an event is either not enabled in a state
or leads to exactly one next state.  All nondeterminism (a schedule, the answer
of a backend, a failure) is carried by the events, so a run is a list of events
and a property of all interleavings is a property of all lists.

Main results:

- Theorem `run_invariant`: a property kept by every step holds after every run.
- Theorem `run_invariant_of_stepsMeet`: the same for runs whose steps all meet
  a side condition.
- Theorem `run_trace_invariant`: a relation between states and observations.
- Theorem `always_iff_stepsMeet`: when a step keeps a property exactly if it
  meets a condition, a run keeps it throughout exactly if all its steps do.
- Theorem `always_iff_stepsMeet_of`: the same for runs whose steps all meet a
  side condition.
- Theorem `always_iff_stepsMeet_while`: the same with an invariant that is only
  needed as long as the property is kept.
-/

namespace EventSystem

variable {σ ε : Type*} (step : σ → ε → Option σ)

/-- Take the events one after another, failing at the first that is not enabled. -/
def run : σ → List ε → Option σ
  | s, [] => some s
  | s, e :: es => (step s e).bind fun s' => run s' es

/-- Every event of the run is taken in a state in which it meets `C`. -/
def StepsMeet (C : σ → ε → Prop) : σ → List ε → Prop
  | _, [] => True
  | s, e :: es => C s e ∧ ∀ s', step s e = some s' → StepsMeet C s' es

/-- Every state the run goes through satisfies `P`, its first and last included. -/
def Always (P : σ → Prop) : σ → List ε → Prop
  | s, [] => P s
  | s, e :: es => P s ∧ ∀ s', step s e = some s' → Always P s' es

/-- What an observer sees of a run, step by step. -/
def trace {ο : Type*} (observe : σ → ε → List ο) : σ → List ε → List ο
  | _, [] => []
  | s, e :: es => observe s e ++ ((step s e).elim [] fun s' => trace observe s' es)

/-- Some run leads from `s` to `t`. -/
def Reachable (s t : σ) : Prop :=
  ∃ es, run step s es = some t

/-- The state a run ends in; a run with an event that is not enabled does not count. -/
def final (s : σ) (es : List ε) : σ :=
  (run step s es).getD s

variable {step}

/-- The empty run stays where it is. -/
@[simp]
theorem run_nil (s : σ) : run step s [] = some s :=
  rfl

/-- A run makes its first step and then the rest. -/
theorem run_cons_eq_some {s t : σ} {e : ε} {es : List ε} :
    run step s (e :: es) = some t ↔
      ∃ s', step s e = some s' ∧ run step s' es = some t := by
  simp [run, Option.bind_eq_some_iff]

/-- Runs are put together at the state between them. -/
theorem run_append_eq_some {s t : σ} {es fs : List ε} :
    run step s (es ++ fs) = some t ↔
      ∃ s', run step s es = some s' ∧ run step s' fs = some t := by
  induction es generalizing s with
  | nil => simp
  | cons e es ih =>
      simp only [List.cons_append, run_cons_eq_some, ih]
      constructor
      · rintro ⟨a, ha, b, hb, hbt⟩
        exact ⟨b, ⟨a, ha, hb⟩, hbt⟩
      · rintro ⟨b, ⟨a, ha, hb⟩, hbt⟩
        exact ⟨a, ha, b, hb, hbt⟩

/-- A run that is possible ends in its final state. -/
theorem run_final {s : σ} {es : List ε} (h : (run step s es).isSome) :
    run step s es = some (final step s es) := by
  rcases Option.isSome_iff_exists.1 h with ⟨t, ht⟩
  simp [final, ht]

/-- The final state of a possible run is reachable. -/
theorem reachable_final {s : σ} {es : List ε} (h : (run step s es).isSome) :
    Reachable step s (final step s es) :=
  ⟨es, run_final h⟩

/-- A state is reachable from itself. -/
theorem Reachable.refl (s : σ) : Reachable step s s :=
  ⟨[], rfl⟩

/-- What is reachable from a reachable state is reachable. -/
theorem Reachable.trans {s t u : σ} (hst : Reachable step s t)
    (htu : Reachable step t u) : Reachable step s u := by
  rcases hst with ⟨es, hes⟩
  rcases htu with ⟨fs, hfs⟩
  exact ⟨es ++ fs, run_append_eq_some.2 ⟨t, hes, hfs⟩⟩

/-- What a step that ends by returning a state has read. -/
theorem bind_pure_eq_some {α β : Type _} {x : Option α} {f : α → β} {b : β} :
    (x >>= fun a => pure (f a)) = some b ↔ ∃ a, x = some a ∧ f a = b := by
  simp [Option.bind_eq_some_iff]

/-! ## Invariants -/

/-- A property kept by every enabled step holds after every run. -/
theorem run_invariant {P : σ → Prop}
    (hstep : ∀ s e s', P s → step s e = some s' → P s')
    {s t : σ} {es : List ε} (hs : P s) (hrun : run step s es = some t) : P t := by
  induction es generalizing s with
  | nil =>
      simp only [run_nil, Option.some.injEq] at hrun
      exact hrun ▸ hs
  | cons e es ih =>
      rcases run_cons_eq_some.1 hrun with ⟨s', hs', htail⟩
      exact ih (hstep s e s' hs hs') htail

/-- One more step is reachable. -/
theorem Reachable.next {s t u : σ} {e : ε} (hst : Reachable step s t)
    (htu : step t e = some u) : Reachable step s u :=
  hst.trans ⟨[e], run_cons_eq_some.2 ⟨u, htu, rfl⟩⟩

/-- A property kept by the steps from reachable states holds of all of them. -/
theorem Reachable.invariant {P : σ → Prop} {s t : σ}
    (hstep : ∀ a e b, Reachable step s a → P a → step a e = some b → P b)
    (hs : P s) (hreach : Reachable step s t) : P t := by
  have hboth : Reachable step s t ∧ P t := by
    rcases hreach with ⟨es, hes⟩
    refine run_invariant (P := fun a => Reachable step s a ∧ P a) ?_ ⟨.refl s, hs⟩ hes
    intro a e b ha hab
    exact ⟨Reachable.next ha.1 hab, hstep a e b ha.1 ha.2 hab⟩
  exact hboth.2

/-- A property kept by the steps that meet `C` holds after every run whose steps
all meet `C`. -/
theorem run_invariant_of_stepsMeet {P : σ → Prop} {C : σ → ε → Prop}
    (hstep : ∀ s e s', C s e → P s → step s e = some s' → P s')
    {s t : σ} {es : List ε} (hC : StepsMeet step C s es) (hs : P s)
    (hrun : run step s es = some t) : P t := by
  induction es generalizing s with
  | nil =>
      simp only [run_nil, Option.some.injEq] at hrun
      exact hrun ▸ hs
  | cons e es ih =>
      rcases run_cons_eq_some.1 hrun with ⟨s', hs', htail⟩
      exact ih (hC.2 s' hs') (hstep s e s' hC.1 hs hs') htail

/-- A relation between the state and what has been observed so far, kept by every
step, relates the state after a run to the trace of the run. -/
theorem run_trace_invariant {ο : Type*} {observe : σ → ε → List ο} {R : List ο → σ → Prop}
    (hstep : ∀ obs s e s', R obs s → step s e = some s' → R (obs ++ observe s e) s')
    {s t : σ} {es : List ε} {obs : List ο} (hs : R obs s) (hrun : run step s es = some t) :
    R (obs ++ trace step observe s es) t := by
  induction es generalizing s obs with
  | nil =>
      simp only [run_nil, Option.some.injEq] at hrun
      simpa [trace] using hrun ▸ hs
  | cons e es ih =>
      rcases run_cons_eq_some.1 hrun with ⟨s', hs', htail⟩
      have hrest := ih (hstep obs s e s' hs hs') htail
      simpa [trace, hs', List.append_assoc] using hrest

/-! ## Conditions on the steps of a run -/

instance decidableStepsMeet {C : σ → ε → Prop} [∀ s e, Decidable (C s e)] :
    ∀ s es, Decidable (StepsMeet step C s es)
  | _, [] => .isTrue trivial
  | s, e :: es =>
      match h : step s e with
      | none => decidable_of_iff (C s e) (by simp [StepsMeet, h])
      | some s' =>
          have : Decidable (StepsMeet step C s' es) := decidableStepsMeet s' es
          decidable_of_iff (C s e ∧ StepsMeet step C s' es) (by simp [StepsMeet, h])

/-- A condition on the events alone is checked on the list of events. -/
theorem stepsMeet_of_forall_mem {Q : ε → Prop} {s : σ} {es : List ε}
    (hQ : ∀ e ∈ es, Q e) : StepsMeet step (fun _ e => Q e) s es := by
  induction es generalizing s with
  | nil => trivial
  | cons e es ih =>
      exact ⟨hQ e List.mem_cons_self,
        fun s' _ => ih fun f hf => hQ f (List.mem_cons_of_mem e hf)⟩

/-- What all steps meet, the step at each position meets. -/
theorem StepsMeet.getElem {C : σ → ε → Prop} {s a : σ} {es : List ε}
    (hC : StepsMeet step C s es) {n : Nat} (hn : n < es.length)
    (hrun : run step s (es.take n) = some a) : C a es[n] := by
  induction es generalizing s n with
  | nil => cases hn
  | cons e es ih =>
      cases n with
      | zero =>
          obtain rfl := Option.some.inj hrun
          exact hC.1
      | succ n =>
          rcases run_cons_eq_some.1 hrun with ⟨b, hb, hrest⟩
          exact ih (hC.2 b hb) (Nat.lt_of_succ_lt_succ hn) hrest

/-- No condition at all. -/
theorem stepsMeet_true (s : σ) (es : List ε) : StepsMeet step (fun _ _ => True) s es :=
  stepsMeet_of_forall_mem (Q := fun _ => True) fun _ _ => trivial

/-- Two conditions met by all steps are met together. -/
theorem StepsMeet.and {C D : σ → ε → Prop} {s : σ} {es : List ε}
    (hC : StepsMeet step C s es) (hD : StepsMeet step D s es) :
    StepsMeet step (fun s e => C s e ∧ D s e) s es := by
  induction es generalizing s with
  | nil => trivial
  | cons e es ih =>
      refine ⟨⟨hC.1, hD.1⟩, ?_⟩
      intro s' hs'
      exact ih (hC.2 s' hs') (hD.2 s' hs')

/-- Conditions that agree on the steps that meet `D` from states with the invariant `I` agree
on runs whose steps all meet `D`. -/
theorem stepsMeet_congr_of {I : σ → Prop} {C C' D : σ → ε → Prop}
    (hI : ∀ s e s', D s e → I s → step s e = some s' → I s')
    (hC : ∀ s e s', D s e → I s → step s e = some s' → (C s e ↔ C' s e))
    {s t : σ} {es : List ε} (hD : StepsMeet step D s es) (hIs : I s)
    (hrun : run step s es = some t) :
    StepsMeet step C s es ↔ StepsMeet step C' s es := by
  induction es generalizing s with
  | nil => exact Iff.rfl
  | cons e es ih =>
      rcases run_cons_eq_some.1 hrun with ⟨s', hs', htail⟩
      have hrest : StepsMeet step C s' es ↔ StepsMeet step C' s' es :=
        ih (hD.2 s' hs') (hI s e s' hD.1 hIs hs') htail
      simp only [StepsMeet, hC s e s' hD.1 hIs hs', hs', Option.some.injEq, forall_eq', hrest]

/-- Conditions that agree on the steps from states with the invariant `I` agree on runs. -/
theorem stepsMeet_congr {I : σ → Prop} {C D : σ → ε → Prop}
    (hI : ∀ s e s', I s → step s e = some s' → I s')
    (hCD : ∀ s e s', I s → step s e = some s' → (C s e ↔ D s e))
    {s t : σ} {es : List ε} (hIs : I s) (hrun : run step s es = some t) :
    StepsMeet step C s es ↔ StepsMeet step D s es :=
  stepsMeet_congr_of (fun s e s' _ => hI s e s') (fun s e s' _ => hCD s e s')
    (stepsMeet_true s es) hIs hrun

/-- If, under the invariant `I`, a step that meets `D` leads from a state with `P` to a
state with `P` exactly when it meets `C`, then a run whose steps all meet `D` stays in
`P` throughout exactly when all its steps meet `C`.  The invariant is only needed as long
as the run stays in `P`. -/
theorem always_iff_stepsMeet_while {I P : σ → Prop} {C D : σ → ε → Prop}
    (hI : ∀ s e s', D s e → I s → P s' → step s e = some s' → I s')
    (hP : ∀ s e s', D s e → I s → P s → step s e = some s' → (P s' ↔ C s e))
    {s t : σ} {es : List ε} (hD : StepsMeet step D s es) (hIs : I s) (hPs : P s)
    (hrun : run step s es = some t) :
    Always step P s es ↔ StepsMeet step C s es := by
  induction es generalizing s with
  | nil => exact ⟨fun _ => trivial, fun _ => hPs⟩
  | cons e es ih =>
      rcases run_cons_eq_some.1 hrun with ⟨s', hs', htail⟩
      have hnext : P s' ↔ C s e := hP s e s' hD.1 hIs hPs hs'
      have hrest : P s' → (Always step P s' es ↔ StepsMeet step C s' es) :=
        fun hPs' => ih (hD.2 s' hs') (hI s e s' hD.1 hIs hPs' hs') hPs' htail
      have hhead : Always step P s' es → P s' := by
        intro halways
        cases es with
        | nil => exact halways
        | cons f fs => exact halways.1
      simp only [Always, StepsMeet]
      constructor
      · rintro ⟨-, halways⟩
        have hPs' : P s' := hhead (halways s' hs')
        refine ⟨hnext.1 hPs', ?_⟩
        intro u hu
        obtain rfl : s' = u := Option.some.inj (hs'.symm.trans hu)
        exact (hrest hPs').1 (halways s' hs')
      · rintro ⟨hC, hmeet⟩
        have hPs' : P s' := hnext.2 hC
        refine ⟨hPs, ?_⟩
        intro u hu
        obtain rfl : s' = u := Option.some.inj (hs'.symm.trans hu)
        exact (hrest hPs').2 (hmeet s' hs')

/-- The same for an invariant that every step which meets `D` keeps. -/
theorem always_iff_stepsMeet_of {I P : σ → Prop} {C D : σ → ε → Prop}
    (hI : ∀ s e s', D s e → I s → step s e = some s' → I s')
    (hP : ∀ s e s', D s e → I s → P s → step s e = some s' → (P s' ↔ C s e))
    {s t : σ} {es : List ε} (hD : StepsMeet step D s es) (hIs : I s) (hPs : P s)
    (hrun : run step s es = some t) :
    Always step P s es ↔ StepsMeet step C s es :=
  always_iff_stepsMeet_while (fun s e s' hDe hIs _ => hI s e s' hDe hIs) hP hD hIs hPs hrun

/-- If, under the invariant `I`, a step from a state with `P` leads to a state
with `P` exactly when it meets `C`, then a run stays in `P` throughout exactly
when all its steps meet `C`. -/
theorem always_iff_stepsMeet {I P : σ → Prop} {C : σ → ε → Prop}
    (hI : ∀ s e s', I s → step s e = some s' → I s')
    (hP : ∀ s e s', I s → P s → step s e = some s' → (P s' ↔ C s e))
    {s t : σ} {es : List ε} (hIs : I s) (hPs : P s)
    (hrun : run step s es = some t) :
    Always step P s es ↔ StepsMeet step C s es :=
  always_iff_stepsMeet_of (fun s e s' _ => hI s e s') (fun s e s' _ => hP s e s')
    (stepsMeet_true s es) hIs hPs hrun

/-- Nothing is observed of a run exactly if nothing is observed of any of its steps. -/
theorem trace_eq_nil_iff {ο : Type*} {observe : σ → ε → List ο} {s t : σ} {es : List ε}
    (hrun : run step s es = some t) :
    trace step observe s es = [] ↔ StepsMeet step (fun s e => observe s e = []) s es := by
  induction es generalizing s with
  | nil => exact iff_of_true rfl trivial
  | cons e es ih =>
      rcases run_cons_eq_some.1 hrun with ⟨s', hs', htail⟩
      simp only [trace, StepsMeet, hs', Option.elim_some, List.append_eq_nil_iff,
        Option.some.injEq, forall_eq', ih htail]

/-! ## Histories -/

/-- Every entry of a history meets `C` with the entries before it. -/
def EachAfter {ο : Type*} (C : List ο → ο → Prop) : List ο → List ο → Prop
  | _, [] => True
  | past, o :: os => C past o ∧ EachAfter C (past ++ [o]) os

/-- One more output is judged by all before it. -/
theorem eachAfter_concat {ο : Type*} {C : List ο → ο → Prop} {past os : List ο} {o : ο} :
    EachAfter C past (os ++ [o]) ↔ EachAfter C past os ∧ C (past ++ os) o := by
  induction os generalizing past with
  | nil => simp [EachAfter]
  | cons head os ih => simp [EachAfter, ih, and_assoc, List.append_assoc]

instance decidableEachAfter {ο : Type*} {C : List ο → ο → Prop}
    [∀ past o, Decidable (C past o)] : ∀ past os, Decidable (EachAfter C past os)
  | _, [] => .isTrue trivial
  | past, o :: os =>
      have : Decidable (EachAfter C (past ++ [o]) os) := decidableEachAfter (past ++ [o]) os
      inferInstanceAs (Decidable (C past o ∧ EachAfter C (past ++ [o]) os))

end EventSystem
