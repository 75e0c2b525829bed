import Mathlib.Data.List.GetD
import WaffleChat.Library.EventSystem

/-!
# Infinite executions of event systems

An execution takes one event after another for ever.  What must happen
eventually is stated over executions: an assumption that some events keep
coming, and a measure that these events decrease and no event increases.

Main results:

- Theorem `Execution.reachable`: an execution only goes through reachable states.
- Theorem `Execution.eventually_zero`: a measure that never grows, and shrinks
  again and again while it is positive, becomes zero.
- Theorem `Execution.meets_ofRun`: a run that is prolonged by one event for ever.
-/

namespace EventSystem

variable {σ ε : Type*} {step : σ → ε → Option σ} {s : σ}

/-- An infinite execution from the state `s`. -/
structure Execution (step : σ → ε → Option σ) (s : σ) where
  state : ℕ → σ
  event : ℕ → ε
  state_zero : state 0 = s
  step_eq : ∀ n, step (state n) (event n) = some (state (n + 1))

namespace Execution

/-- An execution only goes through reachable states. -/
theorem reachable (x : Execution step s) (n : ℕ) : Reachable step s (x.state n) := by
  induction n with
  | zero =>
      rw [x.state_zero]
      exact Reachable.refl s
  | succ n ih => exact ih.next (x.step_eq n)

/-- The events up to a time are a run. -/
theorem run_events (x : Execution step s) (n : ℕ) :
    run step s ((List.range n).map x.event) = some (x.state n) := by
  induction n with
  | zero => exact congrArg some x.state_zero.symm
  | succ n ih =>
      rw [List.range_succ, List.map_append]
      exact run_append_eq_some.2 ⟨_, ih, run_cons_eq_some.2 ⟨_, x.step_eq n, rfl⟩⟩

/-- A property kept by the steps from reachable states is kept by an execution. -/
theorem keeps (x : Execution step s) {P : σ → Prop}
    (hstep : ∀ a e b, Reachable step s a → P a → step a e = some b → P b)
    {m n : ℕ} (hmn : m ≤ n) (hm : P (x.state m)) : P (x.state n) := by
  induction n, hmn using Nat.le_induction with
  | base => exact hm
  | succ n _ ih => exact hstep _ _ _ (x.reachable n) ih (x.step_eq n)

/-- A measure that no step increases, and that some later step decreases whenever it is
positive, becomes zero. -/
theorem eventually_zero (x : Execution step s) (measure : σ → ℕ) {m : ℕ}
    (hmono : ∀ n, m ≤ n → measure (x.state (n + 1)) ≤ measure (x.state n))
    (hdecrease : ∀ n, m ≤ n → 0 < measure (x.state n) →
      ∃ k, n ≤ k ∧ measure (x.state (k + 1)) < measure (x.state k)) :
    ∃ n, m ≤ n ∧ measure (x.state n) = 0 := by
  have hle : ∀ {n k}, m ≤ n → n ≤ k → measure (x.state k) ≤ measure (x.state n) := by
    intro n k hmn hnk
    induction k, hnk using Nat.le_induction with
    | base => exact le_refl _
    | succ k hnk ih => exact (hmono k (hmn.trans hnk)).trans ih
  -- induction on a bound of the measure at the time reached so far
  have hbound : ∀ bound n, m ≤ n → measure (x.state n) ≤ bound →
      ∃ k, m ≤ k ∧ measure (x.state k) = 0 := by
    intro bound
    induction bound with
    | zero =>
        intro n hmn hzero
        exact ⟨n, hmn, Nat.le_zero.1 hzero⟩
    | succ bound ih =>
        intro n hmn hn
        by_cases hpos : 0 < measure (x.state n)
        · obtain ⟨k, hnk, hk⟩ := hdecrease n hmn hpos
          have hless : measure (x.state (k + 1)) < measure (x.state n) :=
            hk.trans_le (hle hmn hnk)
          exact ih (k + 1) (by omega) (by omega)
        · exact ⟨n, hmn, by omega⟩
  exact hbound _ m (le_refl m) (le_refl _)

/-- A measure that has become less has been decreased by a step in between. -/
theorem exists_decrease (x : Execution step s) (measure : σ → ℕ) {n k : ℕ} (hnk : n ≤ k)
    (hless : measure (x.state k) < measure (x.state n)) :
    ∃ j, n ≤ j ∧ measure (x.state (j + 1)) < measure (x.state j) := by
  induction k, hnk using Nat.le_induction with
  | base => exact absurd hless (Nat.lt_irrefl _)
  | succ k hnk ih =>
      by_cases hlast : measure (x.state (k + 1)) < measure (x.state k)
      · exact ⟨k, hnk, hlast⟩
      · exact ih (by omega)

/-! ## A run followed by one event for ever -/

/-- The state an execution made of the run `es` and then of `e` for ever is in. -/
def stateOf (step : σ → ε → Option σ) (s : σ) (es : List ε) (n : ℕ) : σ :=
  final step s (es.take n)

theorem stateOf_of_length_le {es : List ε} {t : σ} (hrun : run step s es = some t) {n : ℕ}
    (hn : es.length ≤ n) : stateOf step s es n = t := by
  simp [stateOf, final, List.take_of_length_le hn, hrun]

theorem stateOf_step {es : List ε} {t : σ} {e : ε} (hrun : run step s es = some t)
    (hloop : step t e = some t) (n : ℕ) :
    step (stateOf step s es n) (es.getD n e) = some (stateOf step s es (n + 1)) := by
  by_cases hn : n < es.length
  · have htake : es.take (n + 1) = es.take n ++ [es[n]] := List.take_succ_eq_append_getElem hn
    have hsplit : run step s (es.take (n + 1) ++ es.drop (n + 1)) = some t := by
      rw [List.take_append_drop]
      exact hrun
    rcases run_append_eq_some.1 hsplit with ⟨b, hb, -⟩
    rw [htake] at hb
    rcases run_append_eq_some.1 hb with ⟨a, ha, hab⟩
    rcases run_cons_eq_some.1 hab with ⟨c, hc, hcb⟩
    obtain rfl : c = b := Option.some.inj hcb
    have hbefore : stateOf step s es n = a := by simp [stateOf, final, ha]
    have hafter : stateOf step s es (n + 1) = c := by
      rw [stateOf, final, htake, hb]
      rfl
    rw [hbefore, hafter, List.getD_eq_getElem _ _ hn]
    exact hc
  · rw [stateOf_of_length_le hrun (by omega), stateOf_of_length_le hrun (by omega),
      List.getD_eq_default _ _ (by omega)]
    exact hloop

/-- The run `es` and then `e` for ever, where `e` leaves the last state as it is. -/
def ofRun {es : List ε} {t : σ} {e : ε} (hrun : run step s es = some t)
    (hloop : step t e = some t) : Execution step s where
  state := stateOf step s es
  event n := es.getD n e
  state_zero := by simp [stateOf, final]
  step_eq := stateOf_step hrun hloop

/-- What all steps of the run and the last one meet is met throughout. -/
theorem meets_ofRun {C : σ → ε → Prop} {es : List ε} {t : σ} {e : ε}
    (hC : StepsMeet step C s es) (ht : C t e) (hrun : run step s es = some t)
    (hloop : step t e = some t) (n : ℕ) :
    C ((ofRun hrun hloop).state n) ((ofRun hrun hloop).event n) := by
  change C (stateOf step s es n) (es.getD n e)
  by_cases hn : n < es.length
  · have hsplit : run step s (es.take n ++ es.drop n) = some t := by
      rw [List.take_append_drop]
      exact hrun
    rcases run_append_eq_some.1 hsplit with ⟨a, ha, -⟩
    have hstate : stateOf step s es n = a := by simp [stateOf, final, ha]
    rw [hstate, List.getD_eq_getElem _ _ hn]
    exact hC.getElem hn ha
  · rw [stateOf_of_length_le hrun (by omega), List.getD_eq_default _ _ (by omega)]
    exact ht

end Execution

end EventSystem
