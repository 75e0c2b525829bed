import Mathlib.Data.Fintype.Defs
import Mathlib.Logic.Function.Basic

/-!
# The latest elements of several sources

The sink that combines finitely many sources of different types: it keeps the latest
element of each, and emits all of them whenever one changes, once every source has had
an element.

Main results:

- Theorem `current_eq_some_iff`: what a combination consists of.
- Theorem `emitted_or_current`: a combination stays in effect until the next one.
- Theorem `Reflects.current_eq`: a combination of elements that are up to date is up to
  date.
-/

namespace Observers

/-- The latest elements of the sources `ι`, whose elements have the types `α`. -/
structure CombineLatest {ι : Type} (α : ι → Type) where
  latest : ∀ i, Option (α i)

namespace CombineLatest

variable {ι : Type} {α : ι → Type}

/-- No source has had an element. -/
def fresh : CombineLatest α where
  latest := fun _ => none

/-- The combination in effect. -/
def current [Fintype ι] (sink : CombineLatest α) : Option (∀ i, α i) :=
  if h : ∀ i, (sink.latest i).isSome then some fun i => (sink.latest i).get (h i) else none

/-- An element of source `i`, and the combination the sink then emits. -/
def on [Fintype ι] [DecidableEq ι] (sink : CombineLatest α) (i : ι) (element : α i) :
    CombineLatest α × Option (∀ i, α i) :=
  let sink' : CombineLatest α := ⟨Function.update sink.latest i (some element)⟩
  (sink', sink'.current)

/-! ## The combination in effect -/

theorem current_eq_some_iff [Fintype ι] {sink : CombineLatest α} {values : ∀ i, α i} :
    sink.current = some values ↔ ∀ i, sink.latest i = some (values i) := by
  unfold current
  constructor
  · intro h i
    split at h
    · rw [← Option.some.inj h, Option.some_get]
    · cases h
  · intro h
    rw [dif_pos fun i => by rw [h i]; rfl]
    congr 1
    funext i
    simp [h i]

theorem current_eq_none_iff [Fintype ι] {sink : CombineLatest α} :
    sink.current = none ↔ ∃ i, sink.latest i = none := by
  simp [current]

variable [Fintype ι] [DecidableEq ι]

/-- What the sink emits is in effect from then on. -/
theorem current_on (sink : CombineLatest α) (i : ι) (element : α i) :
    (sink.on i element).1.current = (sink.on i element).2 :=
  rfl

/-- While the sink emits nothing, nothing has been in effect. -/
theorem emitted_or_current (sink : CombineLatest α) (i : ι) (element : α i) :
    (sink.on i element).2.or sink.current = (sink.on i element).2 := by
  cases hemitted : (sink.on i element).2 with
  | some values => rfl
  | none =>
      obtain ⟨j, hj⟩ : ∃ j, Function.update sink.latest i (some element) j = none :=
        current_eq_none_iff.1 hemitted
      have hold : sink.latest j = none := by
        by_cases hij : j = i
        · subst hij
          simp at hj
        · rwa [Function.update_of_ne hij] at hj
      exact current_eq_none_iff.2 ⟨j, hold⟩

/-! ## Up-to-date elements -/

/-- Every source that has had an element has its value in `fields` as the latest. -/
def Reflects (sink : CombineLatest α) (fields : ∀ i, α i) : Prop :=
  ∀ i, ∀ element ∈ sink.latest i, element = fields i

omit [Fintype ι] [DecidableEq ι] in
theorem reflects_fresh (fields : ∀ i, α i) : (fresh : CombineLatest α).Reflects fields := by
  intro i element h
  cases h

/-- An element that is the new value of its field keeps the sink up to date. -/
theorem Reflects.on {sink : CombineLatest α} {fields : ∀ i, α i} (h : sink.Reflects fields)
    (i : ι) (element : α i) :
    (sink.on i element).1.Reflects (Function.update fields i element) := by
  intro j value hvalue
  by_cases hij : j = i
  · subst hij
    simpa [CombineLatest.on, eq_comm] using hvalue
  · rw [Function.update_of_ne hij]
    refine h j value ?_
    simpa [CombineLatest.on, Function.update_of_ne hij] using hvalue

omit [DecidableEq ι] in
theorem Reflects.current_eq {sink : CombineLatest α} {fields values : ∀ i, α i}
    (h : sink.Reflects fields) (hcurrent : sink.current = some values) : values = fields := by
  funext i
  exact h i (values i) (current_eq_some_iff.1 hcurrent i)

end CombineLatest

end Observers
