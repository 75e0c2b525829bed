import Mathlib.Data.List.Basic

/-!
# Interleaved sequences

A list into which several sequences have been merged: the elements of one sequence
are those that satisfy a test, and filtering by the test gives the sequence back.

Main results:

- Theorem `ends_with_pair`: where the last two elements of a sequence stand in the
  merged list when the list ends with the sequence.
- Theorem `filter_flatMap_of_const`: filtering a list of blocks by a test that does
  not split any block.
-/

namespace Interleaving

variable {α β : Type*}

/-- If a sequence ends with `x`, `y` and the merged list ends with an element of that
sequence, it ends with `y`, and only other elements stand between `x` and `y`. -/
theorem ends_with_pair {p : α → Bool} {l pre : List α} {x y last : α}
    (h : l.filter p = pre ++ [x, y]) (hlast : l.getLast? = some last) (hp : p last) :
    ∃ pre' mid, l = pre' ++ x :: (mid ++ [y]) ∧ ∀ a ∈ mid, ¬ p a := by
  rcases List.filter_eq_append_iff.1 h with ⟨l₁, l₂, rfl, -, h₂⟩
  rcases List.filter_eq_cons_iff.1 h₂ with ⟨m₁, m₂, rfl, -, -, h₃⟩
  rcases List.filter_eq_cons_iff.1 h₃ with ⟨mid, tail, rfl, hmid, hy, htail⟩
  have htail' : tail = [] := by
    rcases List.eq_nil_or_concat tail with hnil | ⟨init, z, rfl⟩
    · exact hnil
    · have hconcat : l₁ ++ (m₁ ++ x :: (mid ++ y :: init.concat z)) =
          (l₁ ++ (m₁ ++ x :: (mid ++ y :: init))) ++ [z] := by simp
      have hz : last = z := by
        rw [hconcat, List.getLast?_concat] at hlast
        exact (Option.some.inj hlast).symm
      have hnone := List.filter_eq_nil_iff.1 htail z (by simp)
      exact absurd (hz ▸ hp) hnone
  subst htail'
  exact ⟨l₁ ++ m₁, mid, by simp, hmid⟩

/-- A test that does not split any block can be applied to the blocks. -/
theorem filter_flatMap_of_const {f : α → List β} {p : β → Bool} {q : α → Bool}
    {l : List α} (h : ∀ a ∈ l, ∀ b ∈ f a, p b = q a) :
    (l.flatMap f).filter p = (l.filter q).flatMap f := by
  induction l with
  | nil => rfl
  | cons a l ih =>
      have htail := ih fun c hc => h c (List.mem_cons_of_mem a hc)
      have hhead := h a List.mem_cons_self
      cases hq : q a with
      | false =>
          have hnil : (f a).filter p = [] :=
            List.filter_eq_nil_iff.2 fun b hb => by simp [hhead b hb, hq]
          simp [List.flatMap_cons, hnil, htail, hq]
      | true =>
          have hall : (f a).filter p = f a :=
            List.filter_eq_self.2 fun b hb => by simp [hhead b hb, hq]
          simp [List.flatMap_cons, hall, htail, hq]

end Interleaving
