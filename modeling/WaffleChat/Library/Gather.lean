import Mathlib.Data.List.Basic
import Mathlib.Data.List.Perm.Basic

/-!
# Gathering contributions of a pool

A system of many participants keeps them in a list and addresses them by their
position.  What the participants contribute to a shared collection is gathered
position by position; the order inside the collection does not matter, so a
change of one participant changes the gathered collection by what that
participant contributes in addition.

Main results:

- Theorem `mem_gather`: membership in a gathered collection.
- Theorem `gather_set_perm`: changing one participant.
- Theorems `gather_append_perm` and `gather_ite`: splitting contributions and
  reading them off as a filtered list.
- Theorem `filter_or_perm`: splitting a filtered list by disjoint tests.
-/

namespace Gather

variable {α β : Type*}

/-- All contributions `f i a` of the elements `a` at the positions `i`. -/
def gather (f : Nat → α → List β) (l : List α) : List β :=
  (l.mapIdx f).flatten

@[simp]
theorem gather_nil (f : Nat → α → List β) : gather f [] = [] :=
  rfl

theorem gather_cons (f : Nat → α → List β) (a : α) (l : List α) :
    gather f (a :: l) = f 0 a ++ gather (fun i => f (i + 1)) l := by
  simp [gather, List.mapIdx_cons]

/-- A new participant contributes at the end. -/
theorem gather_concat (f : Nat → α → List β) (l : List α) (a : α) :
    gather f (l ++ [a]) = gather f l ++ f l.length a := by
  simp [gather]

theorem mem_gather {f : Nat → α → List β} {l : List α} {b : β} :
    b ∈ gather f l ↔ ∃ i a, l[i]? = some a ∧ b ∈ f i a := by
  induction l generalizing f with
  | nil => simp
  | cons c l ih =>
      simp only [gather_cons, List.mem_append, ih]
      constructor
      · rintro (h | ⟨i, a, hget, hb⟩)
        · exact ⟨0, c, rfl, h⟩
        · exact ⟨i + 1, a, hget, hb⟩
      · rintro ⟨i, a, hget, hb⟩
        cases i with
        | zero =>
            obtain rfl : c = a := by simpa using hget
            exact Or.inl hb
        | succ i => exact Or.inr ⟨i, a, by simpa using hget, hb⟩

/-- When one participant contributes `extra` in addition, so does the pool. -/
theorem gather_set_perm {f : Nat → α → List β} {l : List α} {i : Nat} {a a' : α}
    {extra : List β} (hget : l[i]? = some a) (hf : (f i a').Perm (f i a ++ extra)) :
    (gather f (l.set i a')).Perm (gather f l ++ extra) := by
  induction l generalizing f i with
  | nil => simp at hget
  | cons c l ih =>
      cases i with
      | zero =>
          obtain rfl : c = a := by simpa using hget
          simp only [List.set_cons_zero, gather_cons]
          calc
            (f 0 a' ++ gather (fun i => f (i + 1)) l).Perm
                ((f 0 c ++ extra) ++ gather (fun i => f (i + 1)) l) :=
              hf.append_right _
            _ = f 0 c ++ (extra ++ gather (fun i => f (i + 1)) l) := by
              rw [List.append_assoc]
            List.Perm _ (f 0 c ++ (gather (fun i => f (i + 1)) l ++ extra)) :=
              List.perm_append_comm.append_left _
            _ = f 0 c ++ gather (fun i => f (i + 1)) l ++ extra := by
              rw [List.append_assoc]
      | succ i =>
          have hget' : l[i]? = some a := by simpa using hget
          have htail := ih (f := fun i => f (i + 1)) hget' hf
          simp only [List.set_cons_succ, gather_cons, List.append_assoc]
          exact htail.append_left _

/-- A participant whose contribution is unchanged leaves the pool unchanged. -/
theorem gather_set_eq {f : Nat → α → List β} {l : List α} {i : Nat} {a a' : α}
    (hget : l[i]? = some a) (hf : f i a' = f i a) :
    gather f (l.set i a') = gather f l := by
  induction l generalizing f i with
  | nil => simp at hget
  | cons c l ih =>
      cases i with
      | zero =>
          obtain rfl : c = a := by simpa using hget
          simp only [List.set_cons_zero, gather_cons, hf]
      | succ i =>
          have hget' : l[i]? = some a := by simpa using hget
          simp only [List.set_cons_succ, gather_cons]
          rw [ih (f := fun i => f (i + 1)) hget' hf]

/-- When one participant contributes `removed` less, so does the pool. -/
theorem gather_perm_set {f : Nat → α → List β} {l : List α} {i : Nat} {a a' : α}
    {removed : List β} (hget : l[i]? = some a) (hf : (f i a).Perm (f i a' ++ removed)) :
    (gather f l).Perm (gather f (l.set i a') ++ removed) := by
  rcases List.getElem?_eq_some_iff.1 hget with ⟨hi, hget'⟩
  have hnew : (l.set i a')[i]? = some a' := by simp [hi]
  have hback : (l.set i a').set i a = l := by simp [← hget']
  simpa only [hback] using gather_set_perm hnew hf

/-- Contributions of two kinds can be gathered one kind after the other. -/
theorem gather_append_perm (f g : Nat → α → List β) (l : List α) :
    (gather (fun i a => f i a ++ g i a) l).Perm (gather f l ++ gather g l) := by
  induction l generalizing f g with
  | nil => exact List.Perm.refl _
  | cons a l ih =>
      simp only [gather_cons, List.append_assoc]
      refine List.Perm.append_left _ ?_
      calc
        (g 0 a ++ gather (fun i a => f (i + 1) a ++ g (i + 1) a) l).Perm
            (g 0 a ++ (gather (fun i => f (i + 1)) l ++ gather (fun i => g (i + 1)) l)) :=
          (ih (fun i => f (i + 1)) fun i => g (i + 1)).append_left _
        _ = (g 0 a ++ gather (fun i => f (i + 1)) l) ++ gather (fun i => g (i + 1)) l := by
          rw [List.append_assoc]
        List.Perm _ ((gather (fun i => f (i + 1)) l ++ g 0 a) ++
            gather (fun i => g (i + 1)) l) :=
          List.perm_append_comm.append_right _
        _ = gather (fun i => f (i + 1)) l ++ (g 0 a ++ gather (fun i => g (i + 1)) l) := by
          rw [List.append_assoc]

/-- At most one contribution for each element: a filtered and mapped list. -/
theorem gather_ite {p : α → Prop} [DecidablePred p] (g : α → β) (l : List α) :
    gather (fun _ a => if p a then [g a] else []) l = (l.filter fun a => p a).map g := by
  induction l with
  | nil => rfl
  | cons a l ih =>
      by_cases h : p a <;> simp [gather_cons, ih, h]

/-- Filtering by two disjoint tests at once or one after the other. -/
theorem filter_or_perm {p q : α → Prop} [DecidablePred p] [DecidablePred q]
    (hdisjoint : ∀ a, p a → ¬ q a) (l : List α) :
    (l.filter fun a => p a ∨ q a).Perm
      ((l.filter fun a => p a) ++ l.filter fun a => q a) := by
  induction l with
  | nil => exact List.Perm.refl _
  | cons a l ih =>
      by_cases hp : p a
      · have hq : ¬ q a := hdisjoint a hp
        simpa [hp, hq] using ih
      · by_cases hq : q a
        · simpa [hp, hq] using (ih.cons a).trans List.perm_middle.symm
        · simpa [hp, hq] using ih

theorem map_gather {γ : Type*} (h : β → γ) (f : Nat → α → List β) (l : List α) :
    (gather f l).map h = gather (fun i a => (f i a).map h) l := by
  induction l generalizing f with
  | nil => rfl
  | cons a l ih => simp [gather_cons, ih]

theorem gather_map {γ : Type*} (f : Nat → α → List β) (h : γ → α) (l : List γ) :
    gather f (l.map h) = gather (fun i c => f i (h c)) l := by
  induction l generalizing f with
  | nil => rfl
  | cons c l ih => simp [gather_cons, ih]

/-! ## Counting -/

/-- Changing one participant changes a count by what is said of that participant. -/
theorem countP_set_add {p : α → Bool} {l : List α} {i : Nat} {a : α} (hget : l[i]? = some a)
    (a' : α) :
    (l.set i a').countP p + (if p a then 1 else 0) = l.countP p + (if p a' then 1 else 0) := by
  rcases List.getElem?_eq_some_iff.1 hget with ⟨hlt, hat⟩
  have hpos : p a = true → 0 < l.countP p := fun hp =>
    List.countP_pos_iff.2 ⟨a, List.mem_of_getElem? hget, hp⟩
  rw [List.countP_set hlt, hat]
  cases hp : p a with
  | false => simp
  | true =>
      have hcount := hpos hp
      simp only [if_true]
      omega

end Gather
