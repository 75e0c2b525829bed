import Mathlib.Data.List.Sort

/-!
# Lists sorted by a key

Lists whose elements are strictly increasing in a key of a linear order.  Such a
list is determined by its elements, whatever order they arrived in.

Main results:

- Theorem `eq_of_perm`: two strictly sorted lists with the same elements are equal.
- Theorem `append_of_later`: adding elements that are later than all elements of a
  sorted list adds them at its end.
-/

namespace KeySorted

variable {α κ : Type*} [LinearOrder κ] (key : α → κ)

/-- The elements are strictly increasing in the key. -/
def StrictlySorted (l : List α) : Prop :=
  l.Pairwise fun a b => key a < key b

variable {key}

/-- Elements of a strictly sorted list with the same key are equal. -/
theorem StrictlySorted.eq_of_key_eq {l : List α} (h : StrictlySorted key l) {a b : α}
    (ha : a ∈ l) (hb : b ∈ l) (hkey : key a = key b) : a = b := by
  have hmap : (l.map key).Nodup :=
    List.pairwise_map.2 (h.imp fun hlt => hlt.ne)
  exact List.inj_on_of_nodup_map hmap ha hb hkey

/-- A strictly sorted list is determined by its elements. -/
theorem eq_of_perm {l l' : List α} (hl : l.Pairwise fun a b => key a ≤ key b)
    (hl' : StrictlySorted key l') (hperm : l.Perm l') : l = l' := by
  refine List.Perm.eq_of_pairwise ?_ hl (hl'.imp fun hlt => hlt.le) hperm
  intro a b ha hb hab hba
  exact hl'.eq_of_key_eq (hperm.subset ha) hb (le_antisymm hab hba)

/-- Elements with distinct keys can be arranged strictly sorted. -/
theorem exists_strictlySorted {l : List α} (h : (l.map key).Nodup) :
    ∃ l', l'.Perm l ∧ StrictlySorted key l' := by
  refine ⟨l.insertionSort fun a b => key a ≤ key b, List.perm_insertionSort _ l, ?_⟩
  have : Std.Total fun a b : α => key a ≤ key b := ⟨fun a b => le_total (key a) (key b)⟩
  have : IsTrans α fun a b => key a ≤ key b := ⟨fun _ _ _ => le_trans⟩
  have hle := List.pairwise_insertionSort (fun a b => key a ≤ key b) l
  have hne : (l.insertionSort fun a b => key a ≤ key b).Pairwise fun a b => key a ≠ key b := by
    have hnodup := ((List.perm_insertionSort (fun a b => key a ≤ key b) l).map key).nodup_iff.2 h
    exact List.pairwise_map.1 hnodup
  exact (hle.and hne).imp fun hboth => lt_of_le_of_ne hboth.1 hboth.2

/-- A sorted list made of a strictly sorted one and of later elements with distinct
keys starts with the former. -/
theorem append_of_later {old new sorted : List α} (hperm : sorted.Perm (old ++ new))
    (hsorted : sorted.Pairwise fun a b => key a ≤ key b) (hold : StrictlySorted key old)
    (hlater : ∀ a ∈ old, ∀ b ∈ new, key a < key b) (hnew : (new.map key).Nodup) :
    ∃ new', new'.Perm new ∧ sorted = old ++ new' ∧ StrictlySorted key sorted := by
  rcases exists_strictlySorted hnew with ⟨new', hnew', hstrict⟩
  have happend : StrictlySorted key (old ++ new') := by
    refine List.pairwise_append.2 ⟨hold, hstrict, ?_⟩
    intro a ha b hb
    exact hlater a ha b (hnew'.subset hb)
  have heq : sorted = old ++ new' :=
    eq_of_perm hsorted happend (hperm.trans (hnew'.symm.append_left old))
  exact ⟨new', hnew', heq, heq ▸ happend⟩

end KeySorted
