import Mathlib.Data.List.Infix

/-!
# Bags with one entry for each key

A list of keyed entries that is kept up to date by two operations: `drop k`
removes every entry of a key, `put k` adds one.  The code that is meant to keep
one entry for each key drops before it puts; when the two are separate steps,
what matters is whether two puts of one key ever follow each other without a drop
of that key in between.

Main results:

- Theorem `mem_contents_iff`: a key is held exactly when it has been put and not
  dropped since.
- Theorem `alternates_concat`: what one more operation has to satisfy for puts and
  drops to keep alternating.
- Theorem `nodup_of_alternates`: while they alternate no key is held twice.
-/

namespace KeyedBag

/-- One operation on the bag. -/
inductive Op (κ : Type*) where
  | drop (key : κ)
  | put (key : κ)
deriving DecidableEq, Repr

variable {κ : Type*} [DecidableEq κ]

/-- The effect of one operation on the held keys. -/
def apply (held : List κ) : Op κ → List κ
  | .drop key => held.filter fun k => k ≠ key
  | .put key => key :: held

/-- The keys held after a sequence of operations. -/
def contents (ops : List (Op κ)) : List κ :=
  ops.foldl apply []

/-- Between two puts of a key the key is dropped. -/
def Alternates (ops : List (Op κ)) : Prop :=
  ∀ pre mid post key, ops = pre ++ .put key :: (mid ++ .put key :: post) → .drop key ∈ mid

theorem contents_concat (ops : List (Op κ)) (op : Op κ) :
    contents (ops ++ [op]) = apply (contents ops) op := by
  simp [contents, List.foldl_append]

/-- Splitting a list at an element that is its last one or comes before it. -/
theorem concat_eq_append_cons_iff {α : Type*} {l pre post : List α} {a b : α} :
    l ++ [a] = pre ++ b :: post ↔
      (l = pre ∧ a = b ∧ post = []) ∨ ∃ init, post = init ++ [a] ∧ l = pre ++ b :: init := by
  constructor
  · intro h
    rcases List.eq_nil_or_concat post with rfl | ⟨init, c, rfl⟩
    · have hlast := List.append_inj' h rfl
      exact Or.inl ⟨hlast.1, by simpa using hlast.2, rfl⟩
    · have hlast : l ++ [a] = (pre ++ b :: init) ++ [c] := by simpa using h
      rcases List.append_inj' hlast rfl with ⟨hinit, hac⟩
      obtain rfl : a = c := by simpa using hac
      exact Or.inr ⟨init, by simp, hinit⟩
  · rintro (⟨rfl, rfl, rfl⟩ | ⟨init, rfl, rfl⟩)
    · rfl
    · simp

/-- A key is held exactly when it has been put and not dropped since. -/
theorem mem_contents_iff {ops : List (Op κ)} {key : κ} :
    key ∈ contents ops ↔ ∃ pre post, ops = pre ++ .put key :: post ∧ .drop key ∉ post := by
  induction ops using List.reverseRecOn with
  | nil => simp [contents]
  | append_singleton ops op ih =>
      have hsplit : (∃ pre post, ops ++ [op] = pre ++ .put key :: post ∧ .drop key ∉ post) ↔
          op = .put key ∨ (op ≠ .drop key ∧ key ∈ contents ops) := by
        rw [ih]
        constructor
        · rintro ⟨pre, post, heq, hpost⟩
          rcases concat_eq_append_cons_iff.1 heq with ⟨-, hop, -⟩ | ⟨init, rfl, hops⟩
          · exact Or.inl hop
          · simp only [List.mem_append, List.mem_singleton, not_or] at hpost
            exact Or.inr ⟨Ne.symm hpost.2, pre, init, hops, hpost.1⟩
        · rintro (rfl | ⟨hop, pre, init, rfl, hinit⟩)
          · exact ⟨ops, [], rfl, by simp⟩
          · exact ⟨pre, init ++ [op], by simp, by simp [hinit, Ne.symm hop]⟩
      rw [contents_concat, hsplit]
      cases op with
      | drop k => by_cases hk : key = k <;> simp [apply, hk, eq_comm]
      | put k => by_cases hk : key = k <;> simp [apply, hk, eq_comm]

/-- One more operation breaks the alternation only if it puts a held key. -/
theorem alternates_concat {ops : List (Op κ)} {op : Op κ} :
    Alternates (ops ++ [op]) ↔
      Alternates ops ∧ ∀ key, op = .put key → key ∉ contents ops := by
  constructor
  · intro h
    refine ⟨?_, ?_⟩
    · intro pre mid post key hops
      exact h pre mid (post ++ [op]) key (by simp [hops])
    · rintro key rfl hmem
      rcases mem_contents_iff.1 hmem with ⟨pre, post, hops, hpost⟩
      exact hpost (h pre post [] key (by simp [hops]))
  · rintro ⟨halt, hop⟩ pre mid post key heq
    rw [← List.cons_append, ← List.append_assoc] at heq
    rcases concat_eq_append_cons_iff.1 heq with ⟨hops, hput, -⟩ | ⟨init, -, hops⟩
    · by_contra hmid
      exact hop key hput (mem_contents_iff.2 ⟨pre, mid, hops, hmid⟩)
    · exact halt pre mid init key (by simpa using hops)

/-- While puts and drops alternate no key is held twice. -/
theorem nodup_of_alternates {ops : List (Op κ)} (h : Alternates ops) :
    (contents ops).Nodup := by
  induction ops using List.reverseRecOn with
  | nil => exact List.nodup_nil
  | append_singleton ops op ih =>
      rcases alternates_concat.1 h with ⟨halt, hop⟩
      rw [contents_concat]
      cases op with
      | drop key => exact (ih halt).filter _
      | put key => exact List.nodup_cons.2 ⟨hop key rfl, ih halt⟩

end KeyedBag
