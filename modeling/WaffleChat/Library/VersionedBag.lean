import Mathlib.Order.Defs.PartialOrder
import WaffleChat.Library.EventSystem
import WaffleChat.Library.KeyedBag

/-!
# What a list of versioned entries has shown

A list of keyed entries that carry a version, shown to somebody after every
insertion.  A change of a key drops its entries at once; the new entry is put later,
and puts of one key may come in another order than their versions.

Main results:

- Theorem `mem_shown_iff`: a version has been shown exactly when it has been put.
- Theorem `neverBack_iff`: no key ever goes back to older versions exactly when a
  version is put only while its key is held or after older versions only.
-/

namespace VersionedBag

open EventSystem

/-- One operation on the list. -/
inductive Op (κ ν : Type*) where
  | drop (key : κ)
  | put (key : κ) (version : ν)
deriving DecidableEq, Repr

variable {κ ν : Type*} [DecidableEq κ]

/-- The operation on the held keys. -/
def Op.forget : Op κ ν → KeyedBag.Op κ
  | .drop key => .drop key
  | .put key _ => .put key

/-- The held entries, and the lists shown so far. -/
structure Display (κ ν : Type*) where
  held : List (κ × ν)
  shown : List (List (κ × ν))

/-- One operation; the list is shown after every insertion. -/
def Display.apply (d : Display κ ν) : Op κ ν → Display κ ν
  | .drop key => { d with held := d.held.filter fun entry => entry.1 ≠ key }
  | .put key version =>
      { held := (key, version) :: d.held
        shown := d.shown ++ [(key, version) :: d.held] }

/-- The display after a sequence of operations. -/
def display (ops : List (Op κ ν)) : Display κ ν :=
  ops.foldl Display.apply ⟨[], []⟩

/-- The key has been put and not been dropped since. -/
def Held (ops : List (Op κ ν)) (key : κ) : Prop :=
  key ∈ KeyedBag.contents (ops.map Op.forget)

instance (ops : List (Op κ ν)) (key : κ) : Decidable (Held ops key) :=
  inferInstanceAs (Decidable (key ∈ _))

/-- Without operations nothing is held. -/
@[simp]
theorem display_nil : display ([] : List (Op κ ν)) = ⟨[], []⟩ :=
  rfl

/-- The last operation comes last. -/
theorem display_concat (ops : List (Op κ ν)) (op : Op κ ν) :
    display (ops ++ [op]) = (display ops).apply op := by
  simp [display, List.foldl_append]

/-- A key is held with one of its versions. -/
theorem held_iff {ops : List (Op κ ν)} {key : κ} :
    Held ops key ↔ ∃ version, (key, version) ∈ (display ops).held := by
  have hkeys : (display ops).held.map Prod.fst = KeyedBag.contents (ops.map Op.forget) := by
    induction ops using List.reverseRecOn with
    | nil => rfl
    | append_singleton ops op ih =>
        rw [display_concat, List.map_append, List.map_singleton, KeyedBag.contents_concat, ← ih]
        cases op with
        | drop key => simp [Display.apply, Op.forget, KeyedBag.apply, List.filter_map,
            Function.comp_def]
        | put key version => rfl
  rw [Held, ← hkeys]
  simp

/-- What is shown comes from the puts; what is held of a key is what the last list has
shown of it. -/
structure Display.Sound (ops : List (Op κ ν)) (d : Display κ ν) : Prop where
  mem_held : ∀ key version, (key, version) ∈ d.held → .put key version ∈ ops
  mem_shown : ∀ key version,
    (∃ l ∈ d.shown, (key, version) ∈ l) ↔ .put key version ∈ ops
  fresh : ∀ key version, (key, version) ∈ d.held →
    ∃ init l, d.shown = init ++ [l] ∧ ∀ v, (key, v) ∈ d.held ↔ (key, v) ∈ l

/-- Dropping a key drops it from the display. -/
theorem Display.Sound.drop {ops : List (Op κ ν)} {d : Display κ ν} (h : d.Sound ops) (key : κ) :
    (d.apply (.drop key)).Sound (ops ++ [.drop key]) := by
  have hheld : ∀ k v, (k, v) ∈ (d.apply (.drop key)).held ↔ (k, v) ∈ d.held ∧ k ≠ key := by
    simp [apply]
  constructor
  · intro k v hmem
    exact List.mem_append_left _ (h.mem_held k v ((hheld k v).1 hmem).1)
  · intro k v
    rw [show (d.apply (.drop key)).shown = d.shown from rfl, h.mem_shown]
    simp
  · intro k v hmem
    rcases (hheld k v).1 hmem with ⟨hmem, hne⟩
    rcases h.fresh k v hmem with ⟨init, l, hshown, hsame⟩
    refine ⟨init, l, hshown, ?_⟩
    intro v'
    rw [hheld, ← hsame]
    simp [hne]

/-- Putting a version replaces what is held of its key. -/
theorem Display.Sound.put {ops : List (Op κ ν)} {d : Display κ ν} (h : d.Sound ops) (key : κ)
    (version : ν) :
    (d.apply (.put key version)).Sound (ops ++ [.put key version]) := by
  constructor
  · intro k v hmem
    rcases List.mem_cons.1 hmem with heq | hmem
    · cases heq
      simp
    · exact List.mem_append_left _ (h.mem_held k v hmem)
  · intro k v
    simp only [apply, List.mem_append, List.mem_cons, List.not_mem_nil, or_false, or_and_right,
      exists_or, exists_eq_left, h.mem_shown, Prod.mk.injEq, Op.put.injEq]
    constructor
    · rintro (hput | heq | hmem)
      · exact Or.inl hput
      · exact Or.inr heq
      · exact Or.inl (h.mem_held k v hmem)
    · rintro (hput | heq)
      · exact Or.inl hput
      · exact Or.inr (Or.inl heq)
  · intro k v _
    exact ⟨d.shown, _, rfl, fun _ => Iff.rfl⟩

/-- What is displayed says which operations there have been. -/
theorem sound_display (ops : List (Op κ ν)) : (display ops).Sound ops := by
  induction ops using List.reverseRecOn with
  | nil => constructor <;> simp
  | append_singleton ops op ih =>
      rw [display_concat]
      cases op with
      | drop key => exact ih.drop key
      | put key version => exact ih.put key version

/-- A version has been shown exactly when it has been put. -/
theorem mem_shown_iff {ops : List (Op κ ν)} {key : κ} {version : ν} :
    (∃ l ∈ (display ops).shown, (key, version) ∈ l) ↔ .put key version ∈ ops :=
  (sound_display ops).mem_shown key version

/-- The versions of a key put so far. -/
def versionsPut (ops : List (Op κ ν)) (key : κ) : List ν :=
  ops.filterMap fun
    | .drop _ => none
    | .put k v => if k = key then some v else none

/-- The versions put of a key. -/
theorem mem_versionsPut {ops : List (Op κ ν)} {key : κ} {version : ν} :
    version ∈ versionsPut ops key ↔ .put key version ∈ ops := by
  simp only [versionsPut, List.mem_filterMap]
  constructor
  · rintro ⟨op, hop, heq⟩
    cases op with
    | drop k => cases heq
    | put k v =>
        simp only [Option.ite_none_right_eq_some, Option.some.injEq] at heq
        rcases heq with ⟨rfl, rfl⟩
        exact hop
  · intro hput
    exact ⟨_, hput, by simp⟩

/-! ## Going back to older versions -/

section Order

variable [Preorder ν]

/-- What a list shows of a key, a later list that has the key does not show in older
versions only. -/
def NoOlder (l l' : List (κ × ν)) : Prop :=
  ∀ entry ∈ l, (∃ entry' ∈ l', entry'.1 = entry.1) →
    ∃ entry' ∈ l', entry'.1 = entry.1 ∧ entry.2 ≤ entry'.2

/-- No key ever goes back to older versions. -/
def NeverBack (lists : List (List (κ × ν))) : Prop :=
  lists.Pairwise NoOlder

instance [DecidableLE ν] (lists : List (List (κ × ν))) : Decidable (NeverBack lists) :=
  have : DecidableRel (NoOlder : List (κ × ν) → List (κ × ν) → Prop) := fun _ _ =>
    inferInstanceAs (Decidable (∀ _ ∈ _, _ → _))
  inferInstanceAs (Decidable (List.Pairwise _ _))

omit [DecidableEq κ] in
/-- Only the members of the lists count. -/
theorem noOlder_congr {l m l' m' : List (κ × ν)} (h : l.Perm l') (h' : m.Perm m') :
    NoOlder l m ↔ NoOlder l' m' := by
  simp only [NoOlder, h.mem_iff, h'.mem_iff]

omit [DecidableEq κ] in
/-- The order within the lists does not matter. -/
theorem neverBack_congr {lists lists' : List (List (κ × ν))}
    (h : List.Forall₂ List.Perm lists lists') : NeverBack lists ↔ NeverBack lists' := by
  induction h with
  | nil => exact Iff.rfl
  | cons hperm hrest ih =>
      rename_i l l' rest rest'
      have hhead : (∀ m ∈ rest, NoOlder l m) ↔ ∀ m ∈ rest', NoOlder l' m := by
        clear ih
        induction hrest with
        | nil => simp
        | cons hm _ ih => simp only [List.forall_mem_cons, noOlder_congr hperm hm, ih]
      simp only [NeverBack, List.pairwise_cons] at ih ⊢
      rw [hhead, ih]

/-- A version is put while its key is held, or after older versions of it only. -/
def InOrder (past : List (Op κ ν)) : Op κ ν → Prop
  | .drop _ => True
  | .put key version => Held past key ∨ ∀ v ∈ versionsPut past key, v ≤ version

instance [DecidableLE ν] (past : List (Op κ ν)) : ∀ op, Decidable (InOrder past op)
  | .drop _ => inferInstanceAs (Decidable True)
  | .put _ _ => inferInstanceAs (Decidable (_ ∨ _))

/-- Putting a version keeps the lists from going back exactly if it is in order. -/
theorem noOlder_put_iff {ops : List (Op κ ν)} {key : κ} {version : ν}
    (hback : NeverBack (display ops).shown) :
    (∀ l ∈ (display ops).shown, NoOlder l ((key, version) :: (display ops).held)) ↔
      InOrder ops (.put key version) := by
  constructor
  · intro hnew
    refine or_iff_not_imp_left.2 ?_
    intro hnot v hput
    rcases mem_shown_iff.2 (mem_versionsPut.1 hput) with ⟨l, hl, hmem⟩
    rcases hnew l hl (key, v) hmem ⟨_, List.mem_cons_self, rfl⟩ with ⟨entry, hentry, hkey, hle⟩
    rcases List.mem_cons.1 hentry with rfl | hheld
    · exact hle
    · rcases entry with ⟨k, w⟩
      obtain rfl : k = key := hkey
      exact absurd (held_iff.2 ⟨w, hheld⟩) hnot
  · rintro hin l hl ⟨k, v⟩ hmem ⟨⟨k', v'⟩, hnew, hk⟩
    obtain rfl : k = k' := hk.symm
    have hkept : ∀ w, (k, w) ∈ (display ops).held →
        ∃ entry ∈ (key, version) :: (display ops).held, entry.1 = k ∧ v ≤ entry.2 := by
      intro w hheld
      rcases (sound_display ops).fresh k w hheld with ⟨init, last, hshown, hsame⟩
      rw [hshown] at hl hback
      rcases List.mem_append.1 hl with hl | hl
      · have holder := (List.pairwise_append.1 hback).2.2 l hl last (List.mem_singleton_self _)
        rcases holder (k, v) hmem ⟨_, (hsame w).1 hheld, rfl⟩ with ⟨⟨k₁, w₁⟩, hw₁, rfl, hle⟩
        exact ⟨(k₁, w₁), List.mem_cons_of_mem _ ((hsame w₁).2 hw₁), rfl, hle⟩
      · rw [List.mem_singleton.1 hl] at hmem
        exact ⟨(k, v), List.mem_cons_of_mem _ ((hsame v).2 hmem), rfl, le_refl _⟩
    rcases List.mem_cons.1 hnew with heq | hheld
    · cases heq
      rcases hin with hheld | holder
      · rcases held_iff.1 hheld with ⟨w, hheld⟩
        exact hkept w hheld
      · exact ⟨_, List.mem_cons_self, rfl,
          holder v (mem_versionsPut.2 (mem_shown_iff.1 ⟨l, hl, hmem⟩))⟩
    · exact hkept v' hheld

/-- No key ever goes back to older versions exactly when every put is in order. -/
theorem neverBack_iff (ops : List (Op κ ν)) :
    NeverBack (display ops).shown ↔ EachAfter InOrder [] ops := by
  induction ops using List.reverseRecOn with
  | nil => exact ⟨fun _ => trivial, fun _ => List.Pairwise.nil⟩
  | append_singleton ops op ih =>
      rw [eachAfter_concat, List.nil_append, ← ih, display_concat]
      cases op with
      | drop key => exact ⟨fun hback => ⟨hback, trivial⟩, fun hback => hback.1⟩
      | put key version =>
          have hconcat : NeverBack ((display ops).apply (.put key version)).shown ↔
              NeverBack (display ops).shown ∧
                ∀ l ∈ (display ops).shown, NoOlder l ((key, version) :: (display ops).held) := by
            simp [NeverBack, Display.apply, List.pairwise_append]
          rw [hconcat]
          constructor
          · rintro ⟨hback, hnew⟩
            exact ⟨hback, (noOlder_put_iff hback).1 hnew⟩
          · rintro ⟨hback, hin⟩
            exact ⟨hback, (noOlder_put_iff hback).2 hin⟩

end Order

end VersionedBag
