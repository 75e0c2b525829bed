import Mathlib.Data.List.Nodup
import Mathlib.Order.WithBot
import WaffleChat.Firestore.Documents

/-!
# Query snapshots

What a snapshot listener receives: the documents of the query in their order, and
the changes since the previous snapshot.  The changes are the difference of the
two document lists, removals first, then additions, then modifications; a document
whose data is unchanged is not reported.

Main results:

- Theorem `filter_added_documentChanges`: the changes of kind `added` are those of
  the documents the previous snapshot did not have.
- Theorem `documentChanges_of_perm`: the same documents again are no changes.
-/

namespace WaffleChat

/-- How a document of a query changed between two snapshots. -/
inductive DocumentChangeType where
  | added
  | modified
  | removed
deriving DecidableEq, Repr

/-- One changed document; a removed one comes as it was before. -/
structure DocumentChange where
  type : DocumentChangeType
  document : StoredDocument
deriving DecidableEq, Repr

/-! ## The difference of two snapshots -/

/-- Documents the previous snapshot did not have. -/
def addedDocuments (old new : List StoredDocument) : List StoredDocument :=
  new.filter fun doc => doc.id ∉ old.map StoredDocument.id

/-- Documents the new snapshot no longer has. -/
def removedDocuments (old new : List StoredDocument) : List StoredDocument :=
  old.filter fun doc => doc.id ∉ new.map StoredDocument.id

/-- Documents whose data differs from that in the previous snapshot. -/
def modifiedDocuments (old new : List StoredDocument) : List StoredDocument :=
  new.filter fun doc => ∃ before ∈ old, before.id = doc.id ∧ before.data ≠ doc.data

/-- `documentChanges` of a snapshot. -/
def documentChanges (old new : List StoredDocument) : List DocumentChange :=
  (removedDocuments old new).map (DocumentChange.mk .removed) ++
  (addedDocuments old new).map (DocumentChange.mk .added) ++
  (modifiedDocuments old new).map (DocumentChange.mk .modified)

/-- Changes of one kind are all kept or all dropped. -/
theorem filter_added_map (type : DocumentChangeType) (documents : List StoredDocument) :
    (documents.map (DocumentChange.mk type)).filter (fun change => change.type = .added) =
      if type = .added then documents.map (DocumentChange.mk type) else [] := by
  induction documents with
  | nil => simp
  | cons doc documents ih =>
      by_cases hadded : type = .added <;> simp [hadded] at ih ⊢

theorem filter_added_documentChanges (old new : List StoredDocument) :
    (documentChanges old new).filter (fun change => change.type = .added) =
      (addedDocuments old new).map (DocumentChange.mk .added) := by
  simp [documentChanges, filter_added_map]

/-- Documents appended under new ids are the added ones. -/
theorem addedDocuments_append {old new : List StoredDocument}
    (h : ((old ++ new).map StoredDocument.id).Nodup) :
    addedDocuments old (old ++ new) = new := by
  rw [List.map_append, List.nodup_append] at h
  have hold : addedDocuments old old = [] := by
    rw [addedDocuments, List.filter_eq_nil_iff]
    intro doc hdoc
    simpa using ⟨doc, hdoc, rfl⟩
  have hnew : addedDocuments old new = new := by
    rw [addedDocuments, List.filter_eq_self]
    intro doc hdoc
    simp only [decide_eq_true_eq]
    intro hmem
    exact h.2.2 doc.id hmem doc.id (List.mem_map_of_mem hdoc) rfl
  calc
    addedDocuments old (old ++ new) = addedDocuments old old ++ addedDocuments old new :=
      List.filter_append _ _
    _ = new := by rw [hold, hnew, List.nil_append]

/-- A snapshot of the same documents reports no changes. -/
theorem documentChanges_of_perm {old new : List StoredDocument} (h : old.Perm new)
    (hids : (new.map StoredDocument.id).Nodup) : documentChanges old new = [] := by
  have hremoved : removedDocuments old new = [] := by
    refine List.filter_eq_nil_iff.2 fun doc hdoc => ?_
    simpa using ⟨doc, h.mem_iff.1 hdoc, rfl⟩
  have hadded : addedDocuments old new = [] := by
    refine List.filter_eq_nil_iff.2 fun doc hdoc => ?_
    simpa using ⟨doc, h.mem_iff.2 hdoc, rfl⟩
  have hmodified : modifiedDocuments old new = [] := by
    refine List.filter_eq_nil_iff.2 fun doc hdoc => ?_
    simp only [decide_eq_true_eq]
    rintro ⟨before, hbefore, hid, hdata⟩
    exact hdata (congrArg _ (List.inj_on_of_nodup_map hids (h.mem_iff.1 hbefore) hdoc hid))
  rw [documentChanges, hremoved, hadded, hmodified]
  rfl

/-! ## Queries ordered by timestamp -/

/-- The `timestamp` field a query is ordered by. -/
def Dictionary.sentAt (dic : Dictionary) : WithBot Timestamp :=
  dic.timestamp? "timestamp"

def StoredDocument.sentAt (doc : StoredDocument) : WithBot Timestamp :=
  doc.data.sentAt

/-- Distinct documents in the order of their timestamps, as a query with
`order(by: "timestamp")` returns them where each holds one in the field.  Documents that hold
none there are admitted too, in front of all others. -/
def OrderedByTimestamp (documents : List StoredDocument) : Prop :=
  (documents.map StoredDocument.id).Nodup ∧
    documents.Pairwise fun doc doc' => doc.sentAt ≤ doc'.sentAt

instance (documents : List StoredDocument) : Decidable (OrderedByTimestamp documents) :=
  inferInstanceAs (Decidable (List.Nodup _ ∧ List.Pairwise _ _))

end WaffleChat
