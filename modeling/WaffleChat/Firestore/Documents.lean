import Mathlib.Algebra.Group.Nat.Even
import Mathlib.Data.Prod.Lex

/-!
# Firestore documents, collections and writes

Values, dictionaries and timestamps as the app reads and writes them, the
document store behind them, and the two write requests the app issues.  A
collection path is the list of its segments (`messages/A/B` is
`["messages", A, B]`): a uid is a valid document id, so it is one segment.

Main results:

- Theorems `documents_addDocument` and `documents_setData`: the effect of one
  write on every collection.
- Theorem `document_setData_self` with `document_setData_of_ne`: a `setData`
  replaces exactly the document it names.
-/

namespace WaffleChat

/-- Firebase user ids are strings. -/
abbrev Uid := String

/-- An error a Firebase service reports. -/
structure BackendError where
  description : String
deriving DecidableEq, Repr

/-! ## Timestamps -/

/-- A Firebase `Timestamp`, as its two stored components. -/
structure Timestamp where
  seconds : Int
  nanoseconds : Nat
deriving DecidableEq, Repr

/-- Timestamps are ordered by seconds, then by nanoseconds. -/
def Timestamp.toLexPair (t : Timestamp) : ℤ ×ₗ ℕ :=
  toLex (t.seconds, t.nanoseconds)

theorem Timestamp.toLexPair_injective : Function.Injective Timestamp.toLexPair := by
  rintro ⟨s, n⟩ ⟨s', n'⟩ h
  simpa [Timestamp.toLexPair] using h

instance : LinearOrder Timestamp :=
  LinearOrder.lift' Timestamp.toLexPair Timestamp.toLexPair_injective

/-! ## Values and dictionaries -/

/-- Firestore types the app never casts to; such a value keeps only its type. -/
inductive OtherType where
  | null | boolean | number | bytes | reference | geoPoint | array | map
deriving DecidableEq, Repr

/-- The dynamic values (`Any`) of a document. -/
inductive Value where
  | string (s : String)
  | timestamp (t : Timestamp)
  | other (type : OtherType)
deriving DecidableEq, Repr

/-- A `[String: Any]` dictionary; the first entry for a key counts. -/
abbrev Dictionary := List (String × Value)

/-- `dic[key] as? String`. -/
def Dictionary.string? (dic : Dictionary) (key : String) : Option String :=
  match dic.lookup key with
  | some (.string s) => some s
  | _ => none

/-- `dic[key] as? Timestamp`. -/
def Dictionary.timestamp? (dic : Dictionary) (key : String) : Option Timestamp :=
  match dic.lookup key with
  | some (.timestamp t) => some t
  | _ => none

/-! ## Encoding a dictionary -/

/-- `TimestampInternal::Truncate`: whole microseconds. -/
def Timestamp.truncate (t : Timestamp) : Timestamp :=
  { t with nanoseconds := t.nanoseconds / 1000 * 1000 }

/-- A value as it is encoded for a write. -/
def Value.parsed : Value → Value
  | .timestamp t => .timestamp t.truncate
  | value => value

/-- `parsedSetData` of the dictionary handed to `addDocument` or `setData`. -/
def parsedSetData (data : Dictionary) : Dictionary :=
  data.map fun entry => (entry.1, entry.2.parsed)

/-! ## The document store -/

/-- Collection paths, segment by segment. -/
abbrev CollectionPath := List String

/-- A document id: either fixed by the caller, or allocated by `addDocument`.
Allocated ids are fresh, so they are named by the call that allocated them and
by the position of the write within that call. -/
inductive DocumentId where
  | named (name : String)
  | auto (owner serial : Nat)
deriving DecidableEq, Repr

/-- A document as stored in a collection. -/
structure StoredDocument where
  id : DocumentId
  data : Dictionary
deriving DecidableEq, Repr

/-- The documents of every collection. -/
structure Firestore where
  documents : CollectionPath → List StoredDocument

namespace Firestore

/-- A store without documents. -/
def empty : Firestore where
  documents := fun _ => []

/-- Add a document under a freshly allocated id. -/
def addDocument (store : Firestore) (path : CollectionPath) (id : DocumentId)
    (data : Dictionary) : Firestore where
  documents := Function.update store.documents path (store.documents path ++ [⟨id, data⟩])

/-- Write a document under a given id, replacing the one that is there. -/
def setData (store : Firestore) (path : CollectionPath) (id : DocumentId)
    (data : Dictionary) : Firestore where
  documents := Function.update store.documents path
    ((store.documents path).filter (fun doc => doc.id ≠ id) ++ [⟨id, data⟩])

/-- The data of a document, if it exists. -/
def document? (store : Firestore) (path : CollectionPath) (id : DocumentId) :
    Option Dictionary :=
  ((store.documents path).find? fun doc => doc.id = id).map StoredDocument.data

@[simp]
theorem documents_empty (path : CollectionPath) : empty.documents path = [] :=
  rfl

theorem documents_addDocument (store : Firestore) (path other : CollectionPath)
    (id : DocumentId) (data : Dictionary) :
    (store.addDocument path id data).documents other =
      store.documents other ++ if other = path then [⟨id, data⟩] else [] := by
  by_cases h : other = path
  · subst h
    simp [addDocument]
  · simp [addDocument, h]

theorem documents_setData (store : Firestore) (path other : CollectionPath)
    (id : DocumentId) (data : Dictionary) :
    (store.setData path id data).documents other =
      if other = path then
        (store.documents path).filter (fun doc => doc.id ≠ id) ++ [⟨id, data⟩]
      else store.documents other := by
  by_cases h : other = path
  · subst h
    simp [setData]
  · simp [setData, h]

/-- Reading back the document just written. -/
theorem document_setData_self (store : Firestore) (path : CollectionPath)
    (id : DocumentId) (data : Dictionary) :
    (store.setData path id data).document? path id = some data := by
  have hnone : ((store.documents path).filter fun doc => doc.id ≠ id).find?
      (fun doc => doc.id = id) = none := by
    rw [List.find?_eq_none]
    intro doc hdoc
    simpa using (List.mem_filter.1 hdoc).2
  rw [document?, documents_setData, if_pos rfl, List.find?_append, hnone]
  simp

/-- A `setData` leaves every other document as it was. -/
theorem document_setData_of_ne (store : Firestore) {path other : CollectionPath}
    {id otherId : DocumentId} (data : Dictionary)
    (h : other ≠ path ∨ otherId ≠ id) :
    (store.setData path id data).document? other otherId =
      store.document? other otherId := by
  by_cases hpath : other = path
  · subst hpath
    have hid : otherId ≠ id := by simpa using h
    have hfind : ((store.documents other).filter fun doc => doc.id ≠ id).find?
        (fun doc => doc.id = otherId) =
        (store.documents other).find? fun doc => doc.id = otherId := by
      rw [List.find?_filter]
      congr 1
      funext doc
      by_cases hdoc : doc.id = otherId <;> simp [hdoc, hid]
    rw [document?, documents_setData, if_pos rfl, List.find?_append, hfind]
    simp [document?, Ne.symm hid]
  · simp [document?, documents_setData, hpath]

end Firestore

/-! ## Paths -/

/-- The segments of a path; a slash at its beginning or its end makes none. -/
def pathSegments (path : String) : List (List Char) :=
  (path.toList.splitOn '/').filter fun segment => segment ≠ []

/-- `document(_:)` and `collection(_:)` raise an exception for a path that contains `//` or has
an even number of segments, like the empty one: it names no document of a collection, and no
collection of a document. -/
def Refused (path : String) : Prop :=
  ['/', '/'] <:+: path.toList ∨ Even (pathSegments path).length

instance : DecidablePred Refused := fun _ =>
  inferInstanceAs (Decidable (_ ∨ _))

/-- Of the ids without a slash, only the empty one is refused. -/
theorem refused_iff_eq_empty {id : String} (h : '/' ∉ id.toList) : Refused id ↔ id = "" := by
  have hsplit : id.toList.splitOn '/' = [id.toList] := by
    refine List.splitOnP_eq_singleton fun c hc => ?_
    simp only [beq_eq_false_iff_ne]
    exact fun hslash => h (hslash ▸ hc)
  have hinfix : ¬ ['/', '/'] <:+: id.toList := fun hslashes => h (hslashes.subset (by simp))
  rw [Refused, pathSegments, hsplit, or_iff_right hinfix, ← String.toList_eq_nil_iff]
  by_cases hempty : id.toList = []
  · simp [hempty]
  · simp [hempty]

/-! ## Write requests -/

/-- The writes the app issues, with the data as it has been encoded. -/
inductive WriteRequest where
  | addDocument (collection : CollectionPath) (data : Dictionary)
  | setData (collection : CollectionPath) (document : String) (data : Dictionary)
deriving DecidableEq, Repr

/-- The `Error?` a write's completion handler receives. -/
inductive WriteResult where
  | committed
  | rejected
deriving DecidableEq, Repr

namespace Firestore

/-- Apply a write; `fresh` is the id an `addDocument` allocates. -/
def apply (store : Firestore) (fresh : DocumentId) : WriteRequest → Firestore
  | .addDocument collection data => store.addDocument collection fresh data
  | .setData collection document data => store.setData collection (.named document) data

/-- A committed write is applied, a rejected one leaves the store as it was. -/
def resolve (store : Firestore) (fresh : DocumentId) (req : WriteRequest) :
    WriteResult → Firestore
  | .committed => store.apply fresh req
  | .rejected => store

/-- The documents a decided write adds to a collection under an allocated id. -/
def added (fresh : DocumentId) (req : WriteRequest) (result : WriteResult)
    (path : CollectionPath) : List StoredDocument :=
  match result, req with
  | .committed, .addDocument collection data =>
      if path = collection then [⟨fresh, data⟩] else []
  | _, _ => []

end Firestore

/-- The data a write puts into a named document. -/
def WriteRequest.writeTo (path : CollectionPath) (name : String) :
    WriteRequest → Option Dictionary
  | .addDocument _ _ => none
  | .setData collection document data =>
      if collection = path ∧ document = name then some data else none

/-- A named document after a decided write. -/
theorem Firestore.document_resolve (store : Firestore) (owner serial : Nat)
    (req : WriteRequest) (result : WriteResult) (path : CollectionPath) (name : String) :
    (store.resolve (.auto owner serial) req result).document? path (.named name) =
      match result with
      | .committed => (req.writeTo path name).or (store.document? path (.named name))
      | .rejected => store.document? path (.named name) := by
  cases result with
  | rejected => rfl
  | committed =>
      cases req with
      | addDocument collection data =>
          simp only [resolve, apply, document?, documents_addDocument, WriteRequest.writeTo,
            Option.none_or]
          split <;> simp [List.find?_append]
      | setData collection document data =>
          by_cases hname : collection = path ∧ document = name
          · rcases hname with ⟨rfl, rfl⟩
            simp [resolve, apply, WriteRequest.writeTo, document_setData_self]
          · have hne : path ≠ collection ∨ DocumentId.named name ≠ .named document := by
              rw [not_and_or] at hname
              rcases hname with h | h
              · exact Or.inl fun heq => h heq.symm
              · exact Or.inr fun heq => h (by simpa using heq.symm)
            simpa [resolve, apply, WriteRequest.writeTo, hname] using
              document_setData_of_ne store data hne

/-! ## Allocated documents -/

/-- The id was allocated by an `addDocument`. -/
def DocumentId.isAllocated : DocumentId → Bool
  | .named _ => false
  | .auto _ _ => true

namespace Firestore

/-- The documents of a collection whose id was allocated. -/
def allocated (store : Firestore) (path : CollectionPath) : List StoredDocument :=
  (store.documents path).filter fun doc => doc.id.isAllocated

@[simp]
theorem allocated_empty (path : CollectionPath) : empty.allocated path = [] :=
  rfl

/-- Named writes leave the allocated documents as they were. -/
theorem allocated_setData (store : Firestore) (path other : CollectionPath)
    (name : String) (data : Dictionary) :
    (store.setData path (.named name) data).allocated other = store.allocated other := by
  unfold allocated
  rw [documents_setData]
  split
  · rename_i h
    subst h
    rw [List.filter_append, List.filter_filter]
    simp only [List.filter_cons, DocumentId.isAllocated, Bool.false_eq_true, if_false,
      List.filter_nil, List.append_nil]
    apply List.filter_congr
    intro doc _
    cases hid : doc.id <;> simp
  · rfl

/-- The effect of one decided write on the allocated documents. -/
theorem allocated_resolve (store : Firestore) (owner serial : Nat) (req : WriteRequest)
    (result : WriteResult) (path : CollectionPath) :
    (store.resolve (.auto owner serial) req result).allocated path =
      store.allocated path ++ added (.auto owner serial) req result path := by
  cases result with
  | rejected => simp [resolve, added]
  | committed =>
      cases req with
      | addDocument collection data =>
          unfold allocated
          simp only [resolve, apply, documents_addDocument, added, List.filter_append]
          split <;> simp [DocumentId.isAllocated]
      | setData collection document data =>
          simp [resolve, apply, added, allocated_setData]

end Firestore

end WaffleChat
