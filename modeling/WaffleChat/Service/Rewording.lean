import WaffleChat.Library.RequestMap
import WaffleChat.Service.MessageCopies

/-!
# Replaced texts

Uploads copy the texts of their messages, and never look at them.  When texts are replaced,
depending on who writes to whom, uploads do the same with the replaced ones.

Main results:

- Theorem `Message.init_reword`: replaced texts are read back.
- Theorem `Delivery.step_reword`: replacing texts commutes with every step.
- Theorem `Rewording.Spares.copy`: documents whose texts are spared.
-/

namespace WaffleChat

open CallbackProgram EventSystem Gather

/-- What a text is replaced with in a message from one user to another. -/
abbrev Rewording := Uid → Uid → String → String

/-- Texts to and from `uid` stay what they are. -/
def Rewording.Spares (ρ : Rewording) (uid : Uid) : Prop :=
  ∀ peer text, ρ uid peer text = text ∧ ρ peer uid text = text

/-- A text is there before if and only if it is there after. -/
def Rewording.KeepsEmpty (ρ : Rewording) : Prop :=
  ∀ fromId toId text, ρ fromId toId text = "" ↔ text = ""

/-- The empty text stays empty. -/
theorem Rewording.KeepsEmpty.empty {ρ : Rewording} (h : ρ.KeepsEmpty) (fromId toId : Uid) :
    ρ fromId toId "" = "" :=
  (h fromId toId "").2 rfl

/-! ## Dictionaries and messages -/

def Value.reword (f : String → String) : Value → Value
  | .string text => .string (f text)
  | value => value

/-- The dictionary with its text replaced. -/
def Dictionary.reword (ρ : Rewording) (dic : Dictionary) : Dictionary :=
  let reworded := ρ ((dic.string? "fromId").getD "") ((dic.string? "toId").getD "")
  dic.map fun entry =>
    (entry.1, if entry.1 = "text" then entry.2.reword reworded else entry.2)

def Message.reword (ρ : Rewording) (message : Message) : Message :=
  { message with text := ρ message.fromId message.toId message.text }

def StoredDocument.reword (ρ : Rewording) (doc : StoredDocument) : StoredDocument :=
  { doc with data := doc.data.reword ρ }

namespace Dictionary

variable {ρ : Rewording} {dic : Dictionary}

/-- Only the text of a document is reworded. -/
theorem lookup_reword (key : String) :
    (dic.reword ρ).lookup key = (dic.lookup key).map fun value =>
      if key = "text" then
        value.reword (ρ ((dic.string? "fromId").getD "") ((dic.string? "toId").getD ""))
      else value := by
  have hlookup : ∀ (f : String → Value → Value) (entries : Dictionary),
      (entries.map fun entry => (entry.1, f entry.1 entry.2)).lookup key =
        (entries.lookup key).map (f key) := by
    intro f entries
    induction entries with
    | nil => rfl
    | cons entry entries ih =>
        rcases entry with ⟨entryKey, value⟩
        by_cases hkey : key = entryKey
        · simp [hkey]
        · have hne : (key == entryKey) = false := by simpa using hkey
          simp [List.lookup_cons, hne, ih]
  exact hlookup (fun key value => if key = "text" then
    value.reword (ρ ((dic.string? "fromId").getD "") ((dic.string? "toId").getD "")) else value) dic

/-- All other strings stay. -/
theorem string?_reword_of_ne {key : String} (h : key ≠ "text") :
    (dic.reword ρ).string? key = dic.string? key := by
  simp [string?, lookup_reword, h]

/-- The text is reworded by its sender and receiver. -/
theorem string?_reword_text :
    (dic.reword ρ).string? "text" = (dic.string? "text").map
      (ρ ((dic.string? "fromId").getD "") ((dic.string? "toId").getD "")) := by
  simp only [string?, lookup_reword]
  cases dic.lookup "text" with
  | none => rfl
  | some value => cases value <;> rfl

/-- Timestamps stay. -/
theorem timestamp?_reword (key : String) :
    (dic.reword ρ).timestamp? key = dic.timestamp? key := by
  simp only [timestamp?, lookup_reword]
  by_cases hkey : key = "text"
  · cases dic.lookup key with
    | none => rfl
    | some value => cases value <;> simp [hkey, Value.reword]
  · simp [hkey]

end Dictionary

/-- Replaced texts are read back, when no text stays none. -/
theorem Message.init_reword {ρ : Rewording} (hempty : ρ.KeepsEmpty)
    (ambient : Ambient) (dic : Dictionary) :
    Message.init ambient (dic.reword ρ) = (Message.init ambient dic).reword ρ := by
  have htext : ((dic.reword ρ).string? "text").getD "" =
      ρ ((dic.string? "fromId").getD "") ((dic.string? "toId").getD "")
        ((dic.string? "text").getD "") := by
    rw [Dictionary.string?_reword_text]
    cases dic.string? "text" with
    | none => exact (hempty.empty _ _).symm
    | some text => rfl
  have hfrom : (dic.reword ρ).string? "fromId" = dic.string? "fromId" :=
    Dictionary.string?_reword_of_ne (by decide)
  have hto : (dic.reword ρ).string? "toId" = dic.string? "toId" :=
    Dictionary.string?_reword_of_ne (by decide)
  simp only [Message.init, Message.reword, htext, hfrom, hto, Dictionary.timestamp?_reword]

/-- The data of a reworded message is the reworded data. -/
theorem reword_messageData (ρ : Rewording) (text : String) (fromId toId : Uid)
    (timestamp : Timestamp) :
    (parsedSetData (messageData text fromId toId timestamp)).reword ρ =
      parsedSetData (messageData (ρ fromId toId text) fromId toId timestamp) :=
  rfl

/-! ## Documents -/

/-- Documents keep their ids. -/
theorem map_id_reword (ρ : Rewording) (documents : List StoredDocument) :
    (documents.map (StoredDocument.reword ρ)).map StoredDocument.id =
      documents.map StoredDocument.id := by
  rw [List.map_map]
  rfl

def WriteRequest.reword (ρ : Rewording) : WriteRequest → WriteRequest
  | .addDocument collection data => .addDocument collection (data.reword ρ)
  | .setData collection document data => .setData collection document (data.reword ρ)

/-- The store with all texts replaced. -/
def Firestore.reword (ρ : Rewording) (store : Firestore) : Firestore where
  documents path := (store.documents path).map (StoredDocument.reword ρ)

/-- A reworded write changes the reworded store as the write changes the store. -/
theorem Firestore.resolve_reword (ρ : Rewording) (store : Firestore) (fresh : DocumentId)
    (request : WriteRequest) (result : WriteResult) :
    (store.reword ρ).resolve fresh (request.reword ρ) result =
      (store.resolve fresh request result).reword ρ := by
  have hext : ∀ {a b : Firestore}, (∀ path, a.documents path = b.documents path) → a = b := by
    rintro ⟨a⟩ ⟨b⟩ h
    exact congrArg Firestore.mk (funext h)
  cases result with
  | rejected => rfl
  | committed =>
      refine hext fun path => ?_
      cases request with
      | addDocument collection data =>
          simp only [resolve, apply, WriteRequest.reword, documents_addDocument, reword,
            List.map_append]
          split <;> rfl
      | setData collection document data =>
          simp only [resolve, apply, WriteRequest.reword, documents_setData, reword]
          split
          · rw [List.map_append, List.filter_map]
            rfl
          · rfl

/-! ## Uploads -/

def Upload.reword (ρ : Rewording) (u : Upload) : Upload :=
  { u with text := ρ u.currentUid u.peer u.text }

/-- The upload of the replaced text does what the upload did, with the text replaced. -/
theorem Upload.program_reword (ρ : Rewording) (u : Upload) :
    (u.reword ρ).program = u.program.mapReq (WriteRequest.reword ρ) :=
  rfl

def ClientWrite.reword (ρ : Rewording) (write : ClientWrite) : ClientWrite :=
  { write with request := write.request.reword ρ }

def UploadTask.reword (ρ : Rewording) (t : UploadTask) : UploadTask :=
  t.map (Upload.reword ρ) (WriteRequest.reword ρ)

def DeliveryEvent.reword (ρ : Rewording) : DeliveryEvent → DeliveryEvent
  | .upload u => .upload (u.reword ρ)
  | e => e

namespace Delivery

variable (ρ : Rewording)

/-- The uploads with all texts replaced. -/
def reword (s : Delivery) : Delivery where
  store := s.store.reword ρ
  tasks := s.tasks.map (UploadTask.reword ρ)
  issued := s.issued.map (ClientWrite.reword ρ)
  applied := s.applied.map (ClientWrite.reword ρ)

/-- Where nothing is stored, nothing is reworded. -/
theorem reword_initial : initial.reword ρ = initial := by
  simp [reword, initial, Firestore.reword, Firestore.empty]

/-- Reworded uploads are the uploads of the reworded state. -/
theorem uploads_reword (s : Delivery) :
    (s.reword ρ).uploads = s.uploads.map (Upload.reword ρ) := by
  simp only [uploads, reword, List.map_map]
  rfl

/-- What a program issues, attributed to its upload. -/
theorem issues_reword (p : Program WriteRequest WriteResult (Observers.Event BackendError Bool))
    (client : Uid) (i : Nat) :
    (p.mapReq (WriteRequest.reword ρ)).issues.map (ClientWrite.mk client i) =
      (p.issues.map (ClientWrite.mk client i)).map (ClientWrite.reword ρ) := by
  cases hawaiting : p.awaiting <;>
    simp [Program.issues, hawaiting, Function.comp_def, ClientWrite.reword]

/-- A reworded write is applied when the write is. -/
theorem appliedEntry_reword (write : ClientWrite) (result : WriteResult) :
    appliedEntry (write.reword ρ) result =
      (appliedEntry write result).map (ClientWrite.reword ρ) := by
  cases result <;> rfl

/-- **Replacing texts commutes with every step.** -/
theorem step_reword {s s' : Delivery} {e : DeliveryEvent} (hstep : step s e = some s') :
    step (s.reword ρ) (e.reword ρ) = some (s'.reword ρ) := by
  have hprog := Upload.program_reword ρ
  have hget : ∀ {i : Nat} {t : UploadTask}, s.tasks[i]? = some t →
      (s.tasks.map (UploadTask.reword ρ))[i]? = some (t.reword ρ) := by
    intro i t h
    rw [List.getElem?_map, h, Option.map_some]
  rcases step_cases hstep with ⟨u, rfl, rfl⟩ | ⟨i, result, t, request, rfl, ht, hrequest, rfl⟩ |
    ⟨i, t, t', rfl, ht, ht', rfl⟩ | ⟨i, k, result, t, request, rfl, ht, hrequest, rfl⟩ |
    ⟨i, t, rfl, ht, rfl⟩
  · have hissues := issues_reword ρ u.program u.currentUid s.tasks.length
    rw [← hprog] at hissues
    simp only [DeliveryEvent.reword, step, reword, List.map_append, List.length_map,
      List.map_singleton, UploadTask.reword, ← hissues, Task.start_map hprog]
    rfl
  · have hundecided : (t.reword ρ).undecided Upload.program = some (request.reword ρ) := by
      rw [UploadTask.reword, Task.undecided_map hprog, hrequest, Option.map_some]
    have hentry := appliedEntry_reword ρ ⟨t.job.currentUid, i, request⟩ result
    have harrive : UploadTask.reword ρ (t.arrive result) = (t.reword ρ).arrive result := rfl
    simp only [DeliveryEvent.reword, step, reword, hget ht, hundecided,
      Option.bind_eq_bind, Option.bind_some, List.map_set, List.map_append, ← hentry, harrive,
      ← Firestore.resolve_reword]
    rfl
  · have hhandle : (t.reword ρ).handle Upload.program = some (UploadTask.reword ρ t') := by
      rw [UploadTask.reword, Task.handle_map hprog, ht', Option.map_some]
      rfl
    have hissues := issues_reword ρ (t'.current Upload.program) t.job.currentUid i
    rw [← Task.current_map (g := Upload.reword ρ) hprog] at hissues
    simp only [DeliveryEvent.reword, step, reword, hget ht, hhandle, Option.bind_eq_bind,
      Option.bind_some, List.map_set, List.map_append, ← hissues]
    rfl
  · have hout : (t.reword ρ).outbox[k]? = some (request.reword ρ) := by
      change (t.outbox.map (WriteRequest.reword ρ))[k]? = _
      rw [List.getElem?_map, hrequest, Option.map_some]
    have hentry := appliedEntry_reword ρ ⟨t.job.currentUid, i, request⟩ result
    have hflush : UploadTask.reword ρ (t.flush k) = (t.reword ρ).flush k := Task.flush_map t k
    simp only [DeliveryEvent.reword, step, reword, hget ht, hout, Option.bind_eq_bind,
      Option.bind_some, List.map_set, List.map_append, ← hentry, hflush,
      ← Firestore.resolve_reword]
    rfl
  · have hstop : UploadTask.reword ρ (Task.stop t) = (t.reword ρ).stop := rfl
    simp only [DeliveryEvent.reword, step, reword, hget ht, Option.bind_eq_bind,
      Option.bind_some, List.map_set, hstop]
    rfl

/-! ## What is seen of them -/

/-- A listener may be handed the documents it could be handed, with their texts replaced. -/
theorem visible_reword (s : Delivery) (owner peer : Uid) :
    (s.reword ρ).visible owner peer =
      (s.visible owner peer).map (StoredDocument.reword ρ) := by
  simp only [visible, reword, Firestore.reword, List.map_append, gather_map, map_gather]
  refine congrArg _ (congrArg (gather · s.tasks) ?_)
  funext i t
  change (if FromTo owner peer t ∧ t.outcomes = [] then [(ownCopy i t).reword ρ] else []) = _
  split <;> rfl

end Delivery

/-- The texts of a chat are spared. -/
theorem Rewording.Spares.text {ρ : Rewording} {uid peer : Uid} (h : ρ.Spares uid) {u : Upload}
    (hbetween : Delivery.Between uid peer u) : ρ u.currentUid u.peer u.text = u.text := by
  rcases hbetween with ⟨hcurrent, -⟩ | ⟨-, htarget⟩
  · rw [hcurrent]
    exact (h _ _).1
  · rw [htarget]
    exact (h _ _).2

/-- So are its messages. -/
theorem Rewording.Spares.message {ρ : Rewording} {uid peer : Uid} (h : ρ.Spares uid) {u : Upload}
    (hbetween : Delivery.Between uid peer u) : u.message.reword ρ = u.message := by
  rw [Upload.message, reword_messageData, h.text hbetween]

/-- The copies of the own messages stay what they are. -/
theorem Rewording.Spares.copy {ρ : Rewording} {uid peer : Uid} (h : ρ.Spares uid)
    {uploads : List Upload} {doc : StoredDocument} (hdoc : doc ∈ copies uid peer uploads) :
    doc.reword ρ = doc := by
  rcases mem_copies.1 hdoc with ⟨i, u, -, hbetween, rfl⟩
  rw [StoredDocument.reword, h.message hbetween]

/-- So do the messages decoded from them. -/
theorem Rewording.Spares.shown {ρ : Rewording} {uid peer : Uid} (h : ρ.Spares uid)
    {uploads : List Upload} {doc : StoredDocument} (hdoc : doc ∈ copies uid peer uploads) :
    (doc.shownTo uid).reword ρ = doc.shownTo uid := by
  rcases mem_copies.1 hdoc with ⟨i, u, -, hbetween, rfl⟩
  simp only [StoredDocument.shownTo, Upload.init_message, Message.reword, h.text hbetween]

end WaffleChat
