import WaffleChat.Firestore.Snapshots
import WaffleChat.Library.EventSystem
import WaffleChat.Model.Records
import WaffleChat.Service.UploadMessage

/-!
# The message list of a chat

`APIManager.fetchMessages`: the listener of the chat's log appends a message for
every `added` change and leaves the list alone otherwise; after each callback the
whole list is emitted.

Main results:

- Theorem `onSnapshot_eq`: the effect of one callback.
- Theorem `displays_iff`: the emitted list shows the snapshot after every callback
  exactly when every callback only appends.
- Theorem `emitted_additions`: the emitted list holds what has been added so far, is
  left alone by what is modified or removed, and shows the snapshot throughout a run
  that only appends.
-/

namespace WaffleChat

open EventSystem

/-- The collection `fetchMessages(forUser:)` listens to; without a session the
observable is empty. -/
def messagesQuery (currentUser : Option Uid) (user : User) : Option CollectionPath :=
  currentUser.map fun currentUid => logPath currentUid user.uid

/-- An error-free callback: the documents of the new snapshot, in query order. -/
structure SnapshotCallback where
  ambient : Ambient
  documents : List StoredDocument
deriving DecidableEq, Repr

namespace SnapshotCallback

/-- The snapshot's documents, decoded. -/
def decoded (callback : SnapshotCallback) : List Message :=
  callback.documents.map fun doc => Message.init callback.ambient doc.data

end SnapshotCallback

/-- The listener of one call of `fetchMessages`: the callback it received last, its
variable `messages` and the list it emitted last. -/
structure MessageFeed where
  latest : Option SnapshotCallback
  messages : List Message
  emitted : Option (List Message)
deriving DecidableEq, Repr

namespace MessageFeed

/-- Before the first callback. -/
def initial : MessageFeed where
  latest := none
  messages := []
  emitted := none

/-- The body of the listener; `none` is a callback without a snapshot. -/
def onSnapshot (ambient : Ambient) (messages : List Message) :
    Option (List DocumentChange) → List Message
  | none => messages
  | some changes =>
      changes.foldl (fun messages change =>
        if change.type = .added then
          messages ++ [Message.init ambient change.document.data]
        else messages) messages

/-- The documents of the previous snapshot. -/
def oldDocuments (s : MessageFeed) : List StoredDocument :=
  s.latest.elim [] SnapshotCallback.documents

/-- One callback. -/
def step (s : MessageFeed) (callback : SnapshotCallback) : Option MessageFeed :=
  let changes := documentChanges s.oldDocuments callback.documents
  let messages := onSnapshot callback.ambient s.messages (some changes)
  some
    { latest := some callback
      messages := messages
      emitted := some messages }

/-- `ChatViewModel.messages`: what was emitted last, initially no messages. -/
def chatMessages (s : MessageFeed) : List Message :=
  s.emitted.getD []

/-- The list emitted last is the decoded snapshot received last. -/
def Displays (s : MessageFeed) : Prop :=
  s.emitted = s.latest.map SnapshotCallback.decoded

instance : DecidablePred Displays := fun _ =>
  inferInstanceAs (Decidable (_ = _))

/-- The messages a callback adds. -/
def additions (s : MessageFeed) (callback : SnapshotCallback) : List Message :=
  (addedDocuments s.oldDocuments callback.documents).map fun doc =>
    Message.init callback.ambient doc.data

/-- The new snapshot reads as the previous one followed by its added documents:
nothing was removed, altered or overtaken. -/
def AppendsOnly (s : MessageFeed) (callback : SnapshotCallback) : Prop :=
  callback.decoded = s.latest.elim [] SnapshotCallback.decoded ++ s.additions callback

/-! ## One callback -/

/-- Appending for some changes only is appending for the filtered changes. -/
theorem onSnapshot_changes (ambient : Ambient) (messages : List Message)
    (changes : List DocumentChange) :
    onSnapshot ambient messages (some changes) =
      messages ++ (changes.filter fun change => change.type = .added).map
        fun change => Message.init ambient change.document.data := by
  unfold onSnapshot
  induction changes generalizing messages with
  | nil => simp
  | cons change changes ih =>
      by_cases hadded : change.type = .added
      · simp [hadded, ih]
      · simp [hadded, ih]

/-- A callback appends the messages of the added documents. -/
theorem onSnapshot_eq (s : MessageFeed) (callback : SnapshotCallback) :
    onSnapshot callback.ambient s.messages
        (some (documentChanges s.oldDocuments callback.documents)) =
      s.messages ++ s.additions callback := by
  rw [onSnapshot_changes, filter_added_documentChanges, List.map_map]
  rfl

theorem step_eq (s : MessageFeed) (callback : SnapshotCallback) :
    step s callback = some
      { latest := some callback
        messages := s.messages ++ s.additions callback
        emitted := some (s.messages ++ s.additions callback) } := by
  simp only [step, onSnapshot_eq]

/-- The variable `messages` is what was emitted last. -/
def Coherent (s : MessageFeed) : Prop :=
  s.messages = s.chatMessages

theorem coherent_step (s : MessageFeed) (callback : SnapshotCallback) (s' : MessageFeed)
    (_ : Coherent s) (hstep : step s callback = some s') : Coherent s' := by
  rw [step_eq] at hstep
  cases hstep
  rfl

/-! ## Runs -/

/-- A callback keeps the display right exactly when it only appends. -/
theorem displays_step (s : MessageFeed) (callback : SnapshotCallback) (s' : MessageFeed)
    (hcoherent : Coherent s) (hdisplays : Displays s) (hstep : step s callback = some s') :
    Displays s' ↔ AppendsOnly s callback := by
  have hmessages : s.messages = s.latest.elim [] SnapshotCallback.decoded := by
    rw [hcoherent, chatMessages, hdisplays]
    cases s.latest <;> rfl
  rw [step_eq] at hstep
  cases hstep
  simp only [Displays, AppendsOnly, Option.map_some, Option.some.injEq, hmessages]
  exact eq_comm

/-- The listener accepts every sequence of callbacks. -/
theorem run_isSome (s : MessageFeed) (callbacks : List SnapshotCallback) :
    (run step s callbacks).isSome := by
  induction callbacks generalizing s with
  | nil => rfl
  | cons callback callbacks ih =>
      simp only [run, step_eq, Option.bind_some]
      exact ih _

/-- The emitted list is the decoded snapshot after every callback exactly when every
callback only appends. -/
theorem displays_iff (callbacks : List SnapshotCallback) :
    Always step Displays initial callbacks ↔ StepsMeet step AppendsOnly initial callbacks := by
  exact always_iff_stepsMeet (I := Coherent) coherent_step displays_step rfl rfl
    (run_final (run_isSome initial callbacks))

/-- The variable `messages` collects all additions of a run. -/
theorem messages_run {callbacks : List SnapshotCallback} {s : MessageFeed}
    (hrun : run step initial callbacks = some s) :
    s.messages = trace step additions initial callbacks := by
  have hstep : ∀ added a callback b, a.messages = added → step a callback = some b →
      b.messages = added ++ a.additions callback := by
    intro added a callback b ha hab
    rw [step_eq] at hab
    cases hab
    rw [ha]
  have hinitial : initial.messages = [] := rfl
  simpa using run_trace_invariant (R := fun added s => s.messages = added) hstep hinitial hrun

theorem coherent_run {callbacks : List SnapshotCallback} {s : MessageFeed}
    (hrun : run step initial callbacks = some s) : Coherent s := by
  have hinitial : Coherent initial := rfl
  exact run_invariant coherent_step hinitial hrun

/-- A callback keeps the listed messages and their order, and changes nothing if it adds
nothing. -/
theorem sublist_step {s s' : MessageFeed} {callback : SnapshotCallback} (hcoherent : Coherent s)
    (hstep : step s callback = some s') :
    s.chatMessages.Sublist s'.chatMessages ∧
      (s.additions callback = [] → s'.chatMessages = s.chatMessages) := by
  rw [step_eq] at hstep
  cases hstep
  have hmessages : s.messages = s.chatMessages := hcoherent
  simp only [chatMessages, Option.getD_some] at hmessages ⊢
  rw [← hmessages]
  refine ⟨List.sublist_append_left _ _, ?_⟩
  intro hnone
  rw [hnone, List.append_nil]

/-- The list emitted last holds the message of every document added so far, once for
each addition.  The next callback leaves these messages as they are and in their order,
whatever it modifies and removes, and leaves the list alone if it adds nothing.  In a run
whose callbacks only append the list is the decoded snapshot after every callback. -/
theorem emitted_additions {callbacks : List SnapshotCallback} {s : MessageFeed}
    (hrun : run step initial callbacks = some s) :
    s.chatMessages.Perm (trace step additions initial callbacks) ∧
      (∀ callback s', step s callback = some s' →
        s.chatMessages.Sublist s'.chatMessages ∧
          (s.additions callback = [] → s'.chatMessages = s.chatMessages)) ∧
      (StepsMeet step AppendsOnly initial callbacks →
        Always step Displays initial callbacks) := by
  have hcoherent := coherent_run hrun
  refine ⟨?_, fun _ _ hstep => sublist_step hcoherent hstep, (displays_iff callbacks).2⟩
  rw [← hcoherent, messages_run hrun]

/-- A callback for `alice` with the given messages from `bob`. -/
def callbackOf (seconds : List Int) : SnapshotCallback where
  ambient := ⟨⟨0, 0⟩, some "alice"⟩
  documents := seconds.map fun second =>
    ⟨.auto second.toNat 1, (Upload.sample "bob" "alice" "hi" second).message⟩

theorem emitted_additions_two_callbacks :
    ∃ s, run step initial [callbackOf [1], callbackOf [1, 2]] = some s ∧
      s.chatMessages.Perm (trace step additions initial [callbackOf [1], callbackOf [1, 2]]) ∧
      (∀ callback s', step s callback = some s' →
        s.chatMessages.Sublist s'.chatMessages ∧
          (s.additions callback = [] → s'.chatMessages = s.chatMessages)) ∧
      (StepsMeet step AppendsOnly initial [callbackOf [1], callbackOf [1, 2]] →
        Always step Displays initial [callbackOf [1], callbackOf [1, 2]]) :=
  ⟨_, run_final rfl, emitted_additions (run_final rfl)⟩

/-- A document that is removed again stays in the list. -/
theorem not_displays_of_removed :
    OrderedByTimestamp (callbackOf [1]).documents ∧ OrderedByTimestamp (callbackOf []).documents ∧
      ∃ s, run step initial [callbackOf [1], callbackOf []] = some s ∧ ¬ Displays s :=
  ⟨by decide, by decide, _, run_final rfl, by decide⟩

end MessageFeed

end WaffleChat
