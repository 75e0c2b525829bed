import WaffleChat.Library.KeySorted
import WaffleChat.Service.FetchMessages

/-!
# Two participants of one chat

Both participants have the chat open: each listens to its own log and sends
messages into both.  A sender's listener sees the own copy at once; the peer's
copy stays in flight until the listener of the other side observes it, in any
order and in callbacks of any size.

Main results:

- Theorem `contents_perm`: the logs of both sides agree up to what is in flight.
- Theorem `messages_agree`: when every callback only brings messages later than
  those already shown, both sides show the same messages in the same order once
  everything has been delivered.
-/

namespace WaffleChat

open EventSystem KeySorted

/-- The two sides of a chat. -/
inductive Side where
  | left
  | right
deriving DecidableEq, Repr

/-- The side a side chats with. -/
def Side.other : Side → Side
  | .left => .right
  | .right => .left

@[simp]
theorem Side.other_other (side : Side) : side.other.other = side := by
  cases side <;> rfl

@[simp]
theorem Side.other_ne (side : Side) : side.other ≠ side := by
  cases side <;> decide

/-- What holds of a side and the other holds of both. -/
theorem Side.forall_iff {P : Side → Prop} (side : Side) :
    (∀ side', P side') ↔ P side ∧ P side.other := by
  cases side with
  | left => exact ⟨fun h => ⟨h .left, h .right⟩, fun h side' => by cases side'; exacts [h.1, h.2]⟩
  | right => exact ⟨fun h => ⟨h .right, h .left⟩, fun h side' => by cases side'; exacts [h.2, h.1]⟩

/-- One side: the listener of its log, and the documents the other side has written
into that log and the listener has not seen yet. -/
structure Participant where
  feed : MessageFeed
  inFlight : List StoredDocument
deriving DecidableEq, Repr

/-- Both sides, and the number of messages sent. -/
structure ChatPair where
  participant : Side → Participant
  sent : Nat

/-- What can happen next. -/
inductive ChatEvent where
  /-- A side uploads a message and its listener sees the own copy. -/
  | send (side : Side) (text : String) (date : Timestamp) (callback : SnapshotCallback)
  /-- The listener of a side sees some of the documents in flight to it. -/
  | deliver (side : Side) (batch rest : List StoredDocument) (callback : SnapshotCallback)

namespace ChatPair

/-- Nothing sent. -/
def initial : ChatPair where
  participant := fun _ => ⟨.initial, []⟩
  sent := 0

/-- The snapshot a side's listener received last. -/
def view (s : ChatPair) (side : Side) : List StoredDocument :=
  (s.participant side).feed.oldDocuments

/-- The documents in flight to a side. -/
def inFlight (s : ChatPair) (side : Side) : List StoredDocument :=
  (s.participant side).inFlight

/-- `ChatViewModel.messages` of a side. -/
def messages (s : ChatPair) (side : Side) : List Message :=
  (s.participant side).feed.chatMessages

/-- A callback brings exactly the given documents. -/
def Brings (s : ChatPair) (side : Side) (batch : List StoredDocument)
    (callback : SnapshotCallback) : Prop :=
  callback.documents.Perm (s.view side ++ batch) ∧ OrderedByTimestamp callback.documents

instance (s : ChatPair) (side : Side) (batch : List StoredDocument)
    (callback : SnapshotCallback) : Decidable (s.Brings side batch callback) :=
  inferInstanceAs (Decidable (_ ∧ _))

variable (user : Side → User)

/-- The upload a side makes. -/
def uploadOf (side : Side) (text : String) (date : Timestamp) : Upload where
  currentUid := (user side).uid
  user := user side.other
  text := text
  date := date

/-- The sender's copy of the message number `n`. -/
def ownDocument (n : Nat) (u : Upload) : StoredDocument := ⟨.auto n 0, u.message⟩

/-- The receiver's copy of the message number `n`. -/
def peerDocument (n : Nat) (u : Upload) : StoredDocument := ⟨.auto n 1, u.message⟩

/-- The copies land where the listeners of the two sides listen. -/
theorem queries_of_upload (side : Side) (text : String) (date : Timestamp) :
    messagesQuery (some (user side).uid) (user side.other) =
        some (logPath (uploadOf user side text date).currentUid
          (uploadOf user side text date).peer) ∧
      messagesQuery (some (user side.other).uid) (user side) =
        some (logPath (uploadOf user side text date).peer
          (uploadOf user side text date).currentUid) :=
  ⟨rfl, rfl⟩

/-- One event. -/
def step (s : ChatPair) : ChatEvent → Option ChatPair
  | .send side text date callback => do
      let u := uploadOf user side text date
      guard (s.Brings side [ownDocument s.sent u] callback)
      let feed ← (s.participant side).feed.step callback
      return {
        participant := fun side' =>
          if side' = side then { s.participant side' with feed := feed }
          else
            { s.participant side' with
              inFlight := (s.participant side').inFlight ++ [peerDocument s.sent u] }
        sent := s.sent + 1 }
  | .deliver side batch rest callback => do
      guard ((s.inFlight side).Perm (batch ++ rest))
      guard (s.Brings side batch callback)
      let feed ← (s.participant side).feed.step callback
      return {
        participant := fun side' =>
          if side' = side then ⟨feed, rest⟩ else s.participant side'
        sent := s.sent }

/-- A callback of one side's listener that brings the documents of `batch`. -/
structure Observes (s s' : ChatPair) (side : Side) (batch : List StoredDocument)
    (callback : SnapshotCallback) : Prop where
  brings : s.Brings side batch callback
  feed_eq : (s.participant side).feed.step callback = some (s'.participant side).feed
  other_eq : (s'.participant side.other).feed = (s.participant side.other).feed

/-- Sending shows the message on one side and puts it on its way to the other. -/
theorem step_send {s s' : ChatPair} {side : Side} {text : String} {date : Timestamp}
    {callback : SnapshotCallback}
    (h : step user s (.send side text date callback) = some s') :
    Observes s s' side [ownDocument s.sent (uploadOf user side text date)] callback ∧
      s'.inFlight side = s.inFlight side ∧
      s'.inFlight side.other =
        s.inFlight side.other ++ [peerDocument s.sent (uploadOf user side text date)] := by
  simp only [step, Option.bind_eq_bind, Option.bind_eq_some_iff, Option.guard_eq_some',
    Option.pure_def, Option.some.injEq] at h
  rcases h with ⟨-, hbrings, feed, hfeed, rfl⟩
  refine ⟨⟨hbrings, ?_, ?_⟩, ?_, ?_⟩
  · simpa using hfeed
  · simp
  · simp [inFlight]
  · simp [inFlight]

/-- A delivery shows what was on its way. -/
theorem step_deliver {s s' : ChatPair} {side : Side} {batch rest : List StoredDocument}
    {callback : SnapshotCallback}
    (h : step user s (.deliver side batch rest callback) = some s') :
    (s.inFlight side).Perm (batch ++ rest) ∧ Observes s s' side batch callback ∧
      s'.inFlight side = rest ∧ s'.inFlight side.other = s.inFlight side.other := by
  simp only [step, Option.bind_eq_bind, Option.bind_eq_some_iff, Option.guard_eq_some',
    Option.pure_def, Option.some.injEq] at h
  rcases h with ⟨-, hperm, -, hbrings, feed, hfeed, rfl⟩
  refine ⟨hperm, ⟨hbrings, ?_, ?_⟩, ?_, ?_⟩
  · simpa using hfeed
  · simp
  · simp [inFlight]
  · simp [inFlight]

/-- A side sees the documents of its callback. -/
theorem Observes.view_eq {s s' : ChatPair} {side : Side} {batch : List StoredDocument}
    {callback : SnapshotCallback} (h : Observes s s' side batch callback) :
    s'.view side = callback.documents := by
  have hfeed := h.feed_eq
  rw [MessageFeed.step_eq] at hfeed
  rw [view, ← Option.some.inj hfeed]
  rfl

/-- The other side sees what it saw before. -/
theorem Observes.view_other {s s' : ChatPair} {side : Side} {batch : List StoredDocument}
    {callback : SnapshotCallback} (h : Observes s s' side batch callback) :
    s'.view side.other = s.view side.other := by
  rw [view, h.other_eq, view]

/-! ## Both logs hold the same messages -/

/-- What a side has seen or will see. -/
def contents (s : ChatPair) (side : Side) : List Dictionary :=
  (s.view side ++ s.inFlight side).map StoredDocument.data

/-- A message is sent into both logs at once; a delivery changes neither. -/
theorem contents_step {s s' : ChatPair} {e : ChatEvent} (hstep : step user s e = some s') :
    ∃ added, ∀ side, (s'.contents side).Perm (s.contents side ++ added) := by
  cases e with
  | send side text date callback =>
      rcases step_send user hstep with ⟨hobserves, hown, hother⟩
      refine ⟨[(uploadOf user side text date).message], (Side.forall_iff side).2 ⟨?_, ?_⟩⟩
      · have hperm := (hobserves.brings.1.append_right (s.inFlight side)).map
          StoredDocument.data
        rw [contents, hobserves.view_eq, hown]
        refine hperm.trans ?_
        simp only [contents, List.map_append, List.append_assoc]
        exact List.perm_append_comm.append_left _
      · rw [contents, hobserves.view_other, hother]
        simp [contents, peerDocument]
  | deliver side batch rest callback =>
      rcases step_deliver user hstep with ⟨hinFlight, hobserves, hrest, hother⟩
      refine ⟨[], (Side.forall_iff side).2 ⟨?_, ?_⟩⟩
      · rw [contents, hobserves.view_eq, hrest, List.append_nil]
        refine List.Perm.map _ ((hobserves.brings.1.append_right rest).trans ?_)
        rw [List.append_assoc]
        exact hinFlight.symm.append_left _
      · rw [contents, hobserves.view_other, hother, List.append_nil]
        rfl

/-- Both sides have seen or will see the same messages. -/
theorem contents_perm {s : ChatPair} (hreach : Reachable (step user) initial s) :
    (s.contents .left).Perm (s.contents .right) := by
  refine hreach.invariant (P := fun s => (s.contents .left).Perm (s.contents .right)) ?_
    (List.Perm.refl _)
  intro a e b _ ha hab
  rcases contents_step user hab with ⟨added, hadded⟩
  exact (hadded .left).trans ((ha.append_right added).trans (hadded .right).symm)

/-! ## What the messages say -/

/-- A message without the decoration that depends on the viewer. -/
def content (message : Message) : String × Uid × Uid × Timestamp :=
  (message.text, message.fromId, message.toId, message.timestamp)

/-- The content of a document, as anyone decodes it. -/
def contentOf (data : Dictionary) : String × Uid × Uid × Timestamp :=
  content (Message.init ⟨⟨0, 0⟩, none⟩ data)

/-- The document was written by an upload. -/
def Uploaded (doc : StoredDocument) : Prop :=
  ∃ u : Upload, doc.data = u.message

/-- Uploaded documents mean the same to every viewer. -/
theorem content_init {doc : StoredDocument} (h : Uploaded doc) (ambient : Ambient) :
    content (Message.init ambient doc.data) = contentOf doc.data := by
  rcases h with ⟨u, hu⟩
  simp [contentOf, content, hu, Upload.init_message]

/-- All documents are ones that have been uploaded. -/
theorem uploaded_step {s s' : ChatPair} {e : ChatEvent}
    (h : ∀ side, ∀ doc ∈ s.view side ++ s.inFlight side, Uploaded doc)
    (hstep : step user s e = some s') :
    ∀ side, ∀ doc ∈ s'.view side ++ s'.inFlight side, Uploaded doc := by
  cases e with
  | send side text date callback =>
      rcases step_send user hstep with ⟨hobserves, hown, hother⟩
      refine (Side.forall_iff side).2 ⟨?_, ?_⟩
      · rw [hobserves.view_eq, hown]
        intro doc hdoc
        rcases List.mem_append.1 hdoc with hdoc | hdoc
        · rcases List.mem_append.1 (hobserves.brings.1.subset hdoc) with hdoc | hdoc
          · exact h side doc (List.mem_append_left _ hdoc)
          · exact ⟨_, by rw [List.mem_singleton.1 hdoc]; rfl⟩
        · exact h side doc (List.mem_append_right _ hdoc)
      · rw [hobserves.view_other, hother]
        intro doc hdoc
        rw [← List.append_assoc] at hdoc
        rcases List.mem_append.1 hdoc with hdoc | hdoc
        · exact h side.other doc hdoc
        · exact ⟨_, by rw [List.mem_singleton.1 hdoc]; rfl⟩
  | deliver side batch rest callback =>
      rcases step_deliver user hstep with ⟨hinFlight, hobserves, hrest, hother⟩
      refine (Side.forall_iff side).2 ⟨?_, ?_⟩
      · rw [hobserves.view_eq, hrest]
        intro doc hdoc
        apply h side doc
        have hperm := hobserves.brings.1.append_right rest
        rw [List.append_assoc] at hperm
        exact (hperm.trans (hinFlight.symm.append_left _)).subset hdoc
      · rw [hobserves.view_other, hother]
        exact h side.other

/-- All documents in play were written by uploads. -/
theorem uploaded_of_reachable {s : ChatPair} (hreach : Reachable (step user) initial s) :
    ∀ side, ∀ doc ∈ s.view side ++ s.inFlight side, Uploaded doc := by
  refine hreach.invariant
    (P := fun s => ∀ side, ∀ doc ∈ s.view side ++ s.inFlight side, Uploaded doc) ?_ ?_
  · intro a e b _ ha hab
    exact uploaded_step user ha hab
  · intro side doc hdoc
    simp [initial, view, inFlight, MessageFeed.oldDocuments, MessageFeed.initial] at hdoc

/-! ## Messages in the order of their timestamps -/

/-- The side whose listener runs, and the documents it sees for the first time. -/
def observed (s : ChatPair) : ChatEvent → Side × List StoredDocument
  | .send side text date _ => (side, [ownDocument s.sent (uploadOf user side text date)])
  | .deliver side batch _ _ => (side, batch)

/-- What a callback brings is later than everything the side has seen, and no two
documents in it have the same timestamp. -/
def InOrder (s : ChatPair) (e : ChatEvent) : Prop :=
  (∀ doc ∈ s.view (observed user s e).1, ∀ doc' ∈ (observed user s e).2,
      doc.sentAt < doc'.sentAt) ∧
    ((observed user s e).2.map StoredDocument.sentAt).Nodup

instance (s : ChatPair) (e : ChatEvent) : Decidable (InOrder user s e) :=
  inferInstanceAs (Decidable (_ ∧ _))

/-- A side shows what it has seen, in the order of the timestamps. -/
structure Shows (s : ChatPair) (side : Side) : Prop where
  sorted : StrictlySorted StoredDocument.sentAt (s.view side)
  messages_eq : (s.messages side).map content =
    (s.view side).map fun doc => contentOf doc.data
  coherent : (s.participant side).feed.Coherent

/-- Later documents are shown behind the earlier ones. -/
theorem Observes.shows {s s' : ChatPair} {side : Side} {batch : List StoredDocument}
    {callback : SnapshotCallback} (h : Observes s s' side batch callback)
    (huploaded : ∀ doc ∈ batch, Uploaded doc) (hshows : s.Shows side)
    (hlater : ∀ doc ∈ s.view side, ∀ doc' ∈ batch, doc.sentAt < doc'.sentAt)
    (hdistinct : (batch.map StoredDocument.sentAt).Nodup) : s'.Shows side := by
  rcases append_of_later h.brings.1 h.brings.2.2 hshows.sorted hlater hdistinct with
    ⟨batch', hbatch', hdocuments, hsorted⟩
  have hadded : addedDocuments (s.view side) callback.documents = batch' := by
    rw [hdocuments]
    apply addedDocuments_append
    rw [← hdocuments]
    exact h.brings.2.1
  have hfeed := h.feed_eq
  rw [MessageFeed.step_eq] at hfeed
  have hmessages : s'.messages side =
      s.messages side ++ batch'.map fun doc => Message.init callback.ambient doc.data := by
    rw [messages, ← Option.some.inj hfeed]
    simp only [MessageFeed.chatMessages, Option.getD_some, MessageFeed.additions]
    rw [hshows.coherent, ← hadded]
    rfl
  refine ⟨?_, ?_, ?_⟩
  · rw [h.view_eq]
    exact hsorted
  · rw [h.view_eq, hmessages, hdocuments, List.map_append, List.map_append, hshows.messages_eq,
      List.map_map]
    congr 1
    apply List.map_congr_left
    intro doc hdoc
    exact content_init (huploaded doc (hbatch'.subset hdoc)) _
  · exact MessageFeed.coherent_step _ _ _ hshows.coherent h.feed_eq

/-- A side whose listener does not run goes on showing what it has shown. -/
theorem Observes.shows_other {s s' : ChatPair} {side : Side} {batch : List StoredDocument}
    {callback : SnapshotCallback} (h : Observes s s' side batch callback)
    (hshows : s.Shows side.other) : s'.Shows side.other := by
  constructor
  · rw [h.view_other]
    exact hshows.sorted
  · rw [h.view_other, messages, h.other_eq]
    exact hshows.messages_eq
  · rw [h.other_eq]
    exact hshows.coherent

/-- Events in order keep both sides in order. -/
theorem shows_step {s s' : ChatPair} {e : ChatEvent} (horder : InOrder user s e)
    (huploaded : ∀ side, ∀ doc ∈ s.view side ++ s.inFlight side, Uploaded doc)
    (h : ∀ side, s.Shows side) (hstep : step user s e = some s') : ∀ side, s'.Shows side := by
  rcases horder with ⟨hlater, hdistinct⟩
  cases e with
  | send side text date callback =>
      rcases step_send user hstep with ⟨hobserves, -, -⟩
      refine (Side.forall_iff side).2 ⟨?_, hobserves.shows_other (h side.other)⟩
      refine hobserves.shows ?_ (h side) hlater hdistinct
      intro doc hdoc
      exact ⟨_, by rw [List.mem_singleton.1 hdoc]; rfl⟩
  | deliver side batch rest callback =>
      rcases step_deliver user hstep with ⟨hinFlight, hobserves, -, -⟩
      refine (Side.forall_iff side).2 ⟨?_, hobserves.shows_other (h side.other)⟩
      refine hobserves.shows ?_ (h side) hlater hdistinct
      intro doc hdoc
      exact huploaded side doc (List.mem_append_right _
        (hinFlight.symm.subset (List.mem_append_left _ hdoc)))

/-- In a run whose callbacks bring messages in order both sides show what they have
seen. -/
theorem shows_run {es : List ChatEvent} {s : ChatPair}
    (horder : StepsMeet (step user) (InOrder user) initial es)
    (hrun : run (step user) initial es = some s) : ∀ side, s.Shows side := by
  have hinitial : ∀ side, initial.Shows side := by
    intro side
    exact ⟨List.Pairwise.nil, rfl, rfl⟩
  have hboth : Reachable (step user) initial s ∧ ∀ side, s.Shows side := by
    refine run_invariant_of_stepsMeet
      (P := fun s => Reachable (step user) initial s ∧ ∀ side, s.Shows side) ?_ horder
      ⟨Reachable.refl _, hinitial⟩ hrun
    rintro a e b he ⟨hreach, ha⟩ hab
    exact ⟨hreach.next hab, shows_step user he (uploaded_of_reachable user hreach) ha hab⟩
  exact hboth.2

/-- Sides that have seen the same documents in the order of the timestamps show the
same messages. -/
theorem messages_eq_of_shows {s : ChatPair} (hshows : ∀ side, s.Shows side)
    (hperm : ((s.view .left).map StoredDocument.data).Perm
      ((s.view .right).map StoredDocument.data)) :
    (s.messages .left).map content = (s.messages .right).map content := by
  have hsorted : ∀ side, StrictlySorted Dictionary.sentAt
      ((s.view side).map StoredDocument.data) :=
    fun side => List.pairwise_map.2 (hshows side).sorted
  have hdata := eq_of_perm ((hsorted .left).imp fun hlt => hlt.le) (hsorted .right) hperm
  calc
    (s.messages .left).map content = ((s.view .left).map StoredDocument.data).map contentOf := by
      rw [(hshows .left).messages_eq, List.map_map]
      rfl
    _ = ((s.view .right).map StoredDocument.data).map contentOf := by rw [hdata]
    _ = (s.messages .right).map content := by
      rw [(hshows .right).messages_eq, List.map_map]
      rfl

/-- In every run in which each callback brings only messages later than those the
side has seen, with distinct timestamps, both sides show the same messages in the
same order whenever everything has been delivered to both. -/
theorem messages_agree {es : List ChatEvent} {s : ChatPair}
    (horder : StepsMeet (step user) (InOrder user) initial es)
    (hrun : run (step user) initial es = some s) (hdelivered : ∀ side, s.inFlight side = []) :
    (s.messages .left).map content = (s.messages .right).map content := by
  have hperm := contents_perm user ⟨es, hrun⟩
  simp only [contents, hdelivered, List.append_nil] at hperm
  exact messages_eq_of_shows (shows_run user horder hrun) hperm

/-- Two users. -/
def sampleUser : Side → User
  | .left => .sample "alice"
  | .right => .sample "bob"

/-- The message a side sends at the given second, in copy `n` of upload number `k`. -/
def sampleDocument (side : Side) (second : Int) (k n : Nat) : StoredDocument :=
  ⟨.auto k n, (uploadOf sampleUser side "hi" ⟨second, 0⟩).message⟩

/-- A callback of a side's listener with the given documents. -/
def sampleCallback (side : Side) (documents : List StoredDocument) : SnapshotCallback :=
  ⟨⟨⟨0, 0⟩, some (sampleUser side).uid⟩, documents⟩

/-- The right side answers after it has seen the message of the left side. -/
def alternatingChat : List ChatEvent :=
  [.send .left "hi" ⟨1, 0⟩ (sampleCallback .left [sampleDocument .left 1 0 0]),
   .deliver .right [sampleDocument .left 1 0 1] []
     (sampleCallback .right [sampleDocument .left 1 0 1]),
   .send .right "hi" ⟨2, 0⟩
     (sampleCallback .right [sampleDocument .left 1 0 1, sampleDocument .right 2 1 0]),
   .deliver .left [sampleDocument .right 2 1 1] []
     (sampleCallback .left [sampleDocument .left 1 0 0, sampleDocument .right 2 1 1])]

theorem messages_agree_alternating :
    ∃ s, run (step sampleUser) initial alternatingChat = some s ∧
      (s.messages .left).map content = (s.messages .right).map content :=
  have horder : StepsMeet (step sampleUser) (InOrder sampleUser) initial alternatingChat := by
    decide
  ⟨_, run_final rfl, messages_agree sampleUser horder (run_final rfl)
    (by intro side; cases side <;> rfl)⟩

/-- Both sides send before they see the message of the other side. -/
def crossingChat : List ChatEvent :=
  [.send .left "hi" ⟨1, 0⟩ (sampleCallback .left [sampleDocument .left 1 0 0]),
   .send .right "hi" ⟨2, 0⟩ (sampleCallback .right [sampleDocument .right 2 1 0]),
   .deliver .left [sampleDocument .right 2 1 1] []
     (sampleCallback .left [sampleDocument .left 1 0 0, sampleDocument .right 2 1 1]),
   .deliver .right [sampleDocument .left 1 0 1] []
     (sampleCallback .right [sampleDocument .left 1 0 1, sampleDocument .right 2 1 0])]

/-- Each side shows its own message first. -/
theorem not_agree_of_crossing :
    ∃ s, run (step sampleUser) initial crossingChat = some s ∧
      (∀ side, s.inFlight side = []) ∧
      (s.messages .left).map content ≠ (s.messages .right).map content :=
  ⟨_, run_final rfl, by intro side; cases side <;> rfl, by decide⟩

end ChatPair

end WaffleChat
