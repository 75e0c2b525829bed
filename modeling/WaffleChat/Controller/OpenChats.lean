import WaffleChat.Library.Refinement
import WaffleChat.Service.MessageCopies

/-!
# From one chat screen to the other

Any number of chat screens over one document store.  A tap on a screen starts an upload
with the text its view model has read; the listener of a screen is handed snapshots of its
log, in which the copies that its own device has yet to send are contained already.

Main results:

- Theorem `OpenChat.Sound.copies_perm`: what a listener has been handed when its log is
  complete.
- Theorem `OpenChats.shows_sent`: what a screen shows is what has been sent.
- Theorem `OpenChats.screens_mirrored`: both screens of a chat show the same, mirrored.
-/

namespace WaffleChat

open CallbackProgram EventSystem Gather

/-! ## One screen -/

/-- A chat screen: whose it is and whom it has been opened for, the text its view model has
read, and the listener of its log. -/
structure OpenChat where
  uid : Uid
  user : User
  inputText : String
  feed : MessageFeed

namespace OpenChat

/-- A new screen. -/
def create (uid : Uid) (user : User) : OpenChat where
  uid := uid
  user := user
  inputText := ""
  feed := .initial

/-- The upload a tap starts. -/
def upload (chat : OpenChat) (date : Timestamp) : Upload :=
  ⟨chat.uid, chat.user, chat.inputText, date⟩

/-- The documents a callback is the first to hand over. -/
def added (chat : OpenChat) (callback : SnapshotCallback) : List StoredDocument :=
  addedDocuments chat.feed.oldDocuments callback.documents

/-- What Firestore hands to a listener: an ordered part of what it may see, with all of the
last snapshot that it still may see. -/
def Receives (delivery : Delivery) (chat : OpenChat) (callback : SnapshotCallback) : Prop :=
  callback.ambient.currentUid = some chat.uid ∧ OrderedByTimestamp callback.documents ∧
    (∀ doc ∈ callback.documents, doc ∈ delivery.visible chat.uid chat.user.uid) ∧
    ∀ doc ∈ chat.feed.oldDocuments, doc ∈ delivery.visible chat.uid chat.user.uid →
      doc ∈ callback.documents

instance (delivery : Delivery) (chat : OpenChat) (callback : SnapshotCallback) :
    Decidable (chat.Receives delivery callback) :=
  inferInstanceAs (Decidable (_ ∧ _))

/-- The listener of the screen runs. -/
def onSnapshot (delivery : Delivery) (chat : OpenChat) (callback : SnapshotCallback) :
    Option OpenChat := do
  guard (chat.Receives delivery callback)
  let feed ← chat.feed.step callback
  return { chat with feed := feed }

/-- What a snapshot does to a chat. -/
theorem onSnapshot_eq_some {delivery : Delivery} {chat chat' : OpenChat}
    {callback : SnapshotCallback} (h : chat.onSnapshot delivery callback = some chat') :
    chat.Receives delivery callback ∧ chat' = { chat with
      feed :=
        { latest := some callback
          messages := chat.feed.messages ++ chat.feed.additions callback
          emitted := some (chat.feed.messages ++ chat.feed.additions callback) } } := by
  simp only [onSnapshot, MessageFeed.step_eq, Option.bind_eq_bind, Option.bind_eq_some_iff,
    Option.guard_eq_some', Option.some.injEq, Option.pure_def] at h
  rcases h with ⟨-, hreceives, _, rfl, rfl⟩
  exact ⟨hreceives, rfl⟩

/-- The listener has been handed the copies `seen`, none of them twice and each to stay
unless it was rejected, and the screen shows them in the order in which they have come. -/
structure Sound (delivery : Delivery) (chat : OpenChat) (seen : List StoredDocument) :
    Prop where
  other : chat.uid ≠ chat.user.uid
  unreserved : chat.user.uid ≠ "recent-messages"
  nodup : (seen.map StoredDocument.id).Nodup
  copies : seen ⊆ WaffleChat.copies chat.uid chat.user.uid delivery.uploads
  old : chat.feed.oldDocuments ⊆ seen
  kept : ∀ doc ∈ seen, (doc ∈ chat.feed.oldDocuments ∧
    doc ∈ delivery.visible chat.uid chat.user.uid) ∨ delivery.Rejected doc
  coherent : chat.feed.Coherent
  messages : chat.feed.messages = seen.map (StoredDocument.shownTo chat.uid)

/-- A chat that is opened has seen nothing. -/
theorem sound_create (delivery : Delivery) {uid : Uid} {user : User} (hother : uid ≠ user.uid)
    (hunreserved : user.uid ≠ "recent-messages") : (create uid user).Sound delivery [] := by
  refine ⟨hother, hunreserved, ?_, ?_, ?_, ?_, rfl, rfl⟩
  · simp
  · simp
  · simp [create, MessageFeed.oldDocuments, MessageFeed.initial]
  · simp

/-- Reading the text view touches neither the listener nor what it has been handed. -/
theorem Sound.inputText {delivery : Delivery} {chat : OpenChat} {seen : List StoredDocument}
    (h : chat.Sound delivery seen) (text : String) :
    ({ chat with inputText := text } : OpenChat).Sound delivery seen :=
  ⟨h.other, h.unreserved, h.nodup, h.copies, h.old, h.kept, h.coherent, h.messages⟩

/-- What is going on in the store takes nothing from a listener but what is rejected. -/
theorem Sound.delivery {delivery delivery' : Delivery}
    (hreach : Reachable Delivery.step .initial delivery) {chat : OpenChat}
    {seen : List StoredDocument} (h : chat.Sound delivery seen) {e : DeliveryEvent}
    (hstep : delivery.step e = some delivery') : chat.Sound delivery' seen := by
  refine ⟨h.other, h.unreserved, h.nodup, ?_, h.old, ?_, h.coherent, h.messages⟩
  · rw [Delivery.uploads_step hstep]
    exact List.Subset.trans h.copies (copies_append_subset _ _ _ _)
  · intro doc hdoc
    rcases h.kept doc hdoc with ⟨hold, hvisible⟩ | hrejected
    · rcases Delivery.visible_step hreach hstep h.unreserved hvisible with hstill | hrejected
      · exact Or.inl ⟨hold, hstill⟩
      · exact Or.inr hrejected
    · exact Or.inr (hrejected.step hstep)

/-- A callback hands over copies that have not been handed over before. -/
theorem Sound.onSnapshot {delivery : Delivery}
    (hreach : Reachable Delivery.step .initial delivery) {chat chat' : OpenChat}
    {seen : List StoredDocument} (h : chat.Sound delivery seen) {callback : SnapshotCallback}
    (hstep : chat.onSnapshot delivery callback = some chat') :
    chat'.Sound delivery (seen ++ chat.added callback) := by
  rcases onSnapshot_eq_some hstep with ⟨⟨hcurrent, hordered, hvisible, hstay⟩, rfl⟩
  have hdocuments : callback.documents ⊆
      WaffleChat.copies chat.uid chat.user.uid delivery.uploads := fun doc hdoc =>
    Delivery.visible_subset_copies hreach h.other h.unreserved (hvisible doc hdoc)
  have hadded : chat.added callback ⊆ callback.documents := List.filter_sublist.subset
  refine ⟨h.other, h.unreserved, ?_, ?_, ?_, ?_, rfl, ?_⟩
  · rw [List.map_append]
    refine List.nodup_append.2 ⟨h.nodup, hordered.1.sublist (List.filter_sublist.map _), ?_⟩
    rintro _ hold _ hid rfl
    rcases List.mem_map.1 hold with ⟨before, hbefore, hsame⟩
    rcases List.mem_map.1 hid with ⟨doc, hdoc, rfl⟩
    obtain rfl : before = doc :=
      eq_of_mem_copies (h.copies hbefore) (hdocuments (hadded hdoc)) hsame
    -- a copy that was there before is in the last snapshot, or it will not come back
    rcases h.kept before hbefore with ⟨hlast, -⟩ | hrejected
    · have hnew : before.id ∉ chat.feed.oldDocuments.map StoredDocument.id := by
        simpa using (List.mem_filter.1 hdoc).2
      exact hnew (List.mem_map_of_mem hlast)
    · exact Delivery.not_rejected_of_visible hreach h.unreserved (hvisible _ (hadded hdoc))
        hrejected
  · intro doc hdoc
    rcases List.mem_append.1 hdoc with hold | hadd
    · exact h.copies hold
    · exact hdocuments (hadded hadd)
  · intro doc hdoc
    change doc ∈ callback.documents at hdoc
    by_cases hold : doc.id ∈ chat.feed.oldDocuments.map StoredDocument.id
    · rcases List.mem_map.1 hold with ⟨before, hbefore, hid⟩
      have hcopy := h.copies (h.old hbefore)
      rw [← eq_of_mem_copies hcopy (hdocuments hdoc) hid]
      exact List.mem_append_left _ (h.old hbefore)
    · exact List.mem_append_right _ (List.mem_filter.2 ⟨hdoc, by simpa using hold⟩)
  · intro doc hdoc
    rcases List.mem_append.1 hdoc with hold | hadd
    · rcases h.kept doc hold with ⟨hlast, hstill⟩ | hrejected
      · exact Or.inl ⟨hstay doc hlast hstill, hstill⟩
      · exact Or.inr hrejected
    · exact Or.inl ⟨hadded hadd, hvisible doc (hadded hadd)⟩
  · rw [List.map_append, ← h.messages]
    refine congrArg (chat.feed.messages ++ ·) (List.map_congr_left fun doc hdoc => ?_)
    exact init_copy (hdocuments (hadded hdoc)) hcurrent

/-- When the last snapshot holds all copies, these are what the listener has been handed. -/
theorem Sound.copies_perm {delivery : Delivery} {chat : OpenChat} {seen : List StoredDocument}
    (h : chat.Sound delivery seen)
    (hcomplete : WaffleChat.copies chat.uid chat.user.uid delivery.uploads ⊆
      chat.feed.oldDocuments) :
    seen.Perm (WaffleChat.copies chat.uid chat.user.uid delivery.uploads) := by
  refine (List.perm_ext_iff_of_nodup h.nodup.of_map (nodup_copies _ _ _)).2 fun doc => ?_
  exact ⟨fun hdoc => h.copies hdoc, fun hdoc => h.old (hcomplete hdoc)⟩

/-- The messages of a screen are among those exchanged, and no message is shown twice. -/
theorem Sound.subperm {delivery : Delivery} {chat : OpenChat} {seen : List StoredDocument}
    (h : chat.Sound delivery seen) :
    chat.feed.chatMessages.Subperm
      ((delivery.uploads.filter fun u => Delivery.Between chat.uid chat.user.uid u).map
        (Upload.shownTo chat.uid)) := by
  rw [← h.coherent, h.messages, ← map_shownTo_copies]
  rcases h.nodup.of_map.subperm h.copies with ⟨shown, hperm, hsublist⟩
  exact ⟨_, hperm.map _, hsublist.map _⟩

end OpenChat

/-! ## All screens -/

/-- The store with the uploads on their way, and the chat screens. -/
structure OpenChats where
  delivery : Delivery
  chats : List OpenChat

/-- What can happen next. -/
inductive OpenChatsEvent where
  /-- A chat with `user` is opened by `uid`. -/
  | opened (uid : Uid) (user : User)
  /-- The text of the text view arrives at screen `k`. -/
  | inputText (k : Nat) (text : String)
  /-- The send button of screen `k` is tapped; its clock shows `date`. -/
  | sendButtonTapped (k : Nat) (date : Timestamp)
  /-- The backend decides a write, a handler runs, or a process stops. -/
  | backend (e : DeliveryEvent)
  /-- The listener of screen `k` runs. -/
  | snapshot (k : Nat) (callback : SnapshotCallback)
deriving DecidableEq, Repr

/-- No write is rejected and no process stops. -/
def OpenChatsEvent.Succeeds : OpenChatsEvent → Prop
  | .backend e => e.Succeeds
  | _ => True

instance : DecidablePred OpenChatsEvent.Succeeds
  | .opened _ _ => inferInstanceAs (Decidable True)
  | .inputText _ _ => inferInstanceAs (Decidable True)
  | .sendButtonTapped _ _ => inferInstanceAs (Decidable True)
  | .backend e => inferInstanceAs (Decidable e.Succeeds)
  | .snapshot _ _ => inferInstanceAs (Decidable True)

namespace OpenChats

/-- An empty store and no screens. -/
def initial : OpenChats where
  delivery := .initial
  chats := []

/-- The upload a tap starts: none if the screen has read no text. -/
def sent (s : OpenChats) : OpenChatsEvent → List Upload
  | .sendButtonTapped k date =>
      (s.chats[k]?).elim [] fun chat => if chat.inputText = "" then [] else [chat.upload date]
  | _ => []

/-- The events of the store an event causes. -/
def deliveryEvents (s : OpenChats) (e : OpenChatsEvent) : List DeliveryEvent :=
  match e with
  | .backend e => [e]
  | e => (s.sent e).map .upload

/-- One event; nobody chats with oneself, and no account has the reserved name. -/
def step (s : OpenChats) : OpenChatsEvent → Option OpenChats
  | .opened uid user =>
      if uid ≠ user.uid ∧ user.uid ≠ "recent-messages" then
        some { s with chats := s.chats ++ [.create uid user] }
      else none
  | .inputText k text => do
      let chat ← s.chats[k]?
      return { s with chats := s.chats.set k { chat with inputText := text } }
  | .sendButtonTapped k date => do
      let chat ← s.chats[k]?
      if chat.inputText = "" then return s
      else do
        let delivery ← s.delivery.step (.upload (chat.upload date))
        return { s with delivery := delivery }
  | .backend e => do
      guard (e.started = [])
      let delivery ← s.delivery.step e
      return { s with delivery := delivery }
  | .snapshot k callback => do
      let chat ← s.chats[k]?
      let chat' ← chat.onSnapshot s.delivery callback
      return { s with chats := s.chats.set k chat' }

/-- Everything one event can do. -/
theorem step_cases {s s' : OpenChats} {e : OpenChatsEvent} (h : step s e = some s') :
    (∃ uid user, e = .opened uid user ∧ uid ≠ user.uid ∧ user.uid ≠ "recent-messages" ∧
      s' = { s with chats := s.chats ++ [.create uid user] }) ∨
    (∃ k text chat, e = .inputText k text ∧ s.chats[k]? = some chat ∧
      s' = { s with chats := s.chats.set k { chat with inputText := text } }) ∨
    (∃ k date, e = .sendButtonTapped k date ∧ s.sent e = [] ∧ s' = s) ∨
    (∃ d delivery, s.deliveryEvents e = [d] ∧ s.sent e = d.started ∧
      s.delivery.step d = some delivery ∧ s' = { s with delivery := delivery }) ∨
    (∃ k callback chat chat', e = .snapshot k callback ∧ s.chats[k]? = some chat ∧
      chat.onSnapshot s.delivery callback = some chat' ∧
      s' = { s with chats := s.chats.set k chat' }) := by
  cases e with
  | opened uid user =>
      simp only [step, Option.ite_none_right_eq_some, Option.some.injEq] at h
      rcases h with ⟨⟨hother, hunreserved⟩, rfl⟩
      exact Or.inl ⟨uid, user, rfl, hother, hunreserved, rfl⟩
  | inputText k text =>
      simp only [step, bind_pure_eq_some] at h
      rcases h with ⟨chat, hget, rfl⟩
      exact Or.inr (Or.inl ⟨k, text, chat, rfl, hget, rfl⟩)
  | sendButtonTapped k date =>
      simp only [step, Option.bind_eq_bind, Option.bind_eq_some_iff, Option.pure_def] at h
      rcases h with ⟨chat, hget, htapped⟩
      split at htapped
      · rename_i hempty
        obtain rfl := Option.some.inj htapped
        exact Or.inr (Or.inr (Or.inl ⟨k, date, rfl, by simp [sent, hget, hempty], rfl⟩))
      · rename_i htext
        rcases Option.bind_eq_some_iff.1 htapped with ⟨delivery, hdelivery, hs'⟩
        refine Or.inr (Or.inr (Or.inr (Or.inl ⟨.upload (chat.upload date), delivery, ?_, ?_,
          hdelivery, (Option.some.inj hs').symm⟩)))
        · simp [deliveryEvents, sent, hget, htext]
        · simp [sent, hget, htext, DeliveryEvent.started]
  | backend e =>
      simp only [step, Option.bind_eq_bind, Option.bind_eq_some_iff, Option.guard_eq_some',
        Option.pure_def, Option.some.injEq] at h
      rcases h with ⟨-, hstarted, delivery, hdelivery, rfl⟩
      exact Or.inr (Or.inr (Or.inr (Or.inl ⟨e, delivery, rfl, hstarted.symm, hdelivery, rfl⟩)))
  | snapshot k callback =>
      simp only [step, Option.bind_eq_bind, Option.bind_eq_some_iff, Option.pure_def,
        Option.some.injEq] at h
      rcases h with ⟨chat, hget, chat', hchat', rfl⟩
      exact Or.inr (Or.inr (Or.inr (Or.inr ⟨k, callback, chat, chat', rfl, hget, hchat', rfl⟩)))

/-- The store of the screens runs on its own events. -/
theorem run_deliveryEvents {s s' : OpenChats} {e : OpenChatsEvent} (h : step s e = some s') :
    run Delivery.step s.delivery (s.deliveryEvents e) = some s'.delivery := by
  rcases step_cases h with ⟨uid, user, rfl, -, -, rfl⟩ | ⟨k, text, chat, rfl, -, rfl⟩ |
    ⟨k, date, rfl, hsent, rfl⟩ | ⟨d, delivery, hevents, -, hdelivery, rfl⟩ |
    ⟨k, callback, chat, chat', rfl, -, -, rfl⟩
  · rfl
  · rfl
  · simp [deliveryEvents, hsent]
  · rw [hevents]
    exact run_cons_eq_some.2 ⟨delivery, hdelivery, rfl⟩
  · rfl

/-- Uploads are those so far and the one a chat sends. -/
theorem uploads_step {s s' : OpenChats} {e : OpenChatsEvent} (h : step s e = some s') :
    s'.delivery.uploads = s.delivery.uploads ++ s.sent e := by
  rcases step_cases h with ⟨uid, user, rfl, -, -, rfl⟩ | ⟨k, text, chat, rfl, -, rfl⟩ |
    ⟨k, date, rfl, hsent, rfl⟩ | ⟨d, delivery, -, hsent, hdelivery, rfl⟩ |
    ⟨k, callback, chat, chat', rfl, -, -, rfl⟩
  · exact (List.append_nil _).symm
  · exact (List.append_nil _).symm
  · rw [hsent, List.append_nil]
  · rw [hsent]
    exact Delivery.uploads_step hdelivery
  · exact (List.append_nil _).symm

/-- The uploads are those the taps have started, in order. -/
theorem uploads_eq {es : List OpenChatsEvent} {s : OpenChats}
    (hrun : run step initial es = some s) :
    s.delivery.uploads = trace step sent initial es := by
  have hstep : ∀ us a e b, a.delivery.uploads = us → step a e = some b →
      b.delivery.uploads = us ++ sent a e := by
    rintro us a e b rfl hab
    exact uploads_step hab
  have hnil : initial.delivery.uploads = [] := rfl
  simpa using run_trace_invariant (R := fun us s => s.delivery.uploads = us) hstep hnil hrun

/-- The store of the chats is one that uploads can reach. -/
theorem reachable_delivery {s : OpenChats} (hreach : Reachable step initial s) :
    Reachable Delivery.step .initial s.delivery :=
  reachable_map (f := OpenChats.delivery) (I := fun _ => True) (fun _ _ _ _ _ => trivial)
    (fun _ _ _ _ hab => ⟨_, run_deliveryEvents hab⟩) trivial hreach

/-- Every screen is sound in every reachable state. -/
theorem sound_of_reachable {s : OpenChats} (hreach : Reachable step initial s) :
    ∀ chat ∈ s.chats, ∃ seen, chat.Sound s.delivery seen := by
  refine hreach.invariant (P := fun s => ∀ chat ∈ s.chats, ∃ seen, chat.Sound s.delivery seen) ?_
    (by simp [initial])
  intro a e b hreach ha hab
  rcases step_cases hab with ⟨uid, user, -, hother, hunreserved, rfl⟩ |
    ⟨k, text, chat, -, hget, rfl⟩ | ⟨k, date, -, -, rfl⟩ |
    ⟨d, delivery, -, -, hdelivery, rfl⟩ | ⟨k, callback, chat, chat', -, hget, hchat', rfl⟩
  · intro chat hchat
    rcases List.mem_append.1 hchat with hold | hnew
    · exact ha chat hold
    · rw [List.mem_singleton.1 hnew]
      exact ⟨[], OpenChat.sound_create _ hother hunreserved⟩
  · intro other hmem
    rcases List.mem_or_eq_of_mem_set hmem with hold | rfl
    · exact ha other hold
    · rcases ha chat (List.mem_of_getElem? hget) with ⟨seen, hseen⟩
      exact ⟨seen, hseen.inputText text⟩
  · exact ha
  · intro chat hchat
    rcases ha chat hchat with ⟨seen, hseen⟩
    exact ⟨seen, hseen.delivery (reachable_delivery hreach) hdelivery⟩
  · intro other hmem
    rcases List.mem_or_eq_of_mem_set hmem with hold | rfl
    · exact ha other hold
    · rcases ha chat (List.mem_of_getElem? hget) with ⟨seen, hseen⟩
      exact ⟨_, hseen.onSnapshot (reachable_delivery hreach) hchat'⟩

/-- In a run in which all writes succeed they succeed in the store. -/
theorem run_delivery_of_succeeds {es : List OpenChatsEvent} {s : OpenChats}
    (hes : ∀ e ∈ es, e.Succeeds) (hrun : run step initial es = some s) :
    ∃ ds, (∀ d ∈ ds, DeliveryEvent.Succeeds d) ∧
      run Delivery.step .initial ds = some s.delivery := by
  refine ⟨_, forall_mem_trace ?_, run_trace_of_map (f := OpenChats.delivery)
    (g := deliveryEvents) (fun _ _ _ hab => run_deliveryEvents hab) hrun⟩
  intro a e he d hd
  cases e with
  | backend e =>
      rw [List.mem_singleton.1 hd]
      exact hes _ he
  | _ =>
      rcases List.mem_map.1 hd with ⟨u, -, rfl⟩
      trivial

/-- In a run in which all writes succeed no upload is harmed. -/
theorem unharmed_of_succeeds {es : List OpenChatsEvent} {s : OpenChats}
    (hes : ∀ e ∈ es, e.Succeeds) (hrun : run step initial es = some s) :
    ∀ t ∈ s.delivery.tasks, Delivery.Unharmed t := by
  rcases run_delivery_of_succeeds hes hrun with ⟨ds, hds, hdelivery⟩
  exact Delivery.unharmed_of_succeeds hds hdelivery

/-- The last snapshot of the screen holds its whole log. -/
def Complete (s : OpenChats) (chat : OpenChat) : Prop :=
  ∀ doc ∈ s.delivery.store.documents (logPath chat.uid chat.user.uid),
    doc ∈ chat.feed.oldDocuments

instance (s : OpenChats) (chat : OpenChat) : Decidable (s.Complete chat) :=
  inferInstanceAs (Decidable (∀ doc ∈ _, _))

/-- When nothing is in flight, nothing has been rejected and the screen has caught up, it
shows exactly what the two users have sent to each other. -/
theorem shown_perm {s : OpenChats} (hreach : Reachable step initial s)
    (hs : ∀ t ∈ s.delivery.tasks, Delivery.Unharmed t) (hquiet : s.delivery.Quiet)
    {chat : OpenChat} (hchat : chat ∈ s.chats) (hcomplete : s.Complete chat) :
    chat.feed.chatMessages.Perm
      ((s.delivery.uploads.filter fun u => Delivery.Between chat.uid chat.user.uid u).map
        (Upload.shownTo chat.uid)) := by
  rcases sound_of_reachable hreach chat hchat with ⟨seen, hsound⟩
  have hcopies : copies chat.uid chat.user.uid s.delivery.uploads ⊆
      s.delivery.store.documents (logPath chat.uid chat.user.uid) :=
    Delivery.copies_subset_documents (reachable_delivery hreach) hs hquiet
  rw [← hsound.coherent, hsound.messages, ← map_shownTo_copies]
  exact (hsound.copies_perm fun doc hdoc => hcomplete doc (hcopies hdoc)).map _

/-- **What a screen shows is what has been sent.**  In every run, with any failures, the
messages of a chat are among those the two users have sent to each other on any of their
screens, each shown at most once, with its text, its date in whole microseconds and on the
side of its sender.  When all writes succeed, nothing is in flight and the listener has
caught up, they are all of them. -/
theorem shows_sent {es : List OpenChatsEvent} {s : OpenChats}
    (hrun : run step initial es = some s) {chat : OpenChat} (hchat : chat ∈ s.chats) :
    let exchanged := ((trace step sent initial es).filter fun u =>
      Delivery.Between chat.uid chat.user.uid u).map (Upload.shownTo chat.uid)
    chat.feed.chatMessages.Subperm exchanged ∧
      ((∀ e ∈ es, e.Succeeds) → s.delivery.Quiet → s.Complete chat →
        chat.feed.chatMessages.Perm exchanged) := by
  have hreach : Reachable step initial s := ⟨es, hrun⟩
  rw [← uploads_eq hrun]
  rcases sound_of_reachable hreach chat hchat with ⟨seen, hsound⟩
  refine ⟨hsound.subperm, ?_⟩
  intro hes hquiet hcomplete
  exact shown_perm hreach (unharmed_of_succeeds hes hrun) hquiet hchat hcomplete

/-- Alice and Bob have opened a chat with each other. -/
def bothOpen : List OpenChatsEvent :=
  [.opened "alice" (.sample "bob"), .opened "bob" (.sample "alice")]

/-- What they send, at the same time. -/
def ping : Upload := .sample "alice" "bob" "ping" 1

def pong : Upload := .sample "bob" "alice" "pong" 2

/-- The listener of screen `k`, of `uid`, is handed the copies `documents`. -/
def handed (k : Nat) (uid : Uid) (documents : List StoredDocument) : OpenChatsEvent :=
  .snapshot k ⟨⟨⟨0, 0⟩, some uid⟩, documents⟩

/-- Alice sees her own message before it is sent; Bob sees both at the end. -/
def crossing : List OpenChatsEvent :=
  bothOpen ++
  [.inputText 0 "ping", .inputText 1 "pong", .sendButtonTapped 0 ⟨1, 0⟩,
   handed 0 "alice" [⟨.auto 0 0, ping.message⟩], .sendButtonTapped 1 ⟨2, 0⟩] ++
  ([.decide 1 .committed, .decide 0 .committed, .handle 0, .handle 1, .decide 0 .committed,
    .handle 0, .decide 1 .committed, .handle 1, .decideSummary 0 1 .committed,
    .decideSummary 1 0 .committed, .decideSummary 1 0 .committed,
    .decideSummary 0 0 .committed].map .backend) ++
  [handed 0 "alice" [⟨.auto 0 0, ping.message⟩, ⟨.auto 1 1, pong.message⟩],
   handed 1 "bob" [⟨.auto 0 1, ping.message⟩, ⟨.auto 1 0, pong.message⟩]]

theorem shows_sent_crossing :
    let s := final step initial crossing
    ∀ chat ∈ s.chats, s.Complete chat ∧
      chat.feed.chatMessages.Perm
        (((trace step sent initial crossing).filter fun u =>
          Delivery.Between chat.uid chat.user.uid u).map (Upload.shownTo chat.uid)) := by
  intro s chat hchat
  have hcomplete : ∀ chat ∈ s.chats, s.Complete chat := by decide
  exact ⟨hcomplete chat hchat, (shows_sent (run_final (by decide)) hchat).2 (by decide) (by decide)
    (hcomplete chat hchat)⟩

/-- **Both screens of a chat show the same, mirrored.**  When all writes have succeeded,
nothing is in flight and both listeners have caught up, the two participants see the same
messages, each on the right of exactly one of the screens. -/
theorem screens_mirrored {es : List OpenChatsEvent} {s : OpenChats} (hes : ∀ e ∈ es, e.Succeeds)
    (hrun : run step initial es = some s) (hquiet : s.delivery.Quiet) {chat chat' : OpenChat}
    (hchat : chat ∈ s.chats) (hchat' : chat' ∈ s.chats) (huid : chat'.uid = chat.user.uid)
    (hpeer : chat'.user.uid = chat.uid) (hcomplete : s.Complete chat)
    (hcomplete' : s.Complete chat') :
    (chat.feed.chatMessages.map Message.mirrored).Perm chat'.feed.chatMessages := by
  have hreach : Reachable step initial s := ⟨es, hrun⟩
  have hs := unharmed_of_succeeds hes hrun
  rcases sound_of_reachable hreach chat hchat with ⟨seen, hsound⟩
  have hthere := shown_perm hreach hs hquiet hchat' hcomplete'
  rw [huid, hpeer] at hthere
  refine ((shown_perm hreach hs hquiet hchat hcomplete).map _).trans (.trans ?_ hthere.symm)
  rw [List.map_map]
  refine List.Perm.of_eq ?_
  rw [List.filter_congr fun u _ => decide_eq_decide.2 (Delivery.between_comm chat.uid _ u)]
  refine List.map_congr_left fun u hu => ?_
  have hbetween : Delivery.Between chat.user.uid chat.uid u := by
    simpa using (List.mem_filter.1 hu).2
  exact Upload.mirrored_shownTo hsound.other hbetween

theorem screens_mirrored_crossing :
    let s := final step initial crossing
    ∃ chat ∈ s.chats, ∃ chat' ∈ s.chats,
      (chat.feed.chatMessages.map Message.mirrored).Perm chat'.feed.chatMessages := by
  intro s
  refine ⟨s.chats.head (by decide), List.head_mem _, s.chats.getLast (by decide),
    List.getLast_mem _, ?_⟩
  exact screens_mirrored (by decide) (run_final (by decide)) (by decide) (List.head_mem _)
    (List.getLast_mem _) (by decide) (by decide) (by decide) (by decide)

end OpenChats

end WaffleChat
