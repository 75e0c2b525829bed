import WaffleChat.Controller.OpenChats
import WaffleChat.Controller.OpenConversations
import WaffleChat.Service.Rewording

/-!
# Who reads a text

What two users write to each other shows nowhere but on their own screens: when it is
replaced by other texts, every run goes on as before, and a third user sees the same chats
and the same conversation list, handed over by the same snapshots.

Main results:

- Theorem `OpenChats.others_unread`: the chat screens of a user whose texts are spared.
- Theorem `OpenConversations.others_unlisted`: the conversation list of such a user.
-/

namespace WaffleChat

open EventSystem

variable {ρ : Rewording}

/-! ## Listeners -/

def SnapshotCallback.reword (ρ : Rewording) (callback : SnapshotCallback) : SnapshotCallback :=
  { callback with documents := callback.documents.map (StoredDocument.reword ρ) }

def MessageFeed.reword (ρ : Rewording) (feed : MessageFeed) : MessageFeed where
  latest := feed.latest.map (SnapshotCallback.reword ρ)
  messages := feed.messages.map (Message.reword ρ)
  emitted := feed.emitted.map fun messages => messages.map (Message.reword ρ)

/-- A reworded feed has seen the reworded documents. -/
theorem MessageFeed.oldDocuments_reword (feed : MessageFeed) :
    (feed.reword ρ).oldDocuments = feed.oldDocuments.map (StoredDocument.reword ρ) := by
  rcases feed with ⟨_ | callback, messages, emitted⟩ <;> rfl

/-- Documents are told apart by their ids. -/
theorem addedDocuments_reword (old new : List StoredDocument) :
    addedDocuments (old.map (StoredDocument.reword ρ)) (new.map (StoredDocument.reword ρ)) =
      (addedDocuments old new).map (StoredDocument.reword ρ) := by
  rw [addedDocuments, addedDocuments, map_id_reword, List.filter_map]
  rfl

/-- Rewording keeps the order. -/
theorem orderedByTimestamp_reword {documents : List StoredDocument}
    (h : OrderedByTimestamp documents) :
    OrderedByTimestamp (documents.map (StoredDocument.reword ρ)) := by
  refine ⟨by rw [map_id_reword]; exact h.1, List.pairwise_map.2 (h.2.imp ?_)⟩
  intro doc doc' hle
  simpa only [StoredDocument.sentAt, StoredDocument.reword, Dictionary.sentAt,
    Dictionary.timestamp?_reword] using hle

/-- A listener that is handed replaced texts shows them. -/
theorem MessageFeed.step_reword (hempty : ρ.KeepsEmpty) (feed : MessageFeed)
    (callback : SnapshotCallback) :
    (feed.reword ρ).step (callback.reword ρ) =
      (feed.step callback).map (MessageFeed.reword ρ) := by
  have hadditions : (feed.reword ρ).additions (callback.reword ρ) =
      (feed.additions callback).map (Message.reword ρ) := by
    simp only [additions, oldDocuments_reword, SnapshotCallback.reword, addedDocuments_reword,
      List.map_map, Function.comp_def, StoredDocument.reword, Message.init_reword hempty]
  rw [step_eq, step_eq, hadditions]
  simp only [Option.map_some, reword, List.map_append]

/-! ## Screens -/

namespace OpenChat

/-- The screen with all texts replaced, also what has been typed. -/
def reword (ρ : Rewording) (chat : OpenChat) : OpenChat where
  uid := chat.uid
  user := chat.user
  inputText := ρ chat.uid chat.user.uid chat.inputText
  feed := chat.feed.reword ρ

/-- The listener may be handed the replaced texts instead. -/
theorem Receives.reword {delivery : Delivery}
    (hreach : Reachable Delivery.step .initial delivery) {chat : OpenChat}
    {seen : List StoredDocument} (hsound : chat.Sound delivery seen) {callback : SnapshotCallback}
    (h : chat.Receives delivery callback) :
    (chat.reword ρ).Receives (delivery.reword ρ) (callback.reword ρ) := by
  rcases h with ⟨hcurrent, hordered, hvisible, hstay⟩
  refine ⟨hcurrent, orderedByTimestamp_reword hordered, ?_, ?_⟩
  · intro _ hmem
    rcases List.mem_map.1 hmem with ⟨doc, hdoc, rfl⟩
    rw [Delivery.visible_reword]
    exact List.mem_map_of_mem (hvisible doc hdoc)
  · intro _ hold hstill
    change _ ∈ (chat.feed.reword ρ).oldDocuments at hold
    rw [MessageFeed.oldDocuments_reword] at hold
    rw [Delivery.visible_reword] at hstill
    rcases List.mem_map.1 hold with ⟨doc, hdoc, rfl⟩
    rcases List.mem_map.1 hstill with ⟨doc', hdoc', heq⟩
    -- two copies may get the same text, but they keep their ids
    have hid : (doc'.reword ρ).id = (doc.reword ρ).id := by rw [heq]
    obtain rfl : doc' = doc :=
      eq_of_mem_copies (Delivery.visible_subset_copies hreach hsound.other hsound.unreserved hdoc')
        (hsound.copies (hsound.old hdoc)) hid
    exact List.mem_map_of_mem (hstay doc' hdoc hdoc')

/-- A snapshot of reworded documents shows the reworded chat. -/
theorem onSnapshot_reword (hempty : ρ.KeepsEmpty) {delivery : Delivery}
    (hreach : Reachable Delivery.step .initial delivery) {chat chat' : OpenChat}
    {seen : List StoredDocument} (hsound : chat.Sound delivery seen) {callback : SnapshotCallback}
    (h : chat.onSnapshot delivery callback = some chat') :
    (chat.reword ρ).onSnapshot (delivery.reword ρ) (callback.reword ρ) =
      some (chat'.reword ρ) := by
  rcases onSnapshot_eq_some h with ⟨hreceives, rfl⟩
  have hfeed : (chat.reword ρ).feed.step (callback.reword ρ) =
      (chat.feed.step callback).map (MessageFeed.reword ρ) :=
    MessageFeed.step_reword hempty chat.feed callback
  rw [MessageFeed.step_eq chat.feed callback, Option.map_some] at hfeed
  simp only [onSnapshot, hreceives.reword hreach hsound, hfeed, guard_true, Option.bind_eq_bind,
    Option.bind_some]
  rfl

/-- What a user is handed whose texts are spared stays what it is. -/
theorem Sound.callback_reword {delivery : Delivery}
    (hreach : Reachable Delivery.step .initial delivery) {chat : OpenChat}
    {seen : List StoredDocument} (hsound : chat.Sound delivery seen)
    (hspares : ρ.Spares chat.uid) {callback : SnapshotCallback}
    (h : chat.Receives delivery callback) : callback.reword ρ = callback := by
  have hdocuments : callback.documents.map (StoredDocument.reword ρ) = callback.documents := by
    refine (List.map_congr_left fun doc hdoc => ?_).trans (List.map_id _)
    exact hspares.copy (Delivery.visible_subset_copies hreach hsound.other hsound.unreserved
      (h.2.2.1 doc hdoc))
  rw [SnapshotCallback.reword, hdocuments]

/-- So does the whole screen. -/
theorem Sound.reword_eq {delivery : Delivery} {chat : OpenChat} {seen : List StoredDocument}
    (h : chat.Sound delivery seen) (hspares : ρ.Spares chat.uid) : chat.reword ρ = chat := by
  have hmessages : chat.feed.messages.map (Message.reword ρ) = chat.feed.messages := by
    rw [h.messages, List.map_map]
    exact List.map_congr_left fun doc hdoc => hspares.shown (h.copies hdoc)
  have hlatest : chat.feed.latest.map (SnapshotCallback.reword ρ) = chat.feed.latest := by
    cases hlatest : chat.feed.latest with
    | none => rfl
    | some callback =>
        have hdocuments : callback.documents.map (StoredDocument.reword ρ) =
            callback.documents := by
          refine (List.map_congr_left fun doc hdoc => ?_).trans (List.map_id _)
          refine hspares.copy (h.copies (h.old ?_))
          rwa [MessageFeed.oldDocuments, hlatest]
        rw [Option.map_some, SnapshotCallback.reword, hdocuments]
  have hemitted : (chat.feed.emitted.map fun messages => messages.map (Message.reword ρ)) =
      chat.feed.emitted := by
    have hcoherent := h.coherent
    rw [MessageFeed.Coherent, MessageFeed.chatMessages] at hcoherent
    cases hemitted : chat.feed.emitted with
    | none => rfl
    | some messages =>
        rw [hemitted, Option.getD_some] at hcoherent
        rw [Option.map_some, ← hcoherent, hmessages]
  have hinput := (hspares chat.user.uid chat.inputText).1
  rw [reword, MessageFeed.reword, hlatest, hmessages, hemitted, hinput]

end OpenChat

/-! ## All screens -/

namespace OpenChats

/-- The store and the screens with all texts replaced. -/
def reword (ρ : Rewording) (s : OpenChats) : OpenChats where
  delivery := s.delivery.reword ρ
  chats := s.chats.map (OpenChat.reword ρ)

/-- The event with the texts replaced that are typed or handed over in it. -/
def replace (ρ : Rewording) (s : OpenChats) : OpenChatsEvent → OpenChatsEvent
  | .inputText k text =>
      .inputText k ((s.chats[k]?).elim text fun chat => ρ chat.uid chat.user.uid text)
  | .snapshot k callback => .snapshot k (callback.reword ρ)
  | e => e

/-- The event takes place at a screen of `uid`. -/
def Concerns (uid : Uid) (s : OpenChats) : OpenChatsEvent → Prop
  | .opened owner _ => owner = uid
  | .inputText k _ => (s.chats[k]?).map OpenChat.uid = some uid
  | .sendButtonTapped k _ => (s.chats[k]?).map OpenChat.uid = some uid
  | .backend _ => False
  | .snapshot k _ => (s.chats[k]?).map OpenChat.uid = some uid

instance (uid : Uid) (s : OpenChats) : DecidablePred (s.Concerns uid)
  | .opened owner _ => inferInstanceAs (Decidable (owner = uid))
  | .inputText k _ => inferInstanceAs (Decidable ((s.chats[k]?).map OpenChat.uid = some uid))
  | .sendButtonTapped k _ =>
      inferInstanceAs (Decidable ((s.chats[k]?).map OpenChat.uid = some uid))
  | .backend _ => inferInstanceAs (Decidable False)
  | .snapshot k _ => inferInstanceAs (Decidable ((s.chats[k]?).map OpenChat.uid = some uid))

/-- What happens at the screens of `uid`. -/
def noticed (uid : Uid) (s : OpenChats) (e : OpenChatsEvent) : List OpenChatsEvent :=
  if s.Concerns uid e then [e] else []

/-- Reworded chats keep their places. -/
theorem getElem?_reword {s : OpenChats} {k : Nat} {chat : OpenChat} (h : s.chats[k]? = some chat) :
    (s.reword ρ).chats[k]? = some (chat.reword ρ) := by
  rw [reword, List.getElem?_map, h, Option.map_some]

/-- Replacing texts commutes with every step. -/
theorem step_reword (hempty : ρ.KeepsEmpty) {s s' : OpenChats} {e : OpenChatsEvent}
    (hreach : Reachable step initial s) (hstep : step s e = some s') :
    step (s.reword ρ) (s.replace ρ e) = some (s'.reword ρ) := by
  cases e with
  | opened uid user =>
      simp only [step, Option.ite_none_right_eq_some, Option.some.injEq] at hstep
      rcases hstep with ⟨hother, rfl⟩
      have hnew : OpenChat.reword ρ (.create uid user) = .create uid user := by
        simp [OpenChat.reword, OpenChat.create, hempty.empty, MessageFeed.reword,
          MessageFeed.initial]
      simp only [replace, step, if_pos hother, reword, List.map_append, List.map_singleton, hnew]
  | inputText k text =>
      simp only [step, bind_pure_eq_some] at hstep
      rcases hstep with ⟨chat, hget, rfl⟩
      simp only [replace, step, getElem?_reword hget, hget, Option.elim_some, Option.bind_eq_bind,
        Option.bind_some]
      simp only [reword, List.map_set]
      rfl
  | sendButtonTapped k date =>
      simp only [step, Option.bind_eq_bind, Option.bind_eq_some_iff] at hstep
      rcases hstep with ⟨chat, hget, htapped⟩
      have hinput : (chat.reword ρ).inputText = "" ↔ chat.inputText = "" := hempty _ _ _
      simp only [replace, step, getElem?_reword hget, Option.bind_eq_bind, Option.bind_some, hinput]
      split at htapped
      · rename_i htext
        obtain rfl := Option.some.inj htapped
        rw [if_pos htext]
        rfl
      · rename_i htext
        rcases Option.bind_eq_some_iff.1 htapped with ⟨delivery, hdelivery, hs'⟩
        obtain rfl := Option.some.inj hs'
        have hupload : (s.delivery.reword ρ).step (.upload ((chat.reword ρ).upload date)) =
            some (delivery.reword ρ) := Delivery.step_reword ρ hdelivery
        rw [if_neg htext, reword, hupload]
        rfl
  | backend e =>
      simp only [step, Option.bind_eq_bind, Option.bind_eq_some_iff, Option.guard_eq_some',
        Option.pure_def, Option.some.injEq] at hstep
      rcases hstep with ⟨-, hstarted, delivery, hdelivery, rfl⟩
      have hevent : e.reword ρ = e := by
        cases e <;> simp [DeliveryEvent.started, DeliveryEvent.reword] at hstarted ⊢
      have hreworded := Delivery.step_reword ρ hdelivery
      rw [hevent] at hreworded
      simp only [replace, step, hstarted, guard_true, Option.bind_eq_bind, Option.bind_some, reword,
        hreworded]
      rfl
  | snapshot k callback =>
      simp only [step, Option.bind_eq_bind, Option.bind_eq_some_iff, Option.pure_def,
        Option.some.injEq] at hstep
      rcases hstep with ⟨chat, hget, chat', hchat', rfl⟩
      rcases sound_of_reachable hreach chat (List.mem_of_getElem? hget) with ⟨seen, hsound⟩
      have hshown : (chat.reword ρ).onSnapshot (s.reword ρ).delivery (callback.reword ρ) =
          some (chat'.reword ρ) :=
        OpenChat.onSnapshot_reword hempty (reachable_delivery hreach) hsound hchat'
      simp only [replace, step, getElem?_reword hget, Option.bind_eq_bind, Option.bind_some, hshown]
      simp only [reword, List.map_set]
      rfl

/-- A user whose texts are spared notices nothing. -/
theorem noticed_reword {uid : Uid} (hspares : ρ.Spares uid) {s s' : OpenChats}
    {e : OpenChatsEvent} (hreach : Reachable step initial s) (hstep : step s e = some s') :
    noticed uid (s.reword ρ) (s.replace ρ e) = noticed uid s e := by
  have howners : ∀ k : Nat, ((s.reword ρ).chats[k]?).map OpenChat.uid =
      (s.chats[k]?).map OpenChat.uid := by
    intro k
    rw [reword, List.getElem?_map, Option.map_map]
    rfl
  have hconcerns : (s.reword ρ).Concerns uid (s.replace ρ e) ↔ s.Concerns uid e := by
    cases e <;> simp only [replace, Concerns, howners]
  have hsame : s.Concerns uid e → s.replace ρ e = e := by
    intro hconcern
    cases e with
    | inputText k text =>
        rcases Option.map_eq_some_iff.1 hconcern with ⟨chat, hget, rfl⟩
        simp only [replace, hget, Option.elim_some, (hspares _ _).1]
    | snapshot k callback =>
        rcases Option.map_eq_some_iff.1 hconcern with ⟨chat, hget, rfl⟩
        simp only [step, Option.bind_eq_bind, Option.bind_eq_some_iff, hget, Option.some.injEq,
          exists_eq_left'] at hstep
        rcases hstep with ⟨chat', hchat', -⟩
        rcases sound_of_reachable hreach chat (List.mem_of_getElem? hget) with ⟨seen, hsound⟩
        exact congrArg _ (hsound.callback_reword (reachable_delivery hreach) hspares
          (OpenChat.onSnapshot_eq_some hchat').1)
    | _ => rfl
  unfold noticed
  by_cases hconcern : s.Concerns uid e
  · rw [if_pos hconcern, if_pos (hconcerns.2 hconcern), hsame hconcern]
  · rw [if_neg hconcern, if_neg (mt hconcerns.1 hconcern)]

/-- **Others do not read along.**  In every run, whatever fails in it, the texts exchanged
between other users can be replaced by any other texts, empty ones by empty ones only: the run
goes on with the replaced texts being sent, while at the screens of `uid` the same happens, in
the same order and with the same snapshots, and they end up showing the same. -/
theorem others_unread (hempty : ρ.KeepsEmpty) {uid : Uid} (hspares : ρ.Spares uid)
    {es : List OpenChatsEvent} {s : OpenChats} (hrun : run step initial es = some s) :
    let replaced := trace step (fun s e => [s.replace ρ e]) initial es
    ∃ s', run step initial replaced = some s' ∧
      s'.delivery.uploads = s.delivery.uploads.map (Upload.reword ρ) ∧
      trace step (noticed uid) initial replaced = trace step (noticed uid) initial es ∧
      ∀ (k : Nat) (chat : OpenChat), s.chats[k]? = some chat → chat.uid = uid →
        s'.chats[k]? = some chat := by
  have hinitial : initial.reword ρ = initial := by
    simp [reword, initial, Delivery.reword_initial]
  have hboth := run_replaced (f := reword ρ) (g := replace ρ) (I := Reachable step initial)
    (fun _ _ _ ha hab => ha.next hab) (fun _ _ _ ha hab => step_reword hempty ha hab)
    (fun _ _ _ ha hab => noticed_reword hspares ha hab) (Reachable.refl _) hrun
  rw [hinitial] at hboth
  refine ⟨s.reword ρ, hboth.1, Delivery.uploads_reword ρ s.delivery, hboth.2, ?_⟩
  rintro k chat hget rfl
  rcases sound_of_reachable ⟨es, hrun⟩ chat (List.mem_of_getElem? hget) with ⟨seen, hsound⟩
  rw [getElem?_reword hget, hsound.reword_eq hspares]

/-- While Alice and Bob write to each other, Carol writes to Bob. -/
def threeUsers : List OpenChatsEvent :=
  crossing ++
  [.opened "carol" (.sample "bob"), .inputText 2 "hello", .sendButtonTapped 2 ⟨3, 0⟩,
   handed 2 "carol" [⟨.auto 2 0, (Upload.sample "carol" "bob" "hello" 3).message⟩]]

/-- What Carol does not read is blackened. -/
def blackened : Rewording := fun fromId toId text =>
  if fromId = "carol" ∨ toId = "carol" ∨ text = "" then text else "***"

theorem others_unread_threeUsers :
    let replaced := trace step (fun s e => [s.replace blackened e]) initial threeUsers
    ∃ s', run step initial replaced = some s' ∧
      s'.delivery.uploads.map Upload.text = ["***", "***", "hello"] ∧
      trace step (noticed "carol") initial replaced =
        trace step (noticed "carol") initial threeUsers ∧
      (trace step (noticed "carol") initial threeUsers).length = 4 := by
  have hempty : blackened.KeepsEmpty := by
    intro fromId toId text
    unfold blackened
    split <;> simp_all
  have hspares : blackened.Spares "carol" := by
    intro peer text
    simp [blackened]
  have hrun : run step initial threeUsers = some (final step initial threeUsers) :=
    run_final (by decide)
  rcases others_unread hempty hspares hrun with ⟨s', hreplaced, huploads, hnoticed, -⟩
  refine ⟨s', hreplaced, ?_, hnoticed, by decide⟩
  rw [huploads]
  decide

end OpenChats

/-! ## Conversation lists -/

/-- A reworded write writes the reworded data. -/
theorem ClientWrite.writtenTo_reword (uid : Uid) (write : ClientWrite) (id : DocumentId) :
    (write.reword ρ).writtenTo uid id = (write.writtenTo uid id).map (Dictionary.reword ρ) := by
  cases id with
  | auto owner serial => rfl
  | named name =>
      rcases write with ⟨client, task, _ | ⟨collection, document, data⟩⟩
      · rfl
      · simp only [writtenTo, reword, WriteRequest.reword, WriteRequest.writeTo]
        split <;> rfl

def OpenConversationsEvent.reword (ρ : Rewording) : OpenConversationsEvent → OpenConversationsEvent
  | .delivery e => .delivery (e.reword ρ)
  | e => e

namespace OpenConversations

variable {Date : Type} [LinearOrder Date] (dateValue : Timestamp → Date) (uid : Uid)

/-- The list over the store with all texts replaced. -/
def reword (ρ : Rewording) (s : OpenConversations) : OpenConversations :=
  { s with delivery := s.delivery.reword ρ }

/-- A user whose texts are spared may be handed the same summaries. -/
theorem Receives.reword {s : OpenConversations} (hspares : ρ.Spares uid)
    (hreach : Reachable Delivery.step .initial s.delivery) {documents : List StoredDocument}
    (h : s.Receives uid documents) : (s.reword ρ).Receives uid documents := by
  refine ⟨h.1, fun doc hdoc => ?_⟩
  rcases h.2 doc hdoc with ⟨write, hissued, hwritten⟩
  rcases summarizes_of_writtenTo uid hreach hissued hwritten with ⟨u, -, peer, -, hbetween, hdata⟩
  refine ⟨write.reword ρ, List.mem_map_of_mem hissued, ?_⟩
  rw [ClientWrite.writtenTo_reword, hwritten, Option.map_some, hdata, hspares.message hbetween]

/-- A list that is spared takes the reworded step. -/
theorem step_reword (hspares : ρ.Spares uid) {s s' : OpenConversations}
    {e : OpenConversationsEvent} (hreach : Reachable Delivery.step .initial s.delivery)
    (hstep : step dateValue uid s e = some s') :
    step dateValue uid (s.reword ρ) (e.reword ρ) = some (s'.reword ρ) := by
  cases e with
  | delivery e =>
      simp only [step, bind_pure_eq_some] at hstep
      rcases hstep with ⟨delivery, hdelivery, rfl⟩
      simp only [OpenConversationsEvent.reword, step, reword, Delivery.step_reword ρ hdelivery]
      rfl
  | snapshot documents ambients =>
      simp only [step, Option.bind_eq_bind, Option.bind_eq_some_iff, Option.guard_eq_some',
        Option.pure_def, Option.some.injEq] at hstep
      rcases hstep with ⟨-, hreceives, -, hlength, feed, hfeed, rfl⟩
      have hreplaced := hreceives.reword uid hspares hreach
      rw [reword] at hreplaced
      simp only [OpenConversationsEvent.reword, step, reword, hreplaced, hlength, hfeed, guard_true,
        Option.bind_eq_bind]
      rfl
  | fetched k data =>
      simp only [step, Option.bind_eq_bind, Option.bind_eq_some_iff, Option.guard_eq_some',
        Option.pure_def, Option.some.injEq] at hstep
      rcases hstep with ⟨-, hown, feed, hfeed, rfl⟩
      simp only [OpenConversationsEvent.reword, step, reword, hown, hfeed, guard_true]
      rfl

/-- **Others do not show in the list.** In every run, whatever fails in it, the texts exchanged
between other users can be replaced by any other texts: the listener of `uid` may be handed the
same snapshots, and has then made the same list of them. -/
theorem others_unlisted (hspares : ρ.Spares uid) {es : List OpenConversationsEvent}
    {s : OpenConversations} (hrun : run (step dateValue uid) initial es = some s) :
    ∃ s', run (step dateValue uid) initial (es.map (OpenConversationsEvent.reword ρ)) = some s' ∧
      s'.delivery.uploads = s.delivery.uploads.map (Upload.reword ρ) ∧
      s'.documents = s.documents ∧ s'.feed = s.feed := by
  have hinitial : initial.reword ρ = initial := by
    simp [reword, initial, Delivery.reword_initial]
  have hreplaced := run_filterMap (f := reword ρ)
    (g := fun e => some (e.reword ρ)) (I := fun s => Reachable Delivery.step .initial s.delivery)
    (fun _ _ _ ha hab => reachable_delivery_step dateValue uid ha hab)
    (fun _ _ _ ha hab => run_cons_eq_some.2
      ⟨_, step_reword dateValue uid hspares ha hab, rfl⟩) (Reachable.refl _) hrun
  rw [hinitial, List.filterMap_eq_map'] at hreplaced
  exact ⟨s.reword ρ, hreplaced, Delivery.uploads_reword ρ s.delivery, rfl, rfl⟩

/-- Alice's list while Carol writes to Bob. -/
def othersWrite : List OpenConversationsEvent :=
  twoChats ++ [.delivery (.upload (.sample "carol" "bob" "hello" 3))]

/-- What Alice does not read is blackened. -/
def blackened : Rewording := fun fromId toId text =>
  if fromId = "alice" ∨ toId = "alice" then text else "***"

theorem others_unlisted_othersWrite :
    let s := final (step (fun t => t.seconds) "alice") initial othersWrite
    ∃ s', run (step (fun t => t.seconds) "alice") initial
        (othersWrite.map (OpenConversationsEvent.reword blackened)) = some s' ∧
      s'.delivery.uploads.map Upload.text = ["hi", "yo", "***"] ∧
      s'.documents = s.documents ∧ s'.feed = s.feed := by
  intro s
  have hspares : blackened.Spares "alice" := by
    intro peer text
    simp [blackened]
  have hrun : run (step (fun t => t.seconds) "alice") initial othersWrite = some s :=
    run_final (by decide)
  rcases others_unlisted (fun t => t.seconds) "alice" hspares hrun with
    ⟨s', hreplaced, huploads, hsame⟩
  refine ⟨s', hreplaced, ?_, hsame⟩
  rw [huploads]
  decide

end OpenConversations

end WaffleChat
