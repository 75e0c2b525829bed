import WaffleChat.Service.FetchConversations
import WaffleChat.Service.StoredMessages
import WaffleChat.ViewModel.NewMessageSteps

/-!
# Whom the clients chat with

Any number of clients over one document store.  Each shows the conversation list of
its account and the friend list, and opens a chat from either: a row of the friend
list is a fetched user other than the account itself, while a row of the conversation
list is whoever a stored message names as the other participant.

Main results:

- Theorem `peerId_ne`: the peer of a message somebody has sent to somebody else is
  never the reader.
- Theorem `no_self_chat`: in no run is a chat opened with oneself, or a message to
  oneself stored.
-/

namespace WaffleChat

open CallbackProgram EventSystem

/-! ## One client -/

/-- The screens of one account: the friend list once it has been opened, the
conversation list, and the users a `ChatViewModel` has been created for. -/
structure ChatClient where
  uid : Uid
  newMessage : Option NewMessage
  feed : ConversationFeed
  chats : List User
deriving DecidableEq, Repr

/-- What can happen on the screens of one account. -/
inductive ClientEvent where
  /-- `newMessageButton` is tapped: a new friend list is shown. -/
  | newMessageTapped
  | newMessage (e : NewMessageEvent)
  | feed (e : FeedEvent)
  /-- A row of the friend list is selected. -/
  | friendSelected (row : Nat)
  /-- A row of the conversation list is selected. -/
  | conversationSelected (row : Nat)
deriving DecidableEq, Repr

/-- A fetch is answered while `uid` is signed in. -/
def NewMessageEvent.AnsweredFor (uid : Uid) : NewMessageEvent → Prop
  | .respond _ answer => answer.currentUid = some uid
  | _ => True

instance (uid : Uid) : DecidablePred (NewMessageEvent.AnsweredFor uid)
  | .textChanged _ _ => inferInstanceAs (Decidable True)
  | .throttleFires => inferInstanceAs (Decidable True)
  | .pull => inferInstanceAs (Decidable True)
  | .cancel => inferInstanceAs (Decidable True)
  | .respond _ answer => inferInstanceAs (Decidable (answer.currentUid = some uid))

/-- The changes an event hands to the listener. -/
def FeedEvent.changes : FeedEvent → List (Ambient × DocumentChange)
  | .snapshot changes => changes.getD []
  | .fetched _ _ => []

/-- The listener of `uid` is shown documents written to its collection by some client. -/
def FeedEvent.Written (delivery : Delivery) (uid : Uid) (e : FeedEvent) : Prop :=
  ∀ change ∈ e.changes, ∃ write ∈ delivery.issued,
    write.request.collection = recentPath uid ∧ write.request.data = change.2.document.data

instance (delivery : Delivery) (uid : Uid) (e : FeedEvent) : Decidable (e.Written delivery uid) :=
  inferInstanceAs (Decidable (∀ change ∈ e.changes, ∃ write ∈ delivery.issued, _ ∧ _))

section

variable {Date : Type} [LinearOrder Date] (dateValue : Timestamp → Date)
variable (lowercased : String → String) (contains : String → String → Bool)

namespace ChatClient

/-- The screens right after the launch with `uid` signed in. -/
def launched (uid : Uid) : ChatClient where
  uid := uid
  newMessage := none
  feed := .initial
  chats := []

/-- One event on the screens.  The account stays the same, so the answers to fetches
and the snapshots are those for its `uid`; profiles carry the ids of their documents. -/
def step (delivery : Delivery) (s : ChatClient) : ClientEvent → Option ChatClient
  | .newMessageTapped => some { s with newMessage := some .initial }
  | .newMessage e => do
      guard (e.AnsweredFor s.uid)
      let newMessage ← s.newMessage
      let newMessage ← newMessage.step lowercased contains e
      return { s with newMessage := some newMessage }
  | .feed e => do
      guard (e.Written delivery s.uid)
      guard (s.feed.OwnProfile e)
      let feed ← s.feed.step dateValue s.uid e
      return { s with feed := feed }
  | .friendSelected row => do
      let newMessage ← s.newMessage
      let user ← newMessage.users[row]?
      return { s with chats := s.chats ++ [user] }
  | .conversationSelected row => do
      let conversations ← s.feed.emitted.getLast?
      let conversation ← conversations[row]?
      return { s with chats := s.chats ++ [conversation.user] }

end ChatClient

/-! ## All clients -/

/-- The uploads of all clients with their store, and the clients. -/
structure Chats where
  delivery : Delivery
  clients : List ChatClient

/-- What can happen. -/
inductive ChatsEvent where
  /-- The app is launched, or signed in to, with the account of `uid`. -/
  | launch (uid : Uid)
  | client (c : Nat) (e : ClientEvent)
  /-- Client `c` sends `text` in the chat it has opened as number `k`. -/
  | send (c k : Nat) (text : String) (date : Timestamp)
  /-- A write is decided or a completion handler runs. -/
  | backend (e : DeliveryEvent)
deriving DecidableEq, Repr

namespace Chats

/-- Nobody has launched the app. -/
def initial : Chats where
  delivery := .initial
  clients := []

/-- One event. -/
def step (s : Chats) : ChatsEvent → Option Chats
  | .launch uid => some { s with clients := s.clients ++ [.launched uid] }
  | .client c e => do
      let client ← s.clients[c]?
      let client' ← client.step dateValue lowercased contains s.delivery e
      return { s with clients := s.clients.set c client' }
  | .send c k text date => do
      let client ← s.clients[c]?
      let user ← client.chats[k]?
      let delivery ← s.delivery.step (.upload ⟨client.uid, user, text, date⟩)
      return { s with delivery := delivery }
  | .backend e => do
      guard (e.started = [])
      let delivery ← s.delivery.step e
      return { s with delivery := delivery }

end Chats

end

/-! ## The other participant -/

/-- Of a message to somebody else, either the sender is not the reader, or the
receiver is not. -/
theorem Upload.peerId_ne {u : Upload} (hother : u.currentUid ≠ u.peer) (ambient : Ambient)
    (uid : Uid) : (Message.init ambient u.message).peerId uid ≠ uid := by
  rw [Upload.init_message, Message.peerId]
  simp only
  split
  · rename_i hreceived
    rw [← hreceived]
    exact hother
  · rename_i hsent
    exact hsent

/-- The screens show no one the account itself. -/
structure ChatClient.Others (s : ChatClient) : Prop where
  friends : ∀ newMessage ∈ s.newMessage,
    newMessage.Sound ∧ newMessage.DrawnFrom fun user => user.uid ≠ s.uid
  peers : s.feed.PeersFrom fun uid => uid ≠ s.uid
  chats : ∀ user ∈ s.chats, user.uid ≠ s.uid

theorem ChatClient.others_launched (uid : Uid) : (launched uid).Others := by
  constructor
  · simp [launched]
  · exact ⟨by simp [launched, ConversationFeed.initial],
      by simp [launched, ConversationFeed.initial], by simp [launched, ConversationFeed.initial]⟩
  · simp [launched]

/-- Nobody writes to themselves. -/
def Delivery.ToOthers (s : Delivery) : Prop :=
  ∀ u ∈ s.uploads, u.currentUid ≠ u.peer

section

variable {Date : Type} [LinearOrder Date] (dateValue : Timestamp → Date)
variable (lowercased : String → String) (contains : String → String → Bool)

/-- The screens show no one the account itself as long as nobody writes to
themselves. -/
theorem ChatClient.Others.step {delivery : Delivery} (hfrom : delivery.FromUploads)
    (hothers : delivery.ToOthers) {s s' : ChatClient} {e : ClientEvent} (h : s.Others)
    (hstep : s.step dateValue lowercased contains delivery e = some s') : s'.Others := by
  cases e with
  | newMessageTapped =>
      obtain rfl : { s with newMessage := some .initial } = s' := Option.some.inj hstep
      refine ⟨?_, h.peers, h.chats⟩
      rintro _ ⟨⟩
      exact ⟨NewMessage.sound_initial, by simp [NewMessage.initial], by simp [NewMessage.initial]⟩
  | newMessage e =>
      simp only [ChatClient.step, Option.bind_eq_bind, Option.bind_eq_some_iff,
        Option.guard_eq_some', Option.pure_def, Option.some.injEq] at hstep
      rcases hstep with ⟨-, hanswered, newMessage, hget, newMessage', hnew, rfl⟩
      rcases h.friends newMessage hget with ⟨hsound, hdrawn⟩
      refine ⟨?_, h.peers, h.chats⟩
      rintro _ ⟨⟩
      refine ⟨NewMessage.sound_step lowercased contains hsound hnew, ?_⟩
      refine hdrawn.step lowercased contains hsound ?_ hnew
      rintro i answer rfl user huser hself
      have hviewer : answer.currentUid = some s.uid := hanswered
      exact (UsersAnswer.mem_users_iff.1 huser).2 (by rw [hviewer, hself])
  | feed e =>
      simp only [ChatClient.step, Option.bind_eq_bind, Option.bind_eq_some_iff,
        Option.guard_eq_some', Option.pure_def, Option.some.injEq] at hstep
      rcases hstep with ⟨-, hwritten, -, hown, feed, hfeed, rfl⟩
      refine ⟨h.friends, ?_, h.chats⟩
      refine h.peers.step dateValue s.uid hown ?_ hfeed
      rintro changes rfl change hchange
      rcases hwritten change hchange with ⟨write, hwrite, -, hdata⟩
      rcases hfrom.issued write hwrite with ⟨u, hu, hmessage⟩
      rw [← hdata, hmessage]
      exact Upload.peerId_ne (hothers u hu) change.1 s.uid
  | friendSelected row =>
      simp only [ChatClient.step, Option.bind_eq_bind, Option.bind_eq_some_iff, Option.pure_def,
        Option.some.injEq] at hstep
      rcases hstep with ⟨newMessage, hget, user, huser, rfl⟩
      refine ⟨h.friends, h.peers, ?_⟩
      simp only [List.forall_mem_append, List.forall_mem_singleton]
      exact ⟨h.chats, (h.friends newMessage hget).2.users user (List.mem_of_getElem? huser)⟩
  | conversationSelected row =>
      simp only [ChatClient.step, Option.bind_eq_bind, Option.bind_eq_some_iff, Option.pure_def,
        Option.some.injEq] at hstep
      rcases hstep with ⟨conversations, hlast, conversation, hget, rfl⟩
      refine ⟨h.friends, h.peers, ?_⟩
      simp only [List.forall_mem_append, List.forall_mem_singleton]
      exact ⟨h.chats, h.peers.emitted conversations (List.mem_of_getLast? hlast) conversation
        (List.mem_of_getElem? hget)⟩

namespace Chats

/-- The uploads go to others, and the screens show others. -/
structure AmongOthers (s : Chats) : Prop where
  reachable : Reachable Delivery.step Delivery.initial s.delivery
  uploads : s.delivery.ToOthers
  clients : ∀ client ∈ s.clients, client.Others

theorem AmongOthers.step {s s' : Chats} {e : ChatsEvent} (h : s.AmongOthers)
    (hstep : step dateValue lowercased contains s e = some s') : s'.AmongOthers := by
  cases e with
  | launch uid =>
      obtain rfl : { s with clients := s.clients ++ [.launched uid] } = s' :=
        Option.some.inj hstep
      refine ⟨h.reachable, h.uploads, ?_⟩
      simp only [List.forall_mem_append, List.forall_mem_singleton]
      exact ⟨h.clients, ChatClient.others_launched uid⟩
  | client c e =>
      simp only [Chats.step, Option.bind_eq_bind, Option.bind_eq_some_iff, Option.pure_def,
        Option.some.injEq] at hstep
      rcases hstep with ⟨client, hget, client', hclient, rfl⟩
      refine ⟨h.reachable, h.uploads, ?_⟩
      intro x hx
      rcases List.mem_or_eq_of_mem_set hx with hx | rfl
      · exact h.clients x hx
      · exact (h.clients client (List.mem_of_getElem? hget)).step dateValue lowercased contains
          (Delivery.fromUploads_of_reachable h.reachable) h.uploads hclient
  | send c k text date =>
      simp only [Chats.step, Option.bind_eq_bind, Option.bind_eq_some_iff, Option.pure_def,
        Option.some.injEq] at hstep
      rcases hstep with ⟨client, hget, user, huser, delivery, hupload, rfl⟩
      refine ⟨h.reachable.next hupload, ?_, h.clients⟩
      have hother : user.uid ≠ client.uid :=
        (h.clients client (List.mem_of_getElem? hget)).chats user (List.mem_of_getElem? huser)
      rw [Delivery.ToOthers, Delivery.uploads_step hupload]
      simp only [List.forall_mem_append, DeliveryEvent.started, List.forall_mem_singleton]
      exact ⟨h.uploads, hother.symm⟩
  | backend e =>
      simp only [Chats.step, Option.bind_eq_bind, Option.bind_eq_some_iff,
        Option.guard_eq_some', Option.pure_def, Option.some.injEq] at hstep
      rcases hstep with ⟨-, hnone, delivery, hdelivery, rfl⟩
      refine ⟨h.reachable.next hdelivery, ?_, h.clients⟩
      rw [Delivery.ToOthers, Delivery.uploads_step hdelivery, hnone, List.append_nil]
      exact h.uploads

theorem amongOthers_of_reachable {s : Chats}
    (hreach : Reachable (step dateValue lowercased contains) initial s) : s.AmongOthers :=
  hreach.invariant (fun _ _ _ _ h hstep => h.step dateValue lowercased contains hstep)
    ⟨.refl _, by simp [initial, Delivery.ToOthers, Delivery.uploads, Delivery.initial],
      by simp [initial]⟩

/-- **Nobody chats with themselves.**  No `ChatViewModel` is created for the signed-in
user, and no stored message goes back to its sender. -/
theorem no_self_chat {s : Chats}
    (hreach : Reachable (step dateValue lowercased contains) initial s) :
    (∀ client ∈ s.clients, ∀ user ∈ client.chats, user.uid ≠ client.uid) ∧
      ∀ path, ∀ doc ∈ s.delivery.store.documents path,
        doc.data.string? "fromId" ≠ doc.data.string? "toId" := by
  have h := amongOthers_of_reachable dateValue lowercased contains hreach
  refine ⟨fun client hclient => (h.clients client hclient).chats, ?_⟩
  intro path doc hdoc
  rcases (Delivery.fromUploads_of_reachable h.reachable).stored path doc hdoc with ⟨u, hu, hdata⟩
  have hfrom : u.message.string? "fromId" = some u.currentUid := rfl
  have hto : u.message.string? "toId" = some u.peer := rfl
  rw [hdata, hfrom, hto]
  exact fun hsame => h.uploads u hu (Option.some.inj hsame)

end Chats

end

namespace Chats

/-- The friends of `uid`, with its own profile among the documents. -/
def friendsOf (uid : Uid) : UsersAnswer :=
  { UsersAnswer.sample ["alice", "bob"] with currentUid := some uid }

/-- The summary of the message `alice` sends, as the listener of `bob` sees it. -/
def summaryOfAlice : Ambient × DocumentChange :=
  (⟨⟨0, 0⟩, some "bob"⟩,
    ⟨.added, ⟨.named "alice", (Upload.sample "alice" "bob" "hi" 1).message⟩⟩)

/-- The profile of `alice`. -/
def profileOfAlice : Dictionary :=
  [("email", .string "alice"), ("fullname", .string "alice"), ("profileImageURL", .string ""),
   ("uid", .string "alice"), ("username", .string "alice")]

/-- `alice` picks `bob` from her friends and writes to him; `bob` finds her in his
conversations and answers. -/
def exchange : List ChatsEvent :=
  [.launch "alice", .launch "bob",
   .client 0 .newMessageTapped, .client 0 (.newMessage (.respond 0 (friendsOf "alice"))),
   .client 0 (.friendSelected 0), .send 0 0 "hi" ⟨1, 0⟩,
   .backend (.decide 0 .committed), .backend (.handle 0),
   .backend (.decide 0 .committed), .backend (.handle 0),
   .backend (.decideSummary 0 1 .committed),
   .client 1 (.feed (.snapshot (some [summaryOfAlice]))),
   .client 1 (.feed (.fetched 0 (some profileOfAlice))),
   .client 1 (.conversationSelected 0), .send 1 0 "hello" ⟨2, 0⟩,
   .backend (.decide 1 .committed)]

theorem no_self_chat_exchange :
    ∃ s, run (step (fun t => t.seconds) id (· == ·)) initial exchange = some s ∧
      (s.clients.map fun client => client.chats.map User.uid) = [["bob"], ["alice"]] ∧
      (∀ client ∈ s.clients, ∀ user ∈ client.chats, user.uid ≠ client.uid) ∧
      ∀ path, ∀ doc ∈ s.delivery.store.documents path,
        doc.data.string? "fromId" ≠ doc.data.string? "toId" :=
  ⟨_, run_final rfl, by decide,
    no_self_chat (fun t => t.seconds) id (· == ·) (reachable_final rfl)⟩

end Chats

end WaffleChat
