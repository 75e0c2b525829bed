import WaffleChat.Controller.Devices
import WaffleChat.Controller.OpenConversations

/-!
# The conversation lists on all devices

Conversation lists over the app on all devices.  A list hears of the summaries that any
upload has written, and looks up the peers in the profiles that are stored by then; whom it
has found can be chatted with.

Main results:

- Theorem `ConversationLists.sound_step`: lists show users with accounts.
- Theorem `ConversationLists.conversations_accounted`: who and what the lists of any run show.
-/

namespace WaffleChat

open CallbackProgram EventSystem Observers

/-! ## Whom a list shows -/

namespace ConversationFeed

variable {Date : Type} [LinearOrder Date] (dateValue : Timestamp → Date) {uid : Uid}

/-- All users shown satisfy `P`. -/
structure Shows (P : User → Prop) (s : ConversationFeed) : Prop where
  conversations : ∀ c ∈ s.conversations, P c.user
  emitted : ∀ list ∈ s.emitted, ∀ c ∈ list, P c.user

/-- At first no user is shown. -/
theorem shows_initial (P : User → Prop) : initial.Shows P := by
  constructor <;> simp [initial]

/-- Who is shown meets any weaker condition. -/
theorem Shows.mono {P P' : User → Prop} {s : ConversationFeed} (h : s.Shows P)
    (hP : ∀ user, P user → P' user) : s.Shows P' :=
  ⟨fun c hc => hP _ (h.conversations c hc),
    fun list hlist c hc => hP _ (h.emitted list hlist c hc)⟩

/-- Users come from the lookups. -/
theorem Shows.step {P : User → Prop} {s s' : ConversationFeed} {e : FeedEvent} (h : s.Shows P)
    (hfound : ∀ k data, e = .fetched k data → ∀ user ∈ data.bind User.init?, P user)
    (hstep : step dateValue uid s e = some s') : s'.Shows P := by
  cases e with
  | snapshot changes =>
      cases changes with
      | none =>
          obtain rfl : s = s' := Option.some.inj hstep
          exact h
      | some changes =>
          obtain rfl : changes.foldl (onChange uid) s = s' := Option.some.inj hstep
          rw [foldl_onChange]
          exact ⟨fun c hc => h.conversations c (List.mem_filter.1 hc).1, h.emitted⟩
  | fetched k data =>
      rcases step_fetched dateValue uid hstep with ⟨id, message, -, rfl⟩
      cases huser : data.bind User.init? with
      | none =>
          rw [show fetchUser data = [] by simp [fetchUser, huser]]
          exact ⟨h.conversations, h.emitted⟩
      | some user =>
          have hlisted : ∀ c ∈ (⟨user, message⟩ : Conversation) :: s.conversations, P c.user :=
            List.forall_mem_cons.2 ⟨hfound k data rfl user huser, h.conversations⟩
          rw [show fetchUser data = [.next (some user), .completed] by simp [fetchUser, huser]]
          refine ⟨hlisted, ?_⟩
          intro list hlist c hc
          rcases List.mem_append.1 hlist with hold | hnew
          · exact h.emitted list hold c hc
          · rw [List.mem_singleton.1 hnew] at hc
            exact hlisted c ((List.perm_insertionSort _ _).mem_iff.1 hc)

end ConversationFeed

/-! ## A list over a store without profiles -/

namespace OpenConversations

variable {Date : Type} [LinearOrder Date] {dateValue : Timestamp → Date} {uid : Uid}

/-- The list over a database without profiles. -/
def withoutUsers (s : OpenConversations) : OpenConversations :=
  { s with delivery := s.delivery.withoutUsers }

/-- Uploads go on under a list. -/
theorem reachable_of_delivery {delivery delivery' : Delivery}
    (h : Reachable Delivery.step delivery delivery') (documents : List StoredDocument)
    (feed : ConversationFeed) :
    Reachable (step dateValue uid) ⟨delivery, documents, feed⟩ ⟨delivery', documents, feed⟩ := by
  refine h.invariant (P := fun s => Reachable (step dateValue uid)
    ⟨delivery, documents, feed⟩ ⟨s, documents, feed⟩) ?_ (Reachable.refl _)
  intro a e b _ ha hab
  exact ha.next (e := .delivery e) (bind_pure_eq_some.2 ⟨b, hab, rfl⟩)

/-- A list sees nothing of the profiles in its snapshots. -/
theorem step_withoutUsers {s s' : OpenConversations} {e : OpenConversationsEvent}
    (he : ∀ d, e ≠ .delivery d) (hstep : step dateValue uid s e = some s') :
    step dateValue uid s.withoutUsers e = some s'.withoutUsers := by
  rcases step_cases dateValue uid hstep with ⟨d, -, rfl, -, -⟩ |
    ⟨documents, ambients, -, -, rfl, -, -, -, -⟩ | ⟨k, data, feed, rfl, hown, hfeed, rfl⟩
  · exact absurd rfl (he d)
  · simp only [step, Option.bind_eq_bind, Option.bind_eq_some_iff, Option.guard_eq_some',
      Option.pure_def, Option.some.injEq] at hstep ⊢
    rcases hstep with ⟨-, hreceives, -, hlength, feed, hfeed, rfl⟩
    exact ⟨(), hreceives, (), hlength, feed, hfeed, rfl⟩
  · have hown' : s.withoutUsers.feed.OwnProfile (.fetched k data) := hown
    have hfeed' : s.withoutUsers.feed.step dateValue uid (.fetched k data) = some feed := hfeed
    simp only [step, hown', hfeed', guard_true, Option.bind_eq_bind]
    rfl

end OpenConversations

/-! ## All lists -/

/-- The conversation list of a user: the documents of its last snapshot, and the call of
`fetchConversations` that listens. -/
structure ConversationList where
  uid : Uid
  documents : List StoredDocument
  feed : ConversationFeed

namespace ConversationList

/-- A new list. -/
def create (uid : Uid) : ConversationList where
  uid := uid
  documents := []
  feed := .initial

/-- The list over the uploads under way. -/
def openOn (list : ConversationList) (delivery : Delivery) : OpenConversations :=
  ⟨delivery, list.documents, list.feed⟩

/-- The list once something has happened. -/
def after (list : ConversationList) (s : OpenConversations) : ConversationList :=
  { list with documents := s.documents, feed := s.feed }

end ConversationList

/-- The app on all devices with its conversation lists. -/
structure ConversationLists where
  devices : Devices
  lists : List ConversationList

/-- What can happen next. -/
inductive ConversationListsEvent where
  /-- Something else happens on the devices. -/
  | devices (e : DevicesEvent)
  /-- The conversations of the user signed in on device `k` are shown. -/
  | opened (k : Nat)
  /-- The listener of list `l` runs; `ambients` is what is read for each change. -/
  | snapshot (l : Nat) (documents : List StoredDocument) (ambients : List Ambient)
  /-- The outstanding lookup at position `k` of list `l` is answered. -/
  | fetched (l k : Nat)

namespace ConversationLists

variable (lowercased : String → String) (selfMatches : (pattern text : String) → Bool)
  (count : String → Nat) {Date : Type} [LinearOrder Date] (dateValue : Timestamp → Date)

/-- Nothing anywhere. -/
def initial : ConversationLists where
  devices := .initial
  lists := []

/-- The profile stored under `uid`. -/
def profile (s : ConversationLists) (uid : Uid) : Option Dictionary :=
  s.devices.store.document? usersPath (.named uid)

/-- One event. -/
def step (s : ConversationLists) : ConversationListsEvent → Option ConversationLists
  | .devices e => do
      let devices ← s.devices.step lowercased selfMatches count e
      return { s with devices := devices }
  | .opened k => do
      let d ← s.devices.sessions[k]?
      let uid ← d.session.firebase.currentUser
      return { s with lists := s.lists ++ [.create uid] }
  | .snapshot l documents ambients => do
      let list ← s.lists[l]?
      let shown ← (list.openOn s.devices.chats.delivery).step dateValue list.uid
        (.snapshot documents ambients)
      return { s with lists := s.lists.set l (list.after shown) }
  | .fetched l k => do
      let list ← s.lists[l]?
      let lookup ← list.feed.lookups[k]?
      let data := s.profile lookup.1
      let shown ← (list.openOn s.devices.chats.delivery).step dateValue list.uid (.fetched k data)
      return {
        devices :=
          { s.devices with users := s.devices.users ++ (data.bind User.init?).toList }
        lists := s.lists.set l (list.after shown) }

variable {lowercased selfMatches count dateValue}

/-- Everything one event can do. -/
theorem step_cases {s s' : ConversationLists} {e : ConversationListsEvent}
    (h : step lowercased selfMatches count dateValue s e = some s') :
    (∃ e' devices, e = .devices e' ∧
      s.devices.step lowercased selfMatches count e' = some devices ∧
      s' = { s with devices := devices }) ∨
    (∃ k d uid, e = .opened k ∧ d ∈ s.devices.sessions ∧
      d.session.firebase.currentUser = some uid ∧
      s' = { s with lists := s.lists ++ [.create uid] }) ∨
    (∃ l list documents ambients shown, e = .snapshot l documents ambients ∧
      s.lists[l]? = some list ∧
      (list.openOn s.devices.chats.delivery).step dateValue list.uid
        (.snapshot documents ambients) = some shown ∧
      s' = { s with lists := s.lists.set l (list.after shown) }) ∨
    (∃ l k list lookup shown, e = .fetched l k ∧ s.lists[l]? = some list ∧
      list.feed.lookups[k]? = some lookup ∧
      (list.openOn s.devices.chats.delivery).step dateValue list.uid
        (.fetched k (s.profile lookup.1)) = some shown ∧
      s' = {
        devices :=
          { s.devices with
            users := s.devices.users ++ ((s.profile lookup.1).bind User.init?).toList }
        lists := s.lists.set l (list.after shown) }) := by
  cases e with
  | devices e =>
      rcases bind_pure_eq_some.1 h with ⟨devices, hdevices, rfl⟩
      exact Or.inl ⟨e, devices, rfl, hdevices, rfl⟩
  | opened k =>
      simp only [step, Option.bind_eq_bind, Option.bind_eq_some_iff, Option.pure_def,
        Option.some.injEq] at h
      rcases h with ⟨d, hget, uid, hcurrent, rfl⟩
      exact Or.inr (Or.inl ⟨k, d, uid, rfl, List.mem_of_getElem? hget, hcurrent, rfl⟩)
  | snapshot l documents ambients =>
      simp only [step, Option.bind_eq_bind, Option.bind_eq_some_iff, Option.pure_def,
        Option.some.injEq] at h
      rcases h with ⟨list, hget, shown, hshown, rfl⟩
      exact Or.inr (Or.inr (Or.inl
        ⟨l, list, documents, ambients, shown, rfl, hget, hshown, rfl⟩))
  | fetched l k =>
      simp only [step, Option.bind_eq_bind, Option.bind_eq_some_iff, Option.pure_def,
        Option.some.injEq] at h
      rcases h with ⟨list, hget, lookup, hlookup, shown, hshown, rfl⟩
      exact Or.inr (Or.inr (Or.inr ⟨l, k, list, lookup, shown, rfl, hget, hlookup, hshown, rfl⟩))

/-! ## What holds of all lists -/

end ConversationLists

section Known

variable (lowercased : String → String) (selfMatches : (pattern text : String) → Bool)
  (count : String → Nat) {Date : Type} [LinearOrder Date] (dateValue : Timestamp → Date)

/-- The user has an account, has passed the validation of the registration form, and has been
handed out. -/
structure User.Known (devices : Devices) (user : User) : Prop where
  uid : user.uid ∈ devices.uids
  validated : user.Validated lowercased selfMatches count
  handedOut : user ∈ devices.users

/-- The list of somebody with an account, which goes on under the uploads of the devices and
shows users with accounts. -/
structure ConversationList.Sound (devices : Devices) (list : ConversationList) : Prop where
  uid : list.uid ∈ devices.uids
  reachable : Reachable (OpenConversations.step dateValue list.uid) .initial
    (list.openOn devices.chats.delivery).withoutUsers
  shows : list.feed.Shows (User.Known lowercased selfMatches count devices)

/-- The devices are sound, and all lists. -/
structure ConversationLists.Sound (s : ConversationLists) : Prop where
  devices : s.devices.Sound lowercased selfMatches count
  lists : ∀ list ∈ s.lists, list.Sound lowercased selfMatches count dateValue s.devices

end Known

variable {lowercased : String → String} {selfMatches : (pattern text : String) → Bool}
  {count : String → Nat} {Date : Type} [LinearOrder Date] {dateValue : Timestamp → Date}

/-- A profile that is found is that of the account it has been looked up for. -/
theorem Devices.Sound.found {s : Devices} (h : s.Sound lowercased selfMatches count) {uid : Uid}
    {user : User}
    (hfound : user ∈ (s.store.document? usersPath (.named uid)).bind User.init?) :
    user.uid = uid ∧ user.Validated lowercased selfMatches count ∧
      ∃ doc ∈ s.store.documents usersPath, User.init? doc.data = some user := by
  rcases Option.bind_eq_some_iff.1 hfound with ⟨data, hdata, hinit⟩
  rcases Option.map_eq_some_iff.1 hdata with ⟨doc, hdoc, rfl⟩
  have hmem : doc ∈ s.store.documents usersPath := List.mem_of_find?_eq_some hdoc
  have hid : doc.id = .named uid := by simpa using List.find?_some hdoc
  rcases (h.validated.profiles doc hmem).init_eq with ⟨user', hinit', hname, hvalid⟩
  obtain rfl := Option.some.inj (hinit.symm.trans hinit')
  exact ⟨DocumentId.named.inj (hname.symm.trans hid), hvalid, doc, hmem, hinit⟩

/-- Users stay known. -/
theorem User.Known.mono {user : User} {devices devices' : Devices}
    (h : user.Known lowercased selfMatches count devices) (huids : devices.uids ⊆ devices'.uids)
    (husers : devices.users ⊆ devices'.users) :
    user.Known lowercased selfMatches count devices' :=
  ⟨huids h.uid, h.validated, husers h.handedOut⟩

namespace ConversationList

/-- Uploads and registrations leave a list sound. -/
theorem Sound.devices {list : ConversationList} {devices devices' : Devices}
    (h : list.Sound lowercased selfMatches count dateValue devices)
    (hsound : devices.Sound lowercased selfMatches count) {e : DevicesEvent}
    (hstep : devices.step lowercased selfMatches count e = some devices') :
    list.Sound lowercased selfMatches count dateValue devices' := by
  have hgrown := Devices.uids_step hsound hstep
  refine ⟨hgrown h.uid, ?_, h.shows.mono ?_⟩
  · have hdelivery : Reachable Delivery.step devices.chats.withoutUsers.delivery
        devices'.chats.withoutUsers.delivery :=
      ⟨_, run_trace_of_map (f := OpenChats.delivery)
        (fun _ _ _ hab => OpenChats.run_deliveryEvents hab) (Devices.chats_step hsound hstep)⟩
    exact h.reachable.trans (OpenConversations.reachable_of_delivery hdelivery _ _)
  · intro user huser
    exact huser.mono hgrown (Devices.users_step hstep)

/-- A new list is sound. -/
theorem sound_create {devices : Devices} (hsound : devices.Sound lowercased selfMatches count)
    {uid : Uid} (huid : uid ∈ devices.uids) :
    (create uid).Sound lowercased selfMatches count dateValue devices := by
  refine ⟨huid, ?_, ConversationFeed.shows_initial _⟩
  exact OpenConversations.reachable_of_delivery (OpenChats.reachable_delivery hsound.chats) _ _

/-- What a list hears of, and whom it finds, leaves it sound. -/
theorem Sound.after {list : ConversationList} {devices : Devices}
    (h : list.Sound lowercased selfMatches count dateValue devices)
    {e : OpenConversationsEvent} (he : ∀ d, e ≠ .delivery d)
    (hfound : ∀ k data, e = .fetched k data → ∀ user ∈ data.bind User.init?,
      user.Known lowercased selfMatches count devices) {shown : OpenConversations}
    (hstep : (list.openOn devices.chats.delivery).step dateValue list.uid e = some shown) :
    (list.after shown).Sound lowercased selfMatches count dateValue devices := by
  have hnext := h.reachable.next (OpenConversations.step_withoutUsers he hstep)
  rcases OpenConversations.step_cases dateValue list.uid hstep with ⟨d, -, rfl, -, -⟩ |
    ⟨documents, ambients, changes, feed, rfl, -, -, hfeed, rfl⟩ |
    ⟨k, data, feed, rfl, -, hfeed, rfl⟩
  · exact absurd rfl (he d)
  · refine ⟨h.uid, hnext, h.shows.step dateValue ?_ hfeed⟩
    intro k data hfetched
    cases hfetched
  · refine ⟨h.uid, hnext, h.shows.step dateValue ?_ hfeed⟩
    intro k' data' hfetched
    cases hfetched
    exact hfound k data rfl

end ConversationList

namespace ConversationLists

/-- At first there is no list. -/
theorem sound_initial : initial.Sound lowercased selfMatches count dateValue :=
  ⟨Devices.sound_initial, by simp [initial]⟩

/-- Lists belong to accounts and show users with accounts. -/
theorem sound_step {s s' : ConversationLists} {e : ConversationListsEvent}
    (h : s.Sound lowercased selfMatches count dateValue)
    (hstep : step lowercased selfMatches count dateValue s e = some s') :
    s'.Sound lowercased selfMatches count dateValue := by
  rcases step_cases hstep with ⟨e, devices, -, hdevices, rfl⟩ |
    ⟨k, d, uid, -, hd, hcurrent, rfl⟩ |
    ⟨l, list, documents, ambients, shown, -, hget, hshown, rfl⟩ |
    ⟨l, k, list, lookup, shown, -, hget, -, hshown, rfl⟩
  · refine ⟨Devices.sound_step h.devices hdevices, ?_⟩
    intro list hlist
    exact (h.lists list hlist).devices h.devices hdevices
  · refine ⟨h.devices, ?_⟩
    intro list hlist
    rcases List.mem_append.1 hlist with hold | hnew
    · exact h.lists list hold
    · rw [List.mem_singleton.1 hnew]
      exact ConversationList.sound_create h.devices ((h.devices.sessions d hd).current uid hcurrent)
  · refine ⟨h.devices, ?_⟩
    intro other hmem
    rcases List.mem_or_eq_of_mem_set hmem with hold | rfl
    · exact h.lists other hold
    · have hlist := h.lists list (List.mem_of_getElem? hget)
      exact hlist.after (by simp) (by simp) hshown
  · have hfound : ∀ user ∈ (s.profile lookup.1).bind User.init?,
        user.Validated lowercased selfMatches count ∧
          ∃ doc ∈ s.devices.store.documents usersPath, User.init? doc.data = some user :=
      fun user huser => (h.devices.found huser).2
    refine ⟨h.devices.handOut fun user huser => (hfound user (Option.mem_toList.1 huser)).2, ?_⟩
    have hlists : ∀ other ∈ s.lists, other.Sound lowercased selfMatches count dateValue
        { s.devices with
          users := s.devices.users ++ ((s.profile lookup.1).bind User.init?).toList } := by
      intro other hother
      have hsound := h.lists other hother
      refine ⟨hsound.uid, hsound.reachable, hsound.shows.mono fun user huser => ?_⟩
      exact huser.mono (List.Subset.refl _) (List.subset_append_left _ _)
    intro other hmem
    rcases List.mem_or_eq_of_mem_set hmem with hold | rfl
    · exact hlists other hold
    · refine (hlists list (List.mem_of_getElem? hget)).after (by simp) ?_ hshown
      intro k data hfetched user huser
      cases hfetched
      rcases hfound user huser with ⟨hvalid, doc, hdoc, hinit⟩
      exact ⟨h.devices.init_mem_uids hdoc hinit, hvalid,
        List.mem_append_right _ (Option.mem_toList.2 huser)⟩

/-- In every reachable state lists show users with accounts. -/
theorem sound_of_reachable {s : ConversationLists}
    (hreach : Reachable (step lowercased selfMatches count dateValue) initial s) :
    s.Sound lowercased selfMatches count dateValue :=
  hreach.invariant (fun _ _ _ _ h hstep => sound_step h hstep) sound_initial

/-- A lookup finds the profile of the account it is about, or none: it can be answered. -/
theorem Sound.fetched {s : ConversationLists} (h : s.Sound lowercased selfMatches count dateValue)
    {l k : Nat} {list : ConversationList} {lookup : Uid × Message}
    (hget : s.lists[l]? = some list) (hlookup : list.feed.lookups[k]? = some lookup) :
    ∃ s', step lowercased selfMatches count dateValue s (.fetched l k) = some s' := by
  have hown : ∀ user ∈ (s.profile lookup.1).bind User.init?, user.uid = lookup.1 :=
    fun user hfound => (h.devices.found hfound).1
  simp only [step, Option.bind_eq_bind, Option.bind_eq_some_iff, Option.pure_def,
    Option.some.injEq, OpenConversations.step, ConversationFeed.step, Option.guard_eq_some']
  refine ⟨_, list, hget, lookup, hlookup, _, ⟨(), ?_, _, ⟨lookup, hlookup, rfl⟩, rfl⟩, rfl⟩
  intro lookup' hlookup'
  obtain rfl : lookup = lookup' := Option.some.inj (hlookup.symm.trans hlookup')
  exact hown

/-- **Who and what the conversation lists show.**  In every run of the app on any number of
devices, with any failures, every conversation of every list ever shown is with another user
who has an account and whose fields have passed the registration form, and it carries a
message that one of the two has sent to the other; the chat with this user can be opened
wherever the owner of the list is signed in; and no lookup is left without an answer. -/
theorem conversations_accounted {s : ConversationLists}
    (hreach : Reachable (step lowercased selfMatches count dateValue) initial s) {l : Nat}
    {list : ConversationList} (hget : s.lists[l]? = some list) :
    (∀ shown ∈ list.feed.emitted, ∀ c ∈ shown,
      c.user.uid ∈ s.devices.uids ∧ c.user.uid ≠ list.uid ∧
        c.user.Validated lowercased selfMatches count ∧
        (∃ u ∈ s.devices.chats.delivery.uploads, Delivery.Between list.uid c.user.uid u ∧
          ∃ ambient, c.recentMessage = Message.init ambient u.message) ∧
        ((∃ d ∈ s.devices.sessions, d.session.firebase.currentUser = some list.uid) →
          c.user.uid ≠ "recent-messages" →
          ∃ s', step lowercased selfMatches count dateValue s
            (.devices (.chat (.opened list.uid c.user))) = some s')) ∧
      ∀ k lookup, list.feed.lookups[k]? = some lookup →
        ∃ s', step lowercased selfMatches count dateValue s (.fetched l k) = some s' := by
  have h := sound_of_reachable hreach
  have hlist := h.lists list (List.mem_of_getElem? hget)
  refine ⟨?_, fun k lookup hlookup => h.fetched hget hlookup⟩
  intro shown hshown c hc
  have hknown := hlist.shows.emitted shown hshown c hc
  have hexchanged := (OpenConversations.authentic_of_reachable dateValue list.uid
    hlist.reachable).feed.emitted shown hshown c hc
  rcases hexchanged with ⟨u, hu, hbetween, hmessage⟩
  have hother : c.user.uid ≠ list.uid := by
    intro hself
    rcases h.devices.uploads u hu with ⟨-, -, hne⟩
    rcases hbetween with ⟨hcurrent, hpeer⟩ | ⟨hcurrent, hpeer⟩
    · exact hne (hcurrent.trans (hself.symm.trans hpeer.symm))
    · exact hne (hcurrent.trans (hself.trans hpeer.symm))
  refine ⟨hknown.uid, hother, hknown.validated, ⟨u, hu, hbetween, hmessage⟩, ?_⟩
  intro hsignedIn hunreserved
  have hopens : s.devices.Opens (.opened list.uid c.user) := ⟨hsignedIn, hknown.handedOut⟩
  simp only [step, Devices.step, OpenChats.step, hopens, guard_true]
  simp [hother.symm, hunreserved]

/-- Alice's message reaches Bob's summaries, and Bob finds it in his list. -/
def answeredMeeting : List ConversationListsEvent :=
  let sent : List DevicesEvent :=
    [.chat (.backend (.handle 0)), .chat (.backend (.decide 0 .committed)),
     .chat (.backend (.handle 0))]
  (Devices.meeting ++ sent).map .devices ++
  [.opened 1, .snapshot 0 [⟨.named "a", messageData "hello" "a" "b" ⟨1, 0⟩⟩] [⟨⟨0, 0⟩, some "b"⟩],
   .fetched 0 0]

/-- The state after it. -/
def answered : ConversationLists :=
  final (step id Devices.twoEmails String.length fun t => t.seconds) initial answeredMeeting

theorem conversations_accounted_answeredMeeting :
    (answered.lists.map fun list =>
        list.feed.shown.map fun c => (c.user.fullname, c.recentMessage.text)) =
      [[("Alice", "hello")]] ∧
      ∃ list, answered.lists[0]? = some list ∧ ∀ shown ∈ list.feed.emitted, ∀ c ∈ shown,
        c.user.uid ∈ answered.devices.uids ∧ c.user.uid ≠ list.uid := by
  have hreach : Reachable (step id Devices.twoEmails String.length fun t => t.seconds) initial
      answered := reachable_final (by decide)
  obtain ⟨list, hget⟩ : ∃ list, answered.lists[0]? = some list :=
    Option.isSome_iff_exists.1 (by decide)
  refine ⟨by decide, list, hget, ?_⟩
  intro shown hshown c hc
  have haccounted := (conversations_accounted hreach hget).1 shown hshown c hc
  exact ⟨haccounted.1, haccounted.2.1⟩

end ConversationLists

end WaffleChat
