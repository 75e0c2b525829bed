import WaffleChat.Controller.ConversationLists

/-!
# What the screens of a user have in common

The conversation list and the chat screens of a user are fed by different listeners, on
documents that are written by different writes.  Once all of them have caught up they tell
the same story.

Main results:

- Theorem `ConversationLists.follows_step`: lists whose snapshots come in turn follow them.
- Theorem `ConversationLists.screens_agree`: conversations and chats correspond.
-/

namespace WaffleChat

open CallbackProgram EventSystem Observers

/-- The event of the chat screens, if it is one. -/
def ConversationListsEvent.chat? : ConversationListsEvent → Option OpenChatsEvent
  | .devices e => e.chat?
  | _ => none

/-- The messages are the same, whoever they are shown to. -/
def Message.SameAs (message other : Message) : Prop :=
  { message with isFromCurrentUser := other.isFromCurrentUser } = other

theorem Upload.sameAs_shownTo (u : Upload) (ambient : Ambient) (uid : Uid) :
    (Message.init ambient u.message).SameAs (u.shownTo uid) := by
  rw [Upload.init_message]
  rfl

namespace ConversationLists

variable {lowercased : String → String} {selfMatches : (pattern text : String) → Bool}
  {count : String → Nat} {Date : Type} [LinearOrder Date] {dateValue : Timestamp → Date}

/-- Without profiles, an event of the app is one of the chat screens, or none. -/
theorem chats_step {s s' : ConversationLists} {e : ConversationListsEvent}
    (h : s.Sound lowercased selfMatches count dateValue)
    (hstep : step lowercased selfMatches count dateValue s e = some s') :
    run OpenChats.step s.devices.chats.withoutUsers e.chat?.toList =
      some s'.devices.chats.withoutUsers := by
  rcases step_cases hstep with ⟨e, devices, rfl, hdevices, rfl⟩ | ⟨k, d, uid, rfl, -, -, rfl⟩ |
    ⟨l, list, documents, ambients, shown, rfl, -, -, rfl⟩ |
    ⟨l, k, list, lookup, shown, rfl, -, -, -, rfl⟩
  · exact Devices.chats_step h.devices hdevices
  · rfl
  · rfl
  · rfl

/-- Without profiles, the chat screens run on their own events. -/
theorem run_chats {s : ConversationLists} {es : List ConversationListsEvent}
    (hrun : run (step lowercased selfMatches count dateValue) initial es = some s) :
    run OpenChats.step .initial (es.filterMap ConversationListsEvent.chat?) =
      some s.devices.chats.withoutUsers := by
  have hinitial : initial.devices.chats.withoutUsers = .initial := Devices.initial_withoutUsers
  rw [← hinitial]
  refine run_filterMap (f := fun s : ConversationLists => s.devices.chats.withoutUsers)
    (I := fun s => s.Sound lowercased selfMatches count dateValue) ?_ ?_ sound_initial hrun
  · intro a e b ha hab
    exact sound_step ha hab
  · intro a e b ha hab
    exact chats_step ha hab

/-! ## Lists that follow their snapshots -/

/-- The snapshot of a list removes no summary, and changes none whose peer is being looked up;
the lookup finds a profile. -/
def InTurn (s : ConversationLists) : ConversationListsEvent → Prop
  | .snapshot l documents ambients => ∀ list ∈ s.lists[l]?,
      (list.openOn s.devices.chats.delivery).InTurn list.uid (.snapshot documents ambients)
  | .fetched l k => ∀ list ∈ s.lists[l]?, ∀ lookup ∈ list.feed.lookups[k]?,
      (list.openOn s.devices.chats.delivery).InTurn list.uid (.fetched k (s.profile lookup.1))
  | _ => True

instance (s : ConversationLists) : DecidablePred s.InTurn
  | .snapshot _ _ _ => inferInstanceAs (Decidable (∀ list ∈ _, _))
  | .fetched _ _ => inferInstanceAs (Decidable (∀ list ∈ _, ∀ lookup ∈ _, _))
  | .devices _ => inferInstanceAs (Decidable True)
  | .opened _ => inferInstanceAs (Decidable True)

/-- A list whose snapshots come in turn follows them. -/
theorem follows_step {s s' : ConversationLists} {e : ConversationListsEvent}
    (h : s.Sound lowercased selfMatches count dateValue)
    (hfollows : ∀ list ∈ s.lists, list.feed.Follows dateValue list.uid list.documents)
    (hturn : s.InTurn e) (hstep : step lowercased selfMatches count dateValue s e = some s') :
    ∀ list ∈ s'.lists, list.feed.Follows dateValue list.uid list.documents := by
  have hafter : ∀ {l : Nat} {list : ConversationList} {e : OpenConversationsEvent}
      {shown : OpenConversations}, s.lists[l]? = some list → (∀ d, e ≠ .delivery d) →
      (list.openOn s.devices.chats.delivery).InTurn list.uid e →
      (list.openOn s.devices.chats.delivery).step dateValue list.uid e = some shown →
      ∀ other ∈ s.lists.set l (list.after shown),
        other.feed.Follows dateValue other.uid other.documents := by
    intro l list e shown hget he hturn hshown other hmem
    rcases List.mem_or_eq_of_mem_set hmem with hold | rfl
    · exact hfollows other hold
    · have hlist := List.mem_of_getElem? hget
      have hdelivery := OpenConversations.reachable_delivery dateValue list.uid
        (h.lists list hlist).reachable
      have hnext := OpenConversations.follows_step dateValue list.uid hdelivery
        (hfollows list hlist) hturn (OpenConversations.step_withoutUsers he hshown)
      exact hnext
  rcases step_cases hstep with ⟨e, devices, rfl, -, rfl⟩ | ⟨k, d, uid, rfl, -, -, rfl⟩ |
    ⟨l, list, documents, ambients, shown, rfl, hget, hshown, rfl⟩ |
    ⟨l, k, list, lookup, shown, rfl, hget, hlookup, hshown, rfl⟩
  · exact hfollows
  · intro list hlist
    rcases List.mem_append.1 hlist with hold | hnew
    · exact hfollows list hold
    · rw [List.mem_singleton.1 hnew]
      exact ConversationFeed.follows_initial dateValue uid
  · exact hafter hget (by simp) (hturn list hget) hshown
  · exact hafter hget (by simp) (hturn list hget lookup hlookup) hshown

/-! ## Conversations and chats -/

/-- **The conversation list and the chats of a user agree.**  In every run of the app in which
all writes succeed, the snapshots of the lists come in turn and their lookups find their
profiles: when nothing is in flight and a list and a chat screen of the same user have caught
up, the list shows a conversation with the user of the chat exactly if the chat shows a
message, at most one, and its message is one of those the chat shows. -/
theorem screens_agree {s : ConversationLists} {es : List ConversationListsEvent}
    (hrun : run (step lowercased selfMatches count dateValue) initial es = some s)
    (hes : ∀ e ∈ es.filterMap ConversationListsEvent.chat?, e.Succeeds)
    (hturns : StepsMeet (step lowercased selfMatches count dateValue) InTurn initial es)
    (hquiet : s.devices.chats.delivery.Quiet) {list : ConversationList} (hlist : list ∈ s.lists)
    (hidle : list.feed.lookups = [])
    (hcaughtUp : (list.openOn s.devices.chats.delivery).CaughtUp list.uid) {chat : OpenChat}
    (hchat : chat ∈ s.devices.chats.chats) (howner : chat.uid = list.uid)
    (hcomplete : s.devices.chats.Complete chat) :
    (list.feed.shown.map fun c => c.user.uid).Nodup ∧
      ((∃ c ∈ list.feed.shown, c.user.uid = chat.user.uid) ↔ chat.feed.chatMessages ≠ []) ∧
      ∀ c ∈ list.feed.shown, c.user.uid = chat.user.uid →
        ∃ message ∈ chat.feed.chatMessages, c.recentMessage.SameAs message := by
  have hreach : Reachable (step lowercased selfMatches count dateValue) initial s := ⟨es, hrun⟩
  have hchats := run_chats hrun
  rcases OpenChats.run_delivery_of_succeeds hes hchats with ⟨ds, hds, hdelivery⟩
  have hfollows : list.feed.Follows dateValue list.uid list.documents := by
    refine (run_invariant_of_stepsMeet (P := fun s : ConversationLists =>
      s.Sound lowercased selfMatches count dateValue ∧
        ∀ list ∈ s.lists, list.feed.Follows dateValue list.uid list.documents) ?_ hturns
      ⟨sound_initial, by simp [initial]⟩ hrun).2 list hlist
    rintro a e b hturn ⟨ha, h⟩ hab
    exact ⟨sound_step ha hab, follows_step ha h hturn hab⟩
  -- the list shows what has been written to the summaries last
  have hcaughtUp' : (list.openOn s.devices.chats.delivery).withoutUsers.CaughtUp list.uid := by
    have hne : recentPath list.uid ≠ usersPath := by simp [recentPath, usersPath]
    simpa [OpenConversations.CaughtUp, OpenConversations.withoutUsers, Delivery.withoutUsers,
      Firestore.documents_without_of_ne _ hne] using hcaughtUp
  rcases hfollows.lists dateValue hidle with ⟨hlists, -⟩
  rcases hcaughtUp'.lists list.uid ⟨ds, hdelivery⟩ hfollows.summaries hlists with
    ⟨hrecent, hcovered⟩
  -- the chat screen shows what has been sent
  have hcomplete' : s.devices.chats.withoutUsers.Complete chat := by
    have hne : logPath chat.uid chat.user.uid ≠ usersPath := by simp [logPath, usersPath]
    simpa [OpenChats.Complete, OpenChats.withoutUsers, Delivery.withoutUsers,
      Firestore.documents_without_of_ne _ hne] using hcomplete
  have hshown := OpenChats.shown_perm ⟨_, hchats⟩ (Delivery.unharmed_of_succeeds hds hdelivery)
    hquiet hchat hcomplete'
  have hmem : ∀ u ∈ s.devices.chats.withoutUsers.delivery.uploads,
      Delivery.Between list.uid chat.user.uid u →
        u.shownTo chat.uid ∈ chat.feed.chatMessages := by
    intro u hu hbetween
    rw [← howner] at hbetween
    exact hshown.mem_iff.2 (List.mem_map_of_mem (List.mem_filter.2 ⟨hu, by simpa using hbetween⟩))
  have hmessage : ∀ c ∈ list.feed.shown, c.user.uid = chat.user.uid →
      ∃ message ∈ chat.feed.chatMessages, c.recentMessage.SameAs message := by
    intro c hc hpeer
    rcases hrecent c hc with ⟨data, hlast, ambient, hinit⟩
    rcases Delivery.upload_of_last_summary hds hdelivery hlast with ⟨u, hu, hbetween, rfl⟩
    rw [hpeer] at hbetween
    rw [hinit]
    exact ⟨_, hmem u hu hbetween, u.sameAs_shownTo ambient chat.uid⟩
  refine ⟨hlists.nodup, ⟨?_, ?_⟩, hmessage⟩
  · rintro ⟨c, hc, hpeer⟩
    rcases hmessage c hc hpeer with ⟨message, hmessage, -⟩
    exact List.ne_nil_of_mem hmessage
  · intro hne
    rcases List.exists_mem_of_ne_nil _ hne with ⟨message, hmessage⟩
    rcases List.mem_map.1 (hshown.mem_iff.1 hmessage) with ⟨u, hu, -⟩
    rcases List.mem_filter.1 hu with ⟨hupload, hbetween⟩
    rw [howner] at hbetween
    exact hcovered chat.user.uid (Delivery.summaries_ne_nil_of_quiet hds hdelivery hquiet hupload
      (by simpa using hbetween))

/-- Alice's message is sent, and she looks at her conversations. -/
def lookedUp : List ConversationListsEvent :=
  let sent : List DevicesEvent :=
    [.chat (.backend (.handle 0)), .chat (.backend (.decide 0 .committed)),
     .chat (.backend (.handle 0)), .chat (.backend (.decideSummary 0 0 .committed)),
     .chat (.backend (.decideSummary 0 0 .committed))]
  (Devices.meeting ++ sent).map .devices ++
  [.opened 0, .snapshot 0 [⟨.named "b", messageData "hello" "a" "b" ⟨1, 0⟩⟩] [⟨⟨0, 0⟩, some "a"⟩],
   .fetched 0 0]

/-- The state after it. -/
def agreed : ConversationLists :=
  final (step id Devices.twoEmails String.length fun t => t.seconds) initial lookedUp

theorem screens_agree_lookedUp :
    ∃ list ∈ agreed.lists, ∃ chat ∈ agreed.devices.chats.chats,
      ((∃ c ∈ list.feed.shown, c.user.uid = chat.user.uid) ↔ chat.feed.chatMessages ≠ []) ∧
        ∀ c ∈ list.feed.shown, c.user.uid = chat.user.uid →
          ∃ message ∈ chat.feed.chatMessages, c.recentMessage.SameAs message := by
  have hrun : run (step id Devices.twoEmails String.length fun t => t.seconds) initial lookedUp =
      some agreed := run_final (by decide)
  have hagree : ∀ list ∈ agreed.lists, ∀ chat ∈ agreed.devices.chats.chats,
      list.feed.lookups = [] ∧ (list.openOn agreed.devices.chats.delivery).CaughtUp list.uid ∧
        chat.uid = list.uid ∧ agreed.devices.chats.Complete chat := by
    decide
  obtain ⟨list, hlist⟩ : ∃ list, list ∈ agreed.lists := List.exists_mem_of_ne_nil _ (by decide)
  obtain ⟨chat, hchat⟩ : ∃ chat, chat ∈ agreed.devices.chats.chats :=
    List.exists_mem_of_ne_nil _ (by decide)
  rcases hagree list hlist chat hchat with ⟨hidle, hcaughtUp, howner, hcomplete⟩
  refine ⟨list, hlist, chat, hchat, ?_⟩
  exact (screens_agree hrun (by decide) (by decide) (by decide) hlist hidle hcaughtUp hchat howner
    hcomplete).2

end ConversationLists

end WaffleChat
