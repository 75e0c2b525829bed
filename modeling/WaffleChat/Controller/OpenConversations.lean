import WaffleChat.Service.Directory
import WaffleChat.Service.InterleavedLookups
import WaffleChat.Service.RecentMessages
import WaffleChat.Service.StoredMessages

/-!
# The conversation list of a user

The list of `uid` over the document store, while uploads of all users are under way.  A
snapshot shows each summary in any version that has been written so far, if only on a
device; lookups of different peers are outstanding at the same time.

Main results:

- Theorem `summaries_of_receives`: a summary is named by the peer it is attributed to.
- Theorem `shows_recent`: whose messages the list shows, and that it shows the latest summary
  of each chat when it has caught up.
-/

namespace WaffleChat

open CallbackProgram EventSystem

/-- What the write has written to the document of that id in `messages/<uid>/recent-messages`;
the summaries are named. -/
def ClientWrite.writtenTo (uid : Uid) (write : ClientWrite) : DocumentId → Option Dictionary
  | .named name => write.request.writeTo (recentPath uid) name
  | .auto _ _ => none

namespace Delivery

variable {ds : List DeliveryEvent} {s : Delivery} (hds : ∀ d ∈ ds, d.Succeeds)
  (hrun : run step initial ds = some s)

include hds hrun

/-- What has been written to a summary last is the message of an upload. -/
theorem upload_of_last_summary {u p : Uid} {data : Dictionary}
    (hlast : (s.summaries u p).getLast? = some data) :
    ∃ upload ∈ s.uploads, Between u p upload ∧ data = upload.message := by
  rw [← recentMessage_eq_last ⟨ds, hrun⟩] at hlast
  rcases upload_of_recentMessage hds hrun hlast with ⟨i, t, hget, -, hbetween, hdata⟩
  exact ⟨t.job, List.mem_map_of_mem (List.mem_of_getElem? hget), hbetween, hdata⟩

/-- When nothing is in flight, the summary of every chat has been written. -/
theorem summaries_ne_nil_of_quiet (hquiet : s.Quiet) {u p : Uid} {upload : Upload}
    (hupload : upload ∈ s.uploads) (hbetween : Between u p upload) : s.summaries u p ≠ [] := by
  rcases List.mem_map.1 hupload with ⟨t, ht, rfl⟩
  exact List.ne_nil_of_mem (message_mem_summaries hds hrun hquiet ht hbetween)

end Delivery

/-- The store with all uploads under way, the documents of the last snapshot of the list, and
the call of `fetchConversations` that listens to it. -/
structure OpenConversations where
  delivery : Delivery
  documents : List StoredDocument
  feed : ConversationFeed

/-- What can happen next. -/
inductive OpenConversationsEvent where
  /-- An upload of any user starts or goes on. -/
  | delivery (e : DeliveryEvent)
  /-- The listener runs; `ambients` is what is read for each change. -/
  | snapshot (documents : List StoredDocument) (ambients : List Ambient)
  /-- The outstanding lookup at position `k` completes. -/
  | fetched (k : Nat) (data : Option Dictionary)
deriving DecidableEq, Repr

namespace OpenConversations

variable {Date : Type} [LinearOrder Date] (dateValue : Timestamp → Date) (uid : Uid)

/-- Nothing stored, nothing listed. -/
def initial : OpenConversations where
  delivery := .initial
  documents := []
  feed := .initial

/-- What Firestore hands to the listener: distinct documents, each as some issued write has
written it. -/
def Receives (s : OpenConversations) (documents : List StoredDocument) : Prop :=
  (documents.map StoredDocument.id).Nodup ∧
    ∀ doc ∈ documents, ∃ write ∈ s.delivery.issued, write.writtenTo uid doc.id = some doc.data

instance (s : OpenConversations) (documents : List StoredDocument) :
    Decidable (s.Receives uid documents) :=
  inferInstanceAs (Decidable (_ ∧ _))

/-- One event; profiles carry the ids of their documents. -/
def step (s : OpenConversations) : OpenConversationsEvent → Option OpenConversations
  | .delivery e => do
      let delivery ← s.delivery.step e
      return { s with delivery := delivery }
  | .snapshot documents ambients => do
      guard (s.Receives uid documents)
      let changes := documentChanges s.documents documents
      guard (ambients.length = changes.length)
      let feed ← s.feed.step dateValue uid (.snapshot (some (ambients.zip changes)))
      return { s with documents := documents, feed := feed }
  | .fetched k data => do
      guard (s.feed.OwnProfile (.fetched k data))
      let feed ← s.feed.step dateValue uid (.fetched k data)
      return { s with feed := feed }

/-- The snapshot removes no summary, and changes none whose peer is being looked up; the
lookup finds a profile. -/
def InTurn (s : OpenConversations) : OpenConversationsEvent → Prop
  | .delivery _ => True
  | .snapshot documents _ =>
      removedDocuments s.documents documents = [] ∧
        ∀ change ∈ documentChanges s.documents documents,
          change.document.data.summaryPeer uid ∉ s.feed.lookups.map Prod.fst
  | .fetched _ data => (data.bind User.init?).isSome

instance (s : OpenConversations) : DecidablePred (s.InTurn uid)
  | .delivery _ => inferInstanceAs (Decidable True)
  | .snapshot _ _ => inferInstanceAs (Decidable (_ ∧ _))
  | .fetched _ _ => inferInstanceAs (Decidable (_ = true))

/-- The last snapshot is that of the store. -/
def CaughtUp (s : OpenConversations) : Prop :=
  s.documents.Perm (s.delivery.store.documents (recentPath uid))

instance (s : OpenConversations) : Decidable (s.CaughtUp uid) :=
  inferInstanceAs (Decidable (List.Perm _ _))

/-! ## What a snapshot contains -/

/-- The summary of an upload is attributed to the other participant. -/
theorem summaryPeer_message {uid peer : Uid} {u : Upload} (h : Delivery.Between uid peer u) :
    u.message.summaryPeer uid = peer := by
  have hpeer : u.message.summaryPeer uid = if u.peer = uid then u.currentUid else u.peer := rfl
  rcases h with ⟨hcurrent, rfl⟩ | ⟨rfl, htarget⟩
  · rw [hpeer, hcurrent]
    split
    · rename_i hself
      exact hself.symm
    · rfl
  · rw [hpeer, if_pos htarget]

/-- The document carries the message of an upload between the user and the peer it is named
by. -/
def Summarizes (s : OpenConversations) (doc : StoredDocument) : Prop :=
  ∃ u ∈ s.delivery.uploads, ∃ peer, doc.id = .named peer ∧ Delivery.Between uid peer u ∧
    doc.data = u.message

/-- Summaries are written by uploads only. -/
theorem summarizes_of_writtenTo {s : OpenConversations}
    (hreach : Reachable Delivery.step .initial s.delivery) {doc : StoredDocument}
    {write : ClientWrite} (hissued : write ∈ s.delivery.issued)
    (hwritten : write.writtenTo uid doc.id = some doc.data) : s.Summarizes uid doc := by
  cases hid : doc.id with
  | auto owner serial =>
      rw [hid] at hwritten
      cases hwritten
  | named peer =>
      rw [hid] at hwritten
      rcases Delivery.issued_summaries hreach with ⟨uploads, hsummaries, hcalledBack, -⟩
      have hsummary : write ∈ uploads.flatMap Delivery.summaryWrites := by
        rw [← hsummaries]
        exact List.mem_filter.2 ⟨hissued, Delivery.isSummary_of_writeTo hwritten⟩
      rcases List.mem_flatMap.1 hsummary with ⟨upload, hupload, hwrite⟩
      rcases Delivery.writeTo_summaryWrites hwrite hwritten with ⟨hbetween, hdata⟩
      rcases hcalledBack upload hupload with ⟨t, hget, hjob, -⟩
      refine ⟨upload.2, ?_, peer, hid, hbetween, hdata⟩
      rw [← hjob]
      exact List.mem_map_of_mem (List.mem_of_getElem? hget)

/-- A removed document comes from the last snapshot, any other from the new one. -/
theorem document_mem_or_of_change {old new : List StoredDocument} {change : DocumentChange}
    (h : change ∈ documentChanges old new) : change.document ∈ old ∨ change.document ∈ new := by
  simp only [documentChanges, List.mem_append, List.mem_map] at h
  rcases h with (⟨doc, hdoc, rfl⟩ | ⟨doc, hdoc, rfl⟩) | ⟨doc, hdoc, rfl⟩
  · exact Or.inl (List.mem_filter.1 hdoc).1
  · exact Or.inr (List.mem_filter.1 hdoc).1
  · exact Or.inr (List.mem_filter.1 hdoc).1

/-- A summary is named by the peer it is attributed to. -/
theorem summaries_of_receives {s : OpenConversations}
    (hreach : Reachable Delivery.step .initial s.delivery) {documents : List StoredDocument}
    (h : s.Receives uid documents) : Summaries uid documents := by
  refine ⟨h.1, fun doc hdoc => ?_⟩
  rcases h.2 doc hdoc with ⟨write, hissued, hwritten⟩
  rcases summarizes_of_writtenTo uid hreach hissued hwritten with
    ⟨u, -, peer, hid, hbetween, hdata⟩
  rw [hid, hdata, summaryPeer_message hbetween]

/-! ## Runs -/

/-- Everything one event can do. -/
theorem step_cases {s s' : OpenConversations} {e : OpenConversationsEvent}
    (h : step dateValue uid s e = some s') :
    (∃ d delivery, e = .delivery d ∧ s.delivery.step d = some delivery ∧
      s' = { s with delivery := delivery }) ∨
    (∃ documents ambients changes feed, e = .snapshot documents ambients ∧
      s.Receives uid documents ∧ changes.map Prod.snd = documentChanges s.documents documents ∧
      s.feed.step dateValue uid (.snapshot (some changes)) = some feed ∧
      s' = { s with documents := documents, feed := feed }) ∨
    (∃ k data feed, e = .fetched k data ∧ s.feed.OwnProfile (.fetched k data) ∧
      s.feed.step dateValue uid (.fetched k data) = some feed ∧ s' = { s with feed := feed }) := by
  cases e with
  | delivery d =>
      simp only [step, bind_pure_eq_some] at h
      rcases h with ⟨delivery, hdelivery, rfl⟩
      exact Or.inl ⟨d, delivery, rfl, hdelivery, rfl⟩
  | snapshot documents ambients =>
      simp only [step, Option.bind_eq_bind, Option.bind_eq_some_iff, Option.guard_eq_some',
        Option.pure_def, Option.some.injEq] at h
      rcases h with ⟨-, hreceives, -, hlength, feed, hfeed, rfl⟩
      exact Or.inr (Or.inl ⟨documents, ambients, _, feed, rfl, hreceives,
        List.map_snd_zip hlength.ge, hfeed, rfl⟩)
  | fetched k data =>
      simp only [step, Option.bind_eq_bind, Option.bind_eq_some_iff, Option.guard_eq_some',
        Option.pure_def, Option.some.injEq] at h
      rcases h with ⟨-, hown, feed, hfeed, rfl⟩
      exact Or.inr (Or.inr ⟨k, data, feed, rfl, hown, hfeed, rfl⟩)

/-- The store runs on the events it takes part in. -/
theorem reachable_delivery_step {s s' : OpenConversations} {e : OpenConversationsEvent}
    (hreach : Reachable Delivery.step .initial s.delivery)
    (hstep : step dateValue uid s e = some s') :
    Reachable Delivery.step .initial s'.delivery := by
  rcases step_cases dateValue uid hstep with ⟨d, delivery, -, hdelivery, rfl⟩ |
    ⟨documents, ambients, changes, feed, -, -, -, -, rfl⟩ | ⟨k, data, feed, -, -, -, rfl⟩
  · exact hreach.next hdelivery
  · exact hreach
  · exact hreach

theorem reachable_delivery {s : OpenConversations}
    (hreach : Reachable (step dateValue uid) initial s) :
    Reachable Delivery.step .initial s.delivery :=
  hreach.invariant (P := fun s => Reachable Delivery.step .initial s.delivery)
    (fun _ _ _ _ ha hab => reachable_delivery_step dateValue uid ha hab) (Reachable.refl _)

/-- The entry shows a message exchanged with its peer. -/
def Exchanged (s : OpenConversations) (entry : Uid × Message) : Prop :=
  ∃ u ∈ s.delivery.uploads, Delivery.Between uid entry.1 u ∧
    ∃ ambient, entry.2 = Message.init ambient u.message

/-- Snapshots, entries and lists are about messages that have been sent. -/
structure Authentic (s : OpenConversations) : Prop where
  documents : ∀ doc ∈ s.documents, s.Summarizes uid doc
  feed : s.feed.From (s.Exchanged uid)

theorem Authentic.step {s s' : OpenConversations} {e : OpenConversationsEvent}
    (hreach : Reachable Delivery.step .initial s.delivery) (h : s.Authentic uid)
    (hstep : OpenConversations.step dateValue uid s e = some s') : s'.Authentic uid := by
  rcases step_cases dateValue uid hstep with ⟨d, delivery, -, hdelivery, rfl⟩ |
    ⟨documents, ambients, changes, feed, -, hreceives, hchanges, hfeed, rfl⟩ |
    ⟨k, data, feed, -, hown, hfeed, rfl⟩
  · have hmore : ∀ u ∈ s.delivery.uploads, u ∈ delivery.uploads := by
      intro u hu
      rw [Delivery.uploads_step hdelivery]
      exact List.mem_append_left _ hu
    constructor
    · intro doc hdoc
      rcases h.documents doc hdoc with ⟨u, hu, hsummary⟩
      exact ⟨u, hmore u hu, hsummary⟩
    · refine h.feed.mono ?_
      rintro entry ⟨u, hu, hexchanged⟩
      exact ⟨u, hmore u hu, hexchanged⟩
  · have hnew : ∀ doc ∈ documents, s.Summarizes uid doc := by
      intro doc hdoc
      rcases hreceives.2 doc hdoc with ⟨write, hissued, hwritten⟩
      exact summarizes_of_writtenTo uid hreach hissued hwritten
    refine ⟨hnew, h.feed.step dateValue uid (e := .snapshot (some changes)) trivial ?_ hfeed⟩
    rintro _ heq change hchange
    obtain rfl := Option.some.inj (FeedEvent.snapshot.inj heq)
    have hreported : change.2 ∈ documentChanges s.documents documents := by
      rw [← hchanges]
      exact List.mem_map_of_mem hchange
    have hsummary : s.Summarizes uid change.2.document := by
      rcases document_mem_or_of_change hreported with hold | hadded
      · exact h.documents _ hold
      · exact hnew _ hadded
    rcases hsummary with ⟨u, hu, peer, -, hbetween, hdata⟩
    refine ⟨u, hu, ?_, change.1, by rw [hdata]⟩
    have hpeer : ConversationFeed.changedPeer uid change = peer := by
      rw [← summaryPeer_message hbetween, ← hdata]
      rfl
    rwa [hpeer]
  · exact ⟨h.documents, h.feed.step dateValue uid hown (fun _ heq => by cases heq) hfeed⟩

theorem authentic_of_reachable {s : OpenConversations}
    (hreach : Reachable (OpenConversations.step dateValue uid) initial s) :
    s.Authentic uid := by
  refine hreach.invariant (P := fun s => s.Authentic uid) ?_ ?_
  · intro a e b ha h hab
    exact h.step dateValue uid (reachable_delivery dateValue uid ha) hab
  · refine ⟨by simp [initial], ⟨?_, by simp [initial, ConversationFeed.initial]⟩⟩
    simp [initial, ConversationFeed.entries, ConversationFeed.initial]

/-- While everything comes in its turn, the entries are those of the last snapshot. -/
theorem follows_step {s s' : OpenConversations} {e : OpenConversationsEvent}
    (hreach : Reachable Delivery.step .initial s.delivery)
    (h : s.feed.Follows dateValue uid s.documents) (hturn : s.InTurn uid e)
    (hstep : step dateValue uid s e = some s') : s'.feed.Follows dateValue uid s'.documents := by
  rcases step_cases dateValue uid hstep with ⟨d, delivery, -, -, rfl⟩ |
    ⟨documents, ambients, changes, feed, rfl, hreceives, hchanges, hfeed, rfl⟩ |
    ⟨k, data, feed, rfl, hown, hfeed, rfl⟩
  · exact h
  · refine h.snapshot dateValue (summaries_of_receives uid hreach hreceives) hturn.1 hchanges ?_
      hfeed
    intro change hchange
    refine hturn.2 change.2 ?_
    rw [← hchanges]
    exact List.mem_map_of_mem hchange
  · exact h.fetched dateValue hturn hown hfeed

/-- A list that has caught up shows what has been written to the summaries last. -/
theorem CaughtUp.lists {s : OpenConversations}
    (hreach : Reachable Delivery.step .initial s.delivery) (h : s.CaughtUp uid)
    (hsummaries : Summaries uid s.documents) {shown : List Conversation}
    (hlists : Listener.Lists s.documents shown) :
    (∀ c ∈ shown, ∃ data, (s.delivery.summaries uid c.user.uid).getLast? = some data ∧
      ∃ ambient, c.recentMessage = Message.init ambient data) ∧
    ∀ p, s.delivery.summaries uid p ≠ [] → ∃ c ∈ shown, c.user.uid = p := by
  have hids : ((s.delivery.store.documents (recentPath uid)).map StoredDocument.id).Nodup :=
    (h.map StoredDocument.id).nodup_iff.1 hsummaries.1
  constructor
  · intro c hc
    rcases hlists.message c hc with ⟨doc, hdoc, hid, ambient, hmessage⟩
    refine ⟨doc.data, ?_, ambient, hmessage⟩
    rw [← Delivery.recentMessage_eq_last hreach, Delivery.recentMessage, ← hid]
    exact Firestore.document_of_mem hids (h.mem_iff.1 hdoc)
  · intro p hp
    rcases Option.ne_none_iff_exists'.1 (mt List.getLast?_eq_none_iff.1 hp) with ⟨data, hdata⟩
    rw [← Delivery.recentMessage_eq_last hreach] at hdata
    rcases Option.map_eq_some_iff.1 hdata with ⟨doc, hfind, -⟩
    have hid : doc.id = .named p := by simpa using List.find?_some hfind
    rcases hlists.complete doc (h.mem_iff.2 (List.mem_of_find?_eq_some hfind)) with ⟨c, hc, hname⟩
    exact ⟨c, hc, DocumentId.named.inj (hname.symm.trans hid)⟩

/-- **What the conversation list shows has been sent.**  In every run, with any failures and
whatever the order of the lookups, every conversation of every list shown carries a message
exchanged with its peer, profiles carrying the ids of their documents.  When no summary is
removed, none changes while its peer is being looked up and all lookups find their profiles,
then a list that has caught up shows one conversation for each chat, with the message last
written to its summary, latest first. -/
theorem shows_recent {es : List OpenConversationsEvent} {s : OpenConversations}
    (hrun : run (step dateValue uid) initial es = some s) :
    (∀ list ∈ s.feed.emitted, ∀ c ∈ list,
      s.Exchanged uid (c.user.uid, c.recentMessage)) ∧
    (StepsMeet (step dateValue uid) (InTurn uid) initial es → s.feed.lookups = [] →
      s.CaughtUp uid →
      (s.feed.shown.map fun c => c.user.uid).Nodup ∧
        Listener.Descending dateValue s.feed.shown ∧
        (∀ c ∈ s.feed.shown, ∃ data,
          (s.delivery.summaries uid c.user.uid).getLast? = some data ∧
            ∃ ambient, c.recentMessage = Message.init ambient data) ∧
        ∀ p, s.delivery.summaries uid p ≠ [] → ∃ c ∈ s.feed.shown, c.user.uid = p) := by
  have hreach : Reachable (step dateValue uid) initial s := ⟨es, hrun⟩
  have hdelivery := reachable_delivery dateValue uid hreach
  constructor
  · exact (authentic_of_reachable dateValue uid hreach).feed.emitted
  · intro hturns hidle hcaughtUp
    have hfollows : s.feed.Follows dateValue uid s.documents := by
      refine (run_invariant_of_stepsMeet (P := fun s : OpenConversations =>
          Reachable Delivery.step .initial s.delivery ∧
            s.feed.Follows dateValue uid s.documents) ?_ hturns ⟨Reachable.refl _,
        ConversationFeed.follows_initial dateValue uid⟩ hrun).2
      rintro a e b hturn ⟨ha, h⟩ hab
      exact ⟨reachable_delivery_step dateValue uid ha hab,
        follows_step dateValue uid ha h hturn hab⟩
    rcases hfollows.lists dateValue hidle with ⟨hlists, hdescending⟩
    exact ⟨hlists.nodup, hdescending, hcaughtUp.lists uid hdelivery hfollows.summaries hlists⟩

/-- What Alice sends to Bob, and Carol to Alice. -/
def toBob : Upload := .sample "alice" "bob" "hi" 1

def fromCarol : Upload := .sample "carol" "alice" "yo" 2

/-- Carol's message comes while Bob is being looked up, and she is found first. -/
def twoChats : List OpenConversationsEvent :=
  [.delivery (.upload toBob), .delivery (.decide 0 .committed), .delivery (.handle 0),
   .delivery (.decide 0 .committed), .delivery (.handle 0),
   .snapshot [⟨.named "bob", toBob.message⟩] [⟨⟨0, 0⟩, some "alice"⟩],
   .delivery (.upload fromCarol), .delivery (.decide 1 .committed), .delivery (.handle 1),
   .delivery (.decide 1 .committed), .delivery (.handle 1),
   .delivery (.decideSummary 1 1 .committed),
   .snapshot [⟨.named "bob", toBob.message⟩, ⟨.named "carol", fromCarol.message⟩]
     [⟨⟨0, 0⟩, some "alice"⟩],
   .fetched 1 (some (ConversationFeed.sampleProfile "carol")),
   .fetched 0 (some (ConversationFeed.sampleProfile "bob")),
   .delivery (.decideSummary 0 0 .committed)]

theorem shows_recent_twoChats :
    let s := final (step (fun t => t.seconds) "alice") initial twoChats
    (s.feed.shown.map fun c => (c.user.uid, c.recentMessage.text)) =
        [("carol", "yo"), ("bob", "hi")] ∧
      (∀ c ∈ s.feed.shown, ∃ data,
        (s.delivery.summaries "alice" c.user.uid).getLast? = some data ∧
          ∃ ambient, c.recentMessage = Message.init ambient data) ∧
      ∀ p, s.delivery.summaries "alice" p ≠ [] → ∃ c ∈ s.feed.shown, c.user.uid = p := by
  have hrun : run (step (fun t => t.seconds) "alice") initial twoChats =
      some (final (step (fun t => t.seconds) "alice") initial twoChats) :=
    run_final (by decide)
  have hrecent := (shows_recent (fun t => t.seconds) "alice" hrun).2 (by decide) (by decide)
    (by decide)
  exact ⟨by decide, hrecent.2.2⟩

end OpenConversations

end WaffleChat
