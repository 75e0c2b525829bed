import WaffleChat.Service.FetchConversations

/-!
# The conversation list after each snapshot

Snapshots of `messages/<me>/recent-messages` arrive one after another, and the lookup
of every change succeeds and completes before the next change is processed.  The
listener treats all kinds of change alike, so a removed document is listed again.

Main results:

- Theorem `run_lookups`: the list after the changes of a snapshot.
- Theorem `displays_step`: a snapshot is listed exactly if it removes no document.
- Theorem `displays_iff_nothing_removed`: every snapshot is listed exactly when no
  snapshot removes a document, in runs whose documents are named by their peers.
-/

namespace WaffleChat

open EventSystem

/-- The peer a summary document is attributed to by the listener of `uid`. -/
def Dictionary.summaryPeer (uid : Uid) (dic : Dictionary) : Uid :=
  let toId := (dic.string? "toId").getD ""
  if toId = uid then (dic.string? "fromId").getD "" else toId

theorem Message.peerId_init (uid : Uid) (ambient : Ambient) (dic : Dictionary) :
    (Message.init ambient dic).peerId uid = dic.summaryPeer uid :=
  rfl

/-- The documents of a snapshot: distinct, each named by its peer. -/
def Summaries (uid : Uid) (documents : List StoredDocument) : Prop :=
  (documents.map StoredDocument.id).Nodup ∧
    ∀ doc ∈ documents, doc.id = .named (doc.data.summaryPeer uid)

instance (uid : Uid) (documents : List StoredDocument) : Decidable (Summaries uid documents) :=
  inferInstanceAs (Decidable (_ ∧ _))

/-- A change as it is processed, and the profile its lookup finds. -/
structure Processed where
  change : DocumentChange
  ambient : Ambient
  profile : Dictionary
deriving DecidableEq, Repr

/-- The next snapshot, with what is read for each of its changes. -/
structure Snapshot where
  documents : List StoredDocument
  reads : List (Ambient × Dictionary)
deriving DecidableEq, Repr

/-- The documents of the last snapshot, and the feed that listens to the query. -/
structure Listener where
  documents : List StoredDocument
  feed : ConversationFeed
deriving DecidableEq, Repr

namespace Listener

variable {Date : Type} [LinearOrder Date] (dateValue : Timestamp → Date) (uid : Uid)

/-- No documents, nothing listed. -/
def initial : Listener where
  documents := []
  feed := .initial

/-- A change is processed, and its lookup completes. -/
def lookup (p : Processed) : List FeedEvent :=
  [.snapshot (some [(p.ambient, p.change)]), .fetched 0 (some p.profile)]

/-- The changes of a snapshot with what is read for them. -/
def processed (documents : List StoredDocument) (snapshot : Snapshot) : List Processed :=
  ((documentChanges documents snapshot.documents).zip snapshot.reads).map
    fun (change, ambient, profile) => ⟨change, ambient, profile⟩

/-- The next snapshot; every lookup finds a profile. -/
def step (s : Listener) (snapshot : Snapshot) : Option Listener := do
  guard (snapshot.reads.length = (documentChanges s.documents snapshot.documents).length)
  guard (∀ read ∈ snapshot.reads, (User.init? read.2).isSome)
  let feed ← run (ConversationFeed.step dateValue uid) s.feed
    ((processed s.documents snapshot).flatMap lookup)
  return ⟨snapshot.documents, feed⟩

/-- The documents of the snapshot are distinct and named by their peers, and the profiles that
are found carry the ids looked up. -/
def Keyed (s : Listener) (snapshot : Snapshot) : Prop :=
  Summaries uid snapshot.documents ∧
    ∀ p ∈ processed s.documents snapshot, ∀ user ∈ User.init? p.profile,
      user.uid = p.change.document.data.summaryPeer uid

instance (s : Listener) (snapshot : Snapshot) : Decidable (Keyed uid s snapshot) :=
  inferInstanceAs (Decidable (_ ∧ _))

/-- The list last emitted. -/
def shown (s : Listener) : List Conversation :=
  s.feed.emitted.getLast?.getD []

/-- One conversation for each document, with the message of that document. -/
structure Lists (documents : List StoredDocument) (conversations : List Conversation) :
    Prop where
  nodup : (conversations.map fun c => c.user.uid).Nodup
  message : ∀ c ∈ conversations, ∃ doc ∈ documents, doc.id = .named c.user.uid ∧
    ∃ ambient, c.recentMessage = Message.init ambient doc.data
  complete : ∀ doc ∈ documents, ∃ c ∈ conversations, doc.id = .named c.user.uid

/-- Latest conversations first. -/
def Descending (conversations : List Conversation) : Prop :=
  conversations.Pairwise fun c c' =>
    dateValue c'.recentMessage.timestamp ≤ dateValue c.recentMessage.timestamp

/-- The list last emitted is that of the last snapshot, latest conversations first. -/
def Displays (s : Listener) : Prop :=
  Lists s.documents s.shown ∧ Descending dateValue s.shown

/-! ## The changes of one snapshot -/

/-- No lookup is outstanding, and the list last emitted shows the conversations. -/
structure Settled (feed : ConversationFeed) : Prop where
  lookups_eq : feed.lookups = []
  shown : (feed.emitted.getLast?.getD []).Perm feed.conversations
  descending : Descending dateValue (feed.emitted.getLast?.getD [])
  nodup : feed.peers.Nodup

/-- The feed after a change and its lookup. -/
theorem run_lookup {s s' : ConversationFeed} {p : Processed}
    (hrun : run (ConversationFeed.step dateValue uid) s (lookup p) = some s')
    (hprofile : ∃ user ∈ User.init? p.profile,
      user.uid = p.change.document.data.summaryPeer uid) (hs : Settled dateValue s) :
    Settled dateValue s' ∧ ∃ user : User,
      user.uid = p.change.document.data.summaryPeer uid ∧
      s'.conversations = ⟨user, Message.init p.ambient p.change.document.data⟩ ::
        s.conversations.filter fun c => c.user.uid ≠ user.uid := by
  rcases hprofile with ⟨user, huser, huid⟩
  rcases run_cons_eq_some.1 hrun with ⟨s₁, hs₁, hrest⟩
  rcases run_cons_eq_some.1 hrest with ⟨s₂, hs₂, hnil⟩
  obtain rfl : s₂ = s' := Option.some.inj hnil
  obtain rfl : s.onChange uid (p.ambient, p.change) = s₁ := Option.some.inj hs₁
  rcases ConversationFeed.step_fetched dateValue uid hs₂ with ⟨id, message, hget, hs'⟩
  have hlookups : (s.onChange uid (p.ambient, p.change)).lookups =
      [(p.change.document.data.summaryPeer uid,
        Message.init p.ambient p.change.document.data)] := by
    simp only [ConversationFeed.onChange, hs.lookups_eq, List.nil_append, Message.peerId_init]
  rw [hlookups] at hget
  obtain ⟨rfl, rfl⟩ := Prod.mk.inj (Option.some.inj hget)
  have hfetch : fetchUser (some p.profile) = [.next (some user), .completed] := by
    rw [fetchUser, Option.bind_some, Option.mem_def.1 huser]
  have hconversations : s₂.conversations =
      ⟨user, Message.init p.ambient p.change.document.data⟩ ::
        s.conversations.filter fun c => c.user.uid ≠ user.uid := by
    have hdropped := ConversationFeed.conversations_onChange uid s (p.ambient, p.change)
    rw [hs', hfetch, huid]
    exact congrArg (_ :: ·) hdropped
  have hemitted : s₂.emitted.getLast?.getD [] = sortedBy (fun a b =>
      decide (dateValue b.recentMessage.timestamp < dateValue a.recentMessage.timestamp))
        s₂.conversations := by
    rw [hs', hfetch]
    simp [ConversationFeed.onUser]
  refine ⟨?_, user, huid, hconversations⟩
  constructor
  · rw [hs', hfetch]
    simp [ConversationFeed.onUser, hlookups]
  · rw [hemitted]
    exact List.perm_insertionSort _ _
  · rw [hemitted]
    exact pairwise_sortedBy (fun c : Conversation => dateValue c.recentMessage.timestamp) _
  · rw [ConversationFeed.peers, hconversations, List.map_cons, List.nodup_cons]
    refine ⟨by simp, ?_⟩
    exact hs.nodup.sublist (List.filter_sublist.map _)

/-- The list after a sequence of changes, each with its lookup. -/
structure Updated (ps : List Processed) (s s' : ConversationFeed) : Prop where
  settled : Settled dateValue s'
  origin : ∀ c ∈ s'.conversations,
    (c ∈ s.conversations ∧
      ∀ p ∈ ps, p.change.document.data.summaryPeer uid ≠ c.user.uid) ∨
    ∃ p ∈ ps, p.change.document.data.summaryPeer uid = c.user.uid ∧
      ∃ ambient, c.recentMessage = Message.init ambient p.change.document.data
  kept : ∀ c ∈ s.conversations, ∃ c' ∈ s'.conversations, c'.user.uid = c.user.uid
  added : ∀ p ∈ ps, ∃ c ∈ s'.conversations,
    c.user.uid = p.change.document.data.summaryPeer uid

/-- Every change lists its peer with its message and leaves the other peers alone. -/
theorem run_lookups {s s' : ConversationFeed} {ps : List Processed}
    (hrun : run (ConversationFeed.step dateValue uid) s (ps.flatMap lookup) = some s')
    (hprofile : ∀ p ∈ ps, ∃ user ∈ User.init? p.profile,
      user.uid = p.change.document.data.summaryPeer uid) (hs : Settled dateValue s) :
    Updated dateValue uid ps s s' := by
  induction ps generalizing s with
  | nil =>
      obtain rfl : s = s' := Option.some.inj hrun
      exact ⟨hs, fun c hc => Or.inl ⟨hc, by simp⟩, fun c hc => ⟨c, hc, rfl⟩, by simp⟩
  | cons p ps ih =>
      rw [List.flatMap_cons, run_append_eq_some] at hrun
      rcases hrun with ⟨s₁, hhead, htail⟩
      rcases run_lookup dateValue uid hhead (hprofile p List.mem_cons_self) hs with
        ⟨hs₁, user, huid, hconversations⟩
      have hrest := ih htail (fun q hq => hprofile q (List.mem_cons_of_mem p hq)) hs₁
      constructor
      · exact hrest.settled
      · intro c hc
        rcases hrest.origin c hc with ⟨hc₁, hothers⟩ | ⟨q, hq, hpeer, hmessage⟩
        · rw [hconversations] at hc₁
          rcases List.mem_cons.1 hc₁ with rfl | hc₁
          · exact Or.inr ⟨p, List.mem_cons_self, huid.symm, p.ambient, rfl⟩
          · rcases List.mem_filter.1 hc₁ with ⟨hold, hne⟩
            refine Or.inl ⟨hold, List.forall_mem_cons.2 ⟨?_, hothers⟩⟩
            rw [← huid]
            exact fun heq => (by simpa using hne : c.user.uid ≠ user.uid) heq.symm
        · exact Or.inr ⟨q, List.mem_cons_of_mem p hq, hpeer, hmessage⟩
      · intro c hc
        by_cases hpeer : c.user.uid = user.uid
        · rcases hrest.kept _ (by rw [hconversations]; exact List.mem_cons_self) with
            ⟨c', hc', hsame⟩
          exact ⟨c', hc', hsame.trans hpeer.symm⟩
        · refine hrest.kept c ?_
          rw [hconversations]
          exact List.mem_cons_of_mem _ (List.mem_filter.2 ⟨hc, by simpa using hpeer⟩)
      · refine List.forall_mem_cons.2 ⟨?_, hrest.added⟩
        rcases hrest.kept _ (by rw [hconversations]; exact List.mem_cons_self) with
          ⟨c', hc', hsame⟩
        exact ⟨c', hc', hsame.trans huid⟩

/-! ## Snapshots -/

theorem map_change_processed {documents : List StoredDocument} {snapshot : Snapshot}
    (h : snapshot.reads.length = (documentChanges documents snapshot.documents).length) :
    (processed documents snapshot).map Processed.change =
      documentChanges documents snapshot.documents := by
  rw [processed, List.map_map]
  exact List.map_fst_zip (le_of_eq h.symm)

/-- What a snapshot does. -/
theorem step_eq_some {s s' : Listener} {snapshot : Snapshot}
    (hstep : step dateValue uid s snapshot = some s') (hkeyed : Keyed uid s snapshot)
    (hs : Settled dateValue s.feed) :
    s'.documents = snapshot.documents ∧ Summaries uid s'.documents ∧
      (processed s.documents snapshot).map Processed.change =
        documentChanges s.documents s'.documents ∧
      Updated dateValue uid (processed s.documents snapshot) s.feed s'.feed := by
  simp only [step, Option.bind_eq_bind, Option.bind_eq_some_iff, Option.guard_eq_some',
    Option.pure_def, Option.some.injEq] at hstep
  rcases hstep with ⟨-, hlength, -, hreads, feed, hrun, rfl⟩
  refine ⟨rfl, hkeyed.1, map_change_processed hlength, run_lookups dateValue uid hrun ?_ hs⟩
  intro p hp
  have hfinds := hkeyed.2 p hp
  rcases List.mem_map.1 hp with ⟨⟨change, ambient, profile⟩, hmem, rfl⟩
  rcases Option.isSome_iff_exists.1 (hreads (ambient, profile) (List.of_mem_zip hmem).2) with
    ⟨user, huser⟩
  exact ⟨user, huser, hfinds user huser⟩

/-- Only the members of the list count. -/
theorem Lists.perm {documents : List StoredDocument} {l l' : List Conversation} (h : l.Perm l')
    (hlists : Lists documents l) : Lists documents l' := by
  constructor
  · exact ((h.map _).nodup_iff).1 hlists.nodup
  · intro c hc
    exact hlists.message c (h.mem_iff.2 hc)
  · intro doc hdoc
    rcases hlists.complete doc hdoc with ⟨c, hc, hname⟩
    exact ⟨c, h.mem_iff.1 hc, hname⟩

theorem Settled.displays_iff {s : Listener} (h : Settled dateValue s.feed) :
    Displays dateValue s ↔ Lists s.documents s.feed.conversations :=
  ⟨fun hdisplays => hdisplays.1.perm h.shown,
    fun hlists => ⟨hlists.perm h.shown.symm, h.descending⟩⟩

/-- A document of the new snapshot that the old one had with the same data is not
reported; the others are. -/
theorem mem_documentChanges_or (old : List StoredDocument) {new : List StoredDocument}
    {doc : StoredDocument} (hdoc : doc ∈ new) :
    (∃ change ∈ documentChanges old new, change.document = doc) ∨
      (∃ before ∈ old, before.id = doc.id) ∧
        ∀ before ∈ old, before.id = doc.id → before.data = doc.data := by
  by_cases hadded : doc.id ∈ old.map StoredDocument.id
  · by_cases hmodified : ∃ before ∈ old, before.id = doc.id ∧ before.data ≠ doc.data
    · refine Or.inl ⟨⟨.modified, doc⟩, List.mem_append_right _ ?_, rfl⟩
      exact List.mem_map_of_mem (List.mem_filter.2 ⟨hdoc, by simpa using hmodified⟩)
    · refine Or.inr ⟨by simpa using hadded, ?_⟩
      intro before hbefore hid
      by_contra hdata
      exact hmodified ⟨before, hbefore, hid, hdata⟩
  · refine Or.inl ⟨⟨.added, doc⟩, List.mem_append_left _ (List.mem_append_right _ ?_), rfl⟩
    exact List.mem_map_of_mem (List.mem_filter.2 ⟨hdoc, by simpa using hadded⟩)

/-- Without removals every reported document is one of the new snapshot. -/
theorem document_mem_of_change {old new : List StoredDocument}
    (h : removedDocuments old new = []) {change : DocumentChange}
    (hchange : change ∈ documentChanges old new) : change.document ∈ new := by
  rw [documentChanges, h, List.map_nil, List.nil_append] at hchange
  rcases List.mem_append.1 hchange with hchange | hchange
  · rcases List.mem_map.1 hchange with ⟨doc, hdoc, rfl⟩
    exact (List.mem_filter.1 hdoc).1
  · rcases List.mem_map.1 hchange with ⟨doc, hdoc, rfl⟩
    exact (List.mem_filter.1 hdoc).1

/-- A snapshot that removes nothing is listed. -/
theorem Lists.updated {old new : List StoredDocument} {ps : List Processed}
    {s s' : ConversationFeed} (hlists : Lists old s.conversations) (hnew : Summaries uid new)
    (hps : ps.map Processed.change = documentChanges old new)
    (hupdated : Updated dateValue uid ps s s') (hnothing : removedDocuments old new = []) :
    Lists new s'.conversations := by
  have hname : ∀ doc ∈ new, doc.id = .named (doc.data.summaryPeer uid) := hnew.2
  constructor
  · exact hupdated.settled.nodup
  · intro c hc
    rcases hupdated.origin c hc with ⟨hold, hothers⟩ | ⟨p, hp, hpeer, ambient, hmessage⟩
    · rcases hlists.message c hold with ⟨before, hbefore, hid, ambient, hmessage⟩
      have hkept : before.id ∈ new.map StoredDocument.id := by
        by_contra hgone
        have hmem : before ∈ removedDocuments old new :=
          List.mem_filter.2 ⟨hbefore, by simpa using hgone⟩
        rw [hnothing] at hmem
        cases hmem
      rcases List.mem_map.1 hkept with ⟨doc, hdoc, hsame⟩
      rcases mem_documentChanges_or old hdoc with ⟨change, hchange, rfl⟩ | ⟨-, hdata⟩
      · rw [← hps] at hchange
        rcases List.mem_map.1 hchange with ⟨p, hp, rfl⟩
        have hpeer := (hname _ hdoc).symm.trans (hsame.trans hid)
        exact absurd (DocumentId.named.inj hpeer) (hothers p hp)
      · refine ⟨doc, hdoc, hsame.trans hid, ambient, ?_⟩
        rw [← hdata before hbefore hsame.symm]
        exact hmessage
    · have hdoc : p.change.document ∈ new := by
        apply document_mem_of_change hnothing
        rw [← hps]
        exact List.mem_map_of_mem hp
      exact ⟨_, hdoc, by rw [hname _ hdoc, hpeer], ambient, hmessage⟩
  · intro doc hdoc
    rcases mem_documentChanges_or old hdoc with ⟨change, hchange, rfl⟩ |
      ⟨⟨before, hbefore, hsame⟩, -⟩
    · rw [← hps] at hchange
      rcases List.mem_map.1 hchange with ⟨p, hp, rfl⟩
      rcases hupdated.added p hp with ⟨c, hc, huid⟩
      exact ⟨c, hc, by rw [hname _ hdoc, huid]⟩
    · rcases hlists.complete before hbefore with ⟨c, hc, hid⟩
      rcases hupdated.kept c hc with ⟨c', hc', huid⟩
      exact ⟨c', hc', by rw [huid, ← hsame, hid]⟩

/-- A removed document is listed again. -/
theorem Updated.not_lists {old new : List StoredDocument} {ps : List Processed}
    {s s' : ConversationFeed} (hupdated : Updated dateValue uid ps s s')
    (hold : Summaries uid old) (hps : ps.map Processed.change = documentChanges old new)
    {doc : StoredDocument} (hdoc : doc ∈ removedDocuments old new) :
    ¬ Lists new s'.conversations := by
  intro hlists
  rcases List.mem_filter.1 hdoc with ⟨hbefore, hgone⟩
  have hchange : DocumentChange.mk .removed doc ∈ documentChanges old new :=
    List.mem_append_left _ (List.mem_append_left _ (List.mem_map_of_mem hdoc))
  rw [← hps] at hchange
  rcases List.mem_map.1 hchange with ⟨p, hp, hp'⟩
  rcases hupdated.added p hp with ⟨c, hc, huid⟩
  rcases hlists.message c hc with ⟨after, hafter, hid, -⟩
  have hname : doc.id = .named c.user.uid := by
    rw [hold.2 doc hbefore, huid, hp']
  simp only [decide_eq_true_eq] at hgone
  exact hgone (List.mem_map.2 ⟨after, hafter, hid.trans hname.symm⟩)

/-- A snapshot after one that was listed is listed exactly if it removes no document. -/
theorem displays_step {s s' : Listener} {snapshot : Snapshot} (hs : Settled dateValue s.feed)
    (hsummaries : Summaries uid s.documents) (hdisplays : Displays dateValue s)
    (hkeyed : Keyed uid s snapshot) (hstep : step dateValue uid s snapshot = some s') :
    Displays dateValue s' ↔ removedDocuments s.documents snapshot.documents = [] := by
  rcases step_eq_some dateValue uid hstep hkeyed hs with ⟨hdocuments, hnew, hps, hupdated⟩
  rw [hupdated.settled.displays_iff, ← hdocuments]
  constructor
  · intro hlists
    rw [List.eq_nil_iff_forall_not_mem]
    intro doc hdoc
    exact hupdated.not_lists dateValue uid hsummaries hps hdoc hlists
  · intro hnothing
    exact (hs.displays_iff.1 hdisplays).updated dateValue uid hnew hps hupdated hnothing

/-- **The list of the snapshot.**  When every lookup succeeds before the next change is
processed, documents are named by their peers and profiles carry the ids looked up, the list
last emitted is that of the last snapshot throughout a run exactly when no snapshot removes a
document. -/
theorem displays_iff_nothing_removed {snapshots : List Snapshot} {s : Listener}
    (hrun : run (step dateValue uid) initial snapshots = some s)
    (hkeyed : StepsMeet (step dateValue uid) (Keyed uid) initial snapshots) :
    Always (step dateValue uid) (Displays dateValue) initial snapshots ↔
      StepsMeet (step dateValue uid)
        (fun s snapshot => removedDocuments s.documents snapshot.documents = [])
        initial snapshots := by
  refine always_iff_stepsMeet_of
    (I := fun s => Settled dateValue s.feed ∧ Summaries uid s.documents) ?_ ?_ hkeyed ?_ ?_ hrun
  · rintro a e b hkey ⟨hs, -⟩ hab
    rcases step_eq_some dateValue uid hab hkey hs with ⟨-, hnew, -, hupdated⟩
    exact ⟨hupdated.settled, hnew⟩
  · rintro a e b hkey ⟨hs, hsummaries⟩ hdisplays hab
    exact displays_step dateValue uid hs hsummaries hdisplays hkey hab
  · exact ⟨⟨rfl, List.Perm.refl _, List.Pairwise.nil, List.nodup_nil⟩, List.nodup_nil,
      by simp [initial]⟩
  · exact ⟨⟨List.nodup_nil, by simp [shown, initial, ConversationFeed.initial], by simp [initial]⟩,
      List.Pairwise.nil⟩

open ConversationFeed (summaryOfBob profileOfBob)

/-- A snapshot with the given message of `bob`. -/
def snapshotOfBob (text : String) : Snapshot where
  documents := [(summaryOfBob text).2.document]
  reads := [((summaryOfBob text).1, profileOfBob)]

theorem displays_iff_nothing_removed_modified :
    Always (step (fun t => t.seconds) "alice") (Displays fun t => t.seconds) initial
      [snapshotOfBob "one", snapshotOfBob "two"] :=
  (displays_iff_nothing_removed (fun t => t.seconds) "alice" (run_final rfl)
    (by decide)).2 (by decide)

/-- The first message of `bob` is rejected and its summary removed again. -/
def removedSummary : List Snapshot :=
  [snapshotOfBob "one", ⟨[], (snapshotOfBob "one").reads⟩]

/-- The removed conversation is still listed. -/
theorem not_displays_of_removedSummary :
    ∃ s, run (step (fun t => t.seconds) "alice") initial removedSummary = some s ∧
      StepsMeet (step (fun t => t.seconds) "alice") (Keyed "alice") initial removedSummary ∧
      ¬ Displays (fun t => t.seconds) s := by
  refine ⟨_, run_final rfl, by decide, ?_⟩
  rintro ⟨hlists, -⟩
  rcases hlists.message _ (List.mem_of_getElem? (i := 0) rfl) with ⟨doc, hdoc, -⟩
  cases hdoc

end Listener

end WaffleChat
