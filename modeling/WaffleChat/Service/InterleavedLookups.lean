import WaffleChat.Service.LookupOrder
import WaffleChat.Service.SequentialLookups

/-!
# Lookups of different peers at the same time

The listener does not wait for the lookups it has started.  What is listed and what is being
looked up are taken together here: one entry for each document of the last snapshot, as long
as no document changes while its own lookup is outstanding.

Main results:

- Theorem `From.step`: an entry comes from a change of a snapshot.
- Theorem `Follows.snapshot`: a snapshot moves the entries of the changed peers on.
- Theorem `Follows.fetched`: a lookup lists what has been looked up.
- Theorem `Follows.lists`: without outstanding lookups the snapshot is listed.
-/

namespace WaffleChat

open EventSystem

namespace ConversationFeed

variable {Date : Type} [LinearOrder Date] (dateValue : Timestamp → Date) (uid : Uid)

/-- What is listed or being looked up: each peer with its message. -/
def entries (s : ConversationFeed) : List (Uid × Message) :=
  s.conversations.map (fun c => (c.user.uid, c.recentMessage)) ++ s.lookups

/-- The list last emitted. -/
def shown (s : ConversationFeed) : List Conversation :=
  s.emitted.getLast?.getD []

/-- The message is the one a document carries for the peer. -/
def CarriedBy (documents : List StoredDocument) (entry : Uid × Message) : Prop :=
  ∃ doc ∈ documents, doc.id = .named entry.1 ∧
    ∃ ambient, entry.2 = Message.init ambient doc.data

/-- One entry for each document, with its message. -/
structure Holds (documents : List StoredDocument) (entries : List (Uid × Message)) : Prop where
  nodup : (entries.map Prod.fst).Nodup
  carried : ∀ entry ∈ entries, CarriedBy documents entry
  complete : ∀ doc ∈ documents, ∃ entry ∈ entries, doc.id = .named entry.1

/-- The entries are those of the documents, and without outstanding lookups all of them are
shown, latest first. -/
structure Follows (documents : List StoredDocument) (s : ConversationFeed) : Prop where
  summaries : Summaries uid documents
  holds : Holds documents s.entries
  shown : s.lookups = [] → s.shown.Perm s.conversations ∧ Listener.Descending dateValue s.shown

theorem follows_initial : Follows dateValue uid [] initial := by
  refine ⟨⟨List.nodup_nil, by simp⟩, ⟨List.nodup_nil, ?_, by simp⟩, fun _ => ?_⟩
  · simp [entries, initial]
  · exact ⟨List.Perm.refl _, List.Pairwise.nil⟩

theorem Holds.perm {documents : List StoredDocument} {entries entries' : List (Uid × Message)}
    (h : Holds documents entries) (hperm : entries.Perm entries') : Holds documents entries' := by
  refine ⟨(hperm.map Prod.fst).nodup_iff.1 h.nodup, ?_, ?_⟩
  · intro entry hentry
    exact h.carried entry (hperm.mem_iff.2 hentry)
  · intro doc hdoc
    rcases h.complete doc hdoc with ⟨entry, hentry, hid⟩
    exact ⟨entry, hperm.mem_iff.1 hentry, hid⟩

/-! ## Where the entries come from -/

/-- What is listed or being looked up, and all that has been shown, satisfies `Q`. -/
structure From (Q : Uid × Message → Prop) (s : ConversationFeed) : Prop where
  entries : ∀ entry ∈ s.entries, Q entry
  emitted : ∀ list ∈ s.emitted, ∀ c ∈ list, Q (c.user.uid, c.recentMessage)

theorem From.mono {Q Q' : Uid × Message → Prop} {s : ConversationFeed} (h : s.From Q)
    (hQ : ∀ entry, Q entry → Q' entry) : s.From Q' :=
  ⟨fun entry hentry => hQ entry (h.entries entry hentry),
    fun list hlist c hc => hQ _ (h.emitted list hlist c hc)⟩

/-- Entries come from the changes of the snapshots, if profiles carry the ids they are looked up
by. -/
theorem From.step {Q : Uid × Message → Prop} {s s' : ConversationFeed} {e : FeedEvent}
    (h : s.From Q) (hown : s.OwnProfile e)
    (hchanges : ∀ changes, e = .snapshot (some changes) → ∀ change ∈ changes,
      Q (changedPeer uid change, Message.init change.1 change.2.document.data))
    (hstep : step dateValue uid s e = some s') : s'.From Q := by
  cases e with
  | snapshot changes =>
      cases changes with
      | none =>
          obtain rfl : s = s' := Option.some.inj hstep
          exact h
      | some changes =>
          obtain rfl : changes.foldl (onChange uid) s = s' := Option.some.inj hstep
          rw [foldl_onChange]
          refine ⟨fun entry hentry => ?_, h.emitted⟩
          rcases List.mem_append.1 hentry with hlisted | hlookedUp
          · rcases List.mem_map.1 hlisted with ⟨c, hc, rfl⟩
            refine h.entries _ (List.mem_append_left _ (List.mem_map_of_mem ?_))
            exact (List.mem_filter.1 hc).1
          · rcases List.mem_append.1 hlookedUp with hold | hnew
            · exact h.entries _ (List.mem_append_right _ hold)
            · rcases List.mem_map.1 hnew with ⟨change, hchange, rfl⟩
              exact hchanges changes rfl change hchange
  | fetched k data =>
      rcases step_fetched dateValue uid hstep with ⟨id, message, hget, rfl⟩
      have hrest : ∀ entry ∈ s.conversations.map (fun c => (c.user.uid, c.recentMessage)) ++
          s.lookups.eraseIdx k, Q entry := by
        intro entry hentry
        rcases List.mem_append.1 hentry with hlisted | hlookedUp
        · exact h.entries _ (List.mem_append_left _ hlisted)
        · exact h.entries _ (List.mem_append_right _ (List.mem_of_mem_eraseIdx hlookedUp))
      cases huser : data.bind User.init? with
      | none =>
          rw [show fetchUser data = [] by simp [fetchUser, huser]]
          exact ⟨hrest, h.emitted⟩
      | some user =>
          have hfound : Q (user.uid, message) := by
            rw [hown (id, message) hget user huser]
            exact h.entries _ (List.mem_append_right _ (List.mem_of_getElem? hget))
          rw [show fetchUser data = [.next (some user), .completed] by simp [fetchUser, huser]]
          refine ⟨List.forall_mem_cons.2 ⟨hfound, hrest⟩, ?_⟩
          intro list hlist c hc
          rcases List.mem_append.1 hlist with hold | hnew
          · exact h.emitted list hold c hc
          · rw [List.mem_singleton.1 hnew] at hc
            rcases List.mem_cons.1 ((List.perm_insertionSort _ _).mem_iff.1 hc) with rfl | hc
            · exact hfound
            · exact hrest _ (List.mem_append_left _ (List.mem_map_of_mem hc))

/-! ## A snapshot -/

variable {uid}

/-- Without removals no document is reported twice. -/
theorem nodup_changed {old new : List StoredDocument} (hnew : Summaries uid new)
    (hnothing : removedDocuments old new = []) :
    ((documentChanges old new).map fun change =>
      change.document.data.summaryPeer uid).Nodup := by
  have hdocuments : (documentChanges old new).map DocumentChange.document =
      addedDocuments old new ++ modifiedDocuments old new := by
    simp [documentChanges, hnothing, Function.comp_def]
  have hids : ((addedDocuments old new ++ modifiedDocuments old new).map
      StoredDocument.id).Nodup := by
    rw [List.map_append]
    refine List.nodup_append.2 ⟨hnew.1.sublist (List.filter_sublist.map _),
      hnew.1.sublist (List.filter_sublist.map _), ?_⟩
    rintro _ hadded _ hmodified rfl
    rcases List.mem_map.1 hadded with ⟨doc, hdoc, hsame⟩
    rcases List.mem_map.1 hmodified with ⟨doc', hdoc', rfl⟩
    have hfresh : doc.id ∉ old.map StoredDocument.id := by
      simpa using (List.mem_filter.1 hdoc).2
    have hknown : ∃ before ∈ old, before.id = doc'.id ∧ before.data ≠ doc'.data := by
      simpa using (List.mem_filter.1 hdoc').2
    rcases hknown with ⟨before, hbefore, hid, -⟩
    exact hfresh (List.mem_map.2 ⟨before, hbefore, hid.trans hsame.symm⟩)
  have hnames : (addedDocuments old new ++ modifiedDocuments old new).map StoredDocument.id =
      ((documentChanges old new).map fun change =>
        change.document.data.summaryPeer uid).map DocumentId.named := by
    rw [← hdocuments, List.map_map, List.map_map]
    refine List.map_congr_left fun change hchange => ?_
    exact hnew.2 _ (Listener.document_mem_of_change hnothing hchange)
  rw [hnames] at hids
  exact hids.of_map

/-- What a document carries for a peer without a change it still carries. -/
theorem CarriedBy.kept {old new : List StoredDocument} (hnew : Summaries uid new)
    (hnothing : removedDocuments old new = []) {entry : Uid × Message}
    (h : CarriedBy old entry) (hunchanged : ∀ change ∈ documentChanges old new,
      change.document.data.summaryPeer uid ≠ entry.1) : CarriedBy new entry := by
  rcases h with ⟨before, hbefore, hid, ambient, hmessage⟩
  have hkept : before.id ∈ new.map StoredDocument.id := by
    by_contra hgone
    have hmem : before ∈ removedDocuments old new :=
      List.mem_filter.2 ⟨hbefore, by simpa using hgone⟩
    rw [hnothing] at hmem
    cases hmem
  rcases List.mem_map.1 hkept with ⟨doc, hdoc, hsame⟩
  rcases Listener.mem_documentChanges_or old hdoc with ⟨change, hchange, rfl⟩ | ⟨-, hdata⟩
  · have hpeer := (hnew.2 _ hdoc).symm.trans (hsame.trans hid)
    exact absurd (DocumentId.named.inj hpeer) (hunchanged change hchange)
  · refine ⟨doc, hdoc, hsame.trans hid, ambient, ?_⟩
    rw [← hdata before hbefore hsame.symm]
    exact hmessage

/-- The entries of peers without a change are kept, and the changes add theirs. -/
theorem Holds.changed {old new : List StoredDocument} {entries : List (Uid × Message)}
    (h : Holds old entries) (hnew : Summaries uid new)
    (hnothing : removedDocuments old new = []) {changes : List (Ambient × DocumentChange)}
    (hchanges : changes.map Prod.snd = documentChanges old new) :
    Holds new (entries.filter (fun entry => entry.1 ∉ changes.map (changedPeer uid)) ++
      changes.map fun change =>
        (changedPeer uid change, Message.init change.1 change.2.document.data)) := by
  have hpeers : changes.map (changedPeer uid) = (documentChanges old new).map fun change =>
      change.document.data.summaryPeer uid := by
    rw [← hchanges, List.map_map]
    rfl
  have hmem : ∀ {change : DocumentChange}, change ∈ documentChanges old new →
      ∃ ambient, (ambient, change) ∈ changes := by
    intro change hchange
    rw [← hchanges] at hchange
    rcases List.mem_map.1 hchange with ⟨⟨ambient, _⟩, hpair, rfl⟩
    exact ⟨ambient, hpair⟩
  have hunchanged : ∀ entry : Uid × Message, entry.1 ∉ changes.map (changedPeer uid) →
      ∀ change ∈ documentChanges old new, change.document.data.summaryPeer uid ≠ entry.1 := by
    intro entry hentry change hchange heq
    rw [hpeers] at hentry
    exact hentry (List.mem_map.2 ⟨change, hchange, heq⟩)
  constructor
  · rw [List.map_append, List.map_map]
    refine List.nodup_append.2 ⟨h.nodup.sublist (List.filter_sublist.map _), ?_, ?_⟩
    · exact hpeers ▸ nodup_changed hnew hnothing
    · rintro peer hkept _ hadded rfl
      rcases List.mem_map.1 hkept with ⟨entry, hentry, rfl⟩
      exact (by simpa using (List.mem_filter.1 hentry).2 : entry.1 ∉ changes.map (changedPeer uid))
        hadded
  · intro entry hentry
    rcases List.mem_append.1 hentry with hkept | hadded
    · rcases List.mem_filter.1 hkept with ⟨hold, hother⟩
      exact (h.carried entry hold).kept hnew hnothing (hunchanged entry (by simpa using hother))
    · rcases List.mem_map.1 hadded with ⟨change, hchange, rfl⟩
      have hdoc : change.2.document ∈ new := by
        apply Listener.document_mem_of_change hnothing
        rw [← hchanges]
        exact List.mem_map_of_mem hchange
      exact ⟨_, hdoc, hnew.2 _ hdoc, change.1, rfl⟩
  · intro doc hdoc
    by_cases hchanged : doc.data.summaryPeer uid ∈ changes.map (changedPeer uid)
    · rcases List.mem_map.1 hchanged with ⟨change, hchange, hpeer⟩
      refine ⟨_, List.mem_append_right _ (List.mem_map_of_mem hchange), ?_⟩
      rw [hnew.2 doc hdoc, ← hpeer]
    · -- the document has not changed, so its entry was there before
      rcases Listener.mem_documentChanges_or old hdoc with ⟨change, hchange, rfl⟩ |
        ⟨⟨before, hbefore, hsame⟩, -⟩
      · rcases hmem hchange with ⟨ambient, hpair⟩
        exact absurd (List.mem_map_of_mem (f := changedPeer uid) hpair) hchanged
      · rcases h.complete before hbefore with ⟨entry, hentry, hid⟩
        have hpeer : entry.1 = doc.data.summaryPeer uid :=
          DocumentId.named.inj (hid.symm.trans (hsame.trans (hnew.2 doc hdoc)))
        refine ⟨entry, List.mem_append_left _ (List.mem_filter.2 ⟨hentry, ?_⟩), ?_⟩
        · simpa [hpeer] using hchanged
        · rw [← hsame, hid]

/-- A snapshot that removes nothing, and changes no document that is being looked up. -/
theorem Follows.snapshot {s s' : ConversationFeed} {old new : List StoredDocument}
    (h : Follows dateValue uid old s) (hnew : Summaries uid new)
    (hnothing : removedDocuments old new = []) {changes : List (Ambient × DocumentChange)}
    (hchanges : changes.map Prod.snd = documentChanges old new)
    (hturn : ∀ change ∈ changes, changedPeer uid change ∉ s.lookups.map Prod.fst)
    (hstep : step dateValue uid s (.snapshot (some changes)) = some s') :
    Follows dateValue uid new s' := by
  obtain rfl : changes.foldl (onChange uid) s = s' := Option.some.inj hstep
  rw [foldl_onChange]
  have hlookups : s.lookups.filter (fun entry => entry.1 ∉ changes.map (changedPeer uid)) =
      s.lookups := by
    refine List.filter_eq_self.2 fun entry hentry => ?_
    simp only [decide_eq_true_eq]
    intro hchanged
    rcases List.mem_map.1 hchanged with ⟨change, hchange, hpeer⟩
    exact hturn change hchange (hpeer ▸ List.mem_map_of_mem hentry)
  refine ⟨hnew, ?_, ?_⟩
  · have hheld := h.holds.changed hnew hnothing hchanges
    rw [entries, List.filter_append, hlookups, List.filter_map, List.append_assoc] at hheld
    exact hheld
  · intro hidle
    rcases List.append_eq_nil_iff.1 hidle with ⟨hnone, hunchanged⟩
    obtain rfl := List.map_eq_nil_iff.1 hunchanged
    simpa [retained] using h.shown hnone

/-! ## A lookup -/

/-- A lookup that finds the profile of its peer. -/
theorem Follows.fetched {s s' : ConversationFeed} {documents : List StoredDocument}
    (h : Follows dateValue uid documents s) {k : Nat} {data : Option Dictionary}
    (hfound : (data.bind User.init?).isSome) (hown : s.OwnProfile (.fetched k data))
    (hstep : step dateValue uid s (.fetched k data) = some s') :
    Follows dateValue uid documents s' := by
  rcases step_fetched dateValue uid hstep with ⟨id, message, hget, rfl⟩
  rcases Option.isSome_iff_exists.1 hfound with ⟨user, huser⟩
  have hfetch : fetchUser data = [.next (some user), .completed] := by simp [fetchUser, huser]
  rw [hfetch]
  refine ⟨h.summaries, h.holds.perm ?_, fun _ => ⟨?_, ?_⟩⟩
  · rcases List.getElem?_eq_some_iff.1 hget with ⟨hk, hat⟩
    have hlookups : ((id, message) :: s.lookups.eraseIdx k).Perm s.lookups := by
      rw [← hat]
      exact List.getElem_cons_eraseIdx_perm hk
    have hentry : (user.uid, message) = (id, message) := by
      rw [hown (id, message) hget user huser]
    refine (List.Perm.append_left _ hlookups.symm).trans (List.perm_middle.trans ?_)
    rw [← hentry]
    exact List.Perm.refl _
  · simp only [ConversationFeed.shown, onUser, List.foldl_cons, List.foldl_nil,
      List.getLast?_concat, Option.getD_some]
    exact List.perm_insertionSort _ _
  · simp only [ConversationFeed.shown, onUser, List.foldl_cons, List.foldl_nil,
      List.getLast?_concat, Option.getD_some]
    exact pairwise_sortedBy (fun c : Conversation => dateValue c.recentMessage.timestamp) _

/-- Without outstanding lookups the documents are listed. -/
theorem Follows.lists {s : ConversationFeed} {documents : List StoredDocument}
    (h : Follows dateValue uid documents s) (hidle : s.lookups = []) :
    Listener.Lists documents s.shown ∧ Listener.Descending dateValue s.shown := by
  rcases h.shown hidle with ⟨hperm, hdescending⟩
  refine ⟨Listener.Lists.perm hperm.symm ?_, hdescending⟩
  have hentries : s.entries = s.conversations.map fun c => (c.user.uid, c.recentMessage) := by
    rw [entries, hidle, List.append_nil]
  have hheld := h.holds
  rw [hentries] at hheld
  constructor
  · simpa [Function.comp_def] using hheld.nodup
  · intro c hc
    exact hheld.carried _ (List.mem_map_of_mem hc)
  · intro doc hdoc
    rcases hheld.complete doc hdoc with ⟨entry, hentry, hid⟩
    rcases List.mem_map.1 hentry with ⟨c, hc, rfl⟩
    exact ⟨c, hc, hid⟩

end ConversationFeed

end WaffleChat
