import Mathlib.Data.List.Perm.Basic
import WaffleChat.Library.KeySorted
import WaffleChat.Service.FetchConversations
import WaffleChat.Service.UploadMessage

/-!
# The order in which lookups complete

A batch of changes starts one lookup for each, and the lookups complete in any order.
Each completion puts its entry in front of the others, sorts all of them and emits the
result, so the lists emitted on the way depend on the order, but not the last one.

Main results:

- Theorem `Completing.step`: how far the batch has come after each completed lookup.
- Theorem `last_emitted`: the list emitted last does not depend on the order.
-/

namespace WaffleChat

open EventSystem KeySorted Observers

namespace ConversationFeed

variable {Date : Type} [LinearOrder Date] (dateValue : Timestamp → Date) (uid : Uid)
variable (profile : Uid → User)

/-- The peer of a change. -/
def changedPeer (change : Ambient × DocumentChange) : Uid :=
  (Message.init change.1 change.2.document.data).peerId uid

/-- The entry a change leads to once its lookup has found the profile of its peer. -/
def newEntry (change : Ambient × DocumentChange) : Conversation where
  user := profile (changedPeer uid change)
  recentMessage := Message.init change.1 change.2.document.data

/-- The entry a completed lookup leads to. -/
def foundEntry (lookup : Uid × Message) : Conversation where
  user := profile lookup.1
  recentMessage := lookup.2

/-- The entries of peers without a change. -/
def retained (s : ConversationFeed) (changes : List (Ambient × DocumentChange)) :
    List Conversation :=
  s.conversations.filter fun c => c.user.uid ∉ changes.map (changedPeer uid)

/-- An outstanding lookup completes, with the profile of its peer. -/
def FindsProfile (s : ConversationFeed) : FeedEvent → Prop
  | .snapshot _ => False
  | .fetched k data => ∀ lookup ∈ s.lookups[k]?,
      data.bind User.init? = some (profile lookup.1) ∧ (profile lookup.1).uid = lookup.1

instance (s : ConversationFeed) : DecidablePred (s.FindsProfile profile)
  | .snapshot _ => inferInstanceAs (Decidable False)
  | .fetched k data =>
      inferInstanceAs (Decidable (∀ lookup ∈ s.lookups[k]?,
        data.bind User.init? = some (profile lookup.1) ∧ (profile lookup.1).uid = lookup.1))

/-- When the message of a conversation was sent. -/
def sentDate (c : Conversation) : Date :=
  dateValue c.recentMessage.timestamp

/-- The list shown for some entries. -/
def sortedEntries (conversations : List Conversation) : List Conversation :=
  sortedBy (fun a b => decide (sentDate dateValue b < sentDate dateValue a)) conversations

/-! ## The batch -/

/-- A batch drops the entries of its peers and starts a lookup for each change. -/
theorem foldl_onChange (s : ConversationFeed) (changes : List (Ambient × DocumentChange)) :
    changes.foldl (onChange uid) s =
      { s with
        conversations := s.retained uid changes
        lookups := s.lookups ++ changes.map fun change =>
          (changedPeer uid change, Message.init change.1 change.2.document.data) } := by
  induction changes generalizing s with
  | nil => simp [retained]
  | cons change changes ih =>
      have hhead : s.onChange uid change =
          { s with
            conversations := s.conversations.filter fun c =>
              c.user.uid ≠ changedPeer uid change
            lookups := s.lookups ++ [(changedPeer uid change,
              Message.init change.1 change.2.document.data)] } := by
        have hkept : (s.onChange uid change).conversations = s.conversations.filter fun c =>
            c.user.uid ≠ changedPeer uid change := conversations_onChange uid s change
        rw [← hkept]
        rfl
      rw [List.foldl_cons, ih, hhead]
      simp only [retained, List.filter_filter, List.map_cons, List.append_assoc,
        List.singleton_append, List.mem_cons, not_or]
      congr 2
      funext c
      simp [Bool.and_comm]

/-! ## Completed lookups -/

/-- How far the lookups of `start` have come: `done` are the entries of those completed,
and `lists` what has been emitted for them. -/
structure Completing (start : ConversationFeed) (done : List Conversation)
    (lists : List (List Conversation)) (s : ConversationFeed) : Prop where
  conversations_eq : s.conversations = done ++ start.conversations
  perm : (done ++ s.lookups.map (foundEntry profile)).Perm (start.lookups.map (foundEntry profile))
  peers : (done.map (fun c => c.user.uid) ++ s.lookups.map Prod.fst).Perm
    (start.lookups.map Prod.fst)
  emitted_eq : s.emitted = start.emitted ++ lists
  length_eq : lists.length = done.length
  last_eq : ∀ last ∈ lists.getLast?, last = sortedEntries dateValue s.conversations

theorem Completing.refl (start : ConversationFeed) :
    Completing dateValue profile start [] [] start :=
  ⟨rfl, List.Perm.refl _, List.Perm.refl _, (List.append_nil _).symm, rfl, by simp⟩

/-- A lookup completes. -/
theorem Completing.step {start s s' : ConversationFeed} {done : List Conversation}
    {lists : List (List Conversation)} {e : FeedEvent}
    (h : Completing dateValue profile start done lists s) (he : s.FindsProfile profile e)
    (hstep : ConversationFeed.step dateValue uid s e = some s') :
    ∃ done' lists', Completing dateValue profile start done' lists' s' := by
  cases e with
  | snapshot changes => exact he.elim
  | fetched k data =>
      rcases step_fetched dateValue uid hstep with ⟨id, message, hget, rfl⟩
      obtain ⟨huser, hown⟩ : data.bind User.init? = some (profile id) ∧ (profile id).uid = id :=
        he (id, message) hget
      have hfetch : fetchUser data = [.next (some (profile id)), .completed] := by
        simp [fetchUser, huser]
      rcases List.getElem?_eq_some_iff.1 hget with ⟨hk, hat⟩
      have hlookups : ((id, message) :: s.lookups.eraseIdx k).Perm s.lookups := by
        rw [← hat]
        exact List.getElem_cons_eraseIdx_perm hk
      refine ⟨⟨profile id, message⟩ :: done,
        lists ++ [sortedEntries dateValue (⟨profile id, message⟩ :: s.conversations)], ?_⟩
      rw [hfetch]
      constructor
      · simp [onUser, h.conversations_eq]
      · refine List.Perm.trans ?_ h.perm
        refine List.perm_middle.symm.trans (List.Perm.append_left done ?_)
        exact hlookups.map (foundEntry profile)
      · refine List.Perm.trans ?_ h.peers
        rw [List.map_cons, hown]
        refine List.perm_middle.symm.trans (List.Perm.append_left _ ?_)
        exact hlookups.map Prod.fst
      · rw [← List.append_assoc, ← h.emitted_eq]
        rfl
      · simp [h.length_eq]
      · simp [onUser]

/-- The state of the batch after a run of completed lookups. -/
theorem completing_run {start s : ConversationFeed} {es : List FeedEvent}
    (hes : StepsMeet (step dateValue uid) (FindsProfile profile) start es)
    (hrun : run (step dateValue uid) start es = some s) :
    ∃ done lists, Completing dateValue profile start done lists s := by
  refine run_invariant_of_stepsMeet
    (P := fun s => ∃ done lists, Completing dateValue profile start done lists s) ?_ hes
    ⟨[], [], Completing.refl dateValue profile start⟩ hrun
  rintro a e b he ⟨done, lists, h⟩ hab
  exact h.step dateValue uid profile he hab

/-! ## The list emitted last -/

/-- Entries with distinct dates are shown in one order only. -/
theorem sortedEntries_eq_of_perm {l expected : List Conversation} (hperm : l.Perm expected)
    (hsorted : expected.Pairwise fun a b => sentDate dateValue b < sentDate dateValue a) :
    sortedEntries dateValue l = expected := by
  have hshown : (sortedEntries dateValue l).Perm expected :=
    (List.perm_insertionSort _ l).trans hperm
  have hstrict : StrictlySorted (fun c => OrderDual.toDual (sentDate dateValue c)) expected :=
    hsorted
  exact eq_of_perm (pairwise_sortedBy (sentDate dateValue) l) hstrict hshown

/-- Completed lookups of distinct peers leave one entry for each peer. -/
theorem Completing.unique {start s : ConversationFeed} {done : List Conversation}
    {lists : List (List Conversation)} (h : Completing dateValue profile start done lists s)
    (hunique : Unique start.conversations) (hcomplete : s.lookups = [])
    (hpeers : (start.lookups.map Prod.fst).Nodup)
    (hdropped : ∀ c ∈ start.conversations, c.user.uid ∉ start.lookups.map Prod.fst) :
    Unique s.conversations := by
  have hdone : (done.map fun c => c.user.uid).Perm (start.lookups.map Prod.fst) := by
    simpa [hcomplete] using h.peers
  rw [Unique, h.conversations_eq, List.map_append]
  refine List.nodup_append.2 ⟨hdone.nodup_iff.2 hpeers, hunique, ?_⟩
  intro id hid _ hold heq
  rcases List.mem_map.1 hold with ⟨c, hc, rfl⟩
  exact hdropped c hc (heq ▸ hdone.mem_iff.1 hid)

/-- **The order of the lookups does not matter.**  From a state without outstanding
lookups and with one entry for each peer, a batch of changes of distinct peers after which
all dates are distinct, all of whose lookups succeed, has emitted one list for each lookup.
The last of them is the same whatever the order: the retained entries and the new ones, one
for each peer, latest first.  The kind of a change is not looked at. -/
theorem last_emitted {s : ConversationFeed} (hidle : s.lookups = [])
    (hunique : Unique s.conversations) {changes : List (Ambient × DocumentChange)}
    (hpeers : (changes.map (changedPeer uid)).Nodup)
    (hdates : ((s.retained uid changes ++ changes.map (newEntry uid profile)).map
      (sentDate dateValue)).Nodup) :
    ∃ expected : List Conversation,
      expected.Perm (s.retained uid changes ++ changes.map (newEntry uid profile)) ∧
      (expected.Pairwise fun a b => sentDate dateValue b < sentDate dateValue a) ∧
      ∀ start es s', step dateValue uid s (.snapshot (some changes)) = some start →
        StepsMeet (step dateValue uid) (FindsProfile profile) start es →
        run (step dateValue uid) start es = some s' → s'.lookups = [] →
        ∃ lists, s'.emitted = s.emitted ++ lists ∧ lists.length = changes.length ∧
          ∀ last ∈ lists.getLast?, last = expected ∧ Unique last := by
  have hkeys : ((s.retained uid changes ++ changes.map (newEntry uid profile)).map
      fun c => OrderDual.toDual (sentDate dateValue c)).Nodup := hdates
  rcases exists_strictlySorted hkeys with ⟨expected, hexpected, hsorted⟩
  refine ⟨expected, hexpected, hsorted, ?_⟩
  intro start es s' hsnapshot hes hrun hcomplete
  obtain rfl : changes.foldl (onChange uid) s = start := Option.some.inj hsnapshot
  rcases completing_run dateValue uid profile hes hrun with ⟨done, lists, h⟩
  rw [foldl_onChange] at h
  have hdone : done.Perm (changes.map (newEntry uid profile)) := by
    have hperm := h.perm
    rw [hcomplete, hidle, List.map_nil, List.append_nil, List.nil_append, List.map_map] at hperm
    exact hperm
  have hall : s'.conversations.Perm expected := by
    rw [h.conversations_eq]
    exact (hdone.append_right _).trans (List.perm_append_comm.trans hexpected.symm)
  refine ⟨lists, h.emitted_eq, ?_, ?_⟩
  · rw [h.length_eq, hdone.length_eq, List.length_map]
  · intro last hlast
    have hone : Unique s'.conversations := by
      refine h.unique dateValue profile (hunique.sublist (List.filter_sublist.map _)) hcomplete
        ?_ ?_
      · simpa [hidle, Function.comp_def] using hpeers
      · intro c hc
        simpa [hidle, Function.comp_def] using (List.mem_filter.1 hc).2
    rw [h.last_eq last hlast]
    exact ⟨sortedEntries_eq_of_perm dateValue hall hsorted, (unique_sortedBy _ _).2 hone⟩

/-- A message of `peer` to `alice`. -/
def messageOf (peer : Uid) (seconds : Int) : Ambient × DocumentChange :=
  (⟨⟨0, 0⟩, some "alice"⟩,
    ⟨.modified, ⟨.named peer, (Upload.sample peer "alice" "hi" seconds).message⟩⟩)

/-- The document of the sample profile of `uid`. -/
def sampleProfile (uid : Uid) : Dictionary :=
  [("email", .string (uid ++ "@example.com")), ("fullname", .string uid),
   ("profileImageURL", .string ""), ("uid", .string uid), ("username", .string uid)]

/-- `bob` and `dave` are listed. -/
def bobAndDave : ConversationFeed where
  conversations :=
    [⟨.sample "bob", Message.init ⟨⟨0, 0⟩, some "alice"⟩ (messageOf "bob" 1).2.document.data⟩,
     ⟨.sample "dave", Message.init ⟨⟨0, 0⟩, some "alice"⟩ (messageOf "dave" 3).2.document.data⟩]
  sortedConversations := []
  lookups := []
  emitted := []

/-- `bob` writes again, and `carol` for the first time. -/
def bobAndCarol : List (Ambient × DocumentChange) :=
  [messageOf "bob" 4, messageOf "carol" 2]

/-- The lookup of `bob` completes first. -/
def bobFirst : List FeedEvent :=
  [.fetched 0 (some (sampleProfile "bob")), .fetched 0 (some (sampleProfile "carol"))]

/-- The lookup of `carol` completes first. -/
def carolFirst : List FeedEvent :=
  [.fetched 1 (some (sampleProfile "carol")), .fetched 0 (some (sampleProfile "bob"))]

theorem last_emitted_bothOrders :
    ∃ expected, ∀ order ∈ [bobFirst, carolFirst], ∃ s',
      run (step (fun t => t.seconds) "alice") (bobAndCarol.foldl (onChange "alice") bobAndDave)
        order = some s' ∧
      s'.emitted.length = 2 ∧ ∀ last ∈ s'.emitted.getLast?, last = expected := by
  obtain ⟨expected, -, -, hruns⟩ := last_emitted (fun t => t.seconds) "alice" User.sample
    (s := bobAndDave) rfl (by decide) (by decide : (bobAndCarol.map (changedPeer "alice")).Nodup)
    (by decide)
  refine ⟨expected, ?_⟩
  simp only [List.forall_mem_cons, List.not_mem_nil, false_implies, implies_true, and_true]
  refine ⟨?_, ?_⟩
  · obtain ⟨lists, hlists, -, hlast⟩ := hruns _ bobFirst _ rfl (by decide) (run_final rfl) rfl
    exact ⟨_, run_final rfl, rfl, fun last h => (hlast last (by rwa [hlists] at h)).1⟩
  · obtain ⟨lists, hlists, -, hlast⟩ := hruns _ carolFirst _ rfl (by decide) (run_final rfl) rfl
    exact ⟨_, run_final rfl, rfl, fun last h => (hlast last (by rwa [hlists] at h)).1⟩

end ConversationFeed

end WaffleChat
