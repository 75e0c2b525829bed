import WaffleChat.Library.Refinement
import WaffleChat.Service.ConversationHistory

/-!
# Versions of a conversation over time

Lookups of one peer may complete in another order than its changes.  A late lookup
can put an old version back after a newer one was shown and then dropped by a third
change.

Main results:

- Theorem `owned_of_run`: while profiles carry the ids they are looked up by, a row shows the
  document of its user.
- Theorem `neverBack_iff_lookups_inOrder`: no peer goes back to older versions exactly when every
  lookup completes while its peer is listed, or after lookups of older versions only.
-/

namespace WaffleChat

open EventSystem VersionedBag

namespace TrackedFeed

variable {Date : Type} [LinearOrder Date] (dateValue : Timestamp → Date) (uid : Uid)

/-- The versions of the summary documents each list has shown. -/
def shownVersions (s : TrackedFeed) : List (List (Uid × Nat)) :=
  s.emitted.map (List.map fun row => (row.change.peer, row.change.version))

/-! ## Rows of the peers looked up -/

/-- Every row, listed or shown, is that of the peer looked up. -/
structure Owned (s : TrackedFeed) : Prop where
  rows : ∀ row ∈ s.rows, row.user.uid = row.change.peer
  emitted : ∀ list ∈ s.emitted, ∀ row ∈ list, row.user.uid = row.change.peer

theorem Owned.onChange {s : TrackedFeed} (h : s.Owned) (change : Ambient × DocumentChange) :
    (s.onChange uid change).Owned := by
  constructor
  · intro row hrow
    exact h.rows row (List.mem_filter.1 hrow).1
  · simpa [TrackedFeed.emitted, TrackedFeed.onChange, Entry.shown?] using h.emitted

theorem Owned.onUser {s : TrackedFeed} (h : s.Owned) {change : Change} {user : User}
    (hown : user.uid = change.peer) : (s.onUser dateValue change user).Owned := by
  have hrows : ∀ row ∈ (⟨user, change⟩ :: s.rows : List Row), row.user.uid = row.change.peer :=
    List.forall_mem_cons.2 ⟨hown, h.rows⟩
  refine ⟨hrows, ?_⟩
  rw [TrackedFeed.emitted, TrackedFeed.onUser, shown_concat]
  intro list hlist row hrow
  rcases List.mem_append.1 hlist with hlist | hlist
  · exact h.emitted list hlist row hrow
  · obtain rfl : list = _ := by simpa [Entry.shown?] using hlist
    exact hrows row ((List.perm_insertionSort _ _).mem_iff.1 hrow)

/-- While profiles carry the ids they are looked up by, the rows are those of the peers looked
up. -/
theorem owned_of_run {es : List FeedEvent} {t : TrackedFeed}
    (hrun : run (step dateValue uid) initial es = some t)
    (hown : StepsMeet (ConversationFeed.step dateValue uid) ConversationFeed.OwnProfile .initial
      es) : t.Owned := by
  have hmeet : StepsMeet (step dateValue uid) (fun s e => s.erase.OwnProfile e) initial es := by
    refine stepsMeet_of_map (f := erase) (g := id) ?_ (by rwa [List.map_id])
    intro s e
    exact (erase_step dateValue uid s e).symm
  refine run_invariant_of_stepsMeet (P := Owned) ?_ hmeet ⟨by simp [initial], by
    simp [initial, emitted]⟩ hrun
  intro s e s' howne hs hstep
  refine step_induction dateValue uid (Q := fun change user => user.uid = change.peer)
    ?_ ?_ ?_ ?_ hs hstep
  · intro s change hs
    exact hs.onChange uid change
  · intro s k change hs _
    refine ⟨hs.rows, ?_⟩
    simpa [emitted, Entry.shown?] using hs.emitted
  · intro s k change user hs _ hown
    have hrest : Owned { s with lookups := s.lookups.eraseIdx k } := ⟨hs.rows, hs.emitted⟩
    exact hrest.onUser dateValue hown
  · rintro k data rfl change hget user huser
    refine howne (change.peer, change.message) ?_ user huser
    simpa [erase] using ⟨change, hget, rfl, rfl⟩

/-! ## Versions in order -/

/-- If rows are those of the peers looked up, the versions shown are those of the operations. -/
theorem Records.neverBack_iff {s : TrackedFeed} (h : s.Records) (howned : s.Owned) :
    NeverBack s.shownVersions ↔ EachAfter InOrder [] (operations s.history) := by
  have hversions : s.shownVersions = s.emitted.map (List.map Row.version) := by
    refine List.map_congr_left ?_
    intro list hlist
    refine List.map_congr_left ?_
    intro row hrow
    rw [Row.version, howned.emitted list hlist row hrow]
  rw [← VersionedBag.neverBack_iff, hversions]
  exact neverBack_congr (List.forall₂_map_left_iff.2 h.shown_eq)

/-- **Previews in order.**  In every run of `fetchConversations` in which profiles carry the ids
they are looked up by, no list shows only older versions of a peer's document than an earlier
list has shown exactly when every lookup that completes with a profile does so while its peer is
listed, or after lookups of older versions of the peer only. -/
theorem neverBack_iff_lookups_inOrder {es : List FeedEvent} {s : ConversationFeed}
    (hrun : run (ConversationFeed.step dateValue uid) .initial es = some s)
    (hown : StepsMeet (ConversationFeed.step dateValue uid) ConversationFeed.OwnProfile .initial
      es) :
    ∃ t, run (step dateValue uid) initial es = some t ∧ t.erase = s ∧
      (NeverBack t.shownVersions ↔ EachAfter InOrder [] (operations t.history)) := by
  rcases exists_run dateValue uid hrun with ⟨t, ht, herase⟩
  exact ⟨t, ht, herase,
    (records_of_run dateValue uid ht).neverBack_iff (owned_of_run dateValue uid ht hown)⟩

open ConversationFeed (summaryOfBob profileOfBob)

/-- Two changes, each with its lookup. -/
def changesInOrder : List FeedEvent :=
  [.snapshot (some [summaryOfBob "one"]), .fetched 0 (some profileOfBob),
   .snapshot (some [summaryOfBob "two"]), .fetched 0 (some profileOfBob)]

theorem neverBack_iff_changesInOrder :
    ∃ t, run (step (fun t => t.seconds) "alice") initial changesInOrder = some t ∧
      NeverBack t.shownVersions := by
  have hrun : run (ConversationFeed.step (fun t => t.seconds) "alice") .initial changesInOrder =
      some _ := run_final rfl
  rcases neverBack_iff_lookups_inOrder _ _ hrun (by decide) with ⟨t, ht, -, hiff⟩
  obtain rfl := Option.some.inj ((run_final rfl).symm.trans ht)
  exact ⟨_, run_final rfl, hiff.2 (by decide)⟩

/-- The lookup of the second version completes before a third change, that of the first
version after it. -/
def lateLookup : List FeedEvent :=
  [.snapshot (some [summaryOfBob "one"]), .snapshot (some [summaryOfBob "two"]),
   .fetched 1 (some profileOfBob), .snapshot (some [summaryOfBob "three"]),
   .fetched 0 (some profileOfBob)]

/-- The list goes back to the first version after it has shown the second. -/
theorem not_neverBack_of_lateLookup :
    ∃ t, run (step (fun t => t.seconds) "alice") initial lateLookup = some t ∧
      run (ConversationFeed.step (fun t => t.seconds) "alice") .initial lateLookup =
        some t.erase ∧
      StepsMeet (ConversationFeed.step (fun t => t.seconds) "alice") ConversationFeed.OwnProfile
        .initial lateLookup ∧
      ¬ NeverBack t.shownVersions := by
  refine ⟨_, run_final rfl, run_final rfl, ?_, ?_⟩
  · decide
  · decide

end TrackedFeed

end WaffleChat
