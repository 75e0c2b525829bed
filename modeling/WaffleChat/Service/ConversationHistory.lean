import Mathlib.Data.List.InsertIdx
import WaffleChat.Library.VersionedBag
import WaffleChat.Service.FetchConversations

/-!
# The history of the conversation list

A conversation does not say which change of its summary document it shows.  The
tracked feed is `fetchConversations` with every lookup and every row labelled by the
change they come from, and with a record of the changes, the lists shown and the
lookups that delivered nothing.

Main results:

- Theorem `erase_run`: without its labels the tracked feed is the feed itself, in
  every run.
- Theorems `step_induction` and `run_induction`: what every processed change and every
  completed lookup keeps is kept by a step and holds after every run.
- Theorem `records_of_run`: which versions are listed, and which have been shown, in
  terms of the history.
-/

namespace WaffleChat

open EventSystem Observers VersionedBag

/-- One processed change of a summary document: its place in the history, its kind,
the peer, the message, the version of the peer's document, and whether the peer was
listed before. -/
structure Change where
  number : Nat
  type : DocumentChangeType
  peer : Uid
  message : Message
  version : Nat
  listed : Bool
deriving DecidableEq, Repr

/-- A listed conversation and the change it shows. -/
structure Row where
  user : User
  change : Change
deriving DecidableEq, Repr

/-- The conversation of a row. -/
def Row.conversation (row : Row) : Conversation where
  user := row.user
  recentMessage := row.change.message

/-- What is recorded of a run. -/
inductive Entry where
  /-- The listener has processed a change. -/
  | changed (change : Change)
  /-- The lookup for a change has found the profile of a user, and a list was shown. -/
  | found (change : Change) (user : User) (list : List Row)
  /-- The lookup for a change has delivered nothing. -/
  | failed (change : Change)
deriving DecidableEq, Repr

/-- The list an entry has shown. -/
def Entry.shown? : Entry → Option (List Row)
  | .found _ _ list => some list
  | _ => none

/-- The change an entry has processed. -/
def Entry.changed? : Entry → Option Change
  | .changed change => some change
  | _ => none

/-- The change whose lookup an entry reports as failed. -/
def Entry.failed? : Entry → Option Change
  | .failed change => some change
  | _ => none

/-- What an entry means for the list of versions; a change drops the rows of its peer, a row
is put under the `uid` of the profile. -/
def Entry.operation? : Entry → Option (Op Uid Nat)
  | .changed change => some (.drop change.peer)
  | .found change user _ => some (.put user.uid change.version)
  | .failed _ => none

/-- The user of a row and the version that is shown. -/
def Row.version (row : Row) : Uid × Nat :=
  (row.user.uid, row.change.version)

/-- The number of versions of the peer's document so far. -/
def versionsOf (history : List Entry) (peer : Uid) : Nat :=
  (history.filterMap Entry.changed?).countP fun change =>
    change.peer = peer ∧ change.type ≠ .removed

/-- `ConversationFeed` with labelled rows and lookups, and the history. -/
structure TrackedFeed where
  rows : List Row
  sortedRows : List Row
  lookups : List Change
  history : List Entry
deriving DecidableEq, Repr

namespace TrackedFeed

variable {Date : Type} [LinearOrder Date] (dateValue : Timestamp → Date) (uid : Uid)

/-- No changes, no lookups, nothing shown. -/
def initial : TrackedFeed where
  rows := []
  sortedRows := []
  lookups := []
  history := []

/-- The lists shown so far. -/
def emitted (s : TrackedFeed) : List (List Row) :=
  s.history.filterMap Entry.shown?

/-- The change as it is processed in this state; a removed document comes in its last
version. -/
def label (s : TrackedFeed) (change : Ambient × DocumentChange) : Change :=
  let message := Message.init change.1 change.2.document.data
  let id := message.peerId uid
  { number := s.history.length
    type := change.2.type
    peer := id
    message := message
    version := versionsOf s.history id + if change.2.type = .removed then 0 else 1
    listed := s.rows.any fun row => row.user.uid = id }

/-- `ConversationFeed.onChange`, recorded. -/
def onChange (s : TrackedFeed) (change : Ambient × DocumentChange) : TrackedFeed :=
  let labelled := s.label uid change
  { s with
    rows := s.rows.filter fun row => row.user.uid ≠ labelled.peer
    lookups := s.lookups ++ [labelled]
    history := s.history ++ [.changed labelled] }

/-- `ConversationFeed.onUser` for a found profile, recorded. -/
def onUser (s : TrackedFeed) (change : Change) (user : User) : TrackedFeed :=
  let rows := ⟨user, change⟩ :: s.rows
  let sorted := sortedBy (fun a b =>
    dateValue b.change.message.timestamp < dateValue a.change.message.timestamp) rows
  { s with
    rows := rows
    sortedRows := sorted
    history := s.history ++ [.found change user sorted] }

/-- One event, recorded. -/
def step (s : TrackedFeed) : FeedEvent → Option TrackedFeed
  | .snapshot none => some s
  | .snapshot (some changes) => some (changes.foldl (onChange uid) s)
  | .fetched k data => do
      let change ← s.lookups[k]?
      let rest := { s with lookups := s.lookups.eraseIdx k }
      return (data.bind User.init?).elim { rest with history := rest.history ++ [.failed change] }
        (rest.onUser dateValue change)

/-- The feed without labels and history. -/
def erase (s : TrackedFeed) : ConversationFeed where
  conversations := s.rows.map Row.conversation
  sortedConversations := s.sortedRows.map Row.conversation
  lookups := s.lookups.map fun change => (change.peer, change.message)
  emitted := s.emitted.map (List.map Row.conversation)

/-! ## The tracked feed is the feed -/

/-- Labels do not matter for a change. -/
theorem erase_onChange (s : TrackedFeed) (change : Ambient × DocumentChange) :
    (s.onChange uid change).erase = s.erase.onChange uid change := by
  have hconversations := ConversationFeed.conversations_onChange uid s.erase change
  have hemitted : (s.onChange uid change).emitted = s.emitted := by
    simp [emitted, onChange, Entry.shown?]
  have hrows : ((s.onChange uid change).rows).map Row.conversation =
      (s.erase.onChange uid change).conversations := by
    rw [hconversations, erase, List.filter_map]
    rfl
  rw [erase, hemitted, hrows]
  simp [ConversationFeed.onChange, erase, onChange, label]

/-- Labels do not matter for a profile. -/
theorem erase_onUser (s : TrackedFeed) (change : Change) (user : User) :
    (s.onUser dateValue change user).erase =
      s.erase.onUser dateValue change.message (.next (some user)) := by
  have hsorted : ∀ rows : List Row,
      (sortedBy (fun a b => decide (dateValue b.change.message.timestamp <
        dateValue a.change.message.timestamp)) rows).map Row.conversation =
      sortedBy (fun a b => decide (dateValue b.recentMessage.timestamp <
        dateValue a.recentMessage.timestamp)) (rows.map Row.conversation) := by
    intro rows
    exact List.map_insertionSort _ _ _ _ fun _ _ _ _ => Iff.rfl
  simp only [erase, onUser, ConversationFeed.onUser, emitted, hsorted, List.filterMap_append,
    List.map_append]
  simp [Entry.shown?, hsorted, Row.conversation]

/-- Labels do not matter for a lookup that ends. -/
theorem erase_eraseIdx (s : TrackedFeed) (k : Nat) :
    ({ s with lookups := s.lookups.eraseIdx k } : TrackedFeed).erase =
      { s.erase with lookups := s.erase.lookups.eraseIdx k } := by
  simp [erase, emitted, List.eraseIdx_map]

/-- One event of the tracked feed is the same event of the feed. -/
theorem erase_step (s : TrackedFeed) (e : FeedEvent) :
    (s.step dateValue uid e).map erase = ConversationFeed.step dateValue uid s.erase e := by
  cases e with
  | snapshot changes =>
      cases changes with
      | none => rfl
      | some changes =>
          simp only [step, ConversationFeed.step, Option.map_some, Option.some.injEq]
          induction changes generalizing s with
          | nil => rfl
          | cons change changes ih => rw [List.foldl_cons, List.foldl_cons, ih, erase_onChange]
  | fetched k data =>
      have hlookups : s.erase.lookups[k]? =
          s.lookups[k]?.map fun change => (change.peer, change.message) :=
        List.getElem?_map
      simp only [step, ConversationFeed.step, hlookups]
      cases hget : s.lookups[k]? with
      | none => rfl
      | some change =>
          simp only [Option.map_some, Option.bind_eq_bind, Option.bind_some, Option.pure_def,
            ConversationFeed.delivered_fetchUser, ← erase_eraseIdx]
          cases huser : data.bind User.init? with
          | none => simp [fetchUser, huser, erase, emitted, Entry.shown?]
          | some user => simp [fetchUser, huser, erase_onUser, ConversationFeed.onUser]

/-- **Labels are only labels.**  Without them the tracked feed is the feed, in every
run. -/
theorem erase_run (s : TrackedFeed) (es : List FeedEvent) :
    (run (step dateValue uid) s es).map erase =
      run (ConversationFeed.step dateValue uid) s.erase es := by
  induction es generalizing s with
  | nil => rfl
  | cons e es ih =>
      rw [run, run, ← erase_step]
      cases hstep : s.step dateValue uid e with
      | none => rfl
      | some s' => exact ih s'

/-- Every run of the feed is recorded by one of the tracked feed. -/
theorem exists_run {es : List FeedEvent} {s : ConversationFeed}
    (hrun : run (ConversationFeed.step dateValue uid) .initial es = some s) :
    ∃ t, run (step dateValue uid) initial es = some t ∧ t.erase = s := by
  have herase := erase_run dateValue uid initial es
  rw [show initial.erase = .initial from rfl, hrun] at herase
  exact Option.map_eq_some_iff.1 herase

/-! ## Runs -/

/-- What every processed change and every completed lookup keeps is kept by a step; `Q` is what
is known of the profiles found. -/
theorem step_induction {P : TrackedFeed → Prop} {Q : Change → User → Prop}
    (hchange : ∀ s change, P s → P (s.onChange uid change))
    (hfailed : ∀ s k change, P s → s.lookups[k]? = some change →
      P { s with lookups := s.lookups.eraseIdx k, history := s.history ++ [.failed change] })
    (hfound : ∀ s k change user, P s → s.lookups[k]? = some change → Q change user →
      P (({ s with lookups := s.lookups.eraseIdx k } : TrackedFeed).onUser dateValue change user))
    {s s' : TrackedFeed} {e : FeedEvent}
    (hQ : ∀ k data, e = .fetched k data → ∀ change ∈ s.lookups[k]?,
      ∀ user ∈ data.bind User.init?, Q change user)
    (hs : P s) (hstep : step dateValue uid s e = some s') : P s' := by
  cases e with
  | snapshot changes =>
      cases changes with
      | none =>
          cases hstep
          exact hs
      | some changes =>
          cases hstep
          clear hQ
          induction changes generalizing s with
          | nil => exact hs
          | cons change changes ih => exact ih (hchange s change hs)
  | fetched k data =>
      simp only [step, bind_pure_eq_some] at hstep
      rcases hstep with ⟨change, hget, rfl⟩
      have hfinds := hQ k data rfl change hget
      cases huser : data.bind User.init? with
      | none => exact hfailed s k change hs hget
      | some user => exact hfound s k change user hs hget (hfinds user huser)

/-- What every processed change and every completed lookup keeps holds after every
run. -/
theorem run_induction {P : TrackedFeed → Prop} (hinitial : P initial)
    (hchange : ∀ s change, P s → P (s.onChange uid change))
    (hfailed : ∀ s k change, P s → s.lookups[k]? = some change →
      P { s with lookups := s.lookups.eraseIdx k, history := s.history ++ [.failed change] })
    (hfound : ∀ s k change user, P s → s.lookups[k]? = some change →
      P (({ s with lookups := s.lookups.eraseIdx k } : TrackedFeed).onUser dateValue change user))
    {es : List FeedEvent} {t : TrackedFeed}
    (hrun : run (step dateValue uid) initial es = some t) : P t := by
  refine run_invariant (P := P) ?_ hinitial hrun
  intro s e s' hs hstep
  exact step_induction dateValue uid (Q := fun _ _ => True) hchange hfailed
    (fun s k change user hs hget _ => hfound s k change user hs hget)
    (fun _ _ _ _ _ _ _ => trivial) hs hstep

/-! ## Versions -/

/-- The operations on the list of versions a history stands for. -/
def operations (history : List Entry) : List (Op Uid Nat) :=
  history.filterMap Entry.operation?

/-- The operation of a new entry comes last. -/
theorem operations_concat (history : List Entry) (entry : Entry) :
    operations (history ++ [entry]) = operations history ++ entry.operation?.toList := by
  cases hentry : entry.operation? <;> simp [operations, hentry]

/-- The list of a new entry is shown last. -/
theorem shown_concat (history : List Entry) (entry : Entry) :
    (history ++ [entry]).filterMap Entry.shown? =
      history.filterMap Entry.shown? ++ entry.shown?.toList := by
  cases hentry : entry.shown? <;> simp [hentry]

/-- The listed versions are those of the operations, and every list that was shown
shows those held then. -/
structure Records (s : TrackedFeed) : Prop where
  held_eq : s.rows.map Row.version = (display (operations s.history)).held
  shown_eq : List.Forall₂ (fun list shown => (list.map Row.version).Perm shown) s.emitted
    (display (operations s.history)).shown

/-- A change is recorded. -/
theorem Records.onChange {s : TrackedFeed} (h : s.Records) (change : Ambient × DocumentChange) :
    (s.onChange uid change).Records := by
  have hops : operations (s.onChange uid change).history =
      operations s.history ++ [.drop (s.label uid change).peer] :=
    operations_concat _ _
  constructor
  · rw [hops, display_concat, Display.apply, ← h.held_eq, List.filter_map]
    rfl
  · rw [hops, display_concat, Display.apply, emitted, TrackedFeed.onChange, shown_concat]
    simpa [emitted, Entry.shown?] using h.shown_eq

/-- A profile is recorded. -/
theorem Records.onUser {s : TrackedFeed} (h : s.Records) (change : Change) (user : User) :
    (s.onUser dateValue change user).Records := by
  have hops : operations (s.onUser dateValue change user).history =
      operations s.history ++ [.put user.uid change.version] :=
    operations_concat _ _
  have hrow : Row.version ⟨user, change⟩ = (user.uid, change.version) := rfl
  constructor
  · rw [hops, display_concat, Display.apply, ← h.held_eq, ← hrow]
    rfl
  · have hemitted : (s.onUser dateValue change user).emitted =
        s.emitted ++ [(s.onUser dateValue change user).sortedRows] :=
      shown_concat _ _
    rw [hops, display_concat, Display.apply, ← h.held_eq, ← hrow, hemitted]
    refine List.rel_append h.shown_eq (List.Forall₂.cons ?_ List.Forall₂.nil)
    exact (List.perm_insertionSort _ _).map Row.version

/-- A failed lookup is recorded. -/
theorem Records.failed {s : TrackedFeed} (h : s.Records) (k : Nat) (change : Change) :
    Records
      { s with lookups := s.lookups.eraseIdx k, history := s.history ++ [.failed change] } := by
  constructor
  · simpa [operations_concat, Entry.operation?] using h.held_eq
  · rw [operations_concat, emitted, shown_concat]
    simpa [emitted, Entry.operation?, Entry.shown?] using h.shown_eq

/-- Which versions are listed, and which have been shown. -/
theorem records_of_run {es : List FeedEvent} {t : TrackedFeed}
    (hrun : run (step dateValue uid) initial es = some t) : t.Records := by
  refine run_induction dateValue uid ?_ ?_ ?_ ?_ hrun
  · exact ⟨rfl, List.Forall₂.nil⟩
  · intro s change hs
    exact hs.onChange uid change
  · intro s k change hs _
    exact hs.failed k change
  · intro s k change user hs _
    have hrest : Records { s with lookups := s.lookups.eraseIdx k } := ⟨hs.held_eq, hs.shown_eq⟩
    exact hrest.onUser dateValue change user

/-- A peer is listed exactly when a profile with its `uid` has been found since its last
change. -/
theorem Records.listed_iff {s : TrackedFeed} (h : s.Records) (peer : Uid) :
    (∃ row ∈ s.rows, row.user.uid = peer) ↔ Held (operations s.history) peer := by
  rw [held_iff, ← h.held_eq]
  simp [Row.version]

end TrackedFeed

end WaffleChat
