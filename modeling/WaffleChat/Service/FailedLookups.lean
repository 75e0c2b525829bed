import WaffleChat.Service.ConversationHistory

/-!
# Conversations lost to failed lookups

The listener removes the entry of a changed peer before it looks the peer up, and a
lookup that fails delivers nothing.  The loss shows in the next list, which another
peer's lookup brings about.

Main results:

- Theorem `keepsListed_iff`: a failed lookup of a listed peer loses no conversation
  exactly when a profile with the peer's `uid` is found before or for the next list.
-/

namespace WaffleChat

open EventSystem VersionedBag

namespace TrackedFeed

variable {Date : Type} [LinearOrder Date] (dateValue : Timestamp → Date) (uid : Uid)

/-- The changes whose lookup has delivered nothing. -/
def failures (history : List Entry) : List Change :=
  history.filterMap Entry.failed?

/-- The change replaced a listed conversation, and its document has not been removed
with it or since. -/
def Owed (history : List Entry) (change : Change) : Prop :=
  change.listed = true ∧ change.type ≠ .removed ∧
    ∀ later ∈ history.filterMap Entry.changed?, change.number < later.number →
      later.peer = change.peer → later.type ≠ .removed

instance (history : List Entry) (change : Change) : Decidable (Owed history change) :=
  inferInstanceAs (Decidable (_ ∧ _ ∧ _))

/-- A list that is shown has the peers whose lookup has failed but is owed. -/
def KeepsListed (past : List Entry) : Entry → Prop
  | .found _ _ list => ∀ change ∈ failures past, Owed past change →
      ∃ row ∈ list, row.user.uid = change.peer
  | _ => True

/-- When a profile is found, a peer whose lookup has failed but is owed is the `uid` of this
profile, or has had a profile with its `uid` found since its last change. -/
def Relisted (past : List Entry) : Entry → Prop
  | .found _ user _ => ∀ change ∈ failures past, Owed past change →
      change.peer = user.uid ∨ Held (operations past) change.peer
  | _ => True

instance (past : List Entry) : ∀ entry, Decidable (KeepsListed past entry)
  | .changed _ => inferInstanceAs (Decidable True)
  | .found _ _ _ => inferInstanceAs (Decidable (∀ _ ∈ _, _ → _))
  | .failed _ => inferInstanceAs (Decidable True)

instance (past : List Entry) : ∀ entry, Decidable (Relisted past entry)
  | .changed _ => inferInstanceAs (Decidable True)
  | .found _ _ _ => inferInstanceAs (Decidable (∀ _ ∈ _, _ → _))
  | .failed _ => inferInstanceAs (Decidable True)

/-- The list shown when a lookup completes has the user found and those listed before. -/
theorem Records.mem_shown_iff {s : TrackedFeed} (h : s.Records) (current : Change) (user : User)
    (peer : Uid) :
    (∃ row ∈ (s.onUser dateValue current user).sortedRows, row.user.uid = peer) ↔
      peer = user.uid ∨ Held (operations s.history) peer := by
  rw [← h.listed_iff]
  simp [TrackedFeed.onUser, sortedBy, eq_comm]

/-- In a recorded run the owed peers are in every list exactly if they are listed
again in time. -/
theorem keepsListed_of_run {es : List FeedEvent} {t : TrackedFeed}
    (hrun : run (step dateValue uid) initial es = some t) :
    EachAfter KeepsListed [] t.history ↔ EachAfter Relisted [] t.history := by
  have hboth : t.Records ∧
      (EachAfter KeepsListed [] t.history ↔ EachAfter Relisted [] t.history) := by
    refine run_induction dateValue uid (P := fun t => t.Records ∧
      (EachAfter KeepsListed [] t.history ↔ EachAfter Relisted [] t.history)) ?_ ?_ ?_ ?_ hrun
    · exact ⟨⟨rfl, List.Forall₂.nil⟩, Iff.rfl⟩
    · rintro s change ⟨hrecords, hiff⟩
      refine ⟨hrecords.onChange uid change, ?_⟩
      simp only [onChange, eachAfter_concat, KeepsListed, Relisted, and_true]
      exact hiff
    · rintro s k change ⟨hrecords, hiff⟩ -
      refine ⟨hrecords.failed k change, ?_⟩
      simp only [eachAfter_concat, KeepsListed, Relisted, and_true]
      exact hiff
    · rintro s k current user ⟨hrecords, hiff⟩ -
      have hrest : Records { s with lookups := s.lookups.eraseIdx k } :=
        ⟨hrecords.held_eq, hrecords.shown_eq⟩
      refine ⟨hrest.onUser dateValue current user, ?_⟩
      have hshown := hrest.mem_shown_iff dateValue current user
      simp only [onUser, eachAfter_concat, KeepsListed, Relisted, List.nil_append] at hshown ⊢
      simp only [hiff, hshown]
  exact hboth.2

/-- The summary document of the chat with `peer`. -/
def summaryOf (peer : Uid) (type : DocumentChangeType) : Ambient × DocumentChange :=
  (⟨⟨0, 0⟩, some "alice"⟩, ⟨type, ⟨.named peer,
    [("text", .string "hello"), ("fromId", .string peer), ("toId", .string "alice"),
     ("timestamp", .timestamp ⟨1, 0⟩)]⟩⟩)

/-- The profile document of `peer`. -/
def profileOf (peer : Uid) : Dictionary :=
  [("email", .string peer), ("fullname", .string peer), ("profileImageURL", .string ""),
   ("uid", .string peer), ("username", .string peer)]

/-- A lookup of `bob` fails; the next one succeeds before `carol` is looked up. -/
def failureMadeGood : List FeedEvent :=
  [.snapshot (some [summaryOf "bob" .added]), .fetched 0 (some (profileOf "bob")),
   .snapshot (some [summaryOf "bob" .modified]), .fetched 0 none,
   .snapshot (some [summaryOf "bob" .modified]), .fetched 0 (some (profileOf "bob")),
   .snapshot (some [summaryOf "carol" .added]), .fetched 0 (some (profileOf "carol"))]

/-- A lookup of `bob` fails, then `carol` is looked up. -/
def failureThenOther : List FeedEvent :=
  [.snapshot (some [summaryOf "bob" .added]), .fetched 0 (some (profileOf "bob")),
   .snapshot (some [summaryOf "bob" .modified]), .fetched 0 none,
   .snapshot (some [summaryOf "carol" .added]), .fetched 0 (some (profileOf "carol"))]

end TrackedFeed

end WaffleChat
