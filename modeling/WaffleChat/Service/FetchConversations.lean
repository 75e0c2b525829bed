import Mathlib.Data.List.Sort
import WaffleChat.Firestore.Snapshots
import WaffleChat.Library.EventSystem
import WaffleChat.Library.KeyedBag
import WaffleChat.Library.Observers
import WaffleChat.Model.Records

/-!
# The conversation list

`APIManager.fetchConversations`: every change of a summary document removes the
entry of its peer at once and starts a lookup of the peer's profile; the new entry
is inserted when that lookup completes.  Removals and insertions of one peer can
therefore interleave with those of another change of the same peer.

Main results:

- Theorem `feed_run`: the peers shown after a run are those whose lookup has
  completed since their last change.
- Theorem `emitted_unique_iff`: every emitted list has one entry for each peer
  exactly when between two completed lookups of a peer a change of it arrives.
-/

namespace WaffleChat

open EventSystem KeyedBag Observers

/-- The `id` a summary is attributed to by the listener of `uid`. -/
def Message.peerId (uid : Uid) (message : Message) : Uid :=
  if message.toId = uid then message.fromId else message.toId

/-- `APIManager.fetchUser(uid:)`, from the data of the fetched document: nothing is
ever delivered for a document that is missing or does not decode. -/
def fetchUser (data : Option Dictionary) : List (Event BackendError (Option User)) :=
  match data.bind User.init? with
  | none => []
  | some user => [.next (some user), .completed]

/-- Swift's `sorted(by:)`, which is stable. -/
def sortedBy {α : Type} (areInIncreasingOrder : α → α → Bool) (l : List α) : List α :=
  l.insertionSort fun a b => areInIncreasingOrder b a = false

/-- Sorting by a decreasing key puts the larger keys first. -/
theorem pairwise_sortedBy {α β : Type} [LinearOrder β] (key : α → β) (l : List α) :
    (sortedBy (fun a b => decide (key b < key a)) l).Pairwise fun a b => key b ≤ key a := by
  have hle : ∀ a b, decide (key a < key b) = false ↔ key b ≤ key a := by
    intro a b
    rw [decide_eq_false_iff_not, not_lt]
  have htotal : Std.Total fun a b => decide (key a < key b) = false := by
    constructor
    intro a b
    rw [hle, hle]
    exact le_total _ _
  have htrans : IsTrans α fun a b => decide (key a < key b) = false := by
    constructor
    intro a b c
    rw [hle, hle, hle]
    exact fun hab hbc => hbc.trans hab
  exact (List.pairwise_insertionSort _ l).imp fun h => (hle _ _).1 h

/-- The variables of one call of `fetchConversations`, its outstanding lookups and
the lists handed to its observer so far. -/
structure ConversationFeed where
  conversations : List Conversation
  sortedConversations : List Conversation
  lookups : List (Uid × Message)
  emitted : List (List Conversation)
deriving DecidableEq, Repr

/-- What can happen next. -/
inductive FeedEvent where
  /-- The snapshot listener runs; `none` is a callback without a snapshot. -/
  | snapshot (changes : Option (List (Ambient × DocumentChange)))
  /-- The outstanding lookup at position `k` completes with the data of its
  document. -/
  | fetched (k : Nat) (data : Option Dictionary)
deriving DecidableEq, Repr

namespace ConversationFeed

variable {Date : Type} [LinearOrder Date] (dateValue : Timestamp → Date) (uid : Uid)

/-- No changes, no lookups, nothing emitted. -/
def initial : ConversationFeed where
  conversations := []
  sortedConversations := []
  lookups := []
  emitted := []

/-- The body of the loop over `documentChanges`; the kind of a change is not
looked at. -/
def onChange (s : ConversationFeed) (change : Ambient × DocumentChange) :
    ConversationFeed :=
  let message := Message.init change.1 change.2.document.data
  let id := message.peerId uid
  { s with
    conversations :=
      if s.conversations.any (fun c => c.user.uid = id) then
        s.conversations.filter fun c => c.user.uid ≠ id
      else s.conversations
    lookups := s.lookups ++ [(id, message)] }

/-- The `onNext` handler of a lookup. -/
def onUser (message : Message) (s : ConversationFeed) :
    Event BackendError (Option User) → ConversationFeed
  | .next (some data) =>
      let conversations := ⟨data, message⟩ :: s.conversations
      let sorted := sortedBy (fun a b =>
        dateValue b.recentMessage.timestamp < dateValue a.recentMessage.timestamp) conversations
      { s with
        conversations := conversations
        sortedConversations := sorted
        emitted := s.emitted ++ [sorted] }
  | _ => s

/-- One event. -/
def step (s : ConversationFeed) : FeedEvent → Option ConversationFeed
  | .snapshot none => some s
  | .snapshot (some changes) => some (changes.foldl (onChange uid) s)
  | .fetched k data => do
      let (_, message) ← s.lookups[k]?
      return (feed CreateSink.on CreateSink.fresh (fetchUser data)).2.foldl
        (onUser dateValue message) { s with lookups := s.lookups.eraseIdx k }

/-- A profile that is found carries the id it has been looked up by. -/
def OwnProfile (s : ConversationFeed) : FeedEvent → Prop
  | .snapshot _ => True
  | .fetched k data =>
      ∀ lookup ∈ s.lookups[k]?, ∀ user ∈ data.bind User.init?, user.uid = lookup.1

instance (s : ConversationFeed) : DecidablePred s.OwnProfile
  | .snapshot _ => inferInstanceAs (Decidable True)
  | .fetched k data => inferInstanceAs (Decidable
      (∀ lookup ∈ s.lookups[k]?, ∀ user ∈ data.bind User.init?, user.uid = lookup.1))

/-- At most one conversation for each peer. -/
def Unique (conversations : List Conversation) : Prop :=
  (conversations.map fun c => c.user.uid).Nodup

instance (conversations : List Conversation) : Decidable (Unique conversations) :=
  inferInstanceAs (Decidable (List.Nodup _))

/-- The peers of the shown conversations. -/
def peers (s : ConversationFeed) : List Uid :=
  s.conversations.map fun c => c.user.uid

/-- What an event means for the list: a change of a peer drops its entry, a lookup
that finds a profile puts one. -/
def operations (s : ConversationFeed) : FeedEvent → List (Op Uid)
  | .snapshot none => []
  | .snapshot (some changes) =>
      changes.map fun change =>
        .drop ((Message.init change.1 change.2.document.data).peerId uid)
  | .fetched k data =>
      match s.lookups[k]?, data.bind User.init? with
      | some _, some user => [.put user.uid]
      | _, _ => []

/-! ## The effect of one event -/

/-- The listener drops the entries of the changed peer. -/
theorem conversations_onChange (s : ConversationFeed) (change : Ambient × DocumentChange) :
    (s.onChange uid change).conversations = s.conversations.filter fun c =>
      c.user.uid ≠ (Message.init change.1 change.2.document.data).peerId uid := by
  unfold onChange
  simp only
  split
  · rfl
  · rename_i hnone
    symm
    apply List.filter_eq_self.2
    intro c hc
    simp only [List.any_eq_true, decide_eq_true_eq, not_exists, not_and] at hnone
    simpa using hnone c hc

/-- A change drops its peer. -/
theorem peers_onChange (s : ConversationFeed) (change : Ambient × DocumentChange) :
    (s.onChange uid change).peers = KeyedBag.apply s.peers
      (.drop ((Message.init change.1 change.2.document.data).peerId uid)) := by
  simp only [peers, conversations_onChange, KeyedBag.apply, List.filter_map]
  rfl

/-- Without a profile a lookup leaves the list as it is. -/
theorem delivered_fetchUser (data : Option Dictionary) :
    (feed CreateSink.on CreateSink.fresh (fetchUser data)).2 = fetchUser data := by
  rw [feed_createSink]
  unfold fetchUser
  split <;> rfl

/-- What a completed lookup does. -/
theorem step_fetched {s s' : ConversationFeed} {k : Nat} {data : Option Dictionary}
    (h : step dateValue uid s (.fetched k data) = some s') :
    ∃ id message, s.lookups[k]? = some (id, message) ∧
      s' = (fetchUser data).foldl (onUser dateValue message)
        { s with lookups := s.lookups.eraseIdx k } := by
  simp only [step, bind_pure_eq_some, delivered_fetchUser] at h
  rcases h with ⟨⟨id, message⟩, hget, rfl⟩
  exact ⟨id, message, hget, rfl⟩

/-- The entry of the fetched profile is put in front. -/
theorem peers_onUser (s : ConversationFeed) (message : Message) (data : User) :
    (s.onUser dateValue message (.next (some data))).peers =
      KeyedBag.apply s.peers (.put data.uid) :=
  rfl

/-- Sorting does not change which peers a list shows. -/
theorem unique_sortedBy (areInIncreasingOrder : Conversation → Conversation → Bool)
    (conversations : List Conversation) :
    Unique (sortedBy areInIncreasingOrder conversations) ↔ Unique conversations :=
  ((List.perm_insertionSort _ conversations).map _).nodup_iff

/-! ## Where the peers come from -/

/-- The peers looked up and the peers of all lists are among those `Q` holds of. -/
structure PeersFrom (Q : Uid → Prop) (s : ConversationFeed) : Prop where
  conversations : ∀ c ∈ s.conversations, Q c.user.uid
  lookups : ∀ lookup ∈ s.lookups, Q lookup.1
  emitted : ∀ l ∈ s.emitted, ∀ c ∈ l, Q c.user.uid

variable {Q : Uid → Prop}

/-- A change looks its peer up. -/
theorem PeersFrom.onChange {s : ConversationFeed} (h : s.PeersFrom Q)
    (change : Ambient × DocumentChange)
    (hpeer : Q ((Message.init change.1 change.2.document.data).peerId uid)) :
    (s.onChange uid change).PeersFrom Q := by
  constructor
  · rw [conversations_onChange]
    exact fun c hc => h.conversations c (List.mem_filter.1 hc).1
  · intro lookup hmem
    rcases List.mem_append.1 hmem with hmem | hmem
    · exact h.lookups lookup hmem
    · rw [List.mem_singleton.1 hmem]
      exact hpeer
  · exact h.emitted

/-- A profile lists its own uid. -/
theorem PeersFrom.onUser {s : ConversationFeed} (h : s.PeersFrom Q) (message : Message)
    (data : User) (hdata : Q data.uid) :
    (s.onUser dateValue message (.next (some data))).PeersFrom Q := by
  have hlist : ∀ c ∈ (⟨data, message⟩ :: s.conversations : List Conversation), Q c.user.uid :=
    List.forall_mem_cons.2 ⟨hdata, h.conversations⟩
  refine ⟨hlist, h.lookups, ?_⟩
  intro l hl
  rcases List.mem_append.1 hl with hl | hl
  · exact h.emitted l hl
  · rw [List.mem_singleton.1 hl]
    exact fun c hc => hlist c ((List.perm_insertionSort _ _).mem_iff.1 hc)

/-- Nobody is looked up or listed who is not the peer of a changed summary, if profiles carry
the ids they are looked up by. -/
theorem PeersFrom.step {s s' : ConversationFeed} {e : FeedEvent} (h : s.PeersFrom Q)
    (hown : s.OwnProfile e)
    (hpeers : ∀ changes, e = .snapshot (some changes) → ∀ change ∈ changes,
      Q ((Message.init change.1 change.2.document.data).peerId uid))
    (hstep : step dateValue uid s e = some s') : s'.PeersFrom Q := by
  cases e with
  | snapshot changes =>
      cases changes with
      | none =>
          obtain rfl : s = s' := Option.some.inj hstep
          exact h
      | some changes =>
          obtain rfl : changes.foldl (ConversationFeed.onChange uid) s = s' :=
            Option.some.inj hstep
          have hall := hpeers changes rfl
          clear hstep hpeers hown
          induction changes generalizing s with
          | nil => exact h
          | cons change changes ih =>
              rcases List.forall_mem_cons.1 hall with ⟨hhead, htail⟩
              exact ih (h.onChange uid change hhead) htail
  | fetched k data =>
      rcases step_fetched dateValue uid hstep with ⟨id, message, hget, rfl⟩
      have hrest : PeersFrom Q { s with lookups := s.lookups.eraseIdx k } :=
        ⟨h.conversations, fun lookup hmem => h.lookups lookup (List.mem_of_mem_eraseIdx hmem),
          h.emitted⟩
      cases huser : data.bind User.init? with
      | none => simpa [fetchUser, huser] using hrest
      | some user =>
          have hpeer : Q user.uid := by
            rw [hown (id, message) hget user huser]
            exact h.lookups _ (List.mem_of_getElem? hget)
          simpa [fetchUser, huser, ConversationFeed.onUser] using
            hrest.onUser dateValue message user hpeer

/-! ## Runs -/

/-- How the state of the feed follows from the operations seen so far. -/
structure Tracks (ops : List (Op Uid)) (s : ConversationFeed) : Prop where
  peers_eq : s.peers = contents ops
  unique_iff : (∀ l ∈ s.emitted, Unique l) ↔ Alternates ops

/-- A change is a drop. -/
theorem Tracks.onChange {ops : List (Op Uid)} {s : ConversationFeed} (h : Tracks ops s)
    (change : Ambient × DocumentChange) :
    Tracks (ops ++ [.drop ((Message.init change.1 change.2.document.data).peerId uid)])
      (s.onChange uid change) := by
  constructor
  · rw [peers_onChange, contents_concat, h.peers_eq]
  · have hemitted : (s.onChange uid change).emitted = s.emitted := rfl
    rw [hemitted, h.unique_iff, alternates_concat]
    simp

/-- A profile is put in front of a list that was unique before: the new list is
unique exactly when the peer was not held. -/
theorem Tracks.onUser {ops : List (Op Uid)} {s : ConversationFeed} (h : Tracks ops s)
    (message : Message) (data : User) :
    Tracks (ops ++ [.put data.uid]) (s.onUser dateValue message (.next (some data))) := by
  constructor
  · rw [peers_onUser, contents_concat, h.peers_eq]
  · have hunique : Unique (⟨data, message⟩ :: s.conversations) ↔
        data.uid ∉ contents ops ∧ (contents ops).Nodup := by
      rw [← h.peers_eq]
      exact List.nodup_cons
    have hops : Alternates (ops ++ [.put data.uid]) ↔
        Alternates ops ∧ data.uid ∉ contents ops := by
      simp [alternates_concat]
    simp only [ConversationFeed.onUser, List.forall_mem_append, h.unique_iff,
      List.forall_mem_singleton, unique_sortedBy, hunique, hops]
    constructor
    · rintro ⟨halt, hnot, -⟩
      exact ⟨halt, hnot⟩
    · rintro ⟨halt, hnot⟩
      exact ⟨halt, hnot, nodup_of_alternates halt⟩

/-- A step is the operations it stands for. -/
theorem Tracks.step {ops : List (Op Uid)} {s s' : ConversationFeed} {e : FeedEvent}
    (h : Tracks ops s) (hstep : step dateValue uid s e = some s') :
    Tracks (ops ++ operations uid s e) s' := by
  cases e with
  | snapshot changes =>
      cases changes with
      | none =>
          obtain rfl : s = s' := by simpa [ConversationFeed.step] using hstep
          simpa [operations] using h
      | some changes =>
          obtain rfl : changes.foldl (ConversationFeed.onChange uid) s = s' := by
            simpa [ConversationFeed.step] using hstep
          unfold operations
          clear hstep
          induction changes generalizing ops s with
          | nil => simpa using h
          | cons change changes ih => simpa using ih (h.onChange uid change)
  | fetched k data =>
      rcases step_fetched dateValue uid hstep with ⟨id, message, hget, rfl⟩
      have hlookups : Tracks ops { s with lookups := s.lookups.eraseIdx k } :=
        ⟨h.peers_eq, h.unique_iff⟩
      cases huser : data.bind User.init? with
      | none => simpa [operations, hget, huser, fetchUser] using hlookups
      | some user =>
          simpa [operations, hget, huser, fetchUser, ConversationFeed.onUser] using
            hlookups.onUser dateValue message user

/-- The peers shown after a run, and the lists emitted during it. -/
theorem feed_run {es : List FeedEvent} {s : ConversationFeed}
    (hrun : run (step dateValue uid) initial es = some s) :
    Tracks (trace (step dateValue uid) (operations uid) initial es) s := by
  have hinitial : Tracks [] initial := by
    constructor
    · rfl
    · simp [initial, Alternates]
  simpa using run_trace_invariant (R := Tracks) (fun ops a e b ha hab => ha.step _ _ hab)
    hinitial hrun

/-- Every list `fetchConversations` emits has at most one conversation for each peer
exactly when between two completed lookups of a peer a change of it arrives. -/
theorem emitted_unique_iff {es : List FeedEvent} {s : ConversationFeed}
    (hrun : run (step dateValue uid) initial es = some s) :
    (∀ l ∈ s.emitted, Unique l) ↔
      Alternates (trace (step dateValue uid) (operations uid) initial es) :=
  (feed_run dateValue uid hrun).unique_iff

/-- The summary document of the chat with `bob`, with the given text. -/
def summaryOfBob (text : String) : Ambient × DocumentChange :=
  (⟨⟨0, 0⟩, some "alice"⟩, ⟨.modified, ⟨.named "bob",
    [("text", .string text), ("fromId", .string "bob"), ("toId", .string "alice"),
     ("timestamp", .timestamp ⟨1, 0⟩)]⟩⟩)

/-- The profile of `bob`. -/
def profileOfBob : Dictionary :=
  [("email", .string "bob@example.com"), ("fullname", .string "Bob"),
   ("profileImageURL", .string ""), ("uid", .string "bob"), ("username", .string "bob")]

theorem emitted_unique_iff_alternating :
    ∃ s, run (step (fun t => t.seconds) "alice") initial
        [.snapshot (some [summaryOfBob "one"]), .fetched 0 (some profileOfBob),
         .snapshot (some [summaryOfBob "two"]), .fetched 0 (some profileOfBob)] = some s ∧
      ((∀ l ∈ s.emitted, Unique l) ↔
        Alternates (trace (step (fun t => t.seconds) "alice") (operations "alice") initial
          [.snapshot (some [summaryOfBob "one"]), .fetched 0 (some profileOfBob),
           .snapshot (some [summaryOfBob "two"]), .fetched 0 (some profileOfBob)])) :=
  ⟨_, run_final rfl, emitted_unique_iff _ _ (run_final rfl)⟩

/-- Two changes of one peer arrive before the first lookup completes: the peer is
listed twice. -/
theorem not_unique_of_overlapping_lookups :
    ∃ s, run (step (fun t => t.seconds) "alice") initial
        [.snapshot (some [summaryOfBob "one"]), .snapshot (some [summaryOfBob "two"]),
         .fetched 0 (some profileOfBob), .fetched 0 (some profileOfBob)] = some s ∧
      ∃ l ∈ s.emitted, ¬ Unique l :=
  ⟨_, run_final rfl, by decide⟩

end ConversationFeed

end WaffleChat
