import WaffleChat.Library.EventSystem
import WaffleChat.Service.UploadMessage

/-!
# Snapshot listeners

`fetchMessages` and `fetchConversations` register a snapshot listener when they are
subscribed to.  The registration that `addSnapshotListener` returns is dropped, and the
disposable they return does nothing but complete the observer.  The subscriptions belong
to the dispose bags of the view models and go with the screens.

Main results:

- Theorem `oneToOne_iff`: the registered listeners are those of the live subscriptions as
  long as no subscription has been disposed.
- Theorem `listeners_iff`: in which runs they are throughout.
-/

namespace WaffleChat

open EventSystem

/-- What is listened to. -/
inductive ListenerSource where
  /-- `fetchConversations()`. -/
  | conversations
  /-- `fetchMessages(forUser:)`. -/
  | messages (peer : Uid)
deriving DecidableEq, Repr

/-- The collection of the query, for the account `uid`. -/
def ListenerSource.collection (uid : Uid) : ListenerSource → CollectionPath
  | .conversations => recentPath uid
  | .messages peer => logPath uid peer

/-- A subscription to one of the two, made while `account` was signed in. -/
structure Subscription where
  account : Uid
  source : ListenerSource
  disposed : Bool
deriving DecidableEq, Repr

/-- A listener registered with Firestore, and the subscription that registered it. -/
structure SnapshotListener where
  collection : CollectionPath
  subscription : Nat
deriving DecidableEq, Repr

/-- The session; the screens shown, a chat before what it was opened from, and those left
but not yet deallocated, each with the subscription of its view model; all subscriptions;
and the listeners registered with Firestore. -/
structure ListeningScreens where
  session : Option Uid
  shown : List (Option Nat)
  left : List (Option Nat)
  subscriptions : List Subscription
  listeners : List SnapshotListener
deriving DecidableEq, Repr

/-- What can happen. -/
inductive ListeningEvent where
  | signedIn (uid : Uid)
  | signedOut
  /-- `switchToConversationVC()`. -/
  | conversationsShown
  /-- `switchToLoginVC()`. -/
  | loginShown
  | chatOpened (user : User)
  | chatClosed
  /-- Nothing refers any more to the screen at position `k` of those left: it is
  deallocated, with its view model and both dispose bags. -/
  | deallocated (k : Nat)
deriving DecidableEq, Repr

namespace ListeningScreens

/-- Nobody is signed in and nothing is listened to. -/
def initial : ListeningScreens where
  session := none
  shown := []
  left := []
  subscriptions := []
  listeners := []

/-- A view model subscribes to a source.  Without a session that is `Observable.empty()`,
which ends at once; otherwise a listener is registered, and its registration dropped. -/
def subscribe (s : ListeningScreens) (source : ListenerSource) :
    ListeningScreens × Option Nat :=
  match s.session with
  | none => (s, none)
  | some uid =>
      ({ s with
          subscriptions := s.subscriptions ++ [⟨uid, source, false⟩]
          listeners :=
            s.listeners ++ [⟨source.collection uid, s.subscriptions.length⟩] },
        some s.subscriptions.length)

/-- Subscription `i` is disposed: the observer is completed, and that is all. -/
def dispose (s : ListeningScreens) (i : Nat) : ListeningScreens :=
  { s with
    subscriptions := s.subscriptions.modify i fun sub => { sub with disposed := true } }

/-- One event. -/
def step (s : ListeningScreens) : ListeningEvent → Option ListeningScreens
  | .signedIn uid => some { s with session := some uid }
  | .signedOut => some { s with session := none }
  | .conversationsShown =>
      let subscribed := s.subscribe .conversations
      some
        { subscribed.1 with
          shown := [subscribed.2]
          left := subscribed.1.left ++ s.shown }
  | .loginShown => some { s with shown := [], left := s.left ++ s.shown }
  | .chatOpened user =>
      let subscribed := s.subscribe (.messages user.uid)
      if s.shown = [] then none
      else some { subscribed.1 with shown := subscribed.2 :: s.shown }
  | .chatClosed =>
      match s.shown with
      | chat :: below :: rest =>
          some { s with shown := below :: rest, left := s.left ++ [chat] }
      | _ => none
  | .deallocated k => do
      let subscription ← s.left[k]?
      let s' := { s with left := s.left.eraseIdx k }
      return subscription.elim s' s'.dispose

/-! ## Listeners and subscriptions -/

/-- The subscriptions that have not been disposed. -/
def undisposed (s : ListeningScreens) : List Nat :=
  (List.range s.subscriptions.length).filter fun i =>
    ∀ sub ∈ s.subscriptions[i]?, sub.disposed = false

/-- The listeners registered and the subscriptions not disposed correspond one to one. -/
def OneToOne (s : ListeningScreens) : Prop :=
  (s.listeners.map SnapshotListener.subscription).Perm s.undisposed

instance : DecidablePred OneToOne := fun s =>
  inferInstanceAs (Decidable ((s.listeners.map SnapshotListener.subscription).Perm s.undisposed))

/-- Each subscription has registered its listener, and the screens have subscriptions
that have been made. -/
structure Sound (s : ListeningScreens) : Prop where
  registered :
    s.listeners.map SnapshotListener.subscription = List.range s.subscriptions.length
  subscribed : ∀ i, some i ∈ s.shown ++ s.left → i < s.subscriptions.length

/-- The listeners are those of the live subscriptions as long as none has been
disposed. -/
theorem oneToOne_iff {s : ListeningScreens} (hs : s.Sound) :
    s.OneToOne ↔ ∀ sub ∈ s.subscriptions, sub.disposed = false := by
  unfold OneToOne undisposed
  rw [hs.registered]
  constructor
  · intro hperm sub hsub
    have hall : ∀ i ∈ List.range s.subscriptions.length,
        ∀ sub ∈ s.subscriptions[i]?, sub.disposed = false := by
      have hlength := List.length_filter_eq_length_iff.1 hperm.length_eq.symm
      simpa using hlength
    rcases List.mem_iff_getElem?.1 hsub with ⟨i, hi⟩
    exact hall i (List.mem_range.2 (List.getElem?_eq_some_iff.1 hi).1) sub hi
  · intro hall
    rw [List.filter_eq_self.2]
    intro i _
    simp only [decide_eq_true_eq]
    intro sub hsub
    exact hall sub (List.mem_of_getElem? hsub)

/-! ## The effect of one event -/

/-- A new subscription has its listener; nothing is disposed. -/
theorem subscribe_cases (s : ListeningScreens) (source : ListenerSource) :
    s.subscribe source = (s, none) ∨
    ∃ uid, s.session = some uid ∧ s.subscribe source =
      ({ s with
          subscriptions := s.subscriptions ++ [⟨uid, source, false⟩]
          listeners :=
            s.listeners ++ [⟨source.collection uid, s.subscriptions.length⟩] },
        some s.subscriptions.length) := by
  unfold subscribe
  cases hsession : s.session with
  | none => exact Or.inl rfl
  | some uid => exact Or.inr ⟨uid, rfl, rfl⟩

/-- Screens that show or have left what was shown or left before. -/
theorem Sound.screens {s : ListeningScreens} (hs : s.Sound) {shown left : List (Option Nat)}
    (h : ∀ i, some i ∈ shown ++ left → some i ∈ s.shown ++ s.left) (session : Option Uid) :
    Sound { s with session := session, shown := shown, left := left } :=
  ⟨hs.registered, fun i hi => hs.subscribed i (h i hi)⟩

/-- The subscription of a new screen is one that has been made. -/
theorem Sound.subscribe {s : ListeningScreens} (hs : s.Sound) (source : ListenerSource)
    {shown left : List (Option Nat)}
    (h : ∀ i, some i ∈ shown ++ left →
      some i ∈ s.shown ++ s.left ∨ some i = (s.subscribe source).2) :
    Sound { (s.subscribe source).1 with shown := shown, left := left } := by
  rcases subscribe_cases s source with heq | ⟨uid, -, heq⟩
  · rw [heq] at h ⊢
    refine hs.screens (fun i hi => ?_) s.session
    rcases h i hi with hold | hnew
    · exact hold
    · cases hnew
  · rw [heq] at h ⊢
    constructor
    · simp [hs.registered, List.range_succ]
    · intro i hi
      simp only [List.length_append, List.length_singleton]
      rcases h i hi with hold | hnew
      · exact Nat.lt_succ_of_lt (hs.subscribed i hold)
      · rw [Option.some.inj hnew]
        exact Nat.lt_succ_self _

/-- The event does not deallocate a screen whose view model has subscribed. -/
def DisposesNothing (s : ListeningScreens) : ListeningEvent → Prop
  | .deallocated k => ∀ subscription ∈ s.left[k]?, subscription = none
  | _ => True

instance (s : ListeningScreens) : DecidablePred s.DisposesNothing
  | .signedIn _ => inferInstanceAs (Decidable True)
  | .signedOut => inferInstanceAs (Decidable True)
  | .conversationsShown => inferInstanceAs (Decidable True)
  | .loginShown => inferInstanceAs (Decidable True)
  | .chatOpened _ => inferInstanceAs (Decidable True)
  | .chatClosed => inferInstanceAs (Decidable True)
  | .deallocated k =>
      inferInstanceAs (Decidable (∀ subscription ∈ s.left[k]?, subscription = none))

/-- Everything one event can do: move screens, show one with a new subscription, or dispose
of the subscription of a screen that was left. -/
theorem step_cases {s s' : ListeningScreens} {e : ListeningEvent} (h : step s e = some s') :
    (∃ session shown left, s.DisposesNothing e ∧
      (∀ i, some i ∈ shown ++ left → some i ∈ s.shown ++ s.left) ∧
      s' = { s with session := session, shown := shown, left := left }) ∨
    (∃ source shown left, s.DisposesNothing e ∧
      (∀ i, some i ∈ shown ++ left →
        some i ∈ s.shown ++ s.left ∨ some i = (s.subscribe source).2) ∧
      s' = { (s.subscribe source).1 with shown := shown, left := left }) ∨
    ∃ k i, e = .deallocated k ∧ s.left[k]? = some (some i) ∧
      s' = { s with left := s.left.eraseIdx k }.dispose i := by
  cases e with
  | signedIn uid =>
      exact Or.inl ⟨some uid, s.shown, s.left, trivial, fun _ hi => hi, (Option.some.inj h).symm⟩
  | signedOut =>
      exact Or.inl ⟨none, s.shown, s.left, trivial, fun _ hi => hi, (Option.some.inj h).symm⟩
  | conversationsShown =>
      have hleft : (s.subscribe .conversations).1.left = s.left := by
        rcases subscribe_cases s .conversations with heq | ⟨uid, -, heq⟩ <;> rw [heq]
      refine Or.inr (Or.inl ⟨.conversations, _, _, trivial, ?_, (Option.some.inj h).symm⟩)
      intro i hi
      rw [hleft] at hi
      simp only [List.mem_append, List.mem_singleton] at hi ⊢
      tauto
  | loginShown =>
      refine Or.inl ⟨s.session, _, _, trivial, ?_, (Option.some.inj h).symm⟩
      intro i hi
      simp only [List.nil_append, List.mem_append] at hi ⊢
      exact hi.symm
  | chatOpened user =>
      have hleft : (s.subscribe (.messages user.uid)).1.left = s.left := by
        rcases subscribe_cases s (.messages user.uid) with heq | ⟨uid, -, heq⟩ <;> rw [heq]
      simp only [step, Option.ite_none_left_eq_some, Option.some.injEq] at h
      refine Or.inr (Or.inl ⟨.messages user.uid, _, _, trivial, ?_, h.2.symm⟩)
      intro i hi
      rw [hleft] at hi
      simp only [List.cons_append, List.mem_cons] at hi
      exact hi.symm
  | chatClosed =>
      simp only [step] at h
      split at h
      · rename_i chat below rest hshown
        refine Or.inl ⟨s.session, _, _, trivial, ?_, (Option.some.inj h).symm⟩
        intro i hi
        rw [hshown]
        simp only [List.mem_append, List.mem_cons] at hi ⊢
        tauto
      · cases h
  | deallocated k =>
      simp only [step, bind_pure_eq_some] at h
      rcases h with ⟨subscription, hget, rfl⟩
      cases subscription with
      | none =>
          refine Or.inl ⟨s.session, s.shown, s.left.eraseIdx k, ?_, ?_, rfl⟩
          · simp [DisposesNothing, hget]
          · intro i hi
            rcases List.mem_append.1 hi with hi | hi
            · exact List.mem_append_left _ hi
            · exact List.mem_append_right _ (List.mem_of_mem_eraseIdx hi)
      | some i => exact Or.inr (Or.inr ⟨k, i, rfl, hget, rfl⟩)

theorem sound_step {s s' : ListeningScreens} {e : ListeningEvent} (hs : s.Sound)
    (hstep : step s e = some s') : s'.Sound := by
  rcases step_cases hstep with ⟨session, shown, left, -, hscreens, rfl⟩ |
    ⟨source, shown, left, -, hscreens, rfl⟩ | ⟨k, i, -, -, rfl⟩
  · exact hs.screens hscreens session
  · exact hs.subscribe source hscreens
  · refine ⟨by simpa [dispose] using hs.registered, ?_⟩
    intro j hj
    have hold : some j ∈ s.shown ++ s.left := by
      rcases List.mem_append.1 hj with hj | hj
      · exact List.mem_append_left _ hj
      · exact List.mem_append_right _ (List.mem_of_mem_eraseIdx hj)
    simpa [dispose] using hs.subscribed j hold

/-- A new subscription is not disposed. -/
theorem forall_subscriptions_subscribe {s : ListeningScreens}
    (h : ∀ sub ∈ s.subscriptions, sub.disposed = false) (source : ListenerSource) :
    ∀ sub ∈ (s.subscribe source).1.subscriptions, sub.disposed = false := by
  rcases subscribe_cases s source with heq | ⟨uid, -, heq⟩
  · rw [heq]
    exact h
  · rw [heq]
    simp only [List.forall_mem_append, List.forall_mem_singleton]
    exact ⟨h, trivial⟩

/-- Disposing a subscription that has been made leaves one that is disposed. -/
theorem exists_disposed_dispose {s : ListeningScreens} {i : Nat}
    (hi : i < s.subscriptions.length) :
    ∃ sub ∈ (s.dispose i).subscriptions, sub.disposed = true := by
  refine ⟨{ s.subscriptions[i] with disposed := true }, ?_, rfl⟩
  refine List.mem_of_getElem? (i := i) ?_
  simp [dispose, hi]

/-- A step keeps all subscriptions undisposed exactly if it deallocates no screen that has
one. -/
theorem undisposed_step {s s' : ListeningScreens} {e : ListeningEvent} (hs : s.Sound)
    (h : ∀ sub ∈ s.subscriptions, sub.disposed = false) (hstep : step s e = some s') :
    (∀ sub ∈ s'.subscriptions, sub.disposed = false) ↔ s.DisposesNothing e := by
  rcases step_cases hstep with ⟨session, shown, left, hnothing, -, rfl⟩ |
    ⟨source, shown, left, hnothing, -, rfl⟩ | ⟨k, i, rfl, hget, rfl⟩
  · exact iff_of_true h hnothing
  · exact iff_of_true (forall_subscriptions_subscribe h source) hnothing
  · have hi : i < s.subscriptions.length :=
      hs.subscribed i (List.mem_append_right _ (List.mem_of_getElem? hget))
    refine iff_of_false ?_ (by simp [DisposesNothing, hget])
    intro hall
    rcases exists_disposed_dispose (s := { s with left := s.left.eraseIdx k }) hi with
      ⟨sub, hsub, hdisposed⟩
    rw [hall sub hsub] at hdisposed
    cases hdisposed

theorem sound_initial : initial.Sound :=
  ⟨rfl, by simp [initial]⟩

/-- **When the listeners are released.**  The listeners registered and the subscriptions
not disposed correspond one to one throughout a run exactly if no screen is deallocated
whose view model has registered a listener. -/
theorem listeners_iff {es : List ListeningEvent} {s : ListeningScreens}
    (hrun : run step initial es = some s) :
    Always step OneToOne initial es ↔ StepsMeet step DisposesNothing initial es := by
  refine always_iff_stepsMeet (I := Sound) ?_ ?_ sound_initial ?_ hrun
  · intro a e b ha hab
    exact sound_step ha hab
  · intro a e b ha hone hab
    rw [oneToOne_iff (sound_step ha hab)]
    exact undisposed_step ha ((oneToOne_iff ha).1 hone) hab
  · exact (oneToOne_iff sound_initial).2 (by simp [initial])

/-- The conversation list is put up without a session first, and again after the
sign-in; then a chat is opened and closed, and stays referred to. -/
def keptChat : List ListeningEvent :=
  [.conversationsShown, .signedIn "alice", .conversationsShown, .deallocated 0,
   .chatOpened (.sample "bob"), .chatClosed]

theorem listeners_iff_keptChat : Always step OneToOne initial keptChat :=
  (listeners_iff (run_final rfl)).2 (by decide)

/-- A chat is opened and closed, and the account changed. -/
def closedChat : List ListeningEvent :=
  [.signedIn "alice", .conversationsShown, .chatOpened (.sample "bob"), .chatClosed,
   .deallocated 0, .signedOut, .loginShown, .signedIn "carol", .conversationsShown]

/-- The listener to the messages of `alice` is registered still. -/
theorem not_oneToOne_of_closedChat :
    ∃ s, run step initial closedChat = some s ∧ ¬ s.OneToOne ∧
      ⟨"alice", .messages "bob", true⟩ ∈ s.subscriptions ∧
      ⟨logPath "alice" "bob", 1⟩ ∈ s.listeners :=
  ⟨_, run_final rfl, by decide, by decide, by decide⟩

end ListeningScreens

end WaffleChat
