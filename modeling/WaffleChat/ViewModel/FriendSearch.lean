import WaffleChat.ViewModel.NewMessageSteps

/-!
# The users that are searched

The search of the friend list filters `baseUsersForFiltering`, which only the initial
fetch writes; the other two pipelines write the users shown and nothing else.

Main results:

- Theorem `searchesReceived_iff`: a text in effect finds its users among those received
  last exactly if it finds the same ones among those of the initial fetch.
- Theorem `searches_iff`: in which runs every search looks at the users received last.
-/

namespace WaffleChat

open EventSystem Observers

/-- A fetch succeeds. -/
def NewMessageEvent.Succeeds : NewMessageEvent → Prop
  | .respond _ answer => answer.error = none
  | _ => True

instance : DecidablePred NewMessageEvent.Succeeds
  | .textChanged _ _ => inferInstanceAs (Decidable True)
  | .throttleFires => inferInstanceAs (Decidable True)
  | .pull => inferInstanceAs (Decidable True)
  | .cancel => inferInstanceAs (Decidable True)
  | .respond _ answer => inferInstanceAs (Decidable (answer.error = none))

namespace NewMessage

/-- The users of a fetch, if the event delivers some. -/
def delivers (s : NewMessage) : NewMessageEvent → Option (List User)
  | .respond i answer =>
      (s.fetches[i]?).bind fun fetch =>
        if s.listens fetch.pipeline = true ∧ answer.error = none then some answer.users else none
  | _ => none

/-- No fetch is in flight, but for the one that is answered by the event. -/
def NothingInFlight (s : NewMessage) : NewMessageEvent → Prop
  | .respond i _ => ∀ fetch ∈ s.fetches.eraseIdx i, fetch.answer.isSome = true
  | _ => ∀ fetch ∈ s.fetches, fetch.answer.isSome = true

instance (s : NewMessage) : DecidablePred s.NothingInFlight
  | .textChanged _ _ =>
      inferInstanceAs (Decidable (∀ fetch ∈ s.fetches, fetch.answer.isSome = true))
  | .throttleFires =>
      inferInstanceAs (Decidable (∀ fetch ∈ s.fetches, fetch.answer.isSome = true))
  | .pull => inferInstanceAs (Decidable (∀ fetch ∈ s.fetches, fetch.answer.isSome = true))
  | .cancel => inferInstanceAs (Decidable (∀ fetch ∈ s.fetches, fetch.answer.isSome = true))
  | .respond i _ =>
      inferInstanceAs (Decidable (∀ fetch ∈ s.fetches.eraseIdx i, fetch.answer.isSome = true))

/-- The text that takes effect: an element of `inputText`, or the one there was before when
the initial users arrive. -/
def takesEffect (lowercased : String → String) (s : NewMessage) (e : NewMessageEvent) :
    Option String :=
  match e with
  | .respond i _ => if s.fetches[i]? = some ⟨.fetchedUsers, none⟩ then s.inputText else none
  | _ => s.emits lowercased e

end NewMessage

/-- The screen, and the result received last from whichever pipeline. -/
structure FriendSearch where
  screen : NewMessage
  received : Option (List User)
deriving DecidableEq, Repr

namespace FriendSearch

variable (lowercased : String → String) (contains : String → String → Bool)

/-- The screen after its initializer; nothing has been received. -/
def initial : FriendSearch where
  screen := .initial
  received := none

/-- One event of the screen, and what it delivers. -/
def step (s : FriendSearch) (e : NewMessageEvent) : Option FriendSearch := do
  let screen ← s.screen.step lowercased contains e
  return { screen := screen, received := (s.screen.delivers e).or s.received }

/-- When a non-empty text takes effect while no fetch is in flight, the users become those
it finds among the users received last. -/
def SearchesReceived (s : FriendSearch) (e : NewMessageEvent) : Prop :=
  ∀ text ∈ s.screen.takesEffect lowercased e, text ≠ "" → s.screen.NothingInFlight e →
    ∀ s', step lowercased contains s e = some s' →
      ∃ result, s'.received = some result ∧
        s'.screen.users = result.filter fun user => NewMessage.Found lowercased contains text user

/-- A non-empty text that arrives while no fetch is in flight finds the same users among
those of the initial fetch as among those received last. -/
def BaseReceived (s : FriendSearch) (e : NewMessageEvent) : Prop :=
  ∀ text ∈ s.screen.emits lowercased e, text ≠ "" → s.screen.NothingInFlight e →
    ∀ base ∈ s.screen.baseUsersForFiltering, ∀ result ∈ s.received,
      (base.filter fun user => NewMessage.Found lowercased contains text user) =
        result.filter fun user => NewMessage.Found lowercased contains text user

instance (s : FriendSearch) : DecidablePred (s.BaseReceived lowercased contains) := fun e =>
  inferInstanceAs (Decidable (∀ text ∈ s.screen.emits lowercased e, text ≠ "" →
    s.screen.NothingInFlight e → ∀ base ∈ s.screen.baseUsersForFiltering,
      ∀ result ∈ s.received, _ = _))

/-! ## The initial users -/

/-- The initial fetch is in flight, or its users are there to be searched and something has
been received. -/
structure Sound (s : FriendSearch) : Prop where
  screen : s.screen.Sound
  fetched : ⟨.fetchedUsers, none⟩ ∈ s.screen.fetches ∨
    (s.screen.baseUsersForFiltering.isSome = true ∧ s.received.isSome = true)

theorem sound_initial : initial.Sound :=
  ⟨NewMessage.sound_initial, Or.inl List.mem_cons_self⟩

theorem step_eq_some {s s' : FriendSearch} {e : NewMessageEvent}
    (h : step lowercased contains s e = some s') :
    s.screen.step lowercased contains e = some s'.screen ∧
      s'.received = (s.screen.delivers e).or s.received := by
  simp only [step, bind_pure_eq_some] at h
  rcases h with ⟨screen, hscreen, rfl⟩
  exact ⟨hscreen, rfl⟩

/-- Without a response nothing is delivered. -/
theorem delivers_eq_none {s : NewMessage} {e : NewMessageEvent}
    (h : ∀ i answer, e ≠ .respond i answer) : s.delivers e = none := by
  cases e with
  | respond i answer => exact absurd rfl (h i answer)
  | textChanged key elapsed => rfl
  | throttleFires => rfl
  | pull => rfl
  | cancel => rfl

/-- An answered initial fetch has delivered its users. -/
theorem delivers_initial {s : NewMessage} (hs : s.Sound) {i : Nat} {answer : UsersAnswer}
    (hget : s.fetches[i]? = some ⟨.fetchedUsers, none⟩) (herror : answer.error = none) :
    s.delivers (.respond i answer) = some answer.users := by
  have hlistens : s.listens .fetchedUsers = true := by
    simp [NewMessage.listens, hs.initial_live (List.mem_of_getElem? hget), RetrySink.fresh]
  simp [NewMessage.delivers, hget, hlistens, herror]

/-- An initial fetch that succeeds leaves its users to be searched. -/
theorem base_responded {s s' : NewMessage} {answer : UsersAnswer} {pipeline : Pipeline}
    (herror : answer.error = none)
    (hresponded : NewMessage.Responded lowercased contains s answer pipeline s') :
    (pipeline = .fetchedUsers → s'.baseUsersForFiltering = some answer.users ∧
      s'.users = s.inputText.elim answer.users fun text =>
        NewMessage.narrowed lowercased contains text answer.users answer.users) ∧
      (pipeline ≠ .fetchedUsers →
        s'.baseUsersForFiltering = s.baseUsersForFiltering ∧ s'.fetches = s.fetches) := by
  cases hresponded with
  | unheard a b hpipeline => exact ⟨fun h => absurd h hpipeline, fun _ => ⟨rfl, rfl⟩⟩
  | fetched =>
      have hstarts := NewMessage.starts_onFetched lowercased contains
        { s with fetchedUsers := ⟨false, true⟩ } answer.users
      exact ⟨fun _ => ⟨hstarts.base_eq, hstarts.users_eq⟩, fun h => absurd rfl h⟩
  | fetchFailed e hfailed => exact absurd (herror.symm.trans hfailed) (by simp)
  | reFetched inner => exact ⟨fun h => (by cases h), fun _ => ⟨rfl, rfl⟩⟩
  | reFetchFailed inner hlistens e hfailed => exact absurd (herror.symm.trans hfailed) (by simp)
  | reloaded inner => exact ⟨fun h => (by cases h), fun _ => ⟨rfl, rfl⟩⟩
  | reloadFailed inner hlistens e hfailed => exact absurd (herror.symm.trans hfailed) (by simp)

theorem sound_step {s s' : FriendSearch} {e : NewMessageEvent} (he : e.Succeeds) (hs : s.Sound)
    (hstep : step lowercased contains s e = some s') : s'.Sound := by
  rcases step_eq_some lowercased contains hstep with ⟨hscreen, hreceived⟩
  refine ⟨NewMessage.sound_step lowercased contains hs.screen hscreen, ?_⟩
  rcases NewMessage.step_cases lowercased contains hs.screen hscreen with ⟨hother, hstarts⟩ |
    ⟨i, answer, pipeline, rfl, hget, hresponded⟩
  · have hbase : s'.screen.baseUsersForFiltering = s.screen.baseUsersForFiltering := by
      rw [hstarts.base_eq, NewMessage.base_written]
    rcases hstarts.fetches with ⟨new, hnew, -⟩
    rw [hbase, hreceived, delivers_eq_none hother, Option.none_or, hnew,
      NewMessage.fetches_written]
    exact hs.fetched.imp_left (List.mem_append_left _)
  · have herror : answer.error = none := he
    rcases base_responded lowercased contains herror hresponded with ⟨hinitial, hlater⟩
    by_cases hpipeline : pipeline = .fetchedUsers
    · subst hpipeline
      right
      rw [(hinitial rfl).1, hreceived, delivers_initial hs.screen hget herror]
      exact ⟨rfl, rfl⟩
    · rcases hlater hpipeline with ⟨hbase, hfetches⟩
      rw [hbase, hfetches, hreceived]
      refine hs.fetched.imp ?_ ?_
      · intro hmem
        exact NewMessage.mem_answered_of_ne hget (Ne.symm hpipeline) hmem
      · rintro ⟨hsome, hresult⟩
        refine ⟨hsome, ?_⟩
        cases s.screen.delivers (.respond i answer) with
        | none => exact hresult
        | some users => rfl

/-- A text that takes effect finds its users among those received last exactly if it finds
the same ones among those of the initial fetch. -/
theorem searchesReceived_iff {s s' : FriendSearch} {e : NewMessageEvent} (he : e.Succeeds)
    (hs : s.Sound) (hstep : step lowercased contains s e = some s') :
    s.SearchesReceived lowercased contains e ↔ s.BaseReceived lowercased contains e := by
  rcases step_eq_some lowercased contains hstep with ⟨hscreen, hreceived⟩
  have hnext : s.SearchesReceived lowercased contains e ↔
      ∀ text ∈ s.screen.takesEffect lowercased e, text ≠ "" → s.screen.NothingInFlight e →
        ∃ result, s'.received = some result ∧ s'.screen.users =
          result.filter fun user => NewMessage.Found lowercased contains text user := by
    simp only [SearchesReceived, hstep, Option.some.injEq, forall_eq']
  rw [hnext]
  rcases NewMessage.step_cases lowercased contains hs.screen hscreen with ⟨hother, hstarts⟩ |
    ⟨i, answer, pipeline, rfl, hget, hresponded⟩
  · have htakes : s.screen.takesEffect lowercased e = s.screen.emits lowercased e := by
      cases e with
      | respond i answer => exact absurd rfl (hother i answer)
      | textChanged key elapsed => rfl
      | throttleFires => rfl
      | pull => rfl
      | cancel => rfl
    rw [htakes]
    refine forall₄_congr fun text htext hne hquiet => ?_
    have hfetched : s.screen.baseUsersForFiltering.isSome = true ∧ s.received.isSome = true := by
      refine hs.fetched.resolve_left fun hmem => ?_
      have hanswered : ∀ fetch ∈ s.screen.fetches, fetch.answer.isSome = true := by
        cases e with
        | respond i answer => exact absurd rfl (hother i answer)
        | textChanged key elapsed => exact hquiet
        | throttleFires => exact hquiet
        | pull => exact hquiet
        | cancel => exact hquiet
      cases hanswered _ hmem
    rcases Option.isSome_iff_exists.1 hfetched.1 with ⟨base, hbase⟩
    rcases Option.isSome_iff_exists.1 hfetched.2 with ⟨result, hresult⟩
    have husers : s'.screen.users =
        base.filter fun user => NewMessage.Found lowercased contains text user := by
      rw [hstarts.users_eq, NewMessage.users_written lowercased contains htext,
        NewMessage.searched, hbase]
      exact if_neg hne
    rw [hreceived, delivers_eq_none hother, Option.none_or, husers]
    simp only [hresult, hbase, Option.some.injEq, exists_eq_left', Option.mem_some_iff,
      forall_eq']
  · have herror : answer.error = none := he
    refine iff_of_true ?_ (by simp [BaseReceived, NewMessage.emits])
    intro text htext hne _
    have hpipeline : pipeline = .fetchedUsers ∧ s.screen.inputText = some text := by
      simp only [NewMessage.takesEffect, hget] at htext
      split at htext
      · rename_i hinitial
        cases hinitial
        exact ⟨rfl, htext⟩
      · cases htext
    obtain ⟨rfl, htext⟩ := hpipeline
    have husers := ((base_responded lowercased contains herror hresponded).1 rfl).2
    refine ⟨answer.users, ?_, ?_⟩
    · rw [hreceived, delivers_initial hs.screen hget herror]
      rfl
    · rw [husers, show (s.screen.answered i .fetchedUsers answer).inputText = some text from htext]
      exact if_neg hne

/-- **The search.**  In a run in which all fetches succeed, every non-empty text that takes
effect while no fetch is in flight is searched in the users received last exactly if it
finds the same users among those of the initial fetch. -/
theorem searches_iff {es : List NewMessageEvent} {s : FriendSearch}
    (hes : ∀ e ∈ es, e.Succeeds)
    (hrun : run (step lowercased contains) initial es = some s) :
    StepsMeet (step lowercased contains) (SearchesReceived lowercased contains) initial es ↔
      StepsMeet (step lowercased contains) (BaseReceived lowercased contains) initial es := by
  refine stepsMeet_congr_of (I := Sound) ?_ ?_ (stepsMeet_of_forall_mem hes) sound_initial hrun
  · intro a e b he ha hab
    exact sound_step lowercased contains he ha hab
  · intro a e b he ha hab
    exact searchesReceived_iff lowercased contains he ha hab

/-- A refetch delivers whom the initial fetch has delivered, and `alice` is searched. -/
def searchAfterSameUsers : List NewMessageEvent :=
  [.textChanged "" true, .respond 0 (.sample ["alice", "bob"]),
   .respond 1 (.sample ["alice", "bob"]), .pull, .respond 2 (.sample ["alice", "bob"]),
   .textChanged "alice" true]

theorem searches_iff_sameUsers :
    StepsMeet (step id (· == ·)) (SearchesReceived id (· == ·)) initial searchAfterSameUsers :=
  (searches_iff id (· == ·) (by decide) (run_final rfl)).2 (by decide)

/-- A pull delivers `bob`, whom the initial fetch has not delivered. -/
def newFriend : List NewMessageEvent :=
  [.textChanged "" true, .respond 0 (.sample ["alice"]), .respond 1 (.sample ["alice"]), .pull,
   .respond 2 (.sample ["alice", "bob"])]

/-- The search for `bob` finds nobody. -/
theorem not_searchesReceived_of_newFriend :
    (∀ e ∈ newFriend, e.Succeeds) ∧ ∃ s, run (step id (· == ·)) initial newFriend = some s ∧
      s.received = some (UsersAnswer.sample ["alice", "bob"]).users ∧
      ¬ s.SearchesReceived id (· == ·) (.textChanged "bob" true) := by
  refine ⟨by decide, _, run_final rfl, by decide, ?_⟩
  intro h
  rcases h "bob" rfl (by decide) (by decide) _ rfl with ⟨result, hresult, husers⟩
  cases hresult
  exact absurd husers (by decide)

end FriendSearch

end WaffleChat
