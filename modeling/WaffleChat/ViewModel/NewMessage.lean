import Mathlib.Data.Option.Basic
import WaffleChat.Library.EventSystem
import WaffleChat.Service.FetchUsers

/-!
# The friend list screen

`NewMessageViewModel` with the parts of `NewMessageController` it is bound to.  Three
pipelines fetch the users: the initial one, retried on a pull; the refetch pipeline,
triggered by a pull outside search and by the cancel button; and the reload on an empty
search text.  All of them and the search write the relay `users`.

Main results:

- Theorem `respond_cases`: everything the response to a fetch can do.
- Theorem `sound_of_reachable`: the state of the three pipelines in every run.
-/

namespace WaffleChat

open EventSystem Observers

/-- Who listens to a fetch: `fetchedUsers`, or an inner sequence of one of the two
`flatMapLatest`. -/
inductive Pipeline where
  | fetchedUsers
  | reFetchedUsers (inner : Nat)
  | reloadedUsers (inner : Nat)
deriving DecidableEq, Repr

/-- The fetch belongs to the refetch pipeline. -/
def Pipeline.isRefetch : Pipeline → Bool
  | .reFetchedUsers _ => true
  | _ => false

/-- A started `fetchUsers`, and its answer once it has come. -/
structure Fetch where
  pipeline : Pipeline
  answer : Option UsersAnswer
deriving DecidableEq, Repr

/-- The relay bindings behind the pipelines. -/
inductive Binding where
  | fetchedUsersToUsers
  | fetchedUsersToBase
  | reFetchedUsersToNetworking
  | reFetchedUsersToUsers
  | reloadedUsersToUsers
deriving DecidableEq, Repr

/-- The refresh control, the relays, the last elements the operators hold, the sinks of
the pipelines, the fetches in the order they were started, and the errors delivered to
the bindings. -/
structure NewMessage where
  spinner : Bool
  users : List User
  baseUsersForFiltering : Option (List User)
  onSearching : Bool
  refreshPulled : Bool
  filterKey : Option String
  throttle : ThrottleSink String
  inputText : Option String
  fetchedUsers : RetrySink
  reFetchedUsers : SwitchSink
  caught : CatchSink
  reloadedUsers : SwitchSink
  fetches : List Fetch
  bindingErrors : List (Binding × BackendError)
deriving DecidableEq, Repr

/-- What can happen next. -/
inductive NewMessageEvent where
  /-- `searchBar.rx.text` emits; `elapsed` says whether 300 ms have gone by since
  `inputText` last emitted. -/
  | textChanged (key : String) (elapsed : Bool)
  /-- The timer of `throttle` fires. -/
  | throttleFires
  /-- The pull gesture. -/
  | pull
  /-- `searchCancelButtonTapped`. -/
  | cancel
  /-- The request of fetch `i` is answered. -/
  | respond (i : Nat) (answer : UsersAnswer)
deriving DecidableEq, Repr

namespace NewMessage

/-! ## Starting fetches -/

/-- The view model after its initializer: the initial fetch is on its way. -/
def initial : NewMessage where
  spinner := false
  users := []
  baseUsersForFiltering := none
  onSearching := false
  refreshPulled := false
  filterKey := none
  throttle := .fresh
  inputText := none
  fetchedUsers := .fresh
  reFetchedUsers := .fresh
  caught := .fresh
  reloadedUsers := .fresh
  fetches := [⟨.fetchedUsers, none⟩]
  bindingErrors := []

/-- An element of the merged triggers: `onNetworking.accept(true)` turns the spinner on
and the users are fetched again, as long as the pipeline has not ended. -/
def refetch (s : NewMessage) : NewMessage :=
  if s.caught.disposed then s
  else
    { s with
      spinner := true
      reFetchedUsers := s.reFetchedUsers.next
      fetches := s.fetches ++ [⟨.reFetchedUsers (s.reFetchedUsers.latest + 1), none⟩] }

/-- `onSearching.accept`, which `combineLatest(refreshPulled, onSearching)` listens to. -/
def acceptSearching (s : NewMessage) (searching : Bool) : NewMessage :=
  let s' := { s with onSearching := searching }
  if s.refreshPulled && !searching then s'.refetch else s'

/-- `retryWhen` hears of a pull. -/
def retry (s : NewMessage) : NewMessage :=
  let notified := s.fetchedUsers.notify
  if notified.2 then
    { s with
      fetchedUsers := notified.1
      fetches := s.fetches ++ [⟨.fetchedUsers, none⟩] }
  else s

/-- The pull gesture turns the spinner on; `refreshPulled` reaches `retryWhen` first and
`combineLatest(refreshPulled, onSearching)` second. -/
def pulled (s : NewMessage) : NewMessage :=
  let s' := { { s with spinner := true }.retry with refreshPulled := true }
  if s.onSearching then s' else s'.refetch

section Search

variable (lowercased : String → String) (contains : String → String → Bool)

/-- The predicate of the search filter. -/
def Found (text : String) (user : User) : Prop :=
  contains (lowercased user.fullname) text = true ∨
    contains (lowercased user.username) text = true

instance (text : String) (user : User) : Decidable (Found lowercased contains text user) :=
  inferInstanceAs (Decidable (_ ∨ _))

/-- `combineLatest(inputText, baseUsersForFiltering)` emits. -/
def search (s : NewMessage) (text : String) (base : List User) : NewMessage :=
  if text = "" then s
  else
    { s.acceptSearching true with
      users := base.filter fun user => Found lowercased contains text user }

/-- The reload pipeline hears of an element of `inputText`. -/
def reload (s : NewMessage) (text : String) : NewMessage :=
  if text ≠ "" || s.reloadedUsers.disposed then s
  else
    let s' := s.acceptSearching false
    { s' with
      reloadedUsers := s'.reloadedUsers.next
      fetches := s'.fetches ++ [⟨.reloadedUsers (s'.reloadedUsers.latest + 1), none⟩] }

/-- `inputText` emits; the search hears of it first and the reload pipeline second. -/
def emitText (s : NewMessage) (text : String) : NewMessage :=
  let s' := { s with inputText := some text }
  (s'.baseUsersForFiltering.elim s' (s'.search lowercased contains text)).reload text

/-- An element of `filterKey`, behind `distinctUntilChanged` and `throttle`. -/
def textChanged (s : NewMessage) (key : String) (elapsed : Bool) : NewMessage :=
  if s.filterKey = some key then s
  else
    let throttled := s.throttle.on elapsed key
    let s' := { s with filterKey := some key, throttle := throttled.1 }
    throttled.2.elim s' fun key => s'.emitText lowercased contains (lowercased key)

/-- The timer of `throttle` fires. -/
def throttleFires (s : NewMessage) : NewMessage :=
  let throttled := s.throttle.propagate
  let s' := { s with throttle := throttled.1 }
  throttled.2.elim s' fun key => s'.emitText lowercased contains (lowercased key)

/-! ## Responses -/

/-- The bindings of `fetchedUsers`, to `users` and to `baseUsersForFiltering`, which the
search listens to. -/
def onFetched (s : NewMessage) : Event BackendError (List User) → NewMessage
  | .next users =>
      let s' := { s with users := users, baseUsersForFiltering := some users }
      s'.inputText.elim s' fun text => s'.search lowercased contains text users
  | .error e =>
      { s with
        bindingErrors :=
          s.bindingErrors ++ [(.fetchedUsersToUsers, e), (.fetchedUsersToBase, e)] }
  | .completed => s

/-- The bindings of `reFetchedUsers`, to `onNetworking` and to `users`. -/
def onReFetched (s : NewMessage) : Event BackendError (List User) → NewMessage
  | .next users => { s with spinner := false, users := users }
  | .error e =>
      { s with
        bindingErrors :=
          s.bindingErrors ++ [(.reFetchedUsersToNetworking, e), (.reFetchedUsersToUsers, e)] }
  | .completed => s

/-- The binding of the reload pipeline, to `users`. -/
def onReloaded (s : NewMessage) : Event BackendError (List User) → NewMessage
  | .next users => { s with users := users }
  | .error e => { s with bindingErrors := s.bindingErrors ++ [(.reloadedUsersToUsers, e)] }
  | .completed => s

/-- The events of a fetch go through the sinks of its pipeline to its bindings. -/
def deliver (s : NewMessage) (events : List (Event BackendError (List User))) :
    Pipeline → NewMessage
  | .fetchedUsers =>
      let retried := feed RetrySink.on s.fetchedUsers events
      retried.2.foldl (onFetched lowercased contains) { s with fetchedUsers := retried.1 }
  | .reFetchedUsers inner =>
      let switched := feed (fun sink event => sink.inner inner event) s.reFetchedUsers events
      let caught := feed (CatchSink.on []) s.caught switched.2
      caught.2.foldl onReFetched { s with reFetchedUsers := switched.1, caught := caught.1 }
  | .reloadedUsers inner =>
      let switched := feed (fun sink event => sink.inner inner event) s.reloadedUsers events
      switched.2.foldl onReloaded { s with reloadedUsers := switched.1 }

/-- One event. -/
def step (s : NewMessage) : NewMessageEvent → Option NewMessage
  | .textChanged key elapsed => some (s.textChanged lowercased contains key elapsed)
  | .throttleFires => some (s.throttleFires lowercased contains)
  | .pull => some s.pulled
  | .cancel => some s.refetch
  | .respond i answer => do
      let fetch ← s.fetches[i]?
      guard (fetch.answer = none)
      let s' := { s with fetches := s.fetches.set i { fetch with answer := some answer } }
      return s'.deliver lowercased contains
        (feed CreateSink.on CreateSink.fresh (fetchUsers answer)).2 fetch.pipeline

/-! ## Responses, pipeline by pipeline -/

/-- Somebody listens to the fetches of the pipeline. -/
def listens (s : NewMessage) : Pipeline → Bool
  | .fetchedUsers => !s.fetchedUsers.disposed
  | .reFetchedUsers inner => s.reFetchedUsers.latest = inner && !s.reFetchedUsers.disposed
  | .reloadedUsers inner => s.reloadedUsers.latest = inner && !s.reloadedUsers.disposed

/-- A refetch is listened to while it is the latest one and the pipeline has not ended. -/
theorem listens_reFetchedUsers {s : NewMessage} {inner : Nat} :
    s.listens (.reFetchedUsers inner) = true ↔
      s.reFetchedUsers.latest = inner ∧ s.reFetchedUsers.disposed = false := by
  simp [listens]

/-- A reload is listened to while it is the latest one and the pipeline has not ended. -/
theorem listens_reloadedUsers {s : NewMessage} {inner : Nat} :
    s.listens (.reloadedUsers inner) = true ↔
      s.reloadedUsers.latest = inner ∧ s.reloadedUsers.disposed = false := by
  simp [listens]

/-- What the initial fetch delivers: its users, or the error behind the retry. -/
theorem deliver_fetched {s : NewMessage} (hfresh : s.fetchedUsers = .fresh)
    (answer : UsersAnswer) :
    s.deliver lowercased contains (fetchUsers answer) .fetchedUsers =
      answer.error.elim
        ({ s with fetchedUsers := ⟨false, true⟩ }.onFetched lowercased contains
          (.next answer.users))
        fun _ => { s with fetchedUsers := ⟨true, false⟩ } := by
  cases herror : answer.error with
  | none =>
      simp [deliver, fetchUsers, herror, hfresh, RetrySink.on, RetrySink.fresh, onFetched]
  | some e => simp [deliver, fetchUsers, herror, hfresh, RetrySink.on, RetrySink.fresh]

/-- What a refetch delivers: its users, or the end of the pipeline. -/
theorem deliver_reFetched {s : NewMessage} {inner : Nat}
    (hlistens : s.listens (.reFetchedUsers inner) = true)
    (hcaught : s.caught.disposed = false) (hrunning : s.reFetchedUsers.stopped = false)
    (answer : UsersAnswer) :
    s.deliver lowercased contains (fetchUsers answer) (.reFetchedUsers inner) =
      answer.error.elim
        { s with
          spinner := false
          users := answer.users
          reFetchedUsers := { s.reFetchedUsers with hasLatest := false } }
        fun _ =>
          { s with
            spinner := false
            users := []
            reFetchedUsers := { s.reFetchedUsers with disposed := true }
            caught := ⟨true⟩ } := by
  rcases listens_reFetchedUsers.1 hlistens with ⟨hlatest, hlive⟩
  cases herror : answer.error with
  | none =>
      simp [deliver, fetchUsers, herror, SwitchSink.inner, SwitchSink.forward, hlatest, hlive,
        hrunning, CatchSink.on_next hcaught, onReFetched]
  | some e =>
      simp [deliver, fetchUsers, herror, SwitchSink.inner, SwitchSink.forward, hlatest, hlive,
        CatchSink.on_error hcaught, onReFetched]

/-- What a reload delivers: its users, or the end of the pipeline. -/
theorem deliver_reloaded {s : NewMessage} {inner : Nat}
    (hlistens : s.listens (.reloadedUsers inner) = true)
    (hrunning : s.reloadedUsers.stopped = false) (answer : UsersAnswer) :
    s.deliver lowercased contains (fetchUsers answer) (.reloadedUsers inner) =
      answer.error.elim
        { s with
          users := answer.users
          reloadedUsers := { s.reloadedUsers with hasLatest := false } }
        fun e =>
          { s with
            reloadedUsers := { s.reloadedUsers with disposed := true }
            bindingErrors := s.bindingErrors ++ [(.reloadedUsersToUsers, e)] } := by
  rcases listens_reloadedUsers.1 hlistens with ⟨hlatest, hlive⟩
  cases herror : answer.error with
  | none =>
      simp [deliver, fetchUsers, herror, SwitchSink.inner, SwitchSink.forward, hlatest, hlive,
        hrunning, onReloaded]
  | some e =>
      simp [deliver, fetchUsers, herror, SwitchSink.inner, SwitchSink.forward, hlatest, hlive,
        onReloaded]

/-- Nothing happens when nobody listens. -/
theorem deliver_unheard {s : NewMessage} {pipeline : Pipeline}
    (hlistens : s.listens pipeline = false) (hpipeline : pipeline ≠ .fetchedUsers)
    (events : List (Event BackendError (List User))) :
    ∃ a b, s.deliver lowercased contains events pipeline =
      { s with
        reFetchedUsers := { s.reFetchedUsers with hasLatest := a }
        reloadedUsers := { s.reloadedUsers with hasLatest := b } } := by
  have hunheard : ∀ {sink : SwitchSink} {inner : Nat},
      (decide (sink.latest = inner) && !sink.disposed) = false →
        sink.latest ≠ inner ∨ sink.disposed = true := by
    intro sink inner h
    by_cases hlatest : sink.latest = inner
    · exact Or.inr (by simpa [hlatest] using h)
    · exact Or.inl hlatest
  cases pipeline with
  | fetchedUsers => exact absurd rfl hpipeline
  | reFetchedUsers inner =>
      rcases SwitchSink.feed_inner_unheard (hunheard hlistens) events with ⟨a, ha⟩
      exact ⟨a, s.reloadedUsers.hasLatest, by simp only [deliver, ha]; rfl⟩
  | reloadedUsers inner =>
      rcases SwitchSink.feed_inner_unheard (hunheard hlistens) events with ⟨b, hb⟩
      exact ⟨s.reFetchedUsers.hasLatest, b, by simp only [deliver, hb]; rfl⟩

end Search

/-! ## The three pipelines in every run -/

/-- Neither `flatMapLatest` has seen its source complete, and the refetch pipeline ends
with its error handler.  Inner sequences are numbered up to the latest; no two fetches
of one sequence are unanswered; the latest refetch and an initial fetch that are not
answered are listened to. -/
structure Sound (s : NewMessage) : Prop where
  caught_eq : s.caught.disposed = s.reFetchedUsers.disposed
  refetch_running : s.reFetchedUsers.stopped = false
  reload_running : s.reloadedUsers.stopped = false
  refetch_numbered : ∀ inner answer, ⟨.reFetchedUsers inner, answer⟩ ∈ s.fetches →
    inner ≤ s.reFetchedUsers.latest
  reload_numbered : ∀ inner answer, ⟨.reloadedUsers inner, answer⟩ ∈ s.fetches →
    inner ≤ s.reloadedUsers.latest
  unique : ∀ pipeline, s.fetches.count ⟨pipeline, none⟩ ≤ 1
  refetch_live : ⟨.reFetchedUsers s.reFetchedUsers.latest, none⟩ ∈ s.fetches →
    s.reFetchedUsers.disposed = false
  initial_live : ⟨.fetchedUsers, none⟩ ∈ s.fetches → s.fetchedUsers = .fresh

/-- The screen starts with the initial fetch outstanding. -/
theorem sound_initial : Sound initial := by
  refine ⟨rfl, rfl, rfl, by simp [initial], by simp [initial], ?_, by simp [initial], fun _ => rfl⟩
  intro pipeline
  simp only [initial, List.count_singleton]
  split <;> simp

/-- A new fetch of a sequence without an unanswered one. -/
theorem count_append_le_one {fetches : List Fetch}
    (h : ∀ pipeline, fetches.count (Fetch.mk pipeline none) ≤ 1) {new : Pipeline}
    (hnew : Fetch.mk new none ∉ fetches) (pipeline : Pipeline) :
    (fetches ++ [Fetch.mk new none]).count (Fetch.mk pipeline none) ≤ 1 := by
  rw [List.count_append, List.count_singleton]
  by_cases heq : new = pipeline
  · subst heq
    simp [List.count_eq_zero.2 hnew]
  · simpa [heq] using h pipeline

/-- A new refetch is the latest one. -/
theorem Sound.refetch {s : NewMessage} (h : s.Sound) : s.refetch.Sound := by
  unfold NewMessage.refetch
  split
  · exact h
  · rename_i hcaught
    have hlive : s.reFetchedUsers.disposed = false := by
      rw [← h.caught_eq]
      simpa using hcaught
    constructor
    · exact h.caught_eq
    · exact h.refetch_running
    · exact h.reload_running
    · intro inner answer hmem
      rcases List.mem_append.1 hmem with hmem | hmem
      · exact Nat.le_succ_of_le (h.refetch_numbered inner answer hmem)
      · cases List.mem_singleton.1 hmem
        exact le_refl _
    · simpa using h.reload_numbered
    · refine count_append_le_one h.unique ?_
      intro hmem
      exact absurd (h.refetch_numbered _ _ hmem) (by omega)
    · exact fun _ => hlive
    · simpa using h.initial_live

/-- An element of `onSearching` starts a refetch at most. -/
theorem Sound.acceptSearching {s : NewMessage} (h : s.Sound) (searching : Bool) :
    (s.acceptSearching searching).Sound := by
  have hset : Sound { s with onSearching := searching } := { h with }
  unfold NewMessage.acceptSearching
  simp only
  split
  · exact hset.refetch
  · exact hset

/-- The initial fetch is made again while its retry waits for a trigger. -/
theorem retry_eq (s : NewMessage) :
    s.retry =
      if s.fetchedUsers.waiting && !s.fetchedUsers.disposed then
        { s with
          fetchedUsers := { s.fetchedUsers with waiting := false }
          fetches := s.fetches ++ [⟨.fetchedUsers, none⟩] }
      else s := by
  unfold retry RetrySink.notify
  by_cases h : (s.fetchedUsers.waiting && !s.fetchedUsers.disposed) = true <;> simp [h]

/-- A retry takes the place of the fetch that has failed. -/
theorem Sound.retry {s : NewMessage} (h : s.Sound) : s.retry.Sound := by
  rw [retry_eq]
  split
  · rename_i hwaiting
    simp only [Bool.and_eq_true, Bool.not_eq_true'] at hwaiting
    constructor
    · exact h.caught_eq
    · exact h.refetch_running
    · exact h.reload_running
    · simpa using h.refetch_numbered
    · simpa using h.reload_numbered
    · refine count_append_le_one h.unique ?_
      intro hmem
      rw [h.initial_live hmem] at hwaiting
      cases hwaiting.1
    · simpa using h.refetch_live
    · intro _
      simp [RetrySink.fresh, hwaiting.2]
  · exact h

/-- A pull starts fetches and answers none. -/
theorem Sound.pulled {s : NewMessage} (h : s.Sound) : s.pulled.Sound := by
  have hspinning : Sound { s with spinner := true } := { h with }
  have hpulled : Sound { { s with spinner := true }.retry with refreshPulled := true } :=
    { hspinning.retry with }
  unfold NewMessage.pulled
  simp only
  split
  · exact hpulled
  · exact hpulled.refetch

section Search

variable (lowercased : String → String) (contains : String → String → Bool)

/-- A search starts no fetch. -/
theorem Sound.search {s : NewMessage} (h : s.Sound) (text : String) (base : List User) :
    (s.search lowercased contains text base).Sound := by
  unfold NewMessage.search
  split
  · exact h
  · exact { h.acceptSearching true with }

/-- A reload is the latest one. -/
theorem Sound.reload {s : NewMessage} (h : s.Sound) (text : String) : (s.reload text).Sound := by
  unfold NewMessage.reload
  split
  · exact h
  · have hs := h.acceptSearching false
    constructor
    · exact hs.caught_eq
    · exact hs.refetch_running
    · exact hs.reload_running
    · simpa using hs.refetch_numbered
    · intro inner answer hmem
      rcases List.mem_append.1 hmem with hmem | hmem
      · exact Nat.le_succ_of_le (hs.reload_numbered inner answer hmem)
      · cases List.mem_singleton.1 hmem
        exact le_refl _
    · refine count_append_le_one hs.unique ?_
      intro hmem
      exact absurd (hs.reload_numbered _ _ hmem) (by omega)
    · simpa using hs.refetch_live
    · simpa using hs.initial_live

/-- Where both ways out are sound, so is the choice between them. -/
theorem sound_elim {α : Type} {s : NewMessage} (o : Option α) {f : α → NewMessage}
    (h : s.Sound) (hf : ∀ a, (f a).Sound) : (o.elim s f).Sound := by
  cases o with
  | none => exact h
  | some a => exact hf a

/-- A text that takes effect answers no fetch. -/
theorem Sound.emitText {s : NewMessage} (h : s.Sound) (text : String) :
    (s.emitText lowercased contains text).Sound := by
  have hset : Sound { s with inputText := some text } := { h with }
  exact (sound_elim _ hset fun base => hset.search lowercased contains text base).reload text

/-- Typing answers no fetch. -/
theorem Sound.textChanged {s : NewMessage} (h : s.Sound) (key : String) (elapsed : Bool) :
    (s.textChanged lowercased contains key elapsed).Sound := by
  unfold NewMessage.textChanged
  split
  · exact h
  · have hset : Sound
        { s with filterKey := some key, throttle := (s.throttle.on elapsed key).1 } := { h with }
    exact sound_elim _ hset fun text => hset.emitText lowercased contains _

/-- The timer of the throttle answers no fetch. -/
theorem Sound.throttleFires {s : NewMessage} (h : s.Sound) :
    (s.throttleFires lowercased contains).Sound := by
  have hset : Sound { s with throttle := s.throttle.propagate.1 } := { h with }
  exact sound_elim _ hset fun text => hset.emitText lowercased contains _

/-! ## Everything a response can do -/

/-- The answer to fetch `i` is on record. -/
def answered (s : NewMessage) (i : Nat) (pipeline : Pipeline) (answer : UsersAnswer) :
    NewMessage :=
  { s with fetches := s.fetches.set i ⟨pipeline, some answer⟩ }

/-- What an answer leads to once it is on record. -/
inductive Responded (s : NewMessage) (answer : UsersAnswer) : Pipeline → NewMessage → Prop where
  | unheard {pipeline} (a b : Bool) (hpipeline : pipeline ≠ .fetchedUsers)
      (hlistens : s.listens pipeline = false) :
      Responded s answer pipeline
        { s with
          reFetchedUsers := { s.reFetchedUsers with hasLatest := a }
          reloadedUsers := { s.reloadedUsers with hasLatest := b } }
  | fetched (herror : answer.error = none) :
      Responded s answer .fetchedUsers
        ({ s with fetchedUsers := ⟨false, true⟩ }.onFetched lowercased contains
          (.next answer.users))
  | fetchFailed (e : BackendError) (herror : answer.error = some e) :
      Responded s answer .fetchedUsers { s with fetchedUsers := ⟨true, false⟩ }
  | reFetched (inner : Nat) (hlistens : s.listens (.reFetchedUsers inner) = true)
      (herror : answer.error = none) :
      Responded s answer (.reFetchedUsers inner)
        { s with
          spinner := false
          users := answer.users
          reFetchedUsers := { s.reFetchedUsers with hasLatest := false } }
  | reFetchFailed (inner : Nat) (hlistens : s.listens (.reFetchedUsers inner) = true)
      (e : BackendError) (herror : answer.error = some e) :
      Responded s answer (.reFetchedUsers inner)
        { s with
          spinner := false
          users := []
          reFetchedUsers := { s.reFetchedUsers with disposed := true }
          caught := ⟨true⟩ }
  | reloaded (inner : Nat) (hlistens : s.listens (.reloadedUsers inner) = true)
      (herror : answer.error = none) :
      Responded s answer (.reloadedUsers inner)
        { s with
          users := answer.users
          reloadedUsers := { s.reloadedUsers with hasLatest := false } }
  | reloadFailed (inner : Nat) (hlistens : s.listens (.reloadedUsers inner) = true)
      (e : BackendError) (herror : answer.error = some e) :
      Responded s answer (.reloadedUsers inner)
        { s with
          reloadedUsers := { s.reloadedUsers with disposed := true }
          bindingErrors := s.bindingErrors ++ [(.reloadedUsersToUsers, e)] }

/-- The answer of a fetch reaches its own pipeline, if that still listens. -/
theorem responded_deliver {s : NewMessage} {answer : UsersAnswer} {pipeline : Pipeline}
    (h : s.Sound) (hfresh : pipeline = .fetchedUsers → s.fetchedUsers = .fresh) :
    Responded lowercased contains s answer pipeline
      (s.deliver lowercased contains (fetchUsers answer) pipeline) := by
  cases hlistens : s.listens pipeline with
  | false =>
      by_cases hpipeline : pipeline = .fetchedUsers
      · rw [hpipeline, listens, hfresh hpipeline] at hlistens
        cases hlistens
      · rcases deliver_unheard lowercased contains hlistens hpipeline (fetchUsers answer) with
          ⟨a, b, heq⟩
        rw [heq]
        exact .unheard a b hpipeline hlistens
  | true =>
      cases pipeline with
      | fetchedUsers =>
          rw [deliver_fetched lowercased contains (hfresh rfl)]
          cases herror : answer.error with
          | none => exact .fetched herror
          | some e => exact .fetchFailed e herror
      | reFetchedUsers inner =>
          have hcaught : s.caught.disposed = false :=
            h.caught_eq.trans (listens_reFetchedUsers.1 hlistens).2
          rw [deliver_reFetched lowercased contains hlistens hcaught h.refetch_running]
          cases herror : answer.error with
          | none => exact .reFetched inner hlistens herror
          | some e => exact .reFetchFailed inner hlistens e herror
      | reloadedUsers inner =>
          rw [deliver_reloaded lowercased contains hlistens h.reload_running]
          cases herror : answer.error with
          | none => exact .reloaded inner hlistens herror
          | some e => exact .reloadFailed inner hlistens e herror

/-- An answered fetch is no longer outstanding, and all others are. -/
theorem count_answered {s : NewMessage} {i : Nat} {pipeline : Pipeline}
    (hget : s.fetches[i]? = some ⟨pipeline, none⟩) (answer : UsersAnswer) (q : Pipeline) :
    (s.answered i pipeline answer).fetches.count (Fetch.mk q none) =
      s.fetches.count (Fetch.mk q none) - if pipeline = q then 1 else 0 := by
  rcases List.getElem?_eq_some_iff.1 hget with ⟨hlt, hi⟩
  rw [answered, List.count_set hlt, hi]
  simp

/-- An answer belongs to the fetch it has been given to. -/
theorem mem_answered {s : NewMessage} {i : Nat} {pipeline q : Pipeline} {answer : UsersAnswer}
    {answer' : Option UsersAnswer}
    (hmem : Fetch.mk q answer' ∈ (s.answered i pipeline answer).fetches) :
    Fetch.mk q answer' ∈ s.fetches ∨ (q = pipeline ∧ answer' = some answer) := by
  rcases List.mem_or_eq_of_mem_set hmem with hmem | heq
  · exact Or.inl hmem
  · cases heq
    exact Or.inr ⟨rfl, rfl⟩

/-- Answering a fetch leaves no other unanswered one of its sequence. -/
theorem Sound.not_mem_answered {s : NewMessage} (h : s.Sound) {i : Nat} {pipeline : Pipeline}
    (hget : s.fetches[i]? = some ⟨pipeline, none⟩) (answer : UsersAnswer) :
    Fetch.mk pipeline none ∉ (s.answered i pipeline answer).fetches := by
  rw [← List.count_eq_zero, count_answered hget, if_pos rfl]
  have := h.unique pipeline
  omega

/-- Answering a fetch keeps the others as they are. -/
theorem Sound.answered {s : NewMessage} (h : s.Sound) {i : Nat} {pipeline : Pipeline}
    (hget : s.fetches[i]? = some ⟨pipeline, none⟩) (answer : UsersAnswer) :
    (s.answered i pipeline answer).Sound := by
  have hmem : Fetch.mk pipeline none ∈ s.fetches := List.mem_of_getElem? hget
  constructor
  · exact h.caught_eq
  · exact h.refetch_running
  · exact h.reload_running
  · intro inner answer' hin
    rcases mem_answered hin with hin | ⟨rfl, -⟩
    · exact h.refetch_numbered inner answer' hin
    · exact h.refetch_numbered inner none hmem
  · intro inner answer' hin
    rcases mem_answered hin with hin | ⟨rfl, -⟩
    · exact h.reload_numbered inner answer' hin
    · exact h.reload_numbered inner none hmem
  · intro q
    rw [count_answered hget]
    exact (Nat.sub_le _ _).trans (h.unique q)
  · intro hin
    rcases mem_answered hin with hin | ⟨-, hnone⟩
    · exact h.refetch_live hin
    · cases hnone
  · intro hin
    rcases mem_answered hin with hin | ⟨-, hnone⟩
    · exact h.initial_live hin
    · cases hnone

/-- Everything the response to a fetch can do. -/
theorem respond_cases {s s' : NewMessage} (h : s.Sound) {i : Nat} {answer : UsersAnswer}
    (hstep : s.step lowercased contains (.respond i answer) = some s') :
    ∃ pipeline, s.fetches[i]? = some ⟨pipeline, none⟩ ∧
      Responded lowercased contains (s.answered i pipeline answer) answer pipeline s' := by
  simp only [step, Option.bind_eq_bind, Option.bind_eq_some_iff, Option.guard_eq_some',
    Option.pure_def, Option.some.injEq, delivered_fetchUsers] at hstep
  rcases hstep with ⟨⟨pipeline, _⟩, hget, -, hnone, rfl⟩
  obtain rfl := hnone
  refine ⟨pipeline, hget, responded_deliver lowercased contains (h.answered hget answer) ?_⟩
  rintro rfl
  exact h.initial_live (List.mem_of_getElem? hget)

/-- The ways to respond keep the pipelines sound. -/
theorem Sound.responded {s s' : NewMessage} (h : s.Sound) {answer : UsersAnswer}
    {pipeline : Pipeline} (hanswered : Fetch.mk pipeline none ∉ s.fetches)
    (hresponded : Responded lowercased contains s answer pipeline s') : s'.Sound := by
  cases hresponded with
  | unheard a b => exact { h with }
  | fetched =>
      have hset : Sound
          { s with
            fetchedUsers := ⟨false, true⟩
            users := answer.users
            baseUsersForFiltering := some answer.users } :=
        { h with initial_live := fun hmem => absurd hmem hanswered }
      exact sound_elim _ hset fun text => hset.search lowercased contains text answer.users
  | fetchFailed e => exact { h with initial_live := fun hmem => absurd hmem hanswered }
  | reFetched inner => exact { h with }
  | reFetchFailed inner hlistens e =>
      rw [← (listens_reFetchedUsers.1 hlistens).1] at hanswered
      exact { h with caught_eq := rfl, refetch_live := fun hmem => absurd hmem hanswered }
  | reloaded inner => exact { h with }
  | reloadFailed inner hlistens e => exact { h with }

/-- One event keeps the pipelines sound. -/
theorem sound_step {s s' : NewMessage} {e : NewMessageEvent} (h : s.Sound)
    (hstep : s.step lowercased contains e = some s') : s'.Sound := by
  cases e with
  | textChanged key elapsed =>
      obtain rfl : s.textChanged lowercased contains key elapsed = s' := Option.some.inj hstep
      exact h.textChanged lowercased contains key elapsed
  | throttleFires =>
      obtain rfl : s.throttleFires lowercased contains = s' := Option.some.inj hstep
      exact h.throttleFires lowercased contains
  | pull =>
      obtain rfl : s.pulled = s' := Option.some.inj hstep
      exact h.pulled
  | cancel =>
      obtain rfl : s.refetch = s' := Option.some.inj hstep
      exact h.refetch
  | respond i answer =>
      rcases respond_cases lowercased contains h hstep with ⟨pipeline, hget, hresponded⟩
      have hanswered := h.not_mem_answered hget answer
      exact (h.answered hget answer).responded lowercased contains hanswered hresponded

/-- The pipelines are sound in every run. -/
theorem sound_of_reachable {s : NewMessage}
    (h : Reachable (step lowercased contains) initial s) : s.Sound :=
  h.invariant (fun _ _ _ _ ha hab => sound_step lowercased contains ha hab) sound_initial

end Search

end NewMessage

end WaffleChat
