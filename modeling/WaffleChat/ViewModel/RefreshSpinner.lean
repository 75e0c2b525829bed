import WaffleChat.ViewModel.NewMessageSteps

/-!
# The refresh spinner of the friend list

A pull turns the spinner on whether or not it starts a refetch, and only an element of
the refetch pipeline turns it off.

Main results:

- Theorem `refetchInFlight_pulled`: which pulls leave a refetch in flight.
- Theorem `spinning_iff`: the spinner spins only while a refetch is in flight exactly as
  long as every pull leaves one and no superseded one is left alone with it.
-/

namespace WaffleChat

open EventSystem Observers

/-! ## Refetches in flight -/

/-- Some refetch has not been answered. -/
def RefetchInFlight (fetches : List Fetch) : Prop :=
  ∃ fetch ∈ fetches, fetch.pipeline.isRefetch = true ∧ fetch.answer = none

instance (fetches : List Fetch) : Decidable (RefetchInFlight fetches) :=
  inferInstanceAs (Decidable (∃ fetch ∈ fetches, _))

/-- A refetch is outstanding in one part or the other. -/
theorem refetchInFlight_append {old new : List Fetch} :
    RefetchInFlight (old ++ new) ↔ RefetchInFlight old ∨ RefetchInFlight new := by
  simp only [RefetchInFlight, List.mem_append, or_and_right, exists_or]

/-- A fetch that is made is outstanding. -/
theorem refetchInFlight_singleton {pipeline : Pipeline} :
    RefetchInFlight [⟨pipeline, none⟩] ↔ pipeline.isRefetch = true := by
  simp [RefetchInFlight]

/-- An answered fetch is no longer in flight, the others are as before. -/
theorem refetchInFlight_set {fetches : List Fetch} {i : Nat} {pipeline : Pipeline}
    (hget : fetches[i]? = some ⟨pipeline, none⟩) (answer : UsersAnswer) :
    RefetchInFlight (fetches.set i ⟨pipeline, some answer⟩) ↔
      RefetchInFlight (fetches.eraseIdx i) := by
  rw [fetches_set_around hget, List.eraseIdx_eq_take_drop_succ]
  simp [RefetchInFlight, or_and_right, exists_or]

/-- An outstanding fetch is a refetch, or the refetch is another one. -/
theorem refetchInFlight_iff_eraseIdx {fetches : List Fetch} {i : Nat} {pipeline : Pipeline}
    (hget : fetches[i]? = some ⟨pipeline, none⟩) :
    RefetchInFlight fetches ↔
      pipeline.isRefetch = true ∨ RefetchInFlight (fetches.eraseIdx i) := by
  rw [List.eraseIdx_eq_take_drop_succ, refetchInFlight_append]
  conv_lhs => rw [fetches_around hget]
  rw [← List.singleton_append, refetchInFlight_append, refetchInFlight_append,
    refetchInFlight_singleton]
  exact or_left_comm

namespace NewMessage

/-! ## Pulls -/

/-- A refetch is outstanding once it is started. -/
theorem refetchInFlight_refetch (s : NewMessage) :
    RefetchInFlight s.refetch.fetches ↔
      RefetchInFlight s.fetches ∨ s.caught.disposed = false := by
  unfold refetch
  cases s.caught.disposed with
  | true => simp
  | false => simp [refetchInFlight_append, refetchInFlight_singleton, Pipeline.isRefetch]

/-- A retry is no refetch. -/
theorem refetchInFlight_retry (s : NewMessage) :
    RefetchInFlight s.retry.fetches ↔ RefetchInFlight s.fetches := by
  rw [retry_eq]
  split
  · simp [refetchInFlight_append, refetchInFlight_singleton, Pipeline.isRefetch]
  · rfl

/-- A retry ends no pipeline. -/
theorem retry_caught (s : NewMessage) : s.retry.caught = s.caught := by
  rw [retry_eq]
  split <;> rfl

/-- A retry does not turn the spinner. -/
theorem retry_spinner (s : NewMessage) : s.retry.spinner = s.spinner := by
  rw [retry_eq]
  split <;> rfl

/-- A pull leaves a refetch in flight if there was one, or if it is outside search and
the refetch pipeline has not ended. -/
theorem refetchInFlight_pulled (s : NewMessage) :
    RefetchInFlight s.pulled.fetches ↔
      RefetchInFlight s.fetches ∨ (s.onSearching = false ∧ s.caught.disposed = false) := by
  have hgate : ∀ (p : NewMessage) (searching : Bool),
      RefetchInFlight (if searching then p else p.refetch).fetches ↔
        RefetchInFlight p.fetches ∨ (searching = false ∧ p.caught.disposed = false) := by
    intro p searching
    cases searching with
    | true => simp
    | false => simp [refetchInFlight_refetch]
  refine (hgate _ _).trans (or_congr (refetchInFlight_retry { s with spinner := true }) ?_)
  simp only [retry_caught]

/-- A pull turns the spinner. -/
theorem spinner_pulled (s : NewMessage) : s.pulled.spinner = true := by
  unfold pulled refetch
  simp only
  split
  · exact retry_spinner _
  · split
    · exact retry_spinner _
    · rfl

/-! ## The spinner in every run -/

/-- The spinner spins only while a refetch is in flight. -/
def SpinsForRefetch (s : NewMessage) : Prop :=
  s.spinner = true → RefetchInFlight s.fetches

/-- A pull made while no refetch is in flight is outside search and the pipeline has not
ended; the answer to the only refetch in flight, if it is superseded or the pipeline has
ended, comes with the spinner off. -/
def LeavesRefetch (s : NewMessage) : NewMessageEvent → Prop
  | .textChanged _ _ => True
  | .throttleFires => True
  | .pull =>
      RefetchInFlight s.fetches ∨ (s.onSearching = false ∧ s.caught.disposed = false)
  | .cancel => True
  | .respond i _ =>
      ∀ fetch ∈ s.fetches[i]?, fetch.pipeline.isRefetch = true →
        s.listens fetch.pipeline = false →
          RefetchInFlight (s.fetches.eraseIdx i) ∨ s.spinner = false

instance (s : NewMessage) : ∀ e, Decidable (s.LeavesRefetch e)
  | .textChanged _ _ => .isTrue trivial
  | .throttleFires => .isTrue trivial
  | .pull => inferInstanceAs (Decidable (_ ∨ _))
  | .cancel => .isTrue trivial
  | .respond i _ =>
      inferInstanceAs (Decidable (∀ fetch ∈ s.fetches[i]?, fetch.pipeline.isRefetch = true →
        s.listens fetch.pipeline = false →
          RefetchInFlight (s.fetches.eraseIdx i) ∨ s.spinner = false))

/-- Fetches that are started together with the spinner keep it justified. -/
theorem SpinsForRefetch.starts {s s' : NewMessage} (h : s.SpinsForRefetch)
    (hstarts : Starts s s') : s'.SpinsForRefetch := by
  intro hspinning
  rcases hstarts.fetches with ⟨new, hfetches, hspin⟩
  rw [hfetches, refetchInFlight_append]
  rcases hspin hspinning with hbefore | ⟨pipeline, hmem, hrefetch⟩
  · exact Or.inl (h hbefore)
  · exact Or.inr ⟨_, List.mem_map_of_mem hmem, hrefetch, rfl⟩

section Search

variable (lowercased : String → String) (contains : String → String → Bool)

/-- Writing the input keeps the spinner and the fetches. -/
theorem SpinsForRefetch.written {s : NewMessage} (h : s.SpinsForRefetch)
    {e : NewMessageEvent} (he : e ≠ .pull) :
    (s.written lowercased contains e).SpinsForRefetch := by
  rw [NewMessage.written, if_neg he]
  cases s.emits lowercased e with
  | none => exact h
  | some text => exact h

/-- What an answer does to the spinner. -/
theorem spinsForRefetch_respond {s s' : NewMessage} (h : s.SpinsForRefetch) {i : Nat}
    {answer : UsersAnswer} {pipeline : Pipeline}
    (hget : s.fetches[i]? = some ⟨pipeline, none⟩)
    (hresponded :
      Responded lowercased contains (s.answered i pipeline answer) answer pipeline s') :
    s'.SpinsForRefetch ↔ s.LeavesRefetch (.respond i answer) := by
  have hanswered : RefetchInFlight (s.answered i pipeline answer).fetches ↔
      RefetchInFlight (s.fetches.eraseIdx i) := refetchInFlight_set hget answer
  -- the answer to another pipeline leaves the refetches in flight as they are
  have hother : pipeline.isRefetch = false → (s.answered i pipeline answer).SpinsForRefetch := by
    intro hrefetch hspinning
    rw [hanswered]
    have hflight := (refetchInFlight_iff_eraseIdx hget).1 (h hspinning)
    simpa [hrefetch] using hflight
  simp only [LeavesRefetch, hget, Option.mem_some_iff, forall_eq']
  cases hresponded with
  | unheard a b hpipeline hlistens =>
      cases hrefetch : pipeline.isRefetch with
      | false => exact iff_of_true (hother hrefetch) (by simp)
      | true =>
          have hunheard : s.listens pipeline = false := hlistens
          simp only [hunheard, forall_const]
          rw [← hanswered, SpinsForRefetch, ← Bool.not_eq_true, or_comm]
          exact imp_iff_not_or
  | fetched herror =>
      have hstarts := starts_onFetched lowercased contains
        { s.answered i .fetchedUsers answer with fetchedUsers := ⟨false, true⟩ } answer.users
      refine iff_of_true ?_ (by simp [Pipeline.isRefetch])
      refine SpinsForRefetch.starts ?_ hstarts
      exact hother rfl
  | fetchFailed e herror => exact iff_of_true (hother rfl) (by simp [Pipeline.isRefetch])
  | reFetched inner hlistens herror =>
      have hheard : s.listens (.reFetchedUsers inner) = true := hlistens
      exact iff_of_true (by simp [SpinsForRefetch]) (by simp [hheard])
  | reFetchFailed inner hlistens e herror =>
      have hheard : s.listens (.reFetchedUsers inner) = true := hlistens
      exact iff_of_true (by simp [SpinsForRefetch]) (by simp [hheard])
  | reloaded inner hlistens herror =>
      exact iff_of_true (hother rfl) (by simp [Pipeline.isRefetch])
  | reloadFailed inner hlistens e herror =>
      exact iff_of_true (hother rfl) (by simp [Pipeline.isRefetch])

/-- An event keeps the spinner justified exactly if it leaves a refetch with it. -/
theorem spinsForRefetch_step {s s' : NewMessage} {e : NewMessageEvent} (hsound : s.Sound)
    (h : s.SpinsForRefetch) (hstep : s.step lowercased contains e = some s') :
    s'.SpinsForRefetch ↔ s.LeavesRefetch e := by
  rcases step_cases lowercased contains hsound hstep with ⟨hother, hstarts⟩ |
    ⟨i, answer, pipeline, rfl, hget, hresponded⟩
  · cases e with
    | pull =>
        obtain rfl : s.pulled = s' := Option.some.inj hstep
        simp only [SpinsForRefetch, spinner_pulled, forall_const, LeavesRefetch,
          refetchInFlight_pulled]
    | textChanged key elapsed =>
        exact iff_of_true ((h.written lowercased contains (by simp)).starts hstarts) trivial
    | throttleFires =>
        exact iff_of_true ((h.written lowercased contains (by simp)).starts hstarts) trivial
    | cancel =>
        exact iff_of_true ((h.written lowercased contains (by simp)).starts hstarts) trivial
    | respond i answer => exact absurd rfl (hother i answer)
  · exact spinsForRefetch_respond lowercased contains h hget hresponded

/-- **The spinner.**  Throughout a run the spinner spins only while a refetch is in flight
exactly when every pull made with none in flight is outside search and before the end of
the pipeline, and the spinner is off when the only one in flight is answered unheard. -/
theorem spinning_iff {es : List NewMessageEvent} {s : NewMessage}
    (hrun : run (step lowercased contains) initial es = some s) :
    Always (step lowercased contains) SpinsForRefetch initial es ↔
      StepsMeet (step lowercased contains) LeavesRefetch initial es := by
  refine always_iff_stepsMeet (I := Sound) ?_ ?_ sound_initial (by simp [SpinsForRefetch, initial])
    hrun
  · intro a e b ha hab
    exact sound_step lowercased contains ha hab
  · intro a e b ha h hab
    exact spinsForRefetch_step lowercased contains ha h hab

end Search

/-- Two pulls outside search, the first refetch superseded by the second. -/
def pulledTwice : List NewMessageEvent :=
  [.textChanged "" true, .respond 0 (.sample ["alice"]), .pull, .pull,
   .respond 3 (.sample ["alice", "bob"]), .respond 2 (.sample ["alice"])]

theorem spinning_iff_pulledTwice :
    Always (step id (· == ·)) SpinsForRefetch initial pulledTwice :=
  (spinning_iff id (· == ·) (run_final rfl)).2 (by decide)

/-- A pull while the list is narrowed by a search text. -/
def pulledInSearch : List NewMessageEvent :=
  [.textChanged "" true, .respond 0 (.sample ["alice", "bob"]),
   .respond 1 (.sample ["alice", "bob"]), .textChanged "alice" true, .pull]

/-- The spinner spins although every fetch has been answered. -/
theorem not_spinsForRefetch_of_pulledInSearch :
    ∃ s, run (step id (· == ·)) initial pulledInSearch = some s ∧ s.spinner = true ∧
      ∀ fetch ∈ s.fetches, fetch.answer ≠ none := by
  exact ⟨_, run_final rfl, by decide, by decide⟩

end NewMessage

end WaffleChat
