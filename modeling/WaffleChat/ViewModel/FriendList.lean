import WaffleChat.ViewModel.NewMessageSteps

/-!
# The friends shown

Four bindings write the relay `users`: the initial fetch, the refetches, the reload and
the search.  Only the search narrows what it writes, and only the two `flatMapLatest`
put the answers of their own fetches in order.

Main results:

- Theorem `matching_iff`: the users match the text in effect exactly as long as no
  refetch or reload delivers others and the text does not meet others before the initial
  users have arrived.
- Theorem `holdsNewest_iff`: without a text the users are those of the newest answered
  fetch exactly as long as what is accepted is the newest.
-/

namespace WaffleChat

open EventSystem Observers

namespace NewMessage

section Search

variable (lowercased : String → String) (contains : String → String → Bool)

/-! ## The users match the text in effect -/

/-- A non-empty text finds all the users. -/
def AllFound (text : String) (users : List User) : Prop :=
  text ≠ "" → ∀ user ∈ users, Found lowercased contains text user

instance (text : String) (users : List User) :
    Decidable (AllFound lowercased contains text users) :=
  inferInstanceAs (Decidable (_ → _))

/-- The text in effect finds every user shown. -/
def Matching (s : NewMessage) : Prop :=
  ∀ text ∈ s.inputText, AllFound lowercased contains text s.users

/-- A text that takes effect before the initial users have arrived finds every user
shown; the text in effect finds every user of a refetch or reload that is accepted. -/
def KeepsMatching (s : NewMessage) : NewMessageEvent → Prop
  | .respond i answer =>
      ∀ fetch ∈ s.fetches[i]?, fetch.pipeline ≠ .fetchedUsers →
        s.listens fetch.pipeline = true → answer.error = none →
          ∀ text ∈ s.inputText, AllFound lowercased contains text answer.users
  | e =>
      s.baseUsersForFiltering = none →
        ∀ text ∈ s.emits lowercased e, AllFound lowercased contains text s.users

instance (s : NewMessage) : ∀ e, Decidable (s.KeepsMatching lowercased contains e)
  | .textChanged _ _ => inferInstanceAs (Decidable (_ → _))
  | .throttleFires => inferInstanceAs (Decidable (_ → _))
  | .pull => inferInstanceAs (Decidable (_ → _))
  | .cancel => inferInstanceAs (Decidable (_ → _))
  | .respond i answer =>
      inferInstanceAs (Decidable (∀ fetch ∈ s.fetches[i]?, fetch.pipeline ≠ .fetchedUsers →
        s.listens fetch.pipeline = true → answer.error = none →
          ∀ text ∈ s.inputText, AllFound lowercased contains text answer.users))

/-- A narrowed list is found by its text. -/
theorem allFound_narrowed (text : String) (users base : List User) :
    AllFound lowercased contains text (narrowed lowercased contains text users base) := by
  intro htext user huser
  rw [narrowed, if_neg htext] at huser
  simpa using (List.mem_filter.1 huser).2

/-- What an event other than a response does to the match. -/
theorem matching_written {s : NewMessage} (h : s.Matching lowercased contains)
    (e : NewMessageEvent) :
    (s.written lowercased contains e).Matching lowercased contains ↔
      (s.baseUsersForFiltering = none →
        ∀ text ∈ s.emits lowercased e, AllFound lowercased contains text s.users) := by
  unfold written
  by_cases hpull : e = .pull
  · subst hpull
    exact iff_of_true h (by simp [emits])
  · rw [if_neg hpull]
    cases s.emits lowercased e with
    | none => exact iff_of_true h (by simp)
    | some text =>
        simp only [Option.elim, Matching, Option.mem_some_iff, forall_eq', searched]
        cases s.baseUsersForFiltering with
        | none => simp
        | some base => simp [allFound_narrowed]

/-- What an answer does to the match. -/
theorem matching_respond {s s' : NewMessage} (h : s.Matching lowercased contains) {i : Nat}
    {answer : UsersAnswer} {pipeline : Pipeline}
    (hget : s.fetches[i]? = some ⟨pipeline, none⟩)
    (hresponded :
      Responded lowercased contains (s.answered i pipeline answer) answer pipeline s') :
    s'.Matching lowercased contains ↔ s.KeepsMatching lowercased contains (.respond i answer) := by
  simp only [KeepsMatching, hget, Option.mem_some_iff, forall_eq']
  cases hresponded with
  | unheard a b hpipeline hlistens =>
      have hunheard : s.listens pipeline = false := hlistens
      exact iff_of_true h (by simp [hunheard])
  | fetched herror =>
      have hstarts := starts_onFetched lowercased contains
        { s.answered i .fetchedUsers answer with fetchedUsers := ⟨false, true⟩ } answer.users
      refine iff_of_true ?_ (by simp)
      intro text htext
      rw [hstarts.inputText_eq] at htext
      have htext' : s.inputText = some text := htext
      rw [hstarts.users_eq]
      simp only [answered, htext', Option.elim]
      exact allFound_narrowed lowercased contains text answer.users answer.users
  | fetchFailed e herror => exact iff_of_true h (by simp)
  | reFetched inner hlistens herror =>
      have hheard : s.listens (.reFetchedUsers inner) = true := hlistens
      simp [Matching, answered, hheard, herror]
  | reFetchFailed inner hlistens e herror =>
      exact iff_of_true (by simp [Matching, AllFound]) (by simp [herror])
  | reloaded inner hlistens herror =>
      have hheard : s.listens (.reloadedUsers inner) = true := hlistens
      simp [Matching, answered, hheard, herror]
  | reloadFailed inner hlistens e herror => exact iff_of_true h (by simp [herror])

/-- An event keeps the match exactly if what it brings matches. -/
theorem matching_step {s s' : NewMessage} {e : NewMessageEvent} (hsound : s.Sound)
    (h : s.Matching lowercased contains) (hstep : s.step lowercased contains e = some s') :
    s'.Matching lowercased contains ↔ s.KeepsMatching lowercased contains e := by
  rcases step_cases lowercased contains hsound hstep with ⟨hother, hstarts⟩ |
    ⟨i, answer, pipeline, rfl, hget, hresponded⟩
  · have hwritten := matching_written lowercased contains h e
    rw [Matching, hstarts.inputText_eq, hstarts.users_eq]
    refine hwritten.trans ?_
    cases e with
    | respond i answer => exact absurd rfl (hother i answer)
    | textChanged key elapsed => exact Iff.rfl
    | throttleFires => exact Iff.rfl
    | pull => exact Iff.rfl
    | cancel => exact Iff.rfl
  · exact matching_respond lowercased contains h hget hresponded

/-- **The search filter.**  Throughout a run a non-empty text in effect finds every user
shown exactly when it finds everybody shown if it comes before the initial users, and
everybody an accepted refetch or reload delivers. -/
theorem matching_iff {es : List NewMessageEvent} {s : NewMessage}
    (hrun : run (step lowercased contains) initial es = some s) :
    Always (step lowercased contains) (Matching lowercased contains) initial es ↔
      StepsMeet (step lowercased contains) (KeepsMatching lowercased contains) initial es := by
  refine always_iff_stepsMeet (I := Sound) ?_ ?_ sound_initial (by simp [Matching, initial]) hrun
  · intro a e b ha hab
    exact sound_step lowercased contains ha hab
  · intro a e b ha h hab
    exact matching_step lowercased contains ha h hab

end Search

/-- A search, and a refetch that delivers the user it has found. -/
def foundAgain : List NewMessageEvent :=
  [.textChanged "" true, .respond 0 (.sample ["alice", "bob"]),
   .respond 1 (.sample ["alice", "bob"]), .textChanged "alice" true, .cancel,
   .respond 2 (.sample ["alice"])]

theorem matching_iff_foundAgain :
    Always (step id (· == ·)) (Matching id (· == ·)) initial foundAgain :=
  (matching_iff id (· == ·) (run_final rfl)).2 (by decide)

/-- The reload of the empty text is answered after the search for `alice`. -/
def reloadAfterSearch : List NewMessageEvent :=
  [.textChanged "" true, .respond 0 (.sample ["alice", "bob"]), .textChanged "alice" true,
   .respond 1 (.sample ["alice", "bob"])]

/-- The list goes back to all users while the text is in effect. -/
theorem not_matching_of_reloadAfterSearch :
    ∃ s, run (step id (· == ·)) initial reloadAfterSearch = some s ∧
      s.inputText = some "alice" ∧ ¬ s.Matching id (· == ·) := by
  refine ⟨_, run_final rfl, by decide, ?_⟩
  intro h
  exact absurd (h "alice" rfl) (by decide)

/-! ## The newest answer -/

/-- The answer of the most recently started fetch among those that are answered. -/
def newestAnswer (fetches : List Fetch) : Option UsersAnswer :=
  (fetches.filterMap Fetch.answer).getLast?

/-- Starting fetches answers none. -/
theorem newestAnswer_started (fetches : List Fetch) (new : List Pipeline) :
    newestAnswer (fetches ++ new.map (Fetch.mk · none)) = newestAnswer fetches := by
  have hnone : (new.map (Fetch.mk · none)).filterMap Fetch.answer = [] := by simp
  rw [newestAnswer, List.filterMap_append, hnone, List.append_nil, newestAnswer]

/-- No fetch started after fetch `i` has been answered. -/
def NoneLater (fetches : List Fetch) (i : Nat) : Prop :=
  ∀ fetch ∈ fetches.drop (i + 1), fetch.answer = none

instance (fetches : List Fetch) (i : Nat) : Decidable (NoneLater fetches i) :=
  inferInstanceAs (Decidable (∀ fetch ∈ _, _))

/-- No fetch behind the `i`th is answered. -/
theorem noneLater_iff {fetches : List Fetch} {i : Nat} :
    NoneLater fetches i ↔ (fetches.drop (i + 1)).filterMap Fetch.answer = [] :=
  List.filterMap_eq_nil_iff.symm

/-- If one is, there is a newest answer. -/
theorem exists_newestAnswer {fetches : List Fetch} {i : Nat} (h : ¬ NoneLater fetches i) :
    ∃ answer, newestAnswer fetches = some answer := by
  rw [← Option.isSome_iff_exists, newestAnswer, List.getLast?_isSome]
  intro hnil
  rw [List.filterMap_eq_nil_iff] at hnil
  exact h fun fetch hmem => hnil fetch (List.mem_of_mem_drop hmem)

/-- A new answer is the newest one unless a fetch started later is answered. -/
theorem newestAnswer_set {fetches : List Fetch} {i : Nat} {pipeline : Pipeline}
    (hget : fetches[i]? = some ⟨pipeline, none⟩) (answer : UsersAnswer) :
    newestAnswer (fetches.set i ⟨pipeline, some answer⟩) =
      if NoneLater fetches i then some answer else newestAnswer fetches := by
  have hbefore : newestAnswer fetches =
      ((fetches.drop (i + 1)).filterMap Fetch.answer).getLast?.or
        ((fetches.take i).filterMap Fetch.answer).getLast? := by
    conv_lhs => rw [fetches_around hget]
    simp [newestAnswer]
  rw [hbefore, newestAnswer, fetches_set_around hget]
  simp only [noneLater_iff]
  by_cases hnil : (fetches.drop (i + 1)).filterMap Fetch.answer = []
  · simp [hnil]
  · rcases List.getLast?_isSome.2 hnil |> Option.isSome_iff_exists.1 with ⟨last, hlast⟩
    simp [hnil, hlast, List.getLast?_cons]

/-- The users are those of the newest answered fetch. -/
def HoldsNewest (s : NewMessage) : Prop :=
  ∀ answer ∈ newestAnswer s.fetches, s.users = answer.users

/-- An answer is accepted exactly if it is the newest one, or it delivers the users that
are shown already. -/
def AcceptsNewest (s : NewMessage) : NewMessageEvent → Prop
  | .textChanged _ _ => True
  | .throttleFires => True
  | .pull => True
  | .cancel => True
  | .respond i answer =>
      ∀ fetch ∈ s.fetches[i]?,
        (s.listens fetch.pipeline = true ↔ NoneLater s.fetches i) ∨ answer.users = s.users

instance (s : NewMessage) : ∀ e, Decidable (s.AcceptsNewest e)
  | .textChanged _ _ => .isTrue trivial
  | .throttleFires => .isTrue trivial
  | .pull => .isTrue trivial
  | .cancel => .isTrue trivial
  | .respond i answer =>
      inferInstanceAs (Decidable (∀ fetch ∈ s.fetches[i]?,
        (s.listens fetch.pipeline = true ↔ NoneLater s.fetches i) ∨ answer.users = s.users))

/-- An answer that is accepted or dropped. -/
theorem holdsNewest_answered {s s' : NewMessage} (h : s.HoldsNewest) {i : Nat}
    {answer : UsersAnswer} {pipeline : Pipeline}
    (hget : s.fetches[i]? = some ⟨pipeline, none⟩)
    (hfetches : newestAnswer s'.fetches =
      newestAnswer (s.fetches.set i ⟨pipeline, some answer⟩)) {accepted : Bool}
    (husers : s'.users = if accepted then answer.users else s.users) :
    s'.HoldsNewest ↔
      (accepted = true ↔ NoneLater s.fetches i) ∨ answer.users = s.users := by
  rw [HoldsNewest, hfetches, newestAnswer_set hget, husers]
  by_cases hnewest : NoneLater s.fetches i
  · cases accepted with
    | true => simp [hnewest]
    | false => simp [hnewest, eq_comm]
  · cases accepted with
    | true =>
        rcases exists_newestAnswer hnewest with ⟨last, hlast⟩
        simp [hnewest, hlast, h last hlast]
    | false => simpa [hnewest, HoldsNewest] using h

section Search

variable (lowercased : String → String) (contains : String → String → Bool)

/-- Nothing searches and nothing fails: an element of `inputText` is empty, and a fetch
succeeds. -/
def Quiet (s : NewMessage) : NewMessageEvent → Prop
  | .respond _ answer => answer.error = none
  | e => ∀ text ∈ s.emits lowercased e, text = ""

instance (s : NewMessage) : ∀ e, Decidable (s.Quiet lowercased e)
  | .textChanged _ _ => inferInstanceAs (Decidable (∀ text ∈ _, _))
  | .throttleFires => inferInstanceAs (Decidable (∀ text ∈ _, _))
  | .pull => inferInstanceAs (Decidable (∀ text ∈ _, _))
  | .cancel => inferInstanceAs (Decidable (∀ text ∈ _, _))
  | .respond _ _ => inferInstanceAs (Decidable (_ = _))

/-- No text is in effect. -/
def NoText (s : NewMessage) : Prop :=
  ∀ text ∈ s.inputText, text = ""

/-- The empty text narrows nothing. -/
theorem narrowed_empty (users base : List User) :
    narrowed lowercased contains "" users base = users :=
  if_pos rfl

/-- Without a text an event other than a response writes no users. -/
theorem written_quiet {s : NewMessage} {e : NewMessageEvent}
    (hquiet : ∀ text ∈ s.emits lowercased e, text = "") (h : s.NoText) :
    (s.written lowercased contains e).users = s.users ∧
      (s.written lowercased contains e).NoText ∧
      (s.written lowercased contains e).fetches = s.fetches := by
  unfold written
  by_cases hpull : e = .pull
  · rw [if_pos hpull]
    exact ⟨rfl, h, rfl⟩
  · rw [if_neg hpull]
    cases hemits : s.emits lowercased e with
    | none => exact ⟨rfl, h, rfl⟩
    | some text =>
        obtain rfl := hquiet text hemits
        refine ⟨?_, by simp [NoText], rfl⟩
        simp only [Option.elim, searched]
        cases s.baseUsersForFiltering with
        | none => rfl
        | some base => exact narrowed_empty lowercased contains s.users base

/-- Without a text the initial users are shown as they are. -/
theorem onFetched_quiet {s : NewMessage} (h : s.NoText) (users : List User) :
    (s.onFetched lowercased contains (.next users)).users = users ∧
      (s.onFetched lowercased contains (.next users)).NoText ∧
      newestAnswer (s.onFetched lowercased contains (.next users)).fetches =
        newestAnswer s.fetches := by
  have hstarts := starts_onFetched lowercased contains s users
  rcases hstarts.fetches with ⟨new, hnew, -⟩
  refine ⟨?_, ?_, by rw [hnew, newestAnswer_started]⟩
  · rw [hstarts.users_eq]
    cases htext : s.inputText with
    | none => rfl
    | some text =>
        obtain rfl := h text htext
        exact narrowed_empty lowercased contains users users
  · rw [NoText, hstarts.inputText_eq]
    exact h

/-- Without a text and without failures an answer is shown exactly if it is listened to. -/
theorem responded_quiet {s s' : NewMessage} (hsound : s.Sound) (h : s.NoText) {i : Nat}
    {answer : UsersAnswer} (hquiet : answer.error = none) {pipeline : Pipeline}
    (hget : s.fetches[i]? = some ⟨pipeline, none⟩)
    (hresponded :
      Responded lowercased contains (s.answered i pipeline answer) answer pipeline s') :
    s'.users = (if s.listens pipeline then answer.users else s.users) ∧ s'.NoText ∧
      newestAnswer s'.fetches = newestAnswer (s.fetches.set i ⟨pipeline, some answer⟩) := by
  cases hresponded with
  | unheard a b hpipeline hlistens =>
      have hunheard : s.listens pipeline = false := hlistens
      exact ⟨by simp [hunheard, answered], h, rfl⟩
  | fetched herror =>
      have hheard : s.listens .fetchedUsers = true := by
        simp [listens, hsound.initial_live (List.mem_of_getElem? hget), RetrySink.fresh]
      have hnone :
          NoText { s.answered i .fetchedUsers answer with fetchedUsers := ⟨false, true⟩ } := h
      rcases onFetched_quiet lowercased contains hnone answer.users with ⟨husers, htext, hnewest⟩
      exact ⟨by rw [husers, hheard]; rfl, htext, hnewest⟩
  | fetchFailed e herror => exact absurd (hquiet.symm.trans herror) (by simp)
  | reFetched inner hlistens herror =>
      have hheard : s.listens (.reFetchedUsers inner) = true := hlistens
      exact ⟨by simp [hheard], h, rfl⟩
  | reFetchFailed inner hlistens e herror => exact absurd (hquiet.symm.trans herror) (by simp)
  | reloaded inner hlistens herror =>
      have hheard : s.listens (.reloadedUsers inner) = true := hlistens
      exact ⟨by simp [hheard], h, rfl⟩
  | reloadFailed inner hlistens e herror => exact absurd (hquiet.symm.trans herror) (by simp)

/-- One event of a quiet run. -/
theorem quiet_step {s s' : NewMessage} {e : NewMessageEvent} (hquiet : s.Quiet lowercased e)
    (hsound : s.Sound) (h : s.NoText) (hstep : s.step lowercased contains e = some s') :
    s'.NoText ∧ (s.HoldsNewest → (s'.HoldsNewest ↔ s.AcceptsNewest e)) := by
  rcases step_cases lowercased contains hsound hstep with ⟨hother, hstarts⟩ |
    ⟨i, answer, pipeline, rfl, hget, hresponded⟩
  · have hemits : ∀ text ∈ s.emits lowercased e, text = "" := by
      cases e with
      | respond i answer => exact absurd rfl (hother i answer)
      | textChanged key elapsed => exact hquiet
      | throttleFires => exact hquiet
      | pull => exact hquiet
      | cancel => exact hquiet
    have haccepts : s.AcceptsNewest e := by
      cases e with
      | respond i answer => exact absurd rfl (hother i answer)
      | textChanged key elapsed => trivial
      | throttleFires => trivial
      | pull => trivial
      | cancel => trivial
    rcases written_quiet lowercased contains hemits h with ⟨husers, htext, hfetches⟩
    rcases hstarts.fetches with ⟨new, hnew, -⟩
    refine ⟨by rw [NoText, hstarts.inputText_eq]; exact htext, fun hholds => ?_⟩
    refine iff_of_true ?_ haccepts
    rw [HoldsNewest, hnew, newestAnswer_started, hfetches, hstarts.users_eq, husers]
    exact hholds
  · rcases responded_quiet lowercased contains hsound h hquiet hget hresponded with
      ⟨husers, htext, hnewest⟩
    refine ⟨htext, fun hholds => ?_⟩
    simpa only [AcceptsNewest, hget, Option.mem_some_iff, forall_eq'] using
      holdsNewest_answered hholds hget hnewest husers

/-- **The newest fetch.**  In a run with no text in effect in which every fetch succeeds,
the users are throughout those of the most recently started fetch among the answered ones
exactly when what is accepted is the newest answer or changes nothing. -/
theorem holdsNewest_iff {es : List NewMessageEvent} {s : NewMessage}
    (hquiet : StepsMeet (step lowercased contains) (Quiet lowercased) initial es)
    (hrun : run (step lowercased contains) initial es = some s) :
    Always (step lowercased contains) HoldsNewest initial es ↔
      StepsMeet (step lowercased contains) AcceptsNewest initial es := by
  refine always_iff_stepsMeet_of (I := fun s => Sound s ∧ NoText s) ?_ ?_ hquiet
    ⟨sound_initial, by simp [NoText, initial]⟩ (by simp [HoldsNewest, newestAnswer, initial]) hrun
  · rintro a e b hq ⟨ha, htext⟩ hab
    exact ⟨sound_step lowercased contains ha hab,
      (quiet_step lowercased contains hq ha htext hab).1⟩
  · rintro a e b hq ⟨ha, htext⟩ hholds hab
    exact (quiet_step lowercased contains hq ha htext hab).2 hholds

end Search

/-- The initial fetch, the reload of the empty text and two refetches, answered in the
order in which they were started. -/
def answeredInOrder : List NewMessageEvent :=
  [.textChanged "" true, .respond 0 (.sample ["alice"]), .respond 1 (.sample ["alice", "bob"]),
   .pull, .respond 2 (.sample ["bob"]), .cancel, .respond 3 (.sample ["alice"])]

theorem holdsNewest_iff_answeredInOrder :
    Always (step id (· == ·)) HoldsNewest initial answeredInOrder :=
  (holdsNewest_iff id (· == ·) (by decide) (run_final rfl)).2 (by decide)

/-- The initial fetch is answered after the reload of the empty text. -/
def initialAnsweredLast : List NewMessageEvent :=
  [.textChanged "" true, .respond 1 (.sample ["alice", "bob"]), .respond 0 (.sample ["alice"])]

/-- The users of the fetch started first replace those of the fetch started second. -/
theorem not_holdsNewest_of_initialAnsweredLast :
    ∃ s, run (step id (· == ·)) initial initialAnsweredLast = some s ∧
      StepsMeet (step id (· == ·)) (Quiet id) initial initialAnsweredLast ∧
      ¬ s.HoldsNewest := by
  refine ⟨_, run_final rfl, by decide, ?_⟩
  intro h
  exact absurd (h (.sample ["alice", "bob"]) (by decide)) (by decide)

end NewMessage

end WaffleChat
