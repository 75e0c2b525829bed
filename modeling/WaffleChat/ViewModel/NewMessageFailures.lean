import WaffleChat.ViewModel.NewMessageSteps

/-!
# Failing fetches of the friend list

The initial pipeline retries after a failure, the refetch pipeline replaces the error by
an empty list, the reload pipeline does nothing about it.

Main results:

- Theorem `survives_iff`: the refetch pipeline survives its failures exactly as long as
  none of them empties a list and no trigger comes after one.
- Theorem `bindingErrors_eq_nil_iff`: no error reaches a binding exactly as long as no
  reload that is listened to fails.
-/

namespace WaffleChat

open EventSystem Observers

namespace NewMessage

/-! ## What a refetch has to survive -/

/-- A refetch is started, and it is the one listened to. -/
def Refetches (s s' : NewMessage) : Prop :=
  s'.reFetchedUsers.latest = s.reFetchedUsers.latest + 1 ∧
    Fetch.mk (.reFetchedUsers s'.reFetchedUsers.latest) none ∈ s'.fetches

/-- The event does what it does while failed refetches are survived: a failed refetch
leaves the users, a trigger refetches, and the users of the latest refetch are accepted. -/
def Survives (s : NewMessage) (e : NewMessageEvent) (s' : NewMessage) : Prop :=
  match e with
  | .textChanged _ _ => True
  | .throttleFires => True
  | .pull => s.onSearching = false → Refetches s s'
  | .cancel => Refetches s s'
  | .respond i answer =>
      ∀ fetch ∈ s.fetches[i]?, fetch.pipeline.isRefetch = true →
        (answer.error ≠ none → s'.users = s.users) ∧
          (answer.error = none → fetch.pipeline = .reFetchedUsers s.reFetchedUsers.latest →
            s'.users = answer.users)

/-- The latest refetch fails only while the list is empty, and no trigger comes after
that. -/
def SparesRefetches (s : NewMessage) : NewMessageEvent → Prop
  | .textChanged _ _ => True
  | .throttleFires => True
  | .pull => s.onSearching = false → s.reFetchedUsers.disposed = false
  | .cancel => s.reFetchedUsers.disposed = false
  | .respond i answer =>
      ∀ fetch ∈ s.fetches[i]?, fetch.pipeline = .reFetchedUsers s.reFetchedUsers.latest →
        answer.error ≠ none → s.users = []

instance (s : NewMessage) : ∀ e, Decidable (s.SparesRefetches e)
  | .textChanged _ _ => .isTrue trivial
  | .throttleFires => .isTrue trivial
  | .pull => inferInstanceAs (Decidable (_ → _))
  | .cancel => inferInstanceAs (Decidable (_ = _))
  | .respond i answer =>
      inferInstanceAs (Decidable (∀ fetch ∈ s.fetches[i]?,
        fetch.pipeline = .reFetchedUsers s.reFetchedUsers.latest →
          answer.error ≠ none → s.users = []))

/-- Nothing but the end of its pipeline keeps a trigger from refetching. -/
theorem refetches_refetch {s t : NewMessage} (h : t.Sound)
    (hsame : t.reFetchedUsers = s.reFetchedUsers) :
    Refetches s t.refetch ↔ s.reFetchedUsers.disposed = false := by
  unfold refetch Refetches
  rw [h.caught_eq, ← hsame]
  cases t.reFetchedUsers.disposed with
  | true => simp
  | false => simp [SwitchSink.next]

theorem retry_reFetchedUsers (s : NewMessage) : s.retry.reFetchedUsers = s.reFetchedUsers := by
  rw [retry_eq]
  split <;> rfl

theorem refetches_pulled {s : NewMessage} (h : s.Sound) (hsearching : s.onSearching = false) :
    Refetches s s.pulled ↔ s.reFetchedUsers.disposed = false := by
  have hspinning : Sound { s with spinner := true } := { h with }
  have hpulled : Sound { { s with spinner := true }.retry with refreshPulled := true } :=
    { hspinning.retry with }
  rw [pulled, if_neg (by simp [hsearching])]
  exact refetches_refetch hpulled (retry_reFetchedUsers { s with spinner := true })

section Search

variable (lowercased : String → String) (contains : String → String → Bool)

/-- What an answer does to the refetches. -/
theorem survives_respond {s s' : NewMessage} (h : s.Sound) {i : Nat} {answer : UsersAnswer}
    {pipeline : Pipeline} (hget : s.fetches[i]? = some ⟨pipeline, none⟩)
    (hresponded :
      Responded lowercased contains (s.answered i pipeline answer) answer pipeline s') :
    Survives s (.respond i answer) s' ↔ s.SparesRefetches (.respond i answer) := by
  simp only [Survives, SparesRefetches, hget, Option.mem_some_iff, forall_eq']
  cases hresponded with
  | unheard a b hpipeline hlistens =>
      have hsuperseded : pipeline ≠ .reFetchedUsers s.reFetchedUsers.latest := by
        rintro rfl
        have hlive := h.refetch_live (List.mem_of_getElem? hget)
        have hheard : s.listens (.reFetchedUsers s.reFetchedUsers.latest) = true :=
          listens_reFetchedUsers.2 ⟨rfl, hlive⟩
        exact absurd (hheard.symm.trans hlistens) (by simp)
      simp [answered, hsuperseded]
  | fetched herror => simp [Pipeline.isRefetch]
  | fetchFailed e herror => simp [Pipeline.isRefetch]
  | reFetched inner hlistens herror => simp [herror]
  | reFetchFailed inner hlistens e herror =>
      have hlatest : s.reFetchedUsers.latest = inner := (listens_reFetchedUsers.1 hlistens).1
      simp only [herror, hlatest, Pipeline.isRefetch, ne_eq, reduceCtorEq, not_false_eq_true,
        forall_const, false_implies, and_true]
      exact eq_comm
  | reloaded inner hlistens herror => simp [Pipeline.isRefetch]
  | reloadFailed inner hlistens e herror => simp [Pipeline.isRefetch]

/-- What one event does to the refetches. -/
theorem survives_step {s s' : NewMessage} {e : NewMessageEvent} (h : s.Sound)
    (hstep : s.step lowercased contains e = some s') :
    Survives s e s' ↔ s.SparesRefetches e := by
  cases e with
  | textChanged key elapsed => exact Iff.rfl
  | throttleFires => exact Iff.rfl
  | pull =>
      obtain rfl : s.pulled = s' := Option.some.inj hstep
      exact forall_congr' (refetches_pulled h)
  | cancel =>
      obtain rfl : s.refetch = s' := Option.some.inj hstep
      exact refetches_refetch h rfl
  | respond i answer =>
      rcases respond_cases lowercased contains h hstep with ⟨pipeline, hget, hresponded⟩
      exact survives_respond lowercased contains h hget hresponded

/-- **Failed refetches.**  In a run every failed refetch leaves the users, every trigger
refetches and the users of every latest refetch are accepted, exactly when the latest
refetch fails only while the list is empty and no trigger comes after that. -/
theorem survives_iff {es : List NewMessageEvent} {s : NewMessage}
    (hrun : run (step lowercased contains) initial es = some s) :
    StepsMeet (step lowercased contains)
        (fun s e => ∀ s', step lowercased contains s e = some s' → Survives s e s') initial es ↔
      StepsMeet (step lowercased contains) SparesRefetches initial es := by
  refine stepsMeet_congr (I := Sound) ?_ ?_ sound_initial hrun
  · intro a e b ha hab
    exact sound_step lowercased contains ha hab
  · intro a e b ha hab
    simp only [hab, Option.some.injEq, forall_eq']
    exact survives_step lowercased contains ha hab

end Search

/-- A refetch fails after the next one has been triggered. -/
def supersededFails : List NewMessageEvent :=
  [.textChanged "" true, .respond 0 (.sample ["alice"]), .cancel, .cancel,
   .respond 2 .failure, .respond 3 (.sample ["alice", "bob"]), .cancel]

theorem survives_iff_supersededFails :
    StepsMeet (step id (· == ·))
      (fun s e => ∀ s', step id (· == ·) s e = some s' → Survives s e s') initial
      supersededFails :=
  (survives_iff id (· == ·) (run_final rfl)).2 (by decide)

/-- A refetch that fails with users on the screen. -/
def refetchFails : List NewMessageEvent :=
  [.textChanged "" true, .respond 0 (.sample ["alice"]), .cancel, .respond 2 .failure, .cancel]

/-- The users are gone, and the next trigger starts no fetch. -/
theorem not_survives_of_refetchFails :
    ∃ s, run (step id (· == ·)) initial refetchFails = some s ∧ s.users = [] ∧
      s.fetches.length = 3 ∧
      ¬ StepsMeet (step id (· == ·))
        (fun s e => ∀ s', step id (· == ·) s e = some s' → Survives s e s') initial
        refetchFails := by
  refine ⟨_, run_final rfl, by decide, by decide, ?_⟩
  intro h
  have hfailed := ((((h.2 _ rfl).2 _ rfl).2 _ rfl).1 _ rfl _ rfl rfl).1 (by decide)
  exact absurd hfailed (by decide)

/-! ## Errors at the bindings -/

/-- A reload that is listened to succeeds. -/
def ReloadSucceeds (s : NewMessage) : NewMessageEvent → Prop
  | .textChanged _ _ => True
  | .throttleFires => True
  | .pull => True
  | .cancel => True
  | .respond i answer =>
      ∀ fetch ∈ s.fetches[i]?,
        fetch.pipeline = .reloadedUsers s.reloadedUsers.latest →
          s.reloadedUsers.disposed = false → answer.error = none

instance (s : NewMessage) : ∀ e, Decidable (s.ReloadSucceeds e)
  | .textChanged _ _ => .isTrue trivial
  | .throttleFires => .isTrue trivial
  | .pull => .isTrue trivial
  | .cancel => .isTrue trivial
  | .respond i answer =>
      inferInstanceAs (Decidable (∀ fetch ∈ s.fetches[i]?,
        fetch.pipeline = .reloadedUsers s.reloadedUsers.latest →
          s.reloadedUsers.disposed = false → answer.error = none))

section Search

variable (lowercased : String → String) (contains : String → String → Bool)

theorem written_bindingErrors (s : NewMessage) (e : NewMessageEvent) :
    (s.written lowercased contains e).bindingErrors = s.bindingErrors := by
  unfold written
  split
  · rfl
  · cases s.emits lowercased e with
    | none => rfl
    | some text => rfl

/-- An event with no error at the bindings brings none exactly if no reload fails. -/
theorem bindingErrors_step {s s' : NewMessage} {e : NewMessageEvent} (h : s.Sound)
    (hnone : s.bindingErrors = []) (hstep : s.step lowercased contains e = some s') :
    s'.bindingErrors = [] ↔ s.ReloadSucceeds e := by
  rcases step_cases lowercased contains h hstep with ⟨hother, hstarts⟩ |
    ⟨i, answer, pipeline, rfl, hget, hresponded⟩
  · have hsame : s'.bindingErrors = [] := by
      rw [hstarts.bindingErrors_eq, written_bindingErrors, hnone]
    cases e with
    | respond i answer => exact absurd rfl (hother i answer)
    | textChanged key elapsed => exact iff_of_true hsame trivial
    | throttleFires => exact iff_of_true hsame trivial
    | pull => exact iff_of_true hsame trivial
    | cancel => exact iff_of_true hsame trivial
  · simp only [ReloadSucceeds, hget, Option.mem_some_iff, forall_eq']
    cases hresponded with
    | unheard a b hpipeline hlistens =>
        refine iff_of_true hnone ?_
        rintro rfl hlive
        have hheard := listens_reloadedUsers.2 ⟨rfl, hlive⟩
        exact absurd (hheard.symm.trans hlistens) (by simp)
    | fetched herror =>
        have hsame := (starts_onFetched lowercased contains
          { s.answered i .fetchedUsers answer with fetchedUsers := ⟨false, true⟩ }
          answer.users).bindingErrors_eq
        exact iff_of_true (hsame.trans hnone) (by simp)
    | fetchFailed e herror => exact iff_of_true hnone (by simp)
    | reFetched inner hlistens herror => exact iff_of_true hnone (by simp)
    | reFetchFailed inner hlistens e herror => exact iff_of_true hnone (by simp)
    | reloaded inner hlistens herror => exact iff_of_true hnone (fun _ _ => herror)
    | reloadFailed inner hlistens e herror =>
        rcases listens_reloadedUsers.1 hlistens with ⟨hlatest, hlive⟩
        refine iff_of_false (by simp) ?_
        intro hsucceeds
        have hnoerror := hsucceeds (congrArg Pipeline.reloadedUsers hlatest.symm) hlive
        exact absurd (hnoerror.symm.trans herror) (by simp)

/-- **Errors at the bindings.**  No error reaches a binding throughout a run exactly when
no reload that is listened to fails. -/
theorem bindingErrors_eq_nil_iff {es : List NewMessageEvent} {s : NewMessage}
    (hrun : run (step lowercased contains) initial es = some s) :
    Always (step lowercased contains) (fun s => s.bindingErrors = []) initial es ↔
      StepsMeet (step lowercased contains) ReloadSucceeds initial es := by
  refine always_iff_stepsMeet (I := Sound) ?_ ?_ sound_initial rfl hrun
  · intro a e b ha hab
    exact sound_step lowercased contains ha hab
  · intro a e b ha hnone hab
    exact bindingErrors_step lowercased contains ha hnone hab

end Search

/-- The initial fetch fails and is retried on a pull; the refetch fails too. -/
def fetchAndRefetchFail : List NewMessageEvent :=
  [.textChanged "" true, .respond 0 .failure, .pull, .respond 3 .failure,
   .respond 2 (.sample ["alice"]), .respond 1 (.sample ["alice"])]

theorem bindingErrors_eq_nil_iff_fetchAndRefetchFail :
    Always (step id (· == ·)) (fun s => s.bindingErrors = []) initial fetchAndRefetchFail :=
  (bindingErrors_eq_nil_iff id (· == ·) (run_final rfl)).2 (by decide)

/-- The reload the screen starts when the search field binds its empty text fails. -/
def firstReloadFails : List NewMessageEvent :=
  [.textChanged "" true, .respond 1 .failure]

/-- The error reaches the binding to `users`. -/
theorem bindingErrors_ne_nil_of_firstReloadFails :
    ∃ s, run (step id (· == ·)) initial firstReloadFails = some s ∧
      s.bindingErrors = [(.reloadedUsersToUsers, ⟨"unavailable"⟩)] := by
  exact ⟨_, run_final rfl, by decide⟩

end NewMessage

end WaffleChat
