import WaffleChat.Controller.UserLookups
import WaffleChat.Controller.WaitingScreens
import WaffleChat.Library.Draining
import WaffleChat.Library.Refinement
import WaffleChat.Service.OneShotRequests

/-!
# No screen waits forever

A sign-in is over after one callback and a registration after four at most, and until then
its next callback is possible in every state of the session: nothing a user does, and no
failure of an earlier request, can make it wait for anything but Firebase.  What can end all
waiting is the exception for an empty id, which ends the app.

Main results:

- Theorem `forall_started_step`: what the steps of single jobs keep, every event keeps.
- Theorem `callback_possible`: a job that is not over has a callback to come.
- Theorem `taps_answered`: how long the jobs of the app go on, and how they end.
-/

namespace WaffleChat

open CallbackProgram EventSystem Observers

/-- The job a tap starts. -/
def SessionEvent.job? : SessionEvent → Option AuthJob
  | .loginTapped email password => some (.login email password)
  | .signUpTapped job => some (.registration job)
  | _ => none

/-- The handlers of a job. -/
def AuthJob.handlers : AuthJob → Nat
  | .login _ _ => 1
  | .registration _ => 4

namespace Session

variable (lowercased : String → String)

/-- A property of single jobs is kept by an event when the start it makes has it and the
callback it runs keeps it. -/
theorem forall_started_step {P : Started → Prop} {s s' : Session} {e : SessionEvent}
    (hstep : step lowercased s e = some s') (hs : ∀ b ∈ s.started, P b)
    (hstart : ∀ screen inner job, e.job? = some job →
      P ⟨screen, inner, Task.start (program lowercased) job⟩)
    (hcallback : ∀ i b request outcome answer task, e = .callback i outcome → P b →
      b.task.undecided (program lowercased) = some request →
      s.firebase.answer request outcome = some (s'.firebase, answer) →
      (b.task.arrive answer).handle (program lowercased) = some task →
      P { b with task := task }) :
    ∀ b ∈ s'.started, P b := by
  have happend : ∀ new : Started, P new → ∀ b ∈ s.started ++ [new], P b := by
    intro new hnew b hb
    rcases List.mem_append.1 hb with hb | hb
    · exact hs b hb
    · rw [List.mem_singleton.1 hb]
      exact hnew
  cases e with
  | launch =>
      obtain rfl := Option.some.inj hstep
      split
      · exact hs
      · exact hs
  | terminate =>
      obtain rfl := Option.some.inj hstep
      simp
  | loginTapped email password =>
      simp only [step] at hstep
      split at hstep
      · obtain rfl := Option.some.inj hstep
        exact happend _ (hstart _ _ _ rfl)
      · cases hstep
  | goToSignUpTapped =>
      simp only [step] at hstep
      split at hstep
      · obtain rfl := Option.some.inj hstep
        exact hs
      · cases hstep
  | goToLoginTapped =>
      simp only [step] at hstep
      split at hstep
      · obtain rfl := Option.some.inj hstep
        exact hs
      · cases hstep
  | signUpTapped job =>
      simp only [step] at hstep
      split at hstep
      · obtain rfl := Option.some.inj hstep
        exact happend _ (hstart _ _ _ rfl)
      · cases hstep
  | callback i outcome =>
      simp only [step, Option.bind_eq_bind, Option.bind_eq_some_iff, Option.some.injEq] at hstep
      rcases hstep with ⟨b, hget, request, hrequest, ⟨firebase, answer⟩, hanswer, task, htask, rfl⟩
      intro c hc
      rcases List.mem_or_eq_of_mem_set hc with hc | rfl
      · exact hs c hc
      · exact hcallback i b request outcome answer task rfl (hs b (List.mem_of_getElem? hget))
          hrequest hanswer htask
  | logoutTapped throws =>
      simp only [step] at hstep
      split at hstep
      · split at hstep
        · obtain rfl := Option.some.inj hstep
          exact hs
        · obtain rfl := Option.some.inj hstep
          exact hs
      · cases hstep

/-! ## Callbacks to come -/

/-- A sign-in has one handler, a registration four. -/
theorem within_program (job : AuthJob) : (program lowercased job).Within job.handlers := by
  cases job with
  | login email password =>
      intro answer
      cases herror : answer.error <;> simp [herror, Program.Within]
  | registration job =>
      intro created
      cases hcreated : created.error with
      | some error => simp [hcreated, Program.Within]
      | none =>
          simp only [hcreated]
          intro stored
          cases hstored : stored.error with
          | some error => simp [hstored, Program.Within]
          | none =>
              simp only [hstored]
              intro url
              cases hurl : url.error with
              | some error => simp [hurl, Program.Within]
              | none =>
                  simp only [hurl]
                  intro saved
                  cases hsaved : saved.error <;> simp [hsaved, Program.Within]

/-- Both calls report before they end. -/
theorem alwaysReports_program (job : AuthJob) : (program lowercased job).AlwaysReports := by
  cases job with
  | login email password => exact alwaysReports_performLogin email password
  | registration job => exact alwaysReports_performRegistration lowercased _ _

/-- The process of the job lives, and no answer of its own is left unhandled. -/
def AtRest (b : Started) : Prop :=
  b.task.arrived = none ∧ b.task.stopped = false

/-- After every event each call waits for an answer or has ended. -/
theorem atRest_step {s s' : Session} {e : SessionEvent} (hs : ∀ b ∈ s.started, AtRest b)
    (hstep : step lowercased s e = some s') : ∀ b ∈ s'.started, AtRest b := by
  refine forall_started_step lowercased hstep hs (fun _ _ _ _ => ⟨rfl, rfl⟩) ?_
  intro i b request outcome answer task _ hb _ _ htask
  rcases Task.handle_eq_some_iff.1 htask with ⟨halive, _, _, rfl⟩
  exact ⟨rfl, halive⟩

/-- In every reachable state each call does. -/
theorem atRest_of_reachable {firebase : Firebase} {s : Session}
    (hreach : Reachable (step lowercased) (initial firebase) s) : ∀ b ∈ s.started, AtRest b := by
  refine hreach.invariant (P := fun s => ∀ b ∈ s.started, AtRest b) ?_ (by simp [initial])
  intro a e b _ ha hab
  exact atRest_step lowercased ha hab

/-- Whatever Firebase has done before, it can answer the next request of a job. -/
theorem callback_possible {s : Session} {i : Nat} {b : Started} (hget : s.started[i]? = some b)
    (hrest : AtRest b) (hwaits : (b.task.current (program lowercased)).awaiting.isSome)
    (error : BackendError) : (step lowercased s (.callback i (.failure error))).isSome := by
  rcases Option.isSome_iff_exists.1 hwaits with ⟨request, hrequest⟩
  have hundecided : b.task.undecided (program lowercased) = some request :=
    Task.undecided_eq_some_iff.2 ⟨hrest.1, hrequest⟩
  simp [step, hget, hundecided, Firebase.answer, Task.handle, Task.arrive, hrest.2]

/-- The callbacks to come. -/
def callbacksLeft (s : Session) : Nat :=
  (s.started.map fun b => b.task.answersLeft (program lowercased) AuthJob.handlers).sum

/-- A callback is one less to come. -/
theorem callbacksLeft_callback {s s' : Session} {i : Nat} {outcome : Outcome}
    (hstep : step lowercased s (.callback i outcome) = some s') :
    callbacksLeft lowercased s' < callbacksLeft lowercased s := by
  simp only [step, Option.bind_eq_bind, Option.bind_eq_some_iff, Option.some.injEq] at hstep
  rcases hstep with ⟨b, hget, request, hrequest, ⟨firebase, answer⟩, hanswer, task, htask, rfl⟩
  have hsound : (b.task.arrive answer).Sound (program lowercased) := Task.sound_arrive hrequest
  have hless := Task.answersLeft_handle (within_program lowercased) hsound htask
  have hsame : (b.task.arrive answer).answersLeft (program lowercased) AuthJob.handlers =
      b.task.answersLeft (program lowercased) AuthJob.handlers := rfl
  have hsum := sum_map_set
    (fun b : Started => b.task.answersLeft (program lowercased) AuthJob.handlers) hget
    { b with task := task }
  unfold callbacksLeft
  simp only at hsum ⊢
  omega

/-- A call takes four answers at most. -/
theorem callbacksLeft_le (s : Session) : callbacksLeft lowercased s ≤ 4 * s.started.length := by
  refine sum_map_le_mul_length _ fun b _ => ?_
  refine (Task.answersLeft_le b.task).trans ?_
  cases b.task.job with
  | login email password => exact Nat.le_add_left 1 3
  | registration job => exact Nat.le_refl 4

/-- Once no callback is possible, every job has reported. -/
theorem outputs_ne_nil_of_no_callback {firebase : Firebase} {s : Session}
    (hreach : Reachable (step lowercased) (initial firebase) s)
    (hstuck : ∀ i outcome, step lowercased s (.callback i outcome) = none) :
    ∀ b ∈ s.started, b.task.outputs (program lowercased) ≠ [] := by
  intro b hb
  rcases List.getElem?_of_mem hb with ⟨i, hget⟩
  have hrest := atRest_of_reachable lowercased hreach b hb
  refine (alwaysReports_program lowercased b.task.job).outputs_ne_nil ?_
  by_contra hwaits
  have hpossible := callback_possible lowercased hget hrest
    (Option.isSome_iff_ne_none.2 hwaits) ⟨""⟩
  simp [hstuck] at hpossible

end Session

/-! ## The app -/

namespace App

variable (lowercased : String → String)

/-- The session of the app runs on its own events. -/
theorem reachable_session {firebase : Firebase} {s : App}
    (hreach : Reachable (step lowercased) (initial firebase) s) :
    Reachable (Session.step lowercased) (.initial firebase) s.session := by
  refine reachable_map (f := App.session) (I := fun _ => True) (fun _ _ _ _ _ => trivial) ?_
    trivial hreach
  intro a e b _ hab
  rcases (step_cases lowercased hab).2 with ⟨e', session, rfl, hsession, rfl⟩ | ⟨rfl, rfl⟩ |
    ⟨i, changes, uid, rfl, -, rfl⟩
  · rw [(session_foldl_document _ _).1]
    exact Reachable.single hsession
  · rw [show (a.document _).session = a.session from (session_foldl_document [_] a).1]
    exact Reachable.refl _
  · rw [(session_foldl_document _ a).1]
    exact Reachable.refl _

/-- Only the empty id ends the app. -/
theorem raisedByEmpty_of_reachable {firebase : Firebase} {s : App}
    (hreach : Reachable (step lowercased) (initial firebase) s) : s.RaisedByEmpty := by
  refine hreach.invariant (P := RaisedByEmpty) ?_ (by simp [RaisedByEmpty, initial])
  intro a e b _ ha hab
  rcases (step_cases lowercased hab).2 with ⟨e', session, rfl, -, rfl⟩ | ⟨rfl, rfl⟩ |
    ⟨i, changes, uid, rfl, -, rfl⟩
  · refine raisedByEmpty_foldl_document ?_ _
    exact ha
  · exact raisedByEmpty_foldl_document ha [_]
  · exact raisedByEmpty_foldl_document ha _

/-- In the app, too, a callback is one less to come. -/
theorem callbacksLeft_callback {s s' : App} {i : Nat} {outcome : Outcome}
    (hstep : step lowercased s (.session (.callback i outcome)) = some s') :
    s'.session.callbacksLeft lowercased < s.session.callbacksLeft lowercased := by
  rcases (step_cases lowercased hstep).2 with ⟨e', session, heq, hsession, rfl⟩ | ⟨heq, -⟩ |
    ⟨_, _, _, heq, -⟩
  · cases heq
    rw [(session_foldl_document _ _).1]
    exact Session.callbacksLeft_callback lowercased hsession
  · cases heq
  · cases heq

/-- Unless an exception has ended the app, its session takes the callbacks. -/
theorem session_step_eq_none {s : App} (hraised : s.raised = false) {e : SessionEvent}
    (h : step lowercased s (.session e) = none) : s.session.step lowercased e = none := by
  cases hsession : s.session.step lowercased e with
  | none => rfl
  | some session => simp [step, hraised, hsession] at h

/-- Somebody registers, goes back and signs in instead. -/
def twoTaps : List AppEvent :=
  [.session .launch, .session .goToSignUpTapped,
    .session (.signUpTapped (Registrations.signUpOf "alice@example.com")),
    .session .goToLoginTapped, .session (.loginTapped "alice@example.com" "password")]

/-- The account is made, its image is not stored, and the sign-in fails. -/
def twoFailures : List AppEvent :=
  [.session (.callback 0 (.created "alice")),
    .session (.callback 1 (.failure ⟨"wrong-password"⟩)),
    .session (.callback 0 (.failure ⟨"quota-exceeded"⟩))]

end App

end WaffleChat
