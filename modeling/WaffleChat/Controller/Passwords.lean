import WaffleChat.Controller.Session
import WaffleChat.Library.Refinement
import WaffleChat.Library.RequestMap

/-!
# Where passwords go

Runs of the session that differ only in the passwords typed cannot be told apart by
anything but the passwords of the `signIn` and `createUser` requests: the accounts, the
documents, the window and all other requests are the same.

Main results:

- Theorem `step_withoutPasswords`: hiding the passwords commutes with every step.
- Theorem `passwords_unseen`: runs that differ only in passwords.
-/

namespace WaffleChat

open CallbackProgram EventSystem

/-! ## Hiding passwords -/

def AuthRequest.withoutPassword : AuthRequest → AuthRequest
  | .signIn email _ => .signIn email ""
  | .createUser email _ => .createUser email ""
  | request => request

def SignUp.withoutPassword (job : SignUp) : SignUp :=
  { job with values := { job.values with password := "" } }

def AuthJob.withoutPassword : AuthJob → AuthJob
  | .login email _ => .login email ""
  | .registration job => .registration job.withoutPassword

def Started.withoutPassword (b : Started) : Started :=
  { b with task := b.task.map AuthJob.withoutPassword AuthRequest.withoutPassword }

def SessionEvent.withoutPassword : SessionEvent → SessionEvent
  | .loginTapped email _ => .loginTapped email ""
  | .signUpTapped job => .signUpTapped job.withoutPassword
  | e => e

/-- Firebase decides a request by the outcome, and files accounts under their email. -/
theorem Firebase.answer_withoutPassword (firebase : Firebase) (request : AuthRequest)
    (outcome : Outcome) :
    firebase.answer request.withoutPassword outcome = firebase.answer request outcome := by
  cases request <;> cases outcome <;> rfl

namespace Session

variable (lowercased : String → String)

/-- The session with the passwords of its jobs hidden. -/
def withoutPasswords (s : Session) : Session :=
  { s with started := s.started.map Started.withoutPassword }

/-- The requests Firebase carries out in an event. -/
def carriedOut (s : Session) : SessionEvent → List AuthRequest
  | .callback i _ =>
      ((s.started[i]?).bind fun b => b.task.undecided (program lowercased)).toList
  | _ => []

/-- The profile document holds no password. -/
theorem saveInfoToFirestore_withoutPassword (currentUid : Option Uid) (values : Register)
    (imageURL : String) :
    saveInfoToFirestore lowercased currentUid { values with password := "" } imageURL =
      (saveInfoToFirestore lowercased currentUid values imageURL).mapReq
        AuthRequest.withoutPassword := by
  simp only [saveInfoToFirestore, Program.mapReq, AuthRequest.withoutPassword, docData,
    Program.await.injEq, true_and]
  funext answer
  cases answer.error <;> rfl

theorem saveImageToFirebase_withoutPassword (filename : String) (values : Register) :
    saveImageToFirebase lowercased filename { values with password := "" } =
      (saveImageToFirebase lowercased filename values).mapReq AuthRequest.withoutPassword := by
  simp only [saveImageToFirebase, Program.mapReq, AuthRequest.withoutPassword,
    Program.await.injEq, true_and]
  funext answer
  cases answer.error with
  | some error => rfl
  | none =>
      simp only [Program.mapReq, AuthRequest.withoutPassword, Program.await.injEq, true_and]
      funext answer
      cases answer.error with
      | some error => rfl
      | none => exact saveInfoToFirestore_withoutPassword lowercased _ values _

/-- A job without its password does what it did, with the password hidden. -/
theorem program_withoutPassword (job : AuthJob) :
    program lowercased job.withoutPassword =
      (program lowercased job).mapReq AuthRequest.withoutPassword := by
  cases job with
  | login email password =>
      simp only [AuthJob.withoutPassword, program, performLogin, Program.mapReq,
        AuthRequest.withoutPassword, Program.await.injEq, true_and]
      funext answer
      cases answer.error <;> rfl
  | registration job =>
      simp only [AuthJob.withoutPassword, SignUp.withoutPassword, program, performRegistration,
        Program.mapReq, AuthRequest.withoutPassword, Program.await.injEq, true_and]
      funext answer
      cases answer.error with
      | some error => rfl
      | none => exact saveImageToFirebase_withoutPassword lowercased job.filename job.values

/-! ## Steps and runs -/

theorem report_withoutPassword (window : Window) (b : Started)
    (events : List (Observers.Event BackendError Bool)) :
    report window b.withoutPassword events = report window b events := by
  cases hjob : b.task.job <;>
    simp [report, Started.withoutPassword, CallbackProgram.Task.map, hjob, AuthJob.withoutPassword]

/-- The handler of a job runs. -/
theorem step_callback_withoutPasswords (s : Session) (i : Nat) (outcome : Outcome) :
    step lowercased s.withoutPasswords (.callback i outcome) =
      (step lowercased s (.callback i outcome)).map withoutPasswords := by
  have hprog := program_withoutPassword lowercased
  simp only [step, withoutPasswords, List.getElem?_map, Option.bind_eq_bind]
  cases hget : s.started[i]? with
  | none => rfl
  | some b =>
      simp only [Option.map_some, Option.bind_some, Started.withoutPassword,
        Task.undecided_map hprog]
      cases hrequest : b.task.undecided (program lowercased) with
      | none => rfl
      | some request =>
          simp only [Option.map_some, Option.bind_some, Firebase.answer_withoutPassword]
          cases hanswer : s.firebase.answer request outcome with
          | none => rfl
          | some answered =>
              have harrive : (b.task.map AuthJob.withoutPassword
                  AuthRequest.withoutPassword).arrive answered.2 =
                  (b.task.arrive answered.2).map AuthJob.withoutPassword
                    AuthRequest.withoutPassword := rfl
              simp only [Option.bind_some, harrive, Task.handle_map hprog]
              cases htask : (b.task.arrive answered.2).handle (program lowercased) with
              | none => rfl
              | some task =>
                  have hemitted : ((task.map AuthJob.withoutPassword
                      AuthRequest.withoutPassword).current (program lowercased)).emitted =
                      (task.current (program lowercased)).emitted := by
                    rw [Task.current_map hprog, Program.emitted_mapReq]
                  have hreport := report_withoutPassword s.window b
                    (task.current (program lowercased)).emitted
                  simp only [Started.withoutPassword] at hreport
                  simp [hemitted, hreport, withoutPasswords, List.map_set,
                    Started.withoutPassword]

/-- **Hiding the passwords commutes with every step.** -/
theorem step_withoutPasswords (s : Session) (e : SessionEvent) :
    step lowercased s.withoutPasswords e.withoutPassword =
      (step lowercased s e).map withoutPasswords := by
  have hprog := program_withoutPassword lowercased
  cases e with
  | launch =>
      simp only [SessionEvent.withoutPassword, step]
      have hcheck : s.withoutPasswords.loginCheck = s.loginCheck := rfl
      rw [hcheck]
      cases s.loginCheck <;> rfl
  | terminate => rfl
  | loginTapped email password =>
      have hstart := Task.start_map hprog (.login email password)
      simp only [SessionEvent.withoutPassword, step, withoutPasswords]
      cases s.window with
      | login screen registrations =>
          simp only [AuthJob.withoutPassword] at hstart
          simp [withoutPasswords, Started.withoutPassword, hstart]
      | closed => rfl
      | conversations => rfl
  | goToSignUpTapped =>
      simp only [SessionEvent.withoutPassword, step, withoutPasswords]
      cases s.window <;> rfl
  | goToLoginTapped =>
      simp only [SessionEvent.withoutPassword, step, withoutPasswords]
      cases s.window with
      | login screen registrations => cases registrations <;> rfl
      | closed => rfl
      | conversations => rfl
  | signUpTapped job =>
      have hstart := Task.start_map hprog (.registration job)
      simp only [SessionEvent.withoutPassword, step, withoutPasswords]
      cases s.window with
      | login screen registrations =>
          simp only [AuthJob.withoutPassword] at hstart
          cases registrations with
          | nil => rfl
          | cons registration registrations =>
              simp [withoutPasswords, Started.withoutPassword, hstart]
      | closed => rfl
      | conversations => rfl
  | callback i outcome => exact step_callback_withoutPasswords lowercased s i outcome
  | logoutTapped throws =>
      simp only [SessionEvent.withoutPassword, step, withoutPasswords]
      cases hwindow : s.window with
      | conversations => cases throws <;> simp [withoutPasswords, switchToLoginVC, hwindow]
      | closed => rfl
      | login screen registrations => rfl

/-- Firebase is asked the same, but for the passwords. -/
theorem carriedOut_withoutPasswords (s : Session) (e : SessionEvent) :
    carriedOut lowercased s.withoutPasswords e.withoutPassword =
      (carriedOut lowercased s e).map AuthRequest.withoutPassword := by
  cases e with
  | callback i outcome =>
      simp only [SessionEvent.withoutPassword, carriedOut, withoutPasswords, List.getElem?_map]
      cases s.started[i]? with
      | none => rfl
      | some b =>
          simp only [Option.map_some, Option.bind_some, Started.withoutPassword,
            Task.undecided_map (program_withoutPassword lowercased)]
          cases b.task.undecided (program lowercased) <;> rfl
  | _ => rfl

/-- The requests Firebase carries out, their passwords hidden. -/
def seen (s : Session) (e : SessionEvent) : List AuthRequest :=
  (carriedOut lowercased s e).map AuthRequest.withoutPassword

theorem withoutPassword_withoutPassword (request : AuthRequest) :
    request.withoutPassword.withoutPassword = request.withoutPassword := by
  cases request <;> rfl

theorem seen_withoutPasswords (s : Session) (e : SessionEvent) :
    seen lowercased s.withoutPasswords e.withoutPassword = seen lowercased s e := by
  simp [seen, carriedOut_withoutPasswords, withoutPassword_withoutPassword]

/-- **Passwords go nowhere else.**  If two users tap the same, with other passwords, and
Firebase decides the same, all else is the same: the accounts and documents, the window, and
every request but for its password. -/
theorem passwords_unseen {firebase : Firebase} {es es' : List SessionEvent} {s : Session}
    (hes : es.map SessionEvent.withoutPassword = es'.map SessionEvent.withoutPassword)
    (hrun : run (step lowercased) (initial firebase) es = some s) :
    ∃ s', run (step lowercased) (initial firebase) es' = some s' ∧
      s'.firebase = s.firebase ∧ s'.window = s.window ∧
      trace (step lowercased) (seen lowercased) (initial firebase) es' =
        trace (step lowercased) (seen lowercased) (initial firebase) es := by
  have hstep := step_withoutPasswords lowercased
  have hruns := run_congr_of_map hstep (s := initial firebase) rfl hes
  rw [hrun, Option.map_some] at hruns
  rcases Option.map_eq_some_iff.1 hruns.symm with ⟨s', hrun', hsame⟩
  have htraces : trace (step lowercased) (seen lowercased) (initial firebase) es' =
      trace (step lowercased) (seen lowercased) (initial firebase) es := by
    rw [← trace_map hstep (seen_withoutPasswords lowercased), ← hes,
      trace_map hstep (seen_withoutPasswords lowercased)]
  have hfirebase : s'.withoutPasswords.firebase = s.withoutPasswords.firebase := by rw [hsame]
  have hwindow : s'.withoutPasswords.window = s.withoutPasswords.window := by rw [hsame]
  exact ⟨s', hrun', hfirebase, hwindow, htraces⟩

/-- Somebody registers, with one password or another. -/
def firstSignUp (password : String) : List SessionEvent :=
  [.launch, .goToSignUpTapped,
    .signUpTapped
      { Registrations.signUpOf "alice@example.com" with
        values := { (Registrations.signUpOf "alice@example.com").values with
          password := password } },
    .callback 0 (.created "alice"), .callback 0 .stored, .callback 0 (.url "url"),
    .callback 0 .stored]

theorem passwords_unseen_firstSignUp :
    ∃ s', run (step id) (initial .empty) (firstSignUp "passwort") = some s' ∧
      s'.firebase = (final (step id) (initial .empty) (firstSignUp "password")).firebase ∧
      s'.window = (final (step id) (initial .empty) (firstSignUp "password")).window ∧
      trace (step id) (seen id) (initial .empty) (firstSignUp "passwort") =
        trace (step id) (seen id) (initial .empty) (firstSignUp "password") :=
  passwords_unseen id (by decide) (run_final (by decide))

end Session

end WaffleChat
