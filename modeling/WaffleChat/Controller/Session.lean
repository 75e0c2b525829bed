import WaffleChat.ViewModel.Registration

/-!
# The screens and the session

Which screen the window shows while users sign in, register and log out.  Four paths
lead to the conversations: the check at launch, the `Signal` of the login screen, the
`Signal` of a registration screen, and, back from them, the logout.

The controllers of a replaced window are released, and with them what they listen to;
requests on their way go on and are carried out all the same.

Main results:

- Theorem `reachable_sound`: a registration screen in the window has created accounts
  only while somebody stayed signed in.
- Theorem `signedIn_iff`: the conversations are never shown without a session exactly
  when no sign-in the login screen waits for fails while nobody is signed in.
-/

namespace WaffleChat

open CallbackProgram EventSystem Observers

/-! ## Screens -/

/-- A `LoginController` with its view model: the sinks between `loginButtonTapped` and
`isLoginCompleted`. -/
structure LoginScreen where
  id : Nat
  switch : SwitchSink
  signal : CatchSink
deriving DecidableEq, Repr

/-- A `RegistrationController` with its view model: the sink of `flatMapLatest`. -/
structure RegistrationScreen where
  id : Nat
  switch : SwitchSink
deriving DecidableEq, Repr

/-- The root of the window: nothing before the launch, the login screen with the
registration screens pushed on top of it, or the conversations. -/
inductive Window where
  | closed
  | login (screen : LoginScreen) (registrations : List RegistrationScreen)
  | conversations
deriving DecidableEq, Repr

namespace LoginScreen

/-- `LoginController.create(with: LoginViewModel())`. -/
def create (id : Nat) : LoginScreen :=
  ⟨id, .fresh, .fresh⟩

/-- `isLoginCompleted`: what the sign-in with number `inner` reports goes through
`flatMapLatest` and `asSignal(onErrorJustReturn: false)`. -/
def isLoginCompleted (screen : LoginScreen) (inner : Nat)
    (events : List (Event BackendError Bool)) :
    LoginScreen × List (Event BackendError Bool) :=
  let switched := feed (fun sink event => sink.inner inner event) screen.switch events
  let signal := feed (CatchSink.on false) screen.signal switched.2
  ({ screen with switch := switched.1, signal := signal.1 }, signal.2)

end LoginScreen

namespace RegistrationScreen

/-- `RegistrationController.create(with: RegistrationViewModel())`. -/
def create (id : Nat) : RegistrationScreen :=
  ⟨id, .fresh⟩

/-- `isRegistered`: what attempt number `inner` reports goes through `flatMapLatest`;
the relay behind it takes the elements. -/
def isRegistered (screen : RegistrationScreen) (inner : Nat)
    (events : List (Event BackendError Bool)) : RegistrationScreen × List Bool :=
  let switched := feed (fun sink event => sink.inner inner event) screen.switch events
  ({ screen with switch := switched.1 }, switched.2.filterMap Event.value?)

end RegistrationScreen

namespace Window

/-- `LoginController.bind` emits `isLoginCompleted` with a handler that ignores the
value it is handed. -/
def onLoginCompleted : Window → Event BackendError Bool → Window
  | _, .next _ => .conversations
  | window, _ => window

/-- `RegistrationController.bind` emits `isRegistered` behind `filter { $0 == true }`. -/
def onRegistered (window : Window) (value : Bool) : Window :=
  if value == true then .conversations else window

/-- The handler of sign-in `inner` of the login screen `id` has reported. -/
def loginReported (window : Window) (id inner : Nat) (events : List (Event BackendError Bool)) :
    Window :=
  match window with
  | .login screen registrations =>
      if screen.id = id then
        let received := screen.isLoginCompleted inner events
        received.2.foldl onLoginCompleted (.login received.1 registrations)
      else window
  | _ => window

/-- The handler of attempt `inner` of the registration screen `id` has reported. -/
def registrationReported (window : Window) (id inner : Nat)
    (events : List (Event BackendError Bool)) : Window :=
  match window with
  | .login screen registrations =>
      match registrations.find? fun registration => registration.id = id with
      | some registration =>
          let received := registration.isRegistered inner events
          received.2.foldl onRegistered
            (.login screen (registrations.map fun other =>
              if other.id = id then (other.isRegistered inner events).1 else other))
      | none => window
  | _ => window

end Window

/-! ## What a report does to the window -/

/-- The login screen still listens: neither of its sinks has ended. -/
structure LoginScreen.Live (screen : LoginScreen) : Prop where
  switch_live : screen.switch.disposed = false
  signal_live : screen.signal.disposed = false

/-- A new login screen still reports. -/
theorem LoginScreen.live_create (id : Nat) : (LoginScreen.create id).Live :=
  ⟨rfl, rfl⟩

/-- It still does after the next tap. -/
theorem LoginScreen.Live.next {screen : LoginScreen} (h : screen.Live) :
    ({ screen with switch := screen.switch.next } : LoginScreen).Live :=
  ⟨h.switch_live, h.signal_live⟩

/-- What a superseded sign-in reports is dropped. -/
theorem LoginScreen.isLoginCompleted_of_ne {screen : LoginScreen} {inner : Nat}
    (h : screen.switch.latest ≠ inner) (events : List (Event BackendError Bool)) :
    screen.isLoginCompleted inner events = (screen, []) := by
  simp [LoginScreen.isLoginCompleted, SwitchSink.feed_inner_of_ne h]

/-- A success the screen waits for is handed on. -/
theorem LoginScreen.Live.isLoginCompleted_next {screen : LoginScreen} (h : screen.Live)
    (value : Bool) :
    (screen.isLoginCompleted screen.switch.latest [.next value]).2 = [.next value] := by
  simp [LoginScreen.isLoginCompleted, SwitchSink.inner_next rfl h.switch_live,
    CatchSink.on_next h.signal_live]

/-- A failure the screen waits for becomes a last element `false`. -/
theorem LoginScreen.Live.isLoginCompleted_error {screen : LoginScreen} (h : screen.Live)
    (error : BackendError) :
    (screen.isLoginCompleted screen.switch.latest [.error error]).2 =
      [.next false, .completed] := by
  simp [LoginScreen.isLoginCompleted, SwitchSink.inner_error rfl h.switch_live,
    CatchSink.on_error h.signal_live]

namespace Window

/-- The login screen in the window listens to sign-in `inner` of the screen `id`. -/
def listens (window : Window) (id inner : Nat) : Bool :=
  match window with
  | .login screen _ => screen.id == id && screen.switch.latest == inner
  | _ => false

/-- The login screen in the window, if there is one, still listens. -/
def LoginLive (window : Window) : Prop :=
  ∀ screen registrations, window = .login screen registrations → screen.Live

/-- Whether the sign-in has succeeded or failed, its report leads to the
conversations if the login screen listens to it. -/
theorem loginReported_eq {window : Window} (hlive : window.LoginLive) (id inner : Nat)
    {events : List (Event BackendError Bool)}
    (hevents : events = [.next true] ∨ ∃ error, events = [.error error]) :
    window.loginReported id inner events =
      if window.listens id inner then .conversations else window := by
  cases window with
  | closed => rfl
  | conversations => rfl
  | login screen registrations =>
      have hscreen : screen.Live := hlive screen registrations rfl
      unfold loginReported listens
      by_cases hid : screen.id = id
      · by_cases hinner : screen.switch.latest = inner
        · subst hid hinner
          rcases hevents with rfl | ⟨error, rfl⟩
          · simp [hscreen.isLoginCompleted_next, onLoginCompleted]
          · simp [hscreen.isLoginCompleted_error, onLoginCompleted]
        · simp [hid, hinner, LoginScreen.isLoginCompleted_of_ne hinner]
      · simp [hid]

/-- One success among what a registration reports shows the conversations. -/
theorem foldl_onRegistered (window : Window) (values : List Bool) :
    values.foldl onRegistered window = if true ∈ values then .conversations else window := by
  induction values generalizing window with
  | nil => rfl
  | cons value values ih =>
      rw [List.foldl_cons, ih]
      cases value <;> simp [onRegistered]

/-- The registration screens in the window. -/
def registrationIds : Window → List Nat
  | .login _ registrations => registrations.map RegistrationScreen.id
  | _ => []

/-- All controllers in the window that listen to started jobs. -/
def ids : Window → List Nat
  | .login screen registrations => screen.id :: registrations.map RegistrationScreen.id
  | _ => []

/-- Only the report of `true` to a registration screen in the window changes it. -/
theorem registrationReported_cases (window : Window) (id inner : Nat)
    {events : List (Event BackendError Bool)} (hevents : ∀ event ∈ events, event.isStop = false) :
    window.registrationReported id inner events = window ∨
      (window.registrationReported id inner events = .conversations ∧
        .next true ∈ events ∧ id ∈ window.registrationIds) := by
  cases window with
  | closed => exact Or.inl rfl
  | conversations => exact Or.inl rfl
  | login screen registrations =>
      unfold registrationReported
      cases hfind : registrations.find? fun registration => registration.id = id with
      | none => exact Or.inl (by simp [hfind])
      | some registration =>
          simp only [hfind, foldl_onRegistered]
          split
          · rename_i htrue
            refine Or.inr ⟨rfl, ?_, ?_⟩
            · rcases List.mem_filterMap.1 htrue with ⟨event, hevent, hvalue⟩
              rw [Event.value_eq_some_iff.1 hvalue] at hevent
              exact SwitchSink.mem_feed_inner hevent
            · have hid : registration.id = id := by simpa using List.find?_some hfind
              exact List.mem_map.2 ⟨registration, List.mem_of_find?_eq_some hfind, hid⟩
          · left
            have hsame : (registrations.map fun other =>
                if other.id = id then (other.isRegistered inner events).1 else other) =
                registrations := by
              simp [RegistrationScreen.isRegistered,
                SwitchSink.feed_inner_of_not_isStop hevents]
            rw [hsame]

end Window

/-! ## The session -/

/-- What a screen starts when its button is tapped. -/
inductive AuthJob where
  | login (email password : String)
  | registration (job : SignUp)
deriving DecidableEq, Repr

/-- A started job: the screen that has started it, and its number among the jobs of
that screen. -/
structure Started where
  screen : Nat
  inner : Nat
  task : Task AuthJob AuthRequest AuthAnswer
deriving DecidableEq, Repr

/-- Firebase, the window, how many screens have been created, and the jobs started. -/
structure Session where
  firebase : Firebase
  window : Window
  created : Nat
  started : List Started

/-- What can happen next. -/
inductive SessionEvent where
  /-- `scene(_:willConnectTo:options:)`. -/
  | launch
  /-- The process ends, and what it has started with it. -/
  | terminate
  | loginTapped (email password : String)
  /-- `goToSignUpPageButton` is tapped on the login screen. -/
  | goToSignUpTapped
  /-- The registration screen on top is popped. -/
  | goToLoginTapped
  | signUpTapped (job : SignUp)
  /-- The awaited request of job `i` is carried out and its handler runs. -/
  | callback (i : Nat) (outcome : Outcome)
  /-- `logoutButton` is tapped; `signOut` may throw. -/
  | logoutTapped (throws : Bool)
deriving DecidableEq, Repr

namespace Session

variable (lowercased : String → String)

/-- The program a job runs. -/
def program : AuthJob → AuthProgram
  | .login email password => performLogin email password
  | .registration job => performRegistration lowercased job.filename job.values

/-- Before the launch; Firebase may hold a session of an earlier run of the app. -/
def initial (firebase : Firebase) : Session where
  firebase := firebase
  window := .closed
  created := 0
  started := []

/-- `SceneDelegate.loginCheck()`. -/
def loginCheck (s : Session) : Bool :=
  s.firebase.currentUser.isSome

/-- `switchToConversationVC()`. -/
def switchToConversationVC (s : Session) : Session :=
  { s with window := .conversations }

/-- `switchToLoginVC()`. -/
def switchToLoginVC (s : Session) : Session :=
  { s with window := .login (.create s.created) [], created := s.created + 1 }

/-- The observer of the program that has run job `b` is handed its events. -/
def report (window : Window) (b : Started) (events : List (Event BackendError Bool)) : Window :=
  let delivered := (feed CreateSink.on .fresh events).2
  match b.task.job with
  | .login _ _ => window.loginReported b.screen b.inner delivered
  | .registration _ => window.registrationReported b.screen b.inner delivered

/-- One event. -/
def step (s : Session) : SessionEvent → Option Session
  | .launch => some (if s.loginCheck then s.switchToConversationVC else s.switchToLoginVC)
  | .terminate => some { s with window := .closed, started := [] }
  | .loginTapped email password =>
      match s.window with
      | .login screen registrations =>
          let switch := screen.switch.next
          some
            { s with
              window := .login { screen with switch := switch } registrations
              started := s.started ++
                [⟨screen.id, switch.latest,
                  Task.start (program lowercased) (.login email password)⟩] }
      | _ => none
  | .goToSignUpTapped =>
      match s.window with
      | .login screen registrations =>
          some
            { s with
              window := .login screen (.create s.created :: registrations)
              created := s.created + 1 }
      | _ => none
  | .goToLoginTapped =>
      match s.window with
      | .login screen (_ :: registrations) =>
          some { s with window := .login screen registrations }
      | _ => none
  | .signUpTapped job =>
      match s.window with
      | .login screen (registration :: registrations) =>
          let switch := registration.switch.next
          some
            { s with
              window := .login screen ({ registration with switch := switch } :: registrations)
              started := s.started ++
                [⟨registration.id, switch.latest,
                  Task.start (program lowercased) (.registration job)⟩] }
      | _ => none
  | .callback i outcome => do
      let b ← s.started[i]?
      let request ← b.task.undecided (program lowercased)
      let (firebase, answer) ← s.firebase.answer request outcome
      let task ← (b.task.arrive answer).handle (program lowercased)
      some
        { s with
          firebase := firebase
          window := report s.window b (task.current (program lowercased)).emitted
          started := s.started.set i { b with task := task } }
  | .logoutTapped throws =>
      match s.window with
      | .conversations =>
          if throws then some s
          else some ({ s with firebase := s.firebase.signOut } : Session).switchToLoginVC
      | _ => none

/-! ## Callbacks -/

/-- The handler of job `i` has run. -/
structure Answered (s s' : Session) (i : Nat) (b b' : Started) (request : AuthRequest)
    (outcome : Outcome) (answer : AuthAnswer) : Prop where
  get : s.started[i]? = some b
  request_eq : (b.task.current (program lowercased)).awaiting = some request
  firebase_eq : s.firebase.answer request outcome = some (s'.firebase, answer)
  screen_eq : b'.screen = b.screen
  job_eq : b'.task.job = b.task.job
  answers_eq : b'.task.answers = b.task.answers ++ [answer]
  emitted : ∀ event ∈ (b'.task.current (program lowercased)).emitted,
    event ∈ b'.task.outputs (program lowercased)
  started_eq : s'.started = s.started.set i b'
  created_eq : s'.created = s.created
  window_eq : s'.window = report s.window b (b'.task.current (program lowercased)).emitted

/-- A callback is the answer to the request of some call. -/
theorem step_callback {s s' : Session} {i : Nat} {outcome : Outcome}
    (h : step lowercased s (.callback i outcome) = some s') :
    ∃ b b' request answer, Answered lowercased s s' i b b' request outcome answer := by
  simp only [step, Option.bind_eq_bind, Option.bind_eq_some_iff, Option.some.injEq] at h
  rcases h with ⟨b, hget, request, hrequest, ⟨firebase, answer⟩, hanswer, task, htask, rfl⟩
  have hanswers : task.answers = b.task.answers ++ [answer] := by
    rcases Task.handle_eq_some_iff.1 htask with ⟨-, resp, harrived, rfl⟩
    obtain rfl : answer = resp := Option.some.inj harrived
    rfl
  have hjob : task.job = b.task.job := by
    have harrive := Task.job_handle htask
    exact harrive
  exact ⟨b, { b with task := task }, request, answer, hget,
    (Task.undecided_eq_some_iff.1 hrequest).2, hanswer, rfl, hjob, hanswers,
    fun event => Task.mem_outputs_of_emitted htask, rfl, rfl, rfl⟩

/-- The window after a callback of a sign-in. -/
theorem Answered.window_login {s s' : Session} {i : Nat} {b b' : Started}
    {request : AuthRequest} {outcome : Outcome} {answer : AuthAnswer}
    (h : Answered lowercased s s' i b b' request outcome answer) (hlive : s.window.LoginLive)
    {email password : String} (hjob : b.task.job = .login email password) :
    request = .signIn email password ∧
      s'.window =
        if s.window.listens b.screen b.inner then .conversations else s.window := by
  have hawaiting := h.request_eq
  rw [Task.current, hjob, program] at hawaiting
  rcases performLogin_awaiting hawaiting with ⟨hnil, hrequest⟩
  refine ⟨hrequest, ?_⟩
  have hcurrent : (b'.task.current (program lowercased)).emitted =
      answer.error.elim [.next true] fun error => [.error error, .next true] := by
    rw [Task.current, h.job_eq, hjob, h.answers_eq, hnil]
    exact performLogin_emitted email password answer
  rw [h.window_eq, hcurrent, report, hjob]
  refine Window.loginReported_eq hlive _ _ ?_
  rw [feed_createSink]
  cases answer.error with
  | none => exact Or.inl rfl
  | some error => exact Or.inr ⟨error, rfl⟩

/-- The window after a callback of a registration. -/
theorem Answered.window_registration {s s' : Session} {i : Nat} {b b' : Started}
    {request : AuthRequest} {outcome : Outcome} {answer : AuthAnswer}
    (h : Answered lowercased s s' i b b' request outcome answer) {job : SignUp}
    (hjob : b.task.job = .registration job) :
    s'.window = s.window ∨
      (s'.window = .conversations ∧ b.screen ∈ s.window.registrationIds ∧
        ∃ first rest, b'.task.answers = first :: rest ∧ first.failed = false) := by
  have houtputs : ∀ event ∈ (feed CreateSink.on .fresh
      (b'.task.current (program lowercased)).emitted).2,
      event ∈ (performRegistration lowercased job.filename job.values).outputs
        b'.task.answers := by
    intro event hevent
    rw [feed_createSink] at hevent
    have hmem := h.emitted event (mem_of_mem_untilStop hevent)
    rwa [Task.outputs, h.job_eq, hjob, program] at hmem
  rw [h.window_eq, report, hjob]
  rcases Window.registrationReported_cases s.window b.screen b.inner fun event hevent =>
      Register.isStop_of_mem_outputs lowercased (houtputs event hevent) with
    hsame | ⟨hconversations, htrue, hid⟩
  · exact Or.inl hsame
  · exact Or.inr ⟨hconversations, hid,
      Register.head_of_true_mem_outputs lowercased (houtputs _ htrue)⟩

/-! ## Accounts and sessions -/

/-- A registration whose account has been created. -/
def CreatedAccount (b : Started) : Prop :=
  (∃ job, b.task.job = .registration job) ∧
    ∃ first rest, b.task.answers = first :: rest ∧ first.failed = false

/-- Screens are numbered as they are created; the login screen in the window still
listens; and when a registration screen in the window has created an account,
somebody is signed in. -/
structure Sound (s : Session) : Prop where
  started_lt : ∀ b ∈ s.started, b.screen < s.created
  ids_lt : ∀ id ∈ s.window.ids, id < s.created
  live : s.window.LoginLive
  covered : ∀ b ∈ s.started, b.screen ∈ s.window.registrationIds → CreatedAccount b →
    s.firebase.currentUser.isSome

/-- At first nothing is shown and nothing has been called. -/
theorem sound_initial (firebase : Firebase) : (initial firebase).Sound := by
  constructor
  · simp [initial]
  · simp [initial, Window.ids]
  · intro screen registrations hwindow
    cases hwindow
  · simp [initial]

/-- What every event but a callback does: the jobs it starts belong to screens in the
window, the screens it adds are new, and the conversations are shown after a check of
the session or because they were shown before. -/
structure WindowChange (s s' : Session) : Prop where
  created_le : s.created ≤ s'.created
  started : ∀ b ∈ s'.started,
    b ∈ s.started ∨ (b.screen ∈ s.window.ids ∧ ¬ CreatedAccount b)
  ids : ∀ id ∈ s'.window.ids, id ∈ s.window.ids ∨ id < s'.created
  registrationIds : ∀ id ∈ s'.window.registrationIds,
    s'.firebase = s.firebase ∧ (id ∈ s.window.registrationIds ∨ s.created ≤ id)
  live : s.window.LoginLive → s'.window.LoginLive
  conversations : s'.window = .conversations →
    s'.firebase = s.firebase ∧ (s.loginCheck = true ∨ s.window = .conversations)

/-- Changing screens starts and answers nothing. -/
theorem WindowChange.sound {s s' : Session} (hchange : WindowChange s s') (h : s.Sound) :
    s'.Sound := by
  constructor
  · intro b hb
    rcases hchange.started b hb with hold | ⟨hscreen, -⟩
    · exact Nat.lt_of_lt_of_le (h.started_lt b hold) hchange.created_le
    · exact Nat.lt_of_lt_of_le (h.ids_lt _ hscreen) hchange.created_le
  · intro id hid
    rcases hchange.ids id hid with hold | hlt
    · exact Nat.lt_of_lt_of_le (h.ids_lt id hold) hchange.created_le
    · exact hlt
  · exact hchange.live h.live
  · intro b hb hscreen hcreated
    rcases hchange.registrationIds b.screen hscreen with ⟨hfirebase, hthere⟩
    rw [hfirebase]
    rcases hchange.started b hb with hold | ⟨-, hnot⟩
    · rcases hthere with hthere | hnew
      · exact h.covered b hold hthere hcreated
      · exact absurd (h.started_lt b hold) (Nat.not_lt.2 hnew)
    · exact absurd hcreated hnot

/-- A window without a login screen. -/
theorem loginLive_of_ids {window : Window} (h : window.ids = []) : window.LoginLive := by
  rintro screen registrations rfl
  cases h

/-- A login screen that still reports makes its window do so. -/
theorem loginLive_login {screen : LoginScreen} (h : screen.Live)
    (registrations : List RegistrationScreen) : (Window.login screen registrations).LoginLive := by
  rintro screen' registrations' ⟨⟩
  exact h

/-- A callback that creates an account for a registration screen in the window signs
it in, and no callback ends a session. -/
theorem Answered.covered {s s' : Session} {i : Nat} {b b' : Started} {request : AuthRequest}
    {outcome : Outcome} {answer : AuthAnswer}
    (h : Answered lowercased s s' i b b' request outcome answer) (hsound : s.Sound) :
    ∀ c ∈ s'.started, c.screen ∈ s.window.registrationIds → CreatedAccount c →
      s'.firebase.currentUser.isSome := by
  intro c hc hscreen hcreated
  rw [h.started_eq] at hc
  rcases List.mem_or_eq_of_mem_set hc with hc | rfl
  · exact Firebase.currentUser_isSome_answer h.firebase_eq
      (hsound.covered c hc hscreen hcreated)
  · rcases hcreated with ⟨⟨job, hjob⟩, first, rest, hanswers, hok⟩
    rw [h.job_eq] at hjob
    rw [h.answers_eq] at hanswers
    cases hnil : b.task.answers with
    | nil =>
        have hawaiting := h.request_eq
        rw [Task.current, hjob, hnil] at hawaiting
        cases hawaiting
        rw [hnil] at hanswers
        cases hanswers
        exact Firebase.currentUser_isSome_signsIn h.firebase_eq rfl hok
    | cons first' rest' =>
        rw [hnil] at hanswers
        cases hanswers
        exact Firebase.currentUser_isSome_answer h.firebase_eq
          (hsound.covered b (List.mem_of_getElem? h.get) (h.screen_eq ▸ hscreen)
            ⟨⟨job, hjob⟩, first, rest', hnil, hok⟩)

/-- A callback leaves the window as it is, or shows the conversations. -/
theorem Answered.window_cases {s s' : Session} {i : Nat} {b b' : Started}
    {request : AuthRequest} {outcome : Outcome} {answer : AuthAnswer}
    (h : Answered lowercased s s' i b b' request outcome answer) (hlive : s.window.LoginLive) :
    s'.window = s.window ∨ s'.window = .conversations := by
  cases hjob : b.task.job with
  | login email password =>
      rw [(h.window_login lowercased hlive hjob).2]
      split
      · exact Or.inr rfl
      · exact Or.inl rfl
  | registration job =>
      rcases h.window_registration lowercased hjob with hsame | ⟨hconversations, -⟩
      · exact Or.inl hsame
      · exact Or.inr hconversations

/-- An answer reaches the call it is for, and no other. -/
theorem Answered.sound {s s' : Session} {i : Nat} {b b' : Started} {request : AuthRequest}
    {outcome : Outcome} {answer : AuthAnswer}
    (h : Answered lowercased s s' i b b' request outcome answer) (hsound : s.Sound) :
    s'.Sound := by
  have hstarted : ∀ c ∈ s'.started, c.screen < s'.created := by
    intro c hc
    rw [h.created_eq]
    rw [h.started_eq] at hc
    rcases List.mem_or_eq_of_mem_set hc with hc | rfl
    · exact hsound.started_lt c hc
    · rw [h.screen_eq]
      exact hsound.started_lt b (List.mem_of_getElem? h.get)
  rcases h.window_cases lowercased hsound.live with hwindow | hwindow
  · refine ⟨hstarted, ?_, ?_, ?_⟩
    · rw [hwindow, h.created_eq]
      exact hsound.ids_lt
    · rw [hwindow]
      exact hsound.live
    · rw [hwindow]
      exact h.covered lowercased hsound
  · refine ⟨hstarted, ?_, ?_, ?_⟩
    · simp [hwindow, Window.ids]
    · exact loginLive_of_ids (by rw [hwindow]; rfl)
    · simp [hwindow, Window.registrationIds]

/-- A job that has just been started has created no account. -/
theorem not_createdAccount_start (screen inner : Nat) (job : AuthJob) :
    ¬ CreatedAccount ⟨screen, inner, Task.start (program lowercased) job⟩ := by
  rintro ⟨-, first, rest, hanswers, -⟩
  cases hanswers

/-- Jobs started by a screen in the window. -/
theorem mem_append_start {s : Session} {id inner : Nat} {job : AuthJob}
    (hid : id ∈ s.window.ids) :
    ∀ b ∈ s.started ++ [⟨id, inner, Task.start (program lowercased) job⟩],
      b ∈ s.started ∨ (b.screen ∈ s.window.ids ∧ ¬ CreatedAccount b) := by
  intro b hb
  rcases List.mem_append.1 hb with hb | hb
  · exact Or.inl hb
  · rw [List.mem_singleton.1 hb]
    exact Or.inr ⟨hid, not_createdAccount_start lowercased _ _ _⟩

/-- A new login screen takes the place of the window. -/
theorem windowChange_switchToLoginVC {s s' : Session} (hcreated : s'.created = s.created + 1)
    (hstarted : s'.started = s.started) (hwindow : s'.window = .login (.create s.created) []) :
    WindowChange s s' := by
  constructor
  · omega
  · intro b hb
    exact Or.inl (hstarted ▸ hb)
  · intro id hid
    rw [hwindow] at hid
    obtain rfl : id = s.created := List.mem_singleton.1 hid
    right
    omega
  · simp [hwindow, Window.registrationIds]
  · intro _
    rw [hwindow]
    exact loginLive_login (LoginScreen.live_create _) _
  · intro hconversations
    rw [hwindow] at hconversations
    cases hconversations

/-- The login screen stays in the window; the registration screens pushed on it are old
ones or new. -/
theorem windowChange_login {s s' : Session} {screen screen' : LoginScreen}
    {registrations registrations' : List RegistrationScreen}
    (hwindow : s.window = .login screen registrations)
    (hwindow' : s'.window = .login screen' registrations') (hfirebase : s'.firebase = s.firebase)
    (hcreated : s.created ≤ s'.created)
    (hstarted : ∀ b ∈ s'.started,
      b ∈ s.started ∨ (b.screen ∈ s.window.ids ∧ ¬ CreatedAccount b))
    (hid : screen'.id = screen.id) (hlive : screen.Live → screen'.Live)
    (hids : ∀ id ∈ registrations'.map RegistrationScreen.id,
      id ∈ registrations.map RegistrationScreen.id ∨ (s.created ≤ id ∧ id < s'.created)) :
    WindowChange s s' := by
  refine ⟨hcreated, hstarted, ?_, ?_, ?_, ?_⟩
  · intro id hmem
    rw [hwindow', Window.ids, hid] at hmem
    rw [hwindow, Window.ids]
    rcases List.mem_cons.1 hmem with rfl | hmem
    · exact Or.inl List.mem_cons_self
    · rcases hids id hmem with hold | ⟨-, hnew⟩
      · exact Or.inl (List.mem_cons_of_mem _ hold)
      · exact Or.inr hnew
  · intro id hmem
    rw [hwindow', Window.registrationIds] at hmem
    rw [hwindow, Window.registrationIds]
    exact ⟨hfirebase, (hids id hmem).imp_right And.left⟩
  · intro hbefore
    rw [hwindow']
    exact loginLive_login (hlive (hbefore screen registrations hwindow)) _
  · intro hconversations
    rw [hwindow'] at hconversations
    cases hconversations

/-- At launch the window is opened. -/
theorem windowChange_launch {s s' : Session} (hstep : step lowercased s .launch = some s') :
    WindowChange s s' := by
  obtain rfl := Option.some.inj hstep
  split
  · rename_i hcheck
    refine ⟨Nat.le_refl _, fun b hb => Or.inl hb, ?_, ?_, fun _ => loginLive_of_ids rfl,
      fun _ => ⟨rfl, Or.inl hcheck⟩⟩
    · simp [switchToConversationVC, Window.ids]
    · simp [switchToConversationVC, Window.registrationIds]
  · exact windowChange_switchToLoginVC rfl rfl rfl

/-- The window is closed for good. -/
theorem windowChange_terminate {s s' : Session}
    (hstep : step lowercased s .terminate = some s') : WindowChange s s' := by
  obtain rfl := Option.some.inj hstep
  refine ⟨Nat.le_refl _, ?_, ?_, ?_, fun _ => loginLive_of_ids rfl, ?_⟩
  · simp
  · simp [Window.ids]
  · simp [Window.registrationIds]
  · rintro ⟨⟩

/-- Each login tap is one call more. -/
theorem windowChange_loginTapped {s s' : Session} {email password : String}
    (hstep : step lowercased s (.loginTapped email password) = some s') : WindowChange s s' := by
  simp only [step] at hstep
  split at hstep
  · rename_i screen registrations hwindow
    obtain rfl := Option.some.inj hstep
    refine windowChange_login hwindow rfl rfl (Nat.le_refl _)
      (mem_append_start lowercased (by simp [hwindow, Window.ids])) rfl
      (fun hlive => hlive.next) fun id hid => Or.inl hid
  · cases hstep

/-- A registration screen is pushed. -/
theorem windowChange_goToSignUpTapped {s s' : Session}
    (hstep : step lowercased s .goToSignUpTapped = some s') : WindowChange s s' := by
  simp only [step] at hstep
  split at hstep
  · rename_i screen registrations hwindow
    obtain rfl := Option.some.inj hstep
    refine windowChange_login hwindow rfl rfl (Nat.le_succ _) (fun b hb => Or.inl hb) rfl id ?_
    intro id hid
    rcases List.mem_cons.1 hid with rfl | hid
    · exact Or.inr ⟨Nat.le_refl _, Nat.lt_succ_self _⟩
    · exact Or.inl hid
  · cases hstep

/-- The registration screens are popped. -/
theorem windowChange_goToLoginTapped {s s' : Session}
    (hstep : step lowercased s .goToLoginTapped = some s') : WindowChange s s' := by
  simp only [step] at hstep
  split at hstep
  · rename_i screen registration registrations hwindow
    obtain rfl := Option.some.inj hstep
    exact windowChange_login hwindow rfl rfl (Nat.le_refl _) (fun b hb => Or.inl hb) rfl id
      fun id hid => Or.inl (List.mem_cons_of_mem registration.id hid)
  · cases hstep

/-- Each registration tap is one call more. -/
theorem windowChange_signUpTapped {s s' : Session} {job : SignUp}
    (hstep : step lowercased s (.signUpTapped job) = some s') : WindowChange s s' := by
  simp only [step] at hstep
  split at hstep
  · rename_i screen registration registrations hwindow
    obtain rfl := Option.some.inj hstep
    exact windowChange_login hwindow rfl rfl (Nat.le_refl _)
      (mem_append_start lowercased (by simp [hwindow, Window.ids])) rfl id
      fun id hid => Or.inl hid
  · cases hstep

/-- A logout brings a new login screen. -/
theorem windowChange_logoutTapped {s s' : Session} {throws : Bool}
    (hstep : step lowercased s (.logoutTapped throws) = some s') : WindowChange s s' := by
  simp only [step] at hstep
  split at hstep
  · rename_i hwindow
    split at hstep
    · obtain rfl := Option.some.inj hstep
      exact ⟨Nat.le_refl _, fun b hb => Or.inl hb, fun id hid => Or.inl hid,
        fun id hid => ⟨rfl, Or.inl hid⟩, fun hlive => hlive, fun _ => ⟨rfl, Or.inr hwindow⟩⟩
    · obtain rfl := Option.some.inj hstep
      exact windowChange_switchToLoginVC rfl rfl rfl
  · cases hstep

/-- Every event but a callback changes the window, or starts a call. -/
theorem windowChange_step {s s' : Session} {e : SessionEvent}
    (he : ∀ i outcome, e ≠ .callback i outcome) (hstep : step lowercased s e = some s') :
    WindowChange s s' := by
  cases e with
  | launch => exact windowChange_launch lowercased hstep
  | terminate => exact windowChange_terminate lowercased hstep
  | loginTapped email password => exact windowChange_loginTapped lowercased hstep
  | goToSignUpTapped => exact windowChange_goToSignUpTapped lowercased hstep
  | goToLoginTapped => exact windowChange_goToLoginTapped lowercased hstep
  | signUpTapped job => exact windowChange_signUpTapped lowercased hstep
  | callback i outcome => exact absurd rfl (he i outcome)
  | logoutTapped throws => exact windowChange_logoutTapped lowercased hstep

/-- Everything one event can do: a callback runs, or the window changes. -/
theorem step_cases {s s' : Session} {e : SessionEvent} (hstep : step lowercased s e = some s') :
    (∃ i outcome b b' request answer, e = .callback i outcome ∧
      Answered lowercased s s' i b b' request outcome answer) ∨
    ((∀ i outcome, e ≠ .callback i outcome) ∧ WindowChange s s') := by
  by_cases hcallback : ∃ i outcome, e = .callback i outcome
  · rcases hcallback with ⟨i, outcome, rfl⟩
    rcases step_callback lowercased hstep with ⟨b, b', request, answer, hanswered⟩
    exact Or.inl ⟨i, outcome, b, b', request, answer, rfl, hanswered⟩
  · have hne : ∀ i outcome, e ≠ .callback i outcome := by
      intro i outcome he
      exact hcallback ⟨i, outcome, he⟩
    exact Or.inr ⟨hne, windowChange_step lowercased hne hstep⟩

/-- Whatever happens, screens and calls belong together. -/
theorem sound_step {s s' : Session} {e : SessionEvent} (h : s.Sound)
    (hstep : step lowercased s e = some s') : s'.Sound := by
  rcases step_cases lowercased hstep with
    ⟨i, outcome, b, b', request, answer, -, hanswered⟩ | ⟨-, hchange⟩
  · exact hanswered.sound lowercased h
  · exact hchange.sound h

/-- In every reachable state they do. -/
theorem reachable_sound {firebase : Firebase} {s : Session}
    (hreach : Reachable (step lowercased) (initial firebase) s) : s.Sound :=
  hreach.invariant (P := Sound) (fun _ _ _ _ ha hab => sound_step lowercased ha hab)
    (sound_initial firebase)

/-! ## The conversations are shown to a signed-in user -/

/-- If the conversations are shown somebody is signed in. -/
def SignedIn (s : Session) : Prop :=
  s.window = .conversations → s.firebase.currentUser.isSome

instance (s : Session) : Decidable s.SignedIn :=
  inferInstanceAs (Decidable (_ → _))

/-- Job `i` is a sign-in the login screen in the window listens to. -/
def awaitsSignIn (s : Session) (i : Nat) : Bool :=
  match s.started[i]? with
  | some b =>
      match b.task.job with
      | .login _ _ => s.window.listens b.screen b.inner
      | .registration _ => false
  | none => false

/-- A sign-in the login screen listens to fails while nobody is signed in. -/
def FailsSignedOut (s : Session) : SessionEvent → Prop
  | .callback i (.failure _) => s.awaitsSignIn i = true ∧ s.firebase.currentUser = none
  | _ => False

instance (s : Session) : (e : SessionEvent) → Decidable (s.FailsSignedOut e)
  | .callback _ (.failure _) => inferInstanceAs (Decidable (_ ∧ _))
  | .callback _ (.signedIn _) => inferInstanceAs (Decidable False)
  | .callback _ (.created _) => inferInstanceAs (Decidable False)
  | .callback _ .stored => inferInstanceAs (Decidable False)
  | .callback _ (.url _) => inferInstanceAs (Decidable False)
  | .launch => inferInstanceAs (Decidable False)
  | .terminate => inferInstanceAs (Decidable False)
  | .loginTapped _ _ => inferInstanceAs (Decidable False)
  | .goToSignUpTapped => inferInstanceAs (Decidable False)
  | .goToLoginTapped => inferInstanceAs (Decidable False)
  | .signUpTapped _ => inferInstanceAs (Decidable False)
  | .logoutTapped _ => inferInstanceAs (Decidable False)

/-- Every event but a callback shows the conversations to a signed-in user. -/
theorem WindowChange.signedIn {s s' : Session} (hchange : WindowChange s s') (h : s.SignedIn) :
    s'.SignedIn := by
  intro hconversations
  rcases hchange.conversations hconversations with ⟨hfirebase, hcheck | hbefore⟩
  · rw [hfirebase]
    exact hcheck
  · rw [hfirebase]
    exact h hbefore

/-- A callback of a sign-in keeps the property exactly if it is not such a failure. -/
theorem Answered.signedIn_login {s s' : Session} {i : Nat} {b b' : Started}
    {request : AuthRequest} {outcome : Outcome} {answer : AuthAnswer}
    (h : Answered lowercased s s' i b b' request outcome answer) (hsound : s.Sound)
    (hsigned : s.SignedIn) {email password : String} (hjob : b.task.job = .login email password) :
    s'.SignedIn ↔ ¬ s.FailsSignedOut (.callback i outcome) := by
  rcases h.window_login lowercased hsound.live hjob with ⟨hrequest, hwindow⟩
  have hawaits : s.awaitsSignIn i = s.window.listens b.screen b.inner := by
    simp [awaitsSignIn, h.get, hjob]
  unfold SignedIn
  rw [hwindow]
  by_cases hlistens : s.window.listens b.screen b.inner = true
  · by_cases hfailed : answer.failed = true
    · rcases (Firebase.failed_iff h.firebase_eq).1 hfailed with ⟨error, rfl⟩
      rw [Firebase.eq_of_failed h.firebase_eq hfailed]
      simp [FailsSignedOut, hawaits, hlistens, Option.isSome_iff_ne_none]
    · have hsome : s'.firebase.currentUser.isSome := by
        refine Firebase.currentUser_isSome_signsIn h.firebase_eq ?_ (by simpa using hfailed)
        rw [hrequest]
        rfl
      have hnot : ¬ s.FailsSignedOut (.callback i outcome) := by
        intro hfails
        cases outcome with
        | failure error => exact hfailed ((Firebase.failed_iff h.firebase_eq).2 ⟨error, rfl⟩)
        | _ => exact hfails
      simp [hsome, hnot]
  · have hnot : ¬ s.FailsSignedOut (.callback i outcome) := by
      intro hfails
      cases outcome with
      | failure error => exact hlistens (hawaits ▸ hfails.1)
      | _ => exact hfails
    rw [if_neg hlistens]
    refine iff_of_true ?_ hnot
    intro hconversations
    exact Firebase.currentUser_isSome_answer h.firebase_eq (hsigned hconversations)

/-- A callback of a registration shows the conversations to the account it created. -/
theorem Answered.signedIn_registration {s s' : Session} {i : Nat} {b b' : Started}
    {request : AuthRequest} {outcome : Outcome} {answer : AuthAnswer}
    (h : Answered lowercased s s' i b b' request outcome answer) (hsound : s.Sound)
    (hsigned : s.SignedIn) {job : SignUp} (hjob : b.task.job = .registration job) :
    s'.SignedIn := by
  intro hconversations
  rcases h.window_registration lowercased hjob with hsame | ⟨-, hscreen, hcreated⟩
  · rw [hsame] at hconversations
    exact Firebase.currentUser_isSome_answer h.firebase_eq (hsigned hconversations)
  · have hmem : b' ∈ s'.started := by
      rw [h.started_eq]
      exact List.mem_set (List.getElem?_eq_some_iff.1 h.get).1 b'
    refine h.covered lowercased hsound b' hmem ?_ ⟨⟨job, ?_⟩, hcreated⟩
    · rw [h.screen_eq]
      exact hscreen
    · rw [h.job_eq]
      exact hjob

/-- Only a failed sign-in shows the conversations to nobody. -/
theorem signedIn_step_iff {s s' : Session} {e : SessionEvent} (hsound : s.Sound)
    (h : s.SignedIn) (hstep : step lowercased s e = some s') :
    s'.SignedIn ↔ ¬ s.FailsSignedOut e := by
  rcases step_cases lowercased hstep with
    ⟨i, outcome, b, b', request, answer, rfl, hanswered⟩ | ⟨hne, hchange⟩
  · cases hjob : b.task.job with
    | login email password => exact hanswered.signedIn_login lowercased hsound h hjob
    | registration job =>
        refine iff_of_true (hanswered.signedIn_registration lowercased hsound h hjob) ?_
        intro hfails
        cases outcome with
        | failure error => simpa [awaitsSignIn, hanswered.get, hjob] using hfails.1
        | _ => exact hfails
  · refine iff_of_true (hchange.signedIn h) ?_
    cases e with
    | callback i outcome => exact absurd rfl (hne i outcome)
    | _ => exact fun hfails => hfails

/-- **The conversations are never shown without a session** exactly when no sign-in
the login screen listens to fails while nobody is signed in. -/
theorem signedIn_iff {firebase : Firebase} {es : List SessionEvent} {s : Session}
    (hrun : run (step lowercased) (initial firebase) es = some s) :
    Always (step lowercased) SignedIn (initial firebase) es ↔
      StepsMeet (step lowercased) (fun a e => ¬ a.FailsSignedOut e) (initial firebase) es := by
  refine always_iff_stepsMeet (I := Sound) ?_ ?_ (sound_initial firebase) ?_ hrun
  · intro a e b ha hab
    exact sound_step lowercased ha hab
  · intro a e b ha hsigned hab
    exact signedIn_step_iff lowercased ha hsigned hab
  · rintro ⟨⟩

/-- Two sign-ins: the first is superseded and fails, the second succeeds. -/
def supersededSignIn : List SessionEvent :=
  [.launch, .loginTapped "alice@example.com" "passwort",
   .loginTapped "alice@example.com" "password", .callback 0 (.failure ⟨"wrong-password"⟩),
   .callback 1 (.signedIn "alice"), .logoutTapped false]

/-- A second tap supersedes the sign-in that fails. -/
theorem signedIn_iff_supersededSignIn :
    Always (step id) SignedIn (initial .empty) supersededSignIn :=
  (signedIn_iff id (run_final rfl)).2 (by decide)

/-- A single sign-in, and it fails. -/
def failedSignIn : List SessionEvent :=
  [.launch, .loginTapped "alice@example.com" "passwort", .callback 0 (.failure ⟨"wrong-password"⟩)]

/-- After a wrong password the conversations are shown, and nobody is signed in. -/
theorem not_signedIn_of_failedSignIn :
    ∃ s, run (step id) (initial .empty) failedSignIn = some s ∧ ¬ s.SignedIn :=
  ⟨_, run_final rfl, by decide⟩

end Session

end WaffleChat
