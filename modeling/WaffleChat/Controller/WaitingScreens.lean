import Mathlib.Data.List.Nodup
import WaffleChat.Controller.Session

/-!
# Screens that wait

The controllers in the window that start jobs, and which of them wait: a login screen for a
sign-in, a registration screen for a registration.  A controller hears of its latest job
only; the jobs of a controller are numbered as it starts them.

Main results:

- Theorem `Session.Numbered.step`: the numbers are right in every run.
- Theorem `Session.step_kinds`: an event starts a job, reports on one, or changes the screens.
-/

namespace WaffleChat

open CallbackProgram EventSystem Observers

/-- A controller in the window that starts jobs: the number of its latest job, and what it
says while it waits. -/
structure AuthScreen where
  id : Nat
  latest : Nat
  label : Option String
deriving DecidableEq, Repr

/-- The text of the indicator while the job is on its way. -/
def AuthJob.label : AuthJob → Option String
  | .login _ _ => some "Loading"
  | .registration _ => some "Registering"

def LoginScreen.authScreen (screen : LoginScreen) : AuthScreen :=
  ⟨screen.id, screen.switch.latest, some "Loading"⟩

def RegistrationScreen.authScreen (screen : RegistrationScreen) : AuthScreen :=
  ⟨screen.id, screen.switch.latest, some "Registering"⟩

namespace Window

/-- The controllers in the window that start jobs. -/
def authScreens : Window → List AuthScreen
  | .login screen registrations =>
      screen.authScreen :: registrations.map RegistrationScreen.authScreen
  | _ => []

/-- The controller whose button an event taps to start a job. -/
def tapped : Window → SessionEvent → Option AuthScreen
  | .login screen _, .loginTapped _ _ => some screen.authScreen
  | .login _ (registration :: _), .signUpTapped _ => some registration.authScreen
  | _, _ => none

/-- The values the handler of the controller that has started job `b` is called with. -/
def heard (window : Window) (b : Started) (events : List (Event BackendError Bool)) :
    List Bool :=
  let delivered := (feed CreateSink.on .fresh events).2
  match b.task.job, window with
  | .login _ _, .login screen _ =>
      if screen.id = b.screen then
        (screen.isLoginCompleted b.inner delivered).2.filterMap Event.value?
      else []
  | .registration _, .login _ registrations =>
      match registrations.find? fun registration => registration.id = b.screen with
      | some registration => (registration.isRegistered b.inner delivered).2
      | none => []
  | _, _ => []

/-- The registration screens in the window still listen. -/
def RegistrationsLive (window : Window) : Prop :=
  ∀ screen registrations, window = .login screen registrations →
    ∀ registration ∈ registrations, registration.switch.disposed = false

/-- Screens are known by their numbers. -/
theorem map_id_authScreens (window : Window) :
    window.authScreens.map AuthScreen.id = window.ids := by
  cases window with
  | login screen registrations => simp [authScreens, ids, LoginScreen.authScreen,
      RegistrationScreen.authScreen, Function.comp_def]
  | closed => rfl
  | conversations => rfl

end Window

namespace Session

variable (lowercased : String → String)

/-- The latest job of the controller has not reported yet. -/
def Waits (s : Session) (screen : AuthScreen) : Prop :=
  ∃ b ∈ s.started, (b.screen, b.inner) = (screen.id, screen.latest) ∧
    b.task.outputs (program lowercased) = []

instance (s : Session) (screen : AuthScreen) : Decidable (s.Waits lowercased screen) :=
  inferInstanceAs (Decidable (∃ b ∈ s.started, _ ∧ _))

/-- The jobs of a controller have different numbers, none beyond its latest, and each job
belongs to a controller of its kind. -/
structure Numbered (s : Session) : Prop where
  sound : s.Sound
  nodup : s.window.ids.Nodup
  unique : (s.started.map fun b => (b.screen, b.inner)).Nodup
  inner_le : ∀ b ∈ s.started, ∀ screen ∈ s.window.authScreens, b.screen = screen.id →
    b.inner ≤ screen.latest ∧ b.task.job.label = screen.label
  live : s.window.RegistrationsLive

/-! ## What an event does to the screens -/

/-- A controller starts job `b`. -/
structure Tapped (s s' : Session) (screen : AuthScreen) (b : Started) : Prop where
  started_eq : s'.started = s.started ++ [b]
  created_eq : s'.created = s.created
  screens : ∃ before after, s.window.authScreens = before ++ screen :: after ∧
    s'.window.authScreens = before ++ { screen with latest := screen.latest + 1 } :: after
  number_eq : (b.screen, b.inner) = (screen.id, screen.latest + 1)
  label_eq : b.task.job.label = screen.label
  outputs_eq : b.task.outputs (program lowercased) = []
  live : s.window.RegistrationsLive → s'.window.RegistrationsLive

/-- Screens come and go; those that come are new, and no job is started. -/
structure Moved (s s' : Session) : Prop where
  created_le : s.created ≤ s'.created
  started_eq : s'.started = s.started ∨ (s'.started = [] ∧ s'.window.authScreens = [])
  screens : ∀ screen ∈ s'.window.authScreens, screen ∈ s.window.authScreens ∨
    (s.created ≤ screen.id ∧ screen.id < s'.created)
  nodup : s.window.ids.Nodup → (∀ id ∈ s.window.ids, id < s.created) → s'.window.ids.Nodup
  live : s.window.RegistrationsLive → s'.window.RegistrationsLive

/-- The window holds no controller that starts jobs. -/
theorem moved_of_empty {s s' : Session} (hcreated : s'.created = s.created)
    (hstarted : s'.started = s.started ∨ s'.started = [])
    (hwindow : s'.window = .closed ∨ s'.window = .conversations) : Moved s s' := by
  have hids : s'.window.ids = [] := by
    rcases hwindow with hwindow | hwindow <;> simp [hwindow, Window.ids]
  have hscreens : s'.window.authScreens = [] := by
    rcases hwindow with hwindow | hwindow <;> simp [hwindow, Window.authScreens]
  refine ⟨hcreated.ge, hstarted.imp_right fun hnil => ⟨hnil, hscreens⟩, ?_, ?_, ?_⟩
  · simp [hscreens]
  · simp [hids]
  · rintro - screen registrations hlogin
    rcases hwindow with hwindow | hwindow <;> cases hwindow.symm.trans hlogin

/-- A new login screen takes the place of the window. -/
theorem moved_switchToLoginVC {s s' : Session} (hcreated : s'.created = s.created + 1)
    (hstarted : s'.started = s.started) (hwindow : s'.window = .login (.create s.created) []) :
    Moved s s' := by
  refine ⟨by omega, Or.inl hstarted, ?_, ?_, ?_⟩
  · intro screen hscreen
    rw [hwindow] at hscreen
    obtain rfl := List.mem_singleton.1 hscreen
    exact Or.inr ⟨Nat.le_refl _, by simp [LoginScreen.authScreen, LoginScreen.create, hcreated]⟩
  · simp [hwindow, Window.ids]
  · rintro - screen registrations hlogin
    cases hwindow.symm.trans hlogin
    simp

/-- A pushed screen waits for nothing. -/
theorem moved_goToSignUpTapped {s s' : Session}
    (hstep : step lowercased s .goToSignUpTapped = some s') : Moved s s' := by
  simp only [step] at hstep
  split at hstep
  · rename_i screen registrations hwindow
    obtain rfl := Option.some.inj hstep
    refine ⟨Nat.le_succ _, Or.inl rfl, ?_, ?_, ?_⟩
    · intro other hother
      simp only [Window.authScreens, List.map_cons, List.mem_cons] at hother
      rcases hother with rfl | rfl | hother
      · exact Or.inl (by simp [hwindow, Window.authScreens])
      · exact Or.inr ⟨Nat.le_refl _, Nat.lt_succ_self _⟩
      · exact Or.inl (by simp [hwindow, Window.authScreens, hother])
    · intro hnodup hlt
      rw [hwindow] at hnodup hlt
      have hnew : ∀ id ∈ Window.ids (.login screen registrations), id ≠ s.created :=
        fun id hid => Nat.ne_of_lt (hlt id hid)
      simp only [Window.ids, List.map_cons, List.nodup_cons, List.mem_cons, not_or] at hnodup hnew ⊢
      refine ⟨⟨hnew screen.id (Or.inl rfl), hnodup.1⟩, ?_, hnodup.2⟩
      exact fun hmem => hnew s.created (Or.inr hmem) rfl
    · rintro hlive screen' registrations' hlogin
      cases hlogin
      intro registration hregistration
      rcases List.mem_cons.1 hregistration with rfl | hold
      · rfl
      · exact hlive screen registrations hwindow registration hold
  · cases hstep

/-- Popping keeps the login screen as it is. -/
theorem moved_goToLoginTapped {s s' : Session}
    (hstep : step lowercased s .goToLoginTapped = some s') : Moved s s' := by
  simp only [step] at hstep
  split at hstep
  · rename_i screen registration registrations hwindow
    obtain rfl := Option.some.inj hstep
    refine ⟨Nat.le_refl _, Or.inl rfl, ?_, ?_, ?_⟩
    · intro other hother
      left
      simp only [hwindow, Window.authScreens, List.map_cons, List.mem_cons] at hother ⊢
      exact hother.imp_right Or.inr
    · intro hnodup _
      rw [hwindow] at hnodup
      simp only [Window.ids, List.map_cons, List.nodup_cons, List.mem_cons, not_or] at hnodup ⊢
      exact ⟨hnodup.1.2, hnodup.2.2⟩
    · rintro hlive screen' registrations' hlogin
      cases hlogin
      exact fun other hother =>
        hlive screen (registration :: registrations) hwindow other (List.mem_cons_of_mem _ hother)
  · cases hstep

/-- After a logout the login screen is new. -/
theorem moved_logoutTapped {s s' : Session} {throws : Bool}
    (hstep : step lowercased s (.logoutTapped throws) = some s') : Moved s s' := by
  simp only [step] at hstep
  split at hstep
  · rename_i hwindow
    split at hstep
    · obtain rfl := Option.some.inj hstep
      exact moved_of_empty rfl (Or.inl rfl) (Or.inr hwindow)
    · obtain rfl := Option.some.inj hstep
      exact moved_switchToLoginVC rfl rfl rfl
  · cases hstep

/-- A login tap starts a call of the login screen. -/
theorem tapped_loginTapped {s s' : Session} {email password : String}
    (hstep : step lowercased s (.loginTapped email password) = some s') :
    ∃ screen b, s.window.tapped (.loginTapped email password) = some screen ∧
      Tapped lowercased s s' screen b := by
  simp only [step] at hstep
  split at hstep
  · rename_i screen registrations hwindow
    obtain rfl := Option.some.inj hstep
    refine ⟨screen.authScreen, _, by rw [hwindow]; rfl, rfl, rfl, ⟨[], _, ?_, rfl⟩, rfl, rfl,
      rfl, ?_⟩
    · rw [hwindow]
      rfl
    · rintro hlive screen' registrations' hlogin
      cases hlogin
      exact hlive screen registrations hwindow
  · cases hstep

/-- A registration tap starts a call of the topmost screen. -/
theorem tapped_signUpTapped {s s' : Session} {job : SignUp}
    (hstep : step lowercased s (.signUpTapped job) = some s') :
    ∃ screen b, s.window.tapped (.signUpTapped job) = some screen ∧
      Tapped lowercased s s' screen b := by
  simp only [step] at hstep
  split at hstep
  · rename_i screen registration registrations hwindow
    obtain rfl := Option.some.inj hstep
    refine ⟨registration.authScreen, _, by rw [hwindow]; rfl, rfl, rfl,
      ⟨[screen.authScreen], registrations.map RegistrationScreen.authScreen, ?_, rfl⟩, rfl, rfl,
      rfl, ?_⟩
    · rw [hwindow]
      rfl
    · rintro hlive screen' registrations' hlogin
      cases hlogin
      intro other hother
      rcases List.mem_cons.1 hother with rfl | hold
      · exact hlive screen (registration :: registrations) hwindow registration
          List.mem_cons_self
      · exact hlive screen (registration :: registrations) hwindow other
          (List.mem_cons_of_mem _ hold)
  · cases hstep

/-! ## Reports -/

/-- Nothing has been reported by a job that waits for an answer. -/
theorem outputs_eq_nil_of_awaiting {b : Started} {request : AuthRequest}
    (h : (b.task.current (program lowercased)).awaiting = some request) :
    b.task.outputs (program lowercased) = [] := by
  rw [Task.current] at h
  rw [Task.outputs]
  cases hjob : b.task.job with
  | login email password =>
      rw [hjob, program] at h
      rw [(performLogin_awaiting h).1]
      rfl
  | registration job =>
      rw [hjob, program, Register.awaiting_after] at h
      rw [program, Register.reports_performRegistration]
      split at h
      · cases h
      · rename_i hfailed
        have hlength : b.task.answers.length < 4 := by
          split at h <;> simp_all
        rw [List.take_of_length_le (by omega), if_neg hfailed, if_neg (by omega)]

/-- The number of a job does not change. -/
theorem inner_callback {s s' : Session} {i : Nat} {outcome : Outcome}
    (hstep : step lowercased s (.callback i outcome) = some s') {b b' : Started}
    (hget : s.started[i]? = some b) (hget' : s'.started[i]? = some b') : b'.inner = b.inner := by
  simp only [step, Option.bind_eq_bind, Option.bind_eq_some_iff, Option.some.injEq] at hstep
  rcases hstep with ⟨c, hc, _, _, ⟨_, _⟩, _, task, _, heq⟩
  obtain rfl : b = c := Option.some.inj (hget.symm.trans hc)
  have hlt : i < s.started.length := (List.getElem?_eq_some_iff.1 hget).1
  rw [← heq, List.getElem?_set_self hlt] at hget'
  cases hget'
  rfl

/-- Job `b`, which had reported nothing, has become `b'`, and the handler of its controller is
called with the values `heard`: it is called exactly if the controller listens to the job
and the job has reported, and unless the conversations are shown the window stays. -/
structure Reported (s s' : Session) (i : Nat) (b b' : Started) (heard : List Bool) : Prop where
  get : s.started[i]? = some b
  started_eq : s'.started = s.started.set i b'
  created_eq : s'.created = s.created
  number_eq : (b'.screen, b'.inner) = (b.screen, b.inner)
  job_eq : b'.task.job = b.task.job
  outputs_eq : b.task.outputs (program lowercased) = []
  heard_eq : heard = s.window.heard b (b'.task.current (program lowercased)).emitted
  window : s'.window = .conversations ∨
    (s'.window = s.window ∧
      ((heard = [] ∧ ∀ screen ∈ s.window.authScreens,
          (b.screen, b.inner) = (screen.id, screen.latest) →
            b'.task.outputs (program lowercased) = []) ∨
        (heard ≠ [] ∧ b'.task.outputs (program lowercased) ≠ [] ∧
          ∃ screen ∈ s.window.authScreens, (b.screen, b.inner) = (screen.id, screen.latest))))

/-- A sign-in the login screen does not listen to is not heard of. -/
theorem Numbered.heard_login {s : Session} (h : s.Numbered) {b : Started} (hb : b ∈ s.started)
    {email password : String} (hjob : b.task.job = .login email password)
    (hlistens : s.window.listens b.screen b.inner = false)
    (events : List (Event BackendError Bool)) :
    s.window.heard b events = [] ∧ ∀ screen ∈ s.window.authScreens,
      (b.screen, b.inner) ≠ (screen.id, screen.latest) := by
  cases hwindow : s.window with
  | closed => simp [Window.heard, Window.authScreens, hjob]
  | conversations => simp [Window.heard, Window.authScreens, hjob]
  | login screen registrations =>
      have hne : screen.id = b.screen → screen.switch.latest ≠ b.inner := by
        intro hid hinner
        simp [hwindow, Window.listens, hid, hinner] at hlistens
      constructor
      · by_cases hid : screen.id = b.screen
        · simp [Window.heard, hjob, hid, LoginScreen.isLoginCompleted_of_ne (hne hid)]
        · simp [Window.heard, hjob, hid]
      · intro other hother heq
        have hid : b.screen = other.id := congrArg Prod.fst heq
        have hlabel := (h.inner_le b hb other (hwindow ▸ hother) hid).2
        simp only [Window.authScreens, List.mem_cons, List.mem_map] at hother
        rcases hother with rfl | ⟨registration, -, rfl⟩
        · exact hne hid.symm (congrArg Prod.snd heq).symm
        · simp [hjob, AuthJob.label, RegistrationScreen.authScreen] at hlabel

/-- What a registration reports is heard of by its screen exactly if that listens; the
conversations are shown if it hears of a success. -/
theorem Numbered.heard_registration {s : Session} (h : s.Numbered) {b : Started}
    (hb : b ∈ s.started) {job : SignUp} (hjob : b.task.job = .registration job)
    {events : List (Event BackendError Bool)}
    (hevents : ∀ event ∈ events, event.isStop = false) :
    s.window.registrationReported b.screen b.inner events =
        (if true ∈ s.window.heard b events then .conversations else s.window) ∧
      ((s.window.heard b events = [] ∧ ∀ screen ∈ s.window.authScreens,
          (b.screen, b.inner) ≠ (screen.id, screen.latest)) ∨
        (s.window.heard b events = events.filterMap Event.value? ∧
          ∃ screen ∈ s.window.authScreens, (b.screen, b.inner) = (screen.id, screen.latest))) := by
  have hdelivered := feed_createSink_of_not_isStop hevents
  cases hwindow : s.window with
  | closed => simp [Window.heard, Window.authScreens, Window.registrationReported, hjob]
  | conversations => simp [Window.heard, Window.authScreens, Window.registrationReported, hjob]
  | login screen registrations =>
      have hnodup : (registrations.map RegistrationScreen.id).Nodup := by
        have hnodup := h.nodup
        rw [hwindow] at hnodup
        exact (List.nodup_cons.1 hnodup).2
      -- the login screen starts no registrations
      have hlogin : (b.screen, b.inner) ≠ (screen.authScreen.id, screen.authScreen.latest) := by
        intro heq
        have hmem : screen.authScreen ∈ s.window.authScreens := by
          simp [hwindow, Window.authScreens]
        have hlabel := (h.inner_le b hb _ hmem (congrArg Prod.fst heq)).2
        simp [hjob, AuthJob.label, LoginScreen.authScreen] at hlabel
      cases hfind : registrations.find? fun registration => registration.id = b.screen with
      | none =>
          have hheard : (Window.login screen registrations).heard b events = [] := by
            simp [Window.heard, hjob, hfind]
          refine ⟨by simp [Window.registrationReported, hfind, hheard], Or.inl ⟨hheard, ?_⟩⟩
          intro other hother heq
          simp only [Window.authScreens, List.mem_cons, List.mem_map] at hother
          rcases hother with rfl | ⟨registration, hmem, rfl⟩
          · exact hlogin heq
          · have hid := List.find?_eq_none.1 hfind registration hmem
            exact hid (decide_eq_true (congrArg Prod.fst heq).symm)
      | some registration =>
          have hmem := List.mem_of_find?_eq_some hfind
          have hid : registration.id = b.screen := by simpa using List.find?_some hfind
          have hsame : (registrations.map fun other =>
              if other.id = b.screen then (other.isRegistered b.inner events).1 else other) =
              registrations := by
            simp [RegistrationScreen.isRegistered, SwitchSink.feed_inner_of_not_isStop hevents]
          have hheard : (Window.login screen registrations).heard b events =
              (registration.isRegistered b.inner events).2 := by
            simp [Window.heard, hjob, hfind, hdelivered]
          refine ⟨?_, ?_⟩
          · simp only [Window.registrationReported, hfind, Window.foldl_onRegistered, hsame, hheard]
          · rw [hheard]
            by_cases hlatest : registration.switch.latest = b.inner
            · refine Or.inr ⟨?_, registration.authScreen, ?_, ?_⟩
              · have hlive := h.live screen registrations hwindow registration hmem
                simp [RegistrationScreen.isRegistered,
                  SwitchSink.feed_inner_of_latest hlatest hlive hevents]
              · exact List.mem_cons_of_mem _ (List.mem_map_of_mem hmem)
              · simp [RegistrationScreen.authScreen, hid, hlatest]
            · refine Or.inl ⟨?_, ?_⟩
              · simp [RegistrationScreen.isRegistered, SwitchSink.feed_inner_of_ne hlatest]
              · intro other hother heq
                simp only [Window.authScreens, List.mem_cons, List.mem_map] at hother
                rcases hother with rfl | ⟨registration', hmem', rfl⟩
                · exact hlogin heq
                · have hid' : registration'.id = registration.id :=
                    (congrArg Prod.fst heq).symm.trans hid.symm
                  obtain rfl : registration' = registration :=
                    List.inj_on_of_nodup_map hnodup hmem' hmem hid'
                  exact hlatest (congrArg Prod.snd heq).symm

/-- The handler of a job has run. -/
theorem reported_of_answered {s s' : Session} (h : s.Numbered) {i : Nat} {b b' : Started}
    {request : AuthRequest} {outcome : Outcome} {answer : AuthAnswer}
    (hanswered : Answered lowercased s s' i b b' request outcome answer)
    (hinner : b'.inner = b.inner) :
    Reported lowercased s s' i b b'
      (s.window.heard b (b'.task.current (program lowercased)).emitted) := by
  have hb : b ∈ s.started := List.mem_of_getElem? hanswered.get
  have houtputs := outputs_eq_nil_of_awaiting lowercased hanswered.request_eq
  have hemitted : b'.task.outputs (program lowercased) =
      (b'.task.current (program lowercased)).emitted := by
    rw [Task.outputs, hanswered.job_eq, hanswered.answers_eq, Program.outputs_concat,
      show (program lowercased b.task.job).outputs b.task.answers = [] from houtputs,
      List.nil_append, Task.current, hanswered.job_eq, hanswered.answers_eq]
  have hnumber : (b'.screen, b'.inner) = (b.screen, b.inner) := by
    rw [hanswered.screen_eq, hinner]
  refine ⟨hanswered.get, hanswered.started_eq, hanswered.created_eq, hnumber,
    hanswered.job_eq, houtputs, rfl, ?_⟩
  cases hjob : b.task.job with
  | login email password =>
      rw [(hanswered.window_login lowercased h.sound.live hjob).2]
      cases hlistens : s.window.listens b.screen b.inner with
      | true => exact Or.inl rfl
      | false =>
          have hunheard := h.heard_login hb hjob hlistens
            (b'.task.current (program lowercased)).emitted
          exact Or.inr ⟨rfl, Or.inl ⟨hunheard.1, fun screen hscreen heq =>
            absurd heq (hunheard.2 screen hscreen)⟩⟩
  | registration job =>
      have helements : ∀ event ∈ (b'.task.current (program lowercased)).emitted,
          event.isStop = false := by
        intro event hevent
        rw [← hemitted, Task.outputs, hanswered.job_eq, hjob, program] at hevent
        exact Register.isStop_of_mem_outputs lowercased hevent
      rcases h.heard_registration hb hjob helements with ⟨hwindow, hheard⟩
      rw [hanswered.window_eq, report, hjob]
      simp only [feed_createSink_of_not_isStop helements, hwindow]
      split
      · exact Or.inl rfl
      · refine Or.inr ⟨rfl, ?_⟩
        rcases hheard with ⟨hnil, hunlistened⟩ | ⟨hvalues, screen, hscreen, heq⟩
        · exact Or.inl ⟨hnil, fun screen hscreen heq => absurd heq (hunlistened screen hscreen)⟩
        · rw [hvalues, hemitted]
          cases hevents : (b'.task.current (program lowercased)).emitted with
          | nil => exact Or.inl ⟨rfl, fun _ _ _ => rfl⟩
          | cons event events =>
              refine Or.inr ⟨?_, List.cons_ne_nil _ _, screen, hscreen, heq⟩
              have hevent := helements event (by simp [hevents])
              cases event with
              | next value => simp [Event.value?]
              | error e => cases hevent
              | completed => cases hevent

/-- Everything one event does to the screens: a controller starts a job, a job reports, or
screens come and go. -/
theorem step_kinds {s s' : Session} (h : s.Numbered) {e : SessionEvent}
    (hstep : step lowercased s e = some s') :
    (∃ screen b, s.window.tapped e = some screen ∧ Tapped lowercased s s' screen b) ∨
    (∃ i outcome b b', e = .callback i outcome ∧
      Reported lowercased s s' i b b'
        (s.window.heard b (b'.task.current (program lowercased)).emitted)) ∨
    (s.window.tapped e = none ∧ (∀ i outcome, e ≠ .callback i outcome) ∧ Moved s s') := by
  have huntapped : (∀ email password, e ≠ .loginTapped email password) →
      (∀ job, e ≠ .signUpTapped job) → s.window.tapped e = none := by
    intro hlogin hsignUp
    unfold Window.tapped
    split
    · exact absurd rfl (hlogin _ _)
    · exact absurd rfl (hsignUp _)
    · rfl
  cases e with
  | launch =>
      refine Or.inr (Or.inr ⟨huntapped (by simp) (by simp), by simp, ?_⟩)
      obtain rfl := Option.some.inj hstep
      split
      · exact moved_of_empty rfl (Or.inl rfl) (Or.inr rfl)
      · exact moved_switchToLoginVC rfl rfl rfl
  | terminate =>
      refine Or.inr (Or.inr ⟨huntapped (by simp) (by simp), by simp, ?_⟩)
      obtain rfl := Option.some.inj hstep
      exact moved_of_empty rfl (Or.inr rfl) (Or.inl rfl)
  | loginTapped email password => exact Or.inl (tapped_loginTapped lowercased hstep)
  | goToSignUpTapped =>
      exact Or.inr (Or.inr ⟨huntapped (by simp) (by simp), by simp,
        moved_goToSignUpTapped lowercased hstep⟩)
  | goToLoginTapped =>
      exact Or.inr (Or.inr ⟨huntapped (by simp) (by simp), by simp,
        moved_goToLoginTapped lowercased hstep⟩)
  | signUpTapped job => exact Or.inl (tapped_signUpTapped lowercased hstep)
  | callback i outcome =>
      rcases step_callback lowercased hstep with ⟨b, b', request, answer, hanswered⟩
      have hlt : i < s.started.length := (List.getElem?_eq_some_iff.1 hanswered.get).1
      have hget' : s'.started[i]? = some b' := by
        rw [hanswered.started_eq, List.getElem?_set_self hlt]
      have hinner := inner_callback lowercased hstep hanswered.get hget'
      exact Or.inr (Or.inl ⟨i, outcome, b, b', rfl,
        reported_of_answered lowercased h hanswered hinner⟩)
  | logoutTapped throws =>
      exact Or.inr (Or.inr ⟨huntapped (by simp) (by simp), by simp,
        moved_logoutTapped lowercased hstep⟩)

/-! ## The numbers in every run -/

/-- At first there is no screen to number. -/
theorem numbered_initial (firebase : Firebase) : (initial firebase).Numbered := by
  refine ⟨sound_initial firebase, ?_, ?_, ?_, ?_⟩
  · simp [initial, Window.ids]
  · simp [initial]
  · simp [initial]
  · rintro screen registrations ⟨⟩

/-- A new screen gets a number of its own. -/
theorem Moved.numbered {s s' : Session} (hmoved : Moved s s') (h : s.Numbered)
    (hsound : s'.Sound) : s'.Numbered := by
  refine ⟨hsound, hmoved.nodup h.nodup h.sound.ids_lt, ?_, ?_, hmoved.live h.live⟩
  · rcases hmoved.started_eq with heq | ⟨hnil, -⟩
    · rw [heq]
      exact h.unique
    · simp [hnil]
  · intro b hb screen hscreen hid
    rcases hmoved.started_eq with heq | ⟨hnil, -⟩
    · rw [heq] at hb
      rcases hmoved.screens screen hscreen with hold | ⟨hnew, -⟩
      · exact h.inner_le b hb screen hold hid
      · exact absurd (h.sound.started_lt b hb) (by omega)
    · simp [hnil] at hb

variable {lowercased}

/-- A tap renumbers no screen. -/
theorem Tapped.nodup {s s' : Session} {screen : AuthScreen} {b : Started}
    (htapped : Tapped lowercased s s' screen b) (h : s.window.ids.Nodup) :
    s'.window.ids = s.window.ids ∧ ∀ before after,
      s.window.authScreens = before ++ screen :: after →
        ∀ other ∈ before ++ after, other.id ≠ screen.id := by
  constructor
  · rcases htapped.screens with ⟨before, after, heq, heq'⟩
    rw [← Window.map_id_authScreens, ← Window.map_id_authScreens, heq, heq']
    simp
  · intro before after heq other hother hid
    rw [← Window.map_id_authScreens, heq, List.map_append, List.map_cons,
      List.nodup_middle, ← List.map_append] at h
    exact (List.nodup_cons.1 h).1 (hid ▸ List.mem_map_of_mem hother)

/-- A tap on one screen keeps all numbers apart. -/
theorem Tapped.numbered {s s' : Session} {screen : AuthScreen} {b : Started}
    (htapped : Tapped lowercased s s' screen b) (h : s.Numbered) (hsound : s'.Sound) :
    s'.Numbered := by
  rcases htapped.nodup h.nodup with ⟨hids, hother⟩
  rcases htapped.screens with ⟨before, after, heq, heq'⟩
  have hscreen : screen ∈ s.window.authScreens := by simp [heq]
  have hnumber := Prod.mk.inj htapped.number_eq
  refine ⟨hsound, hids ▸ h.nodup, ?_, ?_, htapped.live h.live⟩
  · rw [htapped.started_eq, List.map_append, List.map_singleton]
    refine List.nodup_append.2 ⟨h.unique, List.nodup_singleton _, ?_⟩
    rintro key hkey key' hkey' rfl
    rcases List.mem_map.1 hkey with ⟨c, hc, hckey⟩
    rw [List.mem_singleton.1 hkey', htapped.number_eq] at hckey
    rcases Prod.mk.inj hckey with ⟨hcid, hcinner⟩
    have := (h.inner_le c hc screen hscreen hcid).1
    omega
  · intro c hc other hmem hid
    rw [heq'] at hmem
    have hcases : other ∈ before ++ after ∨
        other = { screen with latest := screen.latest + 1 } := by
      simp only [List.mem_append, List.mem_cons] at hmem ⊢
      tauto
    rw [htapped.started_eq] at hc
    rcases List.mem_append.1 hc with hc | hc
    · rcases hcases with hold | rfl
      · refine h.inner_le c hc other ?_ hid
        rw [heq]
        simp only [List.mem_append, List.mem_cons] at hold ⊢
        tauto
      · have hle := h.inner_le c hc screen hscreen hid
        exact ⟨Nat.le_succ_of_le hle.1, hle.2⟩
    · obtain rfl := List.mem_singleton.1 hc
      rcases hcases with hold | rfl
      · exact absurd (hid.symm.trans hnumber.1) (hother before after heq other hold)
      · exact ⟨hnumber.2.le, htapped.label_eq⟩

/-- The answered job keeps its place and its number. -/
theorem Reported.map_number {s s' : Session} {i : Nat} {b b' : Started} {heard : List Bool}
    (hreported : Reported lowercased s s' i b b' heard) :
    (s'.started.map fun c => (c.screen, c.inner)) =
      s.started.map fun c => (c.screen, c.inner) := by
  rcases List.getElem?_eq_some_iff.1 hreported.get with ⟨hlt, hb⟩
  rw [hreported.started_eq, List.map_set, hreported.number_eq, ← hb]
  exact List.ext_getElem (by simp) fun j _ _ => by
    rw [List.getElem_set]
    split
    · rename_i hij
      subst hij
      simp
    · rfl

/-- A report keeps all numbers apart. -/
theorem Reported.numbered {s s' : Session} {i : Nat} {b b' : Started} {heard : List Bool}
    (hreported : Reported lowercased s s' i b b' heard) (h : s.Numbered) (hsound : s'.Sound) :
    s'.Numbered := by
  have hb : b ∈ s.started := List.mem_of_getElem? hreported.get
  have hnumber := Prod.mk.inj hreported.number_eq
  have hunique := hreported.map_number ▸ h.unique
  rcases hreported.window with hconversations | ⟨hwindow, -⟩
  · refine ⟨hsound, ?_, hunique, ?_, ?_⟩
    · simp [hconversations, Window.ids]
    · simp [hconversations, Window.authScreens]
    · intro screen registrations hlogin
      cases hconversations.symm.trans hlogin
  · refine ⟨hsound, hwindow ▸ h.nodup, hunique, ?_, hwindow ▸ h.live⟩
    intro c hc screen hscreen hid
    rw [hwindow] at hscreen
    rw [hreported.started_eq] at hc
    rcases List.mem_or_eq_of_mem_set hc with hc | rfl
    · exact h.inner_le c hc screen hscreen hid
    · rw [hnumber.2, hreported.job_eq]
      exact h.inner_le b hb screen hscreen (hnumber.1 ▸ hid)

variable (lowercased)

/-- Whatever happens, no two screens share a number. -/
theorem Numbered.step {s s' : Session} (h : s.Numbered) {e : SessionEvent}
    (hstep : step lowercased s e = some s') : s'.Numbered := by
  have hsound := sound_step lowercased h.sound hstep
  rcases step_kinds lowercased h hstep with ⟨screen, b, -, htapped⟩ |
    ⟨i, outcome, b, b', -, hreported⟩ | ⟨-, -, hmoved⟩
  · exact htapped.numbered h hsound
  · exact hreported.numbered h hsound
  · exact hmoved.numbered h hsound

/-! ## Who waits -/

variable {lowercased}

/-- Changing screens makes no screen wait and none stop. -/
theorem Moved.waits_iff {s s' : Session} (hmoved : Moved s s') {screen : AuthScreen}
    (hscreen : screen ∈ s'.window.authScreens) :
    s'.Waits lowercased screen ↔ s.Waits lowercased screen := by
  rcases hmoved.started_eq with heq | ⟨-, hempty⟩
  · rw [Waits, Waits, heq]
  · simp [hempty] at hscreen

/-- A screen that has not been created yet waits for nothing. -/
theorem Sound.not_waits {s : Session} (h : s.Sound) {screen : AuthScreen}
    (hnew : s.created ≤ screen.id) : ¬ s.Waits lowercased screen := by
  rintro ⟨b, hb, hnumber, -⟩
  have hlt := h.started_lt b hb
  have hid : b.screen = screen.id := congrArg Prod.fst hnumber
  omega

/-- The screen that is tapped waits. -/
theorem Tapped.waits_self {s s' : Session} {screen : AuthScreen} {b : Started}
    (htapped : Tapped lowercased s s' screen b) :
    s'.Waits lowercased { screen with latest := screen.latest + 1 } :=
  ⟨b, by simp [htapped.started_eq], htapped.number_eq, htapped.outputs_eq⟩

/-- Other screens wait as before. -/
theorem Tapped.waits_other {s s' : Session} {screen other : AuthScreen} {b : Started}
    (htapped : Tapped lowercased s s' screen b) (hne : other.id ≠ screen.id) :
    s'.Waits lowercased other ↔ s.Waits lowercased other := by
  simp only [Waits, htapped.started_eq, List.mem_append, List.mem_singleton]
  constructor
  · rintro ⟨c, hc | rfl, hnumber, houtputs⟩
    · exact ⟨c, hc, hnumber, houtputs⟩
    · have hid : c.screen = other.id := congrArg Prod.fst hnumber
      exact absurd (hid.symm.trans (congrArg Prod.fst htapped.number_eq)) hne
  · rintro ⟨c, hc, hnumber, houtputs⟩
    exact ⟨c, Or.inl hc, hnumber, houtputs⟩

/-- The job a screen waits for is the only one with its number. -/
theorem Reported.waits_self {s s' : Session} {i : Nat} {b b' : Started} {heard : List Bool}
    (hreported : Reported lowercased s s' i b b' heard) (h : s.Numbered) {screen : AuthScreen}
    (hnumber : (b.screen, b.inner) = (screen.id, screen.latest)) :
    s.Waits lowercased screen ∧
      (s'.Waits lowercased screen ↔ b'.task.outputs (program lowercased) = []) := by
  have hb : b ∈ s.started := List.mem_of_getElem? hreported.get
  have hlt : i < s.started.length := (List.getElem?_eq_some_iff.1 hreported.get).1
  have hb' : b' ∈ s'.started := by
    rw [hreported.started_eq]
    exact List.mem_set hlt b'
  have hnumber' := hreported.number_eq.trans hnumber
  refine ⟨⟨b, hb, hnumber, hreported.outputs_eq⟩, ?_, fun houtputs => ⟨b', hb', hnumber', houtputs⟩⟩
  rintro ⟨c, hc, hcnumber, houtputs⟩
  have hunique := hreported.map_number ▸ h.unique
  obtain rfl : c = b' := List.inj_on_of_nodup_map hunique hc hb' (hcnumber.trans hnumber'.symm)
  exact houtputs

/-- A report for another call leaves a screen waiting as before. -/
theorem Reported.waits_other {s s' : Session} {i : Nat} {b b' : Started} {heard : List Bool}
    (hreported : Reported lowercased s s' i b b' heard) {screen : AuthScreen}
    (hne : (b.screen, b.inner) ≠ (screen.id, screen.latest)) :
    s'.Waits lowercased screen ↔ s.Waits lowercased screen := by
  have hne' : (b'.screen, b'.inner) ≠ (screen.id, screen.latest) := hreported.number_eq ▸ hne
  rcases List.getElem?_eq_some_iff.1 hreported.get with ⟨hlt, hi⟩
  constructor
  · rintro ⟨c, hc, hnumber, houtputs⟩
    rw [hreported.started_eq] at hc
    rcases List.mem_or_eq_of_mem_set hc with hc | rfl
    · exact ⟨c, hc, hnumber, houtputs⟩
    · exact absurd hnumber hne'
  · rintro ⟨c, hc, hnumber, houtputs⟩
    rcases List.getElem_of_mem hc with ⟨j, hj, rfl⟩
    have hij : i ≠ j := by
      rintro rfl
      exact hne (hi ▸ hnumber)
    refine ⟨s.started[j], ?_, hnumber, houtputs⟩
    rw [hreported.started_eq]
    exact List.mem_of_getElem? ((List.getElem?_set_ne hij).trans (List.getElem?_eq_getElem hj))

end Session

end WaffleChat
