import WaffleChat.Controller.AuthForms
import WaffleChat.Controller.Session

/-!
# Signing in more than once

`LoginViewModel` with any number of taps: each samples the latest values of the form and
starts `performLogin`, whose report goes through `flatMapLatest` and
`asSignal(onErrorJustReturn: false)`.  A failure is an error of the stream and ends it,
where `performRegistration` reports it as an element.

Main results:

- Theorem `sound_step`: the stream has ended exactly if the sign-in started last has
  failed.
- Theorem `serves_iff`: in which runs every tap signs in and is answered.
-/

namespace WaffleChat

open CallbackProgram EventSystem Observers

/-- A call of `performLogin`, and the answer to its request once it has come. -/
structure SignIn where
  email : String
  password : String
  answer : Option AuthAnswer
deriving DecidableEq, Repr

/-- What the handler of the request reports. -/
def SignIn.reports (signIn : SignIn) (answer : AuthAnswer) : List (Event BackendError Bool) :=
  ((performLogin signIn.email signIn.password).after [answer]).emitted

/-- The sign-in has failed. -/
def SignIn.Failed (signIn : SignIn) : Prop :=
  ∃ answer ∈ signIn.answer, answer.failed = true

instance (signIn : SignIn) : Decidable signIn.Failed :=
  match h : signIn.answer with
  | none => .isFalse (by simp [SignIn.Failed, h])
  | some answer => decidable_of_iff (answer.failed = true) (by simp [SignIn.Failed, h])

/-- The form, the sinks behind its button, the sign-ins in the order they were started,
and the elements of `isLoginCompleted`. -/
structure LoginViewModel where
  form : LoginForm
  screen : LoginScreen
  signIns : List SignIn
  isLoginCompleted : List Bool

/-- What can happen next. -/
inductive LoginEvent where
  /-- The subject of a field is given a text. -/
  | accepted (field : LoginField) (text : String)
  | loginButtonTapped
  /-- The request of sign-in `i` is answered. -/
  | answered (i : Nat) (answer : AuthAnswer)
deriving DecidableEq, Repr

namespace LoginViewModel

section Validation

variable (selfMatches : (pattern text : String) → Bool) (count : String → Nat)

/-- The view model after its initializer. -/
def initial : LoginViewModel where
  form := .create selfMatches count
  screen := .create 0
  signIns := []
  isLoginCompleted := []

/-- `model.performLogin(email:password:)`, the next inner sequence of `flatMapLatest`. -/
def performLogin (s : LoginViewModel) (email password : String) : LoginViewModel :=
  { s with
    screen := { s.screen with switch := s.screen.switch.next }
    signIns := s.signIns ++ [⟨email, password, none⟩] }

/-- `loginButtonTapped` emits. -/
def loginButtonTapped (s : LoginViewModel) : LoginViewModel :=
  match s.form.tapped with
  | some (.performLogin email password) => s.performLogin email password
  | _ => s

/-- One event.  The inner sequences are numbered from one; the error of one ends the
subscription to `loginButtonTapped`. -/
def step (s : LoginViewModel) : LoginEvent → Option LoginViewModel
  | .accepted field text =>
      some
        { s with
          form := { s.form with fields := Function.update s.form.fields field text }.accept
            selfMatches count field text }
  | .loginButtonTapped => some s.loginButtonTapped
  | .answered i answer => do
      let signIn ← s.signIns[i]?
      guard (signIn.answer = none)
      let delivered := (feed CreateSink.on .fresh (signIn.reports answer)).2
      let received := s.screen.isLoginCompleted (i + 1) delivered
      return {
        form := { s.form with listening := !received.1.switch.disposed }
        screen := received.1
        signIns := s.signIns.set i { signIn with answer := some answer }
        isLoginCompleted := s.isLoginCompleted ++ received.2.filterMap Event.value? }

/-- A tap starts one sign-in with the latest values and emits nothing; a text and an answer
start none, and the answer to the sign-in started last emits exactly one element. -/
def Serves (s s' : LoginViewModel) : LoginEvent → Prop
  | .accepted _ _ => s'.signIns = s.signIns ∧ s'.isLoginCompleted = s.isLoginCompleted
  | .loginButtonTapped =>
      s'.signIns = s.signIns ++ [⟨s.form.fields .email, s.form.fields .password, none⟩] ∧
        s'.isLoginCompleted = s.isLoginCompleted
  | .answered i answer =>
      s'.signIns.length = s.signIns.length ∧
        (i + 1 = s.signIns.length →
          s'.isLoginCompleted = s.isLoginCompleted ++ [answer.error.isNone])

/-- The sign-in started last has failed. -/
def LastFailed (s : LoginViewModel) : Prop :=
  ∃ signIn ∈ s.signIns.getLast?, signIn.Failed

instance (s : LoginViewModel) : Decidable s.LastFailed :=
  match h : s.signIns.getLast? with
  | none => .isFalse (by simp [LastFailed, h])
  | some signIn => decidable_of_iff signIn.Failed (by simp [LastFailed, h])

/-! ## The values a tap samples -/

/-- Both subjects have emitted, and a tap samples what they hold. -/
structure Current (form : LoginForm) : Prop where
  latest_eq : ∀ field, form.loginValues.latest field = some (form.fields field)
  sampled_eq : form.sampled = some form.fields

/-- A new form is judged by its own texts. -/
theorem current_create : Current (.create selfMatches count) := by
  have hlatest : ∀ field, (LoginForm.create selfMatches count).loginValues.latest field =
      some ((LoginForm.create selfMatches count).fields field) := by
    intro field
    cases field <;> rfl
  refine ⟨hlatest, ?_⟩
  have hcurrent := CombineLatest.current_eq_some_iff.2 hlatest
  simp only [LoginForm.create, LoginForm.accept, CombineLatest.current_on] at hcurrent ⊢
  rw [hcurrent, Option.some_or]

/-- An accepted text is judged with the others. -/
theorem Current.accept {form : LoginForm} (h : Current form) (field : LoginField)
    (text : String) :
    Current ({ form with fields := Function.update form.fields field text }.accept
      selfMatches count field text) := by
  have hlatest : ∀ other, (form.loginValues.on field text).1.latest other =
      some (Function.update form.fields field text other) := by
    intro other
    rcases eq_or_ne other field with rfl | hne
    · simp [CombineLatest.on]
    · simp [CombineLatest.on, Function.update_of_ne hne, h.latest_eq]
  refine ⟨hlatest, ?_⟩
  have hcurrent := CombineLatest.current_eq_some_iff.2 hlatest
  rw [CombineLatest.current_on] at hcurrent
  rw [LoginForm.accept, hcurrent, Option.some_or]

end Validation

/-! ## The report of a sign-in -/

/-- The error of a failed sign-in drops the `true` behind it. -/
theorem delivered_reports (signIn : SignIn) (answer : AuthAnswer) :
    (feed CreateSink.on .fresh (signIn.reports answer)).2 =
      answer.error.elim [.next true] fun error => [.error error] := by
  rw [feed_createSink, SignIn.reports, performLogin_emitted]
  cases answer.error <;> rfl

/-- A live screen hands the report of the latest sign-in on; a failure ends it. -/
theorem live_receives {screen : LoginScreen} (h : screen.Live) (answer : AuthAnswer) :
    screen.isLoginCompleted screen.switch.latest
        (answer.error.elim [.next true] fun error => [.error error]) =
      answer.error.elim (screen, [.next true]) fun _ =>
        ({ screen with
            switch := { screen.switch with disposed := true }
            signal := ⟨true⟩ }, [.next false, .completed]) := by
  cases answer.error with
  | none =>
      simp [LoginScreen.isLoginCompleted, SwitchSink.inner_next rfl h.switch_live,
        CatchSink.on_next h.signal_live]
  | some error =>
      simp [LoginScreen.isLoginCompleted, SwitchSink.inner_error rfl h.switch_live,
        CatchSink.on_error h.signal_live]

/-! ## The sign-in started last -/

/-- A sign-in before the last is not the last. -/
theorem getLast_set_of_ne {signIns : List SignIn} {i : Nat} (hlt : i < signIns.length)
    (h : i + 1 ≠ signIns.length) (signIn : SignIn) :
    (signIns.set i signIn).getLast? = signIns.getLast? := by
  have hne : i ≠ signIns.length - 1 := by omega
  rw [List.getLast?_eq_getElem?, List.getLast?_eq_getElem?, List.length_set,
    List.getElem?_set_ne hne]

/-- The last sign-in is the one that has been set. -/
theorem getLast_set_of_eq {signIns : List SignIn} {i : Nat} (h : i + 1 = signIns.length)
    (signIn : SignIn) : (signIns.set i signIn).getLast? = some signIn := by
  have hlt : i < signIns.length := by omega
  rw [List.getLast?_eq_getElem?, List.length_set, ← h, Nat.add_sub_cancel,
    List.getElem?_set_self hlt]

/-! ## The state of the stream -/

/-- A tap samples what the subjects hold; the sign-ins are the inner sequences; and the
stream, both of its sinks and the subscription to the button, has ended exactly if the
sign-in started last has failed. -/
structure Sound (s : LoginViewModel) : Prop where
  current : Current s.form
  numbered : s.screen.switch.latest = s.signIns.length
  listening_eq : s.form.listening = !s.screen.switch.disposed
  signal_eq : s.screen.signal.disposed = s.screen.switch.disposed
  disposed_iff : s.screen.switch.disposed = true ↔ s.LastFailed

/-- At first nobody has tapped. -/
theorem sound_initial (selfMatches : (pattern text : String) → Bool) (count : String → Nat) :
    (initial selfMatches count).Sound :=
  ⟨current_create selfMatches count, rfl, rfl, rfl, by simp [initial, LoginScreen.create,
    SwitchSink.fresh, LastFailed]⟩

/-- A tap starts a sign-in unless the one started last has failed. -/
theorem Sound.loginButtonTapped {s : LoginViewModel} (h : s.Sound) :
    s.loginButtonTapped =
      if s.LastFailed then s
      else s.performLogin (s.form.fields .email) (s.form.fields .password) := by
  have hlistening : s.form.listening = !decide s.LastFailed := by
    rw [h.listening_eq, Bool.not_eq_eq_eq_not, Bool.not_not, Bool.eq_iff_iff, h.disposed_iff,
      decide_eq_true_iff]
  unfold LoginViewModel.loginButtonTapped LoginForm.tapped
  by_cases hfailed : s.LastFailed <;> simp [hlistening, hfailed, h.current.sampled_eq]

/-- The new sign-in has not failed. -/
theorem Sound.performLogin {s : LoginViewModel} (h : s.Sound) (hfailed : ¬s.LastFailed)
    (email password : String) : (s.performLogin email password).Sound := by
  have hnone : ¬(s.performLogin email password).LastFailed := by
    simp [LastFailed, LoginViewModel.performLogin, SignIn.Failed]
  have hlive : ¬s.screen.switch.disposed = true := fun hdisposed =>
    hfailed (h.disposed_iff.1 hdisposed)
  refine ⟨h.current, ?_, h.listening_eq, h.signal_eq, iff_of_false hlive hnone⟩
  simp [LoginViewModel.performLogin, SwitchSink.next, h.numbered]

/-- Everything the answer to a sign-in can do: it is superseded, or it is the answer to
the one started last, which is listened to. -/
theorem Sound.answered_cases {selfMatches : (pattern text : String) → Bool}
    {count : String → Nat} {s s' : LoginViewModel} (h : s.Sound) {i : Nat} {answer : AuthAnswer}
    (hstep : step selfMatches count s (.answered i answer) = some s') :
    ∃ signIn, s.signIns[i]? = some signIn ∧ signIn.answer = none ∧
      s'.signIns = s.signIns.set i { signIn with answer := some answer } ∧
      (i + 1 ≠ s.signIns.length ∧ s'.screen = s.screen ∧
          s'.form = { s.form with listening := !s.screen.switch.disposed } ∧
          s'.isLoginCompleted = s.isLoginCompleted ∨
        i + 1 = s.signIns.length ∧
          s'.screen.switch.latest = s.screen.switch.latest ∧
          s'.screen.switch.disposed = answer.failed ∧
          s'.screen.signal.disposed = answer.failed ∧
          s'.form = { s.form with listening := !answer.failed } ∧
          s'.isLoginCompleted = s.isLoginCompleted ++ [answer.error.isNone]) := by
  simp only [step, Option.bind_eq_bind, Option.bind_eq_some_iff, Option.guard_eq_some',
    Option.pure_def, Option.some.injEq, delivered_reports] at hstep
  rcases hstep with ⟨signIn, hget, -, hnone, rfl⟩
  refine ⟨signIn, hget, hnone, rfl, ?_⟩
  by_cases hlast : i + 1 = s.signIns.length
  · right
    have hunanswered : ¬s.LastFailed := by
      have hgetLast : s.signIns.getLast? = some signIn := by
        rw [List.getLast?_eq_getElem?, ← hget]
        congr 1
        omega
      simp [LastFailed, hgetLast, SignIn.Failed, hnone]
    have hlive : s.screen.switch.disposed = false := by
      rw [← Bool.not_eq_true, h.disposed_iff]
      exact hunanswered
    have hscreen : s.screen.Live := ⟨hlive, h.signal_eq.trans hlive⟩
    have hreceived := live_receives hscreen answer
    rw [h.numbered, ← hlast] at hreceived
    simp only [hreceived]
    cases herror : answer.error with
    | none => simp [herror, AuthAnswer.failed, hlast, hlive, hscreen.signal_live, Event.value?]
    | some error => simp [herror, AuthAnswer.failed, hlast, Event.value?]
  · left
    have hsuperseded : s.screen.switch.latest ≠ i + 1 := by
      rw [h.numbered]
      exact Ne.symm hlast
    simp [LoginScreen.isLoginCompleted_of_ne hsuperseded, hlast]

/-- Every event keeps what is known of the latest sign-in. -/
theorem sound_step {selfMatches : (pattern text : String) → Bool} {count : String → Nat}
    {s s' : LoginViewModel} {e : LoginEvent} (h : s.Sound)
    (hstep : step selfMatches count s e = some s') : s'.Sound := by
  cases e with
  | accepted field text =>
      obtain rfl : _ = s' := Option.some.inj hstep
      exact ⟨h.current.accept selfMatches count field text, h.numbered, h.listening_eq,
        h.signal_eq, h.disposed_iff⟩
  | loginButtonTapped =>
      obtain rfl : s.loginButtonTapped = s' := Option.some.inj hstep
      rw [h.loginButtonTapped]
      split
      · exact h
      · rename_i hfailed
        exact h.performLogin hfailed _ _
  | answered i answer =>
      rcases h.answered_cases hstep with ⟨signIn, hget, hnone, hsignIns, hcase⟩
      rcases hcase with ⟨hne, hscreen, hform, -⟩ |
        ⟨hlast, hlatest, hswitch, hsignal, hform, -⟩
      · have hgetLast : s'.signIns.getLast? = s.signIns.getLast? := by
          rw [hsignIns, getLast_set_of_ne (List.getElem?_eq_some_iff.1 hget).1 hne]
        refine ⟨?_, ?_, ?_, ?_, ?_⟩
        · rw [hform]
          exact ⟨h.current.latest_eq, h.current.sampled_eq⟩
        · rw [hscreen, hsignIns, List.length_set, h.numbered]
        · rw [hform, hscreen]
        · rw [hscreen, h.signal_eq]
        · rw [hscreen, h.disposed_iff, LastFailed, LastFailed, hgetLast]
      · have hgetLast : s'.signIns.getLast? = some { signIn with answer := some answer } := by
          rw [hsignIns, getLast_set_of_eq hlast]
        refine ⟨?_, ?_, ?_, ?_, ?_⟩
        · rw [hform]
          exact ⟨h.current.latest_eq, h.current.sampled_eq⟩
        · rw [hlatest, hsignIns, List.length_set, h.numbered]
        · rw [hform, hswitch]
        · rw [hsignal, hswitch]
        · simp [hswitch, LastFailed, hgetLast, SignIn.Failed]

/-! ## Which taps are served -/

/-- Only a tap behind the failure of the sign-in started last is not served. -/
theorem serves_step {selfMatches : (pattern text : String) → Bool} {count : String → Nat}
    {s s' : LoginViewModel} {e : LoginEvent} (h : s.Sound)
    (hstep : step selfMatches count s e = some s') :
    Serves s s' e ↔ (e = .loginButtonTapped → ¬s.LastFailed) := by
  cases e with
  | accepted field text =>
      obtain rfl : _ = s' := Option.some.inj hstep
      exact iff_of_true ⟨rfl, rfl⟩ (by simp)
  | loginButtonTapped =>
      obtain rfl : s.loginButtonTapped = s' := Option.some.inj hstep
      rw [h.loginButtonTapped]
      by_cases hfailed : s.LastFailed
      · simp [Serves, hfailed]
      · simp [Serves, hfailed, performLogin]
  | answered i answer =>
      rcases h.answered_cases hstep with ⟨signIn, hget, hnone, hsignIns, hcase⟩
      have hlength : s'.signIns.length = s.signIns.length := by rw [hsignIns, List.length_set]
      refine iff_of_true ⟨hlength, ?_⟩ (by simp)
      intro hlast
      rcases hcase with ⟨hne, -⟩ | ⟨-, -, -, -, -, hemitted⟩
      · exact absurd hlast hne
      · exact hemitted

/-- **Signing in again.**  In a run every tap signs in and is answered exactly when no tap
comes while the sign-in started last is a failed one. -/
theorem serves_iff (selfMatches : (pattern text : String) → Bool) (count : String → Nat)
    {es : List LoginEvent} {s : LoginViewModel}
    (hrun : run (step selfMatches count) (initial selfMatches count) es = some s) :
    StepsMeet (step selfMatches count)
        (fun s e => ∀ s' ∈ step selfMatches count s e, Serves s s' e)
        (initial selfMatches count) es ↔
      StepsMeet (step selfMatches count)
        (fun s e => e = .loginButtonTapped → ¬s.LastFailed) (initial selfMatches count) es := by
  refine stepsMeet_congr (I := Sound) (fun s e s' hs hstep => sound_step hs hstep) ?_
    (sound_initial selfMatches count) hrun
  intro a e b ha hab
  simp only [hab, Option.mem_some_iff, forall_eq']
  exact serves_step ha hab

/-- A tap whose sign-in fails after the next tap, which succeeds. -/
def tappedTwice : List LoginEvent :=
  [.accepted .email "alice@example.com", .accepted .password "mistyped", .loginButtonTapped,
   .accepted .password "longenough", .loginButtonTapped,
   .answered 0 ⟨some ⟨"wrong"⟩, none, none⟩, .answered 1 ⟨none, none, some "alice"⟩,
   .loginButtonTapped]

theorem serves_iff_tappedTwice :
    StepsMeet (step (fun _ _ => true) String.length)
      (fun s e => ∀ s' ∈ step (fun _ _ => true) String.length s e, Serves s s' e)
      (initial (fun _ _ => true) String.length) tappedTwice :=
  (serves_iff (fun _ _ => true) String.length (run_final rfl)).2 (by decide)

/-- A mistyped password is corrected after the sign-in has failed. -/
def mistyped : List LoginEvent :=
  [.accepted .email "alice@example.com", .accepted .password "mistyped", .loginButtonTapped,
   .answered 0 ⟨some ⟨"wrong"⟩, none, none⟩, .accepted .password "longenough"]

/-- The second tap starts no sign-in. -/
theorem not_serves_of_mistyped :
    ∃ s s', run (step (fun _ _ => true) String.length)
        (initial (fun _ _ => true) String.length) mistyped = some s ∧
      step (fun _ _ => true) String.length s .loginButtonTapped = some s' ∧
      s.form.fields .password = "longenough" ∧
      s'.signIns = [⟨"alice@example.com", "mistyped", some ⟨some ⟨"wrong"⟩, none, none⟩⟩] ∧
      s'.isLoginCompleted = [false] ∧ ¬Serves s s' .loginButtonTapped := by
  refine ⟨_, _, run_final rfl, rfl, by decide, by decide, by decide, ?_⟩
  intro hserves
  have hlength := congrArg List.length hserves.1
  revert hlength
  decide

end LoginViewModel

end WaffleChat
