import Mathlib.Data.Finset.Insert
import WaffleChat.Library.CombineLatest
import WaffleChat.Library.EventSystem
import WaffleChat.Extensions.EmailAddress
import WaffleChat.Service.Authentication

/-!
# The login and the registration form

`LoginViewModel` and `RegistrationViewModel` with the fields and the buttons they are
bound to.  Nothing is validated when a button is tapped: a combination of the fields
enables the button, and the tap samples a combination of the fields.  On the login form
these are two combinations, on the registration form one that is shared.

Main results:

- Theorems `LoginForm.Sound.edited` and `RegistrationForm.Sound.edited`: after every
  edit the button and the sampled values follow the fields.
- Theorem `calls_validated`: what a tap passes on is what the fields hold, and valid.
-/

namespace WaffleChat

open EventSystem Observers

/-- The requests the two forms make of `AuthManager`. -/
inductive AuthCall where
  | performLogin (email password : String)
  | performRegistration (values : Register)
deriving DecidableEq, Repr

section Validation

-- `NSPredicate(format: "SELF MATCHES %@", pattern).evaluate(with: text)`, and the number
-- of characters Swift counts in a string
variable (selfMatches : (pattern text : String) → Bool) (count : String → Nat)

/-- The values of a request pass the validation of its form. -/
def AuthCall.Valid : AuthCall → Prop
  | .performLogin email password =>
      isValidEmailAddress selfMatches email = true ∧ 6 < count password
  | .performRegistration values =>
      values.profileImage ≠ none ∧ isValidEmailAddress selfMatches values.email = true ∧
        2 < count values.fullName ∧ 2 < count values.userName ∧ 6 < count values.password

/-! ## The login form -/

/-- The text fields of `LoginController`. -/
inductive LoginField where
  | email
  | password
deriving DecidableEq, Repr

instance : Fintype LoginField where
  elems := {.email, .password}
  complete := by
    rintro ⟨⟩ <;> decide

/-- The texts of the fields; the combination behind `isValidForm`, and the button it
drives; the combination the tap samples, with its last element; and whether
`isLoginCompleted` has not ended yet. -/
structure LoginForm where
  fields : LoginField → String
  formValues : CombineLatest fun _ : LoginField => String
  isEnabled : Bool
  loginValues : CombineLatest fun _ : LoginField => String
  sampled : Option (LoginField → String)
  listening : Bool

namespace LoginForm

/-- The predicate `isValidForm` maps its combination with. -/
def isValidForm (values : LoginField → String) : Bool :=
  isValidEmailAddress selfMatches (values .email) && decide (count (values .password) > 6)

/-- The subject of a field emits. -/
def accept (s : LoginForm) (field : LoginField) (text : String) : LoginForm :=
  let validated := s.formValues.on field text
  let combined := s.loginValues.on field text
  { s with
    formValues := validated.1
    isEnabled := validated.2.elim s.isEnabled (isValidForm selfMatches count)
    loginValues := combined.1
    sampled := combined.2.or s.sampled }

/-- All texts are empty, and nothing is subscribed. -/
def blank : LoginForm where
  fields := fun _ => ""
  formValues := .fresh
  isEnabled := false
  loginValues := .fresh
  sampled := none
  listening := true

/-- A new form: its subjects hold `""`, which each combination hears when it is
subscribed. -/
def create : LoginForm :=
  (blank.accept selfMatches count .email "").accept selfMatches count .password ""

/-- The text of a field is edited; `distinctUntilChanged` drops a text that is the one
before. -/
def edited (s : LoginForm) (field : LoginField) (text : String) : LoginForm :=
  if text = s.fields field then s
  else
    { s with fields := Function.update s.fields field text }.accept selfMatches count field text

/-- `loginButtonTapped.withLatestFrom(…).flatMapLatest(…)`. -/
def tapped (s : LoginForm) : Option AuthCall :=
  if s.listening then
    s.sampled.map fun values => .performLogin (values .email) (values .password)
  else none

/-- The button and the sampled values follow the fields. -/
structure Sound (s : LoginForm) : Prop where
  formValues : s.formValues.Reflects s.fields
  loginValues : s.loginValues.Reflects s.fields
  isEnabled_eq : s.isEnabled = s.formValues.current.elim false (isValidForm selfMatches count)
  sampled_eq : s.sampled = s.loginValues.current

variable {selfMatches count}

/-- A text that is accepted is judged. -/
theorem Sound.accept {s : LoginForm} (h : s.Sound selfMatches count) (field : LoginField)
    (text : String) :
    ({ s with fields := Function.update s.fields field text }.accept selfMatches count
      field text).Sound selfMatches count := by
  constructor
  · exact h.formValues.on field text
  · exact h.loginValues.on field text
  · have hcurrent := CombineLatest.emitted_or_current s.formValues field text
    simp only [LoginForm.accept, CombineLatest.current_on, h.isEnabled_eq]
    cases hemitted : (s.formValues.on field text).2 with
    | some values => rfl
    | none =>
        rw [hemitted, Option.none_or] at hcurrent
        rw [hcurrent]
        rfl
  · simp only [LoginForm.accept, CombineLatest.current_on, h.sampled_eq]
    exact CombineLatest.emitted_or_current s.loginValues field text

/-- A subject may emit what its field holds already. -/
theorem Sound.accept_same {s : LoginForm} (h : s.Sound selfMatches count) (field : LoginField) :
    (s.accept selfMatches count field (s.fields field)).Sound selfMatches count := by
  have hsame := h.accept field (s.fields field)
  rwa [Function.update_eq_self] at hsame

/-- An empty form is not valid. -/
theorem sound_create : (create selfMatches count).Sound selfMatches count := by
  have hblank : blank.Sound selfMatches count :=
    ⟨CombineLatest.reflects_fresh _, CombineLatest.reflects_fresh _, rfl, rfl⟩
  exact (hblank.accept_same .email).accept_same .password

/-- Every edit is judged. -/
theorem Sound.edited {s : LoginForm} (h : s.Sound selfMatches count) (field : LoginField)
    (text : String) : (s.edited selfMatches count field text).Sound selfMatches count := by
  unfold LoginForm.edited
  split
  · exact h
  · exact h.accept field text

/-- What the tap of the enabled button passes on. -/
theorem Sound.tapped {s : LoginForm} (h : s.Sound selfMatches count)
    (henabled : s.isEnabled = true) {call : AuthCall} (hcall : call ∈ s.tapped) :
    call = .performLogin (s.fields .email) (s.fields .password) ∧
      call.Valid selfMatches count := by
  rw [h.isEnabled_eq] at henabled
  cases hcurrent : s.formValues.current with
  | none =>
      rw [hcurrent] at henabled
      cases henabled
  | some values =>
      obtain rfl := h.formValues.current_eq hcurrent
      simp only [hcurrent, Option.elim, isValidForm, Bool.and_eq_true, decide_eq_true_eq]
        at henabled
      have hmade : call = .performLogin (s.fields .email) (s.fields .password) := by
        unfold LoginForm.tapped at hcall
        split at hcall
        · rcases Option.map_eq_some_iff.1 hcall with ⟨sampled, hsampled, rfl⟩
          rw [h.sampled_eq] at hsampled
          rw [h.loginValues.current_eq hsampled]
        · cases hcall
      refine ⟨hmade, ?_⟩
      rw [hmade]
      exact henabled

end LoginForm

/-! ## The registration form -/

/-- The sources `registrationValues` combines. -/
inductive RegistrationField where
  | profileImage
  | email
  | fullName
  | userName
  | password
deriving DecidableEq, Repr

instance : Fintype RegistrationField where
  elems := {.profileImage, .email, .fullName, .userName, .password}
  complete := by
    rintro ⟨⟩ <;> decide

/-- The elements of the relay of a field: `UIImage?` or `String`. -/
def RegistrationField.Element : RegistrationField → Type
  | .profileImage => Option (List UInt8)
  | .email => String
  | .fullName => String
  | .userName => String
  | .password => String

instance : ∀ field : RegistrationField, DecidableEq field.Element
  | .profileImage => inferInstanceAs (DecidableEq (Option (List UInt8)))
  | .email => inferInstanceAs (DecidableEq String)
  | .fullName => inferInstanceAs (DecidableEq String)
  | .userName => inferInstanceAs (DecidableEq String)
  | .password => inferInstanceAs (DecidableEq String)

/-- The tuple of a combination. -/
def registrationOf (values : ∀ field : RegistrationField, field.Element) : Register where
  profileImage := values .profileImage
  email := values .email
  fullName := values .fullName
  userName := values .userName
  password := values .password

/-- The image picked last and the texts of the fields; the shared combination, the button
it drives and the element of it the tap would sample. -/
structure RegistrationForm where
  fields : ∀ field : RegistrationField, field.Element
  registrationValues : CombineLatest RegistrationField.Element
  isEnabled : Bool
  sampled : Option (∀ field : RegistrationField, field.Element)

namespace RegistrationForm

/-- The predicate `isFormValid` maps the combination with. -/
def isFormValid (values : ∀ field : RegistrationField, field.Element) : Bool :=
  let values := registrationOf values
  decide (values.profileImage ≠ none) && isValidEmailAddress selfMatches values.email &&
    decide (count values.fullName > 2) && decide (count values.userName > 2) &&
    decide (count values.password > 6)

/-- The relay of a field emits. -/
def accept (s : RegistrationForm) (field : RegistrationField) (value : field.Element) :
    RegistrationForm :=
  let combined := s.registrationValues.on field value
  { s with
    registrationValues := combined.1
    isEnabled := combined.2.elim s.isEnabled (isFormValid selfMatches count)
    sampled := combined.2.or s.sampled }

/-- No image has been picked, all texts are empty, and no relay has emitted. -/
def blank : RegistrationForm where
  fields
    | .profileImage => none
    | .email => ""
    | .fullName => ""
    | .userName => ""
    | .password => ""
  registrationValues := .fresh
  isEnabled := false
  sampled := none

/-- A new form: `bind` hands the empty texts to their relays. -/
def create : RegistrationForm :=
  (((blank.accept selfMatches count .email "").accept selfMatches count .fullName "").accept
    selfMatches count .userName "").accept selfMatches count .password ""

/-- A text is edited or an image is picked, which may be `nil`; `distinctUntilChanged`
drops a text that is the one before. -/
def edited (s : RegistrationForm) (field : RegistrationField) (value : field.Element) :
    RegistrationForm :=
  if field ≠ .profileImage ∧ value = s.fields field then s
  else
    { s with fields := Function.update s.fields field value }.accept selfMatches count field value

/-- `signupButtonTapped.withLatestFrom(registrationValues)`; no registration ends the
subscription. -/
def tapped (s : RegistrationForm) : Option AuthCall :=
  s.sampled.map fun values => .performRegistration (registrationOf values)

/-- The button and the sampled values follow the fields. -/
structure Sound (s : RegistrationForm) : Prop where
  registrationValues : s.registrationValues.Reflects s.fields
  isEnabled_eq :
    s.isEnabled = s.registrationValues.current.elim false (isFormValid selfMatches count)
  sampled_eq : s.sampled = s.registrationValues.current

variable {selfMatches count}

/-- A value that is accepted is judged. -/
theorem Sound.accept {s : RegistrationForm} (h : s.Sound selfMatches count)
    (field : RegistrationField) (value : field.Element) :
    ({ s with fields := Function.update s.fields field value }.accept selfMatches count
      field value).Sound selfMatches count := by
  have hcurrent := CombineLatest.emitted_or_current s.registrationValues field value
  constructor
  · exact h.registrationValues.on field value
  · simp only [RegistrationForm.accept, CombineLatest.current_on, h.isEnabled_eq]
    cases hemitted : (s.registrationValues.on field value).2 with
    | some values => rfl
    | none =>
        rw [hemitted, Option.none_or] at hcurrent
        rw [hcurrent]
        rfl
  · simp only [RegistrationForm.accept, CombineLatest.current_on, h.sampled_eq]
    exact hcurrent

/-- A relay may emit what its field holds already. -/
theorem Sound.accept_same {s : RegistrationForm} (h : s.Sound selfMatches count)
    (field : RegistrationField) :
    (s.accept selfMatches count field (s.fields field)).Sound selfMatches count := by
  have hsame := h.accept field (s.fields field)
  rwa [Function.update_eq_self] at hsame

/-- An empty form is not valid. -/
theorem sound_create : (create selfMatches count).Sound selfMatches count := by
  have hblank : blank.Sound selfMatches count :=
    ⟨CombineLatest.reflects_fresh _, rfl, rfl⟩
  exact (((hblank.accept_same .email).accept_same .fullName).accept_same .userName).accept_same
    .password

/-- Every edit is judged. -/
theorem Sound.edited {s : RegistrationForm} (h : s.Sound selfMatches count)
    (field : RegistrationField) (value : field.Element) :
    (s.edited selfMatches count field value).Sound selfMatches count := by
  unfold RegistrationForm.edited
  split
  · exact h
  · exact h.accept field value

/-- What the tap of the enabled button passes on. -/
theorem Sound.tapped {s : RegistrationForm} (h : s.Sound selfMatches count)
    (henabled : s.isEnabled = true) {call : AuthCall} (hcall : call ∈ s.tapped) :
    call = .performRegistration (registrationOf s.fields) ∧ call.Valid selfMatches count := by
  rw [h.isEnabled_eq] at henabled
  rcases Option.map_eq_some_iff.1 hcall with ⟨sampled, hsampled, rfl⟩
  rw [h.sampled_eq] at hsampled
  rw [hsampled] at henabled
  obtain rfl := h.registrationValues.current_eq hsampled
  refine ⟨rfl, ?_⟩
  simp only [Option.elim, isFormValid, Bool.and_eq_true, decide_eq_true_eq] at henabled
  rcases henabled with ⟨⟨⟨⟨himage, hemail⟩, hfullName⟩, huserName⟩, hpassword⟩
  exact ⟨himage, hemail, hfullName, huserName, hpassword⟩

end RegistrationForm

/-! ## Both forms -/

/-- The forms on the screen, and the requests made so far. -/
structure AuthForms where
  login : LoginForm
  registration : Option RegistrationForm
  calls : List AuthCall

/-- What can happen. -/
inductive AuthFormsEvent where
  /-- `switchToLoginVC` puts up new screens. -/
  | loginShown
  | loginEdited (field : LoginField) (text : String)
  | loginButtonTapped
  /-- The sign-in listened to fails, which ends `isLoginCompleted`. -/
  | loginFailed
  | goToSignUpPageTapped
  | registrationEdited (field : RegistrationField) (value : field.Element)
  | signUpButtonTapped
  | goToLoginPageTapped

namespace AuthForms

/-- The login screen right after it is put up. -/
def initial : AuthForms where
  login := .create selfMatches count
  registration := none
  calls := []

/-- One event; a disabled button cannot be tapped. -/
def step (s : AuthForms) : AuthFormsEvent → Option AuthForms
  | .loginShown => some { s with login := .create selfMatches count, registration := none }
  | .loginEdited field text =>
      some { s with login := s.login.edited selfMatches count field text }
  | .loginButtonTapped =>
      if s.login.isEnabled then some { s with calls := s.calls ++ s.login.tapped.toList }
      else none
  | .loginFailed => some { s with login := { s.login with listening := false } }
  | .goToSignUpPageTapped => some { s with registration := some (.create selfMatches count) }
  | .registrationEdited field value => do
      let form ← s.registration
      return { s with registration := some (form.edited selfMatches count field value) }
  | .signUpButtonTapped => do
      let form ← s.registration
      guard form.isEnabled
      return { s with calls := s.calls ++ form.tapped.toList }
  | .goToLoginPageTapped => some { s with registration := none }

/-- The request with the values the fields hold at a tap. -/
def fieldValues (s : AuthForms) : AuthFormsEvent → Option AuthCall
  | .loginButtonTapped =>
      some (.performLogin (s.login.fields .email) (s.login.fields .password))
  | .signUpButtonTapped =>
      s.registration.map fun form => .performRegistration (registrationOf form.fields)
  | _ => none

/-- Both forms are sound. -/
structure Sound (s : AuthForms) : Prop where
  login : s.login.Sound selfMatches count
  registration : ∀ form ∈ s.registration, form.Sound selfMatches count

variable {selfMatches count}

/-- Whatever is edited or tapped, both forms know what they hold. -/
theorem Sound.step {s s' : AuthForms} {e : AuthFormsEvent} (h : s.Sound selfMatches count)
    (hstep : AuthForms.step selfMatches count s e = some s') : s'.Sound selfMatches count := by
  cases e with
  | loginShown =>
      obtain rfl : { s with login := .create selfMatches count, registration := none } = s' :=
        Option.some.inj hstep
      exact ⟨LoginForm.sound_create, by simp⟩
  | loginEdited field text =>
      obtain rfl : { s with login := s.login.edited selfMatches count field text } = s' :=
        Option.some.inj hstep
      exact ⟨h.login.edited field text, h.registration⟩
  | loginButtonTapped =>
      simp only [AuthForms.step, Option.ite_none_right_eq_some, Option.some.injEq] at hstep
      rcases hstep with ⟨-, rfl⟩
      exact ⟨h.login, h.registration⟩
  | loginFailed =>
      obtain rfl : { s with login := { s.login with listening := false } } = s' :=
        Option.some.inj hstep
      exact ⟨⟨h.login.formValues, h.login.loginValues, h.login.isEnabled_eq,
        h.login.sampled_eq⟩, h.registration⟩
  | goToSignUpPageTapped =>
      obtain rfl : { s with registration := some (.create selfMatches count) } = s' :=
        Option.some.inj hstep
      refine ⟨h.login, ?_⟩
      rintro _ ⟨⟩
      exact RegistrationForm.sound_create
  | registrationEdited field value =>
      simp only [AuthForms.step, bind_pure_eq_some] at hstep
      rcases hstep with ⟨form, hform, rfl⟩
      refine ⟨h.login, ?_⟩
      rintro _ ⟨⟩
      exact (h.registration form hform).edited field value
  | signUpButtonTapped =>
      simp only [AuthForms.step, Option.bind_eq_bind, Option.bind_eq_some_iff, Option.pure_def,
        Option.some.injEq] at hstep
      rcases hstep with ⟨form, hform, -, -, rfl⟩
      exact ⟨h.login, h.registration⟩
  | goToLoginPageTapped =>
      obtain rfl : { s with registration := none } = s' := Option.some.inj hstep
      exact ⟨h.login, by simp⟩

/-- In every reachable state they do. -/
theorem sound_of_reachable {s : AuthForms}
    (hreach : Reachable (step selfMatches count) (initial selfMatches count) s) :
    s.Sound selfMatches count :=
  hreach.invariant (fun _ _ _ _ h hstep => h.step hstep)
    ⟨LoginForm.sound_create, by simp [initial]⟩

/-- **Only validated input is passed on.**  In every run, each request made is made with
the values the fields hold at that tap, and they pass the validation of their form. -/
theorem calls_validated {s s' : AuthForms} {e : AuthFormsEvent}
    (hreach : Reachable (step selfMatches count) (initial selfMatches count) s)
    (hstep : step selfMatches count s e = some s') :
    ∃ made : List AuthCall, s'.calls = s.calls ++ made ∧
      ∀ call ∈ made, s.fieldValues e = some call ∧ call.Valid selfMatches count := by
  have h := sound_of_reachable hreach
  have hquiet : s'.calls = s.calls →
      ∃ made : List AuthCall, s'.calls = s.calls ++ made ∧
        ∀ call ∈ made, s.fieldValues e = some call ∧ call.Valid selfMatches count :=
    fun heq => ⟨[], by simp [heq], by simp⟩
  cases e with
  | loginShown => exact hquiet (by rw [← Option.some.inj hstep])
  | loginEdited field text => exact hquiet (by rw [← Option.some.inj hstep])
  | loginButtonTapped =>
      simp only [step, Option.ite_none_right_eq_some, Option.some.injEq] at hstep
      rcases hstep with ⟨henabled, rfl⟩
      refine ⟨s.login.tapped.toList, rfl, ?_⟩
      intro call hcall
      rcases h.login.tapped henabled (Option.mem_toList.1 hcall) with ⟨hmade, hvalid⟩
      exact ⟨congrArg some hmade.symm, hvalid⟩
  | loginFailed => exact hquiet (by rw [← Option.some.inj hstep])
  | goToSignUpPageTapped => exact hquiet (by rw [← Option.some.inj hstep])
  | registrationEdited field value =>
      simp only [step, bind_pure_eq_some] at hstep
      rcases hstep with ⟨form, hform, rfl⟩
      exact hquiet rfl
  | signUpButtonTapped =>
      simp only [step, Option.bind_eq_bind, Option.bind_eq_some_iff, Option.guard_eq_some',
        Option.pure_def, Option.some.injEq] at hstep
      rcases hstep with ⟨form, hform, -, henabled, rfl⟩
      refine ⟨form.tapped.toList, rfl, ?_⟩
      intro call hcall
      rcases (h.registration form hform).tapped henabled (Option.mem_toList.1 hcall) with
        ⟨hmade, hvalid⟩
      refine ⟨?_, hvalid⟩
      rw [hmade]
      exact congrArg (Option.map _) hform
  | goToLoginPageTapped => exact hquiet (by rw [← Option.some.inj hstep])

/-- A form is filled in, with a `nil` image picked first. -/
def filledIn : List AuthFormsEvent :=
  [.loginEdited .email "alice@example.com", .goToSignUpPageTapped,
   .registrationEdited .email "alice@example.com", .registrationEdited .fullName "Alice",
   .registrationEdited .profileImage none, .registrationEdited .userName "Ali",
   .registrationEdited .password "longenough", .registrationEdited .profileImage (some [1])]

theorem calls_validated_filledIn :
    ∃ s s', run (step (fun _ text => text = "alice@example.com") String.length)
        (initial (fun _ text => text = "alice@example.com") String.length) filledIn = some s ∧
      step (fun _ text => text = "alice@example.com") String.length s .signUpButtonTapped =
        some s' ∧
      s'.calls ≠ [] ∧
      ∃ made : List AuthCall, s'.calls = s.calls ++ made ∧
        ∀ call ∈ made, s.fieldValues .signUpButtonTapped = some call ∧
          call.Valid (fun _ text => text = "alice@example.com") String.length :=
  ⟨_, _, run_final rfl, rfl, by decide, calls_validated (reachable_final rfl) rfl⟩

end AuthForms

end Validation

end WaffleChat
