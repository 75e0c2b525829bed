import WaffleChat.Library.EventSystem
import WaffleChat.Service.Authentication

/-!
# The registration screen

`RegistrationViewModel`: every tap on the sign-up button starts an attempt and
supersedes the one before it; the requests of all attempts go on side by side, but
only the latest one reports.

Main results:

- Theorem `reachable_sound`: besides those there were before, the accounts are those
  the attempts have created, one for each email.
- Theorem `blocked_of_false`: an attempt that fails after it has created an account
  blocks its email for good.
- Theorem `attempt_result`: what an attempt that has reported leaves behind.
-/

namespace WaffleChat

open CallbackProgram EventSystem Observers

/-- A tap on the sign-up button: the values of the form, and the file name the
attempt will draw for the image. -/
structure SignUp where
  values : Register
  filename : String
deriving DecidableEq, Repr

/-- A started attempt. -/
abbrev Attempt := Task SignUp AuthRequest AuthAnswer

/-- Firebase, the attempts started so far, the sink of `flatMapLatest`, and what
`isRegistering` and `isRegistered` have emitted, the latter with the number of the
attempt. -/
structure Registrations where
  firebase : Firebase
  attempts : List Attempt
  switch : SwitchSink
  isRegistering : List Bool
  isRegistered : List (Nat × Bool)

/-- What can happen next. -/
inductive RegistrationEvent where
  /-- `signupButtonTapped` with complete form values. -/
  | signUp (job : SignUp)
  /-- The awaited request of attempt `i` is carried out and its handler runs. -/
  | callback (i : Nat) (outcome : Outcome)
deriving DecidableEq, Repr

namespace Registrations

variable (lowercased : String → String)

/-- The program an attempt runs. -/
def program (job : SignUp) : AuthProgram :=
  performRegistration lowercased job.filename job.values

/-- No attempts, and whatever Firebase holds already. -/
def initial (firebase : Firebase) : Registrations where
  firebase := firebase
  attempts := []
  switch := .fresh
  isRegistering := []
  isRegistered := []

/-- The `onNext` handler of the view model, for an event of attempt `i`. -/
def onNext (i : Nat) (s : Registrations) : Event BackendError Bool → Registrations
  | .next value =>
      { s with
        isRegistering := s.isRegistering ++ [false]
        isRegistered := s.isRegistered ++ [(i, value)] }
  | _ => s

/-- One event; nobody listens to taps any more once the pipeline has ended. -/
def step (s : Registrations) : RegistrationEvent → Option Registrations
  | .signUp job =>
      if s.switch.disposed then some s
      else
        some
          { s with
            attempts := s.attempts ++ [Task.start (program lowercased) job]
            switch := s.switch.next
            isRegistering := s.isRegistering ++ [true] }
  | .callback i outcome => do
      let t ← s.attempts[i]?
      let request ← t.undecided (program lowercased)
      let (firebase, answer) ← s.firebase.answer request outcome
      let t' ← (t.arrive answer).handle (program lowercased)
      let delivered := feed (fun sink event => sink.inner (i + 1) event) s.switch
        (t'.current (program lowercased)).emitted
      return delivered.2.foldl (onNext i)
        { s with
          firebase := firebase
          attempts := s.attempts.set i t'
          switch := delivered.1 }

/-! ## The effect of one event -/

/-- What the handler's events do to the view model. -/
theorem foldl_onNext (i : Nat) (s : Registrations) (events : List (Event BackendError Bool)) :
    events.foldl (onNext i) s =
      { s with
        isRegistering := s.isRegistering ++ (events.filterMap Event.value?).map fun _ => false
        isRegistered := s.isRegistered ++ (events.filterMap Event.value?).map (Prod.mk i) } := by
  induction events generalizing s with
  | nil => simp
  | cons event events ih => cases event <;> simp [ih, onNext, List.filterMap_cons, Event.value?]

/-- A tap has started an attempt. -/
structure SignedUp (s s' : Registrations) (job : SignUp) : Prop where
  live : s.switch.disposed = false
  firebase_eq : s'.firebase = s.firebase
  attempts_eq : s'.attempts = s.attempts ++ [Task.start (program lowercased) job]
  switch_eq : s'.switch = s.switch.next
  isRegistering_eq : s'.isRegistering = s.isRegistering ++ [true]
  isRegistered_eq : s'.isRegistered = s.isRegistered

/-- What passes the sink of what the last handler of attempt `i` has handed over. -/
def delivered (s : Registrations) (i : Nat) (t' : Attempt) :
    SwitchSink × List (Event BackendError Bool) :=
  feed (fun sink event => sink.inner (i + 1) event) s.switch
    (t'.current (program lowercased)).emitted

/-- The values among them. -/
def deliveredValues (s : Registrations) (i : Nat) (t' : Attempt) : List Bool :=
  (delivered lowercased s i t').2.filterMap Event.value?

/-- The handler of attempt `i` has run. -/
structure Answered (s s' : Registrations) (i : Nat) (t t' : Attempt) (request : AuthRequest)
    (outcome : Outcome) (answer : AuthAnswer) : Prop where
  get : s.attempts[i]? = some t
  request_eq : t.undecided (program lowercased) = some request
  firebase_eq : s.firebase.answer request outcome = some (s'.firebase, answer)
  task_eq : (t.arrive answer).handle (program lowercased) = some t'
  attempts_eq : s'.attempts = s.attempts.set i t'
  switch_eq : s'.switch = (delivered lowercased s i t').1
  isRegistering_eq : s'.isRegistering =
    s.isRegistering ++ (deliveredValues lowercased s i t').map fun _ => false
  isRegistered_eq : s'.isRegistered =
    s.isRegistered ++ (deliveredValues lowercased s i t').map (Prod.mk i)

/-- Everything one event can do. -/
theorem step_cases {s s' : Registrations} {e : RegistrationEvent}
    (h : step lowercased s e = some s') :
    (∃ job, e = .signUp job ∧ s.switch.disposed = true ∧ s' = s) ∨
    (∃ job, e = .signUp job ∧ SignedUp lowercased s s' job) ∨
    (∃ i outcome t t' request answer, e = .callback i outcome ∧
      Answered lowercased s s' i t t' request outcome answer) := by
  cases e with
  | signUp job =>
      cases hdisposed : s.switch.disposed with
      | true =>
          simp only [step, hdisposed, if_true, Option.some.injEq] at h
          exact Or.inl ⟨job, rfl, rfl, h.symm⟩
      | false =>
          simp only [step, hdisposed, Bool.false_eq_true, if_false, Option.some.injEq] at h
          obtain rfl := h
          exact Or.inr (Or.inl ⟨job, rfl, hdisposed, rfl, rfl, rfl, rfl, rfl⟩)
  | callback i outcome =>
      right; right
      simp only [step, Option.bind_eq_bind, Option.bind_eq_some_iff, Option.pure_def,
        Option.some.injEq, foldl_onNext] at h
      rcases h with ⟨t, hget, request, hrequest, ⟨firebase, answer⟩, hanswer, t', ht', rfl⟩
      exact ⟨i, outcome, t, t', request, answer, rfl, hget, hrequest, hanswer, ht', rfl, rfl, rfl,
        rfl⟩

/-- Only values the attempt has handed over are delivered. -/
theorem mem_outputs_of_mem_deliveredValues {s : Registrations} {i : Nat} {t t' : Attempt}
    (h : t.handle (program lowercased) = some t') {value : Bool}
    (hvalue : value ∈ deliveredValues lowercased s i t') :
    .next value ∈ t'.outputs (program lowercased) := by
  rcases List.mem_filterMap.1 hvalue with ⟨event, hevent, hvalue⟩
  rw [Event.value_eq_some_iff.1 hvalue] at hevent
  exact Task.mem_outputs_of_emitted h (SwitchSink.mem_feed_inner hevent)

/-- The answer a handler has consumed is its attempt's last one. -/
theorem Answered.answers_eq {s s' : Registrations} {i : Nat} {t t' : Attempt}
    {request : AuthRequest} {outcome : Outcome} {answer : AuthAnswer}
    (h : Answered lowercased s s' i t t' request outcome answer) :
    t'.answers = t.answers ++ [answer] ∧ t'.job = t.job ∧ s'.attempts[i]? = some t' := by
  have hget : s'.attempts[i]? = some t' := by
    rw [h.attempts_eq]
    simp [(List.getElem?_eq_some_iff.1 h.get).1]
  rcases Task.handle_eq_some_iff.1 h.task_eq with ⟨-, resp, harrived, ht'⟩
  obtain rfl : answer = resp := Option.some.inj harrived
  refine ⟨?_, ?_, hget⟩
  · rw [ht']
    rfl
  · rw [ht']
    rfl

/-- Attempts keep their numbers and their values, and answers are never taken back. -/
theorem attempt_step {s s' : Registrations} {e : RegistrationEvent}
    (hstep : step lowercased s e = some s') {i : Nat} {t : Attempt}
    (hget : s.attempts[i]? = some t) :
    ∃ t', s'.attempts[i]? = some t' ∧ t'.job = t.job ∧ t.answers <+: t'.answers := by
  rcases step_cases lowercased hstep with ⟨-, -, -, rfl⟩ | ⟨job, -, hsigned⟩ |
    ⟨j, outcome, t₁, t₂, request, answer, -, hanswered⟩
  · exact ⟨t, hget, rfl, List.prefix_refl _⟩
  · have hlt := (List.getElem?_eq_some_iff.1 hget).1
    exact ⟨t, by rw [hsigned.attempts_eq, List.getElem?_append_left hlt]; exact hget, rfl,
      List.prefix_refl _⟩
  · rcases hanswered.answers_eq with ⟨hanswers, hjob, hget'⟩
    by_cases hij : j = i
    · subst hij
      obtain rfl : t = t₁ := Option.some.inj (hget.symm.trans hanswered.get)
      exact ⟨t₂, hget', hjob, by rw [hanswers]; exact List.prefix_append _ _⟩
    · refine ⟨t, ?_, rfl, List.prefix_refl _⟩
      rw [hanswered.attempts_eq, List.getElem?_set_ne hij]
      exact hget

/-! ## Accounts -/

/-- The account an attempt has created: the user signed in when its `createUser` has
succeeded. -/
def created (t : Attempt) : Option Uid :=
  match t.answers with
  | [] => none
  | answer :: _ => if answer.failed then none else answer.currentUid

/-- Attempt `i` has created the account `uid` for `email`. -/
def CreatedBy (s : Registrations) (i : Nat) (email : String) (uid : Uid) : Prop :=
  ∃ t, s.attempts[i]? = some t ∧ created t = some uid ∧ t.job.values.email = email

/-- Later answers do not change which account an attempt has created. -/
theorem created_eq_of_isPrefix {t t' : Attempt} (h : t.answers <+: t'.answers)
    (hne : t.answers ≠ []) : created t' = created t := by
  rcases h with ⟨rest, hrest⟩
  unfold created
  rw [← hrest]
  cases hanswers : t.answers with
  | nil => exact absurd hanswers hne
  | cons answer answers => rfl

/-- A registration asks for an account first, and only then. -/
theorem createUser_iff {t : Attempt} {request : AuthRequest}
    (h : t.undecided (program lowercased) = some request) :
    (t.answers = [] ∧ request = .createUser t.job.values.email t.job.values.password) ∨
      (t.answers ≠ [] ∧ ∀ email password, request ≠ .createUser email password) :=
  Register.createUser_iff lowercased (Task.undecided_eq_some_iff.1 h).2

/-- Starting an attempt ascribes no account to it. -/
theorem createdBy_signUp {s s' : Registrations} {job : SignUp}
    (h : s'.attempts = s.attempts ++ [Task.start (program lowercased) job]) (j : Nat)
    (email : String) (uid : Uid) : s'.CreatedBy j email uid ↔ s.CreatedBy j email uid := by
  unfold CreatedBy
  rw [h]
  constructor
  · rintro ⟨t, hget, hcreated, hemail⟩
    rw [List.getElem?_append] at hget
    split at hget
    · exact ⟨t, hget, hcreated, hemail⟩
    · rw [List.mem_singleton.1 (List.mem_of_getElem? hget)] at hcreated
      simp [created, Task.start] at hcreated
  · rintro ⟨t, hget, hcreated, hemail⟩
    have hlt := (List.getElem?_eq_some_iff.1 hget).1
    exact ⟨t, by rw [List.getElem?_append_left hlt]; exact hget, hcreated, hemail⟩

/-- The accounts ascribed to the attempts after the handler of one of them has run. -/
theorem Answered.createdBy_iff {s s' : Registrations} {i : Nat} {t t' : Attempt}
    {request : AuthRequest} {outcome : Outcome} {answer : AuthAnswer}
    (h : Answered lowercased s s' i t t' request outcome answer) (j : Nat) (email : String)
    (uid : Uid) :
    s'.CreatedBy j email uid ↔
      (j ≠ i ∧ s.CreatedBy j email uid) ∨
        (j = i ∧ created t' = some uid ∧ t.job.values.email = email) := by
  rcases h.answers_eq with ⟨-, hjob, hget'⟩
  unfold CreatedBy
  by_cases hji : j = i
  · subst hji
    simp [hget', hjob]
  · rw [h.attempts_eq, List.getElem?_set_ne (Ne.symm hji)]
    simp [hji]

/-- An attempt has created the account of its own answer. -/
theorem createdBy_self {s : Registrations} {i : Nat} {t : Attempt}
    (hget : s.attempts[i]? = some t) (email : String) (uid : Uid) :
    s.CreatedBy i email uid ↔ created t = some uid ∧ t.job.values.email = email := by
  simp [CreatedBy, hget]

/-- A handler that does not change what its attempt has created ascribes nothing new. -/
theorem Answered.createdBy_iff_of_created_eq {s s' : Registrations} {i : Nat} {t t' : Attempt}
    {request : AuthRequest} {outcome : Outcome} {answer : AuthAnswer}
    (h : Answered lowercased s s' i t t' request outcome answer)
    (hcreated : created t' = created t) (j : Nat) (email : String) (uid : Uid) :
    s'.CreatedBy j email uid ↔ s.CreatedBy j email uid := by
  rw [h.createdBy_iff, hcreated]
  by_cases hji : j = i
  · simp [hji, createdBy_self h.get]
  · simp [hji]

/-- A handler that creates its attempt's account ascribes it to the attempt. -/
theorem Answered.createdBy_iff_of_created {s s' : Registrations} {i : Nat} {t t' : Attempt}
    {request : AuthRequest} {outcome : Outcome} {answer : AuthAnswer}
    (h : Answered lowercased s s' i t t' request outcome answer) {uid : Uid}
    (hnone : created t = none) (hcreated : created t' = some uid) (j : Nat) (email' : String)
    (uid' : Uid) :
    s'.CreatedBy j email' uid' ↔
      s.CreatedBy j email' uid' ∨ (j = i ∧ email' = t.job.values.email ∧ uid' = uid) := by
  rw [h.createdBy_iff]
  by_cases hji : j = i
  · subst hji
    simp [createdBy_self h.get, hcreated, hnone, eq_comm, and_comm]
  · simp [hji]

/-- An event makes one account and ascribes it to its attempt, or none. -/
theorem createdBy_step {s s' : Registrations} {e : RegistrationEvent}
    (hstep : step lowercased s e = some s') :
    (s'.firebase.accounts = s.firebase.accounts ∧
      ∀ j email uid, s'.CreatedBy j email uid ↔ s.CreatedBy j email uid) ∨
    (∃ i email uid, s.firebase.Unused email uid ∧
      s'.firebase.accounts = s.firebase.accounts ++ [(email, uid)] ∧
      ∀ j email' uid', s'.CreatedBy j email' uid' ↔
        s.CreatedBy j email' uid' ∨ (j = i ∧ email' = email ∧ uid' = uid)) := by
  rcases step_cases lowercased hstep with ⟨-, -, -, rfl⟩ | ⟨job, -, hsigned⟩ |
    ⟨i, outcome, t, t', request, answer, -, h⟩
  · exact Or.inl ⟨rfl, fun _ _ _ => Iff.rfl⟩
  · exact Or.inl ⟨by rw [hsigned.firebase_eq], createdBy_signUp lowercased hsigned.attempts_eq⟩
  · rcases h.answers_eq with ⟨hanswers, -, -⟩
    rcases createUser_iff lowercased h.request_eq with ⟨hnil, rfl⟩ | ⟨hne, hrequest⟩
    · have hnone : created t = none := by simp [created, hnil]
      rcases Firebase.answer_createUser h.firebase_eq with ⟨hfailed, hfirebase⟩ |
        ⟨uid, hunused, hok, haccounts⟩
      · have hcreated : created t' = none := by simp [created, hanswers, hnil, hfailed]
        exact Or.inl ⟨by rw [hfirebase],
          h.createdBy_iff_of_created_eq lowercased (hcreated.trans hnone.symm)⟩
      · have hcreated : created t' = some uid := by
          simp [created, hanswers, hnil, hok, AuthAnswer.failed]
        exact Or.inr ⟨i, t.job.values.email, uid, hunused, haccounts,
          h.createdBy_iff_of_created lowercased hnone hcreated⟩
    · have hcreated : created t' = created t :=
        created_eq_of_isPrefix (by rw [hanswers]; exact List.prefix_append _ _) hne
      exact Or.inl ⟨Firebase.accounts_answer h.firebase_eq hrequest,
        h.createdBy_iff_of_created_eq lowercased hcreated⟩

/-- Besides those there were before, the accounts are those the attempts have
created, one for each email; reports come from the attempts they are ascribed to. -/
structure Sound (before : List (String × Uid)) (s : Registrations) : Prop where
  accounts_iff : ∀ email uid,
    (email, uid) ∈ s.firebase.accounts ↔
      (email, uid) ∈ before ∨ ∃ i, s.CreatedBy i email uid
  unique : ∀ {i j email uid uid'}, s.CreatedBy i email uid → s.CreatedBy j email uid' → i = j
  reported : ∀ i value, (i, value) ∈ s.isRegistered →
    ∃ t, s.attempts[i]? = some t ∧ .next value ∈ t.outputs (program lowercased)

/-- Every account is an old one or created by one attempt. -/
theorem sound_accounts_step {before : List (String × Uid)} {s s' : Registrations}
    {e : RegistrationEvent} (h : s.Sound lowercased before)
    (hstep : step lowercased s e = some s') :
    (∀ email uid, (email, uid) ∈ s'.firebase.accounts ↔
        (email, uid) ∈ before ∨ ∃ i, s'.CreatedBy i email uid) ∧
      ∀ {i j email uid uid'}, s'.CreatedBy i email uid → s'.CreatedBy j email uid' → i = j := by
  rcases createdBy_step lowercased hstep with ⟨haccounts, hcreated⟩ |
    ⟨i₀, email₀, uid₀, hunused, haccounts, hcreated⟩
  · refine ⟨?_, ?_⟩
    · intro email uid
      rw [haccounts, h.accounts_iff]
      simp only [hcreated]
    · intro i j email uid uid' hi hj
      exact h.unique ((hcreated _ _ _).1 hi) ((hcreated _ _ _).1 hj)
  · have hnew : ∀ i uid, ¬ s.CreatedBy i email₀ uid := by
      intro i uid hcreatedBy
      exact (hunused.2 _ ((h.accounts_iff _ _).2 (Or.inr ⟨i, hcreatedBy⟩))).1 rfl
    refine ⟨?_, ?_⟩
    · intro email uid
      rw [haccounts, List.mem_append, h.accounts_iff, List.mem_singleton, Prod.mk.injEq]
      simp only [hcreated]
      constructor
      · rintro ((hbefore | ⟨i, hi⟩) | hnewest)
        · exact Or.inl hbefore
        · exact Or.inr ⟨i, Or.inl hi⟩
        · exact Or.inr ⟨i₀, Or.inr ⟨rfl, hnewest⟩⟩
      · rintro (hbefore | ⟨i, hi | ⟨-, hnewest⟩⟩)
        · exact Or.inl (Or.inl hbefore)
        · exact Or.inl (Or.inr ⟨i, hi⟩)
        · exact Or.inr hnewest
    · intro i j email uid uid' hi hj
      rcases (hcreated _ _ _).1 hi with hi | ⟨rfl, rfl, -⟩ <;>
        rcases (hcreated _ _ _).1 hj with hj | ⟨hj, hemail, -⟩
      · exact h.unique hi hj
      · exact absurd (hemail ▸ hi) (hnew _ _)
      · exact absurd hj (hnew _ _)
      · exact hj.symm

/-- What an attempt has handed over stays handed over. -/
theorem mem_outputs_of_isPrefix {t t' : Attempt} (hjob : t'.job = t.job)
    (hanswers : t.answers <+: t'.answers) {event : Event BackendError Bool}
    (h : event ∈ t.outputs (program lowercased)) : event ∈ t'.outputs (program lowercased) := by
  unfold Task.outputs at *
  rw [hjob]
  exact (Program.outputs_isPrefix _ hanswers).subset h

/-- Reported values stay with their attempts. -/
theorem reported_step {before : List (String × Uid)} {s s' : Registrations}
    {e : RegistrationEvent} (h : s.Sound lowercased before)
    (hstep : step lowercased s e = some s') : ∀ i value, (i, value) ∈ s'.isRegistered →
      ∃ t, s'.attempts[i]? = some t ∧ .next value ∈ t.outputs (program lowercased) := by
  have hold : ∀ i value, (i, value) ∈ s.isRegistered →
      ∃ t, s'.attempts[i]? = some t ∧ .next value ∈ t.outputs (program lowercased) := by
    intro i value hmem
    rcases h.reported i value hmem with ⟨t, hget, houtput⟩
    rcases attempt_step lowercased hstep hget with ⟨t', hget', hjob, hanswers⟩
    exact ⟨t', hget', mem_outputs_of_isPrefix lowercased hjob hanswers houtput⟩
  intro i value hmem
  rcases step_cases lowercased hstep with ⟨-, -, -, rfl⟩ | ⟨job, -, hsigned⟩ |
    ⟨j, outcome, t, t', request, answer, -, hanswered⟩
  · exact h.reported i value hmem
  · exact hold i value (hsigned.isRegistered_eq ▸ hmem)
  · rw [hanswered.isRegistered_eq, List.mem_append] at hmem
    rcases hmem with hmem | hmem
    · exact hold i value hmem
    · rcases List.mem_map.1 hmem with ⟨value', hvalue', heq⟩
      cases heq
      exact ⟨t', hanswered.answers_eq.2.2,
        mem_outputs_of_mem_deliveredValues lowercased hanswered.task_eq hvalue'⟩

/-- The accounts of a reachable state are those there were before and those its
attempts have created. -/
theorem reachable_sound {firebase : Firebase} {s : Registrations}
    (hreach : Reachable (step lowercased) (initial firebase) s) :
    s.Sound lowercased firebase.accounts := by
  refine hreach.invariant ?_ ?_
  · intro a e b _ ha hab
    rcases sound_accounts_step lowercased ha hab with ⟨haccounts, hunique⟩
    exact ⟨haccounts, hunique, reported_step lowercased ha hab⟩
  · constructor
    · simp [initial, CreatedBy]
    · simp [initial, CreatedBy]
    · simp [initial]

/-! ## Profile documents -/

/-- The profile document of an account exists. -/
def HasProfile (s : Registrations) (uid : Uid) : Prop :=
  (s.firebase.store.document? usersPath (.named uid)).isSome

/-- A profile stays. -/
theorem hasProfile_step {s s' : Registrations} {e : RegistrationEvent}
    (hstep : step lowercased s e = some s') {uid : Uid} (h : s.HasProfile uid) :
    s'.HasProfile uid := by
  rcases step_cases lowercased hstep with ⟨-, -, -, rfl⟩ | ⟨job, -, hsigned⟩ |
    ⟨i, outcome, t, t', request, answer, -, hanswered⟩
  · exact h
  · rw [HasProfile, hsigned.firebase_eq]
    exact h
  · exact Firebase.document_isSome_answer hanswered.firebase_eq h

/-- The user an attempt has written its profile document for: the one signed in when
its download URL arrived. -/
def profileUid (t : Attempt) : Uid :=
  ((t.answers[2]?.bind AuthAnswer.currentUid)).getD ""

/-- The handler after which an attempt reports `true` is that of the profile document. -/
theorem Answered.hasProfile {s s' : Registrations} {i : Nat} {t t' : Attempt}
    {request : AuthRequest} {outcome : Outcome} {answer : AuthAnswer}
    (h : Answered lowercased s s' i t t' request outcome answer)
    (houtput : .next true ∈ t'.outputs (program lowercased)) : s'.HasProfile (profileUid t') := by
  rcases h.answers_eq with ⟨hanswers, -, -⟩
  rcases (Register.true_mem_outputs_iff lowercased).1 houtput with ⟨hok, hlength⟩
  have hawaiting := (Task.undecided_eq_some_iff.1 h.request_eq).2
  rw [Task.current, program, Register.awaiting_after] at hawaiting
  rcases ht : t.answers with _ | ⟨a₀, _ | ⟨a₁, _ | ⟨a₂, _ | ⟨a₃, rest⟩⟩⟩⟩
  · simp [hanswers, ht] at hlength
  · simp [hanswers, ht] at hlength
  · simp [hanswers, ht] at hlength
  · simp only [ht] at hawaiting
    split at hawaiting
    · cases hawaiting
    · have hrequest := Option.some.inj hawaiting
      have hfirebase := h.firebase_eq
      rw [← hrequest] at hfirebase
      have hanswer : answer.failed = false := by
        simp [hanswers, ht] at hok
        exact hok.2.2.2
      have hprofile : profileUid t' = a₂.currentUid.getD "" := by
        simp [profileUid, hanswers, ht]
      rw [HasProfile, hprofile]
      exact Firebase.document_isSome_setUserData hfirebase hanswer
  · simp only [ht] at hawaiting
    split at hawaiting <;> cases hawaiting

/-- A property of attempts that holds at their start, survives events and is kept by
the attempt whose handler runs holds of all attempts. -/
theorem forall_attempts_of_reachable {Q : Registrations → Attempt → Prop}
    (hstart : ∀ s job, Q s (Task.start (program lowercased) job))
    (hkeep : ∀ {a e b t}, step lowercased a e = some b → Q a t → Q b t)
    (hanswered : ∀ {a b i t t' request outcome answer},
      Answered lowercased a b i t t' request outcome answer → Q a t → Q b t')
    {firebase : Firebase} {s : Registrations}
    (hreach : Reachable (step lowercased) (initial firebase) s) : ∀ t ∈ s.attempts, Q s t := by
  refine hreach.invariant (P := fun s => ∀ t ∈ s.attempts, Q s t) ?_ (by simp [initial])
  intro a e b _ ha hab
  rcases step_cases lowercased hab with ⟨-, -, -, rfl⟩ | ⟨job, -, hsigned⟩ |
    ⟨i, outcome, t, t', request, answer, -, h⟩
  · exact ha
  · intro t ht
    rw [hsigned.attempts_eq] at ht
    rcases List.mem_append.1 ht with ht | ht
    · exact hkeep hab (ha t ht)
    · exact List.mem_singleton.1 ht ▸ hstart b job
  · intro t₁ ht₁
    rw [h.attempts_eq] at ht₁
    rcases List.mem_or_eq_of_mem_set ht₁ with ht₁ | rfl
    · exact hkeep hab (ha t₁ ht₁)
    · exact hanswered h (ha t (List.mem_of_getElem? h.get))

/-- An attempt that has reported `true` has written a profile document. -/
theorem hasProfile_of_output {firebase : Firebase} {s : Registrations}
    (hreach : Reachable (step lowercased) (initial firebase) s) :
    ∀ t ∈ s.attempts, .next true ∈ t.outputs (program lowercased) →
      s.HasProfile (profileUid t) := by
  refine forall_attempts_of_reachable lowercased (Q := fun s t =>
    .next true ∈ t.outputs (program lowercased) → s.HasProfile (profileUid t)) ?_ ?_ ?_ hreach
  · intro s job houtput
    rcases Register.head_of_true_mem_outputs lowercased houtput with ⟨_, _, hanswers, -⟩
    cases hanswers
  · intro a e b t hab ht houtput
    exact hasProfile_step lowercased hab (ht houtput)
  · intro a b i t t' request outcome answer h _ houtput
    exact h.hasProfile lowercased houtput

/-- A successful `createUser` signs the new account in. -/
theorem created_isSome {firebase : Firebase} {s : Registrations}
    (hreach : Reachable (step lowercased) (initial firebase) s) : ∀ t ∈ s.attempts,
    ∀ answer rest, t.answers = answer :: rest → answer.failed = false →
      answer.currentUid.isSome := by
  refine forall_attempts_of_reachable lowercased (Q := fun _ t => ∀ answer rest,
    t.answers = answer :: rest → answer.failed = false → answer.currentUid.isSome) ?_ ?_ ?_ hreach
  · intro s job answer rest hanswers
    cases hanswers
  · intro a e b t _ ht
    exact ht
  · intro a b i t t' request outcome answer h ht first rest hfirst hok
    rw [h.answers_eq.1] at hfirst
    cases hanswers : t.answers with
    | nil =>
        rw [hanswers] at hfirst
        cases hfirst
        have hanswer := h.firebase_eq
        rcases createUser_iff lowercased h.request_eq with ⟨-, rfl⟩ | ⟨hne, -⟩
        · rcases Firebase.answer_createUser hanswer with ⟨hfailed, -⟩ | ⟨uid, -, rfl, -⟩
          · simp [hok] at hfailed
          · rfl
        · exact absurd hanswers hne
    | cons first' rest' =>
        rw [hanswers] at hfirst
        cases hfirst
        exact ht first rest' hanswers hok

/-! ## What a report means -/

/-- Along a run attempts keep their numbers and values, answers are never taken back
and profile documents stay. -/
theorem attempt_of_reachable {s s' : Registrations} (h : Reachable (step lowercased) s s')
    {i : Nat} {t : Attempt} (hget : s.attempts[i]? = some t) :
    ∃ t', s'.attempts[i]? = some t' ∧ t'.job = t.job ∧ t.answers <+: t'.answers := by
  refine h.invariant (P := fun (a : Registrations) => ∃ t' : Attempt,
    a.attempts[i]? = some t' ∧ t'.job = t.job ∧ t.answers <+: t'.answers) ?_
    ⟨t, hget, rfl, List.prefix_refl _⟩
  rintro a e b - ⟨t₁, hget₁, hjob₁, hanswers₁⟩ hab
  rcases attempt_step lowercased hab hget₁ with ⟨t₂, hget₂, hjob₂, hanswers₂⟩
  exact ⟨t₂, hget₂, hjob₂.trans hjob₁, hanswers₁.trans hanswers₂⟩

/-- It stays for good. -/
theorem hasProfile_of_reachable {s s' : Registrations}
    (h : Reachable (step lowercased) s s') {uid : Uid} (hprofile : s.HasProfile uid) :
    s'.HasProfile uid :=
  h.invariant (P := fun a => HasProfile a uid)
    (fun _ _ _ _ ha hab => hasProfile_step lowercased hab ha) hprofile

/-- An attempt reports once. -/
theorem not_true_of_false {t : Attempt} (h : .next false ∈ t.outputs (program lowercased)) :
    .next true ∉ t.outputs (program lowercased) := by
  intro htrue
  have hfailed := (Register.false_mem_outputs_iff lowercased).1 h
  have hok := ((Register.true_mem_outputs_iff lowercased).1 htrue).1
  rw [hfailed] at hok
  cases hok

/-- An attempt that has reported `true` has created an account. -/
theorem created_of_true {firebase : Firebase} {s : Registrations}
    (hreach : Reachable (step lowercased) (initial firebase) s) {t : Attempt}
    (ht : t ∈ s.attempts) (houtput : .next true ∈ t.outputs (program lowercased)) :
    ∃ uid, created t = some uid := by
  rcases Register.head_of_true_mem_outputs lowercased houtput with
    ⟨answer, rest, hanswers, hok⟩
  have hsome := created_isSome lowercased hreach t ht answer rest hanswers hok
  rcases Option.isSome_iff_exists.1 hsome with ⟨uid, huid⟩
  exact ⟨uid, by simp [created, hanswers, hok, huid]⟩

/-- A report comes after the first answer. -/
theorem answers_ne_nil_of_output {t : Attempt} {value : Bool}
    (h : .next value ∈ t.outputs (program lowercased)) : t.answers ≠ [] := by
  intro hnil
  cases value with
  | false =>
      have hfailed := (Register.false_mem_outputs_iff lowercased).1 h
      simp [hnil] at hfailed
  | true =>
      have hlength := ((Register.true_mem_outputs_iff lowercased).1 h).2
      simp [hnil] at hlength

/-- No attempt with this email has reported `true`. -/
def Blocked (s : Registrations) (email : String) : Prop :=
  ∀ (j : Nat) (t : Attempt), s.attempts[j]? = some t → t.job.values.email = email →
    (j, true) ∉ s.isRegistered

/-- An attempt that created an account and reported `false` blocks its email for
good: the account stays, so nobody else can create one with this email. -/
theorem blocked_of_false {firebase : Firebase} {s s' : Registrations}
    (hreach : Reachable (step lowercased) (initial firebase) s) {i : Nat} {t : Attempt}
    (hget : s.attempts[i]? = some t) (houtput : .next false ∈ t.outputs (program lowercased))
    {uid : Uid} (hcreated : created t = some uid) (hlater : Reachable (step lowercased) s s') :
    (t.job.values.email, uid) ∈ s'.firebase.accounts ∧ s'.Blocked t.job.values.email := by
  have hsound := reachable_sound lowercased (hreach.trans hlater)
  rcases attempt_of_reachable lowercased hlater hget with ⟨t', hget', hjob, hanswers⟩
  have hcreated' : created t' = some uid := by
    rw [created_eq_of_isPrefix hanswers (answers_ne_nil_of_output lowercased houtput), hcreated]
  have hby : s'.CreatedBy i t.job.values.email uid := ⟨t', hget', hcreated', by rw [hjob]⟩
  refine ⟨(hsound.accounts_iff _ _).2 (Or.inr ⟨i, hby⟩), ?_⟩
  intro j t₁ hget₁ hemail htrue
  rcases hsound.reported j true htrue with ⟨t₂, hget₂, houtput₂⟩
  obtain rfl : t₁ = t₂ := Option.some.inj (hget₁.symm.trans hget₂)
  rcases created_of_true lowercased (hreach.trans hlater) (List.mem_of_getElem? hget₁)
    houtput₂ with ⟨uid', hcreated₁⟩
  obtain rfl : i = j := hsound.unique hby ⟨t₁, hget₁, hcreated₁, hemail⟩
  obtain rfl : t' = t₁ := Option.some.inj (hget'.symm.trans hget₁)
  exact not_true_of_false lowercased
    (mem_outputs_of_isPrefix lowercased hjob hanswers houtput) houtput₂

/-- **What a reported attempt leaves behind.**  After `true` the account it created
has a profile document, provided that account was still the current user when the
download URL arrived.  After `false` an account it created stays, and no attempt with
this email can succeed any more.  An attempt that created no account has reported
`false`, and never creates one. -/
theorem attempt_result {firebase : Firebase} {s s' : Registrations}
    (hreach : Reachable (step lowercased) (initial firebase) s) {i : Nat} {t : Attempt}
    {value : Bool} (hget : s.attempts[i]? = some t) (hreport : (i, value) ∈ s.isRegistered)
    (hlater : Reachable (step lowercased) s s') :
    (∀ uid, created t = some uid → value = true → profileUid t = uid → s'.HasProfile uid) ∧
    (∀ uid, created t = some uid → value = false →
      (t.job.values.email, uid) ∈ s'.firebase.accounts ∧ s'.Blocked t.job.values.email) ∧
    (created t = none → value = false ∧ ∀ email uid, ¬ s'.CreatedBy i email uid) := by
  rcases (reachable_sound lowercased hreach).reported i value hreport with ⟨t₁, hget₁, houtput⟩
  obtain rfl : t = t₁ := Option.some.inj (hget.symm.trans hget₁)
  have hmem : t ∈ s.attempts := List.mem_of_getElem? hget
  refine ⟨?_, ?_, ?_⟩
  · rintro uid - rfl rfl
    exact hasProfile_of_reachable lowercased hlater
      (hasProfile_of_output lowercased hreach t hmem houtput)
  · rintro uid hcreated rfl
    exact blocked_of_false lowercased hreach hget houtput hcreated hlater
  · intro hnone
    refine ⟨?_, ?_⟩
    · cases value with
      | false => rfl
      | true =>
          rcases created_of_true lowercased hreach hmem houtput with ⟨uid, hcreated⟩
          rw [hnone] at hcreated
          cases hcreated
    · rintro email uid ⟨t₁, hget₁, hcreated, -⟩
      rcases attempt_of_reachable lowercased hlater hget with ⟨t', hget', -, hanswers⟩
      obtain rfl : t₁ = t' := Option.some.inj (hget₁.symm.trans hget')
      rw [created_eq_of_isPrefix hanswers (answers_ne_nil_of_output lowercased houtput),
        hnone] at hcreated
      cases hcreated

/-- A tap with complete values for this email. -/
def signUpOf (email : String) : SignUp where
  values :=
    { profileImage := none
      email := email
      fullName := "Alice"
      userName := "alice"
      password := "password" }
  filename := "portrait"

/-- An account is created, the upload of its image fails. -/
def failedImage : List RegistrationEvent :=
  [.signUp (signUpOf "alice@example.com"), .callback 0 (.created "alice"),
   .callback 0 (.failure ⟨"object-not-found"⟩)]

theorem attempt_result_failedImage :
    ∃ s s' t, run (step id) (initial .empty) failedImage = some s ∧
      run (step id) s [.signUp (signUpOf "alice@example.com"),
        .callback 1 (.failure ⟨"email-already-in-use"⟩)] = some s' ∧ s.attempts = [t] ∧
      (t.job.values.email, "alice") ∈ s'.firebase.accounts ∧
      s'.Blocked t.job.values.email :=
  ⟨_, _, _, run_final rfl, run_final rfl, rfl,
    (attempt_result id (reachable_final rfl) rfl (List.mem_singleton_self (0, false))
      (reachable_final rfl)).2.1 "alice" rfl rfl⟩

/-- An account created by an attempt that has reported has its profile document, or
is gone. -/
def NoOrphan (s : Registrations) : Prop :=
  ∀ i value, (i, value) ∈ s.isRegistered → ∀ email uid, s.CreatedBy i email uid →
    s.HasProfile uid ∨ (email, uid) ∉ s.firebase.accounts

/-- A failed image upload leaves an account without a profile document. -/
theorem not_noOrphan_of_failedImage :
    ∃ s, run (step id) (initial .empty) failedImage = some s ∧ ¬ NoOrphan s := by
  refine ⟨_, run_final rfl, ?_⟩
  intro h
  rcases h 0 false (by decide) "alice@example.com" "alice" ⟨_, rfl, rfl, rfl⟩ with h | h
  · cases h
  · exact h (by decide)

end Registrations

end WaffleChat
