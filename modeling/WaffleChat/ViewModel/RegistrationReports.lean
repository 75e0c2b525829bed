import WaffleChat.ViewModel.ProfileWrites

/-!
# What the registration screen reports

`isRegistering` turns true at a tap and false at a report; `isRegistered` carries the
report.  Only the latest attempt is listened to, and it reports once, when it waits for
nothing more.

Main results:

- Theorem `reporting_step`: the invariant of the two relays is kept by every event.
- Theorem `reportsOf_superseded`: a superseded attempt reports nothing more.
- Theorem `reporting_protocol`: the protocol of the two relays over all runs.
-/

namespace WaffleChat

open CallbackProgram EventSystem Observers

namespace Registrations

variable (lowercased : String → String)

/-! ## Reports of one attempt -/

/-- What `isRegistered` has emitted for attempt `i`. -/
def reportsOf (s : Registrations) (i : Nat) : List Bool :=
  (s.isRegistered.filter fun report => report.1 = i).map Prod.snd

/-- The reports of an attempt are among all reports. -/
theorem mem_reportsOf {s : Registrations} {i : Nat} {value : Bool} :
    value ∈ s.reportsOf i ↔ (i, value) ∈ s.isRegistered := by
  simp [reportsOf]

/-- The values an attempt has handed over. -/
def handedOver (t : Attempt) : List Bool :=
  (t.outputs (program lowercased)).filterMap Event.value?

/-- An attempt that waits has handed over nothing; one that does not has handed over its
result. -/
theorem handedOver_cases (t : Attempt) :
    ((t.current (program lowercased)).awaiting.isSome ∧ handedOver lowercased t = []) ∨
      ((t.current (program lowercased)).awaiting = none ∧
        ∃ value, handedOver lowercased t = [value]) := by
  unfold handedOver Task.current Task.outputs program
  rw [Register.awaiting_after, Register.reports_performRegistration]
  rcases hanswers : t.answers with _ | ⟨a₀, _ | ⟨a₁, _ | ⟨a₂, _ | ⟨a₃, rest⟩⟩⟩⟩
  · simp
  · cases h₀ : a₀.failed <;> simp [h₀, Event.value?]
  · cases h₀ : a₀.failed <;> cases h₁ : a₁.failed <;> simp [h₀, h₁, Event.value?]
  · cases h₀ : a₀.failed <;> cases h₁ : a₁.failed <;> cases h₂ : a₂.failed <;>
      simp [h₀, h₁, h₂, Event.value?]
  · right
    refine ⟨by simp, ?_⟩
    split
    · exact ⟨false, rfl⟩
    · exact ⟨true, by simp [Event.value?]⟩

/-- An attempt hands over something new only with its last handler, and then its result. -/
theorem Answered.handedOver_eq {s s' : Registrations} {i : Nat} {t t' : Attempt}
    {request : AuthRequest} {outcome : Outcome} {answer : AuthAnswer}
    (h : Answered lowercased s s' i t t' request outcome answer) :
    handedOver lowercased t = [] ∧
      handedOver lowercased t' =
        (t'.current (program lowercased)).emitted.filterMap Event.value? := by
  have hawaiting := (Task.undecided_eq_some_iff.1 h.request_eq).2
  have hnothing : handedOver lowercased t = [] := by
    rcases handedOver_cases lowercased t with ⟨-, hnil⟩ | ⟨hnone, -⟩
    · exact hnil
    · rw [hnone] at hawaiting
      cases hawaiting
  refine ⟨hnothing, ?_⟩
  rcases h.answers_eq with ⟨hanswers, hjob, -⟩
  have houtputs : t'.outputs (program lowercased) =
      t.outputs (program lowercased) ++ (t'.current (program lowercased)).emitted := by
    unfold Task.outputs Task.current
    rw [hjob, hanswers, Program.outputs_concat]
  unfold handedOver at hnothing ⊢
  rw [houtputs, List.filterMap_append, hnothing, List.nil_append]

/-- The latest attempt is listened to. -/
theorem Answered.delivered_eq {s s' : Registrations} {i : Nat} {t t' : Attempt}
    {request : AuthRequest} {outcome : Outcome} {answer : AuthAnswer}
    (h : Answered lowercased s s' i t t' request outcome answer)
    (hlatest : s.switch.latest = i + 1) (hlive : s.switch.disposed = false) :
    s'.switch = s.switch ∧ deliveredValues lowercased s i t' = handedOver lowercased t' := by
  have hfeed : delivered lowercased s i t' =
      (s.switch, (t'.current (program lowercased)).emitted) := by
    refine SwitchSink.feed_inner_of_latest hlatest hlive ?_
    intro event hevent
    exact Register.isStop_of_mem_outputs lowercased (Task.mem_outputs_of_emitted h.task_eq hevent)
  refine ⟨?_, ?_⟩
  · rw [h.switch_eq, hfeed]
  · rw [deliveredValues, hfeed, (h.handedOver_eq lowercased).2]

/-- Nobody listens to a superseded attempt. -/
theorem Answered.delivered_superseded {s s' : Registrations} {i : Nat} {t t' : Attempt}
    {request : AuthRequest} {outcome : Outcome} {answer : AuthAnswer}
    (h : Answered lowercased s s' i t t' request outcome answer)
    (hsuperseded : s.switch.latest ≠ i + 1) :
    s'.switch = s.switch ∧ deliveredValues lowercased s i t' = [] := by
  have hfeed : delivered lowercased s i t' = (s.switch, []) :=
    SwitchSink.feed_inner_of_ne hsuperseded _
  refine ⟨?_, ?_⟩
  · rw [h.switch_eq, hfeed]
  · rw [deliveredValues, hfeed]
    rfl

/-- An answer starts no attempt. -/
theorem Answered.length_attempts {s s' : Registrations} {i : Nat} {t t' : Attempt}
    {request : AuthRequest} {outcome : Outcome} {answer : AuthAnswer}
    (h : Answered lowercased s s' i t t' request outcome answer) :
    s'.attempts.length = s.attempts.length := by
  rw [h.attempts_eq, List.length_set]

/-! ## The invariant of the two relays -/

/-- The pipeline lives; the latest attempt has reported what it has handed over, and the
last value of `isRegistering` says whether it has; no attempt has reported twice. -/
structure Reporting (s : Registrations) : Prop where
  live : s.switch.disposed = false
  latest_eq : s.switch.latest = s.attempts.length
  known : ∀ i, s.attempts.length ≤ i → s.reportsOf i = []
  latest : ∀ i t, s.attempts[i]? = some t → i + 1 = s.attempts.length →
    s.reportsOf i = handedOver lowercased t
  once : ∀ i, (s.reportsOf i).length ≤ 1
  registering : s.isRegistering.getLast? = some true ↔
    ∃ i, i + 1 = s.attempts.length ∧ s.reportsOf i = []

/-- At first there is no attempt. -/
theorem reporting_initial (firebase : Firebase) : (initial firebase).Reporting lowercased := by
  constructor <;> simp [initial, SwitchSink.fresh, reportsOf]

/-- A tap starts an attempt that has reported nothing. -/
theorem SignedUp.reporting {s s' : Registrations} {job : SignUp}
    (h : SignedUp lowercased s s' job) (hs : s.Reporting lowercased) :
    s'.Reporting lowercased := by
  have hreports : ∀ i, s'.reportsOf i = s.reportsOf i := by
    intro i
    rw [reportsOf, h.isRegistered_eq, reportsOf]
  have hlength : s'.attempts.length = s.attempts.length + 1 := by
    rw [h.attempts_eq, List.length_append, List.length_singleton]
  constructor
  · rw [h.switch_eq]
    exact hs.live
  · rw [h.switch_eq, hlength, ← hs.latest_eq]
    rfl
  · intro i hi
    rw [hreports]
    exact hs.known i (by omega)
  · intro i t hget hi
    obtain rfl : i = s.attempts.length := by omega
    rw [h.attempts_eq, List.getElem?_concat_length] at hget
    obtain rfl := Option.some.inj hget
    rw [hreports, hs.known _ (le_refl _)]
    rfl
  · intro i
    rw [hreports]
    exact hs.once i
  · rw [h.isRegistering_eq, List.getLast?_concat]
    refine ⟨fun _ => ⟨s.attempts.length, hlength.symm, ?_⟩, fun _ => rfl⟩
    rw [hreports]
    exact hs.known _ (le_refl _)

/-- An answer adds what its attempt delivers, and nothing else. -/
theorem Answered.reportsOf_eq {s s' : Registrations} {i : Nat} {t t' : Attempt}
    {request : AuthRequest} {outcome : Outcome} {answer : AuthAnswer}
    (h : Answered lowercased s s' i t t' request outcome answer) (j : Nat) :
    s'.reportsOf j =
      s.reportsOf j ++ if j = i then deliveredValues lowercased s i t' else [] := by
  rw [reportsOf, h.isRegistered_eq, List.filter_append, List.map_append, reportsOf,
    List.filter_map, List.map_map]
  by_cases hji : j = i
  · subst hji
    simp [Function.comp_def]
  · simp [Function.comp_def, hji, Ne.symm hji]

/-- The handler of a superseded attempt changes nothing the view model shows. -/
theorem Answered.reporting_superseded {s s' : Registrations} {i : Nat} {t t' : Attempt}
    {request : AuthRequest} {outcome : Outcome} {answer : AuthAnswer}
    (h : Answered lowercased s s' i t t' request outcome answer) (hs : s.Reporting lowercased)
    (hne : i + 1 ≠ s.attempts.length) : s'.Reporting lowercased := by
  have hsuperseded : s.switch.latest ≠ i + 1 := by
    rw [hs.latest_eq]
    exact Ne.symm hne
  rcases h.delivered_superseded lowercased hsuperseded with ⟨hswitch, hnothing⟩
  have hlength := h.length_attempts
  have hreports : ∀ j, s'.reportsOf j = s.reportsOf j := by
    intro j
    rw [h.reportsOf_eq, hnothing]
    simp
  constructor
  · rw [hswitch]
    exact hs.live
  · rw [hswitch, hlength]
    exact hs.latest_eq
  · intro j hj
    rw [hreports]
    exact hs.known j (hlength ▸ hj)
  · intro j t₁ hget hj
    rw [hlength] at hj
    have hij : i ≠ j := by
      rintro rfl
      exact hne hj
    rw [h.attempts_eq, List.getElem?_set_ne hij] at hget
    rw [hreports]
    exact hs.latest j t₁ hget hj
  · intro j
    rw [hreports]
    exact hs.once j
  · rw [h.isRegistering_eq, hnothing, List.map_nil, List.append_nil, hlength]
    simp only [hreports]
    exact hs.registering

/-- The handler of the latest attempt reports the attempt's result, if it has come to
one. -/
theorem Answered.reporting_latest {s s' : Registrations} {i : Nat} {t t' : Attempt}
    {request : AuthRequest} {outcome : Outcome} {answer : AuthAnswer}
    (h : Answered lowercased s s' i t t' request outcome answer) (hs : s.Reporting lowercased)
    (hlatest : i + 1 = s.attempts.length) : s'.Reporting lowercased := by
  rcases h.delivered_eq lowercased (hs.latest_eq.trans hlatest.symm) hs.live with
    ⟨hswitch, hvalues⟩
  have hlength := h.length_attempts
  have hothers : ∀ j, j ≠ i → s'.reportsOf j = s.reportsOf j := by
    intro j hji
    rw [h.reportsOf_eq, if_neg hji, List.append_nil]
  have hself : s'.reportsOf i = handedOver lowercased t' := by
    rw [h.reportsOf_eq, if_pos rfl, hvalues, hs.latest i t h.get hlatest,
      (h.handedOver_eq lowercased).1, List.nil_append]
  constructor
  · rw [hswitch]
    exact hs.live
  · rw [hswitch, hlength]
    exact hs.latest_eq
  · intro j hj
    rw [hothers j (by omega)]
    exact hs.known j (hlength ▸ hj)
  · intro j t₁ hget hj
    obtain rfl : j = i := by omega
    obtain rfl : t' = t₁ := Option.some.inj (h.answers_eq.2.2.symm.trans hget)
    exact hself
  · intro j
    by_cases hji : j = i
    · rw [hji, hself]
      rcases handedOver_cases lowercased t' with ⟨-, hnil⟩ | ⟨-, value, hvalue⟩
      · simp [hnil]
      · simp [hvalue]
    · rw [hothers j hji]
      exact hs.once j
  · rcases handedOver_cases lowercased t' with ⟨-, hnil⟩ | ⟨-, value, hvalue⟩
    · have hpending : s.reportsOf i = [] := by
        rw [hs.latest i t h.get hlatest, (h.handedOver_eq lowercased).1]
      rw [h.isRegistering_eq, hvalues, hnil, List.map_nil, List.append_nil]
      refine ⟨fun _ => ⟨i, by rw [hlength]; exact hlatest, by rw [hself]; exact hnil⟩, fun _ => ?_⟩
      exact hs.registering.2 ⟨i, hlatest, hpending⟩
    · rw [h.isRegistering_eq, hvalues, hvalue, List.map_singleton, List.getLast?_concat]
      constructor
      · intro hfalse
        cases hfalse
      · rintro ⟨j, hj, hnone⟩
        obtain rfl : j = i := by omega
        rw [hself, hvalue] at hnone
        cases hnone

/-- Every event keeps the invariant of the two relays. -/
theorem reporting_step {s s' : Registrations} {e : RegistrationEvent}
    (hs : s.Reporting lowercased) (hstep : step lowercased s e = some s') :
    s'.Reporting lowercased := by
  rcases step_cases lowercased hstep with ⟨-, -, -, rfl⟩ | ⟨job, -, h⟩ |
    ⟨i, outcome, t, t', request, answer, -, h⟩
  · exact hs
  · exact h.reporting lowercased hs
  · by_cases hlatest : i + 1 = s.attempts.length
    · exact h.reporting_latest lowercased hs hlatest
    · exact h.reporting_superseded lowercased hs hlatest

/-- In every reachable state each attempt has reported what it should. -/
theorem reporting_of_reachable {firebase : Firebase} {s : Registrations}
    (hreach : Reachable (step lowercased) (initial firebase) s) : s.Reporting lowercased :=
  hreach.invariant (fun _ _ _ _ ha hab => reporting_step lowercased ha hab)
    (reporting_initial lowercased firebase)

/-! ## The protocol -/

/-- A superseded attempt reports nothing more. -/
theorem reportsOf_superseded {firebase : Firebase} {s s' : Registrations}
    (hreach : Reachable (step lowercased) (initial firebase) s)
    (hlater : Reachable (step lowercased) s s') {i : Nat} (hi : i + 1 < s.attempts.length) :
    s'.reportsOf i = s.reportsOf i := by
  have hboth : s.attempts.length ≤ s'.attempts.length ∧ s'.reportsOf i = s.reportsOf i := by
    refine hlater.invariant (P := fun a => s.attempts.length ≤ a.attempts.length ∧
      a.reportsOf i = s.reportsOf i) ?_ ⟨le_refl _, rfl⟩
    rintro a e b hsa ⟨hlength, hsame⟩ hab
    rcases step_cases lowercased hab with ⟨-, -, -, rfl⟩ | ⟨job, -, h⟩ |
      ⟨j, outcome, t, t', request, answer, -, h⟩
    · exact ⟨hlength, hsame⟩
    · refine ⟨?_, ?_⟩
      · rw [h.attempts_eq, List.length_append]
        omega
      · rw [reportsOf, h.isRegistered_eq]
        exact hsame
    · refine ⟨by rw [h.length_attempts]; exact hlength, ?_⟩
      rw [h.reportsOf_eq, hsame]
      by_cases hij : i = j
      · subst hij
        have hlatest := (reporting_of_reachable lowercased (hreach.trans hsa)).latest_eq
        rw [(h.delivered_superseded lowercased (by omega)).2]
        simp
      · simp [hij]
  exact hboth.2

/-- `true` is reported only after the profile built from the attempt's values has been
written. -/
theorem written_of_true {t : Attempt} (h : .next true ∈ t.outputs (program lowercased)) :
    ∃ uid imageURL,
      written lowercased t = some (uid, docData lowercased t.job.values imageURL uid) := by
  rcases (Register.true_mem_outputs_iff lowercased).1 h with ⟨hok, hlength⟩
  rcases answers_eq_of_length (Nat.not_lt.2 hlength) with ⟨a₀, a₁, a₂, a₃, rest, hanswers⟩
  have hfour : [a₀, a₁, a₂, a₃].any AuthAnswer.failed = false := by
    simpa only [hanswers, List.take_succ_cons, List.take_zero] using hok
  refine ⟨a₂.currentUid.getD "", a₂.url.getD "", ?_⟩
  rw [written_of_answers lowercased hanswers, hfour, if_neg Bool.false_ne_true]

/-- **The reporting protocol.**  The last value of `isRegistering` is true exactly while
the latest attempt has not reported.  The latest attempt has reported nothing while it
waits and one value when it does not; a superseded attempt reports nothing more, so no
attempt reports twice.  `true` means that the profile document built from the attempt's
values was acknowledged, and every tap starts an attempt. -/
theorem reporting_protocol {firebase : Firebase} {s s' : Registrations}
    (hreach : Reachable (step lowercased) (initial firebase) s)
    (hlater : Reachable (step lowercased) s s') :
    (s.isRegistering.getLast? = some true ↔
      ∃ i, i + 1 = s.attempts.length ∧ s.reportsOf i = []) ∧
    (∀ i t, s.attempts[i]? = some t →
      (s.reportsOf i).length ≤ 1 ∧
      (i + 1 = s.attempts.length →
        ((t.current (program lowercased)).awaiting.isSome ∧ s.reportsOf i = []) ∨
          ((t.current (program lowercased)).awaiting = none ∧
            ∃ value, s.reportsOf i = [value])) ∧
      (i + 1 < s.attempts.length → s'.reportsOf i = s.reportsOf i)) ∧
    (∀ i, true ∈ s.reportsOf i → ∃ t uid imageURL, s.attempts[i]? = some t ∧
      written lowercased t = some (uid, docData lowercased t.job.values imageURL uid)) ∧
    ∀ job, ∃ s₁, step lowercased s (.signUp job) = some s₁ ∧
      s₁.attempts = s.attempts ++ [Task.start (program lowercased) job] := by
  have hs := reporting_of_reachable lowercased hreach
  refine ⟨hs.registering, ?_, ?_, ?_⟩
  · intro i t hget
    refine ⟨hs.once i, ?_, ?_⟩
    · intro hi
      rw [hs.latest i t hget hi]
      exact handedOver_cases lowercased t
    · intro hi
      exact reportsOf_superseded lowercased hreach hlater hi
  · intro i htrue
    rcases (reachable_sound lowercased hreach).reported i true (mem_reportsOf.1 htrue) with
      ⟨t, hget, houtput⟩
    rcases written_of_true lowercased houtput with ⟨uid, imageURL, hwritten⟩
    exact ⟨t, uid, imageURL, hget, hwritten⟩
  · intro job
    rw [step, hs.live, if_neg Bool.false_ne_true]
    exact ⟨_, rfl, rfl⟩

/-- A second tap while the first attempt waits for its upload; the first attempt fails
unheard, the second one succeeds. -/
def supersededSignUp : List RegistrationEvent :=
  [.signUp (signUpOf "alice@example.com"), .callback 0 (.created "alice"),
   .signUp (signUpOf "bob@example.com"), .callback 1 (.created "bob"), .callback 1 .stored,
   .callback 0 (.failure ⟨"object-not-found"⟩), .callback 1 (.url "portrait.jpg")]

theorem reporting_protocol_superseded :
    ∃ s s', run (step id) (initial .empty) supersededSignUp = some s ∧
      run (step id) s [.callback 1 .stored] = some s' ∧
      s.isRegistering.getLast? = some true ∧ s'.reportsOf 0 = s.reportsOf 0 ∧
      s'.isRegistered = [(1, true)] := by
  refine ⟨_, _, run_final rfl, run_final rfl, ?_, ?_, rfl⟩
  · exact (reporting_protocol id (reachable_final rfl) (.refl _)).1.2 ⟨1, rfl, rfl⟩
  · exact ((reporting_protocol id (reachable_final rfl) (reachable_final rfl)).2.1 0 _ rfl).2.2
      (by decide)

end Registrations

end WaffleChat
