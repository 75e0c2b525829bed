import WaffleChat.ViewModel.Registration

/-!
# Whose profile document an attempt writes

An attempt learns the uid of its account twice: `createUser` signs the account in,
and `saveInfoToFirestore` reads `Auth.auth().currentUser` again, two callbacks later.
Attempts that overlap may create their accounts in between.

Main results:

- Theorem `document_written`: every profile document is an old one or one an attempt
  has written.
- Theorem `currentUser_of_reachable`: only a new account changes the current user.
- Theorem `profilesOwned_iff`: every attempt writes the profile of its own account
  exactly when that account is still signed in when its download URL arrives.
-/

namespace WaffleChat

open CallbackProgram EventSystem Observers

namespace Registrations

variable (lowercased : String → String)

/-! ## Acknowledged writes -/

/-- The profile document an attempt has written: its `setData` request, once that has
been acknowledged without an error. -/
def written (t : Attempt) : Option (Uid × Dictionary) :=
  match ((program lowercased t.job).after (t.answers.take 3)).awaiting, t.answers[3]? with
  | some (.setUserData uid docData), some answer =>
      if answer.failed then none else some (uid, docData)
  | _, _ => none

theorem written_eq_none {t : Attempt} (h : t.answers.length < 4) :
    written lowercased t = none := by
  have hanswer : t.answers[3]? = none := List.getElem?_eq_none (by omega)
  unfold written
  rw [hanswer]
  split
  · rename_i heq
    cases heq
  · rfl

/-- After four answers the profile is written unless one of them was a failure. -/
theorem written_of_answers {t : Attempt} {a₀ a₁ a₂ a₃ : AuthAnswer} {rest : List AuthAnswer}
    (h : t.answers = a₀ :: a₁ :: a₂ :: a₃ :: rest) :
    written lowercased t =
      if [a₀, a₁, a₂, a₃].any AuthAnswer.failed then none
      else
        some (a₂.currentUid.getD "",
          docData lowercased t.job.values (a₂.url.getD "") (a₂.currentUid.getD "")) := by
  have hany : [a₀, a₁, a₂, a₃].any AuthAnswer.failed =
      ([a₀, a₁, a₂].any AuthAnswer.failed || a₃.failed) := by
    simp [Bool.or_assoc]
  rw [hany]
  simp only [written, program, h, List.take_succ_cons, List.take_zero, Register.awaiting_after,
    List.getElem?_cons_succ, List.getElem?_cons_zero]
  by_cases hthree : [a₀, a₁, a₂].any AuthAnswer.failed = true
  · simp [hthree]
  · simp [hthree]

/-- Four answers have come in. -/
theorem answers_eq_of_length {t : Attempt} (h : ¬t.answers.length < 4) :
    ∃ a₀ a₁ a₂ a₃ rest, t.answers = a₀ :: a₁ :: a₂ :: a₃ :: rest := by
  rcases hanswers : t.answers with _ | ⟨a₀, _ | ⟨a₁, _ | ⟨a₂, _ | ⟨a₃, rest⟩⟩⟩⟩
  · simp [hanswers] at h
  · simp [hanswers] at h
  · simp [hanswers] at h
  · simp [hanswers] at h
  · exact ⟨a₀, a₁, a₂, a₃, rest, rfl⟩

/-- The profile an attempt writes is built from its values and from what it has been
told with its download URL. -/
theorem written_eq_some {t : Attempt} {uid : Uid} {data : Dictionary}
    (h : written lowercased t = some (uid, data)) :
    ∃ a₀ a₁ a₂ a₃ rest, t.answers = a₀ :: a₁ :: a₂ :: a₃ :: rest ∧
      uid = a₂.currentUid.getD "" ∧
      data = docData lowercased t.job.values (a₂.url.getD "") uid := by
  have hlength : ¬ t.answers.length < 4 := by
    intro hlt
    rw [written_eq_none lowercased hlt] at h
    cases h
  rcases answers_eq_of_length hlength with ⟨a₀, a₁, a₂, a₃, rest, hanswers⟩
  rw [written_of_answers lowercased hanswers] at h
  split at h
  · cases h
  · cases h
    exact ⟨a₀, a₁, a₂, a₃, rest, hanswers, rfl, rfl⟩

/-- A registration that waits has had at most three answers, and three exactly when it
waits for its profile document. -/
theorem length_of_undecided {t : Attempt} {request : AuthRequest}
    (h : t.undecided (program lowercased) = some request) :
    t.answers.length ≤ 3 ∧
      (t.answers.length = 3 ↔ ∃ uid data, request = .setUserData uid data) := by
  have hawaiting : ((program lowercased t.job).after t.answers).awaiting = some request :=
    (Task.undecided_eq_some_iff.1 h).2
  rw [program, Register.awaiting_after] at hawaiting
  rcases hanswers : t.answers with _ | ⟨a₀, _ | ⟨a₁, _ | ⟨a₂, _ | ⟨a₃, rest⟩⟩⟩⟩
  · simp only [hanswers] at hawaiting
    cases hawaiting
    simp
  · simp only [hanswers] at hawaiting
    split at hawaiting <;> cases hawaiting
    simp
  · simp only [hanswers] at hawaiting
    split at hawaiting <;> cases hawaiting
    simp
  · simp only [hanswers] at hawaiting
    split at hawaiting <;> cases hawaiting
    simp
  · simp only [hanswers] at hawaiting
    split at hawaiting <;> cases hawaiting

/-- A handler that answers a profile write has written that document, unless it has
failed. -/
theorem Answered.written_eq {s s' : Registrations} {i : Nat} {t t' : Attempt} {uid : Uid}
    {data : Dictionary} {outcome : Outcome} {answer : AuthAnswer}
    (h : Answered lowercased s s' i t t' (.setUserData uid data) outcome answer) :
    written lowercased t' = if answer.failed then none else some (uid, data) := by
  rcases h.answers_eq with ⟨hanswers, hjob, -⟩
  have hawaiting : ((program lowercased t.job).after t.answers).awaiting =
      some (.setUserData uid data) := (Task.undecided_eq_some_iff.1 h.request_eq).2
  have hlength : t.answers.length = 3 :=
    (length_of_undecided lowercased h.request_eq).2.2 ⟨uid, data, rfl⟩
  have htake : t'.answers.take 3 = t.answers := by
    rw [hanswers, ← hlength, List.take_left]
  have hlast : t'.answers[3]? = some answer := by
    rw [hanswers, ← hlength, List.getElem?_concat_length]
  simp only [written, hjob, htake, hawaiting, hlast]

/-- The answer to any other request writes no profile document. -/
theorem Answered.written_eq_none {s s' : Registrations} {i : Nat} {t t' : Attempt}
    {request : AuthRequest} {outcome : Outcome} {answer : AuthAnswer}
    (h : Answered lowercased s s' i t t' request outcome answer)
    (hrequest : ∀ uid data, request ≠ .setUserData uid data) :
    written lowercased t' = none := by
  rcases length_of_undecided lowercased h.request_eq with ⟨hle, hthree⟩
  have hne : t.answers.length ≠ 3 := by
    intro heq
    rcases hthree.1 heq with ⟨uid, data, hreq⟩
    exact hrequest uid data hreq
  apply Registrations.written_eq_none
  rw [h.answers_eq.1, List.length_append, List.length_singleton]
  omega

/-- An attempt that has written its profile takes no further step. -/
theorem mem_attempts_of_written {s s' : Registrations} {e : RegistrationEvent}
    (hstep : step lowercased s e = some s') {t : Attempt} (ht : t ∈ s.attempts)
    {profile : Uid × Dictionary} (hwritten : written lowercased t = some profile) :
    t ∈ s'.attempts := by
  rcases step_cases lowercased hstep with ⟨-, -, -, rfl⟩ | ⟨job, -, hsigned⟩ |
    ⟨i, outcome, t₁, t', request, answer, -, h⟩
  · exact ht
  · rw [hsigned.attempts_eq]
    exact List.mem_append_left _ ht
  · rcases List.mem_iff_getElem?.1 ht with ⟨j, hget⟩
    have hji : j ≠ i := by
      rintro rfl
      obtain rfl : t = t₁ := Option.some.inj (hget.symm.trans h.get)
      have hle := (length_of_undecided lowercased h.request_eq).1
      rw [Registrations.written_eq_none lowercased (by omega)] at hwritten
      cases hwritten
    apply List.mem_iff_getElem?.2
    exact ⟨j, by rw [h.attempts_eq, List.getElem?_set_ne (Ne.symm hji)]; exact hget⟩

/-- Every profile document is one there was before or one an attempt has written. -/
theorem document_written {firebase : Firebase} {s : Registrations}
    (hreach : Reachable (step lowercased) (initial firebase) s) :
    ∀ uid data, s.firebase.store.document? usersPath (.named uid) = some data →
      firebase.store.document? usersPath (.named uid) = some data ∨
        ∃ t ∈ s.attempts, written lowercased t = some (uid, data) := by
  refine hreach.invariant (P := fun (a : Registrations) => ∀ uid data,
    a.firebase.store.document? usersPath (.named uid) = some data →
      firebase.store.document? usersPath (.named uid) = some data ∨
        ∃ t ∈ a.attempts, written lowercased t = some (uid, data)) ?_ ?_
  · intro a e b _ ha hab uid data hdoc
    have hold : a.firebase.store.document? usersPath (.named uid) = some data →
        firebase.store.document? usersPath (.named uid) = some data ∨
          ∃ t ∈ b.attempts, written lowercased t = some (uid, data) := by
      intro hbefore
      rcases ha uid data hbefore with h | ⟨t, ht, hwritten⟩
      · exact Or.inl h
      · exact Or.inr ⟨t, mem_attempts_of_written lowercased hab ht hwritten, hwritten⟩
    rcases step_cases lowercased hab with ⟨-, -, -, rfl⟩ | ⟨job, -, hsigned⟩ |
      ⟨i, outcome, t, t', request, answer, -, h⟩
    · exact hold hdoc
    · exact hold (by rw [← hsigned.firebase_eq]; exact hdoc)
    · rcases Firebase.store_answer h.firebase_eq with hstore |
        ⟨uid', data', rfl, hok, hstore⟩
      · exact hold (by rw [← hstore]; exact hdoc)
      · rw [hstore] at hdoc
        by_cases huid : uid = uid'
        · subst huid
          rw [Firestore.document_setData_self] at hdoc
          obtain rfl := Option.some.inj hdoc
          have hwritten := h.written_eq
          rw [hok, if_neg Bool.false_ne_true] at hwritten
          exact Or.inr ⟨t', List.mem_of_getElem? h.answers_eq.2.2, hwritten⟩
        · rw [Firestore.document_setData_of_ne _ _ (Or.inr (by simpa using huid))] at hdoc
          exact hold hdoc
  · intro uid data hdoc
    exact Or.inl hdoc

/-! ## The current user -/

/-- A registration never signs in to an account it has not created. -/
theorem signIn_ne {t : Attempt} {request : AuthRequest}
    (h : t.undecided (program lowercased) = some request) :
    ∀ email password, request ≠ .signIn email password := by
  rintro email password rfl
  have hawaiting := (Task.undecided_eq_some_iff.1 h).2
  rw [Task.current, program, Register.awaiting_after] at hawaiting
  split at hawaiting
  · cases hawaiting
  · split at hawaiting <;> cases hawaiting

/-- Only a new account changes the current user: after a run it is the one whose account
was created last, or the old one if none was. -/
theorem currentUser_of_reachable {s s' : Registrations}
    (h : Reachable (step lowercased) s s') :
    ∃ new, s'.firebase.accounts = s.firebase.accounts ++ new ∧
      s'.firebase.currentUser = (new.getLast?.map Prod.snd).or s.firebase.currentUser := by
  refine h.invariant (P := fun (a : Registrations) => ∃ new,
    a.firebase.accounts = s.firebase.accounts ++ new ∧
      a.firebase.currentUser = (new.getLast?.map Prod.snd).or s.firebase.currentUser) ?_
    ⟨[], by simp, rfl⟩
  rintro a e b - ⟨new, haccounts, hcurrent⟩ hab
  rcases step_cases lowercased hab with ⟨-, -, -, rfl⟩ | ⟨job, -, hsigned⟩ |
    ⟨i, outcome, t, t', request, answer, -, hanswered⟩
  · exact ⟨new, haccounts, hcurrent⟩
  · rw [hsigned.firebase_eq]
    exact ⟨new, haccounts, hcurrent⟩
  · rcases Firebase.currentUser_answer (signIn_ne lowercased hanswered.request_eq)
      hanswered.firebase_eq with ⟨hsame, huser⟩ | ⟨email, uid, hadded, huser⟩
    · exact ⟨new, hsame.trans haccounts, huser.trans hcurrent⟩
    · refine ⟨new ++ [(email, uid)], ?_, ?_⟩
      · rw [hadded, haccounts, List.append_assoc]
      · rw [huser]
        simp

/-! ## Own profiles -/

/-- The profile document the attempt has written, if any, names the account the attempt
has created, as its document id and in its `uid` field. -/
def OwnProfile (t : Attempt) : Prop :=
  ∀ uid data, written lowercased t = some (uid, data) →
    created t = some uid ∧ data.string? "uid" = some uid

/-- Every attempt that has written a profile document has written its own. -/
def ProfilesOwned (s : Registrations) : Prop :=
  ∀ t ∈ s.attempts, OwnProfile lowercased t

/-- A profile write is acknowledged only for an attempt whose account was signed in when
its download URL arrived. -/
def SignedInThroughout (s : Registrations) : RegistrationEvent → Prop
  | .signUp _ => True
  | .callback i outcome =>
      outcome = .stored → ∀ t ∈ s.attempts[i]?, t.answers.length = 3 →
        t.answers[2]?.bind AuthAnswer.currentUid = created t

instance (s : Registrations) : ∀ e, Decidable (SignedInThroughout s e)
  | .signUp _ => inferInstanceAs (Decidable True)
  | .callback _ _ => inferInstanceAs (Decidable (_ → _))

/-- Acknowledging a profile write leaves an own profile exactly if the account was signed
in when the download URL arrived. -/
theorem Answered.ownProfile_iff {s s' : Registrations} {i : Nat} {t t' : Attempt} {uid : Uid}
    {data : Dictionary} {outcome : Outcome} {answer : AuthAnswer}
    (h : Answered lowercased s s' i t t' (.setUserData uid data) outcome answer)
    (hok : answer.failed = false) (huid : uid ≠ "") :
    OwnProfile lowercased t' ↔ t.answers[2]?.bind AuthAnswer.currentUid = created t := by
  rcases h.answers_eq with ⟨hanswers, -, -⟩
  have hwritten : written lowercased t' = some (uid, data) := by
    rw [h.written_eq, hok, if_neg Bool.false_ne_true]
  rcases written_eq_some lowercased hwritten with
    ⟨a₀, a₁, a₂, a₃, rest, hfour, huid₂, hdata⟩
  have hthree : t.answers.length = 3 :=
    (length_of_undecided lowercased h.request_eq).2.2 ⟨uid, data, rfl⟩
  have hthird : t.answers[2]? = some a₂ := by
    have hsame : (t.answers ++ [answer])[2]? = t.answers[2]? :=
      List.getElem?_append_left (by omega)
    rw [← hsame, ← hanswers, hfour]
    rfl
  have hcreated : created t' = created t := by
    refine created_eq_of_isPrefix ?_ ?_
    · rw [hanswers]
      exact List.prefix_append _ _
    · intro hnil
      simp [hnil] at hthree
  have hcurrent : a₂.currentUid = some uid := by
    cases hnone : a₂.currentUid with
    | none =>
        rw [hnone] at huid₂
        exact absurd huid₂ huid
    | some uid' =>
        rw [hnone] at huid₂
        rw [huid₂]
        rfl
  have hfield : data.string? "uid" = some uid := by
    rw [hdata]
    rfl
  simp only [OwnProfile, hwritten, hcreated, hthird, Option.bind_some, hcurrent]
  constructor
  · intro hown
    exact (hown uid data rfl).1.symm
  · intro hsame uid' data' heq
    cases heq
    exact ⟨hsame.symm, hfield⟩

/-- One event keeps all profiles own exactly if it meets the condition. -/
theorem profilesOwned_step {s s' : Registrations} {e : RegistrationEvent}
    (howned : s.ProfilesOwned lowercased) (hstep : step lowercased s e = some s') :
    s'.ProfilesOwned lowercased ↔ SignedInThroughout s e := by
  rcases step_cases lowercased hstep with ⟨job, rfl, -, rfl⟩ | ⟨job, rfl, hsigned⟩ |
    ⟨i, outcome, t, t', request, answer, rfl, h⟩
  · exact ⟨fun _ => trivial, fun _ => howned⟩
  · refine ⟨fun _ => trivial, fun _ => ?_⟩
    intro t ht
    rw [hsigned.attempts_eq] at ht
    rcases List.mem_append.1 ht with ht | ht
    · exact howned t ht
    · rw [List.mem_singleton.1 ht]
      intro uid data hwritten
      rw [Registrations.written_eq_none lowercased (by simp [Task.start])] at hwritten
      cases hwritten
  · have hothers : s'.ProfilesOwned lowercased ↔ OwnProfile lowercased t' := by
      constructor
      · intro hall
        exact hall t' (List.mem_of_getElem? h.answers_eq.2.2)
      · intro hown t₁ ht₁
        rw [h.attempts_eq] at ht₁
        rcases List.mem_or_eq_of_mem_set ht₁ with ht₁ | rfl
        · exact howned t₁ ht₁
        · exact hown
    have hlength := (length_of_undecided lowercased h.request_eq).2
    rw [hothers]
    simp only [SignedInThroughout, h.get, Option.mem_some_iff, forall_eq', hlength]
    by_cases hrequest : ∃ uid data, request = .setUserData uid data
    · rcases hrequest with ⟨uid, data, rfl⟩
      rcases Firebase.answer_setUserData h.firebase_eq with ⟨hfailed, houtcome, -⟩ |
        ⟨hok, houtcome, huid, -⟩
      · refine ⟨fun _ hstored => absurd hstored houtcome, fun _ => ?_⟩
        intro uid' data' hwritten
        rw [h.written_eq, hfailed, if_pos rfl] at hwritten
        cases hwritten
      · rw [h.ownProfile_iff lowercased hok huid]
        exact ⟨fun hsame _ _ => hsame, fun hall => hall houtcome ⟨uid, data, rfl⟩⟩
    · refine ⟨fun _ _ hset => absurd hset hrequest, fun _ => ?_⟩
      intro uid data hwritten
      rw [h.written_eq_none lowercased fun uid data heq => hrequest ⟨uid, data, heq⟩] at hwritten
      cases hwritten

/-- **Whose profile an attempt writes.**  Throughout a run every attempt has written only
the profile of its own account exactly when every acknowledged profile write belongs to an
attempt whose account was signed in when its download URL arrived. -/
theorem profilesOwned_iff {firebase : Firebase} {s : Registrations}
    {es : List RegistrationEvent} (hrun : run (step lowercased) (initial firebase) es = some s) :
    Always (step lowercased) (ProfilesOwned lowercased) (initial firebase) es ↔
      StepsMeet (step lowercased) SignedInThroughout (initial firebase) es := by
  refine always_iff_stepsMeet (I := fun _ => True) ?_ ?_ trivial ?_ hrun
  · intro _ _ _ _ _
    trivial
  · intro a e b _ howned hab
    exact profilesOwned_step lowercased howned hab
  · intro t ht
    cases ht

/-- Two registrations one after the other. -/
def successiveSignUps : List RegistrationEvent :=
  [.signUp (signUpOf "alice@example.com"), .callback 0 (.created "alice"),
   .callback 0 .stored, .callback 0 (.url "portrait.jpg"), .callback 0 .stored,
   .signUp (signUpOf "bob@example.com"), .callback 1 (.created "bob"),
   .callback 1 .stored, .callback 1 (.url "portrait.jpg"), .callback 1 .stored]

theorem profilesOwned_iff_successive :
    Always (step id) (ProfilesOwned id) (initial .empty) successiveSignUps :=
  (profilesOwned_iff id (run_final rfl)).2 (by decide)

/-- The second account is created before the first attempt has its download URL. -/
def overlappingSignUps : List RegistrationEvent :=
  [.signUp (signUpOf "alice@example.com"), .callback 0 (.created "alice"),
   .signUp (signUpOf "bob@example.com"), .callback 1 (.created "bob"),
   .callback 0 .stored, .callback 0 (.url "portrait.jpg"), .callback 0 .stored]

/-- Overlapping attempts: the first writes its profile under the second one's account. -/
theorem not_profilesOwned_of_overlapping :
    ∃ s, run (step id) (initial .empty) overlappingSignUps = some s ∧ ¬ ProfilesOwned id s := by
  refine ⟨_, run_final rfl, ?_⟩
  intro h
  have hown := h _ (List.mem_of_getElem? (i := 0) rfl) "bob"
    (docData id (signUpOf "alice@example.com").values "portrait.jpg" "bob") (by decide)
  exact absurd hown.1 (by decide)

end Registrations

end WaffleChat
