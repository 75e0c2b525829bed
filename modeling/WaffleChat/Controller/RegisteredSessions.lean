import WaffleChat.Controller.ValidatedAccounts

/-!
# Who can be signed in

Firebase signs in whoever has an account.  A session sees the current user only in the answers
to its requests, and stores a profile under whomever the last of them has shown to be signed
in; so profiles belong to accounts as well.

Main results:

- Theorem `Firebase.Registered.answer`: Firebase keeps profiles and accounts together.
- Theorem `Session.Registered.step`: a session knows accounts only.
- Theorem `FilledSession.Sound.sees`: so does a device with its forms.
-/

namespace WaffleChat

open CallbackProgram EventSystem Observers

/-! ## Accounts -/

namespace Firebase

/-- The uids of the accounts. -/
def uids (firebase : Firebase) : List Uid :=
  firebase.accounts.map Prod.snd

/-- Accounts have emails and uids of their own, and profiles belong to accounts. -/
structure Registered (firebase : Firebase) : Prop where
  emails : (firebase.accounts.map Prod.fst).Nodup
  nodup : firebase.uids.Nodup
  profiles : ∀ doc ∈ firebase.store.documents usersPath, ∃ uid ∈ firebase.uids,
    doc.id = .named uid
  current : ∀ uid, firebase.currentUser = some uid → uid ∈ firebase.uids

theorem registered_empty : empty.Registered := by
  constructor <;> simp [empty, uids]

theorem Registered.signOut {firebase : Firebase} (h : firebase.Registered) :
    firebase.signOut.Registered :=
  ⟨h.emails, h.nodup, h.profiles, fun _ hcurrent => nomatch hcurrent⟩

/-- A sign-in that succeeds makes the account it is answered with the current user. -/
theorem answer_signedIn {firebase firebase' : Firebase} {email password : String}
    {outcome : Outcome} {answer : AuthAnswer} {uid : Uid}
    (h : firebase.answer (.signIn email password) outcome = some (firebase', answer))
    (hanswer : answer = ⟨none, none, some uid⟩) : outcome = .signedIn uid := by
  subst hanswer
  cases outcome <;> cases h
  rfl

/-- A handler sees who is signed in once its request has been answered. -/
theorem currentUid_answer {firebase firebase' : Firebase} {request : AuthRequest}
    {outcome : Outcome} {answer : AuthAnswer}
    (h : firebase.answer request outcome = some (firebase', answer)) :
    answer.currentUid = firebase'.currentUser := by
  rcases answer_cases h with ⟨_, rfl, rfl⟩ | ⟨_, _, _, -, rfl, rfl⟩ | ⟨_, _, _, -, -, rfl, rfl⟩ |
    ⟨_, _, -, rfl, rfl⟩ | ⟨_, _, -, rfl, rfl⟩ | ⟨_, _, -, -, rfl, rfl⟩ <;> rfl

/-- Whatever is answered, only accounts sign in and only accounts get profiles. -/
theorem Registered.answer {firebase firebase' : Firebase} (h : firebase.Registered)
    {request : AuthRequest} {outcome : Outcome} {answer : AuthAnswer}
    (hrequest : ∀ uid docData, request = .setUserData uid docData →
      uid = "" ∨ uid ∈ firebase.uids)
    (houtcome : ∀ uid, outcome = .signedIn uid → uid ∈ firebase.uids)
    (hanswer : firebase.answer request outcome = some (firebase', answer)) :
    firebase'.Registered ∧ firebase.uids ⊆ firebase'.uids := by
  rcases answer_cases hanswer with ⟨_, rfl, rfl⟩ | ⟨_, _, uid, rfl, hsigned, rfl⟩ |
    ⟨email, _, uid, -, hunused, rfl, rfl⟩ | ⟨_, _, -, rfl, rfl⟩ | ⟨_, _, -, rfl, rfl⟩ |
    ⟨uid, docData, rfl, hnonempty, rfl, rfl⟩
  · exact ⟨h, List.Subset.refl _⟩
  · refine ⟨⟨h.emails, h.nodup, h.profiles, ?_⟩, List.Subset.refl _⟩
    rintro _ ⟨⟩
    exact houtcome uid (answer_signedIn hanswer hsigned)
  · have hnew : ∀ {α : Type} (f : String × Uid → α), (firebase.accounts.map f).Nodup →
        (∀ account ∈ firebase.accounts, f account ≠ f (email, uid)) →
        ((firebase.accounts ++ [(email, uid)]).map f).Nodup := by
      intro α f hnodup hne
      rw [List.map_append]
      refine List.nodup_append.2 ⟨hnodup, List.nodup_singleton _, ?_⟩
      intro a ha b hb
      rcases List.mem_map.1 ha with ⟨account, haccount, rfl⟩
      rw [List.mem_singleton.1 hb]
      exact hne account haccount
    have hsubset : firebase.uids ⊆
        (firebase.accounts ++ [(email, uid)]).map Prod.snd := by
      rw [List.map_append]
      exact List.subset_append_left _ _
    refine ⟨⟨hnew _ h.emails fun account haccount => (hunused.2 account haccount).1,
      hnew _ h.nodup fun account haccount => (hunused.2 account haccount).2, ?_, ?_⟩, hsubset⟩
    · intro doc hdoc
      rcases h.profiles doc hdoc with ⟨owner, howner, hid⟩
      exact ⟨owner, hsubset howner, hid⟩
    · rintro _ ⟨⟩
      simp [uids]
  · exact ⟨h, List.Subset.refl _⟩
  · exact ⟨h, List.Subset.refl _⟩
  · refine ⟨⟨h.emails, h.nodup, ?_, h.current⟩, List.Subset.refl _⟩
    intro doc hdoc
    rw [Firestore.documents_setData, if_pos rfl] at hdoc
    rcases List.mem_append.1 hdoc with hold | hnew
    · exact h.profiles doc (List.mem_filter.1 hold).1
    · rw [List.mem_singleton.1 hnew]
      exact ⟨uid, (hrequest uid docData rfl).resolve_left hnonempty, rfl⟩

end Firebase

/-! ## Sessions -/

namespace Session

variable (lowercased : String → String)

/-- A registration stores the profile under the uid its last callback has seen signed in. -/
theorem awaiting_setUserData {job : AuthJob} {answers : List AuthAnswer} {uid : Uid}
    {docData : Dictionary}
    (h : ((program lowercased job).after answers).awaiting = some (.setUserData uid docData)) :
    ∃ answer ∈ answers, uid = answer.currentUid.getD "" := by
  cases job with
  | login email password => cases (performLogin_awaiting h).2
  | registration job =>
      rw [program, Register.awaiting_after] at h
      split at h
      · cases h
      · split at h
        · cases h
        · cases h
        · cases h
        · rename_i answer _
          cases h
          exact ⟨answer, by simp, rfl⟩
        · cases h

/-- Whoever the session and its jobs have seen signed in has an account. -/
structure Registered (s : Session) : Prop where
  firebase : s.firebase.Registered
  answers : ∀ b ∈ s.started, ∀ answer ∈ b.task.answers, ∀ uid, answer.currentUid = some uid →
    uid ∈ s.firebase.uids

/-- A sign-in is answered with an account. -/
def SignsIn (s : Session) : SessionEvent → Prop
  | .callback _ outcome => ∀ uid, outcome = .signedIn uid → uid ∈ s.firebase.uids
  | _ => True

instance (s : Session) : DecidablePred s.SignsIn
  | .callback _ (.signedIn uid) => decidable_of_iff (uid ∈ s.firebase.uids) (by simp [SignsIn])
  | .callback _ (.failure _) => .isTrue (by simp [SignsIn])
  | .callback _ (.created _) => .isTrue (by simp [SignsIn])
  | .callback _ .stored => .isTrue (by simp [SignsIn])
  | .callback _ (.url _) => .isTrue (by simp [SignsIn])
  | .launch => .isTrue trivial
  | .terminate => .isTrue trivial
  | .loginTapped _ _ => .isTrue trivial
  | .goToSignUpTapped => .isTrue trivial
  | .goToLoginTapped => .isTrue trivial
  | .signUpTapped _ => .isTrue trivial
  | .logoutTapped _ => .isTrue trivial

variable {lowercased}

/-- A session whose sign-ins are answered with accounts stays registered, and no account is
lost. -/
theorem Registered.step {s s' : Session} (h : s.Registered) {e : SessionEvent}
    (he : s.SignsIn e) (hstep : Session.step lowercased s e = some s') :
    s'.Registered ∧ s.firebase.uids ⊆ s'.firebase.uids := by
  have hfirebase : s'.firebase.Registered ∧ s.firebase.uids ⊆ s'.firebase.uids := by
    rcases step_cases lowercased hstep with
      ⟨i, outcome, b, b', request, answer, rfl, hanswered⟩ | ⟨hne, -⟩
    · refine h.firebase.answer ?_ ?_ hanswered.firebase_eq
      · rintro uid docData rfl
        rcases awaiting_setUserData lowercased hanswered.request_eq with ⟨seen, hseen, rfl⟩
        cases hcurrent : seen.currentUid with
        | none => exact Or.inl rfl
        | some uid =>
            exact Or.inr (h.answers b (List.mem_of_getElem? hanswered.get) seen hseen uid hcurrent)
      · exact he
    · rcases firebase_of_not_callback hne hstep with hsame | hout
      · rw [hsame]
        exact ⟨h.firebase, List.Subset.refl _⟩
      · rw [hout]
        exact ⟨h.firebase.signOut, List.Subset.refl _⟩
  refine ⟨⟨hfirebase.1, ?_⟩, hfirebase.2⟩
  refine forall_started_step lowercased hstep ?_ ?_ ?_
  · intro b hb answer hanswer uid huid
    exact hfirebase.2 (h.answers b hb answer hanswer uid huid)
  · intro screen inner job _ answer hanswer
    cases hanswer
  · intro i b request outcome answer task _ hb _ hanswer htask seen hseen uid huid
    rcases Task.handle_eq_some_iff.1 htask with ⟨-, _, harrived, rfl⟩
    obtain rfl := Option.some.inj harrived
    rcases List.mem_append.1 hseen with hold | hnew
    · exact hb seen hold uid huid
    · rw [List.mem_singleton.1 hnew, Firebase.currentUid_answer hanswer] at huid
      exact hfirebase.1.current uid huid

end Session

namespace FilledSession

variable (lowercased : String → String) (selfMatches : (pattern text : String) → Bool)
  (count : String → Nat)

/-- The event answers no sign-in but with an account. -/
def SignsIn (d : FilledSession) : FilledEvent → Prop
  | .session e => d.session.SignsIn e
  | _ => True

instance (d : FilledSession) : DecidablePred d.SignsIn
  | .session e => inferInstanceAs (Decidable (d.session.SignsIn e))
  | .loginEdited _ _ => .isTrue trivial
  | .loginButtonTapped => .isTrue trivial
  | .registrationEdited _ _ => .isTrue trivial
  | .signUpButtonTapped _ => .isTrue trivial

variable {lowercased selfMatches count}

/-- What an event of a device does to its session: nothing, or what an event of the session
does. -/
theorem session_step {d d' : FilledSession} {e : FilledEvent} (he : d.SignsIn e)
    (hstep : d.step lowercased selfMatches count e = some d') :
    d'.session = d.session ∨ ∃ e', d.session.SignsIn e' ∧
      d.session.step lowercased e' = some d'.session := by
  have htapped : ∀ {filename call}, d.tapped lowercased filename call = some d' →
      d'.session = d.session ∨ ∃ e', d.session.SignsIn e' ∧
        d.session.step lowercased e' = some d'.session := by
    intro filename call htapped
    cases call with
    | none =>
        obtain rfl := Option.some.inj htapped
        exact Or.inl rfl
    | some call =>
        rcases bind_pure_eq_some.1 htapped with ⟨session, hsession, rfl⟩
        refine Or.inr ⟨tap filename call, ?_, hsession⟩
        cases call <;> trivial
  cases e with
  | session e =>
      simp only [FilledSession.step, Option.bind_eq_bind, Option.bind_eq_some_iff,
        Option.guard_eq_some', Option.pure_def, Option.some.injEq] at hstep
      rcases hstep with ⟨-, -, session, hsession, rfl⟩
      refine Or.inr ⟨e, he, hsession.trans (congrArg some ?_)⟩
      cases e <;> rfl
  | loginEdited field text =>
      obtain rfl := Option.some.inj hstep
      exact Or.inl rfl
  | loginButtonTapped =>
      simp only [FilledSession.step] at hstep
      split at hstep
      · exact htapped hstep
      · cases hstep
  | registrationEdited field value =>
      simp only [FilledSession.step] at hstep
      split at hstep
      · obtain rfl := Option.some.inj hstep
        exact Or.inl rfl
      · cases hstep
  | signUpButtonTapped filename =>
      simp only [FilledSession.step] at hstep
      split at hstep
      · split at hstep
        · exact htapped hstep
        · cases hstep
      · cases hstep

variable (lowercased selfMatches count) in
/-- What a device keeps to itself: sound forms, validated jobs, and `uids` of those who have
been seen signed in. -/
structure Sees (uids : List Uid) (d : FilledSession) : Prop where
  login : d.login.Sound selfMatches count
  registrations : ∀ form ∈ d.registrations, form.Sound selfMatches count
  jobs : ∀ b ∈ d.session.started, b.task.job.Valid selfMatches count
  answers : ∀ b ∈ d.session.started, ∀ answer ∈ b.task.answers, ∀ uid,
    answer.currentUid = some uid → uid ∈ uids
  current : ∀ uid, d.session.firebase.currentUser = some uid → uid ∈ uids

theorem sees_initial (uids : List Uid) :
    (initial selfMatches count .empty).Sees selfMatches count uids := by
  refine ⟨LoginForm.sound_create, ?_, ?_, ?_, ?_⟩
  · simp [initial]
  · simp [initial, Session.initial]
  · simp [initial, Session.initial]
  · simp [initial, Session.initial, Firebase.empty]

theorem Sees.mono {uids uids' : List Uid} {d : FilledSession}
    (h : d.Sees selfMatches count uids) (hsubset : uids ⊆ uids') :
    d.Sees selfMatches count uids' :=
  ⟨h.login, h.registrations, h.jobs,
    fun b hb answer hanswer uid huid => hsubset (h.answers b hb answer hanswer uid huid),
    fun uid huid => hsubset (h.current uid huid)⟩

/-- A sound device with registered users has seen accounts only. -/
theorem Sound.sees {d : FilledSession} (h : d.Sound lowercased selfMatches count)
    (hregistered : d.session.Registered) :
    d.Sees selfMatches count d.session.firebase.uids :=
  ⟨h.login, h.registrations, h.session.jobs, hregistered.answers, hregistered.firebase.current⟩

end FilledSession

end WaffleChat
