import WaffleChat.Controller.AuthForms
import WaffleChat.Controller.SessionProgress
import WaffleChat.Service.Directory

/-!
# What the forms let into the directory

The screens of a session with the forms on them.  Only the forms validate: neither the
requests nor Firebase look at the values again, and registrations fail, overlap and write
their profiles under whoever is signed in by then.

Main results:

- Theorem `Session.Validated.step`: a session whose taps are validated stays validated.
- Theorem `FilledSession.directory_validated`: whom `fetchUsers` delivers after any run.
-/

namespace WaffleChat

open CallbackProgram EventSystem Observers

section Validation

variable (lowercased : String → String) (selfMatches : (pattern text : String) → Bool)
  (count : String → Nat)

/-! ## Validated values -/

/-- The values of a job pass the validation of its form. -/
def AuthJob.Valid : AuthJob → Prop
  | .login email password => (AuthCall.performLogin email password).Valid selfMatches count
  | .registration job => (AuthCall.performRegistration job.values).Valid selfMatches count

/-- A profile document with validated values, stored under the uid it carries. -/
def ValidProfile (doc : StoredDocument) : Prop :=
  ∃ values imageURL uid, (AuthCall.performRegistration values).Valid selfMatches count ∧
    doc = ⟨.named uid, docData lowercased values imageURL uid⟩

/-- A user whose fields have passed the validation of the registration form. -/
structure User.Validated (user : User) : Prop where
  email : isValidEmailAddress selfMatches user.email = true
  fullname : 2 < count user.fullname
  username : ∃ userName, 2 < count userName ∧ user.username = lowercased userName

/-- The values a request sends to Firebase have been validated. -/
def AuthRequest.Valid : AuthRequest → Prop
  | .createUser email _ => isValidEmailAddress selfMatches email = true
  | .setUserData uid docData => ValidProfile lowercased selfMatches count ⟨.named uid, docData⟩
  | _ => True

/-- All accounts and profiles have been validated, and a uid has one profile at most. -/
structure Firebase.Validated (firebase : Firebase) : Prop where
  accounts : ∀ account ∈ firebase.accounts, isValidEmailAddress selfMatches account.1 = true
  profiles : ∀ doc ∈ firebase.store.documents usersPath,
    ValidProfile lowercased selfMatches count doc
  nodup : ((firebase.store.documents usersPath).map StoredDocument.id).Nodup

variable {lowercased selfMatches count}

/-- Who is signed in does not matter. -/
theorem Firebase.Validated.signOut {firebase : Firebase}
    (h : firebase.Validated lowercased selfMatches count) :
    firebase.signOut.Validated lowercased selfMatches count :=
  ⟨h.accounts, h.profiles, h.nodup⟩

/-- Where there is no account, all are valid. -/
theorem Firebase.validated_empty :
    Firebase.empty.Validated lowercased selfMatches count := by
  refine ⟨?_, ?_, ?_⟩ <;> simp [Firebase.empty]

/-- What a validated job asks for is validated. -/
theorem AuthJob.Valid.awaiting {job : AuthJob} (h : job.Valid selfMatches count)
    {answers : List AuthAnswer} {request : AuthRequest}
    (hawaiting : ((Session.program lowercased job).after answers).awaiting = some request) :
    request.Valid lowercased selfMatches count := by
  cases job with
  | login email password =>
      rw [(performLogin_awaiting hawaiting).2]
      trivial
  | registration job =>
      rw [Session.program, Register.awaiting_after] at hawaiting
      split at hawaiting
      · cases hawaiting
      · split at hawaiting
        · cases hawaiting
          exact h.2.1
        · cases hawaiting
          trivial
        · cases hawaiting
          trivial
        · cases hawaiting
          exact ⟨job.values, _, _, h, rfl⟩
        · cases hawaiting

/-- Storing a document leaves one document under its name. -/
theorem Firestore.nodup_setData {store : Firestore} {path : CollectionPath}
    (h : ((store.documents path).map StoredDocument.id).Nodup) (id : DocumentId)
    (data : Dictionary) :
    (((store.setData path id data).documents path).map StoredDocument.id).Nodup := by
  rw [Firestore.documents_setData, if_pos rfl, List.map_append]
  refine List.nodup_append.2 ⟨h.sublist (List.filter_sublist.map _), List.nodup_singleton _, ?_⟩
  intro other hother last hlast
  rcases List.mem_map.1 hother with ⟨doc, hdoc, rfl⟩
  rw [List.mem_singleton.1 hlast]
  simpa using (List.mem_filter.1 hdoc).2

/-- Firebase stays validated when it answers a validated request, with success or failure. -/
theorem Firebase.Validated.answer {firebase firebase' : Firebase}
    (h : firebase.Validated lowercased selfMatches count) {request : AuthRequest}
    (hvalid : request.Valid lowercased selfMatches count) {outcome : Outcome}
    {answer : AuthAnswer} (hanswer : firebase.answer request outcome = some (firebase', answer)) :
    firebase'.Validated lowercased selfMatches count := by
  rcases Firebase.answer_cases hanswer with ⟨_, -, rfl⟩ | ⟨_, _, _, -, -, rfl⟩ |
    ⟨email, password, uid, rfl, -, -, rfl⟩ | ⟨_, _, -, -, rfl⟩ | ⟨_, _, -, -, rfl⟩ |
    ⟨uid, docData, rfl, -, -, rfl⟩
  · exact h
  · exact ⟨h.accounts, h.profiles, h.nodup⟩
  · refine ⟨?_, h.profiles, h.nodup⟩
    intro account haccount
    rcases List.mem_append.1 haccount with hold | hnew
    · exact h.accounts account hold
    · rw [List.mem_singleton.1 hnew]
      exact hvalid
  · exact h
  · exact h
  · refine ⟨h.accounts, ?_, Firestore.nodup_setData h.nodup _ _⟩
    intro doc hdoc
    rw [Firestore.documents_setData, if_pos rfl] at hdoc
    rcases List.mem_append.1 hdoc with hold | hnew
    · exact h.profiles doc (List.mem_filter.1 hold).1
    · rw [List.mem_singleton.1 hnew]
      exact hvalid

/-! ## Sessions -/

namespace Session

variable (lowercased selfMatches count)

/-- Firebase is validated, and the jobs on their way are. -/
structure Validated (s : Session) : Prop where
  firebase : s.firebase.Validated lowercased selfMatches count
  jobs : ∀ b ∈ s.started, b.task.job.Valid selfMatches count

variable {lowercased selfMatches count}

/-- Apart from its callbacks, a session asks nothing of Firebase but to sign out. -/
theorem firebase_of_not_callback {s s' : Session} {e : SessionEvent}
    (he : ∀ i outcome, e ≠ .callback i outcome) (hstep : Session.step lowercased s e = some s') :
    s'.firebase = s.firebase ∨ s'.firebase = s.firebase.signOut := by
  cases e with
  | launch =>
      obtain rfl := Option.some.inj hstep
      split <;> exact Or.inl rfl
  | terminate =>
      obtain rfl := Option.some.inj hstep
      exact Or.inl rfl
  | callback i outcome => exact absurd rfl (he i outcome)
  | loginTapped email password =>
      simp only [Session.step] at hstep
      split at hstep <;> cases hstep
      exact Or.inl rfl
  | goToSignUpTapped =>
      simp only [Session.step] at hstep
      split at hstep <;> cases hstep
      exact Or.inl rfl
  | goToLoginTapped =>
      simp only [Session.step] at hstep
      split at hstep <;> cases hstep
      exact Or.inl rfl
  | signUpTapped job =>
      simp only [Session.step] at hstep
      split at hstep <;> cases hstep
      exact Or.inl rfl
  | logoutTapped throws =>
      simp only [Session.step] at hstep
      split at hstep
      · split at hstep <;> cases hstep
        · exact Or.inl rfl
        · exact Or.inr rfl
      · cases hstep

/-- A session whose taps are validated stays validated. -/
theorem Validated.step {s s' : Session} (h : s.Validated lowercased selfMatches count)
    {e : SessionEvent} (he : ∀ job, e.job? = some job → job.Valid selfMatches count)
    (hstep : Session.step lowercased s e = some s') :
    s'.Validated lowercased selfMatches count := by
  constructor
  · rcases step_cases lowercased hstep with ⟨i, outcome, b, b', request, answer, -, hanswered⟩ |
      ⟨hne, -⟩
    · have hjob := h.jobs b (List.mem_of_getElem? hanswered.get)
      exact h.firebase.answer (hjob.awaiting hanswered.request_eq) hanswered.firebase_eq
    · rcases firebase_of_not_callback hne hstep with hsame | hout
      · rw [hsame]
        exact h.firebase
      · rw [hout]
        exact h.firebase.signOut
  · refine forall_started_step lowercased hstep h.jobs (fun _ _ job hjob => he job hjob) ?_
    intro i b request outcome answer task _ hb _ _ htask
    rw [Task.job_handle htask]
    exact hb

end Session

/-! ## Sessions with forms -/

/-- A session with the form of the login screen and those of the registration screens pushed
on it. -/
structure FilledSession where
  session : Session
  login : LoginForm
  registrations : List RegistrationForm

/-- What can happen. -/
inductive FilledEvent where
  /-- An event of the session, but for the taps that start a job. -/
  | session (e : SessionEvent)
  | loginEdited (field : LoginField) (text : String)
  | loginButtonTapped
  | registrationEdited (field : RegistrationField) (value : field.Element)
  /-- `signupButton` is tapped; the name of the image file is drawn. -/
  | signUpButtonTapped (filename : String)

namespace FilledSession

variable (lowercased selfMatches count)

/-- Before the launch. -/
def initial (firebase : Firebase) : FilledSession where
  session := .initial firebase
  login := .create selfMatches count
  registrations := []

/-- The forms on the screens once an event has changed these: the screens that come have new
forms. -/
def shown (s : FilledSession) (after : Session) : SessionEvent → FilledSession
  | .goToSignUpTapped =>
      { s with
        session := after
        registrations := .create selfMatches count :: s.registrations }
  | .goToLoginTapped => { s with session := after, registrations := s.registrations.tail }
  | .callback _ _ => { s with session := after }
  | _ => ⟨after, .create selfMatches count, []⟩

/-- The tap that passes a request on to the session. -/
def tap (filename : String) : AuthCall → SessionEvent
  | .performLogin email password => .loginTapped email password
  | .performRegistration values => .signUpTapped ⟨values, filename⟩

/-- The button of a form is tapped, which makes the request `call`, if any. -/
def tapped (s : FilledSession) (filename : String) : Option AuthCall → Option FilledSession
  | some call => do
      let session ← s.session.step lowercased (tap filename call)
      return { s with session := session }
  | none => some s

/-- One event; a disabled button cannot be tapped. -/
def step (s : FilledSession) : FilledEvent → Option FilledSession
  | .session e => do
      guard (e.job? = none)
      let session ← s.session.step lowercased e
      return s.shown selfMatches count session e
  | .loginEdited field text =>
      some { s with login := s.login.edited selfMatches count field text }
  | .loginButtonTapped =>
      if s.login.isEnabled then s.tapped lowercased "" s.login.tapped else none
  | .registrationEdited field value =>
      match s.registrations with
      | form :: forms =>
          some { s with registrations := form.edited selfMatches count field value :: forms }
      | [] => none
  | .signUpButtonTapped filename =>
      match s.registrations with
      | form :: _ => if form.isEnabled then s.tapped lowercased filename form.tapped else none
      | [] => none

/-- The forms are sound, and what they have passed on is validated. -/
structure Sound (s : FilledSession) : Prop where
  login : s.login.Sound selfMatches count
  registrations : ∀ form ∈ s.registrations, form.Sound selfMatches count
  session : s.session.Validated lowercased selfMatches count

variable {lowercased selfMatches count}

/-- At first nothing has been called. -/
theorem sound_initial {firebase : Firebase}
    (h : firebase.Validated lowercased selfMatches count) :
    (initial selfMatches count firebase).Sound lowercased selfMatches count :=
  ⟨LoginForm.sound_create, by simp [initial], ⟨h, by simp [initial, Session.initial]⟩⟩

/-- A tap starts the job of the request it makes. -/
theorem valid_tap {call : AuthCall} (h : call.Valid selfMatches count) (filename : String) :
    ∀ job, (tap filename call).job? = some job → job.Valid selfMatches count := by
  rintro job hjob
  cases call with
  | performLogin email password =>
      obtain rfl := Option.some.inj hjob
      exact h
  | performRegistration values =>
      obtain rfl := Option.some.inj hjob
      exact h

/-- A tap calls with what the form holds. -/
theorem Sound.tapped {s s' : FilledSession} (h : s.Sound lowercased selfMatches count)
    {filename : String} {call : Option AuthCall}
    (hcall : ∀ made ∈ call, made.Valid selfMatches count)
    (hstep : s.tapped lowercased filename call = some s') :
    s'.Sound lowercased selfMatches count := by
  cases call with
  | none =>
      obtain rfl := Option.some.inj hstep
      exact h
  | some made =>
      rcases bind_pure_eq_some.1 hstep with ⟨session, hsession, rfl⟩
      exact ⟨h.login, h.registrations,
        h.session.step (valid_tap (hcall made rfl) filename) hsession⟩

/-- A screen that comes up has an empty form. -/
theorem Sound.shown {s : FilledSession} (h : s.Sound lowercased selfMatches count)
    {after : Session} (hafter : after.Validated lowercased selfMatches count) (e : SessionEvent) :
    (s.shown selfMatches count after e).Sound lowercased selfMatches count := by
  cases e with
  | goToSignUpTapped =>
      refine ⟨h.login, ?_, hafter⟩
      intro form hform
      rcases List.mem_cons.1 hform with rfl | hold
      · exact RegistrationForm.sound_create
      · exact h.registrations form hold
  | goToLoginTapped =>
      exact ⟨h.login, fun form hform => h.registrations form (List.mem_of_mem_tail hform), hafter⟩
  | callback i outcome => exact ⟨h.login, h.registrations, hafter⟩
  | _ => exact ⟨LoginForm.sound_create, by simp [FilledSession.shown], hafter⟩

/-- Whatever happens, only valid calls are made. -/
theorem Sound.step {s s' : FilledSession} {e : FilledEvent}
    (h : s.Sound lowercased selfMatches count)
    (hstep : FilledSession.step lowercased selfMatches count s e = some s') :
    s'.Sound lowercased selfMatches count := by
  cases e with
  | session e =>
      simp only [FilledSession.step, Option.bind_eq_bind, Option.bind_eq_some_iff,
        Option.guard_eq_some', Option.pure_def, Option.some.injEq] at hstep
      rcases hstep with ⟨-, huntapped, session, hsession, rfl⟩
      refine h.shown (h.session.step ?_ hsession) e
      intro job hjob
      cases huntapped.symm.trans hjob
  | loginEdited field text =>
      obtain rfl := Option.some.inj hstep
      exact ⟨h.login.edited field text, h.registrations, h.session⟩
  | loginButtonTapped =>
      simp only [FilledSession.step] at hstep
      split at hstep
      · rename_i henabled
        exact h.tapped (fun made hmade => (h.login.tapped henabled hmade).2) hstep
      · cases hstep
  | registrationEdited field value =>
      simp only [FilledSession.step] at hstep
      split at hstep
      · rename_i form forms hforms
        obtain rfl := Option.some.inj hstep
        have hold := h.registrations
        rw [hforms, List.forall_mem_cons] at hold
        exact ⟨h.login, List.forall_mem_cons.2 ⟨hold.1.edited field value, hold.2⟩, h.session⟩
      · cases hstep
  | signUpButtonTapped filename =>
      simp only [FilledSession.step] at hstep
      split at hstep
      · rename_i form forms hforms
        split at hstep
        · rename_i henabled
          have hform := h.registrations form (by simp [hforms])
          exact h.tapped (fun made hmade => (hform.tapped henabled hmade).2) hstep
        · cases hstep
      · cases hstep

end FilledSession

/-! ## Reading the directory -/

/-- A validated profile is read back as a validated user with the uid the document is stored
under. -/
theorem ValidProfile.init_eq {doc : StoredDocument}
    (h : ValidProfile lowercased selfMatches count doc) :
    ∃ user, User.init? doc.data = some user ∧ doc.id = .named user.uid ∧
      user.Validated lowercased selfMatches count := by
  rcases h with ⟨values, imageURL, uid, ⟨-, hemail, hfullName, huserName, -⟩, rfl⟩
  exact ⟨⟨values.email, values.fullName, imageURL, uid, lowercased values.userName⟩,
    User.init_eq_some_iff.2 ⟨rfl, rfl, rfl, rfl, rfl⟩, rfl, hemail, hfullName,
    values.userName, huserName, rfl⟩

/-- Validated profiles are named by the uids of the users they are read back as. -/
theorem map_id_eq_of_validProfile {documents : List StoredDocument}
    (h : ∀ doc ∈ documents, ValidProfile lowercased selfMatches count doc) :
    documents.map StoredDocument.id =
      (documents.filterMap fun doc => User.init? doc.data).map fun user => .named user.uid := by
  induction documents with
  | nil => rfl
  | cons doc documents ih =>
      rw [List.forall_mem_cons] at h
      rcases h.1.init_eq with ⟨user, hinit, hid, -⟩
      simp only [List.map_cons, List.filterMap_cons, hinit, hid, ih h.2]

namespace Firebase.Validated

variable {firebase : Firebase}

/-- The users `fetchUsers` delivers to a viewer who is handed the documents in some order. -/
theorem users (h : firebase.Validated lowercased selfMatches count) (viewer : Uid)
    {documents : List Dictionary}
    (hperm : documents.Perm ((firebase.store.documents usersPath).map StoredDocument.data)) :
    let users := (UsersAnswer.mk none (some documents) (some viewer)).users
    (users.map User.uid).Nodup ∧
      (∀ user ∈ users, user.uid ≠ viewer ∧ user.Validated lowercased selfMatches count) ∧
      ∀ doc ∈ firebase.store.documents usersPath, doc.id ≠ .named viewer →
        ∃ user ∈ users, doc.id = .named user.uid ∧ User.init? doc.data = some user := by
  refine ⟨?_, ?_, ?_⟩
  · have hnodup := h.nodup
    rw [map_id_eq_of_validProfile h.profiles] at hnodup
    have huids : (((firebase.store.documents usersPath).filterMap
        fun doc => User.init? doc.data).map User.uid).Nodup := by
      refine List.Nodup.of_map DocumentId.named ?_
      rwa [List.map_map]
    have hdecoded := hperm.filterMap User.init?
    rw [List.filterMap_map] at hdecoded
    exact ((hdecoded.map User.uid).nodup_iff.2 huids).sublist (List.filter_sublist.map _)
  · intro user huser
    rcases UsersAnswer.mem_users_iff.1 huser with ⟨⟨dic, hdic, hinit⟩, hviewer⟩
    rcases List.mem_map.1 (hperm.subset hdic) with ⟨doc, hdoc, rfl⟩
    rcases (h.profiles doc hdoc).init_eq with ⟨user', hinit', -, hvalid⟩
    obtain rfl := Option.some.inj (hinit.symm.trans hinit')
    exact ⟨fun heq => hviewer (congrArg some heq), hvalid⟩
  · intro doc hdoc hviewer
    rcases (h.profiles doc hdoc).init_eq with ⟨user, hinit, hid, -⟩
    have hdata := hperm.symm.subset (List.mem_map_of_mem (f := StoredDocument.data) hdoc)
    refine ⟨user, UsersAnswer.mem_users_iff.2 ⟨⟨doc.data, hdata, hinit⟩, ?_⟩, hid, hinit⟩
    intro heq
    exact hviewer (hid.trans (congrArg DocumentId.named (Option.some.inj heq)))

/-- The user `fetchUser` delivers, if there is a profile to be found. -/
theorem user (h : firebase.Validated lowercased selfMatches count) {uid : Uid}
    (hfound : firebase.store.document? usersPath (.named uid) ≠ none) :
    ∃ user, user.uid = uid ∧ user.Validated lowercased selfMatches count ∧
      fetchUser (firebase.store.document? usersPath (.named uid)) =
        [.next (some user), .completed] := by
  rcases Option.ne_none_iff_exists'.1 hfound with ⟨data, hdata⟩
  rcases Option.map_eq_some_iff.1 hdata with ⟨doc, hdoc, rfl⟩
  have hid : doc.id = .named uid := by simpa using List.find?_some hdoc
  rcases (h.profiles doc (List.mem_of_find?_eq_some hdoc)).init_eq with
    ⟨user, hinit, hname, hvalid⟩
  refine ⟨user, DocumentId.named.inj (hname.symm.trans hid), hvalid, ?_⟩
  rw [hdata, fetchUser, Option.bind_some, hinit]

end Firebase.Validated

namespace FilledSession

/-- **Whoever is in the directory has passed the form.**  In every run of the screens, in
whatever order the requests are answered and whichever of them fail, every account has a
valid email; `fetchUsers` delivers, for each profile but that of the viewer, one user, with
a uid of its own and validated fields; and `fetchUser` delivers the user it is asked for, if
there is one. -/
theorem directory_validated {firebase : Firebase}
    (hfirebase : firebase.Validated lowercased selfMatches count) {s : FilledSession}
    (hreach : Reachable (step lowercased selfMatches count) (initial selfMatches count firebase) s)
    (viewer : Uid) {documents : List Dictionary}
    (hperm : documents.Perm
      ((s.session.firebase.store.documents usersPath).map StoredDocument.data)) :
    (∀ account ∈ s.session.firebase.accounts, isValidEmailAddress selfMatches account.1 = true) ∧
      (∃ users, (feed CreateSink.on CreateSink.fresh
          (fetchUsers ⟨none, some documents, some viewer⟩)).2 = [.next users, .completed] ∧
        (users.map User.uid).Nodup ∧
        (∀ user ∈ users, user.uid ≠ viewer ∧ user.Validated lowercased selfMatches count) ∧
        ∀ doc ∈ s.session.firebase.store.documents usersPath, doc.id ≠ .named viewer →
          ∃ user ∈ users, doc.id = .named user.uid ∧ User.init? doc.data = some user) ∧
      ∀ uid, s.session.firebase.store.document? usersPath (.named uid) ≠ none →
        ∃ user, user.uid = uid ∧ user.Validated lowercased selfMatches count ∧
          (feed CreateSink.on CreateSink.fresh
            (fetchUser (s.session.firebase.store.document? usersPath (.named uid)))).2 =
            [.next (some user), .completed] := by
  have hsound := hreach.invariant (P := fun s => s.Sound lowercased selfMatches count)
    (fun _ _ _ _ h hstep => h.step hstep) (sound_initial hfirebase)
  refine ⟨hsound.session.firebase.accounts, ⟨_, delivered_fetchUsers _, ?_⟩, ?_⟩
  · exact hsound.session.firebase.users viewer hperm
  · intro uid hfound
    rw [ConversationFeed.delivered_fetchUser]
    exact hsound.session.firebase.user hfound

end FilledSession

end Validation

namespace FilledSession

/-- Alice fills in the form, picks an image last, and registers. -/
def aliceSignsUp : List FilledEvent :=
  [.session .launch, .session .goToSignUpTapped,
   .registrationEdited .email "alice@example.com", .registrationEdited .fullName "Alice",
   .registrationEdited .userName "alice", .registrationEdited .password "longenough",
   .registrationEdited .profileImage (some [1]), .signUpButtonTapped "one",
   .session (.callback 0 (.created "a")), .session (.callback 0 .stored),
   .session (.callback 0 (.url (some "https://a"))), .session (.callback 0 .stored)]

/-- The state after it, where an email is valid if it is Alice's. -/
def registered : FilledSession :=
  final (step id (fun _ text => text = "alice@example.com") String.length)
    (initial (fun _ text => text = "alice@example.com") String.length .empty) aliceSignsUp

theorem directory_validated_aliceSignsUp :
    registered.session.firebase.accounts = [("alice@example.com", "a")] ∧
      (∀ account ∈ registered.session.firebase.accounts,
        isValidEmailAddress (fun _ text => text = "alice@example.com") account.1 = true) ∧
      (∃ users, (feed CreateSink.on CreateSink.fresh
          (fetchUsers ⟨none, some ((registered.session.firebase.store.documents usersPath).map
            StoredDocument.data), some "b"⟩)).2 = [.next users, .completed] ∧
        ∀ doc ∈ registered.session.firebase.store.documents usersPath, doc.id ≠ .named "b" →
          ∃ user ∈ users, doc.id = .named user.uid ∧ User.init? doc.data = some user) ∧
      ∃ user : User, user.uid = "a" ∧
        user.Validated id (fun _ text => text = "alice@example.com") String.length := by
  have hreach : Reachable
      (step id (fun _ text => text = "alice@example.com") String.length)
      (initial (fun _ text => text = "alice@example.com") String.length .empty) registered :=
    reachable_final (by decide)
  rcases directory_validated Firebase.validated_empty hreach "b" (List.Perm.refl _) with
    ⟨haccounts, ⟨users, hdelivered, -, -, hall⟩, hlookup⟩
  rcases hlookup "a" (by decide) with ⟨user, huid, hvalid, -⟩
  exact ⟨by decide, haccounts, ⟨users, hdelivered, hall⟩, user, huid, hvalid⟩

end FilledSession

end WaffleChat
