import WaffleChat.Library.CallbackProgram
import WaffleChat.Library.Observers
import WaffleChat.Model.Records

/-!
# Signing in and registering

`AuthManager.performLogin` and `AuthManager.performRegistration` as programs with
completion handlers.  A registration is a chain of four requests: create the
account, upload the profile image, ask for its download URL, write the profile
document.  Each handler reports `false` and stops when its request has failed.

Main results:

- Theorem `Register.awaiting_after`: what a registration waits for.
- Theorem `Register.reports_performRegistration`: what it has reported.
- Theorem `performLogin_emitted`: what a sign-in reports.
-/

namespace WaffleChat

open CallbackProgram Observers

/-! ## Requests and answers -/

/-- Requests to Firebase Auth, Storage and the `users` collection. -/
inductive AuthRequest where
  | signIn (email password : String)
  | createUser (email password : String)
  | putData (path : String) (data : List UInt8)
  | downloadURL (path : String)
  | setUserData (uid : Uid) (docData : Dictionary)
deriving DecidableEq, Repr

/-- The requests that sign their account in when they succeed. -/
def AuthRequest.signsIn : AuthRequest → Bool
  | .signIn _ _ => true
  | .createUser _ _ => true
  | _ => false

/-- What a completion handler reads: its error, the URL it is handed, and
`Auth.auth().currentUser?.uid` at that moment. -/
structure AuthAnswer where
  error : Option BackendError
  url : Option String
  currentUid : Option Uid
deriving DecidableEq, Repr

/-- The request has failed. -/
def AuthAnswer.failed (answer : AuthAnswer) : Bool :=
  answer.error.isSome

/-- What a Firebase service does with a request. -/
inductive Outcome where
  | failure (error : BackendError)
  | signedIn (uid : Uid)
  | created (uid : Uid)
  | stored
  | url (url : Option String)
deriving DecidableEq, Repr

/-- `users`: one profile document for each account, named by its uid. -/
def usersPath : CollectionPath :=
  ["users"]

/-- Firebase as the app sees it: the accounts made in it (email and uid), the user
signed in on this device, and the document store. -/
structure Firebase where
  accounts : List (String × Uid)
  currentUser : Option Uid
  store : Firestore

namespace Firebase

/-- No accounts, nobody signed in, no documents. -/
def empty : Firebase where
  accounts := []
  currentUser := none
  store := .empty

/-- Nobody has an account with this email, or this uid. -/
def Unused (firebase : Firebase) (email : String) (uid : Uid) : Prop :=
  uid ≠ "" ∧ ∀ account ∈ firebase.accounts, account.1 ≠ email ∧ account.2 ≠ uid

instance (firebase : Firebase) (email : String) (uid : Uid) :
    Decidable (firebase.Unused email uid) :=
  inferInstanceAs (Decidable (_ ∧ _))

/-- Carry out a request and answer it.  A failed request changes nothing;
`createUser` and `signIn` make the account the current user; a document needs a
name. -/
def answer (firebase : Firebase) : AuthRequest → Outcome → Option (Firebase × AuthAnswer)
  | _, .failure error => some (firebase, ⟨some error, none, firebase.currentUser⟩)
  | .signIn _ _, .signedIn uid =>
      some ({ firebase with currentUser := some uid }, ⟨none, none, some uid⟩)
  | .createUser email _, .created uid =>
      if firebase.Unused email uid then
        some
          ({ firebase with
              accounts := firebase.accounts ++ [(email, uid)]
              currentUser := some uid }, ⟨none, none, some uid⟩)
      else none
  | .putData _ _, .stored => some (firebase, ⟨none, none, firebase.currentUser⟩)
  | .downloadURL _, .url url => some (firebase, ⟨none, url, firebase.currentUser⟩)
  | .setUserData uid docData, .stored =>
      if uid = "" then none
      else
        some
          ({ firebase with store := firebase.store.setData usersPath (.named uid) docData },
            ⟨none, none, firebase.currentUser⟩)
  | _, _ => none

/-- A successful `signOut`. -/
def signOut (firebase : Firebase) : Firebase :=
  { firebase with currentUser := none }

/-- Everything an answered request can do. -/
theorem answer_cases {firebase firebase' : Firebase} {request : AuthRequest}
    {outcome : Outcome} {answer : AuthAnswer}
    (h : firebase.answer request outcome = some (firebase', answer)) :
    (∃ error, answer = ⟨some error, none, firebase.currentUser⟩ ∧ firebase' = firebase) ∨
    (∃ email password uid, request = .signIn email password ∧
      answer = ⟨none, none, some uid⟩ ∧
      firebase' = { firebase with currentUser := some uid }) ∨
    (∃ email password uid, request = .createUser email password ∧ firebase.Unused email uid ∧
      answer = ⟨none, none, some uid⟩ ∧
      firebase' =
        { firebase with
          accounts := firebase.accounts ++ [(email, uid)]
          currentUser := some uid }) ∨
    (∃ path data, request = .putData path data ∧
      answer = ⟨none, none, firebase.currentUser⟩ ∧ firebase' = firebase) ∨
    (∃ path url, request = .downloadURL path ∧
      answer = ⟨none, url, firebase.currentUser⟩ ∧ firebase' = firebase) ∨
    (∃ uid docData, request = .setUserData uid docData ∧ uid ≠ "" ∧
      answer = ⟨none, none, firebase.currentUser⟩ ∧
      firebase' =
        { firebase with store := firebase.store.setData usersPath (.named uid) docData }) := by
  cases outcome with
  | failure error =>
      left
      cases h
      exact ⟨error, rfl, rfl⟩
  | signedIn uid =>
      right; left
      cases request <;> cases h
      exact ⟨_, _, uid, rfl, rfl, rfl⟩
  | created uid =>
      right; right; left
      cases request <;> try cases h
      rename_i email password
      simp only [Firebase.answer] at h
      split at h
      · rename_i hunused
        cases h
        exact ⟨email, password, uid, rfl, hunused, rfl, rfl⟩
      · cases h
  | stored =>
      cases request <;> try cases h
      · right; right; right; left
        exact ⟨_, _, rfl, rfl, rfl⟩
      · right; right; right; right; right
        rename_i uid docData
        simp only [Firebase.answer] at h
        split at h
        · cases h
        · rename_i huid
          cases h
          exact ⟨uid, docData, rfl, huid, rfl, rfl⟩
  | url url =>
      right; right; right; right; left
      cases request <;> cases h
      exact ⟨_, url, rfl, rfl, rfl⟩

/-- A decided `createUser` fails and changes nothing, or makes a new account. -/
theorem answer_createUser {firebase firebase' : Firebase} {email password : String}
    {outcome : Outcome} {answer : AuthAnswer}
    (h : firebase.answer (.createUser email password) outcome = some (firebase', answer)) :
    (answer.failed = true ∧ firebase' = firebase) ∨
      ∃ uid, firebase.Unused email uid ∧ answer = ⟨none, none, some uid⟩ ∧
        firebase'.accounts = firebase.accounts ++ [(email, uid)] := by
  rcases answer_cases h with ⟨error, rfl, rfl⟩ | ⟨_, _, _, hrequest, -⟩ |
    ⟨_, _, uid, hrequest, hunused, rfl, rfl⟩ | ⟨_, _, hrequest, -⟩ | ⟨_, _, hrequest, -⟩ |
    ⟨_, _, hrequest, -⟩
  · exact Or.inl ⟨rfl, rfl⟩
  · cases hrequest
  · cases hrequest
    exact Or.inr ⟨uid, hunused, rfl, rfl⟩
  · cases hrequest
  · cases hrequest
  · cases hrequest

/-- A request fails exactly when the service says so. -/
theorem failed_iff {firebase firebase' : Firebase} {request : AuthRequest} {outcome : Outcome}
    {answer : AuthAnswer} (h : firebase.answer request outcome = some (firebase', answer)) :
    answer.failed = true ↔ ∃ error, outcome = .failure error := by
  cases outcome with
  | failure error =>
      cases h
      simp [AuthAnswer.failed]
  | signedIn uid =>
      cases request <;> cases h
      simp [AuthAnswer.failed]
  | created uid =>
      cases request <;> try cases h
      simp only [Firebase.answer] at h
      split at h <;> cases h
      simp [AuthAnswer.failed]
  | stored =>
      cases request <;> try cases h
      · simp [AuthAnswer.failed]
      · simp only [Firebase.answer] at h
        split at h <;> cases h
        simp [AuthAnswer.failed]
  | url url =>
      cases request <;> cases h
      simp [AuthAnswer.failed]

/-- No request signs the current user out. -/
theorem currentUser_isSome_answer {firebase firebase' : Firebase} {request : AuthRequest}
    {outcome : Outcome} {answer : AuthAnswer}
    (h : firebase.answer request outcome = some (firebase', answer))
    (hsome : firebase.currentUser.isSome) : firebase'.currentUser.isSome := by
  rcases answer_cases h with ⟨_, -, rfl⟩ | ⟨_, _, _, -, -, rfl⟩ | ⟨_, _, _, -, -, -, rfl⟩ |
    ⟨_, _, -, -, rfl⟩ | ⟨_, _, -, -, rfl⟩ | ⟨_, _, -, -, -, rfl⟩
  · exact hsome
  · rfl
  · rfl
  · exact hsome
  · exact hsome
  · exact hsome

/-- After a successful sign-in or account creation somebody is signed in. -/
theorem currentUser_isSome_signsIn {firebase firebase' : Firebase} {request : AuthRequest}
    {outcome : Outcome} {answer : AuthAnswer}
    (h : firebase.answer request outcome = some (firebase', answer))
    (hsigns : request.signsIn = true) (hok : answer.failed = false) :
    firebase'.currentUser.isSome := by
  rcases answer_cases h with ⟨_, rfl, -⟩ | ⟨_, _, _, -, -, rfl⟩ | ⟨_, _, _, -, -, -, rfl⟩ |
    ⟨_, _, rfl, -⟩ | ⟨_, _, rfl, -⟩ | ⟨_, _, rfl, -⟩
  · cases hok
  · rfl
  · rfl
  · cases hsigns
  · cases hsigns
  · cases hsigns

/-- A failed request leaves everything as it is. -/
theorem eq_of_failed {firebase firebase' : Firebase} {request : AuthRequest}
    {outcome : Outcome} {answer : AuthAnswer}
    (h : firebase.answer request outcome = some (firebase', answer))
    (hfailed : answer.failed = true) : firebase' = firebase := by
  rcases (failed_iff h).1 hfailed with ⟨error, rfl⟩
  cases h
  rfl

/-- Only `createUser` makes accounts. -/
theorem accounts_answer {firebase firebase' : Firebase} {request : AuthRequest}
    {outcome : Outcome} {answer : AuthAnswer}
    (h : firebase.answer request outcome = some (firebase', answer))
    (hrequest : ∀ email password, request ≠ .createUser email password) :
    firebase'.accounts = firebase.accounts := by
  rcases answer_cases h with ⟨_, -, rfl⟩ | ⟨_, _, _, -, -, rfl⟩ | ⟨email, password, _, hcreate, -⟩ |
    ⟨_, _, -, -, rfl⟩ | ⟨_, _, -, -, rfl⟩ | ⟨_, _, -, -, -, rfl⟩
  · rfl
  · rfl
  · exact absurd hcreate (hrequest email password)
  · rfl
  · rfl
  · rfl

/-- Only a successful `setUserData` touches the documents. -/
theorem store_answer {firebase firebase' : Firebase} {request : AuthRequest}
    {outcome : Outcome} {answer : AuthAnswer}
    (h : firebase.answer request outcome = some (firebase', answer)) :
    firebase'.store = firebase.store ∨
      ∃ uid docData, request = .setUserData uid docData ∧ answer.failed = false ∧
        firebase'.store = firebase.store.setData usersPath (.named uid) docData := by
  rcases answer_cases h with ⟨_, -, rfl⟩ | ⟨_, _, _, -, -, rfl⟩ | ⟨_, _, _, -, -, -, rfl⟩ |
    ⟨_, _, -, -, rfl⟩ | ⟨_, _, -, -, rfl⟩ | ⟨uid, docData, hrequest, -, rfl, rfl⟩
  · exact Or.inl rfl
  · exact Or.inl rfl
  · exact Or.inl rfl
  · exact Or.inl rfl
  · exact Or.inl rfl
  · exact Or.inr ⟨uid, docData, hrequest, rfl, rfl⟩

/-- Apart from `signIn`, only a new account changes the current user. -/
theorem currentUser_answer {firebase firebase' : Firebase} {request : AuthRequest}
    {outcome : Outcome} {answer : AuthAnswer}
    (hrequest : ∀ email password, request ≠ .signIn email password)
    (h : firebase.answer request outcome = some (firebase', answer)) :
    (firebase'.accounts = firebase.accounts ∧ firebase'.currentUser = firebase.currentUser) ∨
      ∃ email uid, firebase'.accounts = firebase.accounts ++ [(email, uid)] ∧
        firebase'.currentUser = some uid := by
  rcases answer_cases h with ⟨_, -, rfl⟩ | ⟨email, password, _, hsignIn, -⟩ |
    ⟨email, _, uid, -, -, -, rfl⟩ | ⟨_, _, -, -, rfl⟩ | ⟨_, _, -, -, rfl⟩ | ⟨_, _, -, -, -, rfl⟩
  · exact Or.inl ⟨rfl, rfl⟩
  · exact absurd hsignIn (hrequest email password)
  · exact Or.inr ⟨email, uid, rfl, rfl⟩
  · exact Or.inl ⟨rfl, rfl⟩
  · exact Or.inl ⟨rfl, rfl⟩
  · exact Or.inl ⟨rfl, rfl⟩

/-- Profile documents are never deleted. -/
theorem document_isSome_answer {firebase firebase' : Firebase} {request : AuthRequest}
    {outcome : Outcome} {answer : AuthAnswer}
    (h : firebase.answer request outcome = some (firebase', answer)) {name : String}
    (hdoc : (firebase.store.document? usersPath (.named name)).isSome) :
    (firebase'.store.document? usersPath (.named name)).isSome := by
  rcases store_answer h with hstore | ⟨uid, docData, -, -, hstore⟩
  · rw [hstore]
    exact hdoc
  · rw [hstore]
    by_cases hname : name = uid
    · rw [hname, Firestore.document_setData_self]
      rfl
    · rw [Firestore.document_setData_of_ne _ _ (Or.inr (by simpa using hname))]
      exact hdoc

/-- A decided `setUserData` fails and changes nothing, or stores a named document. -/
theorem answer_setUserData {firebase firebase' : Firebase} {uid : Uid} {docData : Dictionary}
    {outcome : Outcome} {answer : AuthAnswer}
    (h : firebase.answer (.setUserData uid docData) outcome = some (firebase', answer)) :
    (answer.failed = true ∧ outcome ≠ .stored ∧ firebase' = firebase) ∨
      (answer.failed = false ∧ outcome = .stored ∧ uid ≠ "" ∧
        firebase'.store = firebase.store.setData usersPath (.named uid) docData) := by
  cases outcome with
  | failure error =>
      cases h
      exact Or.inl ⟨rfl, by simp, rfl⟩
  | stored =>
      simp only [Firebase.answer] at h
      split at h
      · cases h
      · rename_i huid
        cases h
        exact Or.inr ⟨rfl, rfl, huid, rfl⟩
  | signedIn uid => cases h
  | created uid => cases h
  | url url => cases h

/-- A `setUserData` that does not fail leaves a document. -/
theorem document_isSome_setUserData {firebase firebase' : Firebase} {uid : Uid}
    {docData : Dictionary} {outcome : Outcome} {answer : AuthAnswer}
    (h : firebase.answer (.setUserData uid docData) outcome = some (firebase', answer))
    (hok : answer.failed = false) :
    (firebase'.store.document? usersPath (.named uid)).isSome := by
  rcases answer_setUserData h with ⟨hfailed, -, -⟩ | ⟨-, -, -, hstore⟩
  · rw [hok] at hfailed
    cases hfailed
  · rw [hstore, Firestore.document_setData_self]
    rfl

end Firebase

/-- Code that talks to Firebase and reports to an observer of Booleans. -/
abbrev AuthProgram := Program AuthRequest AuthAnswer (Event BackendError Bool)

/-! ## Signing in -/

/-- `AuthManager.performLogin(email:password:)`; an error does not end the handler. -/
def performLogin (email password : String) : AuthProgram :=
  .await (.signIn email password) fun answer =>
    match answer.error with
    | some error => .emit (.error error) (.emit (.next true) .done)
    | none => .emit (.next true) .done

/-- A sign-in waits for its one answer. -/
theorem performLogin_awaiting {email password : String} {answers : List AuthAnswer}
    {request : AuthRequest}
    (h : ((performLogin email password).after answers).awaiting = some request) :
    answers = [] ∧ request = .signIn email password := by
  cases answers with
  | nil =>
      cases h
      exact ⟨rfl, rfl⟩
  | cons answer answers =>
      rw [Program.after_cons] at h
      cases answers <;> cases herror : answer.error <;>
        simp [performLogin, Program.resume, Program.awaiting, herror] at h

/-- The handler of a sign-in reports `true`, behind the error if there is one. -/
theorem performLogin_emitted (email password : String) (answer : AuthAnswer) :
    ((performLogin email password).after [answer]).emitted =
      answer.error.elim [.next true] fun error => [.error error, .next true] := by
  cases h : answer.error <;> simp [performLogin, Program.emitted, Program.resume, h]

/-! ## Registering -/

/-- The values of the registration form; the image is given as its JPEG data. -/
structure Register where
  profileImage : Option (List UInt8)
  email : String
  fullName : String
  userName : String
  password : String
deriving DecidableEq, Repr

section Registration

variable (lowercased : String → String)

/-- The profile document `saveInfoToFirestore` writes. -/
def docData (values : Register) (imageURL : String) (uid : Uid) : Dictionary :=
  [("email", .string values.email),
   ("fullname", .string values.fullName),
   ("profileImageURL", .string imageURL),
   ("uid", .string uid),
   ("username", .string (lowercased values.userName))]

/-- `AuthManager.saveInfoToFirestore(values:imageURL:)`, called while `currentUid` is
signed in.  For the empty uid `document(_:)` raises an exception, which ends the process; the
program goes on as for any other, until `Program.raisingAt` ends it there. -/
def saveInfoToFirestore (currentUid : Option Uid) (values : Register) (imageURL : String) :
    AuthProgram :=
  let uid := currentUid.getD ""
  .await (.setUserData uid (docData lowercased values imageURL uid)) fun answer =>
    match answer.error with
    | some _ => .emit (.next false) .done
    | none => .emit (.next true) .done

/-- `AuthManager.saveImageToFirebase(values:)`; `filename` is the fresh UUID. -/
def saveImageToFirebase (filename : String) (values : Register) : AuthProgram :=
  let path := "/images/" ++ filename
  let imageData := values.profileImage.getD []
  .await (.putData path imageData) fun answer =>
    match answer.error with
    | some _ => .emit (.next false) .done
    | none =>
        .await (.downloadURL path) fun answer =>
          match answer.error with
          | some _ => .emit (.next false) .done
          | none =>
              saveInfoToFirestore lowercased answer.currentUid values (answer.url.getD "")

/-- `AuthManager.performRegistration(values:)`. -/
def performRegistration (filename : String) (values : Register) : AuthProgram :=
  .await (.createUser values.email values.password) fun answer =>
    match answer.error with
    | some _ => .emit (.next false) .done
    | none => saveImageToFirebase lowercased filename values

namespace Register

/-- What a registration waits for: after a failure nothing, otherwise the next of its
four requests. -/
theorem awaiting_after (values : Register) (filename : String) (answers : List AuthAnswer) :
    ((performRegistration lowercased filename values).after answers).awaiting =
      if answers.any AuthAnswer.failed then none
      else
        match answers with
        | [] => some (.createUser values.email values.password)
        | [_] => some (.putData ("/images/" ++ filename) (values.profileImage.getD []))
        | [_, _] => some (.downloadURL ("/images/" ++ filename))
        | [_, _, a] =>
            some (.setUserData (a.currentUid.getD "")
              (docData lowercased values (a.url.getD "") (a.currentUid.getD "")))
        | _ => none := by
  rcases answers with _ | ⟨a₀, _ | ⟨a₁, _ | ⟨a₂, _ | ⟨a₃, answers⟩⟩⟩⟩
  · rfl
  · cases h₀ : a₀.error <;>
      simp [performRegistration, saveImageToFirebase, Program.resume, AuthAnswer.failed, h₀,
        Program.awaiting]
  · cases h₀ : a₀.error <;> cases h₁ : a₁.error <;>
      simp [performRegistration, saveImageToFirebase, Program.resume, AuthAnswer.failed, h₀, h₁,
        Program.awaiting]
  · cases h₀ : a₀.error <;> cases h₁ : a₁.error <;> cases h₂ : a₂.error <;>
      simp [performRegistration, saveImageToFirebase, saveInfoToFirestore, Program.resume,
        AuthAnswer.failed, h₀, h₁, h₂, Program.awaiting]
  · cases h₀ : a₀.error <;> cases h₁ : a₁.error <;> cases h₂ : a₂.error <;>
      cases h₃ : a₃.error <;>
      simp [performRegistration, saveImageToFirebase, saveInfoToFirestore, Program.resume,
        AuthAnswer.failed, h₀, h₁, h₂, h₃, Program.awaiting]

/-- The program reports `false` at its first failure and `true` after `n` successes. -/
def Reports (p : AuthProgram) (n : Nat) : Prop :=
  ∀ answers, p.outputs answers =
    if (answers.take n).any AuthAnswer.failed then [.next false]
    else if n ≤ answers.length then [.next true] else []

theorem reports_true : Reports (.emit (.next true) .done) 0 := by
  intro answers
  simp

/-- A handler that reports `false` at a failure adds one request to the chain. -/
theorem Reports.await {request : AuthRequest} {handler : AuthAnswer → AuthProgram} {n : Nat}
    (hfailed : ∀ answer error, answer.error = some error →
      handler answer = .emit (.next false) .done)
    (hok : ∀ answer, answer.error = none → Reports (handler answer) n) :
    Reports (.await request handler) (n + 1) := by
  intro answers
  cases answers with
  | nil => rfl
  | cons answer rest =>
      change (handler answer).outputs rest = _
      cases herror : answer.error with
      | some error => simp [hfailed answer error herror, AuthAnswer.failed, herror]
      | none =>
          rw [hok answer herror rest]
          simp [AuthAnswer.failed, herror]

theorem reports_saveInfoToFirestore (currentUid : Option Uid) (values : Register)
    (imageURL : String) :
    Reports (saveInfoToFirestore lowercased currentUid values imageURL) 1 := by
  refine Reports.await ?_ ?_
  · intro answer error herror
    simp [herror]
  · intro answer herror
    simpa [herror] using reports_true

theorem reports_saveImageToFirebase (filename : String) (values : Register) :
    Reports (saveImageToFirebase lowercased filename values) 3 := by
  refine Reports.await ?_ ?_
  · intro answer error herror
    simp [herror]
  · intro answer herror
    simp only [herror]
    refine Reports.await ?_ ?_
    · intro answer error herror
      simp [herror]
    · intro answer herror
      simp only [herror]
      exact reports_saveInfoToFirestore lowercased _ _ _

/-- A registration reports `false` at its first failure and `true` after four
successes. -/
theorem reports_performRegistration (values : Register) (filename : String) :
    Reports (performRegistration lowercased filename values) 4 := by
  refine Reports.await ?_ ?_
  · intro answer error herror
    simp [herror]
  · intro answer herror
    simp only [herror]
    exact reports_saveImageToFirebase lowercased _ _

/-- A registration reports elements only. -/
theorem isStop_of_mem_outputs {values : Register} {filename : String}
    {answers : List AuthAnswer} {event : Event BackendError Bool}
    (h : event ∈ (performRegistration lowercased filename values).outputs answers) :
    event.isStop = false := by
  rw [reports_performRegistration] at h
  split at h
  · rw [List.mem_singleton.1 h]
    rfl
  · split at h
    · rw [List.mem_singleton.1 h]
      rfl
    · cases h

/-- A registration asks for an account first, and only then. -/
theorem createUser_iff {values : Register} {filename : String} {answers : List AuthAnswer}
    {request : AuthRequest}
    (h : ((performRegistration lowercased filename values).after answers).awaiting =
      some request) :
    (answers = [] ∧ request = .createUser values.email values.password) ∨
      (answers ≠ [] ∧ ∀ email password, request ≠ .createUser email password) := by
  rw [awaiting_after] at h
  split at h
  · cases h
  · split at h
    · exact Or.inl ⟨rfl, (Option.some.inj h).symm⟩
    · cases h
      exact Or.inr ⟨by simp, by simp⟩
    · cases h
      exact Or.inr ⟨by simp, by simp⟩
    · cases h
      exact Or.inr ⟨by simp, by simp⟩
    · cases h

/-- `true` is reported after four successes. -/
theorem true_mem_outputs_iff {values : Register} {filename : String}
    {answers : List AuthAnswer} :
    .next true ∈ (performRegistration lowercased filename values).outputs answers ↔
      (answers.take 4).any AuthAnswer.failed = false ∧ 4 ≤ answers.length := by
  rw [reports_performRegistration]
  by_cases hfailed : (answers.take 4).any AuthAnswer.failed = true
  · rw [if_pos hfailed]
    simp [hfailed]
  · rw [if_neg hfailed]
    simp only [Bool.not_eq_true] at hfailed
    by_cases hlength : 4 ≤ answers.length
    · simp [hfailed, hlength]
    · simp [hlength]

/-- `false` is reported at the first failure. -/
theorem false_mem_outputs_iff {values : Register} {filename : String}
    {answers : List AuthAnswer} :
    .next false ∈ (performRegistration lowercased filename values).outputs answers ↔
      (answers.take 4).any AuthAnswer.failed = true := by
  rw [reports_performRegistration]
  by_cases hfailed : (answers.take 4).any AuthAnswer.failed = true
  · rw [if_pos hfailed]
    simp [hfailed]
  · rw [if_neg hfailed]
    split <;> simp [hfailed]

/-- `true` comes after a first answer, and that answer was no failure. -/
theorem head_of_true_mem_outputs {values : Register} {filename : String}
    {answers : List AuthAnswer}
    (h : .next true ∈ (performRegistration lowercased filename values).outputs answers) :
    ∃ answer rest, answers = answer :: rest ∧ answer.failed = false := by
  rcases (true_mem_outputs_iff lowercased).1 h with ⟨hok, hlength⟩
  cases answers with
  | nil => cases hlength
  | cons answer rest =>
      simp only [List.take_succ_cons, List.any_cons, Bool.or_eq_false_iff] at hok
      exact ⟨answer, rest, rfl, hok.1⟩

end Register

end Registration

end WaffleChat
