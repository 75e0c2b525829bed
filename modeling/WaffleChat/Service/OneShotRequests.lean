import WaffleChat.Service.Authentication
import WaffleChat.Service.FetchConversations
import WaffleChat.Service.FetchUsers
import WaffleChat.Service.UploadMessage

/-!
# Requests that are answered once

The five request functions of `APIManager` and `AuthManager` whose observables answer
once: two fetches, the upload of a message, the sign-in and the registration.  Each is a
program, and its subscriber hears what passes the sink of the observable.  The names of users
become paths of documents and collections, and a path that is refused raises an exception,
which ends the process in the middle of the program.

Main results:

- Theorem `fetchUserProgram_outputs_ne_nil_iff`: when `fetchUser` reports; the other four
  report at each of their exits.
- Theorems `unreported_uploadMessage_iff` and `unreported_registration_iff`: when an upload or
  a registration is ended by an exception.
- Theorem `delivered_ne_nil_iff`: when a request whose last step has been called back has
  been answered.
-/

namespace WaffleChat

open CallbackProgram Observers

/-! ## The two fetches -/

/-- The requests of the fetches. -/
inductive FetchRequest where
  | getDocuments (collection : CollectionPath)
  | getDocument (collection : CollectionPath) (document : String)
deriving DecidableEq, Repr

/-- What the completion handler of `getDocument` is handed: an error, and the data of the
document if there is a snapshot of a document that exists. -/
structure DocumentAnswer where
  error : Option BackendError
  data : Option Dictionary
deriving DecidableEq, Repr

/-- `APIManager.fetchUsers()`. -/
def fetchUsersProgram : Program FetchRequest UsersAnswer (Event BackendError (List User)) :=
  .await (.getDocuments usersPath) fun answer => .report (fetchUsers answer)

/-- `APIManager.fetchUser(uid:)`; the error is not looked at. -/
def fetchUserProgram (uid : Uid) :
    Program FetchRequest DocumentAnswer (Event BackendError (Option User)) :=
  .await (.getDocument usersPath uid) fun answer => .report (fetchUser answer.data)

/-! ## Exits -/

/-- The user list or its error is reported. -/
theorem alwaysReports_fetchUsersProgram : fetchUsersProgram.AlwaysReports := by
  intro answer
  refine Program.alwaysReports_report ?_
  unfold fetchUsers
  split <;> simp

/-- A finished `fetchUser` has reported exactly if it was handed a document that decodes. -/
theorem fetchUserProgram_outputs_ne_nil_iff {uid : Uid} {answers : List DocumentAnswer}
    (hfinished : ((fetchUserProgram uid).after answers).awaiting = none) :
    (fetchUserProgram uid).outputs answers ≠ [] ↔
      ∃ answer ∈ answers.head?, (answer.data.bind User.init?).isSome = true := by
  cases answers with
  | nil => cases hfinished
  | cons answer answers =>
      have houtputs : (fetchUserProgram uid).outputs (answer :: answers) =
          fetchUser answer.data :=
        Program.report_outputs (fetchUser answer.data) answers
      rw [houtputs, fetchUser]
      cases huser : answer.data.bind User.init? with
      | none => simp [huser]
      | some user => simp [huser]

/-- An upload reports, also where it is not made. -/
theorem alwaysReports_uploadMessage (date : Timestamp) (currentUser : Option Uid)
    (message : String) (user : Option User) :
    (uploadMessage date currentUser message user).AlwaysReports := by
  cases currentUser with
  | none => trivial
  | some currentUid =>
      cases user with
      | none => trivial
      | some user =>
          intro ownLog peerLog
          trivial

/-- A login reports its outcome. -/
theorem alwaysReports_performLogin (email password : String) :
    (performLogin email password).AlwaysReports := by
  intro answer
  cases herror : answer.error <;> simp [herror, Program.AlwaysReports]

/-- A registration reports at each of its exits. -/
theorem alwaysReports_performRegistration (lowercased : String → String) (filename : String)
    (values : Register) :
    (performRegistration lowercased filename values).AlwaysReports := by
  intro created
  cases hcreated : created.error with
  | some error => simp [hcreated, Program.AlwaysReports]
  | none =>
      simp only [hcreated]
      intro stored
      cases hstored : stored.error with
      | some error => simp [hstored, Program.AlwaysReports]
      | none =>
          simp only [hstored]
          intro url
          cases hurl : url.error with
          | some error => simp [hurl, Program.AlwaysReports]
          | none =>
              simp only [hurl]
              intro saved
              cases hsaved : saved.error <;> simp [hsaved, Program.AlwaysReports]

/-! ## Exceptions -/

/-- The path of the request is refused. -/
def FetchRequest.Raises : FetchRequest → Prop
  | .getDocuments _ => False
  | .getDocument _ document => Refused document

/-- A path of the request is refused. -/
def WriteRequest.Raises : WriteRequest → Prop
  | .addDocument collection _ => ∃ path ∈ collection, Refused path
  | .setData collection document _ => (∃ path ∈ collection, Refused path) ∨ Refused document

/-- The path of the request is refused. -/
def AuthRequest.Raises : AuthRequest → Prop
  | .setUserData uid _ => Refused uid
  | _ => False

instance : DecidablePred FetchRequest.Raises
  | .getDocuments _ => inferInstanceAs (Decidable False)
  | .getDocument _ document => inferInstanceAs (Decidable (Refused document))

instance : DecidablePred WriteRequest.Raises
  | .addDocument collection _ => inferInstanceAs (Decidable (∃ path ∈ collection, Refused path))
  | .setData collection document _ =>
      inferInstanceAs (Decidable ((∃ path ∈ collection, Refused path) ∨ Refused document))

instance : DecidablePred AuthRequest.Raises
  | .signIn _ _ => inferInstanceAs (Decidable False)
  | .createUser _ _ => inferInstanceAs (Decidable False)
  | .putData _ _ => inferInstanceAs (Decidable False)
  | .downloadURL _ => inferInstanceAs (Decidable False)
  | .setUserData uid _ => inferInstanceAs (Decidable (Refused uid))

/-! ## Reports and exceptions -/

/-- The user list is asked for in one request. -/
theorem unreported_fetchUsersProgram (answers : List UsersAnswer) :
    fetchUsersProgram.unreported answers = [.getDocuments usersPath] := by
  cases answers <;> simp [fetchUsersProgram, Program.unreported]

/-- A login is one request. -/
theorem unreported_performLogin (email password : String) (answers : List AuthAnswer) :
    (performLogin email password).unreported answers = [.signIn email password] := by
  rcases answers with _ | ⟨answer, answers⟩
  · rfl
  · cases herror : answer.error <;> simp [performLogin, Program.unreported, herror]

/-- A finished `fetchUser` has reported exactly if its id makes a path and it was handed a
document that decodes. -/
theorem fetchUser_outputs_ne_nil_iff {uid : Uid} {answers : List DocumentAnswer}
    (hfinished : (((fetchUserProgram uid).raisingAt FetchRequest.Raises).after
      answers).awaiting = none) :
    ((fetchUserProgram uid).raisingAt FetchRequest.Raises).outputs answers ≠ [] ↔
      ¬ Refused uid ∧ ∃ answer ∈ answers.head?, (answer.data.bind User.init?).isSome = true := by
  by_cases huid : Refused uid
  · have hends : (fetchUserProgram uid).raisingAt FetchRequest.Raises = .done := if_pos huid
    simp [hends, huid]
  · have hgoes : (fetchUserProgram uid).raisingAt FetchRequest.Raises = fetchUserProgram uid := by
      simp [fetchUserProgram, Program.raisingAt, FetchRequest.Raises, huid]
    rw [hgoes] at hfinished ⊢
    rw [fetchUserProgram_outputs_ne_nil_iff hfinished]
    simp [huid]

/-- A log is named by the ids of two users. -/
theorem raises_logPath_iff {uid peer : Uid} {data : Dictionary} :
    (WriteRequest.addDocument (logPath uid peer) data).Raises ↔ Refused uid ∨ Refused peer := by
  have hmessages : ¬ Refused "messages" := by simp [refused_iff_eq_empty]
  simp only [WriteRequest.Raises, logPath, List.mem_cons, List.not_mem_nil, or_false,
    or_and_right, exists_or, exists_eq_left, hmessages, false_or]

/-- A summary is named by the ids of two users. -/
theorem raises_recentPath_iff {uid peer : Uid} {data : Dictionary} :
    (WriteRequest.setData (recentPath uid) peer data).Raises ↔ Refused uid ∨ Refused peer := by
  have hmessages : ¬ Refused "messages" := by simp [refused_iff_eq_empty]
  have hrecent : ¬ Refused "recent-messages" := by simp [refused_iff_eq_empty]
  simp only [WriteRequest.Raises, recentPath, List.mem_cons, List.not_mem_nil, or_false,
    or_and_right, exists_or, exists_eq_left, hmessages, hrecent, false_or]

/-- The paths of an upload are made of the ids of its two users. -/
theorem unreported_uploadMessage_iff {date : Timestamp} {currentUser : Option Uid}
    {message : String} {user : Option User} {answers : List WriteResult} :
    (∀ request ∈ (uploadMessage date currentUser message user).unreported answers,
        ¬ request.Raises) ↔
      ∀ currentUid ∈ currentUser, ∀ receiver ∈ user,
        ¬ Refused currentUid ∧ ¬ Refused receiver.uid := by
  cases currentUser with
  | none => simp [uploadMessage, Program.unreported]
  | some currentUid =>
      cases user with
      | none => simp [uploadMessage, Program.unreported]
      | some user =>
          have hswap : Refused user.uid ∨ Refused currentUid ↔
              Refused currentUid ∨ Refused user.uid := or_comm
          rcases answers with _ | ⟨own, _ | ⟨peer, answers⟩⟩ <;>
            simp only [uploadMessage, Program.unreported, List.forall_mem_cons,
              List.not_mem_nil, false_implies, implies_true, raises_logPath_iff,
              raises_recentPath_iff, hswap, and_true, and_self, Option.mem_some_iff, forall_eq',
              not_or]

/-- An earlier request of the registration has failed, or the user who is signed in when the
download URL arrives has an id that makes a path. -/
def SavesNamed (answers : List AuthAnswer) : Prop :=
  (answers.take 3).any AuthAnswer.failed = true ∨
    ∀ answer ∈ answers[2]?, ¬ Refused (answer.currentUid.getD "")

instance : DecidablePred SavesNamed := fun _ =>
  inferInstanceAs (Decidable (_ ∨ _))

/-- The profile is saved before anything is reported. -/
theorem unreported_saveInfoToFirestore (lowercased : String → String) (currentUid : Option Uid)
    (values : Register) (imageURL : String) (answers : List AuthAnswer) :
    (saveInfoToFirestore lowercased currentUid values imageURL).unreported answers =
      [.setUserData (currentUid.getD "")
        (docData lowercased values imageURL (currentUid.getD ""))] := by
  rcases answers with _ | ⟨answer, answers⟩
  · rfl
  · cases herror : answer.error <;> simp [saveInfoToFirestore, Program.unreported, herror]

/-- The only path of a registration is that of the profile, which comes last. -/
theorem unreported_registration_iff (lowercased : String → String) (filename : String)
    (values : Register) {answers : List AuthAnswer} :
    (∀ request ∈ (performRegistration lowercased filename values).unreported answers,
        ¬ request.Raises) ↔ SavesNamed answers := by
  rcases answers with _ | ⟨created, _ | ⟨stored, _ | ⟨url, answers⟩⟩⟩
  · simp [performRegistration, Program.unreported, AuthRequest.Raises, SavesNamed]
  · cases hcreated : created.error <;>
      simp [performRegistration, saveImageToFirebase, Program.unreported, AuthRequest.Raises,
        SavesNamed, hcreated]
  · cases hcreated : created.error <;> cases hstored : stored.error <;>
      simp [performRegistration, saveImageToFirebase, Program.unreported, AuthRequest.Raises,
        SavesNamed, hcreated, hstored]
  · cases hcreated : created.error <;> cases hstored : stored.error <;>
      cases hurl : url.error <;>
      simp [performRegistration, saveImageToFirebase, Program.unreported,
        unreported_saveInfoToFirestore, AuthRequest.Raises, SavesNamed, AuthAnswer.failed,
        hcreated, hstored, hurl]

/-! ## The five requests -/

/-- A call of one of the functions. -/
inductive OneShot where
  | fetchUsers
  | fetchUser (uid : Uid)
  /-- The session and the device clock are read when the function is called. -/
  | uploadMessage (date : Timestamp) (currentUser : Option Uid) (message : String)
      (user : Option User)
  | performLogin (email password : String)
  /-- `filename` is the UUID drawn for the image. -/
  | performRegistration (filename : String) (values : Register)

namespace OneShot

/-- What the function asks the backend for. -/
@[reducible]
def Request : OneShot → Type
  | .fetchUsers => FetchRequest
  | .fetchUser _ => FetchRequest
  | .uploadMessage _ _ _ _ => WriteRequest
  | .performLogin _ _ => AuthRequest
  | .performRegistration _ _ => AuthRequest

/-- What its completion handlers are handed. -/
@[reducible]
def Answer : OneShot → Type
  | .fetchUsers => UsersAnswer
  | .fetchUser _ => DocumentAnswer
  | .uploadMessage _ _ _ _ => WriteResult
  | .performLogin _ _ => AuthAnswer
  | .performRegistration _ _ => AuthAnswer

/-- The elements of its observable. -/
def Element : OneShot → Type
  | .fetchUsers => List User
  | .fetchUser _ => Option User
  | .uploadMessage _ _ _ _ => Bool
  | .performLogin _ _ => Bool
  | .performRegistration _ _ => Bool

variable (lowercased : String → String)

/-- The program the call runs, up to the exception it may raise. -/
def program : (call : OneShot) →
    Program call.Request call.Answer (Event BackendError call.Element)
  | .fetchUsers => fetchUsersProgram.raisingAt FetchRequest.Raises
  | .fetchUser uid => (fetchUserProgram uid).raisingAt FetchRequest.Raises
  | .uploadMessage date currentUser message user =>
      (WaffleChat.uploadMessage date currentUser message user).raisingAt WriteRequest.Raises
  | .performLogin email password =>
      (WaffleChat.performLogin email password).raisingAt AuthRequest.Raises
  | .performRegistration filename values =>
      (WaffleChat.performRegistration lowercased filename values).raisingAt AuthRequest.Raises

/-- The backend has called back for the last step the call has issued. -/
def Finished (call : OneShot) (answers : List call.Answer) : Prop :=
  ((call.program lowercased).after answers).awaiting = none

/-- What a subscriber has received once the handlers have run. -/
def delivered (call : OneShot) (answers : List call.Answer) :
    List (Event BackendError call.Element) :=
  (feed CreateSink.on CreateSink.fresh ((call.program lowercased).outputs answers)).2

/-- The document `fetchUser` is handed exists and decodes, and the ids the calls name users by
make paths; nothing else is asked of the answers. -/
def Answerable : (call : OneShot) → List call.Answer → Prop
  | .fetchUsers, _ => True
  | .fetchUser uid, answers =>
      ¬ Refused uid ∧ ∃ answer ∈ answers.head?, (answer.data.bind User.init?).isSome = true
  | .uploadMessage _ currentUser _ user, _ =>
      ∀ currentUid ∈ currentUser, ∀ receiver ∈ user,
        ¬ Refused currentUid ∧ ¬ Refused receiver.uid
  | .performLogin _ _, _ => True
  | .performRegistration _ _, answers => SavesNamed answers

/-! ## What is delivered -/

/-- **Every one-shot request answers.**  A call whose last step has been called back has
been answered exactly if it is not a `fetchUser` whose document is missing or does not
decode, and no exception has ended it. -/
theorem delivered_ne_nil_iff {call : OneShot} {answers : List call.Answer}
    (hfinished : call.Finished lowercased answers) :
    call.delivered lowercased answers ≠ [] ↔ call.Answerable answers := by
  refine (not_congr feed_createSink_eq_nil_iff).trans ?_
  cases call with
  | fetchUsers =>
      refine (alwaysReports_fetchUsersProgram.outputs_raisingAt_ne_nil_iff hfinished).trans ?_
      rw [unreported_fetchUsersProgram]
      simp [FetchRequest.Raises, Answerable]
  | fetchUser uid => exact fetchUser_outputs_ne_nil_iff hfinished
  | uploadMessage date currentUser message user =>
      refine ((alwaysReports_uploadMessage date currentUser message
        user).outputs_raisingAt_ne_nil_iff hfinished).trans ?_
      exact unreported_uploadMessage_iff
  | performLogin email password =>
      refine ((alwaysReports_performLogin email password).outputs_raisingAt_ne_nil_iff
        hfinished).trans ?_
      rw [unreported_performLogin]
      simp [AuthRequest.Raises, Answerable]
  | performRegistration filename values =>
      refine ((alwaysReports_performRegistration lowercased filename
        values).outputs_raisingAt_ne_nil_iff hfinished).trans ?_
      exact unreported_registration_iff lowercased filename values

/-- The registration of `alice` fails when its image is uploaded. -/
theorem delivered_ne_nil_iff_failedUpload :
    (OneShot.performRegistration "photo" ⟨none, "alice@example.com", "Alice", "alice",
      "password"⟩).delivered id
        [⟨none, none, some "alice"⟩, ⟨some ⟨"unavailable"⟩, none, some "alice"⟩] ≠ [] :=
  (@delivered_ne_nil_iff id (OneShot.performRegistration "photo"
    ⟨none, "alice@example.com", "Alice", "alice", "password"⟩) _ (by rfl)).2
      (Or.inl (by decide))

/-- A registration whose user signs out before the download URL arrives. -/
def signedOutRegistration : List AuthAnswer :=
  [⟨none, none, some "alice"⟩, ⟨none, none, some "alice"⟩, ⟨none, some "https://image", none⟩]

/-- A fetch of a user without a document has had its answer, and delivers nothing; neither does
a registration that is ended by an exception. -/
theorem not_delivered_of_missingDocument :
    ((OneShot.fetchUser "alice").Finished id [(⟨none, none⟩ : DocumentAnswer)] ∧
      (OneShot.fetchUser "alice").delivered id [(⟨none, none⟩ : DocumentAnswer)] = []) ∧
    ((OneShot.performRegistration "photo" ⟨none, "alice@example.com", "Alice", "alice",
        "password"⟩).Finished id signedOutRegistration ∧
      (OneShot.performRegistration "photo" ⟨none, "alice@example.com", "Alice", "alice",
        "password"⟩).delivered id signedOutRegistration = []) :=
  ⟨⟨rfl, rfl⟩, rfl, rfl⟩

end OneShot

end WaffleChat
