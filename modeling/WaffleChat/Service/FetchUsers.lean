import WaffleChat.Library.Observers
import WaffleChat.Model.Records

/-!
# Fetching the users

`APIManager.fetchUsers`: one request for all profile documents.  Documents that do not
decode and the profile of the current user are left out.

Main results:

- Theorem `UsersAnswer.mem_users_iff`: whose profiles a successful fetch delivers.
- Theorem `delivered_fetchUsers`: a fetch delivers its list and completion, or its
  error.
-/

namespace WaffleChat

open Observers

/-- What the completion handler of `getDocuments` reads: its error, the documents of
its snapshot, and `Auth.auth().currentUser?.uid` at that moment. -/
structure UsersAnswer where
  error : Option BackendError
  documents : Option (List Dictionary)
  currentUid : Option Uid
deriving DecidableEq, Repr

/-- A made-up answer with the profiles of `uids`, for concrete runs. -/
def UsersAnswer.sample (uids : List Uid) : UsersAnswer where
  error := none
  documents := some (uids.map fun uid =>
    [("email", .string uid), ("fullname", .string uid), ("profileImageURL", .string ""),
     ("uid", .string uid), ("username", .string uid)])
  currentUid := none

/-- A made-up failure, for concrete runs. -/
def UsersAnswer.failure : UsersAnswer where
  error := some ⟨"unavailable"⟩
  documents := none
  currentUid := none

/-- The users a successful answer is turned into. -/
def UsersAnswer.users (answer : UsersAnswer) : List User :=
  ((answer.documents.getD []).filterMap User.init?).filter fun user =>
    some user.uid ≠ answer.currentUid

/-- `APIManager.fetchUsers()`, from the answer to its request. -/
def fetchUsers (answer : UsersAnswer) : List (Event BackendError (List User)) :=
  match answer.error with
  | some error => [.error error]
  | none => [.next answer.users, .completed]

/-- A successful fetch delivers the other users whose documents decode. -/
theorem UsersAnswer.mem_users_iff {answer : UsersAnswer} {user : User} :
    user ∈ answer.users ↔
      (∃ dic ∈ answer.documents.getD [], User.init? dic = some user) ∧
        some user.uid ≠ answer.currentUid := by
  simp only [users, List.mem_filter, List.mem_filterMap, decide_eq_true_eq]

/-- A fetch delivers its list and completion, or its error. -/
theorem delivered_fetchUsers (answer : UsersAnswer) :
    (feed CreateSink.on CreateSink.fresh (fetchUsers answer)).2 = fetchUsers answer := by
  rw [feed_createSink]
  unfold fetchUsers
  split <;> rfl

end WaffleChat
