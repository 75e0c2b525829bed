import WaffleChat.Library.CallbackProgram
import WaffleChat.Library.Observers
import WaffleChat.Model.Records

/-!
# Uploading a message

`APIManager.uploadMessage`: two chained `addDocument` calls, one into the log of
each participant, and then two `setData` calls without completion handlers that
overwrite the summary documents of both.

Main results:

- Theorems `Upload.awaiting_after`, `Upload.performed_after` and
  `Upload.outputs_eq`: what an upload waits for, issues and reports, as a
  function of the answers its handlers have received.
- Theorem `Upload.init_message`: the uploaded document decodes to what was sent, with the
  date in whole microseconds.
-/

namespace WaffleChat

open CallbackProgram Observers

/-! ## Paths and dictionaries -/

/-- `messages/<owner>/<peer>`: the log of the chat with `peer` in the account of
`owner`. -/
def logPath (owner peer : Uid) : CollectionPath :=
  ["messages", owner, peer]

/-- `messages/<owner>/recent-messages`: one summary document for each peer. -/
def recentPath (owner : Uid) : CollectionPath :=
  ["messages", owner, "recent-messages"]

/-- The dictionary `uploadMessage` hands over four times. -/
def messageData (text : String) (fromId toId : Uid) (timestamp : Timestamp) :
    Dictionary :=
  [("text", .string text),
   ("fromId", .string fromId),
   ("toId", .string toId),
   ("timestamp", .timestamp timestamp)]

theorem logPath_injective {owner peer owner' peer' : Uid} :
    logPath owner peer = logPath owner' peer' ↔ owner = owner' ∧ peer = peer' := by
  simp [logPath]

theorem recentPath_injective {owner owner' : Uid} :
    recentPath owner = recentPath owner' ↔ owner = owner' := by
  simp [recentPath]

/-- The summaries share a collection only with the log of a peer of that name. -/
theorem logPath_eq_recentPath {owner peer owner' : Uid} :
    logPath owner peer = recentPath owner' ↔ owner = owner' ∧ peer = "recent-messages" := by
  simp [logPath, recentPath]

/-! ## The upload program -/

/-- `APIManager.uploadMessage(_:To:)`.  Without a session or a user the
observable is `just(false)`; the completion handlers ignore their error. -/
def uploadMessage (date : Timestamp) (currentUser : Option Uid) (message : String)
    (user : Option User) :
    Program WriteRequest WriteResult (Event BackendError Bool) :=
  match currentUser, user with
  | some currentUid, some user =>
      let message := messageData message currentUid user.uid date
      .await (.addDocument (logPath currentUid user.uid) (parsedSetData message)) fun _ =>
        .await (.addDocument (logPath user.uid currentUid) (parsedSetData message)) fun _ =>
          .perform (.setData (recentPath currentUid) user.uid (parsedSetData message)) <|
          .perform (.setData (recentPath user.uid) currentUid (parsedSetData message)) <|
          .emit (.next true) .done
  | _, _ => .emit (.next false) (.emit .completed .done)

/-- A call of `uploadMessage` by a signed-in user. -/
structure Upload where
  currentUid : Uid
  user : User
  text : String
  date : Timestamp
deriving DecidableEq, Repr

namespace Upload

/-- A call with a made-up profile of the receiver, for concrete runs. -/
def sample (currentUid peer : Uid) (text : String) (seconds : Int) : Upload where
  currentUid := currentUid
  user := .sample peer
  text := text
  date := ⟨seconds, 0⟩

/-- The other participant. -/
def peer (u : Upload) : Uid :=
  u.user.uid

/-- The document that is written. -/
def message (u : Upload) : Dictionary :=
  parsedSetData (messageData u.text u.currentUid u.peer u.date)

/-- The program the call runs. -/
def program (u : Upload) : Program WriteRequest WriteResult (Event BackendError Bool) :=
  uploadMessage u.date (some u.currentUid) u.text (some u.user)

/-- The copy for the sender, written first. -/
def ownLog (u : Upload) : WriteRequest :=
  .addDocument (logPath u.currentUid u.peer) u.message

/-- The copy for the receiver, written second. -/
def peerLog (u : Upload) : WriteRequest :=
  .addDocument (logPath u.peer u.currentUid) u.message

/-- The summary shown to the sender. -/
def ownSummary (u : Upload) : WriteRequest :=
  .setData (recentPath u.currentUid) u.peer u.message

/-- The summary shown to the receiver. -/
def peerSummary (u : Upload) : WriteRequest :=
  .setData (recentPath u.peer) u.currentUid u.message

/-- The two log writes are awaited one after the other. -/
theorem awaiting_after (u : Upload) (answers : List WriteResult) :
    (u.program.after answers).awaiting =
      match answers with
      | [] => some u.ownLog
      | [_] => some u.peerLog
      | _ => none := by
  rcases answers with _ | ⟨_, _ | ⟨_, _ | ⟨_, answers⟩⟩⟩
  · rfl
  · rfl
  · rfl
  · exact congrArg Program.awaiting (Program.done_after answers)

/-- The summaries are issued by the handler of the second log write. -/
theorem performed_after (u : Upload) (answers : List WriteResult) :
    (u.program.after answers).performed =
      match answers with
      | [_, _] => [u.ownSummary, u.peerSummary]
      | _ => [] := by
  rcases answers with _ | ⟨_, _ | ⟨_, _ | ⟨_, answers⟩⟩⟩
  · rfl
  · rfl
  · rfl
  · exact congrArg Program.performed (Program.done_after answers)

/-- The single value reported is `true`, once both log writes have called back. -/
theorem outputs_eq (u : Upload) (answers : List WriteResult) :
    u.program.outputs answers = if 2 ≤ answers.length then [.next true] else [] := by
  rcases answers with _ | ⟨r₁, _ | ⟨r₂, _ | ⟨r₃, answers⟩⟩⟩
  · rfl
  · rfl
  · rfl
  · have hlast : u.program.outputs (r₁ :: r₂ :: r₃ :: answers) =
        [.next true] ++ (Program.done : Program _ _ _).outputs answers := rfl
    simpa using hlast

/-- Only the handler of the second log write reports. -/
theorem emitted_after (u : Upload) (answers : List WriteResult) :
    (u.program.after answers).emitted = if answers.length = 2 then [.next true] else [] := by
  rcases answers with _ | ⟨_, _ | ⟨_, _ | ⟨_, answers⟩⟩⟩
  · rfl
  · rfl
  · rfl
  · exact congrArg Program.emitted (Program.done_after answers)

/-- Reading the uploaded document back. -/
theorem init_message (u : Upload) (ambient : Ambient) :
    Message.init ambient u.message =
      { text := u.text
        toId := u.peer
        fromId := u.currentUid
        timestamp := u.date.truncate
        user := none
        isFromCurrentUser := some u.currentUid == ambient.currentUid } :=
  Message.init_eq_of_typed rfl rfl rfl rfl ambient

end Upload

end WaffleChat
