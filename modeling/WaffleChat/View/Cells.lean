import Mathlib.Data.List.Induction
import WaffleChat.Model.Records

/-!
# Reused cells

`MessageCell` and `ConversationCell`.  Each is configured by the `didSet` of the record
assigned to it, when it is first shown and each time it is reused.

Main results:

- Theorem `MessageCell.setMessage_eq_none`: assigning a message does not terminate.
- Theorem `MessageCell.shows_assigned_iff`: which sequences of messages are shown.
- Theorem `ConversationCell.labels_assigned`: whose labels a row shows.
- Theorem `ConversationCell.labels_agree_iff`: which rows depend on their last
  conversation only.
-/

namespace WaffleChat

section Cells

-- `URL(string:)`, `Timestamp.dateValue()`, and `DateFormatter.string(from:)` after its
-- `dateFormat` has been set
variable {URL Date : Type} (url : String → Option URL) (dateValue : Timestamp → Date)
  (string : (dateFormat : String) → Date → String)

/-- The text of the time labels. -/
def timeStampText (timestamp : Timestamp) : String :=
  string "MM.dd hh:mm a" (dateValue timestamp)

/-! ## The message cell -/

/-- The colors of a message; `silver` is the color literal of the sent ones. -/
inductive Color where
  | silver
  | brown
  | black
  | white
deriving DecidableEq, Repr

/-- The message assigned last, and what the subviews of the cell show. -/
structure MessageCell (URL : Type) where
  message : Option Message
  bubbleContainerColor : Color
  textColor : Color
  text : String
  timeStampLabel : Option String
  textLeadingConst : Bool
  texttrailingConst : Bool
  timelabelLeadingConst : Bool
  timelabelTrailingConst : Bool
  profileImageIsHidden : Bool
  profileImage : Option URL
deriving DecidableEq, Repr

namespace MessageViewModel

/-! How the side of a message decides what its cell looks like. -/

def messageBackgroundColor (message : Message) : Color :=
  if message.isFromCurrentUser then .silver else .brown

def messageTextColor (message : Message) : Color :=
  if message.isFromCurrentUser then .black else .white

def trailingingAnchorActive (message : Message) : Bool :=
  message.isFromCurrentUser

def leadingAnchorActive (message : Message) : Bool :=
  !message.isFromCurrentUser

def shouldHideProfileImage (message : Message) : Bool :=
  message.isFromCurrentUser

def profileImageUrl (message : Message) : Option URL :=
  message.user.bind fun user => url user.profileImageUrl

end MessageViewModel

namespace MessageCell

open MessageViewModel

/-- `init(frame:)`: the subviews as they are created, without active constraints. -/
def create : MessageCell URL where
  message := none
  bubbleContainerColor := .brown
  textColor := .white
  text := ""
  timeStampLabel := none
  textLeadingConst := false
  texttrailingConst := false
  timelabelLeadingConst := false
  timelabelTrailingConst := false
  profileImageIsHidden := false
  profileImage := none

/-- `configure()` behind its guard. -/
def present (cell : MessageCell URL) (message : Message) : MessageCell URL :=
  { cell with
    bubbleContainerColor := messageBackgroundColor message
    textColor := messageTextColor message
    text := message.text
    timeStampLabel := some (timeStampText dateValue string message.timestamp)
    textLeadingConst := leadingAnchorActive message
    texttrailingConst := trailingingAnchorActive message
    timelabelLeadingConst := leadingAnchorActive message
    timelabelTrailingConst := trailingingAnchorActive message
    profileImageIsHidden := shouldHideProfileImage message
    profileImage := profileImageUrl url message }

/-- The four constraints are deactivated. -/
def deactivated (cell : MessageCell URL) : MessageCell URL :=
  { cell with
    textLeadingConst := false
    texttrailingConst := false
    timelabelLeadingConst := false
    timelabelTrailingConst := false }

/-- `resetCellForReuse()`, by the setter of `message` it calls. -/
def resetCellForReuse (set : MessageCell URL → Option Message → Option (MessageCell URL))
    (cell : MessageCell URL) : Option (MessageCell URL) :=
  (set cell none).map deactivated

/-- `configure()`. -/
def configure (set : MessageCell URL → Option Message → Option (MessageCell URL))
    (cell : MessageCell URL) : Option (MessageCell URL) :=
  (resetCellForReuse set cell).map fun cell =>
    cell.message.elim cell (cell.present url dateValue string)

/-- The setter of `message` with its `didSet`, which runs again for the assignment in
`resetCellForReuse()`; `none` while the calls are nested deeper than `fuel`. -/
def setMessage : Nat → MessageCell URL → Option Message → Option (MessageCell URL)
  | 0, _, _ => none
  | fuel + 1, cell, message =>
      configure url dateValue string (setMessage fuel) { cell with message := message }

/-- The messages are assigned one after another. -/
def assigned (fuel : Nat) (cell : MessageCell URL) (messages : List Message) :
    Option (MessageCell URL) :=
  messages.foldlM (fun cell message => setMessage url dateValue string fuel cell (some message))
    cell

/-- The text and the time of the message, the constraints of its side only, and no profile
image on the side of the current user. -/
structure Shows (cell : MessageCell URL) (message : Message) : Prop where
  text_eq : cell.text = message.text
  timeStampLabel_eq :
    cell.timeStampLabel = some (timeStampText dateValue string message.timestamp)
  leading : cell.textLeadingConst = !message.isFromCurrentUser ∧
    cell.timelabelLeadingConst = !message.isFromCurrentUser
  trailing : cell.texttrailingConst = message.isFromCurrentUser ∧
    cell.timelabelTrailingConst = message.isFromCurrentUser
  hidden : message.isFromCurrentUser = true → cell.profileImageIsHidden = true

variable {url dateValue string}

/-- Behind the guard the message is shown, whatever the reset has left. -/
theorem shows_present (cell : MessageCell URL) (message : Message) :
    (cell.present url dateValue string message).Shows dateValue string message :=
  ⟨rfl, rfl, ⟨rfl, rfl⟩, ⟨rfl, rfl⟩, id⟩

/-- `configure()` terminates only if its reset does. -/
theorem configure_eq_none {set : MessageCell URL → Option Message → Option (MessageCell URL)}
    {cell : MessageCell URL} (h : set cell none = none) :
    configure url dateValue string set cell = none := by
  rw [configure, resetCellForReuse, h, Option.map_none, Option.map_none]

/-- If the assignment in the reset ran no `didSet`, the message would be gone when the guard
looks for it. -/
theorem configure_storing (cell : MessageCell URL) :
    configure url dateValue string (fun cell message => some { cell with message := message })
        cell =
      some { cell.deactivated with message := none } :=
  rfl

variable (url dateValue string)

/-- **No assignment terminates.**  Each resets the cell first, and the reset assigns. -/
theorem setMessage_eq_none (fuel : Nat) (cell : MessageCell URL) (message : Option Message) :
    setMessage url dateValue string fuel cell message = none := by
  induction fuel generalizing cell message with
  | zero => rfl
  | succ fuel ih =>
      have hreset : setMessage url dateValue string fuel { cell with message := message } none =
          none := ih _ _
      exact configure_eq_none hreset

/-- **Which messages are shown.**  A sequence of assignments terminates with its last
message shown exactly if it is empty. -/
theorem shows_assigned_iff (cell : MessageCell URL) (messages : List Message) :
    (∃ fuel cell', assigned url dateValue string fuel cell messages = some cell' ∧
        ∀ last ∈ messages.getLast?, cell'.Shows dateValue string last) ↔
      messages = [] := by
  constructor
  · rintro ⟨fuel, cell', hassigned, -⟩
    cases messages with
    | nil => rfl
    | cons message messages =>
        rw [assigned, List.foldlM_cons, setMessage_eq_none] at hassigned
        cases hassigned
  · rintro rfl
    exact ⟨0, cell, rfl, by simp⟩

/-- The first message assigned to a new cell. -/
theorem not_shows_of_firstMessage :
    ¬∃ fuel cell', assigned (some : String → Option String) (fun _ => ())
      (fun _ _ => "01.01 09:00 AM") fuel create [.sample "hi" (.sample "bob")] = some cell' := by
  rintro ⟨fuel, cell', hassigned⟩
  rw [assigned, List.foldlM_cons, setMessage_eq_none] at hassigned
  cases hassigned

end MessageCell

/-! ## The conversation cell -/

/-- The conversation assigned last, and what the subviews of the row show. -/
structure ConversationCell (URL : Type) where
  conversation : Option Conversation
  profileImage : Option URL
  nameLabel : Option String
  messageLabel : Option String
  timeStampLabel : Option String
deriving DecidableEq, Repr

namespace ConversationCell

/-- `init(style:reuseIdentifier:)`. -/
def create : ConversationCell URL where
  conversation := none
  profileImage := none
  nameLabel := none
  messageLabel := none
  timeStampLabel := none

/-- `configureData()`; the second guard is the image URL. -/
def configureData (cell : ConversationCell URL) : ConversationCell URL :=
  match cell.conversation with
  | none => cell
  | some conversation =>
      match url conversation.user.profileImageUrl with
      | none => cell
      | some url =>
          { cell with
            profileImage := some url
            nameLabel := some conversation.user.username
            messageLabel := some conversation.recentMessage.text
            timeStampLabel :=
              some (timeStampText dateValue string conversation.recentMessage.timestamp) }

/-- The setter of `conversation` with its `didSet`. -/
def setConversation (cell : ConversationCell URL) (conversation : Conversation) :
    ConversationCell URL :=
  { cell with conversation := some conversation }.configureData url dateValue string

/-- The row after a history of conversations. -/
def assigned (history : List Conversation) : ConversationCell URL :=
  history.foldl (setConversation url dateValue string) create

/-- The name, the message and the time a row shows. -/
def labels (cell : ConversationCell URL) : Option String × Option String × Option String :=
  (cell.nameLabel, cell.messageLabel, cell.timeStampLabel)

/-- The name, the message and the time of a conversation. -/
def labelsOf (conversation : Conversation) : Option String × Option String × Option String :=
  (some conversation.user.username, some conversation.recentMessage.text,
    some (timeStampText dateValue string conversation.recentMessage.timestamp))

/-- The image of the other user has a URL. -/
def HasURL (conversation : Conversation) : Prop :=
  (url conversation.user.profileImageUrl).isSome = true

instance (conversation : Conversation) : Decidable (HasURL url conversation) :=
  inferInstanceAs (Decidable (_ = true))

variable {url dateValue string}

/-- One assignment sets all three labels or none. -/
theorem labels_setConversation (cell : ConversationCell URL) (conversation : Conversation) :
    (cell.setConversation url dateValue string conversation).labels =
      if HasURL url conversation then labelsOf dateValue string conversation else cell.labels := by
  cases hurl : url conversation.user.profileImageUrl <;>
    simp [setConversation, configureData, HasURL, hurl, labels, labelsOf]

/-- **The labels of a row** are those of the last conversation with an image URL. -/
theorem labels_assigned (history : List Conversation) :
    (assigned url dateValue string history).labels =
      (history.filter (HasURL url ·)).getLast?.elim (none, none, none)
        (labelsOf dateValue string) := by
  induction history using List.reverseRecOn with
  | nil => rfl
  | append_singleton history conversation ih =>
      have hassigned : assigned url dateValue string (history ++ [conversation]) =
          (assigned url dateValue string history).setConversation url dateValue string
            conversation := by
        simp [assigned]
      rw [hassigned, labels_setConversation, ih, List.filter_append]
      by_cases hurl : HasURL url conversation <;> simp [hurl]

variable (url dateValue string)

/-- **Which rows depend on their last conversation only.**  Exactly those whose last
conversation has an image URL. -/
theorem labels_agree_iff (conversation : Conversation) :
    (∀ history history' : List Conversation,
        (assigned url dateValue string (history ++ [conversation])).labels =
            (assigned url dateValue string (history' ++ [conversation])).labels ∧
          (assigned url dateValue string (history ++ [conversation])).labels =
            labelsOf dateValue string conversation) ↔
      HasURL url conversation := by
  constructor
  · intro hagree
    by_contra hurl
    have hlabels := (hagree [] []).2
    rw [labels_assigned] at hlabels
    simp [hurl, labelsOf] at hlabels
  · intro hurl history history'
    have hlast : ∀ past : List Conversation,
        (assigned url dateValue string (past ++ [conversation])).labels =
          labelsOf dateValue string conversation := by
      intro past
      simp [labels_assigned, hurl]
    exact ⟨(hlast history).trans (hlast history').symm, hlast history⟩

/-- A conversation with a user whose image has this URL, for concrete runs. -/
def sample (profileImageUrl username text : String) : Conversation where
  user := { User.sample username with profileImageUrl := profileImageUrl }
  recentMessage := .sample text (.sample username)

/-- A user registered without an image URL, behind two others. -/
theorem labels_ne_of_noURL :
    (assigned (fun text => if text = "" then none else some text) (fun _ => ())
        (fun _ _ => "01.01 09:00 AM")
        [sample "https://a" "alice" "lunch?", sample "" "carol" "hi"]).labels =
      (some "alice", some "lunch?", some "01.01 09:00 AM") ∧
    (assigned (fun text => if text = "" then none else some text) (fun _ => ())
        (fun _ _ => "01.01 09:00 AM")
        [sample "https://b" "bob" "bye", sample "" "carol" "hi"]).labels =
      (some "bob", some "bye", some "01.01 09:00 AM") := by
  exact ⟨by decide, by decide⟩

end ConversationCell

end Cells

end WaffleChat
