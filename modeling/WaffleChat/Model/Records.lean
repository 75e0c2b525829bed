import WaffleChat.Firestore.Documents

/-!
# Users, messages and conversations

The records the app decodes from documents.  A `User` is decoded all or nothing;
a `Message` always decodes, absent or mistyped fields being replaced by defaults.

Main results:

- Theorem `User.init_eq_some_iff`: a user document is accepted exactly when its
  five fields are strings, and is then read back field by field.
- Theorem `Message.init_eq_of_typed`: a message document whose four fields have
  their types is decoded without any default.
-/

namespace WaffleChat

/-! ## Users -/

/-- A user profile. -/
structure User where
  email : String
  fullname : String
  profileImageUrl : String
  uid : Uid
  username : String
deriving DecidableEq, Repr

/-- A made-up profile, for concrete runs. -/
def User.sample (uid : Uid) : User where
  email := uid ++ "@example.com"
  fullname := uid
  profileImageUrl := ""
  uid := uid
  username := uid

/-- `User.init?(user:)`: every field must be a string. -/
def User.init? (user : Dictionary) : Option User := do
  let email ← user.string? "email"
  let fullname ← user.string? "fullname"
  let profileImage ← user.string? "profileImageURL"
  let uid ← user.string? "uid"
  let username ← user.string? "username"
  return {
    email := email
    fullname := fullname
    profileImageUrl := profileImage
    uid := uid
    username := username }

theorem User.init_eq_some_iff {dic : Dictionary} {user : User} :
    User.init? dic = some user ↔
      dic.string? "email" = some user.email ∧
      dic.string? "fullname" = some user.fullname ∧
      dic.string? "profileImageURL" = some user.profileImageUrl ∧
      dic.string? "uid" = some user.uid ∧
      dic.string? "username" = some user.username := by
  rcases user with ⟨email, fullname, profileImageUrl, uid, username⟩
  simp only [User.init?, Option.bind_eq_bind, Option.bind_eq_some_iff, Option.pure_def,
    Option.some.injEq, User.mk.injEq]
  constructor
  · rintro ⟨_, h₁, _, h₂, _, h₃, _, h₄, _, h₅, rfl, rfl, rfl, rfl, rfl⟩
    exact ⟨h₁, h₂, h₃, h₄, h₅⟩
  · rintro ⟨h₁, h₂, h₃, h₄, h₅⟩
    exact ⟨_, h₁, _, h₂, _, h₃, _, h₄, _, h₅, rfl, rfl, rfl, rfl, rfl⟩

/-! ## Messages -/

/-- A chat message as the app shows it. -/
structure Message where
  text : String
  toId : String
  fromId : String
  timestamp : Timestamp
  user : Option User
  isFromCurrentUser : Bool
deriving DecidableEq, Repr

/-- A made-up message from another user, for concrete runs. -/
def Message.sample (text : String) (user : User) : Message where
  text := text
  toId := "me"
  fromId := user.uid
  timestamp := ⟨0, 0⟩
  user := some user
  isFromCurrentUser := false

/-- What the decoder reads besides the document: the device clock
(`Timestamp(date: Date())`) and the session (`Auth.auth().currentUser?.uid`). -/
structure Ambient where
  now : Timestamp
  currentUid : Option Uid
deriving DecidableEq, Repr

/-- `Message.init(dic:)`. -/
def Message.init (ambient : Ambient) (dic : Dictionary) : Message :=
  let fromId := (dic.string? "fromId").getD ""
  { text := (dic.string? "text").getD ""
    toId := (dic.string? "toId").getD ""
    fromId := fromId
    timestamp := (dic.timestamp? "timestamp").getD ambient.now
    user := none
    isFromCurrentUser := some fromId == ambient.currentUid }

/-- A well-typed message document is decoded without any default; only the
session decides on whose side the message is shown. -/
theorem Message.init_eq_of_typed {dic : Dictionary} {text toId fromId : String}
    {timestamp : Timestamp} (htext : dic.string? "text" = some text)
    (hto : dic.string? "toId" = some toId) (hfrom : dic.string? "fromId" = some fromId)
    (htime : dic.timestamp? "timestamp" = some timestamp) (ambient : Ambient) :
    Message.init ambient dic =
      { text := text
        toId := toId
        fromId := fromId
        timestamp := timestamp
        user := none
        isFromCurrentUser := some fromId == ambient.currentUid } := by
  simp [Message.init, htext, hto, hfrom, htime]

/-! ## Conversations -/

/-- One row of the conversation list. -/
structure Conversation where
  user : User
  recentMessage : Message
deriving DecidableEq, Repr

end WaffleChat
