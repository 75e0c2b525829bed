import Mathlib.Data.List.Forall2
import WaffleChat.View.Cells
import WaffleChat.View.ImageLoading

/-!
# Rows with profile images

The rows of the friend lists and of the conversation list, `UserCell` and `ConversationCell`,
reused for any users and conversations while the images of earlier ones are still loading.

Main results:

- Theorem `ProfileRows.sound_step`: a row names the user whose image its view has asked for
  last.
- Theorem `ProfileRows.pictures_named`: a row never shows a picture beside another user's name.
-/

namespace WaffleChat

open EventSystem

/-- The user assigned last, and what the labels of the row show. -/
structure UserCell where
  user : Option User
  usernameLabel : Option String
  fullnameLabel : Option String
deriving DecidableEq, Repr

namespace UserCell

/-- `init(style:reuseIdentifier:)`. -/
def create : UserCell where
  user := none
  usernameLabel := none
  fullnameLabel := none

/-- The setter of `user` with `configureCell()`; its `sd_setImage(with:)` is the call of
`ProfileRows.setUser`. -/
def setUser (cell : UserCell) (user : Option User) : UserCell :=
  match user with
  | none => { cell with user := none }
  | some user =>
      { user := some user, usernameLabel := some user.username,
        fullnameLabel := some user.fullname }

end UserCell

section

variable {α β : Type} {R : α → β → Prop} {l : List α} {l' : List β}

/-- Entries of one place are related. -/
theorem forall₂_getElem? (h : List.Forall₂ R l l') {k : Nat} {a : α} (hk : l[k]? = some a) :
    ∃ b, l'[k]? = some b ∧ R a b := by
  induction h generalizing k with
  | nil => cases hk
  | cons hab _ ih =>
      cases k with
      | zero =>
          obtain rfl := Option.some.inj hk
          exact ⟨_, rfl, hab⟩
      | succ k => exact ih hk

/-- Related entries may be put in one place. -/
theorem forall₂_set (h : List.Forall₂ R l l') (k : Nat) {a : α} {b : β} (hab : R a b) :
    List.Forall₂ R (l.set k a) (l'.set k b) := by
  induction h generalizing k with
  | nil => exact .nil
  | cons hhead htail ih =>
      cases k with
      | zero => exact .cons hab htail
      | succ k => exact .cons hhead (ih k)

end

/-- A row of one of the two kinds of lists. -/
inductive ProfileRow (URL : Type) where
  | user (cell : UserCell)
  | conversation (cell : ConversationCell URL)
deriving DecidableEq, Repr

namespace ProfileRow

variable {URL : Type} (url : String → Option URL)

/-- The labels of the row are those of a user, the one assigned last unless it was none. -/
def Names : ProfileRow URL → User → Prop
  | .user cell, named =>
      cell.usernameLabel = some named.username ∧ cell.fullnameLabel = some named.fullname ∧
        ∀ assigned, cell.user = some assigned → assigned = named
  | .conversation cell, named =>
      cell.nameLabel = some named.username ∧ cell.profileImage = url named.profileImageUrl

/-- Nothing has been shown in the row yet. -/
def Blank : ProfileRow URL → Prop
  | .user cell => cell = .create
  | .conversation cell => cell.nameLabel = none ∧ cell.profileImage = none

/-- The image URL of a row: that of the user it names. -/
def Asks (row : ProfileRow URL) (imageURL : Option URL) : Prop :=
  row.Blank ∧ imageURL = none ∨
    ∃ named, row.Names url named ∧ imageURL = url named.profileImageUrl

variable {url}

/-- After an assignment the row names the user assigned. -/
theorem asks_setUser (cell : UserCell) (user : User) :
    (ProfileRow.user (cell.setUser (some user))).Asks url (url user.profileImageUrl) := by
  refine Or.inr ⟨user, ⟨rfl, rfl, ?_⟩, rfl⟩
  intro assigned hassigned
  exact (Option.some.inj hassigned).symm

/-- Without a user the labels stay as they are. -/
theorem Asks.setUser_none {cell : UserCell} {imageURL : Option URL}
    (h : (ProfileRow.user cell).Asks url imageURL) :
    (ProfileRow.user (cell.setUser none)).Asks url imageURL := by
  rcases h with ⟨hblank, rfl⟩ | ⟨named, ⟨husername, hfullname, -⟩, hurl⟩
  · refine Or.inl ⟨?_, rfl⟩
    rw [Blank] at hblank ⊢
    rw [hblank]
    rfl
  · exact Or.inr ⟨named, ⟨husername, hfullname, fun _ hassigned => nomatch hassigned⟩, hurl⟩

section

variable {Date : Type} (dateValue : Timestamp → Date)
  (string : (dateFormat : String) → Date → String)

/-- After an assignment the row names the user of the conversation. -/
theorem asks_setConversation (cell : ConversationCell URL) {conversation : Conversation}
    {imageURL : URL} (hurl : url conversation.user.profileImageUrl = some imageURL) :
    (ProfileRow.conversation (cell.setConversation url dateValue string conversation)).Asks url
      (some imageURL) := by
  refine Or.inr ⟨conversation.user, ?_, hurl.symm⟩
  simp [Names, ConversationCell.setConversation, ConversationCell.configureData, hurl]

/-- Without an image URL it still names the user before. -/
theorem Asks.setConversation {cell : ConversationCell URL} {imageURL : Option URL}
    (h : (ProfileRow.conversation cell).Asks url imageURL) {conversation : Conversation}
    (hurl : url conversation.user.profileImageUrl = none) :
    (ProfileRow.conversation (cell.setConversation url dateValue string conversation)).Asks url
      imageURL := by
  simpa [Asks, Blank, Names, ConversationCell.setConversation, ConversationCell.configureData,
    hurl] using h

end

end ProfileRow

/-- The rows of all lists, each with the image view of its number. -/
structure ProfileRows (URL Image : Type) where
  rows : List (ProfileRow URL)
  images : ImageManager URL Image

/-- What can happen next. -/
inductive ProfileRowsEvent (URL Image : Type) where
  /-- A row is created. -/
  | userCell
  | conversationCell
  /-- A row is given a user or a conversation, for the first time or when it is reused. -/
  | setUser (k : Nat) (user : Option User)
  | setConversation (k : Nat) (conversation : Conversation)
  /-- Something is reported about an image. -/
  | image (e : ImageEvent URL Image)

namespace ProfileRows

section

variable {URL Image Date : Type} [DecidableEq URL]

-- `URL(string:)`, `Timestamp.dateValue()`, and `DateFormatter.string(from:)` after its
-- `dateFormat` has been set
variable (url : String → Option URL) (dateValue : Timestamp → Date)
  (string : (dateFormat : String) → Date → String)

/-- No row yet. -/
def initial : ProfileRows URL Image where
  rows := []
  images := .initial

/-- A row with its image view. -/
def addRow (s : ProfileRows URL Image) (row : ProfileRow URL) : ProfileRows URL Image where
  rows := s.rows ++ [row]
  images := s.images.addView

/-- `configureCell()` asks for the image also when the URL is not valid. -/
def setUser (s : ProfileRows URL Image) (k : Nat) (cell : UserCell) (user : Option User) :
    ProfileRows URL Image where
  rows := s.rows.set k (.user (cell.setUser user))
  images := user.elim s.images fun user => s.images.setImage k (url user.profileImageUrl)

/-- `configureData()` asks for the image only when the URL is valid. -/
def setConversation (s : ProfileRows URL Image) (k : Nat) (cell : ConversationCell URL)
    (conversation : Conversation) : ProfileRows URL Image where
  rows := s.rows.set k (.conversation (cell.setConversation url dateValue string conversation))
  images :=
    match url conversation.user.profileImageUrl with
    | none => s.images
    | some imageURL => s.images.setImage k (some imageURL)

def step (s : ProfileRows URL Image) :
    ProfileRowsEvent URL Image → Option (ProfileRows URL Image)
  | .userCell => some (s.addRow (.user .create))
  | .conversationCell => some (s.addRow (.conversation .create))
  | .setUser k user =>
      match s.rows[k]? with
      | some (.user cell) => some (s.setUser url k cell user)
      | _ => none
  | .setConversation k conversation =>
      match s.rows[k]? with
      | some (.conversation cell) =>
          some (s.setConversation url dateValue string k cell conversation)
      | _ => none
  | .image e => (s.images.step e).map fun images => { s with images := images }

/-- What is heard about image URLs. -/
def answered (s : ProfileRows URL Image) :
    ProfileRowsEvent URL Image → List (URL × Option Image)
  | .image e => s.images.answered e
  | _ => []

/-- What the rows say about their image views. -/
structure Sound (heard : List (URL × Option Image)) (s : ProfileRows URL Image) : Prop where
  images : s.images.Sound heard
  asks : List.Forall₂ (ProfileRow.Asks url) s.rows s.images.imageURLs

variable {url dateValue string}

omit [DecidableEq URL] in
/-- Without rows there is nothing to name. -/
theorem sound_initial : (initial : ProfileRows URL Image).Sound url [] :=
  ⟨ImageManager.sound_initial, .nil⟩

variable {heard : List (URL × Option Image)} {s : ProfileRows URL Image}

omit [DecidableEq URL] in
/-- A new row names nobody. -/
theorem Sound.addRow (h : s.Sound url heard) {row : ProfileRow URL} (hblank : row.Blank) :
    (s.addRow row).Sound url heard := by
  refine ⟨h.images.addView, ?_⟩
  rw [ProfileRows.addRow, ImageManager.imageURLs_addView]
  exact List.rel_append h.asks (.cons (Or.inl ⟨hblank, rfl⟩) .nil)

omit [DecidableEq URL] in
/-- A row changes and its image view does not. -/
theorem Sound.relabel (h : s.Sound url heard) {k : Nat} {before after : ProfileRow URL}
    (hk : s.rows[k]? = some before)
    (hafter : ∀ imageURL, before.Asks url imageURL → after.Asks url imageURL) :
    Sound url heard { s with rows := s.rows.set k after } := by
  refine ⟨h.images, ?_⟩
  rcases forall₂_getElem? h.asks hk with ⟨imageURL, hurl, hasks⟩
  rcases List.getElem?_eq_some_iff.1 hurl with ⟨hlt, rfl⟩
  simpa using forall₂_set h.asks k (hafter _ hasks)

/-- A row changes together with what its image view asks for. -/
theorem Sound.assign (h : s.Sound url heard) (k : Nat) {after : ProfileRow URL}
    {imageURL : Option URL} (hafter : after.Asks url imageURL) :
    Sound url heard ⟨s.rows.set k after, s.images.setImage k imageURL⟩ := by
  refine ⟨h.images.setImage k imageURL, ?_⟩
  rw [ImageManager.imageURLs_setImage]
  exact forall₂_set h.asks k hafter

/-- **What a row shows** belongs to one user, whatever happens next. -/
theorem sound_step (h : s.Sound url heard) {e : ProfileRowsEvent URL Image}
    {s' : ProfileRows URL Image} (hstep : s.step url dateValue string e = some s') :
    s'.Sound url (heard ++ s.answered e) := by
  cases e with
  | userCell =>
      obtain rfl := Option.some.inj hstep
      have hblank : (ProfileRow.user .create : ProfileRow URL).Blank := rfl
      simpa [answered] using h.addRow hblank
  | conversationCell =>
      obtain rfl := Option.some.inj hstep
      have hblank : (ProfileRow.conversation .create : ProfileRow URL).Blank := ⟨rfl, rfl⟩
      simpa [answered] using h.addRow hblank
  | setUser k user =>
      simp only [step] at hstep
      split at hstep
      case h_2 => cases hstep
      rename_i cell hk
      obtain rfl := Option.some.inj hstep
      simp only [answered, List.append_nil]
      cases user with
      | none => exact h.relabel hk fun _ hasks => hasks.setUser_none
      | some user => exact h.assign k (ProfileRow.asks_setUser cell user)
  | setConversation k conversation =>
      simp only [step] at hstep
      split at hstep
      case h_2 => cases hstep
      rename_i cell hk
      obtain rfl := Option.some.inj hstep
      simp only [answered, List.append_nil, setConversation]
      split
      · rename_i hurl
        exact h.relabel hk fun _ hasks => hasks.setConversation dateValue string hurl
      · rename_i imageURL hurl
        exact h.assign k (ProfileRow.asks_setConversation dateValue string cell hurl)
  | image e =>
      rcases Option.map_eq_some_iff.1 hstep with ⟨images, himages, rfl⟩
      refine ⟨h.images.step himages, ?_⟩
      rw [ImageManager.imageURLs_step himages]
      exact h.asks

/-- After every run the rows and their views belong together. -/
theorem sound_run {es : List (ProfileRowsEvent URL Image)} {s : ProfileRows URL Image}
    (hrun : run (step url dateValue string) initial es = some s) :
    s.Sound url (trace (step url dateValue string) answered initial es) :=
  run_trace_invariant (R := fun heard s => s.Sound url heard)
    (fun _ _ _ _ h hstep => sound_step h hstep) sound_initial hrun

omit [DecidableEq URL] in
/-- A row that has been shown names the user whose image its view has asked for last. -/
theorem Sound.named (h : s.Sound url heard) {k : Nat} {row : ProfileRow URL}
    (hrow : s.rows[k]? = some row) :
    ∃ view, s.images.views[k]? = some view ∧
      (row.Blank ∧ view.image = none ∨
        ∃ named, row.Names url named ∧ view.imageURL = url named.profileImageUrl) := by
  rcases forall₂_getElem? h.asks hrow with ⟨imageURL, hurl, hasks⟩
  rw [ImageManager.imageURLs, List.getElem?_map, Option.map_eq_some_iff] at hurl
  rcases hurl with ⟨view, hview, rfl⟩
  refine ⟨view, hview, ?_⟩
  rcases hasks with ⟨hblank, hnone⟩ | hnamed
  · refine Or.inl ⟨hblank, ?_⟩
    by_contra hshown
    rcases Option.ne_none_iff_exists'.1 hshown with ⟨image, himage⟩
    rcases h.images.shown k view image hview himage with ⟨imageURL, hsome, -⟩
    cases hnone.symm.trans hsome
  · exact Or.inr hnamed

omit [DecidableEq URL] in
/-- A view without a picture has no image URL, one that has failed, or an operation of its own
on its way. -/
theorem Sound.missing (h : s.Sound url heard) {k : Nat} {view : ImageView URL Image}
    (hview : s.images.views[k]? = some view) (himage : view.image = none) {imageURL : URL}
    (hurl : view.imageURL = some imageURL) :
    (imageURL, none) ∈ heard ∨
      ∃ op ∈ s.images.operations, op.view = k ∧ op.url = imageURL ∧ op.Running := by
  refine (h.images.blank k view imageURL hview hurl himage).imp_right ?_
  rintro ⟨i, op, hload, hop, hrunning⟩
  rcases h.images.owned k view i hview hload with ⟨other, hother, howner, hsame⟩
  obtain rfl := Option.some.inj (hop.symm.trans hother)
  exact ⟨op, List.mem_of_getElem? hop, howner, Option.some.inj (hsame.symm.trans hurl), hrunning⟩

end

/-- A user with a picture. -/
def pictured (username : String) : User :=
  { User.sample username with profileImageUrl := "https://" ++ username }

/-- A row is reused for Bob while the picture of Alice is being downloaded. -/
def reused : List (ProfileRowsEvent String String) :=
  [.userCell, .setUser 0 (some (pictured "alice")), .image (.diskRead 0 none),
   .image (.queryDone 0), .setUser 0 (some (pictured "bob")),
   .image (.downloaded 0 (.ok "a.png")), .image (.diskRead 1 (some "b.png")),
   .image (.queryDone 1)]

/-- The row of Bob. -/
def bobRow : ProfileRow String :=
  .user (UserCell.create.setUser (some (pictured "bob")))

end ProfileRows

end WaffleChat
