import Mathlib.Algebra.Ring.Int.Defs
import WaffleChat.Library.EventSystem
import WaffleChat.Model.Records

/-!
# Scrolling and the keyboard

The geometry of `ChatController`: the scroll that comes with every list of messages, and
the transforms of its views that follow the keyboard.  Lengths are of any type with the
operations the code uses on `CGFloat`; of their laws only one is needed, which tells when a
keyboard is as high as the inset.

Main results:

- Theorem `ChatItems.inBounds_iff`: in which runs every scroll goes to an item that the
  collection view has.
- Theorem `ChatLayout.returns_iff`: in which runs the views return to rest.
-/

namespace WaffleChat

open EventSystem

/-! ## Scrolling to the last message -/

/-- `Message.init(original:user:)`. -/
def Message.withUser (original : Message) (user : User) : Message :=
  { original with user := some user }

/-- An element of `viewModel.messages`, and the heights at that moment: of the content of
the collection view, of the bars above it and of its frame. -/
structure Emission (CGFloat : Type) where
  messages : List Message
  contentHeight : CGFloat
  topbarHeight : CGFloat
  frameHeight : CGFloat
deriving DecidableEq, Repr

/-- A call of `scrollToItem`: the item, and the number of items at that moment. -/
structure Scroll where
  item : Int
  numberOfItems : Nat
deriving DecidableEq, Repr

/-- The item exists. -/
def Scroll.InBounds (scroll : Scroll) : Prop :=
  0 ≤ scroll.item ∧ scroll.item < scroll.numberOfItems

instance (scroll : Scroll) : Decidable scroll.InBounds :=
  inferInstanceAs (Decidable (_ ∧ _))

/-- The user of the chat, the list the data source of the collection view holds, and the
scrolls so far. -/
structure ChatItems where
  user : User
  items : List Message
  scrolls : List Scroll
deriving DecidableEq, Repr

namespace ChatItems

/-- Before the first list. -/
def initial (user : User) : ChatItems where
  user := user
  items := []
  scrolls := []

section Scrolling

variable {CGFloat : Type} [Add CGFloat] [LT CGFloat] [DecidableLT CGFloat]

/-- The content does not fit below the bars. -/
def Overflows (e : Emission CGFloat) : Prop :=
  e.contentHeight + e.topbarHeight > e.frameHeight

instance (e : Emission CGFloat) : Decidable (Overflows e) :=
  inferInstanceAs (Decidable (_ > _))

/-- `newMessageIncome(messageCount:)`. -/
def newMessageIncome (s : ChatItems) (e : Emission CGFloat) (messageCount : Nat) : ChatItems :=
  if Overflows e then
    { s with scrolls := s.scrolls ++ [⟨(messageCount : Int) - 1, s.items.length⟩] }
  else s

/-- A list of messages; `do(onNext:)` runs before the list is bound to the items. -/
def step (s : ChatItems) (e : Emission CGFloat) : Option ChatItems :=
  let messages := e.messages.map fun message => message.withUser s.user
  some { s.newMessageIncome e messages.length with items := messages }

/-- Every scroll has gone to an item there was. -/
def InBounds (s : ChatItems) : Prop :=
  ∀ scroll ∈ s.scrolls, scroll.InBounds

/-- The content fits, or the list has a message and not more than the one before. -/
def KeepsInBounds (s : ChatItems) (e : Emission CGFloat) : Prop :=
  ¬Overflows e ∨ (e.messages ≠ [] ∧ e.messages.length ≤ s.items.length)

instance (s : ChatItems) (e : Emission CGFloat) : Decidable (s.KeepsInBounds e) :=
  inferInstanceAs (Decidable (_ ∨ _))

/-- The scroll a list leads to is in bounds exactly if the list is not longer than the one
before, and not empty. -/
theorem inBounds_step {s s' : ChatItems} {e : Emission CGFloat} (h : s.InBounds)
    (hstep : s.step e = some s') : s'.InBounds ↔ s.KeepsInBounds e := by
  obtain rfl : _ = s' := Option.some.inj hstep
  by_cases hoverflows : Overflows e
  · have hscroll : Scroll.InBounds ⟨(e.messages.length : Int) - 1, s.items.length⟩ ↔
        e.messages ≠ [] ∧ e.messages.length ≤ s.items.length := by
      rw [Scroll.InBounds, ← List.length_pos_iff]
      simp only
      omega
    simp only [InBounds, newMessageIncome, KeepsInBounds, hoverflows, if_true, List.length_map,
      List.forall_mem_append, List.forall_mem_singleton, hscroll, not_true_eq_false, false_or]
    exact and_iff_right h
  · simpa [InBounds, newMessageIncome, KeepsInBounds, hoverflows] using h

/-- **Scrolling.**  Throughout a run every scroll goes to an item there is exactly when
each list that comes while the content does not fit has a message and not more than the
list before it. -/
theorem inBounds_iff {user : User} {es : List (Emission CGFloat)} {s : ChatItems}
    (hrun : run step (initial user) es = some s) :
    Always step InBounds (initial user) es ↔ StepsMeet step KeepsInBounds (initial user) es := by
  refine always_iff_stepsMeet (I := fun _ => True) ?_ ?_ trivial (by simp [InBounds, initial]) hrun
  · exact fun _ _ _ _ _ => trivial
  · exact fun _ _ _ _ h hstep => inBounds_step h hstep

end Scrolling

/-- Two messages that fit, and then the same two when they do not. -/
def refreshed : List (Emission Int) :=
  [⟨[], 0, 88, 700⟩,
   ⟨[.sample "hi" (.sample "bob"), .sample "lunch?" (.sample "bob")], 100, 88, 700⟩,
   ⟨[.sample "hi" (.sample "bob"), .sample "lunch?" (.sample "bob")], 900, 88, 700⟩]

theorem inBounds_iff_refreshed :
    Always step InBounds (initial (.sample "bob")) refreshed :=
  (inBounds_iff (run_final rfl)).2 (by decide)

/-- A first message, and one more when the content does not fit. -/
def oneMore : List (Emission Int) :=
  [⟨[], 0, 88, 700⟩, ⟨[.sample "hi" (.sample "bob")], 900, 88, 700⟩,
   ⟨[.sample "hi" (.sample "bob"), .sample "lunch?" (.sample "bob")], 900, 88, 700⟩]

/-- Each of the two scrolls goes to the item that is not there yet. -/
theorem scrolls_of_oneMore :
    ∃ s, run step (initial (.sample "bob")) oneMore = some s ∧
      s.scrolls = [⟨0, 0⟩, ⟨1, 1⟩] ∧ ∀ scroll ∈ s.scrolls, ¬scroll.InBounds := by
  exact ⟨_, run_final rfl, by decide, by decide⟩

end ChatItems

/-! ## Following the keyboard -/

/-- The matrix `[a b 0; c d 0; tx ty 1]`. -/
structure CGAffineTransform (CGFloat : Type) where
  a : CGFloat
  b : CGFloat
  c : CGFloat
  d : CGFloat
  tx : CGFloat
  ty : CGFloat
deriving DecidableEq, Repr

/-- The two notifications `ChatController` observes. -/
inductive KeyboardNotification where
  | keyboardWillShow
  | keyboardWillHide
deriving DecidableEq, Repr

/-- A notification with the height of the frame in its `userInfo`. -/
structure Notification (CGFloat : Type) where
  name : KeyboardNotification
  height : CGFloat
deriving DecidableEq, Repr

/-- What does not change while the screen is shown: the heights of the bars, of the view
and of `customInputView`, and the bottom safe-area inset. -/
structure Screen (CGFloat : Type) where
  topbarHeight : CGFloat
  viewHeight : CGFloat
  customInputViewHeight : CGFloat
  safeAreaBottom : CGFloat
deriving DecidableEq, Repr

/-- The two transforms, the height of the content, and the notifications, latest first. -/
structure ChatLayout (CGFloat : Type) where
  viewTransform : CGAffineTransform CGFloat
  customInputViewTransform : CGAffineTransform CGFloat
  contentHeight : CGFloat
  notifications : List (Notification CGFloat)
deriving DecidableEq, Repr

/-- What can happen to the layout. -/
inductive ChatLayoutEvent (CGFloat : Type) where
  | notified (noti : Notification CGFloat)
  | contentResized (height : CGFloat)
deriving DecidableEq, Repr

section Keyboard

variable {CGFloat : Type} [Zero CGFloat] [One CGFloat] [Add CGFloat] [Neg CGFloat]

/-- `CGAffineTransform(translationX:y:)`. -/
def CGAffineTransform.translation (x y : CGFloat) : CGAffineTransform CGFloat :=
  ⟨1, 0, 0, 1, x, y⟩

/-- `CGAffineTransform.identity`. -/
def CGAffineTransform.identity : CGAffineTransform CGFloat :=
  ⟨1, 0, 0, 1, 0, 0⟩

namespace ChatLayout

variable (screen : Screen CGFloat)

/-- A new screen. -/
def initial (contentHeight : CGFloat) : ChatLayout CGFloat where
  viewTransform := .identity
  customInputViewTransform := .identity
  contentHeight := contentHeight
  notifications := []

/-- The translation that lifts a view above a keyboard. -/
def lifted (height : CGFloat) : CGAffineTransform CGFloat :=
  .translation 0 (-height + screen.safeAreaBottom)

/-- Neither view is moved. -/
def AtRest (s : ChatLayout CGFloat) : Prop :=
  s.viewTransform = .identity ∧ s.customInputViewTransform = .identity

/-- One of the views is lifted above a keyboard, and the other is not moved. -/
def OneLifted (s : ChatLayout CGFloat) (height : CGFloat) : Prop :=
  (s.viewTransform = lifted screen height ∧ s.customInputViewTransform = .identity) ∨
    (s.viewTransform = .identity ∧ s.customInputViewTransform = lifted screen height)

variable {screen} (hneg : ∀ height inset : CGFloat, -height + inset = 0 ↔ height = inset)

section

include hneg

/-- A keyboard as high as the inset lifts nothing. -/
theorem lifted_eq_identity {height : CGFloat} :
    lifted screen height = .identity ↔ height = screen.safeAreaBottom := by
  simp [lifted, CGAffineTransform.translation, CGAffineTransform.identity, hneg]

/-- Views at rest are one of them lifted by nothing. -/
theorem AtRest.oneLifted_iff {s : ChatLayout CGFloat} (h : s.AtRest) {height : CGFloat} :
    s.OneLifted screen height ↔ height = screen.safeAreaBottom := by
  rw [← lifted_eq_identity hneg, OneLifted, h.1, h.2]
  tauto

end

variable (screen) [Sub CGFloat] [LT CGFloat] [DecidableLT CGFloat]

/-- `updateMessageLayout(noti:)`; the flag compares with the other notification. -/
def updateMessageLayout (s : ChatLayout CGFloat) (noti : Notification CGFloat) :
    ChatLayout CGFloat :=
  let isKeyboardWillShow := noti.name == .keyboardWillHide
  let transform := if isKeyboardWillShow then lifted screen noti.height else .identity
  if s.contentHeight + screen.topbarHeight >
      screen.viewHeight - (noti.height + screen.customInputViewHeight) then
    { s with viewTransform := transform }
  else { s with customInputViewTransform := transform }

/-- One event. -/
def step (s : ChatLayout CGFloat) : ChatLayoutEvent CGFloat → Option (ChatLayout CGFloat)
  | .notified noti =>
      some
        { s.updateMessageLayout screen noti with notifications := noti :: s.notifications }
  | .contentResized height => some { s with contentHeight := height }

/-- After a hide the views are at rest, and after a show behind it one of them is lifted. -/
def Returns (s : ChatLayout CGFloat) : Prop :=
  match s.notifications with
  | ⟨.keyboardWillHide, _⟩ :: _ => s.AtRest
  | ⟨.keyboardWillShow, height⟩ :: ⟨.keyboardWillHide, _⟩ :: _ => s.OneLifted screen height
  | _ => True

/-- The keyboard of a hide, and of the show behind it, is as high as the inset. -/
def FlatKeyboard (s : ChatLayout CGFloat) : ChatLayoutEvent CGFloat → Prop
  | .notified ⟨.keyboardWillHide, height⟩ => height = screen.safeAreaBottom
  | .notified ⟨.keyboardWillShow, height⟩ =>
      s.notifications.head?.map Notification.name = some .keyboardWillHide →
        height = screen.safeAreaBottom
  | .contentResized _ => True

instance [DecidableEq CGFloat] (s : ChatLayout CGFloat) : DecidablePred (s.FlatKeyboard screen)
  | .notified ⟨.keyboardWillHide, height⟩ =>
      inferInstanceAs (Decidable (height = screen.safeAreaBottom))
  | .notified ⟨.keyboardWillShow, height⟩ =>
      inferInstanceAs (Decidable (s.notifications.head?.map Notification.name =
        some .keyboardWillHide → height = screen.safeAreaBottom))
  | .contentResized _ => inferInstanceAs (Decidable True)

variable {screen}

include hneg

/-- A show moves no view that is at rest; a hide lifts one above its keyboard. -/
theorem AtRest.updateMessageLayout {s : ChatLayout CGFloat} (h : s.AtRest)
    (noti : Notification CGFloat) :
    (s.updateMessageLayout screen noti).AtRest ↔
      noti.name = .keyboardWillHide → noti.height = screen.safeAreaBottom := by
  rcases noti with ⟨name, height⟩
  cases name with
  | keyboardWillShow =>
      unfold ChatLayout.updateMessageLayout
      simp only
      split <;> simp [AtRest, h.1, h.2]
  | keyboardWillHide =>
      unfold ChatLayout.updateMessageLayout
      simp only
      split <;> simp [AtRest, h.1, h.2, lifted_eq_identity hneg]

/-- The views are at rest as long as they return there after every hide. -/
theorem AtRest.step {s s' : ChatLayout CGFloat} {e : ChatLayoutEvent CGFloat} (h : s.AtRest)
    (hreturns : s'.Returns screen) (hstep : s.step screen e = some s') : s'.AtRest := by
  cases e with
  | notified noti =>
      obtain rfl : _ = s' := Option.some.inj hstep
      rcases noti with ⟨name, height⟩
      cases name with
      | keyboardWillShow =>
          exact (h.updateMessageLayout hneg ⟨.keyboardWillShow, height⟩).2 (by simp)
      | keyboardWillHide => exact hreturns
  | contentResized height =>
      obtain rfl : _ = s' := Option.some.inj hstep
      exact h

/-- From views at rest a notification is followed as it should be exactly if its keyboard
is flat. -/
theorem returns_step {s s' : ChatLayout CGFloat} {e : ChatLayoutEvent CGFloat} (h : s.AtRest)
    (hreturns : s.Returns screen) (hstep : s.step screen e = some s') :
    s'.Returns screen ↔ s.FlatKeyboard screen e := by
  cases e with
  | notified noti =>
      obtain rfl : _ = s' := Option.some.inj hstep
      rcases noti with ⟨name, height⟩
      have hupdated : (s.updateMessageLayout screen ⟨name, height⟩).AtRest ↔
          name = .keyboardWillHide → height = screen.safeAreaBottom :=
        h.updateMessageLayout hneg ⟨name, height⟩
      cases name with
      | keyboardWillShow =>
          have hrest : (s.updateMessageLayout screen ⟨.keyboardWillShow, height⟩).AtRest :=
            hupdated.2 (by simp)
          have hlifted :
              (s.updateMessageLayout screen ⟨.keyboardWillShow, height⟩).OneLifted screen height ↔
                height = screen.safeAreaBottom := hrest.oneLifted_iff hneg
          cases hpast : s.notifications with
          | nil => simp [Returns, FlatKeyboard, hpast]
          | cons last past =>
              rcases last with ⟨name, last⟩
              cases name with
              | keyboardWillShow => simp [Returns, FlatKeyboard, hpast]
              | keyboardWillHide =>
                  simp only [Returns, FlatKeyboard, hpast, List.head?_cons, Option.map_some,
                    forall_const]
                  exact hlifted
      | keyboardWillHide =>
          simp only [forall_const] at hupdated
          exact hupdated
  | contentResized height =>
      obtain rfl : _ = s' := Option.some.inj hstep
      exact iff_of_true hreturns trivial

/-- **The keyboard.**  Throughout a run the views are at rest after every hide and one of
them is lifted after every show behind a hide exactly when the keyboards of all these are
as high as the bottom inset, so that nothing is lifted at all. -/
theorem returns_iff {contentHeight : CGFloat} {es : List (ChatLayoutEvent CGFloat)}
    {s : ChatLayout CGFloat}
    (hrun : run (ChatLayout.step screen) (initial contentHeight) es = some s) :
    Always (ChatLayout.step screen) (Returns screen) (initial contentHeight) es ↔
      StepsMeet (ChatLayout.step screen) (FlatKeyboard screen) (initial contentHeight) es := by
  refine always_iff_stepsMeet_while (I := AtRest) ?_ ?_ (stepsMeet_true _ _) ⟨rfl, rfl⟩ trivial
    hrun
  · exact fun _ _ _ _ h hreturns hstep => h.step hneg hreturns hstep
  · exact fun _ _ _ _ h hreturns hstep => returns_step hneg h hreturns hstep

end ChatLayout

end Keyboard

namespace ChatLayout

/-- The heights of a telephone. -/
def telephone : Screen Int :=
  ⟨88, 800, 50, 34⟩

/-- A hardware keyboard, which leaves no more on the screen than the inset. -/
def hardwareKeyboard : List (ChatLayoutEvent Int) :=
  [.notified ⟨.keyboardWillShow, 336⟩, .notified ⟨.keyboardWillHide, 34⟩, .contentResized 900,
   .notified ⟨.keyboardWillShow, 34⟩]

theorem returns_iff_hardwareKeyboard :
    Always (step telephone) (Returns telephone) (initial 100) hardwareKeyboard :=
  (returns_iff (fun _ _ => neg_add_eq_zero) (run_final rfl)).2 (by decide)

/-- The keyboard is shown and hidden again. -/
def shownAndHidden : List (ChatLayoutEvent Int) :=
  [.notified ⟨.keyboardWillShow, 336⟩, .notified ⟨.keyboardWillHide, 336⟩]

/-- The input view stays lifted. -/
theorem not_atRest_of_shownAndHidden :
    ∃ s, run (step telephone) (initial 100) shownAndHidden = some s ∧
      s.notifications.head? = some ⟨.keyboardWillHide, 336⟩ ∧
      s.customInputViewTransform = .translation 0 (-302) ∧ ¬s.AtRest := by
  refine ⟨_, run_final rfl, rfl, rfl, ?_⟩
  rintro ⟨-, hidentity⟩
  revert hidentity
  decide

end ChatLayout

end WaffleChat
