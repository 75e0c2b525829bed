import Mathlib.Data.Option.Basic

/-!
# The progress indicator

`JGProgressHUD` as `showActivityIndicator(_:withText:)` uses it.  The controllers share one
indicator, `UIViewController.hud`.  It comes and goes with an animation; what it is asked
meanwhile is postponed (a dismissal) or ignored (a presentation).  It does not keep the view
it is in: once that is released, the indicator is in no view.

Main results:

- Theorem `ProgressHUD.staysOn_show`: where the indicator is after it has been asked to
  come.
- Theorem `ProgressHUD.not_staysOn_dismiss`: it stays nowhere once it has been asked to go.
- Theorems `ProgressHUD.staysOn_animationDidFinish` and `ProgressHUD.staysOn_viewReleased`: the
  end of an animation changes neither, nor does the release of another view.
-/

namespace WaffleChat

/-- What the running animation does. -/
inductive HUDAnimation where
  | show
  | hide
deriving DecidableEq, Repr

/-- The view the indicator is in, the animation that is running (`_transitioning`), whether
it goes once that has ended, and its label. -/
structure ProgressHUD where
  targetView : Option Nat
  transitioning : Option HUDAnimation
  dismissAfterTransitionFinished : Bool
  textLabel : Option String
deriving DecidableEq, Repr

namespace ProgressHUD

/-- `JGProgressHUD(style: .dark)`. -/
def create : ProgressHUD := ⟨none, none, false, none⟩

/-- `showInView:`. -/
def showInView (hud : ProgressHUD) (view : Nat) : ProgressHUD :=
  if hud.transitioning.isSome then hud
  else if hud.targetView.isSome then hud
  else { hud with targetView := some view, transitioning := some .show }

/-- `dismiss`. -/
def dismiss (hud : ProgressHUD) : ProgressHUD :=
  if hud.transitioning.isSome then { hud with dismissAfterTransitionFinished := true }
  else if hud.targetView.isNone then hud
  else { hud with transitioning := some .hide }

/-- `cleanUpAfterPresentation`. -/
def cleanUpAfterPresentation (hud : ProgressHUD) : ProgressHUD :=
  let presented := { hud with transitioning := none }
  if presented.dismissAfterTransitionFinished then
    { presented.dismiss with dismissAfterTransitionFinished := false }
  else presented

/-- `cleanUpAfterDismissal`. -/
def cleanUpAfterDismissal (hud : ProgressHUD) : ProgressHUD :=
  { hud with
    transitioning := none
    dismissAfterTransitionFinished := false
    targetView := none }

/-- `animationDidFinish:`, while an animation is running. -/
def animationDidFinish (hud : ProgressHUD) : Option ProgressHUD :=
  hud.transitioning.map fun
    | .show => hud.cleanUpAfterPresentation
    | .hide => hud.cleanUpAfterDismissal

/-- The view the indicator is in is released: `targetView` is a weak reference. -/
def viewReleased (hud : ProgressHUD) : ProgressHUD :=
  { hud with targetView := none }

/-- `showActivityIndicator(_:withText:)` of the controller with this view. -/
def showActivityIndicator (hud : ProgressHUD) (showing : Bool) (text : Option String) (view : Nat) :
    ProgressHUD :=
  let labelled := { hud with textLabel := text }
  if showing then labelled.showInView view else labelled.dismiss

/-- The indicator is in the view and has not been asked to go. -/
def StaysOn (hud : ProgressHUD) (view : Nat) : Prop :=
  hud.targetView = some view ∧ hud.transitioning ≠ some .hide ∧
    hud.dismissAfterTransitionFinished = false

instance (hud : ProgressHUD) (view : Nat) : Decidable (hud.StaysOn view) :=
  inferInstanceAs (Decidable (_ ∧ _ ∧ _))

/-- The indicator is in no view, and no animation is running. -/
def Gone (hud : ProgressHUD) : Prop :=
  hud.targetView = none ∧ hud.transitioning = none

instance (hud : ProgressHUD) : Decidable hud.Gone :=
  inferInstanceAs (Decidable (_ ∧ _))

/-- A dismissal is only postponed while an animation runs. -/
def Sound (hud : ProgressHUD) : Prop :=
  hud.dismissAfterTransitionFinished = true → hud.transitioning.isSome

theorem sound_create : create.Sound := by
  simp [Sound, create]

theorem sound_showActivityIndicator {hud : ProgressHUD} (h : hud.Sound) (showing : Bool)
    (text : Option String) (view : Nat) :
    (hud.showActivityIndicator showing text view).Sound := by
  have hlabelled : Sound { hud with textLabel := text } := h
  unfold showActivityIndicator
  cases showing with
  | true =>
      simp only [if_true, showInView]
      split
      · exact hlabelled
      · split
        · exact hlabelled
        · exact fun _ => rfl
  | false =>
      simp only [Bool.false_eq_true, if_false, dismiss]
      split
      · rename_i hrunning
        exact fun _ => hrunning
      · split
        · exact hlabelled
        · exact fun _ => rfl

theorem sound_animationDidFinish {hud hud' : ProgressHUD}
    (hfinished : hud.animationDidFinish = some hud') : hud'.Sound := by
  rcases Option.map_eq_some_iff.1 hfinished with ⟨animation, -, rfl⟩
  cases animation with
  | «show» =>
      cases hpostponed : hud.dismissAfterTransitionFinished <;>
        simp [Sound, cleanUpAfterPresentation, hpostponed]
  | hide => simp [Sound, cleanUpAfterDismissal]

/-- The indicator that is gone comes; any other stays as it is. -/
theorem staysOn_show {hud : ProgressHUD} (h : hud.Sound) (text : Option String)
    (view view' : Nat) :
    (hud.showActivityIndicator true text view).StaysOn view' ↔
      if hud.Gone then view' = view else hud.StaysOn view' := by
  by_cases hgone : hud.Gone
  · rcases hgone with ⟨hview, hidle⟩
    have hnow : hud.dismissAfterTransitionFinished = false := by
      by_contra hpostponed
      have hrunning := h (by simpa using hpostponed)
      simp [hidle] at hrunning
    simp [showActivityIndicator, showInView, StaysOn, Gone, hview, hidle, hnow, eq_comm]
  · have hsame : hud.showActivityIndicator true text view = { hud with textLabel := text } := by
      by_cases hidle : hud.transitioning = none
      · have hview : hud.targetView ≠ none := fun hview => hgone ⟨hview, hidle⟩
        simp [showActivityIndicator, showInView, Option.isSome_iff_ne_none, hview]
      · simp [showActivityIndicator, showInView, Option.isSome_iff_ne_none, hidle]
    rw [hsame, if_neg hgone]
    rfl

/-- The indicator is on no screen but that whose view is released. -/
theorem staysOn_viewReleased {hud : ProgressHUD} {view : Nat} (h : hud.targetView ≠ some view) :
    hud.viewReleased.StaysOn view ↔ hud.StaysOn view := by
  simp [StaysOn, viewReleased, h]

/-- The indicator that has been asked to go stays nowhere. -/
theorem not_staysOn_dismiss (hud : ProgressHUD) (text : Option String) (view view' : Nat) :
    ¬ (hud.showActivityIndicator false text view).StaysOn view' := by
  rintro ⟨hview, hhide, hpostponed⟩
  by_cases hrunning : hud.transitioning.isSome = true
  · simp [showActivityIndicator, dismiss, hrunning] at hpostponed
  · cases htarget : hud.targetView with
    | none => simp [showActivityIndicator, dismiss, hrunning, htarget] at hview
    | some target => simp [showActivityIndicator, dismiss, hrunning, htarget] at hhide

/-- The end of an animation neither keeps the indicator nor sends it away. -/
theorem staysOn_animationDidFinish {hud hud' : ProgressHUD}
    (hfinished : hud.animationDidFinish = some hud') (view : Nat) :
    hud'.StaysOn view ↔ hud.StaysOn view := by
  rcases Option.map_eq_some_iff.1 hfinished with ⟨animation, htransitioning, rfl⟩
  cases animation with
  | «show» =>
      cases hpostponed : hud.dismissAfterTransitionFinished with
      | false => simp [cleanUpAfterPresentation, StaysOn, hpostponed, htransitioning]
      | true =>
          cases htarget : hud.targetView <;>
            simp [cleanUpAfterPresentation, dismiss, StaysOn, hpostponed, htarget]
  | hide => simp [cleanUpAfterDismissal, StaysOn, htransitioning]

theorem textLabel_showActivityIndicator (hud : ProgressHUD) (showing : Bool)
    (text : Option String) (view : Nat) :
    (hud.showActivityIndicator showing text view).textLabel = text := by
  rcases hud with ⟨target, transitioning, postponed, label⟩
  cases showing <;> cases transitioning <;> cases target <;>
    simp [showActivityIndicator, showInView, dismiss]

/-- The indicator is where it was, where it has been asked to come, or gone. -/
theorem targetView_showActivityIndicator (hud : ProgressHUD) (showing : Bool)
    (text : Option String) (view : Nat) :
    (hud.showActivityIndicator showing text view).targetView = hud.targetView ∨
      (hud.showActivityIndicator showing text view).targetView = some view := by
  rcases hud with ⟨target, transitioning, postponed, label⟩
  cases showing <;> cases transitioning <;> cases target <;>
    simp [showActivityIndicator, showInView, dismiss]

theorem animationDidFinish_view {hud hud' : ProgressHUD}
    (hfinished : hud.animationDidFinish = some hud') :
    hud'.textLabel = hud.textLabel ∧
      (hud'.targetView = hud.targetView ∨ hud'.targetView = none) := by
  rcases Option.map_eq_some_iff.1 hfinished with ⟨animation, -, rfl⟩
  cases animation with
  | «show» =>
      cases hpostponed : hud.dismissAfterTransitionFinished <;>
        cases htarget : hud.targetView <;>
        simp [cleanUpAfterPresentation, dismiss, hpostponed, htarget]
  | hide => exact ⟨rfl, Or.inr rfl⟩

end ProgressHUD

end WaffleChat
