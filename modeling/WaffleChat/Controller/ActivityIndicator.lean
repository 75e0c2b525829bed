import WaffleChat.Controller.WaitingScreens
import WaffleChat.View.ProgressHUD

/-!
# The indicator and the screens that wait

The session with the progress indicator the login and the registration screen share: a tap
asks it to come, and the report the screen waits for asks it to go.  What it is asked while
an animation runs, or while it is in the view of another screen, it may ignore.  A screen that
leaves the window takes its view with it, and the indicator out of that view.

Main results:

- Theorem `IndicatedSession.indicates_iff`: in which runs the indicator is on a screen
  exactly while the screen waits.
-/

namespace WaffleChat

open CallbackProgram EventSystem Observers

/-- The session, and `UIViewController.hud`. -/
structure IndicatedSession where
  session : Session
  hud : ProgressHUD

/-- What can happen next. -/
inductive IndicatedEvent where
  | session (e : SessionEvent)
  /-- The animation of the indicator ends. -/
  | animationFinished
  /-- The view the indicator is in is released, some time after its screen has left the
  window. -/
  | viewReleased
deriving DecidableEq, Repr

namespace IndicatedSession

variable (lowercased : String → String)

/-- Before the launch. -/
def initial (firebase : Firebase) : IndicatedSession :=
  ⟨.initial firebase, .create⟩

/-- What a controller calls `showActivityIndicator(false)` with when job `b` has reported. -/
def finishedLabel (b : Started) : Option String :=
  match b.task.job with
  | .login _ _ => some "Loading"
  | .registration _ => none

/-- What the controllers tell the indicator: it is asked to come by a tap, and to go by each
value a handler is called with; it ends with the process. -/
def indicate (before after : Session) (hud : ProgressHUD) : SessionEvent → ProgressHUD
  | .callback i _ =>
      match before.started[i]?, after.started[i]? with
      | some b, some b' =>
          let values := before.window.heard b
            (b'.task.current (Session.program lowercased)).emitted
          values.foldl
            (fun hud _ => hud.showActivityIndicator false (finishedLabel b) b.screen) hud
      | _, _ => hud
  | .terminate => .create
  | e =>
      (before.window.tapped e).elim hud fun screen =>
        hud.showActivityIndicator true screen.label screen.id

/-- One event. -/
def step (s : IndicatedSession) : IndicatedEvent → Option IndicatedSession
  | .session e => do
      let session ← s.session.step lowercased e
      return ⟨session, indicate lowercased s.session session s.hud e⟩
  | .animationFinished => do
      let hud ← s.hud.animationDidFinish
      return { s with hud := hud }
  | .viewReleased => do
      let view ← s.hud.targetView
      guard (view ∉ s.session.window.ids)
      return { s with hud := s.hud.viewReleased }

/-- The indicator stays on a screen exactly while the screen waits, and says what for. -/
def Indicates (s : IndicatedSession) : Prop :=
  ∀ screen ∈ s.session.window.authScreens,
    (s.hud.StaysOn screen.id ↔ s.session.Waits lowercased screen) ∧
      (s.hud.StaysOn screen.id → s.hud.textLabel = screen.label)

instance : DecidablePred (Indicates lowercased) := fun s =>
  inferInstanceAs (Decidable (∀ screen ∈ s.session.window.authScreens, _ ∧ _))

/-- A tap finds the indicator gone, or staying on the very screen. -/
def Ready (s : IndicatedSession) : IndicatedEvent → Prop
  | .session e => ∀ screen ∈ s.session.window.tapped e,
      s.hud.Gone ∨ s.hud.StaysOn screen.id
  | .animationFinished => True
  | .viewReleased => True

instance (s : IndicatedSession) : DecidablePred s.Ready
  | .session _ => inferInstanceAs (Decidable (∀ screen ∈ _, _))
  | .animationFinished => inferInstanceAs (Decidable True)
  | .viewReleased => inferInstanceAs (Decidable True)

/-- The screens are numbered, and the indicator is or was in the view of one of them. -/
structure Sound (s : IndicatedSession) : Prop where
  numbered : s.session.Numbered
  hud : s.hud.Sound
  view_lt : ∀ view ∈ s.hud.targetView, view < s.session.created

/-- At first nothing is shown and nothing postponed. -/
theorem sound_initial (firebase : Firebase) : (initial firebase).Sound := by
  refine ⟨Session.numbered_initial firebase, ProgressHUD.sound_create, ?_⟩
  simp [initial, ProgressHUD.create]

/-- An event of the session, and what it does to the indicator. -/
theorem step_session {s s' : IndicatedSession} {e : SessionEvent}
    (hstep : step lowercased s (.session e) = some s') :
    s.session.step lowercased e = some s'.session ∧
      s'.hud = indicate lowercased s.session s'.session s.hud e := by
  rcases bind_pure_eq_some.1 hstep with ⟨session, hsession, rfl⟩
  exact ⟨hsession, rfl⟩

/-- A view is released once its screen is left. -/
theorem step_viewReleased {s s' : IndicatedSession}
    (hstep : step lowercased s .viewReleased = some s') :
    ∃ view, s.hud.targetView = some view ∧ view ∉ s.session.window.ids ∧
      s' = { s with hud := s.hud.viewReleased } := by
  simp only [step, Option.bind_eq_bind, Option.bind_eq_some_iff, Option.guard_eq_some',
    Option.pure_def, Option.some.injEq] at hstep
  rcases hstep with ⟨view, hview, -, hleft, rfl⟩
  exact ⟨view, hview, hleft, rfl⟩

/-! ## What the indicator is told -/

/-- A tap shows the indicator on its screen. -/
theorem indicate_tapped {before : Session} (after : Session) (hud : ProgressHUD)
    {e : SessionEvent} {screen : AuthScreen} (htapped : before.window.tapped e = some screen) :
    indicate lowercased before after hud e =
      hud.showActivityIndicator true screen.label screen.id := by
  cases e with
  | callback i outcome => cases hwindow : before.window <;> simp [hwindow, Window.tapped] at htapped
  | terminate => cases hwindow : before.window <;> simp [hwindow, Window.tapped] at htapped
  | _ => simp [indicate, htapped]

/-- A change of screens leaves the indicator alone. -/
theorem indicate_moved {before : Session} (after : Session) (hud : ProgressHUD)
    {e : SessionEvent} (htapped : before.window.tapped e = none)
    (he : ∀ i outcome, e ≠ .callback i outcome) :
    indicate lowercased before after hud e = hud ∨
      (e = .terminate ∧ indicate lowercased before after hud e = .create) := by
  cases e with
  | callback i outcome => exact absurd rfl (he i outcome)
  | terminate => exact Or.inr ⟨rfl, rfl⟩
  | _ => exact Or.inl (by simp [indicate, htapped])

/-- Each value a screen hears dismisses the indicator. -/
theorem indicate_reported {before after : Session} (hud : ProgressHUD) {i : Nat}
    {outcome : Outcome} {b b' : Started} {heard : List Bool}
    (hreported : Session.Reported lowercased before after i b b' heard) :
    indicate lowercased before after hud (.callback i outcome) =
      heard.foldl
        (fun hud _ => hud.showActivityIndicator false (finishedLabel b) b.screen) hud := by
  have hlt : i < before.started.length := (List.getElem?_eq_some_iff.1 hreported.get).1
  have hget' : after.started[i]? = some b' := by
    rw [hreported.started_eq, List.getElem?_set_self hlt]
  rw [indicate, hreported.get, hget', hreported.heard_eq]

/-- The last of several reports has asked the indicator to go. -/
theorem foldl_dismiss {values : List Bool} (hvalues : values ≠ []) (text : Option String)
    (view : Nat) (hud : ProgressHUD) :
    ∃ before : ProgressHUD,
      values.foldl (fun hud _ => hud.showActivityIndicator false text view) hud =
        before.showActivityIndicator false text view := by
  rcases List.eq_nil_or_concat values with rfl | ⟨init, last, rfl⟩
  · exact absurd rfl hvalues
  · refine ⟨init.foldl (fun hud _ => hud.showActivityIndicator false text view) hud, ?_⟩
    rw [List.concat_eq_append, List.foldl_append]
    rfl

/-- The indicator stays sound, and in the view of a screen. -/
theorem sound_foldl_dismiss {hud : ProgressHUD} {bound view : Nat} (hview : view < bound)
    (text : Option String) (values : List Bool) (h : hud.Sound)
    (hlt : ∀ target ∈ hud.targetView, target < bound) :
    let hud' := values.foldl (fun hud _ => hud.showActivityIndicator false text view) hud
    hud'.Sound ∧ ∀ target ∈ hud'.targetView, target < bound := by
  induction values generalizing hud with
  | nil => exact ⟨h, hlt⟩
  | cons value values ih =>
      refine ih (ProgressHUD.sound_showActivityIndicator h false text view) ?_
      intro target htarget
      rcases hud.targetView_showActivityIndicator false text view with hsame | hnew
      · exact hlt target (hsame ▸ htarget)
      · rw [hnew] at htarget
        exact Option.mem_some.1 htarget ▸ hview

/-- Every event keeps track of what is postponed. -/
theorem sound_step {s s' : IndicatedSession} {e : IndicatedEvent} (h : s.Sound)
    (hstep : step lowercased s e = some s') : s'.Sound := by
  cases e with
  | animationFinished =>
      rcases bind_pure_eq_some.1 hstep with ⟨hud, hfinished, rfl⟩
      refine ⟨h.numbered, ProgressHUD.sound_animationDidFinish hfinished, ?_⟩
      intro view hview
      rcases (ProgressHUD.animationDidFinish_view hfinished).2 with hsame | hnone
      · exact h.view_lt view (hsame ▸ hview)
      · rw [hnone] at hview
        cases hview
  | viewReleased =>
      rcases step_viewReleased lowercased hstep with ⟨view, -, -, rfl⟩
      exact ⟨h.numbered, h.hud, by simp [ProgressHUD.viewReleased]⟩
  | session e =>
      rcases step_session lowercased hstep with ⟨hsession, hhud⟩
      have hnumbered := h.numbered.step lowercased hsession
      rcases Session.step_kinds lowercased h.numbered hsession with ⟨screen, b, htap, htapped⟩ |
        ⟨i, outcome, b, b', rfl, hreported⟩ | ⟨htap, hcallback, hmoved⟩
      · rw [indicate_tapped lowercased s'.session s.hud htap] at hhud
        refine ⟨hnumbered, ?_, ?_⟩
        · rw [hhud]
          exact ProgressHUD.sound_showActivityIndicator h.hud true screen.label screen.id
        · intro view hview
          rw [htapped.created_eq]
          rcases s.hud.targetView_showActivityIndicator true screen.label screen.id with
            hsame | hnew
          · rw [hhud, hsame] at hview
            exact h.view_lt view hview
          · rw [hhud, hnew] at hview
            obtain rfl := Option.mem_some.1 hview
            refine h.numbered.sound.ids_lt _ ?_
            rcases htapped.screens with ⟨before, after, heq, -⟩
            rw [← Window.map_id_authScreens, heq]
            simp
      · rw [indicate_reported lowercased s.hud hreported] at hhud
        have hview : b.screen < s'.session.created := by
          rw [hreported.created_eq]
          exact h.numbered.sound.started_lt b (List.mem_of_getElem? hreported.get)
        rcases sound_foldl_dismiss hview (finishedLabel b) _ h.hud
          (hreported.created_eq ▸ h.view_lt) with ⟨hsound, hlt⟩
        exact ⟨hnumbered, hhud ▸ hsound, hhud ▸ hlt⟩
      · rcases indicate_moved lowercased s'.session s.hud htap hcallback with hsame | ⟨-, hcreate⟩
        · rw [hsame] at hhud
          exact ⟨hnumbered, hhud ▸ h.hud, fun view hview =>
            Nat.lt_of_lt_of_le (h.view_lt view (hhud ▸ hview)) hmoved.created_le⟩
        · rw [hcreate] at hhud
          refine ⟨hnumbered, hhud ▸ ProgressHUD.sound_create, ?_⟩
          rw [hhud]
          simp [ProgressHUD.create]

/-! ## Where the indicator is -/

/-- The indicator is on one screen at a time. -/
theorem eq_of_staysOn {hud : ProgressHUD} {view view' : Nat} (h : hud.StaysOn view)
    (h' : hud.StaysOn view') : view = view' :=
  Option.some.inj (h.1.symm.trans h'.1)

variable {lowercased}

/-- A tap keeps the property exactly if it finds the indicator ready. -/
theorem Indicates.tapped_iff {s s' : IndicatedSession} (hindicates : s.Indicates lowercased)
    (h : s.Sound) {screen : AuthScreen} {b : Started}
    (htapped : Session.Tapped lowercased s.session s'.session screen b)
    (hhud : s'.hud = s.hud.showActivityIndicator true screen.label screen.id) :
    s'.Indicates lowercased ↔ s.hud.Gone ∨ s.hud.StaysOn screen.id := by
  rcases htapped.nodup h.numbered.nodup with ⟨-, hother⟩
  rcases htapped.screens with ⟨before, after, heq, heq'⟩
  have hstays := ProgressHUD.staysOn_show h.hud screen.label screen.id
  have hlabel : s'.hud.textLabel = screen.label := by
    rw [hhud]
    exact ProgressHUD.textLabel_showActivityIndicator _ _ _ _
  constructor
  · intro hafter
    have hself := (hafter { screen with latest := screen.latest + 1 } (by simp [heq'])).1.2
      htapped.waits_self
    rw [hhud] at hself
    have hself' := (hstays screen.id).1 hself
    split at hself'
    · rename_i hgone
      exact Or.inl hgone
    · exact Or.inr hself'
  · intro hready other hmem
    have hcases : other ∈ before ++ after ∨
        other = { screen with latest := screen.latest + 1 } := by
      rw [heq'] at hmem
      simp only [List.mem_append, List.mem_cons] at hmem ⊢
      tauto
    rcases hcases with hold | rfl
    · -- the indicator is on no other screen, before and after
      have hne := hother before after heq other hold
      have hbefore : ¬ s.hud.StaysOn other.id := by
        rintro hon
        rcases hready with hgone | hself
        · exact absurd (hgone.1.symm.trans hon.1) (by simp)
        · exact hne (eq_of_staysOn hon hself)
      have hafter : ¬ s'.hud.StaysOn other.id := by
        rw [hhud, hstays other.id]
        split
        · exact hne
        · exact hbefore
      have hmem' : other ∈ s.session.window.authScreens := by
        rw [heq]
        simp only [List.mem_append, List.mem_cons] at hold ⊢
        tauto
      rw [htapped.waits_other hne, ← (hindicates other hmem').1]
      exact ⟨iff_of_false hafter hbefore, fun hon => absurd hon hafter⟩
    · have hafter : s'.hud.StaysOn screen.id := by
        rw [hhud, hstays screen.id]
        split
        · rfl
        · rename_i hnot
          exact hready.resolve_left hnot
      exact ⟨iff_of_true hafter htapped.waits_self, fun _ => hlabel⟩

/-- The report a screen waits for sends the indicator away; no other touches it. -/
theorem Indicates.reported {s s' : IndicatedSession} (hindicates : s.Indicates lowercased)
    (h : s.Sound) {i : Nat} {b b' : Started} {heard : List Bool}
    (hreported : Session.Reported lowercased s.session s'.session i b b' heard)
    (hhud : s'.hud = heard.foldl
      (fun hud _ => hud.showActivityIndicator false (finishedLabel b) b.screen) s.hud) :
    s'.Indicates lowercased := by
  intro screen hscreen
  rcases hreported.window with hconversations | ⟨hwindow, hheard⟩
  · simp [hconversations, Window.authScreens] at hscreen
  · rw [hwindow] at hscreen
    rcases hheard with ⟨rfl, hsilent⟩ | ⟨hne, houtputs, screen₀, hscreen₀, hnumber₀⟩
    · have hsame : s'.hud = s.hud := hhud
      rw [hsame]
      refine ⟨?_, (hindicates screen hscreen).2⟩
      rw [(hindicates screen hscreen).1]
      by_cases hnumber : (b.screen, b.inner) = (screen.id, screen.latest)
      · have hself := hreported.waits_self h.numbered hnumber
        exact iff_of_true hself.1 (hself.2.2 (hsilent screen hscreen hnumber))
      · exact (hreported.waits_other hnumber).symm
    · have hafter : ¬ s'.hud.StaysOn screen.id := by
        rcases foldl_dismiss hne (finishedLabel b) b.screen s.hud with ⟨hud, hdismissed⟩
        rw [hhud, hdismissed]
        exact ProgressHUD.not_staysOn_dismiss hud _ _ _
      refine ⟨iff_of_false hafter ?_, fun hon => absurd hon hafter⟩
      by_cases hnumber : (b.screen, b.inner) = (screen.id, screen.latest)
      · rw [(hreported.waits_self h.numbered hnumber).2]
        exact houtputs
      · rw [hreported.waits_other hnumber, ← (hindicates screen hscreen).1]
        intro hon
        have hon₀ := (hindicates screen₀ hscreen₀).1.2
          (hreported.waits_self h.numbered hnumber₀).1
        have hnodup := h.numbered.nodup
        rw [← Window.map_id_authScreens] at hnodup
        obtain rfl : screen = screen₀ :=
          List.inj_on_of_nodup_map hnodup hscreen hscreen₀ (eq_of_staysOn hon hon₀)
        exact hnumber hnumber₀

/-- Screens that come wait for nothing, and the indicator is not on them. -/
theorem Indicates.moved {s s' : IndicatedSession} (hindicates : s.Indicates lowercased)
    (h : s.Sound) (hmoved : Session.Moved s.session s'.session) (hhud : s'.hud = s.hud) :
    s'.Indicates lowercased := by
  intro screen hscreen
  rw [hhud, hmoved.waits_iff hscreen]
  rcases hmoved.screens screen hscreen with hold | ⟨hnew, -⟩
  · exact hindicates screen hold
  · have hafter : ¬ s.hud.StaysOn screen.id := by
      intro hon
      have := h.view_lt screen.id hon.1
      omega
    exact ⟨iff_of_false hafter (h.numbered.sound.not_waits hnew), fun hon => absurd hon hafter⟩

variable (lowercased)

/-- A step keeps the indicator right exactly if it is ready. -/
theorem indicates_step_iff {s s' : IndicatedSession} {e : IndicatedEvent} (h : s.Sound)
    (hindicates : s.Indicates lowercased) (hstep : step lowercased s e = some s') :
    s'.Indicates lowercased ↔ s.Ready e := by
  cases e with
  | animationFinished =>
      rcases bind_pure_eq_some.1 hstep with ⟨hud, hfinished, rfl⟩
      refine iff_of_true ?_ trivial
      intro screen hscreen
      rw [ProgressHUD.staysOn_animationDidFinish hfinished,
        (ProgressHUD.animationDidFinish_view hfinished).1]
      exact hindicates screen hscreen
  | viewReleased =>
      rcases step_viewReleased lowercased hstep with ⟨view, hview, hleft, rfl⟩
      refine iff_of_true ?_ trivial
      intro screen hscreen
      have hother : s.hud.targetView ≠ some screen.id := by
        rw [hview]
        rintro ⟨⟩
        rw [← Window.map_id_authScreens] at hleft
        exact hleft (List.mem_map_of_mem hscreen)
      rw [ProgressHUD.staysOn_viewReleased hother]
      exact hindicates screen hscreen
  | session e =>
      rcases step_session lowercased hstep with ⟨hsession, hhud⟩
      rcases Session.step_kinds lowercased h.numbered hsession with ⟨screen, b, htap, htapped⟩ |
        ⟨i, outcome, b, b', rfl, hreported⟩ | ⟨htap, hcallback, hmoved⟩
      · rw [indicate_tapped lowercased s'.session s.hud htap] at hhud
        rw [hindicates.tapped_iff h htapped hhud, Ready, htap]
        simp
      · rw [indicate_reported lowercased s.hud hreported] at hhud
        refine iff_of_true (hindicates.reported h hreported hhud) ?_
        rintro screen hscreen
        cases hwindow : s.session.window <;> simp [hwindow, Window.tapped] at hscreen
      · refine iff_of_true ?_ (by simp [Ready, htap])
        rcases indicate_moved lowercased s'.session s.hud htap hcallback with hsame | ⟨rfl, -⟩
        · exact hindicates.moved h hmoved (hhud.trans hsame)
        · have hclosed : s'.session.window = .closed := by rw [← Option.some.inj hsession]
          intro screen hscreen
          simp [hclosed, Window.authScreens] at hscreen

/-- **The indicator is on a screen exactly while the screen waits**, whatever is tapped, and
whenever its animations end and the views of screens that are left are released, exactly in
the runs in which every tap finds it gone or staying on the very screen. -/
theorem indicates_iff {firebase : Firebase} {es : List IndicatedEvent} {s : IndicatedSession}
    (hrun : run (step lowercased) (initial firebase) es = some s) :
    Always (step lowercased) (Indicates lowercased) (initial firebase) es ↔
      StepsMeet (step lowercased) Ready (initial firebase) es := by
  refine always_iff_stepsMeet (I := Sound) ?_ ?_ (sound_initial firebase) ?_ hrun
  · intro a e b ha hab
    exact sound_step lowercased ha hab
  · intro a e b ha hindicates hab
    exact indicates_step_iff lowercased ha hindicates hab
  · simp [Indicates, initial, Session.initial, Window.authScreens]

/-- A registration fails and is tried again, before or after the indicator has gone. -/
def secondSignUp (between : List IndicatedEvent) : List IndicatedEvent :=
  [.session .launch, .session .goToSignUpTapped,
    .session (.signUpTapped (Registrations.signUpOf "alice@example.com")), .animationFinished,
    .session (.callback 0 (.failure ⟨"email-already-in-use"⟩))] ++
  between ++ [.session (.signUpTapped (Registrations.signUpOf "alice@example.org"))]

/-- The second tap comes when the indicator has gone. -/
theorem indicates_iff_secondSignUp :
    Always (step id) (Indicates id) (initial .empty) (secondSignUp [.animationFinished]) :=
  (indicates_iff id (run_final (by decide))).2 (by decide)

/-- Tried again while it goes, the indicator does not come back. -/
example : ¬ (final (step id) (initial .empty) (secondSignUp [])).Indicates id := by
  decide

/-- Out of the view of a registration screen that has been left, it comes to the login screen. -/
example : (final (step id) (initial .empty)
    [.session .launch, .session .goToSignUpTapped,
      .session (.signUpTapped (Registrations.signUpOf "alice@example.com")), .animationFinished,
      .session .goToLoginTapped, .viewReleased,
      .session (.loginTapped "alice@example.com" "password")]).Indicates id := by
  decide

end IndicatedSession

end WaffleChat
