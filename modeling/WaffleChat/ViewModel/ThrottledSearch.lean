import Mathlib.Data.List.Chain
import WaffleChat.Library.Refinement
import WaffleChat.Library.Throttle
import WaffleChat.ViewModel.NewMessage

/-!
# The search text and the clock

The friend list screen with the clock its `throttle` reads: the search text is taken over
at most every 300 ms, and what is typed in between waits for a timer.  Every run with the
clock is a run of the screen without one, in which each keystroke is told whether the
interval has gone by.

Main results:

- Theorem `refines_screen`: the screen with the clock refines the screen without.
- Theorem `paced`: how often the search text is taken over.
- Theorem `keeps_up`: the last text typed is in effect, or about to be.
-/

namespace WaffleChat

open EventSystem Observers

/-- A text `inputText` has emitted: when, when it had been processed, and the text. -/
structure EmittedText where
  start : Nat
  finish : Nat
  text : String
deriving DecidableEq, Repr

/-- The screen, the sink of `throttle`, the time, and what has gone into the sink and come out
of `inputText` so far. -/
structure TimedNewMessage where
  screen : NewMessage
  throttle : TimedThrottleSink String
  clock : Nat
  keys : List String
  texts : List EmittedText

/-- What can happen next; the clock is read at `now`, and again at `finish` if a text has been
processed. -/
inductive TimedEvent where
  /-- `searchBar.rx.text` emits. -/
  | textChanged (key : String) (now finish : Nat)
  /-- The timer of `throttle` fires. -/
  | throttleFires (now finish : Nat)
  /-- The pull gesture. -/
  | pull
  /-- `searchCancelButtonTapped`. -/
  | cancel
  /-- The request of fetch `i` is answered. -/
  | respond (i : Nat) (answer : UsersAnswer)
deriving DecidableEq, Repr

namespace TimedNewMessage

/-- `.milliseconds(300)`; the clock counts nanoseconds. -/
def dueTime : TimeInterval := ⟨300, 1000000, by decide⟩

variable (lowercased : String → String) (contains : String → String → Bool)

/-- The view model after its initializer. -/
def initial : TimedNewMessage where
  screen := .initial
  throttle := .fresh
  clock := 0
  keys := []
  texts := []

/-- What `throttle` has let pass at `now` goes on as the search text. -/
def take (s : TimedNewMessage) (now finish : Nat)
    (throttled : TimedThrottleSink String × List (Event Empty String)) : TimedNewMessage :=
  let passed := (throttled.2.filterMap Event.value?).map lowercased
  { screen :=
      passed.foldl (NewMessage.emitText lowercased contains)
        { s.screen with throttle := throttled.1.untimed }
    throttle := throttled.1
    clock := finish
    keys := s.keys
    texts := s.texts ++ passed.map (EmittedText.mk now finish) }

/-- An event of the screen that does not concern the search text. -/
def elsewhere (s : TimedNewMessage) (e : NewMessageEvent) : Option TimedNewMessage :=
  (s.screen.step lowercased contains e).map fun screen => { s with screen := screen }

/-- One event. -/
def step (s : TimedNewMessage) : TimedEvent → Option TimedNewMessage
  | .textChanged key now finish =>
      if s.clock ≤ now ∧ now ≤ finish then
        -- `distinctUntilChanged`
        if s.screen.filterKey = some key then some { s with clock := finish }
        else
          let s' :=
            { s with
              screen := { s.screen with filterKey := some key }
              keys := s.keys ++ [key] }
          some (s'.take lowercased contains now finish
            (s.throttle.on dueTime now finish (.next key)))
      else none
  | .throttleFires now finish =>
      match s.throttle.timer with
      | some due =>
          if s.clock ≤ now ∧ now ≤ finish ∧ due ≤ now then
            some (s.take lowercased contains now finish (s.throttle.propagate finish))
          else none
      | none => none
  | .pull => s.elsewhere lowercased contains .pull
  | .cancel => s.elsewhere lowercased contains .cancel
  | .respond i answer => s.elsewhere lowercased contains (.respond i answer)

/-- An event without a time is one of the screen alone. -/
theorem elsewhere_eq_some {s s' : TimedNewMessage} {e : NewMessageEvent}
    (h : s.elsewhere lowercased contains e = some s') :
    ∃ screen, s.screen.step lowercased contains e = some screen ∧
      s' = { s with screen := screen } := by
  rcases Option.map_eq_some_iff.1 h with ⟨screen, hscreen, rfl⟩
  exact ⟨screen, hscreen, rfl⟩

/-- What one event can do: a text is typed again, a new one goes into the sink, the timer
fires, or something else happens on the screen. -/
theorem step_cases {s s' : TimedNewMessage} {e : TimedEvent}
    (h : step lowercased contains s e = some s') :
    (∃ key now finish, e = .textChanged key now finish ∧ s.clock ≤ now ∧ now ≤ finish ∧
      s.screen.filterKey = some key ∧ s' = { s with clock := finish }) ∨
    (∃ key now finish, e = .textChanged key now finish ∧ s.clock ≤ now ∧ now ≤ finish ∧
      s.screen.filterKey ≠ some key ∧
      s' = take lowercased contains
        { s with
          screen := { s.screen with filterKey := some key }
          keys := s.keys ++ [key] }
        now finish (s.throttle.on dueTime now finish (.next key))) ∨
    (∃ due now finish, e = .throttleFires now finish ∧ s.clock ≤ now ∧ now ≤ finish ∧
      s.throttle.timer = some due ∧ due ≤ now ∧
      s' = s.take lowercased contains now finish (s.throttle.propagate finish)) ∨
    (∃ other screen, (other = .pull ∨ other = .cancel ∨ ∃ i answer, other = .respond i answer) ∧
      s.screen.step lowercased contains other = some screen ∧
      s' = { s with screen := screen }) := by
  cases e with
  | textChanged key now finish =>
      simp only [step] at h
      split at h
      · rename_i hclock
        split at h
        · rename_i hsame
          exact Or.inl ⟨key, now, finish, rfl, hclock.1, hclock.2, hsame, (Option.some.inj h).symm⟩
        · rename_i hnew
          exact Or.inr (Or.inl
            ⟨key, now, finish, rfl, hclock.1, hclock.2, hnew, (Option.some.inj h).symm⟩)
      · cases h
  | throttleFires now finish =>
      simp only [step] at h
      split at h
      · rename_i due hdue
        split at h
        · rename_i hclock
          exact Or.inr (Or.inr (Or.inl ⟨due, now, finish, rfl, hclock.1, hclock.2.1, hdue,
            hclock.2.2, (Option.some.inj h).symm⟩))
        · cases h
      · cases h
  | pull =>
      rcases elsewhere_eq_some lowercased contains (e := .pull) h with ⟨screen, hscreen, rfl⟩
      exact Or.inr (Or.inr (Or.inr ⟨.pull, screen, Or.inl rfl, hscreen, rfl⟩))
  | cancel =>
      rcases elsewhere_eq_some lowercased contains (e := .cancel) h with ⟨screen, hscreen, rfl⟩
      exact Or.inr (Or.inr (Or.inr ⟨.cancel, screen, Or.inr (Or.inl rfl), hscreen, rfl⟩))
  | respond i answer =>
      rcases elsewhere_eq_some lowercased contains (e := .respond i answer) h with
        ⟨screen, hscreen, rfl⟩
      exact Or.inr (Or.inr (Or.inr
        ⟨.respond i answer, screen, Or.inr (Or.inr ⟨i, answer, rfl⟩), hscreen, rfl⟩))

end TimedNewMessage

/-! ## What the rest of the screen leaves alone -/

namespace NewMessage

/-- The elements on the way from the search bar to `inputText`. -/
def typing (s : NewMessage) : Option String × ThrottleSink String × Option String :=
  (s.filterKey, s.throttle, s.inputText)

theorem typing_refetch (s : NewMessage) : s.refetch.typing = s.typing := by
  unfold refetch
  split <;> rfl

theorem typing_acceptSearching (s : NewMessage) (searching : Bool) :
    (s.acceptSearching searching).typing = s.typing := by
  unfold acceptSearching
  simp only
  split
  · exact typing_refetch _
  · rfl

theorem typing_pulled (s : NewMessage) : s.pulled.typing = s.typing := by
  have hretry : ({ s with spinner := true } : NewMessage).retry.typing = s.typing := by
    rw [retry_eq]
    split <;> rfl
  unfold pulled
  simp only
  split
  · exact hretry
  · exact (typing_refetch _).trans hretry

section Search

variable (lowercased : String → String) (contains : String → String → Bool)

theorem typing_search (s : NewMessage) (text : String) (base : List User) :
    (s.search lowercased contains text base).typing = s.typing := by
  unfold search
  split
  · rfl
  · exact typing_acceptSearching s true

theorem typing_reload (s : NewMessage) (text : String) : (s.reload text).typing = s.typing := by
  unfold reload
  split
  · rfl
  · exact typing_acceptSearching s false

/-- An optional effect leaves what is typed alone if all its values do. -/
theorem typing_elim {α : Type} {s : NewMessage} (o : Option α) {f : α → NewMessage}
    (hf : ∀ a, (f a).typing = s.typing) : (o.elim s f).typing = s.typing := by
  cases o with
  | none => rfl
  | some a => exact hf a

/-- A text that takes effect is the input text. -/
theorem typing_emitText (s : NewMessage) (text : String) :
    (s.emitText lowercased contains text).typing = (s.filterKey, s.throttle, some text) := by
  unfold emitText
  rw [typing_reload]
  exact typing_elim _ fun base => typing_search lowercased contains _ text base

/-- A sequence of effects leaves what is typed alone if each one does. -/
theorem typing_foldl {α : Type} {f : NewMessage → α → NewMessage}
    (hf : ∀ s a, (f s a).typing = s.typing) (as : List α) (s : NewMessage) :
    (as.foldl f s).typing = s.typing := by
  induction as generalizing s with
  | nil => rfl
  | cons a as ih => rw [List.foldl_cons, ih, hf]

/-- An answer leaves what is typed alone. -/
theorem typing_deliver (s : NewMessage) (events : List (Event BackendError (List User)))
    (pipeline : Pipeline) : (s.deliver lowercased contains events pipeline).typing = s.typing := by
  cases pipeline with
  | fetchedUsers =>
      refine typing_foldl ?_ _ _
      rintro s (users | e | -)
      · exact typing_elim _ fun text => typing_search lowercased contains
          { s with users := users, baseUsersForFiltering := some users } text users
      · rfl
      · rfl
  | reFetchedUsers inner => exact typing_foldl (by rintro s (users | e | -) <;> rfl) _ _
  | reloadedUsers inner => exact typing_foldl (by rintro s (users | e | -) <;> rfl) _ _

/-- Pulls, cancels and responses have nothing to do with the search text. -/
theorem typing_step {s s' : NewMessage} {e : NewMessageEvent}
    (he : e = .pull ∨ e = .cancel ∨ ∃ i answer, e = .respond i answer)
    (h : s.step lowercased contains e = some s') : s'.typing = s.typing := by
  rcases he with rfl | rfl | ⟨i, answer, rfl⟩
  · exact Option.some.inj h ▸ typing_pulled s
  · exact Option.some.inj h ▸ typing_refetch s
  · simp only [step, Option.bind_eq_bind, Option.bind_eq_some_iff, Option.pure_def,
      Option.some.injEq] at h
    rcases h with ⟨fetch, -, -, -, rfl⟩
    exact typing_deliver lowercased contains _ _ _

end Search

end NewMessage

namespace TimedNewMessage

variable (lowercased : String → String) (contains : String → String → Bool)

/-! ## The screen without a clock -/

/-- The sink goes on, keeps its times, and is the sink of the screen. -/
structure Sound (s : TimedNewMessage) : Prop where
  running : s.throttle.Running
  timed : s.throttle.Timed dueTime s.clock
  throttle_eq : s.screen.throttle = s.throttle.untimed

/-- The throttle starts without an element. -/
theorem sound_initial : initial.Sound :=
  ⟨⟨rfl, rfl⟩, TimedThrottleSink.timed_fresh 0, rfl⟩

/-- What `throttle` lets pass is at most one element. -/
theorem take_toList (s : TimedNewMessage) (now finish : Nat) (throttle : TimedThrottleSink String)
    (passed : Option String) :
    s.take lowercased contains now finish (throttle, passed.toList.map Event.next) =
      { screen :=
          passed.elim { s.screen with throttle := throttle.untimed } fun key =>
            NewMessage.emitText lowercased contains
              { s.screen with throttle := throttle.untimed } (lowercased key)
        throttle := throttle
        clock := finish
        keys := s.keys
        texts := s.texts ++
          (passed.map fun key => EmittedText.mk now finish (lowercased key)).toList } := by
  cases passed <;> simp [take, Event.value?]

/-- Where what is typed stays, so does the throttle. -/
theorem throttle_eq_of_typing {s s' : NewMessage} (h : s'.typing = s.typing) :
    s'.filterKey = s.filterKey ∧ s'.throttle = s.throttle ∧ s'.inputText = s.inputText := by
  simpa [NewMessage.typing] using h

/-- The sink of the screen after `throttle` has let something pass or not. -/
theorem take_throttle (s : TimedNewMessage) (now finish : Nat)
    (throttle : TimedThrottleSink String) (passed : Option String) :
    (s.take lowercased contains now finish (throttle, passed.toList.map Event.next)
      ).screen.throttle = throttle.untimed := by
  rw [take_toList]
  cases passed with
  | none => rfl
  | some key =>
      exact congrArg (fun typing => typing.2.1)
        (NewMessage.typing_emitText lowercased contains _ (lowercased key))

/-- The throttle has its timer after every event. -/
theorem sound_step {s s' : TimedNewMessage} {e : TimedEvent} (h : s.Sound)
    (hstep : step lowercased contains s e = some s') : s'.Sound := by
  rcases step_cases lowercased contains hstep with
    ⟨key, now, finish, -, hnow, hfinish, -, rfl⟩ | ⟨key, now, finish, -, hnow, hfinish, -, rfl⟩ |
    ⟨due, now, finish, -, hnow, hfinish, -, -, rfl⟩ | ⟨other, screen, hother, hscreen, rfl⟩
  · exact ⟨h.running, h.timed.mono (hnow.trans hfinish), h.throttle_eq⟩
  · refine ⟨h.running.on now finish key, h.timed.on hnow hfinish _, ?_⟩
    rw [← Prod.eta (s.throttle.on dueTime now finish (.next key)),
      ← (h.running.untimed_on dueTime now finish key).2]
    exact take_throttle lowercased contains _ now finish _ _
  · refine ⟨h.running.propagate finish, h.timed.propagate (hnow.trans hfinish), ?_⟩
    rw [← Prod.eta (s.throttle.propagate finish), ← (h.running.untimed_propagate finish).2]
    exact take_throttle lowercased contains _ now finish _ _
  · refine ⟨h.running, h.timed, ?_⟩
    rw [(throttle_eq_of_typing (NewMessage.typing_step lowercased contains hother hscreen)).2.1]
    exact h.throttle_eq

/-- One event is an event of the screen that is told whether the interval has gone by. -/
theorem screen_step {s s' : TimedNewMessage} {e : TimedEvent} (h : s.Sound)
    (hstep : step lowercased contains s e = some s') :
    Reachable (NewMessage.step lowercased contains) s.screen s'.screen := by
  rcases step_cases lowercased contains hstep with
    ⟨key, now, finish, -, -, -, -, rfl⟩ | ⟨key, now, finish, -, -, -, hnew, rfl⟩ |
    ⟨due, now, finish, -, -, -, -, -, rfl⟩ | ⟨other, screen, hother, hscreen, rfl⟩
  · exact Reachable.refl _
  · have hon := h.running.untimed_on (E := Empty) dueTime now finish key
    rw [← h.throttle_eq] at hon
    refine Reachable.single (e := .textChanged key
      (decide (s.throttle.reducedScheduledTime dueTime now = 0))) (congrArg some ?_)
    rw [← Prod.eta (s.throttle.on dueTime now finish (.next key)), ← hon.2, take_toList, ← hon.1,
      NewMessage.textChanged, if_neg hnew]
  · have hpropagate := h.running.untimed_propagate (E := Empty) finish
    rw [← h.throttle_eq] at hpropagate
    refine Reachable.single (e := .throttleFires) (congrArg some ?_)
    rw [← Prod.eta (s.throttle.propagate finish), ← hpropagate.2, take_toList, ← hpropagate.1,
      NewMessage.throttleFires]
  · exact Reachable.single hscreen

/-- **The screen with the clock refines the screen without.** -/
theorem refines_screen {s : TimedNewMessage}
    (hreach : Reachable (step lowercased contains) initial s) :
    Reachable (NewMessage.step lowercased contains) NewMessage.initial s.screen :=
  reachable_map (f := screen) (I := Sound)
    (fun _ _ _ ha hab => sound_step lowercased contains ha hab)
    (fun _ _ _ ha hab => screen_step lowercased contains ha hab) sound_initial hreach

/-! ## What is typed and what takes effect -/

/-- More than 299.5 ms lie between the end of one text and the start of the next. -/
def Apart (a b : EmittedText) : Prop :=
  a.finish + 299500000 < b.start

/-- The texts are apart; the last one is in effect; what has been emitted and what is kept
was typed in this order; and what is not kept is up to date. -/
structure Recorded (s : TimedNewMessage) : Prop where
  apart : s.texts.IsChain Apart
  lastSentTime_eq : s.throttle.lastSentTime = s.texts.getLast?.map EmittedText.finish
  inputText_eq : s.screen.inputText = s.texts.getLast?.map EmittedText.text
  typed : (s.texts.map EmittedText.text ++
    (s.throttle.lastUnsentElement.map lowercased).toList).Sublist (s.keys.map lowercased)
  newest : s.throttle.lastUnsentElement.elim
    (s.screen.inputText = s.screen.filterKey.map lowercased) fun key =>
      s.screen.filterKey = some key

/-- No text has taken effect yet. -/
theorem recorded_initial : initial.Recorded lowercased :=
  ⟨List.isChain_nil, rfl, rfl, List.Sublist.refl _, rfl⟩

/-- The interval of the search text is 300 milliseconds. -/
theorem ticks_dueTime : dueTime.ticks = 300000000 := by
  simp [dueTime, TimeInterval.ticks]

/-- The interval is counted in milliseconds. -/
theorem unit_dueTime : dueTime.unit = 1000000 := by
  simp [dueTime]

/-- A text sent after the interval is apart from the one before. -/
theorem apart_of_spaced {throttle : TimedThrottleSink String} {texts : List EmittedText}
    {now : Nat} (hspaced : throttle.Spaced dueTime now)
    (hlast : throttle.lastSentTime = texts.getLast?.map EmittedText.finish)
    (hapart : texts.IsChain Apart) (finish : Nat) (text : String) :
    (texts ++ [EmittedText.mk now finish text]).IsChain Apart := by
  refine List.isChain_append.2 ⟨hapart, List.isChain_singleton _, ?_⟩
  intro a ha b hb
  obtain rfl : EmittedText.mk now finish text = b := by simpa using hb
  have hsent : a.finish ∈ throttle.lastSentTime := by
    rw [hlast, Option.mem_def.1 ha]
    rfl
  have hlower := hspaced a.finish hsent
  rw [ticks_dueTime, unit_dueTime] at hlower
  have hapart : a.finish + 299500000 < now := by grind
  exact hapart

/-- The text typed last passes. -/
theorem recorded_passed {s : TimedNewMessage} {throttle : TimedThrottleSink String}
    {now finish : Nat} {key : String}
    (hapart : (s.texts ++ [EmittedText.mk now finish (lowercased key)]).IsChain Apart)
    (hsent : throttle.lastSentTime = some finish) (hkept : throttle.lastUnsentElement = none)
    (hkey : s.screen.filterKey = some key)
    (htyped : (s.texts.map EmittedText.text ++ [lowercased key]).Sublist
      (s.keys.map lowercased)) :
    (s.take lowercased contains now finish (throttle, [.next key])).Recorded lowercased := by
  have htyping := NewMessage.typing_emitText lowercased contains
    { s.screen with throttle := throttle.untimed } (lowercased key)
  have htake : s.take lowercased contains now finish (throttle, [.next key]) =
      { screen := NewMessage.emitText lowercased contains
          { s.screen with throttle := throttle.untimed } (lowercased key)
        throttle := throttle
        clock := finish
        keys := s.keys
        texts := s.texts ++ [EmittedText.mk now finish (lowercased key)] } := rfl
  rw [htake]
  generalize NewMessage.emitText lowercased contains
    { s.screen with throttle := throttle.untimed } (lowercased key) = screen at htyping ⊢
  simp only [NewMessage.typing, Prod.mk.injEq] at htyping
  constructor
  · exact hapart
  · simpa using hsent
  · simpa using htyping.2.2
  · simpa [hkept] using htyped
  · simp [hkept, htyping.1, htyping.2.2, hkey]

/-- Nothing passes. -/
theorem recorded_unpassed {s : TimedNewMessage} {throttle : TimedThrottleSink String}
    (hapart : s.texts.IsChain Apart)
    (hsent : throttle.lastSentTime = s.texts.getLast?.map EmittedText.finish)
    (hinput : s.screen.inputText = s.texts.getLast?.map EmittedText.text)
    (htyped : (s.texts.map EmittedText.text ++
      (throttle.lastUnsentElement.map lowercased).toList).Sublist (s.keys.map lowercased))
    (hnewest : throttle.lastUnsentElement.elim
      (s.screen.inputText = s.screen.filterKey.map lowercased) fun key =>
        s.screen.filterKey = some key) (now finish : Nat) :
    (s.take lowercased contains now finish (throttle, [])).Recorded lowercased := by
  constructor
  · simpa [take] using hapart
  · simpa [take] using hsent
  · simpa [take] using hinput
  · simpa [take] using htyped
  · simpa [take] using hnewest

/-- Every event keeps the record of what has taken effect. -/
theorem recorded_step {s s' : TimedNewMessage} {e : TimedEvent} (hsound : s.Sound)
    (h : s.Recorded lowercased) (hstep : step lowercased contains s e = some s') :
    s'.Recorded lowercased := by
  have hemitted : (s.texts.map EmittedText.text).Sublist (s.keys.map lowercased) :=
    (List.sublist_append_left _ _).trans h.typed
  rcases step_cases lowercased contains hstep with
    ⟨key, now, finish, -, hnow, hfinish, -, rfl⟩ | ⟨key, now, finish, -, hnow, hfinish, -, rfl⟩ |
    ⟨due, now, finish, -, hnow, hfinish, htimer, hdue, rfl⟩ |
    ⟨other, screen, hother, hscreen, rfl⟩
  · exact { h with }
  · rcases hsound.running.on_cases (E := Empty) dueTime now finish key with
      ⟨hreduced, heq⟩ | ⟨-, timer, heq⟩
    · have hspaced := hsound.timed.spaced_of_reduced hnow hreduced
      rw [heq]
      refine recorded_passed lowercased contains ?_ rfl rfl rfl ?_
      · exact apart_of_spaced hspaced h.lastSentTime_eq h.apart finish _
      · simpa using hemitted.append (List.Sublist.refl [lowercased key])
    · rw [heq]
      refine recorded_unpassed lowercased contains ?_ ?_ ?_ ?_ ?_ now finish
      · exact h.apart
      · exact h.lastSentTime_eq
      · exact h.inputText_eq
      · simpa using hemitted.append (List.Sublist.refl [lowercased key])
      · rfl
  · rcases hsound.running.propagate_cases (E := Empty) finish with ⟨hkept, heq⟩ | ⟨key, hkept, heq⟩
    · rw [heq]
      refine recorded_unpassed lowercased contains ?_ ?_ ?_ ?_ ?_ now finish
      · exact h.apart
      · exact h.lastSentTime_eq
      · exact h.inputText_eq
      · exact h.typed
      · exact h.newest
    · have hspaced := hsound.timed.spaced_of_due hsound.running.2 (by simp [hkept]) htimer hdue
      have hnewest := h.newest
      have htyped := h.typed
      rw [hkept] at hnewest htyped
      rw [heq]
      exact recorded_passed lowercased contains
        (apart_of_spaced hspaced h.lastSentTime_eq h.apart finish _) rfl rfl hnewest htyped
  · have htyping :=
      throttle_eq_of_typing (NewMessage.typing_step lowercased contains hother hscreen)
    constructor
    · exact h.apart
    · exact h.lastSentTime_eq
    · exact htyping.2.2.trans h.inputText_eq
    · exact h.typed
    · simpa only [htyping.1, htyping.2.2] using h.newest

/-- In every reachable state the record is kept. -/
theorem recorded_of_reachable {s : TimedNewMessage}
    (hreach : Reachable (step lowercased contains) initial s) :
    s.Sound ∧ s.Recorded lowercased :=
  hreach.invariant (P := fun a => a.Sound ∧ a.Recorded lowercased)
    (fun _ _ _ _ ha hab =>
      ⟨sound_step lowercased contains ha.1 hab, recorded_step lowercased contains ha.1 ha.2 hab⟩)
    ⟨sound_initial, recorded_initial lowercased⟩

/-- **How often the search text is taken over.**  The screen runs as it would without a clock;
from the end of one text to the start of the next it is more than 299.5 ms; and the texts are
among those typed, in this order. -/
theorem paced {s : TimedNewMessage} (hreach : Reachable (step lowercased contains) initial s) :
    Reachable (NewMessage.step lowercased contains) NewMessage.initial s.screen ∧
      s.texts.IsChain (fun a b => a.finish + 299500000 < b.start) ∧
      (s.texts.map EmittedText.text).Sublist (s.keys.map lowercased) := by
  have hrecorded := (recorded_of_reachable lowercased contains hreach).2
  exact ⟨refines_screen lowercased contains hreach, hrecorded.apart,
    (List.sublist_append_left _ _).trans hrecorded.typed⟩

/-- Two letters are typed within 100 ms, and the timer fires. -/
def twoLetters : List TimedEvent :=
  [.textChanged "a" 0 0, .textChanged "al" 100000000 100000000,
    .throttleFires 300000000 300000000]

theorem paced_twoLetters :
    (final (step id (· == ·)) initial twoLetters).texts.map EmittedText.text = ["a", "al"] ∧
      (final (step id (· == ·)) initial twoLetters).texts.IsChain
        (fun a b => a.finish + 299500000 < b.start) :=
  ⟨by decide, (paced id (· == ·) (reachable_final (by decide))).2.1⟩

/-- **The text typed last is in effect, or about to be.**  If `throttle` keeps nothing, the
text in effect is the one typed last; if it keeps a text, that is the one typed last, a timer
is set for at most 300.5 ms after the last emission, and whenever it fires the text takes
effect. -/
theorem keeps_up {s : TimedNewMessage} (hreach : Reachable (step lowercased contains) initial s) :
    (s.throttle.lastUnsentElement = none →
      s.screen.inputText = s.screen.filterKey.map lowercased) ∧
    (∀ key, s.throttle.lastUnsentElement = some key → s.screen.filterKey = some key ∧
      ∃ last due, s.texts.getLast? = some last ∧ s.throttle.timer = some due ∧
        due ≤ last.finish + 300500000 ∧
        ∀ now finish, s.clock ≤ now → due ≤ now → now ≤ finish →
          ∃ s', step lowercased contains s (.throttleFires now finish) = some s' ∧
            s'.screen.inputText = some (lowercased key)) := by
  rcases recorded_of_reachable lowercased contains hreach with ⟨hsound, hrecorded⟩
  have hnewest := hrecorded.newest
  constructor
  · intro hkept
    simpa [hkept] using hnewest
  · intro key hkept
    rw [hkept] at hnewest
    rcases hsound.timed.timer hsound.running.2 (by simp [hkept]) with
      ⟨sent, due, hsent, htimer, -, hupper⟩
    rcases Option.map_eq_some_iff.1 (hrecorded.lastSentTime_eq.symm.trans hsent) with
      ⟨last, hlast, rfl⟩
    rw [ticks_dueTime, unit_dueTime] at hupper
    refine ⟨hnewest, last, due, hlast, htimer, by grind, ?_⟩
    intro now finish hnow hdue hfinish
    have hfires : step lowercased contains s (.throttleFires now finish) =
        some (s.take lowercased contains now finish (s.throttle.propagate finish)) := by
      simp [step, htimer, hnow, hdue, hfinish]
    refine ⟨_, hfires, ?_⟩
    have hafter := (recorded_step lowercased contains hsound hrecorded hfires).inputText_eq
    rcases hsound.running.propagate_cases (E := Empty) finish with ⟨hnone, -⟩ | ⟨key', hkey', heq⟩
    · rw [hkept] at hnone
      cases hnone
    · obtain rfl : key = key' := Option.some.inj (hkept.symm.trans hkey')
      rw [hafter, heq]
      simp [take, Event.value?]

/-- The second letter is kept. -/
theorem keeps_up_twoLetters :
    (final (step id (· == ·)) initial (twoLetters.take 2)).screen.filterKey = some "al" :=
  ((keeps_up id (· == ·) (reachable_final (by decide))).2 "al" (by decide)).1

end TimedNewMessage

end WaffleChat
