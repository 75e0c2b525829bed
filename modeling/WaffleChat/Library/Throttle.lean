import WaffleChat.Library.Observers

/-!
# The throttle sink and its clock

The sink of a throttled sequence with the clock it reads and the timer it sets.  An element
passes at once when the interval since the last one has gone by; otherwise it is kept, in
place of an older one, until a timer fires that is set for what is left of the interval.
What is left is rounded to whole units, so that an element may come up to half a unit early.

Main results:

- Theorem `TimedThrottleSink.Timed.on`, `TimedThrottleSink.Timed.propagate`: a kept element
  always has a timer, due within half a unit of the interval.
- Theorem `TimedThrottleSink.Timed.spaced_of_reduced`,
  `TimedThrottleSink.Timed.spaced_of_due`: no element passes before the interval less half a
  unit has gone by.
- Theorem `TimedThrottleSink.Running.untimed_on`,
  `TimedThrottleSink.Running.untimed_propagate`: the sink refines the one that is told
  whether the interval has gone by.
-/

namespace Observers

/-- A time interval: a number of units, each of which takes so many ticks of the clock. -/
structure TimeInterval where
  value : Nat
  unit : Nat
  unit_pos : 0 < unit

namespace TimeInterval

/-- The length of the interval in ticks. -/
def ticks (interval : TimeInterval) : Nat :=
  interval.value * interval.unit

/-- What is left of the interval that began at `earlierDate`, to the nearest unit; a half is
rounded up. -/
def reduceWithSpanBetween (interval : TimeInterval) (earlierDate laterDate : Nat) : Nat :=
  let remainder := interval.ticks - (laterDate - earlierDate)
  (2 * remainder + interval.unit) / (2 * interval.unit)

/-- Rounding loses at most half a unit. -/
theorem lt_reduceWithSpanBetween (interval : TimeInterval) {earlierDate laterDate : Nat}
    (hdate : earlierDate ≤ laterDate) :
    2 * (earlierDate + interval.ticks) <
      2 * (laterDate + interval.reduceWithSpanBetween earlierDate laterDate * interval.unit) +
        interval.unit := by
  set reduced := interval.reduceWithSpanBetween earlierDate laterDate with hreduced
  have hunit : 0 < 2 * interval.unit := by have := interval.unit_pos; omega
  have hdiv : 2 * (interval.ticks - (laterDate - earlierDate)) + interval.unit <
      2 * interval.unit * reduced + 2 * interval.unit :=
    Nat.lt_mul_div_succ _ hunit
  have hmul : 2 * interval.unit * reduced = 2 * (reduced * interval.unit) := by
    rw [Nat.mul_assoc, Nat.mul_comm interval.unit]
  omega

/-- Rounding adds at most half a unit. -/
theorem reduceWithSpanBetween_le (interval : TimeInterval) {earlierDate laterDate : Nat}
    (hpositive : interval.reduceWithSpanBetween earlierDate laterDate ≠ 0)
    (hdate : earlierDate ≤ laterDate) :
    2 * (laterDate + interval.reduceWithSpanBetween earlierDate laterDate * interval.unit) ≤
      2 * (earlierDate + interval.ticks) + interval.unit := by
  set reduced := interval.reduceWithSpanBetween earlierDate laterDate with hreduced
  have hdiv : 2 * interval.unit * reduced ≤
      2 * (interval.ticks - (laterDate - earlierDate)) + interval.unit :=
    Nat.mul_div_le _ _
  have hmul : 2 * interval.unit * reduced = 2 * (reduced * interval.unit) := by
    rw [Nat.mul_assoc, Nat.mul_comm interval.unit]
  have hwhole : interval.unit ≤ reduced * interval.unit :=
    Nat.le_mul_of_pos_left _ (Nat.pos_of_ne_zero hpositive)
  have := interval.unit_pos
  omega

end TimeInterval

/-- The sink of `throttle`: what it keeps, when it last sent an element, when the timer in
`cancellable` is due, and whether the sequence has ended with an element still kept. -/
structure TimedThrottleSink (α : Type) where
  lastUnsentElement : Option α
  lastSentTime : Option Nat
  timer : Option Nat
  completed : Bool
  disposed : Bool
deriving DecidableEq, Repr

namespace TimedThrottleSink

variable {E α : Type} (interval : TimeInterval)

/-- The sink of a new subscription. -/
def fresh : TimedThrottleSink α := ⟨none, none, none, false, false⟩

/-- Forward unless the sink is disposed. -/
def forwardOn (sink : TimedThrottleSink α) (event : Event E α) : List (Event E α) :=
  if sink.disposed then [] else [event]

/-- The subscription ends, and the timer with it. -/
def dispose (sink : TimedThrottleSink α) : TimedThrottleSink α :=
  { sink with timer := none, disposed := true }

/-- Send an element; the clock is read again when it has been processed, at `sent`. -/
def sendNow (sink : TimedThrottleSink α) (sent : Nat) (element : α) :
    TimedThrottleSink α × List (Event E α) :=
  ({ sink with lastUnsentElement := none, lastSentTime := some sent },
    sink.forwardOn (.next element))

/-- What is left of the interval at `now`. -/
def reducedScheduledTime (sink : TimedThrottleSink α) (now : Nat) : Nat :=
  sink.lastSentTime.elim 0 fun lastSendingTime =>
    interval.reduceWithSpanBetween lastSendingTime now

/-- An event of the source at `now`. -/
def on (sink : TimedThrottleSink α) (now sent : Nat) :
    Event E α → TimedThrottleSink α × List (Event E α)
  | .next element =>
      let reducedScheduledTime := sink.reducedScheduledTime interval now
      if reducedScheduledTime = 0 then sink.sendNow sent element
      else if sink.lastUnsentElement.isSome then
        ({ sink with lastUnsentElement := some element }, [])
      else
        -- the timer set before, if it has not fired, is replaced
        ({ sink with
            lastUnsentElement := some element
            timer := some (now + reducedScheduledTime * interval.unit) }, [])
  | .error e => ({ sink with lastUnsentElement := none }.dispose, sink.forwardOn (.error e))
  | .completed =>
      if sink.lastUnsentElement.isSome then ({ sink with completed := true }, [])
      else (sink.dispose, sink.forwardOn .completed)

/-- Send the kept element, if there is one. -/
def sendUnsent (sink : TimedThrottleSink α) (sent : Nat) :
    TimedThrottleSink α × List (Event E α) :=
  sink.lastUnsentElement.elim (sink, []) fun element => sink.sendNow sent element

/-- The timer fires. -/
def propagate (sink : TimedThrottleSink α) (sent : Nat) :
    TimedThrottleSink α × List (Event E α) :=
  let propagated := { sink with timer := none }.sendUnsent sent
  if propagated.1.completed then
    (propagated.1.dispose, propagated.2 ++ propagated.1.forwardOn .completed)
  else propagated

/-! ## The timer of a kept element -/

/-- The last element was sent before `clock`; a kept element has a timer, set for the end of
the interval to within half a unit. -/
structure Timed (sink : TimedThrottleSink α) (clock : Nat) : Prop where
  sent_le : ∀ sent ∈ sink.lastSentTime, sent ≤ clock
  timer : sink.disposed = false → sink.lastUnsentElement.isSome →
    ∃ sent due, sink.lastSentTime = some sent ∧ sink.timer = some due ∧
      2 * (sent + interval.ticks) < 2 * due + interval.unit ∧
      2 * due ≤ 2 * (sent + interval.ticks) + interval.unit

variable {interval}

/-- Nothing is kept, and no timer runs. -/
theorem timed_fresh (clock : Nat) : (fresh : TimedThrottleSink α).Timed interval clock := by
  constructor
  · simp [fresh]
  · simp [fresh]

/-- The same holds later. -/
theorem Timed.mono {sink : TimedThrottleSink α} {clock clock' : Nat}
    (h : sink.Timed interval clock) (hclock : clock ≤ clock') : sink.Timed interval clock' :=
  ⟨fun sent hsent => Nat.le_trans (h.sent_le sent hsent) hclock, h.timer⟩

/-- A disposed sink keeps nothing. -/
theorem timed_dispose {sink : TimedThrottleSink α} {clock : Nat}
    (hsent : ∀ sent ∈ sink.lastSentTime, sent ≤ clock) :
    sink.dispose.Timed interval clock := by
  refine ⟨hsent, ?_⟩
  intro hlive
  cases hlive

/-- Nothing is kept once an element has been sent. -/
theorem timed_sendNow (sink : TimedThrottleSink α) (sent : Nat) (element : α) :
    (sink.sendNow sent element : _ × List (Event E α)).1.Timed interval sent := by
  constructor
  · simp [sendNow]
  · simp [sendNow]

/-- An event starts a timer for no longer than the interval. -/
theorem Timed.on {sink : TimedThrottleSink α} {clock now sent : Nat}
    (h : sink.Timed interval clock) (hnow : clock ≤ now) (hsent : now ≤ sent)
    (event : Event E α) : (sink.on interval now sent event).1.Timed interval sent := by
  have hbefore : sink.Timed interval sent := h.mono (Nat.le_trans hnow hsent)
  cases event with
  | next element =>
      simp only [TimedThrottleSink.on]
      split
      · exact timed_sendNow sink sent element
      · rename_i hreduced
        split
        · rename_i hkept
          exact ⟨hbefore.sent_le, fun hlive _ => hbefore.timer hlive hkept⟩
        · refine ⟨hbefore.sent_le, fun _ _ => ?_⟩
          cases hlast : sink.lastSentTime with
          | none => simp [reducedScheduledTime, hlast] at hreduced
          | some last =>
              have hdate : last ≤ now := Nat.le_trans (h.sent_le last hlast) hnow
              simp only [reducedScheduledTime, hlast, Option.elim_some] at hreduced ⊢
              exact ⟨last, _, rfl, rfl, interval.lt_reduceWithSpanBetween hdate,
                interval.reduceWithSpanBetween_le hreduced hdate⟩
  | error e => exact timed_dispose hbefore.sent_le
  | completed =>
      simp only [TimedThrottleSink.on]
      split
      · exact ⟨hbefore.sent_le, hbefore.timer⟩
      · exact timed_dispose hbefore.sent_le

/-- Once the kept element is sent, nothing is kept. -/
theorem Timed.sendUnsent {sink : TimedThrottleSink α} {clock sent : Nat}
    (h : sink.Timed interval clock) (hsent : clock ≤ sent) :
    (({ sink with timer := none } : TimedThrottleSink α).sendUnsent sent :
      _ × List (Event E α)).1.Timed interval sent := by
  cases hkept : sink.lastUnsentElement with
  | none =>
      refine ⟨fun last hlast => ?_, fun _ hsome => ?_⟩
      · simp only [TimedThrottleSink.sendUnsent, Option.elim_none] at hlast
        exact Nat.le_trans (h.sent_le last hlast) hsent
      · simp [TimedThrottleSink.sendUnsent] at hsome
  | some element =>
      simp only [TimedThrottleSink.sendUnsent, Option.elim_some]
      exact timed_sendNow _ sent element

/-- After the timer has fired nothing is kept. -/
theorem Timed.propagate {sink : TimedThrottleSink α} {clock sent : Nat}
    (h : sink.Timed interval clock) (hsent : clock ≤ sent) :
    (sink.propagate sent : _ × List (Event E α)).1.Timed interval sent := by
  unfold TimedThrottleSink.propagate
  have hunsent := h.sendUnsent (E := E) hsent
  dsimp only
  split
  · exact timed_dispose hunsent.sent_le
  · exact hunsent

/-! ## The distance between elements -/

/-- The interval since the last element, less half a unit, has gone by at `now`. -/
def Spaced (interval : TimeInterval) (sink : TimedThrottleSink α) (now : Nat) : Prop :=
  ∀ sent ∈ sink.lastSentTime, 2 * (sent + interval.ticks) < 2 * now + interval.unit

/-- Nothing is left of the interval. -/
theorem Timed.spaced_of_reduced {sink : TimedThrottleSink α} {clock now : Nat}
    (h : sink.Timed interval clock) (hnow : clock ≤ now)
    (hreduced : sink.reducedScheduledTime interval now = 0) : sink.Spaced interval now := by
  intro last hlast
  have hdate : last ≤ now := Nat.le_trans (h.sent_le last hlast) hnow
  have hround := interval.lt_reduceWithSpanBetween hdate
  rw [reducedScheduledTime, hlast, Option.elim_some] at hreduced
  rw [hreduced] at hround
  omega

/-- The timer of a kept element is due. -/
theorem Timed.spaced_of_due {sink : TimedThrottleSink α} {clock due now : Nat}
    (h : sink.Timed interval clock) (hlive : sink.disposed = false)
    (hkept : sink.lastUnsentElement.isSome) (htimer : sink.timer = some due) (hdue : due ≤ now) :
    sink.Spaced interval now := by
  rcases h.timer hlive hkept with ⟨last, due', hlast, htimer', hlower, -⟩
  obtain rfl : due = due' := Option.some.inj (htimer.symm.trans htimer')
  intro last' hlast'
  obtain rfl : last = last' := Option.some.inj (hlast.symm.trans hlast')
  omega

/-! ## While the source goes on -/

/-- The source of the sink has not ended. -/
def Running (sink : TimedThrottleSink α) : Prop :=
  sink.completed = false ∧ sink.disposed = false

/-- An element passes, or it is kept with a timer. -/
theorem Running.on_cases {sink : TimedThrottleSink α} (h : sink.Running)
    (interval : TimeInterval) (now sent : Nat) (element : α) :
    (sink.reducedScheduledTime interval now = 0 ∧
      sink.on interval now sent (.next element : Event E α) =
        ({ sink with lastUnsentElement := none, lastSentTime := some sent }, [.next element])) ∨
    (sink.reducedScheduledTime interval now ≠ 0 ∧ ∃ timer,
      sink.on interval now sent (.next element : Event E α) =
        ({ sink with lastUnsentElement := some element, timer := timer }, [])) := by
  by_cases hreduced : sink.reducedScheduledTime interval now = 0
  · exact Or.inl ⟨hreduced, by simp [TimedThrottleSink.on, hreduced, sendNow, forwardOn, h.2]⟩
  · refine Or.inr ⟨hreduced, ?_⟩
    by_cases hkept : sink.lastUnsentElement.isSome = true
    · exact ⟨sink.timer, by simp [TimedThrottleSink.on, hreduced, hkept]⟩
    · exact ⟨_, by simp only [TimedThrottleSink.on, hreduced, hkept, if_false]; rfl⟩

/-- The timer sends the kept element, if there is one. -/
theorem Running.propagate_cases {sink : TimedThrottleSink α} (h : sink.Running) (sent : Nat) :
    (sink.lastUnsentElement = none ∧
      (sink.propagate sent : _ × List (Event E α)) = ({ sink with timer := none }, [])) ∨
    (∃ element, sink.lastUnsentElement = some element ∧
      (sink.propagate sent : _ × List (Event E α)) =
        ({ sink with lastUnsentElement := none, lastSentTime := some sent, timer := none },
          [.next element])) := by
  cases hkept : sink.lastUnsentElement with
  | none =>
      left
      simp [TimedThrottleSink.propagate, TimedThrottleSink.sendUnsent, hkept, h.1]
  | some element =>
      right
      refine ⟨element, rfl, ?_⟩
      simp [TimedThrottleSink.propagate, TimedThrottleSink.sendUnsent, sendNow, forwardOn, h.1,
        h.2, hkept]

/-- An element does not end the sink. -/
theorem Running.on {sink : TimedThrottleSink α} (h : sink.Running) (now sent : Nat)
    (element : α) : (sink.on interval now sent (.next element : Event E α)).1.Running := by
  rcases h.on_cases (E := E) interval now sent element with
    ⟨-, heq⟩ | ⟨-, timer, heq⟩
  · rw [heq]
    exact h
  · rw [heq]
    exact h

/-- The timer does not end the sink. -/
theorem Running.propagate {sink : TimedThrottleSink α} (h : sink.Running) (sent : Nat) :
    (sink.propagate sent : _ × List (Event E α)).1.Running := by
  rcases h.propagate_cases (E := E) sent with ⟨-, heq⟩ | ⟨element, -, heq⟩
  · rw [heq]
    exact h
  · rw [heq]
    exact h

/-! ## Without a clock -/

/-- The sink with its clock taken away. -/
def untimed (sink : TimedThrottleSink α) : ThrottleSink α :=
  ⟨sink.lastSentTime.isSome, sink.lastUnsentElement⟩

/-- An element arrives: the sink does what it would do if it were told whether anything is
left of the interval. -/
theorem Running.untimed_on {sink : TimedThrottleSink α} (h : sink.Running)
    (interval : TimeInterval) (now sent : Nat) (element : α) :
    (sink.untimed.on (decide (sink.reducedScheduledTime interval now = 0)) element).1 =
        (sink.on interval now sent (.next element : Event E α)).1.untimed ∧
      (sink.untimed.on (decide (sink.reducedScheduledTime interval now = 0)) element
        ).2.toList.map Event.next =
        (sink.on interval now sent (.next element : Event E α)).2 := by
  rcases h.on_cases (E := E) interval now sent element with
    ⟨hreduced, heq⟩ | ⟨hreduced, timer, heq⟩
  · simp [heq, hreduced, untimed, ThrottleSink.on]
  · have hbefore : sink.lastSentTime.isSome = true := by
      cases hlast : sink.lastSentTime with
      | none => simp [reducedScheduledTime, hlast] at hreduced
      | some last => rfl
    simp [heq, hreduced, untimed, ThrottleSink.on, hbefore]

/-- The timer fires. -/
theorem Running.untimed_propagate {sink : TimedThrottleSink α} (h : sink.Running) (sent : Nat) :
    sink.untimed.propagate.1 = (sink.propagate sent : _ × List (Event E α)).1.untimed ∧
      sink.untimed.propagate.2.toList.map Event.next =
        (sink.propagate sent : _ × List (Event E α)).2 := by
  rcases h.propagate_cases (E := E) sent with ⟨hkept, heq⟩ | ⟨element, hkept, heq⟩ <;>
    simp [heq, hkept, untimed, ThrottleSink.propagate]

end TimedThrottleSink

end Observers
