import Mathlib.Data.List.Basic

/-!
# Observers of event streams

The sinks that stand between an observable sequence and its subscriber, as
state machines from events to forwarded events: the sink of a hand-written
observable, which is deaf after its first stop event; the sink that only listens
to the latest of several inner sequences; the sink that replaces an error by a last
element; the sink that subscribes again after an error once it is notified; and the
sink that lets one element pass at a time.

Main results:

- Theorem `feed_createSink`: a hand-written observable delivers exactly its
  events up to the first stop event.
- Theorem `SwitchSink.feed_inner_of_ne`: events of superseded inner sequences are
  dropped.
- Theorem `SwitchSink.feed_inner_of_not_isStop`: elements leave the sink as it is.
-/

namespace Observers

/-- An event of an observable sequence. -/
inductive Event (E α : Type) where
  | next (value : α)
  | error (e : E)
  | completed
deriving DecidableEq, Repr

variable {E α : Type}

/-- The element an event carries. -/
def Event.value? : Event E α → Option α
  | .next value => some value
  | .error _ => none
  | .completed => none

/-- Only `next` carries a value. -/
theorem Event.value_eq_some_iff {event : Event E α} {value : α} :
    event.value? = some value ↔ event = .next value := by
  cases event <;> simp [Event.value?]

/-- Errors and completion end a sequence. -/
def Event.isStop : Event E α → Bool
  | .next _ => false
  | .error _ => true
  | .completed => true

/-- Feed a list of inputs to a machine and collect what it forwards. -/
def feed {S ι ο : Type} (on : S → ι → S × List ο) : S → List ι → S × List ο
  | s, [] => (s, [])
  | s, i :: is =>
      let head := on s i
      let tail := feed on head.1 is
      (tail.1, head.2 ++ tail.2)

/-- No input leaves a sink as it is. -/
@[simp]
theorem feed_nil {S ι ο : Type} (on : S → ι → S × List ο) (s : S) :
    feed on s [] = (s, []) :=
  rfl

/-- Inputs are handled one after the other. -/
@[simp]
theorem feed_cons {S ι ο : Type} (on : S → ι → S × List ο) (s : S) (i : ι)
    (is : List ι) :
    feed on s (i :: is) =
      ((feed on (on s i).1 is).1, (on s i).2 ++ (feed on (on s i).1 is).2) :=
  rfl

/-! ## Hand-written observables -/

/-- The sink an observer of a hand-written observable is wrapped in. -/
structure CreateSink where
  isStopped : Bool
  disposed : Bool
deriving DecidableEq, Repr

namespace CreateSink

/-- The sink of a new subscription. -/
def fresh : CreateSink := ⟨false, false⟩

/-- Elements pass until the sink has stopped; the first stop event passes and
stops it. -/
def on (sink : CreateSink) (event : Event E α) : CreateSink × List (Event E α) :=
  if event.isStop then
    if sink.isStopped then (sink, [])
    else (⟨true, true⟩, if sink.disposed then [] else [event])
  else if sink.isStopped || sink.disposed then (sink, []) else (sink, [event])

end CreateSink

/-- The events of a list up to and including its first stop event. -/
def untilStop : List (Event E α) → List (Event E α)
  | [] => []
  | event :: events => if event.isStop then [event] else event :: untilStop events

/-- A stopped sink forwards nothing. -/
theorem feed_createSink_stopped (events : List (Event E α)) :
    (feed CreateSink.on ⟨true, true⟩ events).2 = [] := by
  induction events with
  | nil => rfl
  | cons event events ih => cases h : event.isStop <;> simp [CreateSink.on, h, ih]

/-- A hand-written observable delivers its events up to the first stop event. -/
theorem feed_createSink (events : List (Event E α)) :
    (feed CreateSink.on CreateSink.fresh events).2 = untilStop events := by
  induction events with
  | nil => rfl
  | cons event events ih =>
      cases h : event.isStop
      · simpa [CreateSink.on, CreateSink.fresh, untilStop, h] using ih
      · simp [CreateSink.on, CreateSink.fresh, untilStop, h, feed_createSink_stopped]

/-- A subscriber hears something exactly if there is something to hear. -/
theorem feed_createSink_eq_nil_iff {events : List (Event E α)} :
    (feed CreateSink.on CreateSink.fresh events).2 = [] ↔ events = [] := by
  rw [feed_createSink]
  cases events with
  | nil => simp [untilStop]
  | cons event events => by_cases hstop : event.isStop = true <;> simp [untilStop, hstop]

/-- What is forwarded has been received. -/
theorem mem_of_mem_untilStop {events : List (Event E α)} {event : Event E α}
    (h : event ∈ untilStop events) : event ∈ events := by
  induction events with
  | nil => exact h
  | cons head events ih =>
      rw [untilStop] at h
      split at h
      · exact List.mem_singleton.1 h ▸ List.mem_cons_self
      · rcases List.mem_cons.1 h with rfl | h
        · exact List.mem_cons_self
        · exact List.mem_cons_of_mem head (ih h)

/-- Elements are all delivered. -/
theorem feed_createSink_of_not_isStop {events : List (Event E α)}
    (h : ∀ event ∈ events, event.isStop = false) :
    (feed CreateSink.on CreateSink.fresh events).2 = events := by
  rw [feed_createSink]
  induction events with
  | nil => rfl
  | cons event events ih =>
      rw [untilStop, h event List.mem_cons_self]
      exact congrArg (event :: ·) (ih fun other hother => h other (List.mem_cons_of_mem _ hother))

/-! ## Only the latest inner sequence -/

/-- State of the sink that switches to the latest inner sequence; inner
sequences are numbered from one in the order they arrive. -/
structure SwitchSink where
  latest : Nat
  hasLatest : Bool
  stopped : Bool
  disposed : Bool
deriving DecidableEq, Repr

namespace SwitchSink

/-- The sink before its first inner sequence. -/
def fresh : SwitchSink := ⟨0, false, false, false⟩

/-- A new inner sequence arrives; its number is the new `latest`. -/
def next (sink : SwitchSink) : SwitchSink :=
  { sink with latest := sink.latest + 1, hasLatest := true }

/-- Forward unless the sink is disposed. -/
def forward (sink : SwitchSink) (event : Event E α) : List (Event E α) :=
  if sink.disposed then [] else [event]

/-- An event of the inner sequence with number `id`. -/
def inner (sink : SwitchSink) (id : Nat) (event : Event E α) :
    SwitchSink × List (Event E α) :=
  if sink.latest ≠ id then (sink, [])
  else
    match event with
    | .next _ => (sink, sink.forward event)
    | .error _ => ({ sink with disposed := true }, sink.forward event)
    | .completed =>
        if sink.stopped then
          ({ sink with hasLatest := false, disposed := true }, sink.forward event)
        else ({ sink with hasLatest := false }, [])

/-- Events of a superseded inner sequence are dropped. -/
theorem inner_of_ne {sink : SwitchSink} {id : Nat} (h : sink.latest ≠ id)
    (event : Event E α) : sink.inner id event = (sink, []) := by
  simp [inner, h]

/-- An inner sequence that is not the latest is not forwarded. -/
theorem feed_inner_of_ne {sink : SwitchSink} {id : Nat} (h : sink.latest ≠ id)
    (events : List (Event E α)) :
    feed (fun sink event => sink.inner id event) sink events = (sink, []) := by
  induction events with
  | nil => rfl
  | cons event events ih => simp [inner_of_ne h, ih]

/-- Nothing passes a disposed sink. -/
theorem inner_of_disposed {sink : SwitchSink} (h : sink.disposed = true) (id : Nat)
    (event : Event E α) :
    ∃ hasLatest, sink.inner id event = ({ sink with hasLatest := hasLatest }, []) := by
  rcases sink with ⟨latest, hasLatest, stopped, disposed⟩
  obtain rfl : disposed = true := h
  by_cases hid : latest = id
  · cases event with
    | next value => exact ⟨hasLatest, by simp [inner, hid, forward]⟩
    | error e => exact ⟨hasLatest, by simp [inner, hid, forward]⟩
    | completed => exact ⟨false, by cases stopped <;> simp [inner, hid, forward]⟩
  · exact ⟨hasLatest, inner_of_ne hid event⟩

/-- Events that are superseded or come too late only tell the sink that they have
ended. -/
theorem feed_inner_unheard {sink : SwitchSink} {id : Nat}
    (h : sink.latest ≠ id ∨ sink.disposed = true) (events : List (Event E α)) :
    ∃ hasLatest, feed (fun sink event => sink.inner id event) sink events =
      ({ sink with hasLatest := hasLatest }, []) := by
  rcases h with hne | hdisposed
  · exact ⟨sink.hasLatest, feed_inner_of_ne hne events⟩
  · induction events generalizing sink with
    | nil => exact ⟨sink.hasLatest, rfl⟩
    | cons event events ih =>
        rcases inner_of_disposed hdisposed id event with ⟨first, hfirst⟩
        have hrest : ({ sink with hasLatest := first } : SwitchSink).disposed = true := hdisposed
        rcases ih hrest with ⟨last, hlast⟩
        exact ⟨last, by rw [feed_cons, hfirst, hlast]; rfl⟩

/-- An element of the latest inner sequence passes a live sink. -/
theorem inner_next {sink : SwitchSink} {id : Nat} (hid : sink.latest = id)
    (hlive : sink.disposed = false) (value : α) :
    sink.inner id (.next value : Event E α) = (sink, [.next value]) := by
  simp [inner, hid, forward, hlive]

/-- An error of the latest inner sequence passes a live sink and ends it. -/
theorem inner_error {sink : SwitchSink} {id : Nat} (hid : sink.latest = id)
    (hlive : sink.disposed = false) (e : E) :
    sink.inner id (.error e : Event E α) =
      ({ sink with disposed := true }, [.error e]) := by
  simp [inner, hid, forward, hlive]

/-- Elements leave the sink as it is. -/
theorem feed_inner_of_not_isStop {sink : SwitchSink} {id : Nat} {events : List (Event E α)}
    (h : ∀ event ∈ events, event.isStop = false) :
    (feed (fun sink event => sink.inner id event) sink events).1 = sink := by
  induction events with
  | nil => rfl
  | cons event events ih =>
      have hhead : (sink.inner id event).1 = sink := by
        have hnext := h event List.mem_cons_self
        cases event with
        | next value => unfold inner; split <;> rfl
        | error e => cases hnext
        | completed => cases hnext
      rw [feed_cons, hhead]
      exact ih fun other hother => h other (List.mem_cons_of_mem event hother)

/-- Elements of the latest inner sequence all pass a live sink. -/
theorem feed_inner_of_latest {sink : SwitchSink} {id : Nat} (hid : sink.latest = id)
    (hlive : sink.disposed = false) {events : List (Event E α)}
    (h : ∀ event ∈ events, event.isStop = false) :
    feed (fun sink event => sink.inner id event) sink events = (sink, events) := by
  induction events with
  | nil => rfl
  | cons event events ih =>
      have hhead : sink.inner id event = (sink, [event]) := by
        have hnext := h event List.mem_cons_self
        cases event with
        | next value => exact inner_next hid hlive value
        | error e => cases hnext
        | completed => cases hnext
      have htail := ih fun other hother => h other (List.mem_cons_of_mem event hother)
      rw [feed_cons, hhead, htail]
      rfl

/-- What is forwarded is the event itself. -/
theorem mem_forward {sink : SwitchSink} {event forwarded : Event E α}
    (h : forwarded ∈ sink.forward event) : forwarded = event := by
  unfold forward at h
  split at h
  · simp at h
  · exact List.mem_singleton.1 h

/-- The sink forwards nothing of its own. -/
theorem mem_inner {sink : SwitchSink} {id : Nat} {event forwarded : Event E α}
    (h : forwarded ∈ (sink.inner id event).2) : forwarded = event := by
  unfold inner at h
  split at h
  · simp at h
  · cases event with
    | next value => exact mem_forward h
    | error e => exact mem_forward h
    | completed =>
        simp only at h
        split at h
        · exact mem_forward h
        · simp at h

/-- What comes through has been received from the inner sequence. -/
theorem mem_feed_inner {sink : SwitchSink} {id : Nat} {events : List (Event E α)}
    {forwarded : Event E α}
    (h : forwarded ∈ (feed (fun sink event => sink.inner id event) sink events).2) :
    forwarded ∈ events := by
  induction events generalizing sink with
  | nil => simp at h
  | cons event events ih =>
      simp only [feed_cons, List.mem_append] at h
      rcases h with h | h
      · exact mem_inner h ▸ List.mem_cons_self
      · exact List.mem_cons_of_mem event (ih h)

end SwitchSink

/-! ## Errors replaced by a last element -/

/-- The sink that answers an error with one element and completion. -/
structure CatchSink where
  disposed : Bool
deriving DecidableEq, Repr

namespace CatchSink

/-- The sink of a new subscription. -/
def fresh : CatchSink := ⟨false⟩

/-- Elements pass; an error is replaced by `value` followed by completion. -/
def on (value : α) (sink : CatchSink) (event : Event E α) :
    CatchSink × List (Event E α) :=
  if sink.disposed then (sink, [])
  else
    match event with
    | .next _ => (sink, [event])
    | .error _ => (⟨true⟩, [.next value, .completed])
    | .completed => (⟨true⟩, [.completed])

/-- An element passes. -/
theorem on_next {sink : CatchSink} (hlive : sink.disposed = false) (value last : α) :
    sink.on last (.next value : Event E α) = (sink, [.next value]) := by
  simp [on, hlive]

/-- An error is replaced by the last element. -/
theorem on_error {sink : CatchSink} (hlive : sink.disposed = false) (last : α) (e : E) :
    sink.on last (.error e) = (⟨true⟩, [.next last, .completed]) := by
  simp [on, hlive]

end CatchSink

/-! ## A new subscription after an error -/

/-- The sink that waits for a notification after an error and then subscribes again. -/
structure RetrySink where
  waiting : Bool
  disposed : Bool
deriving DecidableEq, Repr

namespace RetrySink

/-- The sink of a new subscription. -/
def fresh : RetrySink := ⟨false, false⟩

/-- Elements and completion pass; an error makes the sink wait. -/
def on (sink : RetrySink) (event : Event E α) : RetrySink × List (Event E α) :=
  if sink.disposed then (sink, [])
  else
    match event with
    | .next _ => (sink, [event])
    | .error _ => ({ sink with waiting := true }, [])
    | .completed => ({ sink with disposed := true }, [event])

/-- A notification; a waiting sink subscribes again. -/
def notify (sink : RetrySink) : RetrySink × Bool :=
  if sink.waiting && !sink.disposed then ({ sink with waiting := false }, true)
  else (sink, false)

end RetrySink

/-! ## One element at a time -/

/-- The sink that passes an element at once when enough time has gone by since the last
one, and otherwise keeps the latest until its timer fires. -/
structure ThrottleSink (α : Type) where
  sentBefore : Bool
  lastUnsentElement : Option α
deriving DecidableEq, Repr

namespace ThrottleSink

/-- The sink of a new subscription. -/
def fresh : ThrottleSink α := ⟨false, none⟩

/-- An element arrives; `elapsed` says whether the due time has gone by since the last
one was sent. -/
def on (elapsed : Bool) (sink : ThrottleSink α) (element : α) : ThrottleSink α × Option α :=
  if elapsed || !sink.sentBefore then (⟨true, none⟩, some element)
  else ({ sink with lastUnsentElement := some element }, none)

/-- The timer fires. -/
def propagate (sink : ThrottleSink α) : ThrottleSink α × Option α :=
  match sink.lastUnsentElement with
  | some element => (⟨true, none⟩, some element)
  | none => (sink, none)

end ThrottleSink

end Observers
