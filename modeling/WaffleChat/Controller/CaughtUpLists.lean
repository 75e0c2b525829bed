import WaffleChat.Controller.OpenConversations
import WaffleChat.Library.Executions
import WaffleChat.Library.Refinement
import WaffleChat.Service.UploadProgress

/-!
# Every conversation list catches up

The conversation list of a user in an execution without end.  The backend decides what is
outstanding sooner or later, lookups are answered sooner or later, and when nothing is
written any more the listener is handed what has been written last; how long any of this
takes is left open.

Main results:

- Theorem `workLeft_step`: what an event does to the uploads.
- Theorem `feed_of_caughtUp`: a list that has caught up only waits for its lookups.
- Theorem `eventually_lists`: the list comes to show all chats, and stays so.
-/

namespace WaffleChat

open CallbackProgram EventSystem

/-- The event of the store, if it is one. -/
def OpenConversationsEvent.delivery? : OpenConversationsEvent → Option DeliveryEvent
  | .delivery e => some e
  | _ => none

/-- The uploads an event starts. -/
def OpenConversationsEvent.started (e : OpenConversationsEvent) : List Upload :=
  e.delivery?.elim [] DeliveryEvent.started

/-- No write is rejected and no process stops. -/
def OpenConversationsEvent.Succeeds (e : OpenConversationsEvent) : Prop :=
  ∀ d ∈ e.delivery?, d.Succeeds

instance : DecidablePred OpenConversationsEvent.Succeeds := fun e =>
  inferInstanceAs (Decidable (∀ d ∈ e.delivery?, d.Succeeds))

/-- A snapshot rejects no write. -/
theorem OpenConversationsEvent.succeeds_snapshot (documents : List StoredDocument)
    (ambients : List Ambient) : (OpenConversationsEvent.snapshot documents ambients).Succeeds := by
  rintro d ⟨⟩

namespace OpenConversations

variable {Date : Type} [LinearOrder Date] {dateValue : Timestamp → Date} {uid : Uid}

/-- As long as an upload has something left to do one of them goes on, as long as lookups are
outstanding one is answered, and when nothing is written any more the listener catches up. -/
structure Fair {s : OpenConversations} (x : Execution (step dateValue uid) s) : Prop where
  goesOn : ∀ n, (∃ e, e.Continues ∧ ((x.state n).delivery.step e).isSome) →
    ∃ m, n ≤ m ∧ ∃ e, x.event m = .delivery e ∧ e.Continues
  answers : ∀ n, (x.state n).feed.lookups ≠ [] →
    ∃ m, n ≤ m ∧ ∃ k data, x.event m = .fetched k data
  settles : ∀ n, (∀ m, n ≤ m → (x.state m).delivery = (x.state n).delivery) →
    ∃ m, n ≤ m ∧ ∀ j, m ≤ j → (x.state j).CaughtUp uid

/-! ## One event -/

/-- A step of the list is a step of the store, or leaves it alone. -/
theorem run_delivery_step {s s' : OpenConversations} {e : OpenConversationsEvent}
    (hstep : step dateValue uid s e = some s') :
    run Delivery.step s.delivery e.delivery?.toList = some s'.delivery := by
  rcases step_cases dateValue uid hstep with ⟨d, delivery, rfl, hdelivery, rfl⟩ |
    ⟨documents, ambients, changes, feed, rfl, -, -, -, rfl⟩ | ⟨k, data, feed, rfl, -, -, rfl⟩
  · exact run_cons_eq_some.2 ⟨delivery, hdelivery, rfl⟩
  · rfl
  · rfl

/-- The store runs on its own events. -/
theorem run_delivery {s : OpenConversations} {es : List OpenConversationsEvent}
    (hrun : run (step dateValue uid) initial es = some s) :
    run Delivery.step .initial (es.filterMap OpenConversationsEvent.delivery?) =
      some s.delivery :=
  run_filterMap (f := OpenConversations.delivery) (I := fun _ => True) (fun _ _ _ _ _ => trivial)
    (fun _ _ _ _ hab => run_delivery_step hab) trivial hrun

/-- Uploads are those started so far and the one an event starts. -/
theorem uploads_step {s s' : OpenConversations} {e : OpenConversationsEvent}
    (hstep : step dateValue uid s e = some s') :
    s'.delivery.uploads = s.delivery.uploads ++ e.started := by
  rcases step_cases dateValue uid hstep with ⟨d, delivery, rfl, hdelivery, rfl⟩ |
    ⟨documents, ambients, changes, feed, rfl, -, -, -, rfl⟩ | ⟨k, data, feed, rfl, -, -, rfl⟩
  · exact Delivery.uploads_step hdelivery
  · exact (List.append_nil _).symm
  · exact (List.append_nil _).symm

/-- An event of the store leaves less to do, unless it starts an upload; any other leaves the
store alone. -/
theorem workLeft_step {s s' : OpenConversations} {e : OpenConversationsEvent}
    (hreach : Reachable Delivery.step .initial s.delivery) (hsucceeds : e.Succeeds)
    (hstep : step dateValue uid s e = some s') :
    (∃ d, e = .delivery d ∧ d.Continues ∧ s'.delivery.workLeft + 1 = s.delivery.workLeft) ∨
    (s.delivery.workLeft ≤ s'.delivery.workLeft ∧
      (e.started = [] → (∀ d, e ≠ .delivery d) ∧ s'.delivery = s.delivery)) := by
  rcases step_cases dateValue uid hstep with ⟨d, delivery, rfl, hdelivery, rfl⟩ |
    ⟨documents, ambients, changes, feed, rfl, -, -, -, rfl⟩ | ⟨k, data, feed, rfl, -, -, rfl⟩
  · by_cases hcontinues : d.Continues
    · exact Or.inl ⟨d, rfl, hcontinues, Delivery.workLeft_continues hreach hcontinues hdelivery⟩
    · cases d with
      | upload u =>
          obtain rfl := Option.some.inj hdelivery
          exact Or.inr ⟨by simp [Delivery.workLeft], fun hnone => by cases hnone⟩
      | stop i => exact (hsucceeds _ rfl).elim
      | _ => exact absurd trivial hcontinues
  · exact Or.inr ⟨le_rfl, fun _ => ⟨by simp, rfl⟩⟩
  · exact Or.inr ⟨le_rfl, fun _ => ⟨by simp, rfl⟩⟩

/-- Only an answer takes an outstanding lookup away. -/
theorem lookups_step {s s' : OpenConversations} {e : OpenConversationsEvent}
    (hother : ∀ k data, e ≠ .fetched k data) (hstep : step dateValue uid s e = some s') :
    s.feed.lookups.length ≤ s'.feed.lookups.length := by
  rcases step_cases dateValue uid hstep with ⟨d, delivery, -, -, rfl⟩ |
    ⟨documents, ambients, changes, feed, -, -, -, hfeed, rfl⟩ | ⟨k, data, feed, rfl, -, -, -⟩
  · exact le_rfl
  · obtain rfl : changes.foldl (ConversationFeed.onChange uid) s.feed = feed :=
      Option.some.inj hfeed
    simp [ConversationFeed.foldl_onChange]
  · exact absurd rfl (hother k data)

/-- The same snapshot again changes nothing. -/
theorem step_snapshot_again {s : OpenConversations} (h : s.Receives uid s.documents) :
    step dateValue uid s (.snapshot s.documents []) = some s := by
  simp only [step, h, documentChanges_of_perm (List.Perm.refl _) h.1, guard_true,
    Option.bind_eq_bind, List.length_nil]
  rfl

/-- Between two states that have caught up with the same store, at most a lookup is answered. -/
theorem feed_of_caughtUp {s s' : OpenConversations} {e : OpenConversationsEvent}
    (hsummaries : Summaries uid s'.documents) (hsame : s'.delivery = s.delivery)
    (hcaughtUp : s.CaughtUp uid) (hcaughtUp' : s'.CaughtUp uid)
    (hstep : step dateValue uid s e = some s') :
    ((∃ k data, e = .fetched k data) ∧
      s'.feed.lookups.length + 1 = s.feed.lookups.length) ∨
    ((∀ k data, e ≠ .fetched k data) ∧ s'.feed = s.feed) := by
  rcases step_cases dateValue uid hstep with ⟨d, delivery, rfl, hdelivery, rfl⟩ |
    ⟨documents, ambients, changes, feed, rfl, -, hchanges, hfeed, rfl⟩ |
    ⟨k, data, feed, rfl, -, hfeed, rfl⟩
  · exact Or.inr ⟨by simp, rfl⟩
  · have hperm : s.documents.Perm documents := by
      refine hcaughtUp.trans (List.Perm.symm ?_)
      exact hsame ▸ hcaughtUp'
    rw [documentChanges_of_perm hperm hsummaries.1] at hchanges
    obtain rfl := List.map_eq_nil_iff.1 hchanges
    exact Or.inr ⟨by simp, (Option.some.inj hfeed).symm⟩
  · rcases ConversationFeed.step_fetched dateValue uid hfeed with ⟨id, message, hget, rfl⟩
    have hlookups : ∀ feed : ConversationFeed,
        ((fetchUser data).foldl (ConversationFeed.onUser dateValue message)
          feed).lookups = feed.lookups := by
      intro feed
      unfold fetchUser
      cases data.bind User.init? <;> rfl
    have hlt := (List.getElem?_eq_some_iff.1 hget).1
    refine Or.inl ⟨⟨k, data, rfl⟩, ?_⟩
    rw [hlookups, List.length_eraseIdx_of_lt hlt]
    omega

/-! ## Executions -/

section

variable (x : Execution (step dateValue uid) initial)

include x

/-- The uploads are those the events have started. -/
theorem uploads_eq (n : ℕ) : (x.state n).delivery.uploads =
    ((List.range n).map x.event).flatMap OpenConversationsEvent.started := by
  induction n with
  | zero => rw [x.state_zero]; rfl
  | succ n ih => simp [List.range_succ, uploads_step (x.step_eq n), ih]

/-- While everything comes in its turn, the list follows the snapshots. -/
theorem follows (hturns : ∀ n, (x.state n).InTurn uid (x.event n)) (n : ℕ) :
    (x.state n).feed.Follows dateValue uid (x.state n).documents := by
  induction n with
  | zero =>
      rw [x.state_zero]
      exact ConversationFeed.follows_initial dateValue uid
  | succ n ih =>
      exact follows_step dateValue uid (reachable_delivery dateValue uid (x.reachable n)) ih
        (hturns n) (x.step_eq n)

variable (hsucceeds : ∀ n, (x.event n).Succeeds) {m : ℕ}
  (hlast : ∀ n, m ≤ n → (x.event n).started = [])

include hsucceeds hlast

/-- After the last message the uploads come to their end, and the store stays as it is. -/
theorem eventually_quiet (hfair : Fair x) : ∃ n, m ≤ n ∧ (x.state n).delivery.workLeft = 0 ∧
    ∀ j, n ≤ j → (x.state j).delivery = (x.state n).delivery := by
  have hstep := fun n =>
    workLeft_step (reachable_delivery dateValue uid (x.reachable n)) (hsucceeds n) (x.step_eq n)
  have hzero : ∃ n, m ≤ n ∧ (x.state n).delivery.workLeft = 0 := by
    refine x.eventually_zero (fun s => s.delivery.workLeft) ?_ ?_
    · intro n hn
      rcases hstep n with ⟨d, -, -, hless⟩ | ⟨-, hsame⟩
      · omega
      · rw [(hsame (hlast n hn)).2]
    · intro n hn hpos
      rcases hfair.goesOn n (Delivery.continues_of_workLeft hpos) with ⟨j, hnj, d, hevent, -⟩
      rcases hstep j with ⟨d, -, -, hless⟩ | ⟨-, hsame⟩
      · exact ⟨j, hnj, by omega⟩
      · exact absurd hevent ((hsame (hlast j (hn.trans hnj))).1 d)
  rcases hzero with ⟨n, hmn, hzero⟩
  refine ⟨n, hmn, hzero, fun j hj => ?_⟩
  induction j, hj using Nat.le_induction with
  | base => rfl
  | succ j hj ih =>
      rcases hstep j with ⟨d, -, -, hless⟩ | ⟨-, hsame⟩
      · rw [ih, hzero] at hless
        omega
      · exact (hsame (hlast j (hmn.trans hj))).2.trans ih

/-- Then the list catches up, all lookups are answered, and it stays as it is, too. -/
theorem eventually_idle (hturns : ∀ n, (x.state n).InTurn uid (x.event n)) (hfair : Fair x) :
    ∃ n, m ≤ n ∧ (x.state n).delivery.workLeft = 0 ∧ (x.state n).CaughtUp uid ∧
      (x.state n).feed.lookups = [] ∧ ∀ j, n ≤ j →
        (x.state j).delivery = (x.state n).delivery ∧ (x.state j).feed = (x.state n).feed := by
  rcases eventually_quiet x hsucceeds hlast hfair with ⟨n, hmn, hzero, hquiet⟩
  rcases hfair.settles n hquiet with ⟨k, hnk, hcaughtUp⟩
  have hdelivery : ∀ i j, n ≤ i → n ≤ j → (x.state j).delivery = (x.state i).delivery :=
    fun i j hi hj => (hquiet j hj).trans (hquiet i hi).symm
  have hstep := fun j (hj : k ≤ j) =>
    feed_of_caughtUp (follows x hturns (j + 1)).summaries
      (hdelivery j (j + 1) (hnk.trans hj) (by omega)) (hcaughtUp j hj)
      (hcaughtUp (j + 1) (by omega)) (x.step_eq j)
  have hidle : ∃ i, k ≤ i ∧ (x.state i).feed.lookups.length = 0 := by
    refine x.eventually_zero (fun s => s.feed.lookups.length) ?_ ?_
    · intro j hj
      rcases hstep j hj with ⟨-, hless⟩ | ⟨-, hsame⟩
      · omega
      · rw [hsame]
    · intro j hj hpos
      rcases hfair.answers j (List.ne_nil_of_length_pos hpos) with ⟨i, hji, l, data, hevent⟩
      rcases hstep i (hj.trans hji) with ⟨-, hless⟩ | ⟨hother, -⟩
      · exact ⟨i, hji, by omega⟩
      · exact absurd hevent (hother l data)
  rcases hidle with ⟨i, hki, hidle⟩
  have hni := hnk.trans hki
  refine ⟨i, hmn.trans hni, by rw [hquiet i hni, hzero], hcaughtUp i hki,
    List.length_eq_zero_iff.1 hidle, fun j hj => ⟨hdelivery i j hni (hni.trans hj), ?_⟩⟩
  induction j, hj using Nat.le_induction with
  | base => rfl
  | succ j hj ih =>
      rcases hstep j (hki.trans hj) with ⟨-, hless⟩ | ⟨-, hsame⟩
      · rw [ih, hidle] at hless
        omega
      · exact hsame.trans ih

/-- **Every conversation list catches up.**  In every execution in which all writes succeed,
everything comes in its turn, and the backend and the listener go on: once the last message
has been sent, the list comes to show one conversation with each user a message has been
exchanged with, and no other, latest first and each with the message last written to its
summary; and it shows them from then on. -/
theorem eventually_lists (hturns : ∀ n, (x.state n).InTurn uid (x.event n)) (hfair : Fair x) :
    ∃ n list, m ≤ n ∧ (∀ n', n ≤ n' → (x.state n').feed.shown = list) ∧
      (list.map fun c => c.user.uid).Nodup ∧ Listener.Descending dateValue list ∧
      (∀ p, (∃ c ∈ list, c.user.uid = p) ↔
        ∃ u ∈ ((List.range m).map x.event).flatMap OpenConversationsEvent.started,
          Delivery.Between uid p u) ∧
      ∀ c ∈ list, ∃ u : Upload, ((x.state n).delivery.summaries uid c.user.uid).getLast? =
          some u.message ∧
        ∃ ambient, c.recentMessage = Message.init ambient u.message := by
  rcases eventually_idle x hsucceeds hlast hturns hfair with
    ⟨n, hmn, hzero, hcaughtUp, hidle, hstays⟩
  have huploads : (x.state n).delivery.uploads =
      ((List.range m).map x.event).flatMap OpenConversationsEvent.started := by
    rw [← uploads_eq x m]
    clear hzero hcaughtUp hidle hstays
    induction n, hmn using Nat.le_induction with
    | base => rfl
    | succ j hj ih => rw [uploads_step (x.step_eq j), hlast j hj, List.append_nil, ih]
  have hrun := run_delivery (x.run_events n)
  have hes : ∀ d ∈ ((List.range n).map x.event).filterMap OpenConversationsEvent.delivery?,
      d.Succeeds := by
    intro d hd
    rcases List.mem_filterMap.1 hd with ⟨e, he, hd⟩
    rcases List.mem_map.1 he with ⟨i, -, rfl⟩
    exact hsucceeds i d hd
  have hfollows := follows x hturns n
  rcases hfollows.lists dateValue hidle with ⟨hlists, hdescending⟩
  rcases hcaughtUp.lists uid ⟨_, hrun⟩ hfollows.summaries hlists with ⟨hrecent, hcovered⟩
  have hquiet := Delivery.quiet_of_workLeft hes hrun hzero
  have hmessage : ∀ c ∈ (x.state n).feed.shown, ∃ u ∈ (x.state n).delivery.uploads,
      Delivery.Between uid c.user.uid u ∧
        ((x.state n).delivery.summaries uid c.user.uid).getLast? = some u.message ∧
        ∃ ambient, c.recentMessage = Message.init ambient u.message := by
    intro c hc
    rcases hrecent c hc with ⟨data, hdata, hinit⟩
    rcases Delivery.upload_of_last_summary hes hrun hdata with ⟨u, hu, hbetween, rfl⟩
    exact ⟨u, hu, hbetween, hdata, hinit⟩
  rw [← huploads]
  refine ⟨n, (x.state n).feed.shown, hmn, fun n' hn' => by rw [(hstays n' hn').2], hlists.nodup,
    hdescending, fun p => ⟨?_, ?_⟩, ?_⟩
  · rintro ⟨c, hc, rfl⟩
    rcases hmessage c hc with ⟨u, hu, hbetween, -⟩
    exact ⟨u, hu, hbetween⟩
  · rintro ⟨u, hu, hbetween⟩
    exact hcovered p (Delivery.summaries_ne_nil_of_quiet hes hrun hquiet hu hbetween)
  · intro c hc
    rcases hmessage c hc with ⟨u, -, -, hlastWritten, hinit⟩
    exact ⟨u, hlastWritten, hinit⟩

end

/-- A run in which all writes succeed and after which nothing is outstanding can be prolonged
fairly. -/
theorem fair_ofRun {es : List OpenConversationsEvent} {t : OpenConversations}
    {e : OpenConversationsEvent} (hsucceeds : ∀ e ∈ es, e.Succeeds) (he : e.Succeeds)
    (hrun : run (step dateValue uid) initial es = some t)
    (hloop : step dateValue uid t e = some t) (hdone : t.delivery.workLeft = 0)
    (hidle : t.feed.lookups = []) (hcaughtUp : t.CaughtUp uid) :
    Fair (Execution.ofRun hrun hloop) := by
  set x := Execution.ofRun hrun hloop with hx
  have hend : ∀ n, x.state (max n es.length) = t := fun n =>
    Execution.stateOf_of_length_le hrun (le_max_right _ _)
  constructor
  · rintro n ⟨d, hcontinues, hsome⟩
    rcases Option.isSome_iff_exists.1 hsome with ⟨delivery, hd⟩
    have hpos := Delivery.workLeft_continues
      (reachable_delivery dateValue uid (x.reachable n)) hcontinues hd
    rcases x.exists_decrease (fun s => s.delivery.workLeft) (le_max_left n es.length)
      (by rw [hend, hdone]; omega) with ⟨j, hj, hless⟩
    have hsucceed := Execution.meets_ofRun (C := fun _ e => e.Succeeds)
      (stepsMeet_of_forall_mem hsucceeds) he hrun hloop j
    rcases workLeft_step (reachable_delivery dateValue uid (x.reachable j)) hsucceed (x.step_eq j)
      with ⟨d, hevent, hcontinues, -⟩ | ⟨hmore, -⟩
    · exact ⟨j, hj, d, hevent, hcontinues⟩
    · omega
  · intro n hne
    have hpos : 0 < (x.state n).feed.lookups.length := List.length_pos_of_ne_nil hne
    rcases x.exists_decrease (fun s => s.feed.lookups.length) (le_max_left n es.length)
      (by rw [hend, hidle]; exact hpos) with ⟨j, hj, hless⟩
    by_contra hnone
    have hmore := lookups_step (fun k data hevent => hnone ⟨j, hj, k, data, hevent⟩) (x.step_eq j)
    omega
  · intro n _
    refine ⟨max n es.length, le_max_left _ _, fun j hj => ?_⟩
    have hlast : x.state j = t :=
      Execution.stateOf_of_length_le hrun ((le_max_right n es.length).trans hj)
    rwa [hlast]

/-- Bob's and Carol's summaries are written on both sides. -/
def bothWritten : List OpenConversationsEvent :=
  twoChats ++ [.delivery (.decideSummary 0 0 .committed), .delivery (.decideSummary 1 0 .committed)]

theorem run_bothWritten : run (step (fun t => t.seconds) "alice") initial bothWritten =
    some (final (step (fun t => t.seconds) "alice") initial bothWritten) :=
  run_final (by decide)

/-- When all is written, the same snapshot changes nothing. -/
theorem bothWritten_again :
    let t := final (step (fun t => t.seconds) "alice") initial bothWritten
    step (fun t => t.seconds) "alice" t (.snapshot t.documents []) = some t :=
  step_snapshot_again (by decide)

/-- The list comes to show Bob and Carol. -/
theorem eventually_lists_bothWritten :
    let x := Execution.ofRun run_bothWritten bothWritten_again
    ∃ n list, bothWritten.length ≤ n ∧ (∀ n', n ≤ n' → (x.state n').feed.shown = list) ∧
      ∀ p, (∃ c ∈ list, c.user.uid = p) ↔
        ∃ u ∈ [toBob, fromCarol], Delivery.Between "alice" p u := by
  intro x
  have hes : ∀ e ∈ bothWritten, e.Succeeds := by decide
  have hsucceeds : ∀ n, (x.event n).Succeeds :=
    Execution.meets_ofRun (C := fun _ e => e.Succeeds) (stepsMeet_of_forall_mem hes)
      (OpenConversationsEvent.succeeds_snapshot _ _) run_bothWritten bothWritten_again
  have hturns : ∀ n, (x.state n).InTurn "alice" (x.event n) :=
    Execution.meets_ofRun (C := fun s e => s.InTurn "alice" e) (by decide) (by decide)
      run_bothWritten bothWritten_again
  have hlast : ∀ n, bothWritten.length ≤ n → (x.event n).started = [] := by
    intro n hn
    have hevent : x.event n = .snapshot _ [] := List.getD_eq_default _ _ hn
    rw [hevent]
    rfl
  have hstarted : ((List.range bothWritten.length).map x.event).flatMap
      OpenConversationsEvent.started = [toBob, fromCarol] := rfl
  have hfair : Fair x :=
    fair_ofRun hes (OpenConversationsEvent.succeeds_snapshot _ _) run_bothWritten
      bothWritten_again (by decide) (by decide) (by decide)
  rcases eventually_lists x hsucceeds hlast hturns hfair with ⟨n, list, hn, hstays, -, -, hpeers, -⟩
  rw [hstarted] at hpeers
  exact ⟨n, list, hn, hstays, hpeers⟩

end OpenConversations

end WaffleChat
