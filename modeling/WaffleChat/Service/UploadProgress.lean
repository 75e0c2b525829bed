import WaffleChat.Library.Draining
import WaffleChat.Service.IssuedWrites

/-!
# Every upload comes to its end

Uploads that have started go on with nothing but decisions of the backend and handlers of
their own.  Whatever is decided, an upload takes at most six such events: the decision and
the handler of each log write, and the decision of each summary write.

Main results:

- Theorem `workLeft_continues`: such an event is one less to come.
- Theorem `continues_of_workLeft`: as long as one is to come, one is possible.
- Theorem `uploads_finish`: how long the uploads of a state go on, and how they end.
-/

namespace WaffleChat

open CallbackProgram EventSystem

/-- The event starts no upload and stops no process. -/
def DeliveryEvent.Continues : DeliveryEvent → Prop
  | .upload _ => False
  | .stop _ => False
  | _ => True

instance : DecidablePred DeliveryEvent.Continues
  | .upload _ => inferInstanceAs (Decidable False)
  | .decide _ _ => inferInstanceAs (Decidable True)
  | .handle _ => inferInstanceAs (Decidable True)
  | .decideSummary _ _ _ => inferInstanceAs (Decidable True)
  | .stop _ => inferInstanceAs (Decidable False)

namespace Delivery

/-- The events still to come before the summary writes are decided: a stopped process runs
no handler, and a living one issues two summary writes at the end. -/
def logWorkLeft (t : UploadTask) : Nat :=
  if t.stopped then (t.undecided Upload.program).toList.length
  else callbacksLeft t + if t.answers.length < 2 then 2 else 0

/-- The events of an upload still to come. -/
def taskWorkLeft (t : UploadTask) : Nat :=
  t.outbox.length + logWorkLeft t

/-- The events still to come. -/
def workLeft (s : Delivery) : Nat :=
  (s.tasks.map taskWorkLeft).sum

/-! ## One upload -/

/-- No more than the two summary writes are outstanding. -/
theorem AtStage.outbox_length_le {t : UploadTask} (h : AtStage t) : t.outbox.length ≤ 2 := by
  refine h.outbox_sublist.length_le.trans ?_
  rw [Task.current, Upload.performed_after]
  split <;> simp

/-- One request at a time is awaited. -/
theorem undecided_toList_length_le (t : UploadTask) :
    (t.undecided Upload.program).toList.length ≤ 1 := by
  cases t.undecided Upload.program <;> simp

/-- An upload is over after six events. -/
theorem AtStage.taskWorkLeft_le {t : UploadTask} (h : AtStage t) : taskWorkLeft t ≤ 6 := by
  have hone := undecided_toList_length_le t
  have htwo := h.outbox_length_le
  have hleft : callbacksLeft t ≤ 4 := Nat.sub_le _ _
  unfold taskWorkLeft logWorkLeft
  by_cases hlt : t.answers.length < 2
  · rw [h.outbox_eq_nil (by omega), List.length_nil, if_pos hlt]
    split <;> omega
  · rw [if_neg hlt]
    split <;> omega

/-- An answer is one event less. -/
theorem taskWorkLeft_arrive {t : UploadTask} {request : WriteRequest}
    (hreq : t.undecided Upload.program = some request) (result : WriteResult) :
    taskWorkLeft (t.arrive result) + 1 = taskWorkLeft t := by
  have hcallback := callbacksLeft_arrive hreq result
  have hdecided : (t.arrive result).undecided Upload.program = none := rfl
  have hsame : (t.arrive result).outbox = t.outbox ∧ (t.arrive result).answers = t.answers ∧
      (t.arrive result).stopped = t.stopped := ⟨rfl, rfl, rfl⟩
  simp only [taskWorkLeft, logWorkLeft, hsame, hdecided, hreq, Option.toList_none,
    Option.toList_some, List.length_nil, List.length_singleton]
  split <;> omega

/-- A handler is one event less. -/
theorem AtStage.taskWorkLeft_handle {t t' : UploadTask} (h : AtStage t)
    (ht' : t.handle Upload.program = some t') : taskWorkLeft t' + 1 = taskWorkLeft t := by
  have hcallback := callbacksLeft_handle h ht'
  rcases Task.handle_eq_some_iff.1 ht' with ⟨halive, result, harrived, rfl⟩
  have hle := h.answers_le_of_arrived (by simp [harrived])
  have hnil := h.outbox_eq_nil (by omega)
  have hperformed : ((t.job.program.after (t.answers ++ [result])).performed).length =
      if t.answers.length = 1 then 2 else 0 := by
    rw [Upload.performed_after]
    rcases hanswers : t.answers with _ | ⟨_, _ | ⟨_, _⟩⟩
    · rfl
    · rfl
    · simp [hanswers] at hle
  simp only [taskWorkLeft, logWorkLeft, halive, hnil, List.nil_append, List.length_nil,
    List.length_append, List.length_singleton, hperformed, Bool.false_eq_true, if_false]
    at hcallback ⊢
  split_ifs <;> omega

/-- A summary decided is one event less. -/
theorem taskWorkLeft_flush {t : UploadTask} {k : Nat} {request : WriteRequest}
    (hget : t.outbox[k]? = some request) : taskWorkLeft (t.flush k) + 1 = taskWorkLeft t := by
  have hlt := (List.getElem?_eq_some_iff.1 hget).1
  have hlength : (t.flush k).outbox.length + 1 = t.outbox.length := by
    rw [Task.flush, List.length_eraseIdx_of_lt hlt]
    omega
  have hsame : logWorkLeft (t.flush k) = logWorkLeft t := rfl
  unfold taskWorkLeft
  omega

/-- With nothing left to do an upload is quiet and has reported. -/
theorem AtStage.quiet_of_taskWorkLeft {t : UploadTask} (h : AtStage t)
    (halive : t.stopped = false) (hleft : taskWorkLeft t = 0) :
    t.Quiet Upload.program ∧ t.outputs Upload.program = [.next true] := by
  simp only [taskWorkLeft, logWorkLeft, halive, Bool.false_eq_true, if_false,
    Nat.add_eq_zero_iff, List.length_eq_zero_iff] at hleft
  rcases hleft with ⟨hnil, hcallbacks, hanswers⟩
  have htwo : 2 ≤ t.answers.length := by
    by_contra hlt
    simp [Nat.lt_of_not_le hlt] at hanswers
  have hnone : t.arrived = none := by
    cases harrived : t.arrived with
    | none => rfl
    | some result =>
        have hle := h.answers_le_of_arrived (by simp [harrived])
        omega
  refine ⟨⟨hnone, ?_, hnil⟩, ?_⟩
  · rw [Task.current, Upload.awaiting_after]
    rcases heq : t.answers with _ | ⟨_, _ | ⟨_, _⟩⟩
    · simp [heq] at htwo
    · simp [heq] at htwo
    · rfl
  · rw [Task.outputs, Upload.outputs_eq, if_pos htwo]

/-! ## All uploads -/

/-- Each event that continues an upload is one less to come. -/
theorem workLeft_continues {s s' : Delivery} {e : DeliveryEvent}
    (hreach : Reachable step initial s) (he : e.Continues) (hstep : step s e = some s') :
    workLeft s' + 1 = workLeft s := by
  have hset : ∀ {i : Nat} {t t' : UploadTask}, s.tasks[i]? = some t →
      taskWorkLeft t' + 1 = taskWorkLeft t →
      ((s.tasks.set i t').map taskWorkLeft).sum + 1 = workLeft s := by
    intro i t t' hget hless
    have hsum := sum_map_set taskWorkLeft hget t'
    unfold workLeft
    omega
  rcases step_cases hstep with ⟨u, rfl, rfl⟩ | ⟨i, result, t, request, rfl, hget, hreq, rfl⟩ |
    ⟨i, t, t', rfl, hget, ht', rfl⟩ | ⟨i, k, result, t, request, rfl, hget, hrequest, rfl⟩ |
    ⟨i, t, rfl, hget, rfl⟩
  · exact he.elim
  · exact hset hget (taskWorkLeft_arrive hreq result)
  · have hstage := reachable_tasks hreach t (List.mem_of_getElem? hget)
    exact hset hget (hstage.taskWorkLeft_handle ht')
  · exact hset hget (taskWorkLeft_flush hrequest)
  · exact he.elim

/-- As long as an upload has an event to come, one of its events is possible. -/
theorem continues_of_taskWorkLeft {s : Delivery} {i : Nat} {t : UploadTask}
    (hget : s.tasks[i]? = some t) (hleft : 0 < taskWorkLeft t) :
    ∃ e, e.Continues ∧ (step s e).isSome := by
  cases houtbox : t.outbox with
  | cons request outbox =>
      have hrequest : t.outbox[0]? = some request := by simp [houtbox]
      exact ⟨.decideSummary i 0 .committed, trivial, by simp [step, hget, hrequest]⟩
  | nil =>
      have hundecided : ∀ request, t.undecided Upload.program = some request →
          ∃ e, e.Continues ∧ (step s e).isSome := fun request hreq =>
        ⟨.decide i .committed, trivial, by simp [step, hget, hreq]⟩
      cases hstopped : t.stopped with
      | true =>
          cases hreq : t.undecided Upload.program with
          | some request => exact hundecided request hreq
          | none => simp [taskWorkLeft, logWorkLeft, houtbox, hstopped, hreq] at hleft
      | false =>
          have hcallbacks : 0 < callbacksLeft t := by
            have hone : t.arrived.toList.length ≤ 1 := by cases t.arrived <;> simp
            simp only [taskWorkLeft, logWorkLeft, houtbox, hstopped, callbacksLeft,
              Bool.false_eq_true, if_false, List.length_nil] at hleft ⊢
            split at hleft <;> omega
          rcases callback_due hcallbacks hstopped with hdue | hdue
          · rcases Option.isSome_iff_exists.1 hdue with ⟨request, hreq⟩
            exact hundecided request hreq
          · rcases Option.isSome_iff_exists.1 hdue with ⟨t', ht'⟩
            exact ⟨.handle i, trivial, by simp [step, hget, ht']⟩

/-- As long as there is something left to do, one of the events that do it is possible. -/
theorem continues_of_workLeft {s : Delivery} (hleft : 0 < workLeft s) :
    ∃ e, e.Continues ∧ (step s e).isSome := by
  have htask : ∃ t ∈ s.tasks, 0 < taskWorkLeft t := by
    by_contra hnone
    refine hleft.ne' (List.sum_eq_zero fun left hmem => ?_)
    rcases List.mem_map.1 hmem with ⟨t, ht, rfl⟩
    exact Nat.eq_zero_of_not_pos fun hless => hnone ⟨t, ht, hless⟩
  rcases htask with ⟨t, ht, hless⟩
  rcases List.getElem?_of_mem ht with ⟨i, hget⟩
  exact continues_of_taskWorkLeft hget hless

/-- When all writes succeed, uploads that have nothing left to do are quiet. -/
theorem quiet_of_workLeft {es : List DeliveryEvent} {s : Delivery} (hes : ∀ e ∈ es, e.Succeeds)
    (hrun : run step initial es = some s) (hzero : workLeft s = 0) : s.Quiet := by
  intro t ht
  have hstage := reachable_tasks ⟨es, hrun⟩ t ht
  have hleft := List.sum_eq_zero_iff.1 hzero _ (List.mem_map_of_mem ht)
  exact (hstage.quiet_of_taskWorkLeft (unharmed_of_succeeds hes hrun t ht).1 hleft).1

/-- **Every upload comes to its end.**  From any reachable state, whatever the backend
decides and in whatever order, no more than six events per upload continue what has been
started, and once none is possible every upload whose process lives is done and has reported
exactly once. -/
theorem uploads_finish {s t : Delivery} {es : List DeliveryEvent}
    (hreach : Reachable step initial s) (hes : ∀ e ∈ es, e.Continues)
    (hrun : run step s es = some t) :
    es.length ≤ 6 * s.tasks.length ∧
      ((∀ e, e.Continues → step t e = none) →
        ∀ task ∈ t.tasks, task.stopped = false →
          task.Quiet Upload.program ∧ task.outputs Upload.program = [.next true]) := by
  constructor
  · have hlength := length_add_work_le workLeft (I := Reachable step initial)
      (fun a e b ha hab => ha.next hab)
      (fun a e b ha he hab => by have := workLeft_continues ha he hab; omega) hreach hes hrun
    have hle : workLeft s ≤ 6 * s.tasks.length :=
      sum_map_le_mul_length taskWorkLeft fun task htask =>
        (reachable_tasks hreach task htask).taskWorkLeft_le
    omega
  · intro hstuck task htask halive
    have hstage := reachable_tasks (hreach.trans ⟨es, hrun⟩) task htask
    refine hstage.quiet_of_taskWorkLeft halive (Nat.eq_zero_of_not_pos ?_)
    intro hleft
    rcases List.getElem?_of_mem htask with ⟨i, hget⟩
    rcases continues_of_taskWorkLeft hget hleft with ⟨e, he, hstep⟩
    simp [hstuck e he] at hstep

/-- A message is on its way to Bob. -/
def sent : Delivery :=
  final step initial [.upload (.sample "alice" "bob" "hi" 1)]

/-- The backend rejects the sender's copy and the receiver's summary. -/
def halfRejected : List DeliveryEvent :=
  [.decide 0 .rejected, .handle 0, .decide 0 .committed, .handle 0,
   .decideSummary 0 1 .rejected, .decideSummary 0 0 .committed]

theorem uploads_finish_halfRejected :
    halfRejected.length ≤ 6 * sent.tasks.length ∧
      ((∀ e, e.Continues → step (final step sent halfRejected) e = none) →
        ∀ task ∈ (final step sent halfRejected).tasks, task.stopped = false →
          task.Quiet Upload.program ∧ task.outputs Upload.program = [.next true]) :=
  uploads_finish (reachable_final rfl) (by decide) (run_final (by decide))

end Delivery

end WaffleChat
