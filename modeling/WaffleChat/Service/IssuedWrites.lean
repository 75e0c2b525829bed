import WaffleChat.Service.Delivery

/-!
# The writes each upload has issued

How far an upload has come with its four writes depends on nothing but the
completion handlers of its own log writes: two callbacks for each of them, the
backend's decision and the handler.

Main results:

- Theorem `issuedBy_eq`: an upload has issued exactly the writes its handlers ask
  for, in the order of the code.
- Theorem `issuedBy_of_callbacksLeft`: an upload that has had all its callbacks has
  issued all four writes.
- Theorem `callbacksLeft_step`: each callback of an upload is one less to come, and
  nothing else changes their number.
-/

namespace WaffleChat

open CallbackProgram EventSystem

namespace Upload

/-- The four writes of an upload, in the order of the code. -/
def writes (u : Upload) : List WriteRequest :=
  [u.ownLog, u.peerLog, u.ownSummary, u.peerSummary]

/-- The writes an upload has issued once its handlers have received some answers. -/
theorem requests_eq (u : Upload) (answers : List WriteResult) :
    u.program.requests answers =
      match answers with
      | [] => [u.ownLog]
      | [_] => [u.ownLog, u.peerLog]
      | _ => u.writes := by
  rcases answers with _ | ⟨r₁, _ | ⟨r₂, _ | ⟨r₃, answers⟩⟩⟩
  · rfl
  · rfl
  · rfl
  · have hlast : u.program.requests (r₁ :: r₂ :: r₃ :: answers) =
        u.writes ++ (Program.done : Program _ _ _).requests answers := rfl
    simpa using hlast

end Upload

namespace Delivery

/-- The writes issued by upload `i`, in order. -/
def issuedBy (s : Delivery) (i : Nat) : List WriteRequest :=
  (s.issued.filter fun write => write.task = i).map ClientWrite.request

/-- The writes the handlers of an upload have asked for. -/
def requested (t : UploadTask) : List WriteRequest :=
  t.job.program.requests t.answers

/-- Issuing writes in the name of upload `j`, seen from upload `i`. -/
theorem issuedBy_append (issued : List ClientWrite) (client : Uid) (i j : Nat)
    (requests : List WriteRequest) :
    ((issued ++ requests.map (ClientWrite.mk client j)).filter
        fun write => write.task = i).map ClientWrite.request =
      (issued.filter fun write => write.task = i).map ClientWrite.request ++
        if j = i then requests else [] := by
  by_cases hji : j = i
  · simp [hji, List.filter_map, Function.comp_def]
  · simp [hji, List.filter_map, Function.comp_def]

/-- Every upload has issued the writes its handlers ask for; nothing is issued in the
name of an upload that has not started. -/
theorem issuedBy_eq {s : Delivery} (hreach : Reachable step initial s) (i : Nat) :
    s.issuedBy i = (s.tasks[i]?).elim [] requested := by
  refine hreach.invariant (P := fun s => ∀ i, s.issuedBy i = (s.tasks[i]?).elim [] requested)
    ?_ (fun _ => rfl) i
  have hset : ∀ {a : Delivery} {j : Nat} {t : UploadTask} (t' : UploadTask),
      a.tasks[j]? = some t → requested t' = requested t → ∀ i : Nat,
      ((a.tasks.set j t')[i]?).elim [] requested = (a.tasks[i]?).elim [] requested := by
    intro a j t t' hget hsame i
    by_cases hji : j = i
    · subst hji
      have hlt := (List.getElem?_eq_some_iff.1 hget).1
      rw [List.getElem?_set_self hlt, hget]
      exact hsame
    · rw [List.getElem?_set_ne hji]
  intro a e b hreach ha hab i
  rcases step_cases hab with ⟨u, -, rfl⟩ | ⟨j, result, t, request, -, hget, -, rfl⟩ |
    ⟨j, t, t', -, hget, ht', rfl⟩ | ⟨j, k, result, t, request, -, hget, -, rfl⟩ |
    ⟨j, t, -, hget, rfl⟩
  · refine (issuedBy_append a.issued u.currentUid i a.tasks.length _).trans ?_
    rw [show (a.issued.filter fun write => write.task = i).map ClientWrite.request = _ from ha i]
    rcases lt_trichotomy a.tasks.length i with hlt | heq | hgt
    · have hlast : (a.tasks ++ [Task.start Upload.program u])[i]? = none := by
        simpa using Nat.succ_le_of_lt hlt
      simp [hlast, hlt.ne, List.getElem?_eq_none hlt.le]
    · subst heq
      simp [Task.start, requested, Program.requests]
    · simp [List.getElem?_append_left hgt, hgt.ne']
  · exact (ha i).trans (hset (t.arrive result) hget rfl i).symm
  · rcases Task.handle_eq_some_iff.1 ht' with ⟨-, result, -, rfl⟩
    refine (issuedBy_append a.issued t.job.currentUid i j _).trans ?_
    rw [show (a.issued.filter fun write => write.task = i).map ClientWrite.request = _ from ha i]
    by_cases hji : j = i
    · subst hji
      have hlt := (List.getElem?_eq_some_iff.1 hget).1
      rw [List.getElem?_set_self hlt, hget]
      simp [requested, Program.requests_concat, Task.current]
    · simp [hji, List.getElem?_set_ne hji]
  · exact (ha i).trans (hset (t.flush k) hget rfl i).symm
  · exact (ha i).trans (hset t.stop hget rfl i).symm

/-! ## Callbacks still to come -/

/-- The callbacks an upload still waits for: the decision and the handler of each of
its two log writes. -/
def callbacksLeft (t : UploadTask) : Nat :=
  4 - (2 * t.answers.length + t.arrived.toList.length)

/-- An upload that has had all its callbacks has issued all four writes. -/
theorem issuedBy_of_callbacksLeft {s : Delivery} (hreach : Reachable step initial s) {i : Nat}
    {t : UploadTask} (ht : s.tasks[i]? = some t) (hleft : callbacksLeft t = 0) :
    s.issuedBy i = t.job.writes := by
  have hstage := reachable_tasks hreach t (List.mem_of_getElem? ht)
  have htwo : 2 ≤ t.answers.length := by
    cases harrived : t.arrived with
    | none => simp [callbacksLeft, harrived] at hleft; omega
    | some resp =>
        have hle := hstage.answers_le_of_arrived (by simp [harrived])
        simp [callbacksLeft, harrived] at hleft
        omega
  rw [issuedBy_eq hreach, ht, Option.elim_some, requested, Upload.requests_eq]
  rcases hanswers : t.answers with _ | ⟨_, _ | ⟨_, _⟩⟩
  · simp [hanswers] at htwo
  · simp [hanswers] at htwo
  · rfl

/-- An upload of a living process with callbacks left either has its log write undecided
or its handler due. -/
theorem callback_due {t : UploadTask} (hleft : 0 < callbacksLeft t)
    (halive : t.stopped = false) :
    (t.undecided Upload.program).isSome ∨ (t.handle Upload.program).isSome := by
  cases harrived : t.arrived with
  | some resp => exact Or.inr (by simp [Task.handle, halive, harrived])
  | none =>
      have hlt : t.answers.length < 2 := by
        simp [callbacksLeft, harrived] at hleft
        omega
      refine Or.inl ?_
      simp only [Task.undecided, harrived, Task.current, Upload.awaiting_after]
      rcases hanswers : t.answers with _ | ⟨_, _ | ⟨_, _⟩⟩
      · rfl
      · rfl
      · simp only [hanswers, List.length_cons] at hlt
        omega

/-- A decision is a callback. -/
theorem callbacksLeft_arrive {t : UploadTask} {request : WriteRequest}
    (hreq : t.undecided Upload.program = some request) (result : WriteResult) :
    callbacksLeft (t.arrive result) + 1 = callbacksLeft t := by
  have harrived := (Task.undecided_eq_some_iff.1 hreq).1
  have hlt : t.answers.length < 2 := by
    rcases undecided_cases hreq with ⟨hanswers, -⟩ | ⟨hanswers, -⟩
    · simp [hanswers]
    · omega
  simp only [callbacksLeft, Task.arrive, harrived, Option.toList_some, Option.toList_none,
    List.length_singleton, List.length_nil]
  omega

/-- Running a handler is a callback. -/
theorem callbacksLeft_handle {t t' : UploadTask} (hstage : AtStage t)
    (ht' : t.handle Upload.program = some t') : callbacksLeft t' + 1 = callbacksLeft t := by
  rcases Task.handle_eq_some_iff.1 ht' with ⟨-, result, harrived, rfl⟩
  have hle := hstage.answers_le_of_arrived (by simp [harrived])
  simp only [callbacksLeft, harrived, Option.toList_some, Option.toList_none, List.length_append,
    List.length_singleton, List.length_nil]
  omega

end Delivery

/-- The event is a callback of one of the log writes of upload `i`. -/
def DeliveryEvent.CallsBack (i : Nat) : DeliveryEvent → Prop
  | .decide j _ => j = i
  | .handle j => j = i
  | _ => False

instance (i : Nat) : DecidablePred (DeliveryEvent.CallsBack i)
  | .upload _ => inferInstanceAs (Decidable False)
  | .decide j _ => inferInstanceAs (Decidable (j = i))
  | .handle j => inferInstanceAs (Decidable (j = i))
  | .decideSummary _ _ _ => inferInstanceAs (Decidable False)
  | .stop _ => inferInstanceAs (Decidable False)

namespace Delivery

/-- When upload `j` moves on by `n` callbacks, every upload stays and only `j` has fewer to
come. -/
theorem callbacksLeft_set {tasks : List UploadTask} {i j : Nat} {a t : UploadTask}
    (hget : tasks[j]? = some a) (ht : tasks[i]? = some t) (a' : UploadTask)
    (hjob : a'.job = a.job) {n : Nat} (hleft : callbacksLeft a' + n = callbacksLeft a) :
    ∃ t', (tasks.set j a')[i]? = some t' ∧ t'.job = t.job ∧
      callbacksLeft t' + (if j = i then n else 0) = callbacksLeft t := by
  by_cases hji : j = i
  · subst hji
    obtain rfl : a = t := Option.some.inj (hget.symm.trans ht)
    have hlt := (List.getElem?_eq_some_iff.1 hget).1
    exact ⟨a', List.getElem?_set_self hlt, hjob, by rwa [if_pos rfl]⟩
  · exact ⟨t, (List.getElem?_set_ne hji).trans ht, rfl, by rw [if_neg hji, Nat.add_zero]⟩

/-- A started upload stays, and each callback of its own, and no other event, is one less
to come. -/
theorem callbacksLeft_step {s s' : Delivery} {e : DeliveryEvent}
    (hreach : Reachable step initial s) (hstep : step s e = some s') {i : Nat} {t : UploadTask}
    (ht : s.tasks[i]? = some t) :
    ∃ t', s'.tasks[i]? = some t' ∧ t'.job = t.job ∧
      callbacksLeft t' + (if e.CallsBack i then 1 else 0) = callbacksLeft t := by
  rcases step_cases hstep with ⟨u, rfl, rfl⟩ | ⟨j, result, a, request, rfl, hget, hreq, rfl⟩ |
    ⟨j, a, a', rfl, hget, ha', rfl⟩ | ⟨j, k, result, a, request, rfl, hget, -, rfl⟩ |
    ⟨j, a, rfl, hget, rfl⟩
  · have hlt : i < s.tasks.length := (List.getElem?_eq_some_iff.1 ht).1
    exact ⟨t, (List.getElem?_append_left hlt).trans ht, rfl, by simp [DeliveryEvent.CallsBack]⟩
  · exact callbacksLeft_set hget ht (a.arrive result) rfl (callbacksLeft_arrive hreq result)
  · have hstage := reachable_tasks hreach a (List.mem_of_getElem? hget)
    exact callbacksLeft_set hget ht a' (Task.job_handle ha') (callbacksLeft_handle hstage ha')
  · have hsame : callbacksLeft (a.flush k) + 0 = callbacksLeft a := rfl
    simpa [DeliveryEvent.CallsBack] using callbacksLeft_set hget ht (a.flush k) rfl hsame
  · have hsame : callbacksLeft a.stop + 0 = callbacksLeft a := rfl
    simpa [DeliveryEvent.CallsBack] using callbacksLeft_set hget ht a.stop rfl hsame

end Delivery

end WaffleChat
