import Mathlib.Data.Finset.Basic
import WaffleChat.Library.EventSystem
import WaffleChat.Library.Gather
import WaffleChat.Service.UploadMessage

/-!
# Concurrent uploads against one store

Any number of `uploadMessage` calls by any number of clients, as an event system
over the shared document store.  The backend decides the outstanding writes in
any order and with any result; completion handlers run in any order after the
write they belong to has been decided; a process may stop at any point, after
which its handlers no longer run.

The state also keeps the order in which writes were issued and applied, so that
assumptions on the order of application can be stated.

Main results:

- Theorem `step_cases`: everything one event can do.
- Theorem `reachable_tasks`: every upload is at one of the stages of its program.
- Theorem `allocated_perm`: the documents allocated in a log are exactly those of
  the committed log writes.
- Theorem `documents_logPath`: a log holds no other documents.
-/

namespace WaffleChat

open CallbackProgram EventSystem Gather

/-- A started upload. -/
abbrev UploadTask := Task Upload WriteRequest WriteResult

/-- A write, with the client and the upload it belongs to. -/
structure ClientWrite where
  client : Uid
  task : Nat
  request : WriteRequest
deriving DecidableEq, Repr

/-- The shared store and all uploads started so far. -/
structure Delivery where
  store : Firestore
  tasks : List UploadTask
  issued : List ClientWrite
  applied : List ClientWrite

/-- What can happen next. -/
inductive DeliveryEvent where
  /-- `uploadMessage` is called and its observable subscribed. -/
  | upload (u : Upload)
  /-- The backend decides the log write upload `i` waits for. -/
  | decide (i : Nat) (result : WriteResult)
  /-- The completion handler of the decided log write of upload `i` runs. -/
  | handle (i : Nat)
  /-- The backend decides the outstanding summary write at position `k`. -/
  | decideSummary (i k : Nat) (result : WriteResult)
  /-- The process of upload `i` stops. -/
  | stop (i : Nat)
deriving DecidableEq, Repr

namespace DeliveryEvent

/-- The event does not reject a write and stops no process. -/
def Succeeds : DeliveryEvent → Prop
  | .decide _ result => result = .committed
  | .decideSummary _ _ result => result = .committed
  | .stop _ => False
  | _ => True

instance : DecidablePred Succeeds
  | .upload _ => inferInstanceAs (Decidable True)
  | .decide _ result => inferInstanceAs (Decidable (result = .committed))
  | .handle _ => inferInstanceAs (Decidable True)
  | .decideSummary _ _ result => inferInstanceAs (Decidable (result = .committed))
  | .stop _ => inferInstanceAs (Decidable False)

/-- Uploads go from one of the `users` to another. -/
def Among (users : Finset Uid) : DeliveryEvent → Prop
  | .upload u => u.currentUid ∈ users ∧ u.peer ∈ users ∧ u.currentUid ≠ u.peer
  | _ => True

instance (users : Finset Uid) : DecidablePred (Among users)
  | .upload u =>
      inferInstanceAs (Decidable (u.currentUid ∈ users ∧ u.peer ∈ users ∧
        u.currentUid ≠ u.peer))
  | .decide _ _ => inferInstanceAs (Decidable True)
  | .handle _ => inferInstanceAs (Decidable True)
  | .decideSummary _ _ _ => inferInstanceAs (Decidable True)
  | .stop _ => inferInstanceAs (Decidable True)

end DeliveryEvent

namespace Delivery

/-- An empty store and no uploads. -/
def initial : Delivery where
  store := .empty
  tasks := []
  issued := []
  applied := []

/-- The entry a decided write adds to the applied ones. -/
def appliedEntry (write : ClientWrite) : WriteResult → List ClientWrite
  | .committed => [write]
  | .rejected => []

/-- One event. -/
def step (s : Delivery) : DeliveryEvent → Option Delivery
  | .upload u =>
      some
        { s with
          tasks := s.tasks ++ [Task.start Upload.program u]
          issued := s.issued ++
            u.program.issues.map (ClientWrite.mk u.currentUid s.tasks.length) }
  | .decide i result => do
      let t ← s.tasks[i]?
      let request ← t.undecided Upload.program
      return {
        store := s.store.resolve (.auto i t.answers.length) request result
        tasks := s.tasks.set i (t.arrive result)
        issued := s.issued
        applied := s.applied ++ appliedEntry ⟨t.job.currentUid, i, request⟩ result }
  | .handle i => do
      let t ← s.tasks[i]?
      let t' ← t.handle Upload.program
      return {
        store := s.store
        tasks := s.tasks.set i t'
        issued := s.issued ++
          (t'.current Upload.program).issues.map (ClientWrite.mk t.job.currentUid i)
        applied := s.applied }
  | .decideSummary i k result => do
      let t ← s.tasks[i]?
      let request ← t.outbox[k]?
      return {
        store := s.store.resolve (.auto i (t.answers.length + k)) request result
        tasks := s.tasks.set i (t.flush k)
        issued := s.issued
        applied := s.applied ++ appliedEntry ⟨t.job.currentUid, i, request⟩ result }
  | .stop i => do
      let t ← s.tasks[i]?
      return { s with tasks := s.tasks.set i t.stop }

/-- No upload is in flight. -/
def Quiet (s : Delivery) : Prop :=
  ∀ t ∈ s.tasks, t.Quiet Upload.program

instance : DecidablePred Quiet := fun s =>
  inferInstanceAs (Decidable (∀ t ∈ s.tasks, t.Quiet Upload.program))

/-- Everything one event can do. -/
theorem step_cases {s s' : Delivery} {e : DeliveryEvent} (h : step s e = some s') :
    (∃ u, e = .upload u ∧ s' =
      { s with
        tasks := s.tasks ++ [Task.start Upload.program u]
        issued := s.issued ++
          u.program.issues.map (ClientWrite.mk u.currentUid s.tasks.length) }) ∨
    (∃ i result t request, e = .decide i result ∧ s.tasks[i]? = some t ∧
      t.undecided Upload.program = some request ∧ s' =
      { store := s.store.resolve (.auto i t.answers.length) request result
        tasks := s.tasks.set i (t.arrive result)
        issued := s.issued
        applied := s.applied ++ appliedEntry ⟨t.job.currentUid, i, request⟩ result }) ∨
    (∃ i t t', e = .handle i ∧ s.tasks[i]? = some t ∧
      t.handle Upload.program = some t' ∧ s' =
      { store := s.store
        tasks := s.tasks.set i t'
        issued := s.issued ++
          (t'.current Upload.program).issues.map (ClientWrite.mk t.job.currentUid i)
        applied := s.applied }) ∨
    (∃ i k result t request, e = .decideSummary i k result ∧ s.tasks[i]? = some t ∧
      t.outbox[k]? = some request ∧ s' =
      { store := s.store.resolve (.auto i (t.answers.length + k)) request result
        tasks := s.tasks.set i (t.flush k)
        issued := s.issued
        applied := s.applied ++ appliedEntry ⟨t.job.currentUid, i, request⟩ result }) ∨
    (∃ i t, e = .stop i ∧ s.tasks[i]? = some t ∧
      s' = { s with tasks := s.tasks.set i t.stop }) := by
  cases e with
  | upload u =>
      left
      exact ⟨u, rfl, (Option.some.inj h).symm⟩
  | decide i result =>
      right; left
      simp only [step, Option.bind_eq_bind, Option.bind_eq_some_iff, Option.pure_def,
        Option.some.injEq] at h
      rcases h with ⟨t, ht, request, hreq, rfl⟩
      exact ⟨i, result, t, request, rfl, ht, hreq, rfl⟩
  | handle i =>
      right; right; left
      simp only [step, Option.bind_eq_bind, Option.bind_eq_some_iff, Option.pure_def,
        Option.some.injEq] at h
      rcases h with ⟨t, ht, t', ht', rfl⟩
      exact ⟨i, t, t', rfl, ht, ht', rfl⟩
  | decideSummary i k result =>
      right; right; right; left
      simp only [step, Option.bind_eq_bind, Option.bind_eq_some_iff, Option.pure_def,
        Option.some.injEq] at h
      rcases h with ⟨t, ht, request, hreq, rfl⟩
      exact ⟨i, k, result, t, request, rfl, ht, hreq, rfl⟩
  | stop i =>
      right; right; right; right
      simp only [step, bind_pure_eq_some] at h
      rcases h with ⟨t, ht, rfl⟩
      exact ⟨i, t, rfl, ht, rfl⟩

/-! ## The stage of every upload -/

/-- A property of single uploads is kept by an event when the local step the event
makes keeps it. -/
theorem forall_tasks_step {P : UploadTask → Prop} {s s' : Delivery} {e : DeliveryEvent}
    (hstep : step s e = some s') (hs : ∀ t ∈ s.tasks, P t)
    (hstart : ∀ u, e = .upload u → P (Task.start Upload.program u))
    (harrive : ∀ i result t request, e = .decide i result → P t →
      t.undecided Upload.program = some request → P (t.arrive result))
    (hhandle : ∀ t t', P t → t.handle Upload.program = some t' → P t')
    (hflush : ∀ t k, P t → P (t.flush k))
    (hstop : ∀ i t, e = .stop i → P t → P t.stop) :
    ∀ t ∈ s'.tasks, P t := by
  have hset : ∀ {i t t'}, s.tasks[i]? = some t → (P t → P t') →
      ∀ x ∈ s.tasks.set i t', P x := by
    intro i t t' hget hkeep x hx
    rcases List.mem_or_eq_of_mem_set hx with hx | rfl
    · exact hs x hx
    · exact hkeep (hs t (List.mem_of_getElem? hget))
  rcases step_cases hstep with ⟨u, he, rfl⟩ | ⟨i, result, t, request, he, hget, hreq, rfl⟩ |
    ⟨i, t, t', -, hget, ht', rfl⟩ | ⟨i, k, result, t, request, -, hget, -, rfl⟩ |
    ⟨i, t, he, hget, rfl⟩
  · intro t ht
    rcases List.mem_append.1 ht with ht | ht
    · exact hs t ht
    · rw [List.mem_singleton.1 ht]
      exact hstart u he
  · exact hset hget fun ht => harrive i result t request he ht hreq
  · exact hset hget fun ht => hhandle t t' ht ht'
  · exact hset hget fun ht => hflush t k ht
  · exact hset hget fun ht => hstop i t he ht

/-- Where an upload can stand: at most two answers have been handled, an
undelivered one belongs to a log write, and the outstanding summary writes are
among those the upload has issued. -/
structure AtStage (t : UploadTask) : Prop where
  sound : t.Sound Upload.program
  answers_le : t.answers.length ≤ 2
  outbox_sublist : t.outbox.Sublist (t.current Upload.program).performed

/-- With an answer on its way there has been one at most. -/
theorem AtStage.answers_le_of_arrived {t : UploadTask} (h : AtStage t)
    (harrived : t.arrived.isSome) : t.answers.length ≤ 1 := by
  have hawaiting := h.sound harrived
  rw [Task.current, Upload.awaiting_after] at hawaiting
  rcases hanswers : t.answers with _ | ⟨_, _ | ⟨_, _⟩⟩ <;> simp [hanswers] at hawaiting ⊢

/-- Summaries are only written behind two answers. -/
theorem AtStage.outbox_eq_nil {t : UploadTask} (h : AtStage t)
    (hanswers : t.answers.length ≠ 2) : t.outbox = [] := by
  have hsub := h.outbox_sublist
  rw [Task.current, Upload.performed_after] at hsub
  rcases heq : t.answers with _ | ⟨_, _ | ⟨_, _ | ⟨_, _⟩⟩⟩
  all_goals simp [heq] at hsub hanswers
  all_goals exact hsub

/-- A handler brings an upload to its next stage. -/
theorem atStage_handle {t t' : UploadTask} (h : AtStage t)
    (ht' : t.handle Upload.program = some t') : AtStage t' := by
  have hsound := Task.sound_handle ht'
  rcases Task.handle_eq_some_iff.1 ht' with ⟨-, result, harrived, rfl⟩
  have hle : t.answers.length ≤ 1 := h.answers_le_of_arrived (by simp [harrived])
  have hnil : t.outbox = [] := h.outbox_eq_nil (by omega)
  refine ⟨hsound, ?_, ?_⟩
  · simpa using hle
  · simp [Task.current, hnil]

/-- Every upload of a reachable state is at one of its stages. -/
theorem reachable_tasks {s : Delivery} (hreach : Reachable step initial s) :
    ∀ t ∈ s.tasks, AtStage t := by
  refine hreach.invariant (P := fun s => ∀ t ∈ s.tasks, AtStage t) ?_ (by simp [initial])
  intro a e b _ ha hab
  refine forall_tasks_step hab ha ?_ ?_ ?_ ?_ ?_
  · intro u _
    exact ⟨Task.sound_start u, by simp [Task.start], List.Sublist.refl _⟩
  · intro i result t request _ ht hreq
    exact ⟨Task.sound_arrive hreq, ht.answers_le, ht.outbox_sublist⟩
  · intro t t' ht ht'
    exact atStage_handle ht ht'
  · intro t k ht
    exact ⟨ht.sound, ht.answers_le, (List.eraseIdx_sublist _ _).trans ht.outbox_sublist⟩
  · intro i t _ ht
    exact ⟨ht.sound, ht.answers_le, ht.outbox_sublist⟩

/-- The awaited write is the own copy first and the peer's copy after that. -/
theorem undecided_cases {t : UploadTask} {request : WriteRequest}
    (hreq : t.undecided Upload.program = some request) :
    (t.answers = [] ∧ request = t.job.ownLog) ∨
      (t.answers.length = 1 ∧ request = t.job.peerLog) := by
  have hawaiting := (Task.undecided_eq_some_iff.1 hreq).2
  rw [Task.current, Upload.awaiting_after] at hawaiting
  split at hawaiting
  · rename_i hanswers
    exact Or.inl ⟨hanswers, (Option.some.inj hawaiting).symm⟩
  · rename_i _ hanswers
    exact Or.inr ⟨by simp [hanswers], (Option.some.inj hawaiting).symm⟩
  · simp at hawaiting

/-- Outstanding summary writes belong to an upload both of whose log writes have
called back. -/
theorem AtStage.mem_outbox {t : UploadTask} (h : AtStage t) {request : WriteRequest}
    (hmem : request ∈ t.outbox) :
    t.answers.length = 2 ∧ (request = t.job.ownSummary ∨ request = t.job.peerSummary) := by
  have hperf := h.outbox_sublist.subset hmem
  rw [Task.current, Upload.performed_after] at hperf
  split at hperf
  · rename_i _ _ hanswers
    simpa [hanswers] using hperf
  · simp at hperf

/-- A quiet upload has had both its log writes decided and handled. -/
theorem AtStage.length_of_quiet {t : UploadTask} (h : AtStage t)
    (hquiet : t.Quiet Upload.program) : t.answers.length = 2 := by
  have hawaiting := hquiet.awaiting_eq
  rw [Task.current, Upload.awaiting_after] at hawaiting
  have hle := h.answers_le
  rcases hanswers : t.answers with _ | ⟨_, _ | ⟨_, _⟩⟩ <;> simp [hanswers] at hawaiting hle ⊢
  exact hle

/-- No write of the upload has been rejected and its process is alive. -/
def Unharmed (t : UploadTask) : Prop :=
  t.stopped = false ∧ ∀ result ∈ t.outcomes, result = .committed

/-- In a run in which all writes succeed every upload is unharmed. -/
theorem unharmed_of_succeeds {es : List DeliveryEvent} {s : Delivery}
    (hes : ∀ e ∈ es, e.Succeeds) (hrun : run step initial es = some s) :
    ∀ t ∈ s.tasks, Unharmed t := by
  refine run_invariant_of_stepsMeet (P := fun s => ∀ t ∈ s.tasks, Unharmed t) ?_
    (stepsMeet_of_forall_mem hes) (by simp [initial]) hrun
  intro a e b he ha hab
  refine forall_tasks_step hab ha ?_ ?_ ?_ ?_ ?_
  · intro u _
    exact ⟨rfl, by simp [Task.start, Task.outcomes]⟩
  · rintro i result t request rfl ht hreq
    refine ⟨ht.1, ?_⟩
    rw [Task.outcomes_arrive (Task.undecided_eq_some_iff.1 hreq).1]
    intro r hr
    rcases List.mem_append.1 hr with hr | hr
    · exact ht.2 r hr
    · rw [List.mem_singleton.1 hr]
      exact he
  · intro t t' ht ht'
    refine ⟨?_, by rw [Task.outcomes_handle ht']; exact ht.2⟩
    rcases Task.handle_eq_some_iff.1 ht' with ⟨-, _, -, rfl⟩
    exact ht.1
  · intro t k ht
    exact ht
  · rintro i t rfl ht
    exact he.elim

/-- All that has been answered has been committed. -/
theorem Unharmed.getElem?_iff {t : UploadTask} (h : Unharmed t) (n : Nat) :
    t.outcomes[n]? = some .committed ↔ n < t.outcomes.length := by
  constructor
  · intro hget
    exact (List.getElem?_eq_some_iff.1 hget).1
  · intro hn
    rw [List.getElem?_eq_getElem hn, h.2 _ (List.getElem_mem hn)]

/-! ## The logs -/

/-- The upload sends a message from `u` to `p`. -/
abbrev FromTo (u p : Uid) (t : UploadTask) : Prop :=
  t.job.currentUid = u ∧ t.job.peer = p

/-- The log write at position `n` of the chain has been committed. -/
abbrev LogCommitted (n : Nat) (t : UploadTask) : Prop :=
  t.outcomes[n]? = some .committed

/-- The documents upload number `i` has landed in `messages/<owner>/<peer>`: its
first log write if the owner is the sender, its second if the owner is the
receiver. -/
def landedDocuments (owner peer : Uid) (i : Nat) (t : UploadTask) :
    List StoredDocument :=
  (if FromTo owner peer t ∧ LogCommitted 0 t then [⟨.auto i 0, t.job.message⟩] else []) ++
  (if FromTo peer owner t ∧ LogCommitted 1 t then [⟨.auto i 1, t.job.message⟩] else [])

/-- What has landed depends on the job and its outcomes. -/
theorem landedDocuments_congr {t t' : UploadTask} (hjob : t'.job = t.job)
    (houtcomes : t'.outcomes = t.outcomes) (owner peer : Uid) (i : Nat) :
    landedDocuments owner peer i t' = landedDocuments owner peer i t := by
  simp only [landedDocuments, FromTo, LogCommitted, hjob, houtcomes]

/-- Deciding a log write lands exactly what the store adds to the log. -/
theorem landedDocuments_arrive {t : UploadTask} {request : WriteRequest}
    (hreq : t.undecided Upload.program = some request) (owner peer : Uid) (i : Nat)
    (result : WriteResult) :
    landedDocuments owner peer i (t.arrive result) =
      landedDocuments owner peer i t ++
        Firestore.added (.auto i t.answers.length) request result (logPath owner peer) := by
  have harrived := (Task.undecided_eq_some_iff.1 hreq).1
  have houtcomes : t.outcomes = t.answers := by simp [Task.outcomes, harrived]
  have hjob : (t.arrive result).job = t.job := rfl
  simp only [landedDocuments, FromTo, LogCommitted, Task.outcomes_arrive harrived,
    houtcomes, hjob]
  rcases undecided_cases hreq with ⟨hanswers, rfl⟩ | ⟨hanswers, rfl⟩
  · cases result <;>
      simp [hanswers, Firestore.added, Upload.ownLog, logPath_injective, eq_comm]
  · obtain ⟨r₀, hr₀⟩ := List.length_eq_one_iff.1 hanswers
    cases result <;>
      simp [hr₀, Firestore.added, Upload.peerLog, logPath_injective, eq_comm, and_comm]

/-- A summary write adds nothing under an allocated id. -/
theorem added_of_mem_outbox {t : UploadTask} (h : AtStage t) {request : WriteRequest}
    (hmem : request ∈ t.outbox) (fresh : DocumentId) (result : WriteResult)
    (path : CollectionPath) : Firestore.added fresh request result path = [] := by
  rcases (h.mem_outbox hmem).2 with rfl | rfl <;> cases result <;> rfl

/-- The logs hold what the uploads have landed in them. -/
def LogsMatch (s : Delivery) : Prop :=
  ∀ owner peer, (s.store.allocated (logPath owner peer)).Perm
    (gather (landedDocuments owner peer) s.tasks)

/-- Every event keeps the logs to what has landed. -/
theorem logsMatch_step {s s' : Delivery} {e : DeliveryEvent}
    (hstage : ∀ t ∈ s.tasks, AtStage t) (h : LogsMatch s) (hstep : step s e = some s') :
    LogsMatch s' := by
  intro owner peer
  rcases step_cases hstep with ⟨u, -, rfl⟩ | ⟨i, result, t, request, -, hget, hreq, rfl⟩ |
    ⟨i, t, t', -, hget, ht', rfl⟩ | ⟨i, k, result, t, request, -, hget, hreq, rfl⟩ |
    ⟨i, t, -, hget, rfl⟩
  · have hnone : landedDocuments owner peer s.tasks.length
        (Task.start Upload.program u) = [] := by
      simp [landedDocuments, LogCommitted, Task.start, Task.outcomes]
    simpa [gather_concat, hnone] using h owner peer
  · rw [Firestore.allocated_resolve]
    refine ((h owner peer).append_right _).trans (gather_set_perm hget ?_).symm
    rw [landedDocuments_arrive hreq]
  · rw [gather_set_eq hget (landedDocuments_congr (Task.job_handle ht')
      (Task.outcomes_handle ht') owner peer i)]
    exact h owner peer
  · have hadded := added_of_mem_outbox (hstage t (List.mem_of_getElem? hget))
      (List.mem_of_getElem? hreq)
    have hflush : gather (landedDocuments owner peer) (s.tasks.set i (t.flush k)) =
        gather (landedDocuments owner peer) s.tasks := gather_set_eq hget rfl
    rw [Firestore.allocated_resolve, hadded, List.append_nil, hflush]
    exact h owner peer
  · have hstop : gather (landedDocuments owner peer) (s.tasks.set i t.stop) =
        gather (landedDocuments owner peer) s.tasks := gather_set_eq hget rfl
    rw [hstop]
    exact h owner peer

/-- The documents allocated in a log are those of the committed log writes. -/
theorem allocated_perm {s : Delivery} (hreach : Reachable step initial s)
    (owner peer : Uid) :
    (s.store.allocated (logPath owner peer)).Perm
      (gather (landedDocuments owner peer) s.tasks) := by
  have hmatch : LogsMatch s := by
    refine hreach.invariant ?_ ?_
    · intro a e b ha hmatch hab
      exact logsMatch_step (reachable_tasks ha) hmatch hab
    · intro owner peer
      exact List.Perm.refl _
  exact hmatch owner peer

/-- A log holds no other documents: summaries are written elsewhere, unless a
peer carries the reserved name. -/
theorem documents_logPath {s : Delivery} (hreach : Reachable step initial s)
    {owner peer : Uid} (hpeer : peer ≠ "recent-messages") :
    s.store.documents (logPath owner peer) = s.store.allocated (logPath owner peer) := by
  have hall : ∀ doc ∈ s.store.documents (logPath owner peer), doc.id.isAllocated := by
    refine hreach.invariant (P := fun s =>
      ∀ doc ∈ s.store.documents (logPath owner peer), doc.id.isAllocated) ?_ ?_
    · intro a e b hreach ha hab
      rcases step_cases hab with ⟨u, -, rfl⟩ | ⟨i, result, t, request, -, hget, hreq, rfl⟩ |
        ⟨i, t, t', -, hget, ht', rfl⟩ | ⟨i, k, result, t, request, -, hget, hreq, rfl⟩ |
        ⟨i, t, -, hget, rfl⟩
      · exact ha
      · cases result with
        | rejected => exact ha
        | committed =>
            intro doc hdoc
            obtain ⟨c, data, rfl⟩ : ∃ c data, request = .addDocument c data := by
              rcases undecided_cases hreq with ⟨-, rfl⟩ | ⟨-, rfl⟩
              · exact ⟨_, _, rfl⟩
              · exact ⟨_, _, rfl⟩
            simp only [Firestore.resolve, Firestore.apply,
              Firestore.documents_addDocument, List.mem_append] at hdoc
            rcases hdoc with hdoc | hdoc
            · exact ha doc hdoc
            · split at hdoc
              · rw [List.mem_singleton.1 hdoc]
                rfl
              · simp at hdoc
      · exact ha
      · cases result with
        | rejected => exact ha
        | committed =>
            have hmem := List.mem_of_getElem? hreq
            have hne : ∀ owner', logPath owner peer ≠ recentPath owner' := fun owner' h =>
              hpeer (logPath_eq_recentPath.1 h).2
            have hstage := reachable_tasks hreach t (List.mem_of_getElem? hget)
            rcases (hstage.mem_outbox hmem).2 with rfl | rfl <;>
              simpa [Firestore.resolve, Firestore.apply, Upload.ownSummary,
                Upload.peerSummary, Firestore.documents_setData, hne] using ha
      · exact ha
    · simp [initial]
  exact (List.filter_eq_self.2 hall).symm

end Delivery

end WaffleChat
