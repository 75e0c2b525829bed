import WaffleChat.Library.Interleaving
import WaffleChat.Service.Delivery

/-!
# The order of the writes

In which order the writes of all uploads are issued and applied, and what that
order decides: a named document holds what was written to it last.

Main results:

- Theorem `document_eq_last`: last writer wins.
- Theorem `issued_perm`: an issued write has been applied or is still pending.
- Theorem `issued_summaries`: summary writes are issued in pairs.
-/

namespace WaffleChat

open CallbackProgram EventSystem Gather Interleaving

/-- The write goes to a named document. -/
def ClientWrite.isSummary (write : ClientWrite) : Bool :=
  match write.request with
  | .addDocument _ _ => false
  | .setData _ _ _ => true

namespace Delivery

/-! ## Last writer wins -/

/-- What has been written to a named document, in the order of application. -/
def writtenTo (path : CollectionPath) (name : String) (writes : List ClientWrite) :
    List Dictionary :=
  writes.filterMap fun write => write.request.writeTo path name

/-- Later writes are written later. -/
@[simp]
theorem writtenTo_append (path : CollectionPath) (name : String) (l l' : List ClientWrite) :
    writtenTo path name (l ++ l') = writtenTo path name l ++ writtenTo path name l' :=
  List.filterMap_append

/-- A decided write extends the history of a document as it changes the document. -/
theorem document_eq_last_resolve {store : Firestore} {applied : List ClientWrite}
    {path : CollectionPath} {name : String}
    (h : store.document? path (.named name) = (writtenTo path name applied).getLast?)
    (owner serial : Nat) (write : ClientWrite) (result : WriteResult) :
    (store.resolve (.auto owner serial) write.request result).document? path (.named name) =
      (writtenTo path name (applied ++ appliedEntry write result)).getLast? := by
  rw [Firestore.document_resolve]
  cases result with
  | rejected => simpa [appliedEntry] using h
  | committed =>
      cases hwrite : write.request.writeTo path name with
      | none => simpa [appliedEntry, writtenTo, hwrite] using h
      | some data => simp [appliedEntry, writtenTo, hwrite]

/-- A named document holds what was written to it last. -/
theorem document_eq_last {s : Delivery} (hreach : Reachable step initial s)
    (path : CollectionPath) (name : String) :
    s.store.document? path (.named name) = (writtenTo path name s.applied).getLast? := by
  refine hreach.invariant (P := fun s =>
    s.store.document? path (.named name) = (writtenTo path name s.applied).getLast?) ?_ rfl
  intro a e b _ ha hab
  rcases step_cases hab with ⟨u, -, rfl⟩ | ⟨i, result, t, request, -, -, -, rfl⟩ |
    ⟨i, t, t', -, -, -, rfl⟩ | ⟨i, k, result, t, request, -, -, -, rfl⟩ | ⟨i, t, -, -, rfl⟩
  · exact ha
  · exact document_eq_last_resolve ha _ _ ⟨t.job.currentUid, i, request⟩ result
  · exact ha
  · exact document_eq_last_resolve ha _ _ ⟨t.job.currentUid, i, request⟩ result
  · exact ha

/-! ## Issued and applied writes -/

/-- The issued writes of upload `i` the backend has still to decide. -/
def pendingWrites (i : Nat) (t : UploadTask) : List ClientWrite :=
  ((t.undecided Upload.program).toList ++ t.outbox).map (ClientWrite.mk t.job.currentUid i)

/-- An answer takes its request off. -/
theorem pendingWrites_arrive {t : UploadTask} {request : WriteRequest}
    (hreq : t.undecided Upload.program = some request) (i : Nat) (result : WriteResult) :
    (pendingWrites i t).Perm
      (pendingWrites i (t.arrive result) ++ [⟨t.job.currentUid, i, request⟩]) := by
  have hdecided : (t.arrive result).undecided Upload.program = none := rfl
  have houtbox : (t.arrive result).outbox = t.outbox := rfl
  have hjob : (t.arrive result).job = t.job := rfl
  simp only [pendingWrites, hreq, hdecided, houtbox, hjob, Option.toList_some,
    Option.toList_none, List.nil_append, List.map_append, List.map_cons, List.map_nil]
  exact List.perm_append_comm

/-- A handler issues the requests of the program. -/
theorem pendingWrites_handle {t t' : UploadTask} (ht' : t.handle Upload.program = some t')
    (i : Nat) :
    (pendingWrites i t').Perm (pendingWrites i t ++
      (t'.current Upload.program).issues.map (ClientWrite.mk t.job.currentUid i)) := by
  rcases Task.handle_eq_some_iff.1 ht' with ⟨-, result, harrived, rfl⟩
  have hbefore : pendingWrites i t = t.outbox.map (ClientWrite.mk t.job.currentUid i) := by
    simp [pendingWrites, Task.undecided, harrived]
  rw [hbefore, ← List.map_append]
  refine List.Perm.map _ ?_
  simp only [Task.undecided, Program.issues, Task.current]
  refine List.perm_append_comm.trans ?_
  rw [List.append_assoc]

/-- A decided summary is taken off. -/
theorem pendingWrites_flush {t : UploadTask} {k : Nat} {request : WriteRequest}
    (hreq : t.outbox[k]? = some request) (i : Nat) :
    (pendingWrites i t).Perm
      (pendingWrites i (t.flush k) ++ [⟨t.job.currentUid, i, request⟩]) := by
  rcases List.getElem?_eq_some_iff.1 hreq with ⟨hk, rfl⟩
  have hflush : pendingWrites i (t.flush k) =
      ((t.undecided Upload.program).toList ++ t.outbox.eraseIdx k).map
        (ClientWrite.mk t.job.currentUid i) := rfl
  have hcomm : ([t.outbox[k]] ++ t.outbox.eraseIdx k).Perm
      (t.outbox.eraseIdx k ++ [t.outbox[k]]) := List.perm_append_comm
  have houtbox : t.outbox.Perm (t.outbox.eraseIdx k ++ [t.outbox[k]]) :=
    (List.getElem_cons_eraseIdx_perm hk).symm.trans hcomm
  rw [hflush]
  simp only [pendingWrites, List.map_append, List.append_assoc]
  refine List.Perm.append_left _ ?_
  simpa using houtbox.map (ClientWrite.mk t.job.currentUid i)

/-- Every issued write has been applied or is pending. -/
def Accounted (s : Delivery) : Prop :=
  s.issued.Perm (s.applied ++ gather pendingWrites s.tasks)

/-- A write moves from the pending to the applied ones when it is committed. -/
theorem accounted_decided {s : Delivery} (h : s.Accounted) {i : Nat} {t t' : UploadTask}
    {write : ClientWrite} (hget : s.tasks[i]? = some t)
    (hpending : (pendingWrites i t).Perm (pendingWrites i t' ++ [write])) :
    s.issued.Perm ((s.applied ++ [write]) ++ gather pendingWrites (s.tasks.set i t')) := by
  refine h.trans ?_
  rw [List.append_assoc]
  refine List.Perm.append_left _ ?_
  exact (gather_perm_set hget hpending).trans List.perm_append_comm

/-- New writes are pending as soon as they are issued. -/
theorem accounted_issued {s : Delivery} (h : s.Accounted) {tasks : List UploadTask}
    {issues : List ClientWrite}
    (hpending : (gather pendingWrites tasks).Perm (gather pendingWrites s.tasks ++ issues)) :
    (s.issued ++ issues).Perm (s.applied ++ gather pendingWrites tasks) := by
  refine (h.append_right issues).trans ?_
  rw [List.append_assoc]
  exact hpending.symm.append_left _

/-- While writes succeed, every one issued is pending or applied. -/
theorem accounted_step {s s' : Delivery} {e : DeliveryEvent} (he : e.Succeeds)
    (h : s.Accounted) (hstep : step s e = some s') : s'.Accounted := by
  rcases step_cases hstep with ⟨u, -, rfl⟩ | ⟨i, result, t, request, rfl, hget, hreq, rfl⟩ |
    ⟨i, t, t', -, hget, ht', rfl⟩ | ⟨i, k, result, t, request, rfl, hget, hreq, rfl⟩ |
    ⟨i, t, rfl, -, -⟩
  · refine accounted_issued h ?_
    rw [gather_concat]
    refine List.Perm.append_left _ (List.Perm.map _ ?_)
    exact List.perm_append_comm
  · obtain rfl : result = .committed := he
    exact accounted_decided h hget (pendingWrites_arrive hreq i _)
  · exact accounted_issued h (gather_set_perm hget (pendingWrites_handle ht' i))
  · obtain rfl : result = .committed := he
    exact accounted_decided h hget (pendingWrites_flush hreq i)
  · exact he.elim

/-- In a run in which all writes succeed, every issued write is applied or pending. -/
theorem issued_perm {es : List DeliveryEvent} {s : Delivery} (hes : ∀ e ∈ es, e.Succeeds)
    (hrun : run step initial es = some s) :
    s.issued.Perm (s.applied ++ gather pendingWrites s.tasks) := by
  have hinitial : initial.Accounted := List.Perm.refl _
  refine run_invariant_of_stepsMeet (P := Accounted) ?_ (stepsMeet_of_forall_mem hes)
    hinitial hrun
  intro a e b he ha hab
  exact accounted_step he ha hab

/-- Once nothing is in flight all issued writes have been applied. -/
theorem issued_perm_of_quiet {es : List DeliveryEvent} {s : Delivery}
    (hes : ∀ e ∈ es, e.Succeeds) (hrun : run step initial es = some s) (hquiet : s.Quiet) :
    s.issued.Perm s.applied := by
  have hnone : gather pendingWrites s.tasks = [] := by
    rw [List.eq_nil_iff_forall_not_mem]
    intro write hmem
    rcases mem_gather.1 hmem with ⟨i, t, hget, hpending⟩
    rcases (hquiet t (List.mem_of_getElem? hget)).eq_done with ⟨hundecided, -, houtbox⟩
    simp [pendingWrites, hundecided, houtbox] at hpending
  simpa [hnone] using issued_perm hes hrun

/-! ## Summary writes -/

/-- The write of a numbered upload to the summary of its sender. -/
def ownSummaryWrite (upload : Nat × Upload) : ClientWrite :=
  ⟨upload.2.currentUid, upload.1, upload.2.ownSummary⟩

/-- The write of a numbered upload to the summary of its receiver. -/
def peerSummaryWrite (upload : Nat × Upload) : ClientWrite :=
  ⟨upload.2.currentUid, upload.1, upload.2.peerSummary⟩

/-- The two summary writes of an upload, in the order they are issued. -/
def summaryWrites (upload : Nat × Upload) : List ClientWrite :=
  [ownSummaryWrite upload, peerSummaryWrite upload]

/-- Both log writes of the upload with this number have called back. -/
def CalledBack (s : Delivery) (upload : Nat × Upload) : Prop :=
  ∃ t, s.tasks[upload.1]? = some t ∧ t.job = upload.2 ∧ 2 ≤ t.answers.length

/-- Uploads keep their numbers, and answers are never taken back. -/
theorem calledBack_step {s s' : Delivery} {e : DeliveryEvent} (hstep : step s e = some s')
    {upload : Nat × Upload} (h : s.CalledBack upload) : s'.CalledBack upload := by
  rcases h with ⟨t, hget, hjob, hlength⟩
  have hset : ∀ {i : Nat} {t₁ t₂ : UploadTask}, s.tasks[i]? = some t₁ → t₂.job = t₁.job →
      t₁.answers.length ≤ t₂.answers.length →
      ∃ t', (s.tasks.set i t₂)[upload.1]? = some t' ∧ t'.job = upload.2 ∧
        2 ≤ t'.answers.length := by
    intro i t₁ t₂ hget₁ hjob₁ hlength₁
    rw [List.getElem?_set]
    split
    · rename_i hi
      subst hi
      obtain rfl : t₁ = t := Option.some.inj (hget₁.symm.trans hget)
      have hlt := (List.getElem?_eq_some_iff.1 hget).1
      exact ⟨t₂, by simp [hlt], hjob₁.trans hjob, hlength.trans hlength₁⟩
    · exact ⟨t, hget, hjob, hlength⟩
  rcases step_cases hstep with ⟨u, -, rfl⟩ | ⟨i, result, t₁, request, -, hget₁, -, rfl⟩ |
    ⟨i, t₁, t₂, -, hget₁, ht₂, rfl⟩ | ⟨i, k, result, t₁, request, -, hget₁, -, rfl⟩ |
    ⟨i, t₁, -, hget₁, rfl⟩
  · have hlt := (List.getElem?_eq_some_iff.1 hget).1
    exact ⟨t, by rw [List.getElem?_append_left hlt]; exact hget, hjob, hlength⟩
  · exact hset hget₁ rfl (le_refl _)
  · refine hset hget₁ (Task.job_handle ht₂) ?_
    rcases Task.handle_eq_some_iff.1 ht₂ with ⟨-, _, -, rfl⟩
    simp
  · exact hset hget₁ rfl (le_refl _)
  · exact hset hget₁ rfl (le_refl _)

/-- The summary writes issued so far, upload by upload. -/
structure IssuedInPairs (s : Delivery) (uploads : List (Nat × Upload)) : Prop where
  issued_eq : s.issued.filter ClientWrite.isSummary = uploads.flatMap summaryWrites
  calledBack : ∀ upload ∈ uploads, s.CalledBack upload
  complete : ∀ i t, s.tasks[i]? = some t → t.answers.length = 2 → (i, t.job) ∈ uploads

/-- What the handler of a log write issues: the second log write, or both summary
writes. -/
theorem issues_handle {t t' : UploadTask} (h : AtStage t)
    (ht' : t.handle Upload.program = some t') :
    (t'.answers.length ≠ 2 ∧ (t'.current Upload.program).issues = [t.job.peerLog]) ∨
      (t'.answers.length = 2 ∧
        (t'.current Upload.program).issues = [t.job.ownSummary, t.job.peerSummary]) := by
  rcases Task.handle_eq_some_iff.1 ht' with ⟨-, result, harrived, rfl⟩
  have hle : t.answers.length ≤ 1 := h.answers_le_of_arrived (by simp [harrived])
  simp only [Program.issues, Task.current, Upload.performed_after, Upload.awaiting_after]
  rcases hanswers : t.answers with _ | ⟨r₀, _ | ⟨_, _⟩⟩
  · exact Or.inl ⟨by simp, rfl⟩
  · exact Or.inr ⟨by simp, rfl⟩
  · simp [hanswers] at hle

/-- The uploads that have issued their summaries are listed when one upload takes a
step. -/
theorem complete_set {tasks : List UploadTask} {uploads : List (Nat × Upload)} {i : Nat}
    {t' : UploadTask}
    (h : ∀ j t, tasks[j]? = some t → t.answers.length = 2 → (j, t.job) ∈ uploads)
    (ht' : t'.answers.length = 2 → (i, t'.job) ∈ uploads) :
    ∀ j t, (tasks.set i t')[j]? = some t → t.answers.length = 2 → (j, t.job) ∈ uploads := by
  intro j t hget hlength
  rw [List.getElem?_set] at hget
  split at hget
  · rename_i hij
    subst hij
    split at hget
    · obtain rfl : t' = t := Option.some.inj hget
      exact ht' hlength
    · simp at hget
  · exact h j t hget hlength

/-- Summary writes are issued in pairs, one pair for each upload both of whose log
writes have been handled. -/
theorem issued_summaries {s : Delivery} (hreach : Reachable step initial s) :
    ∃ uploads, s.IssuedInPairs uploads := by
  have hinitial : initial.IssuedInPairs [] := ⟨rfl, by simp, by simp [initial]⟩
  refine hreach.invariant (P := fun s => ∃ uploads, IssuedInPairs s uploads) ?_ ⟨[], hinitial⟩
  rintro a e b ha ⟨uploads, hissued, hcalledBack, hcomplete⟩ hab
  have hkeep : ∀ upload ∈ uploads, b.CalledBack upload := fun upload hmem =>
    calledBack_step hab (hcalledBack upload hmem)
  rcases step_cases hab with ⟨u, -, rfl⟩ | ⟨i, result, t, request, -, hget, -, rfl⟩ |
    ⟨i, t, t', -, hget, ht', rfl⟩ | ⟨i, k, result, t, request, -, hget, -, rfl⟩ |
    ⟨i, t, -, hget, rfl⟩
  · refine ⟨uploads, ?_, hkeep, ?_⟩
    · rw [List.filter_append, hissued]
      simp [Program.issues, Upload.program, uploadMessage, Program.performed,
        Program.awaiting, ClientWrite.isSummary]
    · intro j t ht hlength
      rw [List.getElem?_append] at ht
      split at ht
      · exact hcomplete j t ht hlength
      · rw [List.mem_singleton.1 (List.mem_of_getElem? ht)] at hlength
        simp [Task.start] at hlength
  · exact ⟨uploads, hissued, hkeep, complete_set hcomplete (hcomplete i t hget)⟩
  · have hjob : t'.job = t.job := Task.job_handle ht'
    have hstage := reachable_tasks ha t (List.mem_of_getElem? hget)
    have hset : (a.tasks.set i t')[i]? = some t' := by
      simp [(List.getElem?_eq_some_iff.1 hget).1]
    rcases issues_handle hstage ht' with ⟨hlength, hissues⟩ | ⟨hlength, hissues⟩
    · refine ⟨uploads, ?_, hkeep, complete_set hcomplete fun h => absurd h hlength⟩
      rw [List.filter_append, hissued, hissues]
      simp [ClientWrite.isSummary, Upload.peerLog]
    · refine ⟨uploads ++ [(i, t.job)], ?_, ?_, ?_⟩
      · rw [List.filter_append, hissued, hissues, List.flatMap_append]
        rfl
      · intro upload hmem
        rcases List.mem_append.1 hmem with hmem | hmem
        · exact hkeep upload hmem
        · rw [List.mem_singleton.1 hmem]
          exact ⟨t', hset, hjob, hlength.ge⟩
      · refine complete_set (fun j t ht hlength => ?_) fun _ => by simp [hjob]
        exact List.mem_append_left _ (hcomplete j t ht hlength)
  · exact ⟨uploads, hissued, hkeep, complete_set hcomplete (hcomplete i t hget)⟩
  · exact ⟨uploads, hissued, hkeep, complete_set hcomplete (hcomplete i t hget)⟩

/-- Every applied summary write belongs to an upload both of whose log writes have
called back. -/
theorem mem_summaryWrites_of_applied {es : List DeliveryEvent} {s : Delivery}
    (hes : ∀ e ∈ es, e.Succeeds) (hrun : run step initial es = some s) {write : ClientWrite}
    (hmem : write ∈ s.applied) (hsummary : write.isSummary) :
    ∃ upload, s.CalledBack upload ∧ write ∈ summaryWrites upload := by
  rcases issued_summaries ⟨es, hrun⟩ with ⟨uploads, hissued, hcalledBack, -⟩
  have hmem' : write ∈ s.issued.filter ClientWrite.isSummary :=
    List.mem_filter.2 ⟨(issued_perm hes hrun).mem_iff.2 (List.mem_append_left _ hmem), hsummary⟩
  rw [hissued] at hmem'
  rcases List.mem_flatMap.1 hmem' with ⟨upload, hupload, hwrite⟩
  exact ⟨upload, hcalledBack upload hupload, hwrite⟩

end Delivery

end WaffleChat
