import WaffleChat.Service.Delivery

/-!
# Where the stored messages come from

Only uploads write below `messages`, and each writes the one dictionary it was
called with, so every write and every stored document carries the message of an
upload that has been started.

Main results:

- Theorem `uploads_step`: uploads are only ever added, by the calls that start them.
- Theorems `issued_data` and `stored_data`: every issued write and every stored
  document carries the message of a started upload.
-/

namespace WaffleChat

open CallbackProgram EventSystem

/-- The dictionary a request writes. -/
def WriteRequest.data : WriteRequest → Dictionary
  | .addDocument _ data => data
  | .setData _ _ data => data

/-- The collection a request writes to. -/
def WriteRequest.collection : WriteRequest → CollectionPath
  | .addDocument collection _ => collection
  | .setData collection _ _ => collection

/-- The documents after a decided write are old ones, or carry the written data. -/
theorem Firestore.mem_documents_resolve {store : Firestore} {fresh : DocumentId}
    {req : WriteRequest} {result : WriteResult} {path : CollectionPath} {doc : StoredDocument}
    (h : doc ∈ (store.resolve fresh req result).documents path) :
    doc ∈ store.documents path ∨ doc.data = req.data := by
  cases result with
  | rejected => exact Or.inl h
  | committed =>
      cases req with
      | addDocument collection data =>
          simp only [resolve, apply, documents_addDocument, List.mem_append] at h
          rcases h with h | h
          · exact Or.inl h
          · split at h
            · rw [List.mem_singleton.1 h]
              exact Or.inr rfl
            · cases h
      | setData collection document data =>
          simp only [resolve, apply, documents_setData] at h
          split at h
          · rename_i hpath
            rcases List.mem_append.1 h with h | h
            · rw [hpath]
              exact Or.inl (List.mem_filter.1 h).1
            · rw [List.mem_singleton.1 h]
              exact Or.inr rfl
          · exact Or.inl h

/-- An upload issues nothing but its message. -/
theorem Upload.data_of_mem_issues (u : Upload) (answers : List WriteResult) :
    ∀ request ∈ (u.program.after answers).issues, request.data = u.message := by
  intro request hmem
  rw [Program.issues, performed_after, awaiting_after] at hmem
  rcases answers with _ | ⟨_, _ | ⟨_, _ | ⟨_, _⟩⟩⟩
  · rw [show request = u.ownLog by simpa using hmem]
    rfl
  · rw [show request = u.peerLog by simpa using hmem]
    rfl
  · have hsummaries : request = u.ownSummary ∨ request = u.peerSummary := by simpa using hmem
    rcases hsummaries with rfl | rfl <;> rfl
  · simp at hmem

/-- The upload an event starts. -/
def DeliveryEvent.started : DeliveryEvent → List Upload
  | .upload u => [u]
  | _ => []

namespace Delivery

/-- The uploads started so far. -/
def uploads (s : Delivery) : List Upload :=
  s.tasks.map Task.job

/-- Moving a task on keeps its upload. -/
theorem map_job_set {tasks : List UploadTask} {i : Nat} {t : UploadTask} (t' : UploadTask)
    (hget : tasks[i]? = some t) (hjob : t'.job = t.job) :
    (tasks.set i t').map Task.job = tasks.map Task.job := by
  rcases List.getElem?_eq_some_iff.1 hget with ⟨hlt, hat⟩
  have hlt' : i < (tasks.map Task.job).length := by simpa using hlt
  have hold : (tasks.map Task.job)[i] = t'.job := by simp [hat, hjob]
  rw [List.map_set, ← hold, List.set_getElem_self]

theorem uploads_step {s s' : Delivery} {e : DeliveryEvent} (h : step s e = some s') :
    s'.uploads = s.uploads ++ e.started := by
  rcases step_cases h with ⟨u, rfl, rfl⟩ | ⟨i, result, t, request, rfl, hget, -, rfl⟩ |
    ⟨i, t, t', rfl, hget, ht', rfl⟩ | ⟨i, k, result, t, request, rfl, hget, -, rfl⟩ |
    ⟨i, t, rfl, hget, rfl⟩
  · simp [uploads, DeliveryEvent.started, Task.start]
  · exact (map_job_set (t.arrive result) hget rfl).trans (List.append_nil _).symm
  · exact (map_job_set t' hget (Task.job_handle ht')).trans (List.append_nil _).symm
  · exact (map_job_set (t.flush k) hget rfl).trans (List.append_nil _).symm
  · exact (map_job_set t.stop hget rfl).trans (List.append_nil _).symm

/-- A dictionary is the message of a started upload. -/
def Carries (s : Delivery) (data : Dictionary) : Prop :=
  ∃ u ∈ s.uploads, data = u.message

theorem Carries.step {s s' : Delivery} {e : DeliveryEvent} {data : Dictionary}
    (hstep : Delivery.step s e = some s') (h : s.Carries data) : s'.Carries data := by
  rcases h with ⟨u, hu, hdata⟩
  refine ⟨u, ?_, hdata⟩
  rw [uploads_step hstep]
  exact List.mem_append_left _ hu

theorem carries_job {s : Delivery} {t : UploadTask} (ht : t ∈ s.tasks) :
    s.Carries t.job.message :=
  ⟨t.job, List.mem_map_of_mem ht, rfl⟩

/-- The writes and the stored documents carry the messages of the uploads. -/
structure FromUploads (s : Delivery) : Prop where
  issued : ∀ write ∈ s.issued, s.Carries write.request.data
  stored : ∀ path, ∀ doc ∈ s.store.documents path, s.Carries doc.data

/-- The writes issued in the name of a task carry its message. -/
theorem carries_of_mem_issues {s : Delivery} {t : UploadTask} (ht : t ∈ s.tasks) {client : Uid}
    {i : Nat} {write : ClientWrite}
    (hmem : write ∈ (t.current Upload.program).issues.map (ClientWrite.mk client i)) :
    s.Carries write.request.data := by
  rcases List.mem_map.1 hmem with ⟨request, hrequest, rfl⟩
  rw [show request.data = t.job.message from t.job.data_of_mem_issues t.answers request hrequest]
  exact carries_job ht

theorem FromUploads.step {s s' : Delivery} {e : DeliveryEvent}
    (hstage : ∀ t ∈ s.tasks, AtStage t) (h : s.FromUploads)
    (hstep : Delivery.step s e = some s') : s'.FromUploads := by
  have hissued : ∀ write ∈ s.issued, s'.Carries write.request.data :=
    fun write hmem => (h.issued write hmem).step hstep
  have hstored : ∀ path, ∀ doc ∈ s.store.documents path, s'.Carries doc.data :=
    fun path doc hmem => (h.stored path doc hmem).step hstep
  have hdecided : ∀ {t request result fresh}, t ∈ s.tasks →
      request ∈ (t.current Upload.program).issues →
      ∀ path, ∀ doc ∈ (s.store.resolve fresh request result).documents path,
        s'.Carries doc.data := by
    intro t request result fresh ht hrequest path doc hdoc
    rcases Firestore.mem_documents_resolve hdoc with hdoc | hdata
    · exact hstored path doc hdoc
    · rw [hdata, show request.data = t.job.message from
        t.job.data_of_mem_issues t.answers request hrequest]
      exact (carries_job ht).step hstep
  rcases step_cases hstep with ⟨u, -, rfl⟩ | ⟨i, result, t, request, -, hget, hreq, rfl⟩ |
    ⟨i, t, t', -, hget, ht', rfl⟩ | ⟨i, k, result, t, request, -, hget, hreq, rfl⟩ |
    ⟨i, t, -, hget, rfl⟩
  · refine ⟨?_, hstored⟩
    intro write hmem
    rcases List.mem_append.1 hmem with hmem | hmem
    · exact hissued write hmem
    · refine carries_of_mem_issues (t := Task.start Upload.program u) ?_ hmem
      exact List.mem_append_right _ (List.mem_singleton_self _)
  · refine ⟨hissued, hdecided (List.mem_of_getElem? hget) (List.mem_append_right _ ?_)⟩
    rw [(Task.undecided_eq_some_iff.1 hreq).2]
    exact List.mem_singleton_self _
  · refine ⟨?_, hstored⟩
    intro write hmem
    rcases List.mem_append.1 hmem with hmem | hmem
    · exact hissued write hmem
    · exact carries_of_mem_issues (List.mem_set (List.getElem?_eq_some_iff.1 hget).1 t') hmem
  · have ht := List.mem_of_getElem? hget
    refine ⟨hissued, hdecided ht (List.mem_append_left _ ?_)⟩
    exact (hstage t ht).outbox_sublist.subset (List.mem_of_getElem? hreq)
  · exact ⟨hissued, hstored⟩

/-- In every run the writes and the stored documents carry the messages of the
uploads. -/
theorem fromUploads_of_reachable {s : Delivery} (hreach : Reachable step initial s) :
    s.FromUploads :=
  hreach.invariant (fun _ _ _ ha h hstep => h.step (reachable_tasks ha) hstep)
    ⟨by simp [initial], by simp [initial]⟩

end Delivery

end WaffleChat
