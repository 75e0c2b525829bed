import WaffleChat.Service.Authentication
import WaffleChat.Service.IssuedWrites
import WaffleChat.Service.StoredMessages

/-!
# One store for profiles and messages

Registrations write to `users`, uploads below `messages`, and neither looks at what the other
has written.  Uploads beside any profiles are therefore uploads in a store without profiles.

Main results:

- Theorem `Delivery.step_withoutUsers`: uploads go on as if there were no profiles.
- Theorem `Delivery.documents_users_step`: no upload touches a profile.
- Theorem `Delivery.put_of_reachable`: every message is where an upload has put it.
-/

namespace WaffleChat

open CallbackProgram EventSystem

namespace Firestore

/-- The store without the documents of one collection. -/
def without (store : Firestore) (path : CollectionPath) : Firestore where
  documents := Function.update store.documents path []

theorem documents_without_of_ne (store : Firestore) {path other : CollectionPath}
    (h : other ≠ path) : (store.without path).documents other = store.documents other := by
  simp [without, h]

@[simp]
theorem without_empty (path : CollectionPath) : empty.without path = empty := by
  simp [without, empty]

/-- What is written to the collection is not seen without it. -/
@[simp]
theorem without_setData (store : Firestore) (path : CollectionPath) (id : DocumentId)
    (data : Dictionary) : (store.setData path id data).without path = store.without path := by
  simp [without, setData]

/-- What is written elsewhere is written the same without it. -/
theorem without_resolve (store : Firestore) {path : CollectionPath} {request : WriteRequest}
    (h : request.collection ≠ path) (fresh : DocumentId) (result : WriteResult) :
    (store.resolve fresh request result).without path =
      (store.without path).resolve fresh request result := by
  cases result with
  | rejected => rfl
  | committed =>
      cases request with
      | addDocument collection data =>
          have hne : collection ≠ path := h
          simp only [resolve, apply, addDocument, without, mk.injEq]
          rw [Function.update_comm hne, Function.update_of_ne hne]
      | setData collection document data =>
          have hne : collection ≠ path := h
          simp only [resolve, apply, setData, without, mk.injEq]
          rw [Function.update_comm hne, Function.update_of_ne hne]

theorem documents_resolve_of_ne (store : Firestore) {path : CollectionPath}
    {request : WriteRequest} (h : request.collection ≠ path) (fresh : DocumentId)
    (result : WriteResult) :
    (store.resolve fresh request result).documents path = store.documents path := by
  cases result with
  | rejected => rfl
  | committed =>
      cases request with
      | addDocument collection data => exact Function.update_of_ne (Ne.symm h) _ _
      | setData collection document data => exact Function.update_of_ne (Ne.symm h) _ _

end Firestore

/-- The document is one the request can write. -/
def WriteRequest.Puts (request : WriteRequest) (path : CollectionPath) (doc : StoredDocument) :
    Prop :=
  path = request.collection ∧ doc.data = request.data ∧
    ∀ collection name data, request = .setData collection name data → doc.id = .named name

/-- The documents after a decided write are old ones, or the one it has put there. -/
theorem Firestore.puts_of_mem_resolve {store : Firestore} {fresh : DocumentId}
    {request : WriteRequest} {result : WriteResult} {path : CollectionPath} {doc : StoredDocument}
    (h : doc ∈ (store.resolve fresh request result).documents path) :
    doc ∈ store.documents path ∨ request.Puts path doc := by
  cases result with
  | rejected => exact Or.inl h
  | committed =>
      cases request with
      | addDocument collection data =>
          simp only [resolve, apply, documents_addDocument, List.mem_append] at h
          refine h.imp_right fun hnew => ?_
          split at hnew
          · rename_i hpath
            rw [List.mem_singleton.1 hnew]
            refine ⟨hpath, rfl, ?_⟩
            intro _ _ _ heq
            cases heq
          · cases hnew
      | setData collection document data =>
          simp only [resolve, apply, documents_setData] at h
          split at h
          · rename_i hpath
            rcases List.mem_append.1 h with hold | hnew
            · rw [hpath]
              exact Or.inl (List.mem_filter.1 hold).1
            · refine Or.inr ⟨hpath, ?_⟩
              rw [List.mem_singleton.1 hnew]
              refine ⟨rfl, ?_⟩
              intro _ _ _ heq
              cases heq
              rfl
          · exact Or.inl h

/-- No write of an upload goes to `users`. -/
theorem Upload.collection_ne_users (u : Upload) :
    ∀ request ∈ u.writes, request.collection ≠ usersPath := by
  simp [writes, ownLog, peerLog, ownSummary, peerSummary, WriteRequest.collection, logPath,
    recentPath, usersPath]

namespace Delivery

/-- What an upload has outstanding is one of its four writes. -/
theorem mem_writes_of_undecided {t : UploadTask} {request : WriteRequest}
    (hreq : t.undecided Upload.program = some request) : request ∈ t.job.writes := by
  rcases undecided_cases hreq with ⟨-, rfl⟩ | ⟨-, rfl⟩
  · simp [Upload.writes]
  · simp [Upload.writes]

theorem AtStage.mem_writes {t : UploadTask} (h : AtStage t) {request : WriteRequest}
    (hmem : request ∈ t.outbox) : request ∈ t.job.writes := by
  rcases h.mem_outbox hmem with ⟨-, rfl | rfl⟩
  · simp [Upload.writes]
  · simp [Upload.writes]

/-- The uploads in a store without profiles. -/
def withoutUsers (s : Delivery) : Delivery :=
  { s with store := s.store.without usersPath }

/-- What an event can do to the store: nothing, or what one of the writes does. -/
theorem store_step {s s' : Delivery} {e : DeliveryEvent} (hstage : ∀ t ∈ s.tasks, AtStage t)
    (hstep : step s e = some s') :
    s'.store = s.store ∨ ∃ u ∈ s.uploads, ∃ request ∈ u.writes, ∃ fresh result,
      s'.store = s.store.resolve fresh request result := by
  rcases step_cases hstep with ⟨u, -, rfl⟩ | ⟨i, result, t, request, -, hget, hreq, rfl⟩ |
    ⟨i, t, t', -, hget, ht', rfl⟩ | ⟨i, k, result, t, request, -, hget, hreq, rfl⟩ |
    ⟨i, t, -, hget, rfl⟩
  · exact Or.inl rfl
  · exact Or.inr ⟨t.job, List.mem_map_of_mem (List.mem_of_getElem? hget), request,
      mem_writes_of_undecided hreq, _, _, rfl⟩
  · exact Or.inl rfl
  · have ht := List.mem_of_getElem? hget
    exact Or.inr ⟨t.job, List.mem_map_of_mem ht, request,
      (hstage t ht).mem_writes (List.mem_of_getElem? hreq), _, _, rfl⟩
  · exact Or.inl rfl

/-- No upload touches a profile. -/
theorem documents_users_step {s s' : Delivery} {e : DeliveryEvent}
    (hstage : ∀ t ∈ s.tasks, AtStage t) (hstep : step s e = some s') :
    s'.store.documents usersPath = s.store.documents usersPath := by
  rcases store_step hstage hstep with hsame | ⟨u, -, request, hrequest, fresh, result, hstore⟩
  · rw [hsame]
  · rw [hstore, Firestore.documents_resolve_of_ne _ (u.collection_ne_users request hrequest)]

/-- Uploads go on as if there were no profiles. -/
theorem step_withoutUsers {s s' : Delivery} {e : DeliveryEvent}
    (hstage : ∀ t ∈ s.tasks, AtStage t) (hstep : step s e = some s') :
    step s.withoutUsers e = some s'.withoutUsers := by
  rcases step_cases hstep with ⟨u, rfl, rfl⟩ | ⟨i, result, t, request, rfl, hget, hreq, rfl⟩ |
    ⟨i, t, t', rfl, hget, ht', rfl⟩ | ⟨i, k, result, t, request, rfl, hget, hreq, rfl⟩ |
    ⟨i, t, rfl, hget, rfl⟩
  · rfl
  · have helsewhere := t.job.collection_ne_users request (mem_writes_of_undecided hreq)
    simp [step, withoutUsers, hget, hreq, Firestore.without_resolve _ helsewhere]
  · simp [step, withoutUsers, hget, ht']
  · have helsewhere := t.job.collection_ne_users request
      ((hstage t (List.mem_of_getElem? hget)).mem_writes (List.mem_of_getElem? hreq))
    simp [step, withoutUsers, hget, hreq, Firestore.without_resolve _ helsewhere]
  · simp [step, withoutUsers, hget]

/-- **Every message is where an upload has put it.** -/
theorem put_of_reachable {s : Delivery} (hreach : Reachable step initial s)
    {path : CollectionPath} {doc : StoredDocument} (hdoc : doc ∈ s.store.documents path) :
    ∃ u ∈ s.uploads, ∃ request ∈ u.writes, request.Puts path doc := by
  refine hreach.invariant (P := fun s => ∀ doc ∈ s.store.documents path,
    ∃ u ∈ s.uploads, ∃ request ∈ u.writes, request.Puts path doc) ?_ (by simp [initial]) doc hdoc
  intro a e b ha hputs hab doc hdoc
  have hkept : ∀ u ∈ a.uploads, u ∈ b.uploads := by
    intro u hu
    rw [uploads_step hab]
    exact List.mem_append_left _ hu
  have hold : doc ∈ a.store.documents path →
      ∃ u ∈ b.uploads, ∃ request ∈ u.writes, request.Puts path doc := by
    intro hmem
    rcases hputs doc hmem with ⟨u, hu, hrequest⟩
    exact ⟨u, hkept u hu, hrequest⟩
  rcases store_step (reachable_tasks ha) hab with hsame | ⟨u, hu, request, hrequest, _, _, hstore⟩
  · rw [hsame] at hdoc
    exact hold hdoc
  · rw [hstore] at hdoc
    rcases Firestore.puts_of_mem_resolve hdoc with hmem | hnew
    · exact hold hmem
    · exact ⟨u, hkept u hu, request, hrequest, hnew⟩

end Delivery

end WaffleChat
