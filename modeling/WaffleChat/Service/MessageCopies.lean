import WaffleChat.Service.FetchMessages
import WaffleChat.Service.RecentMessages
import WaffleChat.Service.StoredMessages

/-!
# The copies of a message

An upload makes a copy of its message for each of the two users.  The copy of the sender is
there for the listeners of the sender's devices from the start, and leaves them again when
its write is rejected; the copy of the receiver is there once it has been committed.

Main results:

- Theorem `Delivery.mem_visible_iff`: what a listener may be handed.
- Theorem `Delivery.visible_step`: it leaves only by being rejected.
- Theorem `Delivery.copies_subset_documents`: a log that is complete.
-/

namespace WaffleChat

open CallbackProgram EventSystem Gather

/-! ## The messages of a chat -/

/-- The message of the upload as a screen of `uid` shows it. -/
def Upload.shownTo (uid : Uid) (u : Upload) : Message where
  text := u.text
  toId := u.peer
  fromId := u.currentUid
  timestamp := u.date.truncate
  user := none
  isFromCurrentUser := u.currentUid == uid

/-- The same message on the other side of a screen. -/
def Message.mirrored (message : Message) : Message :=
  { message with isFromCurrentUser := !message.isFromCurrentUser }

/-- A message is exchanged in both directions. -/
theorem Delivery.between_comm (owner peer : Uid) (u : Upload) :
    Delivery.Between owner peer u ↔ Delivery.Between peer owner u :=
  or_comm

/-- The screen of the receiver shows a message on the other side than that of the sender. -/
theorem Upload.mirrored_shownTo {owner peer : Uid} (hother : owner ≠ peer) {u : Upload}
    (h : Delivery.Between peer owner u) : (u.shownTo owner).mirrored = u.shownTo peer := by
  rcases h with ⟨hcurrent, -⟩ | ⟨hcurrent, -⟩
  · simp [Upload.shownTo, Message.mirrored, hcurrent, hother.symm]
  · simp [Upload.shownTo, Message.mirrored, hcurrent, hother]

/-- The copy upload number `i` makes, or would make, in `messages/<owner>/<peer>`. -/
def copyOf (owner peer : Uid) (i : Nat) (u : Upload) : List StoredDocument :=
  if Delivery.Between owner peer u then
    [⟨.auto i (if u.currentUid = owner then 0 else 1), u.message⟩]
  else []

/-- All copies in `messages/<owner>/<peer>` once every log write has been committed. -/
def copies (owner peer : Uid) (uploads : List Upload) : List StoredDocument :=
  gather (copyOf owner peer) uploads

/-- A document as a screen of `uid` decodes it. -/
def StoredDocument.shownTo (uid : Uid) (doc : StoredDocument) : Message :=
  Message.init ⟨⟨0, 0⟩, some uid⟩ doc.data

/-- A copy belongs to an upload between the two. -/
theorem mem_copies {owner peer : Uid} {uploads : List Upload} {doc : StoredDocument} :
    doc ∈ copies owner peer uploads ↔ ∃ i u, uploads[i]? = some u ∧ Delivery.Between owner peer u ∧
      doc = ⟨.auto i (if u.currentUid = owner then 0 else 1), u.message⟩ := by
  unfold copies copyOf
  rw [mem_gather]
  refine exists_congr fun i => exists_congr fun u => and_congr_right fun _ => ?_
  split
  · rename_i hbetween
    simp [hbetween]
  · rename_i hbetween
    simp [hbetween]

/-- A copy is known by its id. -/
theorem eq_of_mem_copies {owner peer : Uid} {uploads : List Upload} {doc doc' : StoredDocument}
    (h : doc ∈ copies owner peer uploads) (h' : doc' ∈ copies owner peer uploads)
    (hid : doc.id = doc'.id) : doc = doc' := by
  rcases mem_copies.1 h with ⟨i, u, hu, -, rfl⟩
  rcases mem_copies.1 h' with ⟨j, v, hv, -, rfl⟩
  obtain rfl : i = j := (DocumentId.auto.inj hid).1
  obtain rfl : u = v := Option.some.inj (hu.symm.trans hv)
  rfl

/-- No two copies are the same. -/
theorem nodup_copies (owner peer : Uid) (uploads : List Upload) :
    (copies owner peer uploads).Nodup := by
  induction uploads using List.reverseRecOn with
  | nil => exact List.nodup_nil
  | append_singleton uploads u ih =>
      rw [copies, gather_concat]
      refine List.nodup_append.2 ⟨ih, ?_, ?_⟩
      · unfold copyOf
        split <;> simp
      · rintro doc hdoc _ hlast rfl
        rcases mem_copies.1 hdoc with ⟨i, v, hv, -, rfl⟩
        have hlt := (List.getElem?_eq_some_iff.1 hv).1
        unfold copyOf at hlast
        split at hlast
        · have hid := (DocumentId.auto.inj
            (congrArg StoredDocument.id (List.mem_singleton.1 hlast))).1
          omega
        · cases hlast

/-- Copies stay copies when further uploads are started. -/
theorem copies_append_subset (owner peer : Uid) (uploads started : List Upload) :
    copies owner peer uploads ⊆ copies owner peer (uploads ++ started) := by
  intro doc hdoc
  rcases mem_copies.1 hdoc with ⟨i, u, hu, hbetween, rfl⟩
  have hlt := (List.getElem?_eq_some_iff.1 hu).1
  exact mem_copies.2 ⟨i, u, (List.getElem?_append_left hlt).trans hu, hbetween, rfl⟩

/-- A screen decodes a copy to the message that was sent, whatever its clock shows. -/
theorem init_copy {owner peer : Uid} {uploads : List Upload} {doc : StoredDocument}
    (h : doc ∈ copies owner peer uploads) {ambient : Ambient} {uid : Uid}
    (hcurrent : ambient.currentUid = some uid) :
    Message.init ambient doc.data = doc.shownTo uid := by
  rcases mem_copies.1 h with ⟨i, u, -, -, rfl⟩
  simp [StoredDocument.shownTo, Upload.init_message, hcurrent]

/-- What the copies show is what has been uploaded. -/
theorem map_shownTo_copies (owner peer : Uid) (uploads : List Upload) :
    (copies owner peer uploads).map (StoredDocument.shownTo owner) =
      (uploads.filter fun u => Delivery.Between owner peer u).map (Upload.shownTo owner) := by
  rw [copies, map_gather, ← gather_ite]
  congr 1
  funext i u
  unfold copyOf
  split
  · simp [StoredDocument.shownTo, Upload.init_message, Upload.shownTo]
  · rfl

namespace Delivery

/-- What a listener of `messages/<owner>/<peer>` may be handed: the documents of the log, and
the copies the devices of the owner have yet to send. -/
def visible (s : Delivery) (owner peer : Uid) : List StoredDocument :=
  s.store.documents (logPath owner peer) ++
    gather (fun i t => if FromTo owner peer t ∧ t.outcomes = [] then [ownCopy i t] else []) s.tasks

/-- A task is for the upload of its number. -/
theorem getElem?_uploads {s : Delivery} {i : Nat} {t : UploadTask} (h : s.tasks[i]? = some t) :
    s.uploads[i]? = some t.job := by
  rw [uploads, List.getElem?_map, h, Option.map_some]

/-- A document of a log is a copy of its upload. -/
theorem documents_subset_copies {s : Delivery} (hreach : Reachable step initial s)
    {owner peer : Uid} (hother : owner ≠ peer) (hpeer : peer ≠ "recent-messages") :
    s.store.documents (logPath owner peer) ⊆ copies owner peer s.uploads := by
  intro doc hdoc
  rw [documents_logPath hreach hpeer, (allocated_perm hreach owner peer).mem_iff, mem_gather]
    at hdoc
  rcases hdoc with ⟨i, t, hget, hlanded⟩
  refine mem_copies.2 ⟨i, t.job, getElem?_uploads hget, ?_⟩
  rcases List.mem_append.1 hlanded with hown | hreceived
  · split at hown
    · rename_i hsent
      rw [List.mem_singleton.1 hown, if_pos hsent.1.1]
      exact ⟨Or.inl hsent.1, rfl⟩
    · cases hown
  · split at hreceived
    · rename_i hsent
      have hne : t.job.currentUid ≠ owner := fun heq => hother (heq.symm.trans hsent.1.1)
      rw [List.mem_singleton.1 hreceived, if_neg hne]
      exact ⟨Or.inr hsent.1, rfl⟩
    · cases hreceived

/-- So is everything a listener is handed. -/
theorem visible_subset_copies {s : Delivery} (hreach : Reachable step initial s)
    {owner peer : Uid} (hother : owner ≠ peer) (hpeer : peer ≠ "recent-messages") :
    s.visible owner peer ⊆ copies owner peer s.uploads := by
  intro doc hdoc
  rcases List.mem_append.1 hdoc with hstored | hlocal
  · exact documents_subset_copies hreach hother hpeer hstored
  · rcases mem_gather.1 hlocal with ⟨i, t, hget, hmem⟩
    split at hmem
    · rename_i hsent
      refine mem_copies.2 ⟨i, t.job, getElem?_uploads hget, Or.inl hsent.1, ?_⟩
      rw [List.mem_singleton.1 hmem, if_pos hsent.1.1]
      rfl
    · cases hmem

/-- The document is the own copy of an upload whose first write has been rejected. -/
def Rejected (s : Delivery) (doc : StoredDocument) : Prop :=
  ∃ i t, s.tasks[i]? = some t ∧ t.outcomes[0]? = some .rejected ∧ doc = ownCopy i t

/-- A listener is handed the copy of a sender unless it is rejected, and the copy of a
receiver once it is committed. -/
theorem mem_visible_iff {s : Delivery} (hreach : Reachable step initial s) {owner peer : Uid}
    (hpeer : peer ≠ "recent-messages") {doc : StoredDocument} :
    doc ∈ s.visible owner peer ↔ ∃ i t, s.tasks[i]? = some t ∧
      ((FromTo owner peer t ∧ t.outcomes[0]? ≠ some .rejected ∧ doc = ownCopy i t) ∨
        (FromTo peer owner t ∧ LogCommitted 1 t ∧ doc = peerCopy i t)) := by
  rw [visible, List.mem_append, documents_logPath hreach hpeer,
    (allocated_perm hreach owner peer).mem_iff, mem_gather, mem_gather, ← exists_or]
  refine exists_congr fun i => ?_
  rw [← exists_or]
  refine exists_congr fun t => ?_
  rw [← and_or_left]
  refine and_congr_right fun _ => ?_
  -- an own copy is on the device, in the store or rejected
  have hown : t.outcomes[0]? ≠ some .rejected ↔ LogCommitted 0 t ∨ t.outcomes = [] := by
    unfold LogCommitted
    rcases t.outcomes with _ | ⟨_ | _, _⟩ <;> simp
  rw [hown, landedDocuments, List.mem_append, List.mem_ite_nil_right, List.mem_ite_nil_right,
    List.mem_ite_nil_right, List.mem_singleton, List.mem_singleton, List.mem_singleton]
  constructor
  · rintro ((⟨⟨hsent, hcommitted⟩, hdoc⟩ | ⟨⟨hsent, hcommitted⟩, hdoc⟩) | ⟨⟨hsent, hnil⟩, hdoc⟩)
    · exact Or.inl ⟨hsent, Or.inl hcommitted, hdoc⟩
    · exact Or.inr ⟨hsent, hcommitted, hdoc⟩
    · exact Or.inl ⟨hsent, Or.inr hnil, hdoc⟩
  · rintro (⟨hsent, hcommitted | hnil, hdoc⟩ | ⟨hsent, hcommitted, hdoc⟩)
    · exact Or.inl (Or.inl ⟨⟨hsent, hcommitted⟩, hdoc⟩)
    · exact Or.inr ⟨⟨hsent, hnil⟩, hdoc⟩
    · exact Or.inl (Or.inr ⟨⟨hsent, hcommitted⟩, hdoc⟩)

/-- What a listener may be handed has not been rejected. -/
theorem not_rejected_of_visible {s : Delivery} (hreach : Reachable step initial s)
    {owner peer : Uid} (hpeer : peer ≠ "recent-messages") {doc : StoredDocument}
    (hdoc : doc ∈ s.visible owner peer) : ¬ s.Rejected doc := by
  rintro ⟨j, t', hget', hrejected, rfl⟩
  rcases (mem_visible_iff hreach hpeer).1 hdoc with
    ⟨i, t, hget, ⟨-, hnot, heq⟩ | ⟨-, -, heq⟩⟩
  · obtain rfl : j = i := (DocumentId.auto.inj (congrArg StoredDocument.id heq)).1
    obtain rfl : t = t' := Option.some.inj (hget.symm.trans hget')
    exact hnot hrejected
  · exact absurd (DocumentId.auto.inj (congrArg StoredDocument.id heq)).2 (by decide)

/-- A decision keeps its place when further ones are taken. -/
theorem getElem?_of_prefix {results later : List WriteResult} (h : results <+: later) {n : Nat}
    {result : WriteResult} (hget : results[n]? = some result) : later[n]? = some result := by
  rcases h with ⟨rest, rfl⟩
  have hlt := (List.getElem?_eq_some_iff.1 hget).1
  exact (List.getElem?_append_left hlt).trans hget

/-- An upload goes on with the same message, and what has been decided stays decided. -/
theorem task_step {s s' : Delivery} {e : DeliveryEvent} (hstep : step s e = some s') {i : Nat}
    {t : UploadTask} (hget : s.tasks[i]? = some t) :
    ∃ t', s'.tasks[i]? = some t' ∧ t'.job = t.job ∧ t.outcomes <+: t'.outcomes := by
  have hset : ∀ {j : Nat} {task task' : UploadTask}, s.tasks[j]? = some task →
      task'.job = task.job → task.outcomes <+: task'.outcomes →
      ∃ t', (s.tasks.set j task')[i]? = some t' ∧ t'.job = t.job ∧
        t.outcomes <+: t'.outcomes := by
    intro j task task' htask hjob houtcomes
    by_cases hij : j = i
    · subst hij
      obtain rfl : t = task := Option.some.inj (hget.symm.trans htask)
      have hlt := (List.getElem?_eq_some_iff.1 hget).1
      exact ⟨task', List.getElem?_set_self hlt, hjob, houtcomes⟩
    · exact ⟨t, by rw [List.getElem?_set_ne hij, hget], rfl, List.prefix_refl _⟩
  rcases step_cases hstep with ⟨u, -, rfl⟩ | ⟨j, result, task, request, -, htask, hreq, rfl⟩ |
    ⟨j, task, task', -, htask, htask', rfl⟩ | ⟨j, k, result, task, request, -, htask, -, rfl⟩ |
    ⟨j, task, -, htask, rfl⟩
  · have hlt := (List.getElem?_eq_some_iff.1 hget).1
    exact ⟨t, (List.getElem?_append_left hlt).trans hget, rfl, List.prefix_refl _⟩
  · refine hset htask rfl ?_
    rw [Task.outcomes_arrive (Task.undecided_eq_some_iff.1 hreq).1]
    exact List.prefix_append _ _
  · exact hset htask (Task.job_handle htask') (Task.outcomes_handle htask' ▸ List.prefix_refl _)
  · exact hset htask rfl (List.prefix_refl _)
  · exact hset htask rfl (List.prefix_refl _)

/-- What has been rejected stays so. -/
theorem Rejected.step {s s' : Delivery} {e : DeliveryEvent} {doc : StoredDocument}
    (h : s.Rejected doc) (hstep : Delivery.step s e = some s') : s'.Rejected doc := by
  rcases h with ⟨i, t, hget, hrejected, rfl⟩
  rcases task_step hstep hget with ⟨t', hget', hjob, houtcomes⟩
  exact ⟨i, t', hget', getElem?_of_prefix houtcomes hrejected, by rw [ownCopy, ownCopy, hjob]⟩

/-- A listener keeps what it may be handed until it is rejected. -/
theorem visible_step {s s' : Delivery} (hreach : Reachable step initial s) {e : DeliveryEvent}
    (hstep : step s e = some s') {owner peer : Uid} (hpeer : peer ≠ "recent-messages")
    {doc : StoredDocument} (hdoc : doc ∈ s.visible owner peer) :
    doc ∈ s'.visible owner peer ∨ s'.Rejected doc := by
  rcases (mem_visible_iff hreach hpeer).1 hdoc with ⟨i, t, hget, hcopy⟩
  rcases task_step hstep hget with ⟨t', hget', hjob, houtcomes⟩
  rw [mem_visible_iff (hreach.next hstep) hpeer]
  rcases hcopy with ⟨hsent, -, rfl⟩ | ⟨hsent, hcommitted, rfl⟩
  · by_cases hrejected : t'.outcomes[0]? = some .rejected
    · exact Or.inr ⟨i, t', hget', hrejected, by rw [ownCopy, ownCopy, hjob]⟩
    · refine Or.inl ⟨i, t', hget', Or.inl ⟨?_, hrejected, by rw [ownCopy, ownCopy, hjob]⟩⟩
      rwa [FromTo, hjob]
  · refine Or.inl ⟨i, t', hget', Or.inr ⟨?_, ?_, by rw [peerCopy, peerCopy, hjob]⟩⟩
    · rwa [FromTo, hjob]
    · exact getElem?_of_prefix houtcomes hcommitted

/-- Once all writes have been made, and none has been rejected, a log holds all its copies. -/
theorem copies_subset_documents {s : Delivery} (hreach : Reachable step initial s)
    (hs : ∀ t ∈ s.tasks, Unharmed t) (hquiet : s.Quiet) {owner peer : Uid} :
    copies owner peer s.uploads ⊆ s.store.documents (logPath owner peer) := by
  intro doc hdoc
  rcases mem_copies.1 hdoc with ⟨i, u, hu, hbetween, rfl⟩
  rw [uploads, List.getElem?_map, Option.map_eq_some_iff] at hu
  rcases hu with ⟨t, hget, rfl⟩
  have ht := List.mem_of_getElem? hget
  have hlength := (reachable_tasks hreach t ht).length_of_quiet (hquiet t ht)
  have hcommitted : ∀ n, n < 2 → LogCommitted n t := by
    intro n hn
    refine ((hs t ht).getElem?_iff n).2 ?_
    rw [Task.outcomes, List.length_append]
    omega
  split
  · rename_i howner
    have hown := (ownCopy_iff hreach hget).2 (hcommitted 0 (by omega))
    have hpeer : t.job.peer = peer := by
      rcases hbetween with ⟨-, hpeer⟩ | ⟨hcurrent, hpeer⟩
      · exact hpeer
      · exact hpeer.trans (howner.symm.trans hcurrent)
    rwa [OwnDelivered, howner, hpeer] at hown
  · rename_i hne
    have hreceived := (peerCopy_iff hreach hget).2 (hcommitted 1 (by omega))
    have hsent := hbetween.resolve_left fun h => hne h.1
    rwa [PeerDelivered, hsent.1, hsent.2] at hreceived

end Delivery

end WaffleChat
