import WaffleChat.Service.Acknowledgement
import WaffleChat.Service.FetchConversations
import WaffleChat.Service.MessageLogs
import WaffleChat.Service.WriteOrder

/-!
# The summary documents

`messages/<u>/recent-messages/<p>` holds the message of the conversation list of
`u` for the chat with `p`.  Every upload overwrites the documents of both
participants, by two separate writes that race with those of other uploads.

Main results:

- Theorem `summary_integrity`: what a summary document contains and how it is read.
- Theorem `recentMessage_agree_iff`: when the documents of both participants agree.
- Theorem `last_writer_wins`: agreement, and when a summary is a latest message.
-/

namespace WaffleChat

open CallbackProgram EventSystem Gather Interleaving

namespace Delivery

/-- The document `messages/<u>/recent-messages/<p>`. -/
def recentMessage (s : Delivery) (u p : Uid) : Option Dictionary :=
  s.store.document? (recentPath u) (.named p)

/-- Everything written to `messages/<u>/recent-messages/<p>`, in order. -/
def summaries (s : Delivery) (u p : Uid) : List Dictionary :=
  writtenTo (recentPath u) p s.applied

/-- The summary is what has been written last. -/
theorem recentMessage_eq_last {s : Delivery} (hreach : Reachable step initial s) (u p : Uid) :
    s.recentMessage u p = (s.summaries u p).getLast? :=
  document_eq_last hreach (recentPath u) p

/-! ## What a summary contains -/

/-- The upload goes from `u` to `p` or from `p` to `u`. -/
def Between (u p : Uid) (upload : Upload) : Prop :=
  (upload.currentUid = u ∧ upload.peer = p) ∨ (upload.currentUid = p ∧ upload.peer = u)

instance (u p : Uid) : DecidablePred (Between u p) := fun _ =>
  inferInstanceAs (Decidable (_ ∨ _))

/-- A summary write of an upload goes to the document of one of its participants. -/
theorem writeTo_summaryWrites {upload : Nat × Upload} {write : ClientWrite}
    (hwrite : write ∈ summaryWrites upload) {u p : Uid} {data : Dictionary}
    (h : write.request.writeTo (recentPath u) p = some data) :
    Between u p upload.2 ∧ data = upload.2.message := by
  simp only [summaryWrites, List.mem_cons, List.not_mem_nil, or_false] at hwrite
  rcases hwrite with rfl | rfl
  · simp only [ownSummaryWrite, Upload.ownSummary, WriteRequest.writeTo,
      recentPath_injective] at h
    split at h
    · rename_i hpath
      exact ⟨Or.inl hpath, (Option.some.inj h).symm⟩
    · simp at h
  · simp only [peerSummaryWrite, Upload.peerSummary, WriteRequest.writeTo,
      recentPath_injective] at h
    split at h
    · rename_i hpath
      exact ⟨Or.inr ⟨hpath.2, hpath.1⟩, (Option.some.inj h).symm⟩
    · simp at h

/-- Only summary writes reach a named document. -/
theorem isSummary_of_writeTo {write : ClientWrite} {path : CollectionPath} {name : String}
    {data : Dictionary} (h : write.request.writeTo path name = some data) :
    write.isSummary := by
  cases hrequest : write.request with
  | addDocument collection data => simp [hrequest, WriteRequest.writeTo] at h
  | setData collection document data => simp [ClientWrite.isSummary, hrequest]

/-- A summary is the message of an upload both of whose log writes have called back. -/
theorem upload_of_recentMessage {es : List DeliveryEvent} {s : Delivery}
    (hes : ∀ e ∈ es, e.Succeeds) (hrun : run step initial es = some s) {u p : Uid}
    {data : Dictionary} (hdata : s.recentMessage u p = some data) :
    ∃ (i : Nat) (t : UploadTask), s.tasks[i]? = some t ∧ 2 ≤ t.answers.length ∧
      Between u p t.job ∧ data = t.job.message := by
  rw [recentMessage_eq_last ⟨es, hrun⟩] at hdata
  rcases List.mem_filterMap.1 (List.mem_of_getLast? hdata) with ⟨write, hmem, hwrite⟩
  rcases mem_summaryWrites_of_applied hes hrun hmem (isSummary_of_writeTo hwrite) with
    ⟨upload, ⟨t, hget, hjob, hlength⟩, hsummary⟩
  rcases writeTo_summaryWrites hsummary hwrite with ⟨hbetween, hmessage⟩
  exact ⟨upload.1, t, hget, hlength, hjob ▸ hbetween, hjob ▸ hmessage⟩

/-- Uploads go to another user. -/
theorem ne_peer_of_among {users : Finset Uid} {es : List DeliveryEvent} {s : Delivery}
    (hamong : ∀ e ∈ es, e.Among users) (hrun : run step initial es = some s) :
    ∀ t ∈ s.tasks, t.job.currentUid ≠ t.job.peer := by
  refine run_invariant_of_stepsMeet (P := fun s => ∀ t ∈ s.tasks, t.job.currentUid ≠ t.job.peer)
    ?_ (stepsMeet_of_forall_mem hamong) (by simp [initial]) hrun
  intro a e b he ha hab
  refine forall_tasks_step hab ha ?_ ?_ ?_ ?_ ?_
  · rintro u rfl
    exact he.2.2
  · intro i result t request _ ht _
    exact ht
  · intro t t' ht ht'
    rw [Task.job_handle ht']
    exact ht
  · intro t k ht
    exact ht
  · intro i t _ ht
    exact ht

/-- How the document `messages/<u>/recent-messages/<p>` relates to the upload it
comes from. -/
structure SummaryOf (s : Delivery) (u p : Uid) (data : Dictionary) (upload : Upload) :
    Prop where
  between : Between u p upload
  own : data ∈ s.logMessages u p
  peer : data ∈ s.logMessages p u
  decoded : ∀ ambient, ambient.currentUid = some u →
    Message.init ambient data =
      { text := upload.text
        toId := upload.peer
        fromId := upload.currentUid
        timestamp := upload.date.truncate
        user := none
        isFromCurrentUser := decide (upload.currentUid = u) }
  peerId_eq : ∀ ambient, (Message.init ambient data).peerId u = p

/-- An upload both of whose log writes have been handled is in both logs. -/
theorem message_mem_logs {es : List DeliveryEvent} {s : Delivery} (hes : ∀ e ∈ es, e.Succeeds)
    (hrun : run step initial es = some s) {i : Nat} {t : UploadTask}
    (hget : s.tasks[i]? = some t) (hlength : 2 ≤ t.answers.length) :
    t.job.message ∈ s.logMessages t.job.currentUid t.job.peer ∧
      t.job.message ∈ s.logMessages t.job.peer t.job.currentUid := by
  have hreach : Reachable step initial s := ⟨es, hrun⟩
  have hunharmed := unharmed_of_succeeds hes hrun t (List.mem_of_getElem? hget)
  have hcommitted : ∀ n < 2, LogCommitted n t := by
    intro n hn
    refine (hunharmed.getElem?_iff n).2 ?_
    simp only [Task.outcomes, List.length_append]
    omega
  have hown : OwnDelivered s i t := (ownCopy_iff hreach hget).2 (hcommitted 0 (by omega))
  have hpeer : PeerDelivered s i t := (peerCopy_iff hreach hget).2 (hcommitted 1 (by omega))
  exact ⟨List.mem_map.2 ⟨_, hown, rfl⟩, List.mem_map.2 ⟨_, hpeer, rfl⟩⟩

/-- Every document `messages/<u>/recent-messages/<p>` is a message present in both
logs of the chat; it decodes to what was sent, the date in whole microseconds, shown on
the side of its sender, and is attributed to `p`, another user. -/
theorem summary_integrity {users : Finset Uid} {es : List DeliveryEvent} {s : Delivery}
    (hes : ∀ e ∈ es, e.Succeeds) (hamong : ∀ e ∈ es, e.Among users)
    (hrun : run step initial es = some s) {u p : Uid} {data : Dictionary}
    (hdata : s.recentMessage u p = some data) :
    p ≠ u ∧ ∃ t ∈ s.tasks, s.SummaryOf u p data t.job := by
  rcases upload_of_recentMessage hes hrun hdata with ⟨i, t, hget, hlength, hbetween, rfl⟩
  have hmem := List.mem_of_getElem? hget
  have hne := ne_peer_of_among hamong hrun t hmem
  rcases message_mem_logs hes hrun hget hlength with ⟨hown, hpeer⟩
  have hdecoded : ∀ ambient : Ambient, ambient.currentUid = some u →
      Message.init ambient t.job.message =
        { text := t.job.text
          toId := t.job.peer
          fromId := t.job.currentUid
          timestamp := t.job.date.truncate
          user := none
          isFromCurrentUser := decide (t.job.currentUid = u) } := by
    intro ambient hambient
    simp [Upload.init_message, hambient, beq_eq_decide]
  have hpeerId : ∀ ambient, (Message.init ambient t.job.message).peerId u =
      if t.job.peer = u then t.job.currentUid else t.job.peer := by
    intro ambient
    rw [Upload.init_message]
    rfl
  rcases hbetween with ⟨rfl, rfl⟩ | ⟨rfl, rfl⟩
  · refine ⟨hne.symm, t, hmem, Or.inl ⟨rfl, rfl⟩, hown, hpeer, hdecoded, ?_⟩
    intro ambient
    rw [hpeerId, if_neg hne.symm]
  · refine ⟨hne, t, hmem, Or.inr ⟨rfl, rfl⟩, hpeer, hown, hdecoded, ?_⟩
    intro ambient
    rw [hpeerId, if_pos rfl]

theorem summary_integrity_single :
    ∃ s data, run step initial settledUpload = some s ∧
      s.recentMessage "bob" "alice" = some data ∧
      "alice" ≠ "bob" ∧ ∃ t ∈ s.tasks, s.SummaryOf "bob" "alice" data t.job :=
  have hes : ∀ e ∈ settledUpload, e.Succeeds := by decide
  have hamong : ∀ e ∈ settledUpload, e.Among {"alice", "bob"} := by decide
  ⟨_, _, run_final rfl, rfl, summary_integrity hes hamong (run_final rfl) rfl⟩

/-- A message that is sent 238 nanoseconds past a second. -/
def betweenMicroseconds : List DeliveryEvent :=
  [.upload ⟨"alice", .sample "bob", "hi", ⟨1600000000, 238⟩⟩, .decide 0 .committed, .handle 0,
   .decide 0 .committed, .handle 0, .decideSummary 0 0 .committed, .decideSummary 0 0 .committed]

/-- The summary does not decode to the timestamp that was sent. -/
theorem not_sentDate_of_betweenMicroseconds :
    (∀ e ∈ betweenMicroseconds, e.Succeeds ∧ e.Among {"alice", "bob"}) ∧
      ∃ s data, run step initial betweenMicroseconds = some s ∧
        s.recentMessage "bob" "alice" = some data ∧
        ∀ t ∈ s.tasks, (Message.init ⟨⟨0, 0⟩, some "bob"⟩ data).timestamp ≠ t.job.date :=
  ⟨by decide, _, _, run_final rfl, rfl, by decide⟩

/-! ## Agreement of the two summaries of a chat -/

/-- The writes of every client are applied in the order the client issued them. -/
def InIssueOrder (s : Delivery) : Prop :=
  ∀ client, (s.applied.filter fun write => write.client = client) <+:
    s.issued.filter fun write => write.client = client

/-- Only clients with applied writes matter. -/
theorem inIssueOrder_iff {s : Delivery} :
    s.InIssueOrder ↔ ∀ write ∈ s.applied,
      (s.applied.filter fun other => other.client = write.client) <+:
        s.issued.filter fun other => other.client = write.client := by
  constructor
  · intro h write _
    exact h write.client
  · intro h client
    by_cases hclient : ∃ write ∈ s.applied, write.client = client
    · rcases hclient with ⟨write, hmem, rfl⟩
      exact h write hmem
    · have hnone : (s.applied.filter fun write => write.client = client) = [] := by
        rw [List.filter_eq_nil_iff]
        intro write hmem
        simpa using fun heq => hclient ⟨write, hmem, heq⟩
      rw [hnone]
      exact List.nil_prefix

instance : DecidablePred InIssueOrder := fun _ =>
  decidable_of_iff _ inIssueOrder_iff.symm

/-- The write goes to one of the two summaries of the chat of `a` and `b`. -/
def isPairWrite (a b : Uid) (write : ClientWrite) : Bool :=
  (write.request.writeTo (recentPath a) b).isSome ||
    (write.request.writeTo (recentPath b) a).isSome

/-- The applied writes to the two summaries of the chat of `a` and `b`. -/
def pairWrites (s : Delivery) (a b : Uid) : List ClientWrite :=
  s.applied.filter (isPairWrite a b)

/-- The last two writes belong to one upload. -/
def LastTogether (writes : List ClientWrite) : Prop :=
  ∀ pre x y, writes = pre ++ [x, y] → x.task = y.task

/-- The history of a summary can be read off the writes to the pair. -/
theorem summaries_eq (s : Delivery) (a b : Uid) :
    s.summaries a b = writtenTo (recentPath a) b (s.pairWrites a b) := by
  unfold summaries writtenTo pairWrites
  rw [List.filterMap_filter]
  apply List.filterMap_congr
  intro write _
  split
  · rfl
  · rename_i hpair
    simp only [isPairWrite, Bool.or_eq_true, not_or, Bool.not_eq_true,
      Option.isSome_eq_false_iff, Option.isNone_iff_eq_none] at hpair
    exact hpair.1

/-- The summaries of a pair are the same seen from both sides. -/
theorem pairWrites_comm (s : Delivery) (a b : Uid) : s.pairWrites b a = s.pairWrites a b := by
  unfold pairWrites
  congr 1
  funext write
  exact Bool.or_comm _ _

/-- Both summary writes of an upload go to the pair of its participants. -/
theorem isPairWrite_summaryWrites (a b : Uid) {upload : Nat × Upload} {write : ClientWrite}
    (h : write ∈ summaryWrites upload) :
    isPairWrite a b write = decide (Between a b upload.2) := by
  simp only [summaryWrites, List.mem_cons, List.not_mem_nil, or_false] at h
  rw [Bool.eq_iff_iff, decide_eq_true_iff]
  rcases h with rfl | rfl
  · simp [isPairWrite, ownSummaryWrite, Upload.ownSummary, WriteRequest.writeTo,
      recentPath_injective, Between, apply_ite]
  · simp [isPairWrite, peerSummaryWrite, Upload.peerSummary, WriteRequest.writeTo,
      recentPath_injective, Between, apply_ite, and_comm, or_comm]

/-- Both summaries are written by the sender. -/
theorem client_summaryWrites {upload : Nat × Upload} {write : ClientWrite}
    (h : write ∈ summaryWrites upload) : write.client = upload.2.currentUid := by
  simp only [summaryWrites, List.mem_cons, List.not_mem_nil, or_false] at h
  rcases h with rfl | rfl <;> rfl

/-- The writes of one client to the pair come upload by upload. -/
theorem clientWrites_eq {es : List DeliveryEvent} {s : Delivery} (hes : ∀ e ∈ es, e.Succeeds)
    (hrun : run step initial es = some s) (hquiet : s.Quiet) (horder : s.InIssueOrder)
    (a b client : Uid) :
    ∃ uploads : List (Nat × Upload),
      ((s.pairWrites a b).filter fun write => write.client = client) =
        uploads.flatMap summaryWrites ∧
      ∀ upload ∈ uploads, s.CalledBack upload ∧ Between a b upload.2 ∧
        upload.2.currentUid = client := by
  rcases issued_summaries ⟨es, hrun⟩ with ⟨uploads, hissued, hcalledBack, -⟩
  have happlied : (s.applied.filter fun write => write.client = client) =
      s.issued.filter fun write => write.client = client := by
    refine (horder client).eq_of_length ?_
    exact (((issued_perm_of_quiet hes hrun hquiet).filter _).length_eq).symm
  have hsummary : (s.issued.filter (isPairWrite a b)) =
      (s.issued.filter ClientWrite.isSummary).filter (isPairWrite a b) := by
    rw [List.filter_filter]
    apply List.filter_congr
    intro write _
    cases hpair : isPairWrite a b write with
    | false => rfl
    | true =>
        simp only [isPairWrite, Bool.or_eq_true, Option.isSome_iff_exists] at hpair
        rcases hpair with ⟨data, h⟩ | ⟨data, h⟩ <;> simp [isSummary_of_writeTo h]
  refine ⟨(uploads.filter fun upload => Between a b upload.2).filter
    fun upload => upload.2.currentUid = client, ?_, ?_⟩
  · calc
      ((s.pairWrites a b).filter fun write => write.client = client) =
          (s.applied.filter fun write => write.client = client).filter (isPairWrite a b) :=
        List.filter_comm _ _ _
      _ = (s.issued.filter (isPairWrite a b)).filter fun write => write.client = client := by
        rw [happlied]
        exact List.filter_comm _ _ _
      _ = ((uploads.flatMap summaryWrites).filter (isPairWrite a b)).filter
          fun write => write.client = client := by
        rw [hsummary, hissued]
      _ = _ := by
        rw [filter_flatMap_of_const fun upload _ write h => isPairWrite_summaryWrites a b h,
          filter_flatMap_of_const fun upload _ write h => by rw [client_summaryWrites h]]
  · intro upload hmem
    simp only [List.mem_filter, decide_eq_true_eq] at hmem
    exact ⟨hcalledBack upload hmem.1.1, hmem.1.2, hmem.2⟩

/-- A nonempty sequence of summary pairs ends with the pair of its last upload. -/
theorem flatMap_summaryWrites_last {uploads : List (Nat × Upload)} {init : List ClientWrite}
    {last : ClientWrite} (h : init ++ [last] = uploads.flatMap summaryWrites) :
    ∃ upload ∈ uploads, last = peerSummaryWrite upload ∧
      ∃ pre, init = pre ++ [ownSummaryWrite upload] := by
  rcases List.eq_nil_or_concat uploads with rfl | ⟨uploads', upload, rfl⟩
  · simp at h
  · have heq : init ++ [last] =
        (uploads'.flatMap summaryWrites ++ [ownSummaryWrite upload]) ++
          [peerSummaryWrite upload] := by
      rw [h]
      simp [summaryWrites]
    rcases List.append_inj' heq rfl with ⟨hinit, hlast⟩
    exact ⟨upload, by simp, by simpa using hlast, _, hinit⟩

/-- The last two writes belong together exactly if they are of one upload. -/
theorem lastTogether_iff {pre : List ClientWrite} {x y : ClientWrite} :
    LastTogether (pre ++ [x, y]) ↔ x.task = y.task := by
  constructor
  · intro h
    exact h pre x y rfl
  · intro h pre' x' y' heq
    have hpair : [x, y] = [x', y'] := (List.append_inj' heq rfl).2
    simp only [List.cons.injEq, and_true] at hpair
    rw [← hpair.1, ← hpair.2]
    exact h

/-- How the writes to the pair end: with the second write of some upload, and between
its two writes there are only writes of the other participant, the last of which is
the second write of an upload in the other direction. -/
structure EndsWith (writes : List ClientWrite) (upload : Nat × Upload)
    (pre mid : List ClientWrite) : Prop where
  eq : writes = pre ++ ownSummaryWrite upload :: (mid ++ [peerSummaryWrite upload])
  mid_last : ∀ init z, mid = init ++ [z] → ∃ other : Nat × Upload,
    z = peerSummaryWrite other ∧ other.1 ≠ upload.1 ∧
      other.2.currentUid = upload.2.peer ∧ other.2.peer = upload.2.currentUid

/-- One number, one upload. -/
theorem CalledBack.job_eq {s : Delivery} {upload other : Nat × Upload}
    (h : s.CalledBack upload) (h' : s.CalledBack other) (hnum : other.1 = upload.1) :
    other.2 = upload.2 := by
  rcases h with ⟨t, hget, hjob, -⟩
  rcases h' with ⟨t', hget', hjob', -⟩
  rw [hnum] at hget'
  rw [← hjob, ← hjob', Option.some.inj (hget.symm.trans hget')]

/-- When all is quiet, the last upload of a pair has written both summaries. -/
theorem pairWrites_endsWith {es : List DeliveryEvent} {s : Delivery}
    (hes : ∀ e ∈ es, e.Succeeds) (hrun : run step initial es = some s) (hquiet : s.Quiet)
    (horder : s.InIssueOrder) {a b : Uid} (hne : s.pairWrites a b ≠ []) :
    ∃ upload pre mid, Between a b upload.2 ∧ EndsWith (s.pairWrites a b) upload pre mid := by
  rcases List.eq_nil_or_concat (s.pairWrites a b) with hnil | ⟨init, last, hlast⟩
  · exact absurd hnil hne
  · rw [List.concat_eq_append] at hlast
    rcases clientWrites_eq hes hrun hquiet horder a b last.client with
      ⟨uploads, hfilter, huploads⟩
    have hlastFilter : (s.pairWrites a b).filter (fun write => write.client = last.client) =
        (init.filter fun write => write.client = last.client) ++ [last] := by
      simp [hlast, List.filter_append]
    rcases flatMap_summaryWrites_last (hlastFilter.symm.trans hfilter) with
      ⟨upload, hmem, hpeer, pre₀, hpre₀⟩
    rcases huploads upload hmem with ⟨hcalledBack, hbetween, hclient⟩
    rw [hpre₀, List.append_assoc] at hlastFilter
    have hgetLast : (s.pairWrites a b).getLast? = some last := by simp [hlast]
    rcases ends_with_pair hlastFilter hgetLast (by simp) with ⟨pre, mid, heq, hmid⟩
    refine ⟨upload, pre, mid, hbetween, ?_, ?_⟩
    · rw [heq, hpeer]
    · rintro mid' z rfl
      have hz : last.client ≠ z.client := by simpa [eq_comm] using hmid z (by simp)
      have hzFilter : (s.pairWrites a b).filter (fun write => write.client = z.client) =
          ((pre ++ ownSummaryWrite upload :: mid').filter
            fun write => write.client = z.client) ++ [z] := by
        have hsplit : s.pairWrites a b = (pre ++ ownSummaryWrite upload :: mid') ++ [z, last] := by
          rw [heq]
          simp
        rw [hsplit, List.filter_append]
        congr 1
        simp [hz]
      rcases clientWrites_eq hes hrun hquiet horder a b z.client with
        ⟨uploads', hfilter', huploads'⟩
      rcases flatMap_summaryWrites_last (hzFilter.symm.trans hfilter') with
        ⟨other, hmem', hother, -⟩
      rcases huploads' other hmem' with ⟨hcalledBack', hbetween', hclient'⟩
      have hcur : other.2.currentUid ≠ upload.2.currentUid := by
        rw [hclient, hclient']
        exact hz.symm
      refine ⟨other, hother, ?_, ?_⟩
      · intro hnum
        exact hcur (by rw [hcalledBack.job_eq hcalledBack' hnum])
      · rcases hbetween with ⟨rfl, rfl⟩ | ⟨rfl, rfl⟩ <;>
          rcases hbetween' with ⟨hcur', hpeer'⟩ | ⟨hcur', hpeer'⟩
        · exact absurd hcur' hcur
        · exact ⟨hcur', hpeer'⟩
        · exact ⟨hcur', hpeer'⟩
        · exact absurd hcur' hcur

/-- What is written to the summary of the sender. -/
theorem writeTo_ownSummaryWrite (upload : Nat × Upload) :
    (ownSummaryWrite upload).request.writeTo (recentPath upload.2.currentUid) upload.2.peer =
      some upload.2.message := by
  simp [ownSummaryWrite, Upload.ownSummary, WriteRequest.writeTo]

/-- What is written to the summary of the receiver. -/
theorem writeTo_peerSummaryWrite (upload : Nat × Upload) :
    (peerSummaryWrite upload).request.writeTo (recentPath upload.2.peer) upload.2.currentUid =
      some upload.2.message := by
  simp [peerSummaryWrite, Upload.peerSummary, WriteRequest.writeTo]

/-- The receiver's summary is not the sender's. -/
theorem writeTo_peerSummaryWrite_of_ne {upload : Nat × Upload}
    (hne : upload.2.currentUid ≠ upload.2.peer) :
    (peerSummaryWrite upload).request.writeTo (recentPath upload.2.currentUid) upload.2.peer =
      none := by
  simp [peerSummaryWrite, Upload.peerSummary, WriteRequest.writeTo, recentPath_injective, hne]

/-- Messages of different senders differ. -/
theorem message_ne {u v : Upload} (h : u.currentUid ≠ v.currentUid) : u.message ≠ v.message := by
  intro heq
  have hfrom : u.message.string? "fromId" = v.message.string? "fromId" := by rw [heq]
  exact h (Option.some.inj hfrom)

/-- The two histories that end as described have the same last entry exactly when
the last two writes belong to one upload. -/
theorem EndsWith.agree_iff {writes pre mid : List ClientWrite} {upload : Nat × Upload}
    (h : EndsWith writes upload pre mid) (hne : upload.2.currentUid ≠ upload.2.peer) :
    ((writtenTo (recentPath upload.2.currentUid) upload.2.peer writes).getLast? =
        (writtenTo (recentPath upload.2.peer) upload.2.currentUid writes).getLast?) ↔
      LastTogether writes := by
  have hpeer : (writtenTo (recentPath upload.2.peer) upload.2.currentUid writes).getLast? =
      some upload.2.message := by
    have hsplit : writes =
        (pre ++ ownSummaryWrite upload :: mid) ++ [peerSummaryWrite upload] := by simp [h.eq]
    rw [hsplit, writtenTo_append]
    simp [writtenTo, writeTo_peerSummaryWrite]
  rw [hpeer]
  rcases List.eq_nil_or_concat mid with rfl | ⟨mid', z, rfl⟩
  · have hwrites : writes = pre ++ [ownSummaryWrite upload, peerSummaryWrite upload] := by
      simp [h.eq]
    have htask : (ownSummaryWrite upload).task = (peerSummaryWrite upload).task := rfl
    have hown : (writtenTo (recentPath upload.2.currentUid) upload.2.peer writes).getLast? =
        some upload.2.message := by
      rw [hwrites, writtenTo_append]
      simp [writtenTo, writeTo_ownSummaryWrite, writeTo_peerSummaryWrite_of_ne hne]
    rw [hown, hwrites, lastTogether_iff]
    exact iff_of_true rfl htask
  · rw [List.concat_eq_append] at h
    rcases h.mid_last mid' z rfl with ⟨other, rfl, hnum, hcur, hpeer'⟩
    have hwrites : writes = (pre ++ ownSummaryWrite upload :: mid') ++
        [peerSummaryWrite other, peerSummaryWrite upload] := by
      simp [h.eq]
    have hown : (writtenTo (recentPath upload.2.currentUid) upload.2.peer writes).getLast? =
        some other.2.message := by
      have hother := writeTo_peerSummaryWrite other
      rw [hpeer', hcur] at hother
      rw [hwrites, writtenTo_append]
      simp [writtenTo, hother, writeTo_peerSummaryWrite_of_ne hne]
    have hmessage : other.2.message ≠ upload.2.message :=
      message_ne (by rw [hcur]; exact hne.symm)
    rw [hown, hwrites, lastTogether_iff]
    refine iff_of_false ?_ hnum
    intro heq
    exact hmessage (Option.some.inj heq)

/-- When nothing is in flight and every client's writes have been applied in the
order of issue, the two summaries of a chat agree exactly when the last two writes to
them belong to one upload. -/
theorem recentMessage_agree_iff {es : List DeliveryEvent} {s : Delivery}
    (hes : ∀ e ∈ es, e.Succeeds) (hrun : run step initial es = some s) (hquiet : s.Quiet)
    (horder : s.InIssueOrder) {a b : Uid} (hab : a ≠ b) :
    s.recentMessage a b = s.recentMessage b a ↔ LastTogether (s.pairWrites a b) := by
  have hreach : Reachable step initial s := ⟨es, hrun⟩
  rw [recentMessage_eq_last hreach, recentMessage_eq_last hreach, summaries_eq s a b,
    summaries_eq s b a, pairWrites_comm s a b]
  by_cases hnil : s.pairWrites a b = []
  · rw [hnil]
    refine iff_of_true rfl ?_
    intro pre x y heq
    simp at heq
  · rcases pairWrites_endsWith hes hrun hquiet horder hnil with
      ⟨upload, pre, mid, hbetween, hends⟩
    rcases hbetween with ⟨rfl, rfl⟩ | ⟨rfl, rfl⟩
    · exact hends.agree_iff hab
    · rw [eq_comm]
      exact hends.agree_iff hab.symm

/-! ## The latest message -/

/-- When nothing is in flight every exchanged message has been written to the
summary. -/
theorem message_mem_summaries {es : List DeliveryEvent} {s : Delivery}
    (hes : ∀ e ∈ es, e.Succeeds) (hrun : run step initial es = some s) (hquiet : s.Quiet)
    {a b : Uid} {t : UploadTask} (ht : t ∈ s.tasks) (hbetween : Between a b t.job) :
    t.job.message ∈ s.summaries a b := by
  have hreach : Reachable step initial s := ⟨es, hrun⟩
  rcases issued_summaries hreach with ⟨uploads, hissued, -, hcomplete⟩
  rcases List.mem_iff_getElem?.1 ht with ⟨i, hget⟩
  have hlength := (reachable_tasks hreach t ht).length_of_quiet (hquiet t ht)
  have happlied : ∀ write ∈ summaryWrites (i, t.job), write ∈ s.applied := by
    intro write hwrite
    have hmem : write ∈ uploads.flatMap summaryWrites :=
      List.mem_flatMap.2 ⟨_, hcomplete i t hget hlength, hwrite⟩
    rw [← hissued] at hmem
    exact (issued_perm_of_quiet hes hrun hquiet).subset (List.mem_filter.1 hmem).1
  rcases hbetween with ⟨rfl, rfl⟩ | ⟨rfl, rfl⟩
  · exact List.mem_filterMap.2 ⟨_, happlied (ownSummaryWrite (i, t.job)) (by simp [summaryWrites]),
      writeTo_ownSummaryWrite (i, t.job)⟩
  · exact List.mem_filterMap.2 ⟨_, happlied (peerSummaryWrite (i, t.job)) (by simp [summaryWrites]),
      writeTo_peerSummaryWrite (i, t.job)⟩

/-- A summary whose writes have been applied in the order of their timestamps holds
a latest message of the log. -/
theorem recentMessage_latest {es : List DeliveryEvent} {s : Delivery}
    (hes : ∀ e ∈ es, e.Succeeds) (hrun : run step initial es = some s) (hquiet : s.Quiet)
    {a b : Uid} (hab : a ≠ b) (hb : b ≠ "recent-messages")
    (hsorted : (s.summaries a b).Pairwise fun m m' => m.sentAt ≤ m'.sentAt)
    (hlog : s.logMessages a b ≠ []) :
    ∃ latest ∈ s.logMessages a b, s.recentMessage a b = some latest ∧
      ∀ m ∈ s.logMessages a b, m.sentAt ≤ latest.sentAt := by
  have hreach : Reachable step initial s := ⟨es, hrun⟩
  have hwritten : ∀ m ∈ s.logMessages a b, m ∈ s.summaries a b := by
    intro m hm
    have hperm := exchanged_perm hreach (unharmed_of_succeeds hes hrun) hquiet hab hb
    have hexchanged := hperm.subset hm
    rcases List.mem_map.1 hexchanged with ⟨t, ht, rfl⟩
    rcases List.mem_filter.1 ht with ⟨htask, hchat⟩
    exact message_mem_summaries hes hrun hquiet htask (of_decide_eq_true hchat)
  rcases List.eq_nil_or_concat (s.summaries a b) with hnil | ⟨init, latest, hinit⟩
  · rcases List.exists_mem_of_ne_nil _ hlog with ⟨m, hm⟩
    have hmem := hwritten m hm
    simp [hnil] at hmem
  · rw [List.concat_eq_append] at hinit
    have hrecent : s.recentMessage a b = some latest := by
      rw [recentMessage_eq_last hreach, hinit, List.getLast?_concat]
    rcases upload_of_recentMessage hes hrun hrecent with ⟨i, t, hget, hlength, hbetween, rfl⟩
    rcases message_mem_logs hes hrun hget hlength with ⟨hown, hpeer⟩
    refine ⟨t.job.message, ?_, hrecent, ?_⟩
    · rcases hbetween with ⟨rfl, rfl⟩ | ⟨rfl, rfl⟩
      · exact hown
      · exact hpeer
    · intro m hm
      have hmem := hwritten m hm
      rw [hinit] at hmem hsorted
      rcases List.mem_append.1 hmem with hmem | hmem
      · exact (List.pairwise_append.1 hsorted).2.2 m hmem _ (List.mem_singleton_self _)
      · rw [List.mem_singleton.1 hmem]

/-- When nothing is in flight and every client's writes have been applied in the
order of issue, the two summaries of a chat agree exactly when the last two writes to
them belong to one upload; a summary whose writes have been applied in the order of
their timestamps holds a latest message of the log. -/
theorem last_writer_wins {es : List DeliveryEvent} {s : Delivery}
    (hes : ∀ e ∈ es, e.Succeeds) (hrun : run step initial es = some s) (hquiet : s.Quiet)
    (horder : s.InIssueOrder) {a b : Uid} (hab : a ≠ b) (hb : b ≠ "recent-messages") :
    (s.recentMessage a b = s.recentMessage b a ↔ LastTogether (s.pairWrites a b)) ∧
      ((s.summaries a b).Pairwise (fun m m' => m.sentAt ≤ m'.sentAt) →
        s.logMessages a b ≠ [] →
        ∃ latest ∈ s.logMessages a b, s.recentMessage a b = some latest ∧
          ∀ m ∈ s.logMessages a b, m.sentAt ≤ latest.sentAt) :=
  ⟨recentMessage_agree_iff hes hrun hquiet horder hab,
    fun hsorted hlog => recentMessage_latest hes hrun hquiet hab hb hsorted hlog⟩

/-- One upload after the other. -/
def successiveUploads : List DeliveryEvent :=
  singleUpload .committed .committed ++
    [.decideSummary 0 0 .committed, .decideSummary 0 0 .committed,
     .upload (.sample "bob" "alice" "hello" 2), .decide 1 .committed, .handle 1,
     .decide 1 .committed, .handle 1, .decideSummary 1 0 .committed,
     .decideSummary 1 0 .committed]

theorem last_writer_wins_successive :
    ∃ s, run step initial successiveUploads = some s ∧
      (s.recentMessage "alice" "bob" = s.recentMessage "bob" "alice" ↔
        LastTogether (s.pairWrites "alice" "bob")) ∧
      ((s.summaries "alice" "bob").Pairwise (fun m m' => m.sentAt ≤ m'.sentAt) →
        s.logMessages "alice" "bob" ≠ [] →
        ∃ latest ∈ s.logMessages "alice" "bob", s.recentMessage "alice" "bob" = some latest ∧
          ∀ m ∈ s.logMessages "alice" "bob", m.sentAt ≤ latest.sentAt) :=
  have hes : ∀ e ∈ successiveUploads, e.Succeeds := by decide
  ⟨_, run_final rfl, last_writer_wins hes (run_final rfl) (by decide) (by decide) (by decide)
    (by decide)⟩

/-- The summary writes of two uploads in opposite directions cross. -/
theorem not_agree_of_crossing_summaries :
    ∃ s, run step initial crossingUploads = some s ∧ (∀ e ∈ crossingUploads, e.Succeeds) ∧
      s.Quiet ∧ s.InIssueOrder ∧
      s.recentMessage "alice" "bob" ≠ s.recentMessage "bob" "alice" :=
  ⟨_, run_final rfl, by decide, by decide, by decide, by decide⟩

end Delivery

end WaffleChat
