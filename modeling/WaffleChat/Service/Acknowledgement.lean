import WaffleChat.Service.Delivery

/-!
# Acknowledgement and final state of an upload

What the caller of `uploadMessage` is told, and which of the two copies of a
message exist once its upload can take no further step, for every pattern of
rejected writes and every point at which the sender's process stops.

Main results:

- Theorem `ownCopy_iff` with `peerCopy_iff`: a copy is in its log exactly when
  its write was committed.
- Theorem `truthful_iff`: `true` is reported for a message that is missing from a
  log exactly when both writes have called back, one of them with an error.
- Theorem `settled_delivery`: the copies left by an upload whose first write was
  not rejected.
-/

namespace WaffleChat

open CallbackProgram EventSystem Gather Observers

namespace Delivery

/-! ## The two copies of a message -/

/-- The copy upload `i` has made for its sender. -/
def ownCopy (i : Nat) (t : UploadTask) : StoredDocument := ⟨.auto i 0, t.job.message⟩

/-- The copy upload `i` has made for its receiver. -/
def peerCopy (i : Nat) (t : UploadTask) : StoredDocument := ⟨.auto i 1, t.job.message⟩

/-- The message of upload `i` is in the log of its sender. -/
def OwnDelivered (s : Delivery) (i : Nat) (t : UploadTask) : Prop :=
  ownCopy i t ∈ s.store.documents (logPath t.job.currentUid t.job.peer)

/-- The message of upload `i` is in the log of its receiver. -/
def PeerDelivered (s : Delivery) (i : Nat) (t : UploadTask) : Prop :=
  peerCopy i t ∈ s.store.documents (logPath t.job.peer t.job.currentUid)

/-- An allocated document is in a log exactly when some upload has landed it. -/
theorem mem_documents_iff {s : Delivery} (hreach : Reachable step initial s)
    (owner peer : Uid) (i n : Nat) (data : Dictionary) :
    (⟨.auto i n, data⟩ : StoredDocument) ∈ s.store.documents (logPath owner peer) ↔
      ∃ t, s.tasks[i]? = some t ∧
        (⟨.auto i n, data⟩ : StoredDocument) ∈ landedDocuments owner peer i t := by
  have hallocated : (⟨.auto i n, data⟩ : StoredDocument) ∈
      s.store.documents (logPath owner peer) ↔
      (⟨.auto i n, data⟩ : StoredDocument) ∈ s.store.allocated (logPath owner peer) := by
    simp [Firestore.allocated, DocumentId.isAllocated]
  rw [hallocated, (allocated_perm hreach owner peer).mem_iff, mem_gather]
  constructor
  · rintro ⟨j, t, hget, hmem⟩
    have hij : j = i := by
      simp only [landedDocuments, List.mem_append] at hmem
      rcases hmem with hmem | hmem <;> split at hmem <;> simp at hmem
      · exact hmem.1.1.symm
      · exact hmem.1.1.symm
    subst hij
    exact ⟨t, hget, hmem⟩
  · rintro ⟨t, hget, hmem⟩
    exact ⟨i, t, hget, hmem⟩

/-- The sender has the message exactly when the first write was committed. -/
theorem ownCopy_iff {s : Delivery} (hreach : Reachable step initial s) {i : Nat}
    {t : UploadTask} (ht : s.tasks[i]? = some t) :
    OwnDelivered s i t ↔ LogCommitted 0 t := by
  unfold OwnDelivered ownCopy
  rw [mem_documents_iff hreach]
  simp [ht, landedDocuments, FromTo]

/-- The receiver has the message exactly when the second write was committed. -/
theorem peerCopy_iff {s : Delivery} (hreach : Reachable step initial s) {i : Nat}
    {t : UploadTask} (ht : s.tasks[i]? = some t) :
    PeerDelivered s i t ↔ LogCommitted 1 t := by
  unfold PeerDelivered peerCopy
  rw [mem_documents_iff hreach]
  simp [ht, landedDocuments, FromTo]

/-! ## What the caller is told -/

/-- The events the returned observable has delivered to a live subscriber. -/
def reported (t : UploadTask) : List (Event BackendError Bool) :=
  (feed CreateSink.on CreateSink.fresh (t.outputs Upload.program)).2

/-- What reaches `isMessageUploaded` when `newer` later sends of the same screen
have superseded the upload: the events pass `flatMapLatest` and
`asDriver(onErrorJustReturn: false)`. -/
def isMessageUploaded (newer : Nat) (t : UploadTask) : List (Event BackendError Bool) :=
  (feed (CatchSink.on false) CatchSink.fresh
    (feed (fun sink event => sink.inner 1 event)
      { SwitchSink.fresh.next with latest := 1 + newer } (reported t)).2).2

theorem reported_eq (t : UploadTask) :
    reported t = if 2 ≤ t.answers.length then [.next true] else [] := by
  unfold reported
  rw [feed_createSink, Task.outputs, Upload.outputs_eq]
  split <;> rfl

/-- The driver passes on what the observable reports, unless it is superseded. -/
theorem isMessageUploaded_eq (newer : Nat) (t : UploadTask) :
    isMessageUploaded newer t = if newer = 0 then reported t else [] := by
  unfold isMessageUploaded
  rw [reported_eq]
  by_cases hnewer : newer = 0
  · subst hnewer
    split <;> rfl
  · split <;> simp [SwitchSink.inner_of_ne, hnewer]

/-- `true` is delivered for the message of upload `i`, by the returned observable
or by the driver behind it, only if both logs have the message. -/
def Truthful (newer : Nat) (s : Delivery) (i : Nat) (t : UploadTask) : Prop :=
  .next true ∈ reported t ∨ .next true ∈ isMessageUploaded newer t →
    OwnDelivered s i t ∧ PeerDelivered s i t

instance (newer : Nat) (s : Delivery) (i : Nat) (t : UploadTask) :
    Decidable (Truthful newer s i t) :=
  inferInstanceAs (Decidable (_ → ownCopy i t ∈ _ ∧ peerCopy i t ∈ _))

/-- The upload is acknowledged truthfully unless both its log writes have called
back and one of them with an error. -/
theorem truthful_iff {s : Delivery} (hreach : Reachable step initial s) {i : Nat}
    {t : UploadTask} (ht : s.tasks[i]? = some t) (newer : Nat) :
    Truthful newer s i t ↔ ¬ (t.answers.length = 2 ∧ .rejected ∈ t.answers) := by
  have hstage := reachable_tasks hreach t (List.mem_of_getElem? ht)
  have hreports : .next true ∈ reported t ∨ .next true ∈ isMessageUploaded newer t ↔
      2 ≤ t.answers.length := by
    rw [isMessageUploaded_eq, reported_eq]
    by_cases hlength : 2 ≤ t.answers.length <;> simp [hlength]
  unfold Truthful
  rw [hreports, ownCopy_iff hreach ht, peerCopy_iff hreach ht]
  by_cases hlength : t.answers.length = 2
  · obtain ⟨r₀, r₁, hanswers⟩ := List.length_eq_two.1 hlength
    have harrived : t.arrived = none := by
      by_contra hne
      have := hstage.answers_le_of_arrived (Option.isSome_iff_ne_none.2 hne)
      omega
    simp only [LogCommitted, Task.outcomes, harrived, hanswers]
    cases r₀ <;> cases r₁ <;> decide
  · have hlt : ¬ 2 ≤ t.answers.length := by
      have := hstage.answers_le
      omega
    simp [hlength, hlt]

/-- A single upload whose two log writes are answered as given. -/
def singleUpload (own peer : WriteResult) : List DeliveryEvent :=
  [.upload (.sample "alice" "bob" "hi" 1), .decide 0 own, .handle 0, .decide 0 peer, .handle 0]

theorem truthful_iff_committed :
    ∃ s t, run step initial (singleUpload .committed .committed) = some s ∧
      s.tasks = [t] ∧
      (Truthful 0 s 0 t ↔ ¬ (t.answers.length = 2 ∧ .rejected ∈ t.answers)) :=
  ⟨_, _, run_final rfl, rfl, truthful_iff (reachable_final rfl) rfl 0⟩

/-- The own copy is rejected, the chain goes on and `true` is reported. -/
theorem not_truthful_of_first_rejected :
    ∃ s t, run step initial (singleUpload .rejected .committed) = some s ∧
      s.tasks = [t] ∧ ¬ Truthful 0 s 0 t :=
  ⟨_, _, run_final rfl, rfl, by decide⟩

/-! ## The final state of an upload -/

end Delivery

namespace DeliveryEvent

/-- The event is a step of upload `i`: a write of it is decided or a completion
handler of it runs. -/
def Advances (i : Nat) : DeliveryEvent → Prop
  | .decide j _ => j = i
  | .handle j => j = i
  | .decideSummary j _ _ => j = i
  | _ => False

end DeliveryEvent

namespace Delivery

/-- Upload `i` can take no further step. -/
def Settled (s : Delivery) (i : Nat) : Prop :=
  ∀ e : DeliveryEvent, e.Advances i → step s e = none

theorem settled_iff {s : Delivery} {i : Nat} {t : UploadTask}
    (ht : s.tasks[i]? = some t) :
    Settled s i ↔ t.undecided Upload.program = none ∧
      t.handle Upload.program = none ∧ t.outbox = [] := by
  constructor
  · intro h
    refine ⟨?_, ?_, ?_⟩
    · have hdecide := h (.decide i .committed) rfl
      simpa [step, ht, ← Option.eq_none_iff_forall_ne_some] using hdecide
    · have hhandle := h (.handle i) rfl
      simpa [step, ht, ← Option.eq_none_iff_forall_ne_some] using hhandle
    · have hflush := h (.decideSummary i 0 .committed) rfl
      simpa [step, ht, ← Option.eq_none_iff_forall_ne_some] using hflush
  · rintro ⟨hundecided, hhandle, houtbox⟩ e he
    cases e with
    | upload u => exact he.elim
    | decide j result => cases he; simp [step, ht, hundecided]
    | handle j => cases he; simp [step, ht, hhandle]
    | decideSummary j k result => cases he; simp [step, ht, houtbox]
    | stop j => exact he.elim

/-- Both participants have the message of upload `i`, or neither has. -/
def AllOrNothing (s : Delivery) (i : Nat) (t : UploadTask) : Prop :=
  OwnDelivered s i t ↔ PeerDelivered s i t

instance (s : Delivery) (i : Nat) (t : UploadTask) : Decidable (AllOrNothing s i t) :=
  inferInstanceAs (Decidable (ownCopy i t ∈ _ ↔ peerCopy i t ∈ _))

/-- A settled upload either has had both its log writes handled, or holds the
answer of a log write whose handler will never run. -/
theorem outcomes_of_settled {s : Delivery} (hreach : Reachable step initial s) {i : Nat}
    {t : UploadTask} (ht : s.tasks[i]? = some t) (hsettled : Settled s i) :
    (∃ r₀, t.answers = [] ∧ t.outcomes = [r₀]) ∨
      (∃ r₀ r₁, t.answers ≠ [] ∧ t.outcomes = [r₀, r₁]) := by
  rcases (settled_iff ht).1 hsettled with ⟨hundecided, -, -⟩
  have hstage := reachable_tasks hreach t (List.mem_of_getElem? ht)
  cases harrived : t.arrived with
  | none =>
      have hawaiting : (t.current Upload.program).awaiting = none := by
        simpa [Task.undecided, harrived] using hundecided
      have hle := hstage.answers_le
      rw [Task.current, Upload.awaiting_after] at hawaiting
      rcases hanswers : t.answers with _ | ⟨r₀, _ | ⟨r₁, rest⟩⟩
      · simp [hanswers] at hawaiting
      · simp [hanswers] at hawaiting
      · have hrest : rest = [] := by simpa [hanswers] using hle
        exact Or.inr ⟨r₀, r₁, by simp, by simp [Task.outcomes, harrived, hanswers, hrest]⟩
  | some r =>
      have hle := hstage.answers_le_of_arrived (by simp [harrived])
      rcases hanswers : t.answers with _ | ⟨r₀, rest⟩
      · exact Or.inl ⟨r, rfl, by simp [Task.outcomes, harrived, hanswers]⟩
      · have hrest : rest = [] := by simpa [hanswers] using hle
        exact Or.inr ⟨r₀, r, by simp, by simp [Task.outcomes, harrived, hanswers, hrest]⟩

/-- A settled upload whose first write was not rejected has made the sender's
copy.  The receiver's copy exists as well exactly when the process lived to issue
the second write and that write was not rejected. -/
theorem settled_delivery {s : Delivery} (hreach : Reachable step initial s) {i : Nat}
    {t : UploadTask} (ht : s.tasks[i]? = some t) (hsettled : Settled s i)
    (hfirst : t.outcomes[0]? ≠ some .rejected) :
    OwnDelivered s i t ∧
      (AllOrNothing s i t ↔ t.answers ≠ [] ∧ t.outcomes[1]? ≠ some .rejected) := by
  unfold AllOrNothing
  rw [ownCopy_iff hreach ht, peerCopy_iff hreach ht]
  unfold LogCommitted
  rcases outcomes_of_settled hreach ht hsettled with
    ⟨r₀, hanswers, houtcomes⟩ | ⟨r₀, r₁, hanswers, houtcomes⟩
  · cases r₀ with
    | rejected => simp [houtcomes] at hfirst
    | committed => simp [houtcomes, hanswers]
  · cases r₀ with
    | rejected => simp [houtcomes] at hfirst
    | committed => cases r₁ <;> simp [houtcomes, hanswers]

/-- A single upload all of whose writes are decided. -/
def settledUpload : List DeliveryEvent :=
  singleUpload .committed .committed ++
    [.decideSummary 0 0 .committed, .decideSummary 0 0 .committed]

theorem settled_delivery_settledUpload :
    ∃ s t, run step initial settledUpload = some s ∧ s.tasks = [t] ∧
      OwnDelivered s 0 t ∧
      (AllOrNothing s 0 t ↔ t.answers ≠ [] ∧ t.outcomes[1]? ≠ some .rejected) :=
  ⟨_, _, run_final rfl, rfl, settled_delivery (reachable_final rfl) rfl
    ((settled_iff rfl).2 ⟨rfl, rfl, rfl⟩) (by decide)⟩

/-- A single upload whose process stops before the handler of its first write. -/
def stoppedUpload : List DeliveryEvent :=
  [.upload (.sample "alice" "bob" "hi" 1), .decide 0 .committed, .stop 0]

/-- The sender keeps a message the receiver never gets. -/
theorem not_allOrNothing_of_stopped :
    ∃ s t, run step initial stoppedUpload = some s ∧ s.tasks = [t] ∧
      Settled s 0 ∧ ¬ AllOrNothing s 0 t :=
  ⟨_, _, run_final rfl, rfl, (settled_iff rfl).2 ⟨rfl, rfl, rfl⟩, by decide⟩

end Delivery

end WaffleChat
