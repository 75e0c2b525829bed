import WaffleChat.Service.Delivery

/-!
# The message logs

What `messages/<u>/<p>` contains while any number of uploads run: the messages
sent from `u` to `p` whose first write has landed, those sent from `p` to `u`
whose second write has landed, and nothing else.

Main results:

- Theorem `logs_perm`: the content of a log under any pattern of rejected writes
  and stopped processes.
- Theorem `log_holds_landed_messages`: the content of a log when all writes
  succeed, and the agreement of the two logs of a chat once nothing is in flight.
-/

namespace WaffleChat

open CallbackProgram EventSystem Gather

namespace Delivery

/-- The log write at position `n` of the chain has landed. -/
abbrev LogLanded (n : Nat) (t : UploadTask) : Prop :=
  n < t.outcomes.length

/-- Messages sent from `u` to `p` by the uploads that satisfy `q`. -/
def sentMessages (s : Delivery) (u p : Uid) (q : UploadTask → Prop) [DecidablePred q] :
    List Dictionary :=
  (s.tasks.filter fun t => FromTo u p t ∧ q t).map fun t => t.job.message

/-- All messages exchanged by `u` and `p`, in either direction. -/
def exchangedMessages (s : Delivery) (u p : Uid) : List Dictionary :=
  (s.tasks.filter fun t => FromTo u p t ∨ FromTo p u t).map
    fun t => t.job.message

/-- The data of the documents in a log. -/
def logMessages (s : Delivery) (u p : Uid) : List Dictionary :=
  (s.store.documents (logPath u p)).map StoredDocument.data

/-- A log holds the committed first copies of what was sent and the committed
second copies of what was received. -/
theorem logs_perm {s : Delivery} (hreach : Reachable step initial s) {u p : Uid}
    (hp : p ≠ "recent-messages") :
    (s.logMessages u p).Perm
      (s.sentMessages u p (LogCommitted 0) ++ s.sentMessages p u (LogCommitted 1)) := by
  have hdocs := (allocated_perm hreach u p).map StoredDocument.data
  rw [← documents_logPath hreach hp, map_gather] at hdocs
  have hsplit : gather (fun i t => (landedDocuments u p i t).map StoredDocument.data) s.tasks =
      gather (fun _ t =>
        (if FromTo u p t ∧ LogCommitted 0 t then [t.job.message] else []) ++
        (if FromTo p u t ∧ LogCommitted 1 t then [t.job.message] else [])) s.tasks := by
    congr 1
    funext i t
    unfold landedDocuments
    rw [List.map_append]
    congr 1 <;> split <;> rfl
  rw [hsplit] at hdocs
  refine hdocs.trans ((gather_append_perm _ _ _).trans ?_)
  rw [gather_ite, gather_ite]
  exact List.Perm.refl _

/-- When all writes succeed, a landed write is a committed one. -/
theorem sentMessages_committed_eq {s : Delivery} (hs : ∀ t ∈ s.tasks, Unharmed t)
    (u p : Uid) (n : Nat) :
    s.sentMessages u p (LogCommitted n) = s.sentMessages u p (LogLanded n) := by
  unfold sentMessages
  congr 1
  apply List.filter_congr
  intro t ht
  simp only [LogCommitted, LogLanded, (hs t ht).getElem?_iff]

/-- In a quiet state both log writes of every upload have landed. -/
theorem sentMessages_of_quiet {s : Delivery} (hreach : Reachable step initial s)
    (hquiet : s.Quiet) (u p : Uid) {n : Nat} (hn : n < 2) :
    s.sentMessages u p (LogLanded n) =
      (s.tasks.filter fun t => FromTo u p t).map fun t => t.job.message := by
  unfold sentMessages
  congr 1
  apply List.filter_congr
  intro t ht
  have hlength := (reachable_tasks hreach t ht).length_of_quiet (hquiet t ht)
  have hlanded : LogLanded n t := by
    simp only [LogLanded, Task.outcomes, List.length_append]
    omega
  simp [hlanded]

/-- The two directions of a chat with another user make up the whole chat. -/
theorem exchangedMessages_perm (s : Delivery) {u p : Uid} (hup : u ≠ p) :
    (s.exchangedMessages u p).Perm
      (((s.tasks.filter fun t => FromTo u p t).map fun t => t.job.message) ++
        (s.tasks.filter fun t => FromTo p u t).map fun t => t.job.message) := by
  unfold exchangedMessages
  rw [← List.map_append]
  exact (filter_or_perm (fun t hsent hreceived =>
    hup (hsent.1.symm.trans hreceived.1)) s.tasks).map _

/-- With all writes succeeding a log holds what has landed in it. -/
theorem landed_perm {s : Delivery} (hreach : Reachable step initial s)
    (hs : ∀ t ∈ s.tasks, Unharmed t) {u p : Uid} (hp : p ≠ "recent-messages") :
    (s.logMessages u p).Perm
      (s.sentMessages u p (LogLanded 0) ++ s.sentMessages p u (LogLanded 1)) := by
  have hperm := logs_perm hreach (u := u) hp
  rwa [sentMessages_committed_eq hs, sentMessages_committed_eq hs] at hperm

/-- Once nothing is in flight a log holds exactly the exchanged messages. -/
theorem exchanged_perm {s : Delivery} (hreach : Reachable step initial s)
    (hs : ∀ t ∈ s.tasks, Unharmed t) (hquiet : s.Quiet) {u p : Uid} (hup : u ≠ p)
    (hp : p ≠ "recent-messages") : (s.logMessages u p).Perm (s.exchangedMessages u p) := by
  refine (landed_perm hreach hs hp).trans ?_
  rw [sentMessages_of_quiet hreach hquiet u p (by omega),
    sentMessages_of_quiet hreach hquiet p u (by omega)]
  exact (exchangedMessages_perm s hup).symm

theorem exchangedMessages_comm (s : Delivery) (u p : Uid) :
    s.exchangedMessages p u = s.exchangedMessages u p := by
  unfold exchangedMessages
  simp only [or_comm]

/-- With all writes succeeding, `messages/u/p` contains exactly once each message
sent from `u` to `p` whose first write has landed and each message sent from `p`
to `u` whose second write has landed, and nothing else.  Once nothing is in
flight, both logs of the chat contain exactly the exchanged messages. -/
theorem log_holds_landed_messages {es : List DeliveryEvent} {s : Delivery}
    (hes : ∀ e ∈ es, e.Succeeds) (hrun : run step initial es = some s) {u p : Uid}
    (hup : u ≠ p) (hu : u ≠ "recent-messages") (hp : p ≠ "recent-messages") :
    (s.logMessages u p).Perm
        (s.sentMessages u p (LogLanded 0) ++ s.sentMessages p u (LogLanded 1)) ∧
      (s.Quiet → (s.logMessages u p).Perm (s.logMessages p u) ∧
        (s.logMessages u p).Perm (s.exchangedMessages u p)) := by
  have hreach : Reachable step initial s := ⟨es, hrun⟩
  have hunharmed := unharmed_of_succeeds hes hrun
  refine ⟨landed_perm hreach hunharmed hp, ?_⟩
  intro hquiet
  have hhere := exchanged_perm hreach hunharmed hquiet hup hp
  have hthere := exchanged_perm hreach hunharmed hquiet hup.symm hu
  rw [exchangedMessages_comm] at hthere
  exact ⟨hhere.trans hthere.symm, hhere⟩

/-- Two uploads in opposite directions, the second overtaking the first. -/
def crossingUploads : List DeliveryEvent :=
  [.upload (.sample "alice" "bob" "ping" 1), .upload (.sample "bob" "alice" "pong" 2),
   .decide 0 .committed, .decide 1 .committed, .handle 1, .decide 1 .committed, .handle 1,
   .handle 0, .decide 0 .committed, .handle 0,
   .decideSummary 0 0 .committed, .decideSummary 1 0 .committed,
   .decideSummary 0 0 .committed, .decideSummary 1 0 .committed]

theorem log_holds_landed_messages_crossing :
    ∃ s, run step initial crossingUploads = some s ∧
      (s.logMessages "alice" "bob").Perm
        (s.sentMessages "alice" "bob" (LogLanded 0) ++
          s.sentMessages "bob" "alice" (LogLanded 1)) ∧
      (s.Quiet → (s.logMessages "alice" "bob").Perm (s.logMessages "bob" "alice") ∧
        (s.logMessages "alice" "bob").Perm (s.exchangedMessages "alice" "bob")) :=
  have hes : ∀ e ∈ crossingUploads, e.Succeeds := by decide
  ⟨_, run_final rfl, log_holds_landed_messages hes (run_final rfl) (by decide) (by decide)
    (by decide)⟩

end Delivery

end WaffleChat
