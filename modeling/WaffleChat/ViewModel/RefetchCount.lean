import WaffleChat.ViewModel.FriendSearch

/-!
# The refetches of the friend list

The refetch pipeline is triggered by the cancel button and by
`combineLatest(refreshPulled, onSearching)` behind `filter { !$1 }`.  The combination
remembers the last pull, so every element of `onSearching` repeats it, and an empty
search text is such an element.

Main results:

- Theorem `refetchCount_step`: the refetches one event starts.
- Theorem `refetchCount_iff`: in which runs there is one refetch for each request.
-/

namespace WaffleChat

open EventSystem Observers

namespace NewMessage

/-- The fetches the refetch pipeline has started. -/
def refetchCount (s : NewMessage) : Nat :=
  s.fetches.countP fun fetch => fetch.pipeline.isRefetch

/-- The event asks for a refetch: a pull outside search, or a cancel. -/
def requested (s : NewMessage) (e : NewMessageEvent) : List NewMessageEvent :=
  if e = .cancel ∨ (e = .pull ∧ s.onSearching = false) then [e] else []

/-- Neither the refetch nor the reload pipeline has ended. -/
structure Running (s : NewMessage) : Prop where
  caught : s.caught.disposed = false
  reloadedUsers : s.reloadedUsers.disposed = false

/-- At first both pipelines run. -/
theorem running_initial : initial.Running :=
  ⟨rfl, rfl⟩

/-! ## One trigger -/

/-- A refetch counts. -/
theorem refetchCount_refetch {s : NewMessage} (h : s.caught.disposed = false) :
    s.refetch.refetchCount = s.refetchCount + 1 := by
  simp [refetch, h, refetchCount, Pipeline.isRefetch]

/-- A refetch ends no pipeline. -/
theorem Running.refetch {s : NewMessage} (h : s.Running) : s.refetch.Running := by
  unfold NewMessage.refetch
  split
  · exact h
  · exact ⟨h.caught, h.reloadedUsers⟩

/-- An element of `onSearching` repeats a pull that is remembered. -/
theorem refetchCount_acceptSearching {s : NewMessage} (h : s.caught.disposed = false)
    (searching : Bool) :
    (s.acceptSearching searching).refetchCount =
      s.refetchCount + if s.refreshPulled && !searching then 1 else 0 := by
  unfold acceptSearching
  simp only
  split
  · exact refetchCount_refetch h
  · rfl

/-- An element of `onSearching` ends no pipeline. -/
theorem Running.acceptSearching {s : NewMessage} (h : s.Running) (searching : Bool) :
    (s.acceptSearching searching).Running := by
  have hset : Running { s with onSearching := searching } := ⟨h.caught, h.reloadedUsers⟩
  unfold NewMessage.acceptSearching
  simp only
  split
  · exact hset.refetch
  · exact hset

/-- A retry of the initial fetch does not count. -/
theorem refetchCount_retry (s : NewMessage) : s.retry.refetchCount = s.refetchCount := by
  rw [retry_eq]
  split
  · simp [refetchCount, Pipeline.isRefetch]
  · rfl

/-- A retry ends no pipeline. -/
theorem Running.retry {s : NewMessage} (h : s.Running) : s.retry.Running := by
  rw [retry_eq]
  split
  · exact ⟨h.caught, h.reloadedUsers⟩
  · exact h

/-- A pull starts a refetch outside search. -/
theorem refetchCount_pulled {s : NewMessage} (h : s.Running) :
    s.pulled.Running ∧
      s.pulled.refetchCount = s.refetchCount + if s.onSearching = false then 1 else 0 := by
  have hspinning : Running { s with spinner := true } := ⟨h.caught, h.reloadedUsers⟩
  have hpulled : Running { { s with spinner := true }.retry with refreshPulled := true } :=
    ⟨hspinning.retry.caught, hspinning.retry.reloadedUsers⟩
  have hsame : ({ { s with spinner := true }.retry with refreshPulled := true } :
      NewMessage).refetchCount = s.refetchCount := refetchCount_retry { s with spinner := true }
  have hgate : ∀ (p : NewMessage) (searching : Bool), p.Running →
      (if searching then p else p.refetch).Running ∧
        (if searching then p else p.refetch).refetchCount =
          p.refetchCount + if searching = false then 1 else 0 := by
    intro p searching hp
    cases searching with
    | true => exact ⟨hp, rfl⟩
    | false => exact ⟨hp.refetch, refetchCount_refetch hp.caught⟩
  rcases hgate _ s.onSearching hpulled with ⟨hrunning, hcount⟩
  exact ⟨hrunning, hcount.trans (congrArg (· + _) hsame)⟩

section Search

variable (lowercased : String → String) (contains : String → String → Bool)

/-! ## One search text -/

/-- No refetch has been started since `s`, no pull made, and no pipeline has ended. -/
structure NoRefetch (s s' : NewMessage) : Prop where
  running : s'.Running
  refetchCount_eq : s'.refetchCount = s.refetchCount
  refreshPulled_eq : s'.refreshPulled = s.refreshPulled

/-- A search starts no refetch. -/
theorem noRefetch_search {s : NewMessage} (h : s.Running) (text : String) (base : List User) :
    NoRefetch s (s.search lowercased contains text base) := by
  unfold search
  split
  · exact ⟨h, rfl, rfl⟩
  · have htrue : s.acceptSearching true = { s with onSearching := true } := by
      simp [acceptSearching]
    rw [htrue]
    exact ⟨⟨h.caught, h.reloadedUsers⟩, rfl, rfl⟩

/-- An optional effect starts no refetch if none of its values does. -/
theorem noRefetch_elim {α : Type} {s t : NewMessage} (o : Option α) {f : α → NewMessage}
    (h : NoRefetch s t) (hf : ∀ a, NoRefetch s (f a)) : NoRefetch s (o.elim t f) := by
  cases o with
  | none => exact h
  | some a => exact hf a

/-- An empty text repeats the last pull. -/
theorem refetchCount_reload {s : NewMessage} (h : s.Running) (text : String) :
    (s.reload text).Running ∧
      (s.reload text).refetchCount =
        s.refetchCount + if s.refreshPulled = true ∧ text = "" then 1 else 0 := by
  by_cases htext : text = ""
  · have haccepted := h.acceptSearching false
    have hcount := refetchCount_acceptSearching h.caught false
    subst htext
    simp only [reload, ne_eq, not_true_eq_false, decide_false, Bool.false_or, h.reloadedUsers,
      Bool.false_eq_true, if_false]
    refine ⟨⟨haccepted.caught, haccepted.reloadedUsers⟩, ?_⟩
    simpa [refetchCount, Pipeline.isRefetch] using hcount
  · simp [reload, htext, h]

/-- An empty text that takes effect repeats the last pull. -/
theorem refetchCount_emitText {s : NewMessage} (h : s.Running) (text : String) :
    (s.emitText lowercased contains text).Running ∧
      (s.emitText lowercased contains text).refetchCount =
        s.refetchCount + if s.refreshPulled = true ∧ text = "" then 1 else 0 := by
  have hset : Running { s with inputText := some text } := ⟨h.caught, h.reloadedUsers⟩
  rcases noRefetch_elim s.baseUsersForFiltering (NoRefetch.mk hset rfl rfl) fun base =>
    noRefetch_search lowercased contains hset text base with ⟨hrunning, hcount, hpulled⟩
  have hreload := refetchCount_reload hrunning text
  rw [hcount, hpulled] at hreload
  exact hreload

/-! ## One event -/

/-- An empty search text that takes effect after a pull. -/
def repeated (s : NewMessage) (e : NewMessageEvent) : List NewMessageEvent :=
  if s.refreshPulled = true ∧ s.emits lowercased e = some "" then [e] else []

/-- An event repeats one pull or none. -/
theorem length_repeated (s : NewMessage) (e : NewMessageEvent) :
    (s.repeated lowercased e).length =
      if s.refreshPulled = true ∧ s.emits lowercased e = some "" then 1 else 0 := by
  unfold repeated
  split <;> rfl

/-- It repeats none unless an empty text takes effect after a pull. -/
theorem repeated_eq_nil {s : NewMessage} {e : NewMessageEvent} :
    s.repeated lowercased e = [] ↔
      ¬(s.refreshPulled = true ∧ s.emits lowercased e = some "") := by
  simp only [repeated, ite_eq_right_iff, List.cons_ne_nil, imp_false]

/-- An element of `inputText` that is on its way, or none. -/
theorem refetchCount_elim {s : NewMessage} (h : s.Running) (s' : NewMessage)
    (hcaught : s'.caught = s.caught) (hreloaded : s'.reloadedUsers = s.reloadedUsers)
    (hfetches : s'.fetches = s.fetches) (hpulled : s'.refreshPulled = s.refreshPulled)
    (o : Option String) :
    (o.elim s' fun key => s'.emitText lowercased contains (lowercased key)).Running ∧
      (o.elim s' fun key => s'.emitText lowercased contains (lowercased key)).refetchCount =
        s.refetchCount +
          if s.refreshPulled = true ∧ o.map lowercased = some "" then 1 else 0 := by
  have hrunning : s'.Running := ⟨by rw [hcaught, h.caught], by rw [hreloaded, h.reloadedUsers]⟩
  have hsame : s'.refetchCount = s.refetchCount := by rw [refetchCount, hfetches, refetchCount]
  cases o with
  | none => exact ⟨hrunning, by simpa using hsame⟩
  | some key =>
      have hemit := refetchCount_emitText lowercased contains hrunning (lowercased key)
      rw [hsame, hpulled] at hemit
      simpa using hemit

/-- Answering a fetch starts none. -/
theorem refetchCount_answered {s : NewMessage} {i : Nat} {pipeline : Pipeline}
    (hget : s.fetches[i]? = some ⟨pipeline, none⟩) (answer : UsersAnswer) :
    (s.answered i pipeline answer).refetchCount = s.refetchCount := by
  rw [refetchCount, refetchCount, answered, fetches_set_around hget, List.countP_append,
    List.countP_cons]
  conv_rhs => rw [fetches_around hget, List.countP_append, List.countP_cons]

/-- The answer to a fetch that succeeds ends no pipeline and starts no refetch. -/
theorem noRefetch_responded {s s' : NewMessage} (h : s.Running) {answer : UsersAnswer}
    (hsucceeds : answer.error = none) {pipeline : Pipeline}
    (hresponded : Responded lowercased contains s answer pipeline s') : NoRefetch s s' := by
  cases hresponded with
  | unheard a b => exact ⟨⟨h.caught, h.reloadedUsers⟩, rfl, rfl⟩
  | fetched =>
      have hset : Running
          { s with
            fetchedUsers := ⟨false, true⟩
            users := answer.users
            baseUsersForFiltering := some answer.users } := ⟨h.caught, h.reloadedUsers⟩
      rcases noRefetch_elim s.inputText (NoRefetch.mk hset rfl rfl) fun text =>
        noRefetch_search lowercased contains hset text answer.users with
        ⟨hrunning, hcount, hpulled⟩
      exact ⟨hrunning, hcount, hpulled⟩
  | fetchFailed e herror =>
      rw [hsucceeds] at herror
      cases herror
  | reFetched inner => exact ⟨⟨h.caught, h.reloadedUsers⟩, rfl, rfl⟩
  | reFetchFailed inner hlistens e herror =>
      rw [hsucceeds] at herror
      cases herror
  | reloaded inner => exact ⟨⟨h.caught, h.reloadedUsers⟩, rfl, rfl⟩
  | reloadFailed inner hlistens e herror =>
      rw [hsucceeds] at herror
      cases herror

/-- One event starts a refetch for its request and repeats one for an empty text. -/
theorem refetchCount_step {s s' : NewMessage} {e : NewMessageEvent} (hsound : s.Sound)
    (h : s.Running) (hsucceeds : e.Succeeds) (hstep : s.step lowercased contains e = some s') :
    s'.Running ∧
      s'.refetchCount =
        s.refetchCount + ((s.requested e).length + (s.repeated lowercased e).length) := by
  cases e with
  | textChanged key elapsed =>
      obtain rfl : s.textChanged lowercased contains key elapsed = s' := Option.some.inj hstep
      have hunasked : (s.requested (.textChanged key elapsed)).length = 0 := by simp [requested]
      rw [hunasked, Nat.zero_add, length_repeated]
      by_cases hkey : s.filterKey = some key
      · simpa [textChanged, emits, hkey] using h
      · simp only [textChanged, emits, hkey, if_false]
        exact refetchCount_elim lowercased contains h
          { s with filterKey := some key, throttle := (s.throttle.on elapsed key).1 }
          rfl rfl rfl rfl _
  | throttleFires =>
      obtain rfl : s.throttleFires lowercased contains = s' := Option.some.inj hstep
      have hunasked : (s.requested .throttleFires).length = 0 := by simp [requested]
      rw [hunasked, Nat.zero_add, length_repeated]
      exact refetchCount_elim lowercased contains h
        { s with throttle := s.throttle.propagate.1 } rfl rfl rfl rfl _
  | pull =>
      obtain rfl : s.pulled = s' := Option.some.inj hstep
      have hpulled := refetchCount_pulled h
      refine ⟨hpulled.1, hpulled.2.trans ?_⟩
      by_cases hsearching : s.onSearching = false <;>
        simp [requested, length_repeated, emits, hsearching]
  | cancel =>
      obtain rfl : s.refetch = s' := Option.some.inj hstep
      refine ⟨h.refetch, (refetchCount_refetch h.caught).trans ?_⟩
      simp [requested, length_repeated, emits]
  | respond i answer =>
      rcases respond_cases lowercased contains hsound hstep with ⟨pipeline, hget, hresponded⟩
      have hanswered : (s.answered i pipeline answer).Running := ⟨h.caught, h.reloadedUsers⟩
      have hsame := refetchCount_answered hget answer
      have hnone := noRefetch_responded lowercased contains hanswered hsucceeds hresponded
      refine ⟨hnone.running, hnone.refetchCount_eq.trans (hsame.trans ?_)⟩
      simp [requested, length_repeated, emits]

/-- The refetches of a run: one for each request, and the repeated ones. -/
theorem refetchCount_run {es : List NewMessageEvent} {s s' : NewMessage} (hsound : s.Sound)
    (h : s.Running) (hes : ∀ e ∈ es, e.Succeeds)
    (hrun : run (step lowercased contains) s es = some s') :
    s'.refetchCount =
      s.refetchCount +
        ((trace (step lowercased contains) requested s es).length +
          (trace (step lowercased contains) (repeated lowercased) s es).length) := by
  induction es generalizing s with
  | nil =>
      obtain rfl : s = s' := Option.some.inj hrun
      rfl
  | cons e es ih =>
      rcases run_cons_eq_some.1 hrun with ⟨t, ht, htail⟩
      rcases refetchCount_step lowercased contains hsound h (hes e List.mem_cons_self) ht with
        ⟨hrunning, hcount⟩
      have hrest := ih (sound_step lowercased contains hsound ht) hrunning
        (fun f hf => hes f (List.mem_cons_of_mem e hf)) htail
      simp only [trace, ht, Option.elim_some, List.length_append]
      omega

/-- **The refetches.**  In a run whose fetches all succeed there is one refetch for each
request exactly when no empty search text takes effect after a pull. -/
theorem refetchCount_iff {es : List NewMessageEvent} {s : NewMessage}
    (hes : ∀ e ∈ es, e.Succeeds)
    (hrun : run (step lowercased contains) initial es = some s) :
    s.refetchCount = (trace (step lowercased contains) requested initial es).length ↔
      StepsMeet (step lowercased contains)
        (fun s e => ¬(s.refreshPulled = true ∧ s.emits lowercased e = some "")) initial es := by
  have hcount := refetchCount_run lowercased contains sound_initial running_initial hes hrun
  have hstart : initial.refetchCount = 0 := rfl
  have hnone : trace (step lowercased contains) (repeated lowercased) initial es = [] ↔
      StepsMeet (step lowercased contains)
        (fun s e => ¬(s.refreshPulled = true ∧ s.emits lowercased e = some "")) initial es := by
    have htrace : trace (step lowercased contains) (repeated lowercased) initial es = [] ↔
        StepsMeet (step lowercased contains) (fun s e => s.repeated lowercased e = []) initial es :=
      trace_eq_nil_iff hrun
    simpa only [repeated_eq_nil] using htrace
  rw [← hnone, ← List.length_eq_zero_iff]
  omega

end Search

/-- A pull, a search, and the cancel button while the search text is there. -/
def pulledAndCancelled : List NewMessageEvent :=
  [.textChanged "" true, .respond 0 (.sample ["alice"]), .respond 1 (.sample ["alice"]), .pull,
   .respond 2 (.sample ["alice", "bob"]), .textChanged "a" true, .cancel]

/-- One refetch for the pull and one for the cancel button. -/
theorem refetchCount_iff_pulledAndCancelled :
    (final (step id (· == ·)) initial pulledAndCancelled).refetchCount = 2 :=
  (refetchCount_iff id (· == ·) (by decide) (run_final rfl)).2 (by decide)

/-- A pull, and a search text that is entered and cleared again. -/
def searchedAndCleared : List NewMessageEvent :=
  [.textChanged "" true, .respond 0 (.sample ["alice"]), .respond 1 (.sample ["alice"]), .pull,
   .respond 2 (.sample ["alice", "bob"]), .textChanged "a" true, .textChanged "" true]

/-- There are two refetches for the one pull. -/
theorem refetchCount_of_searchedAndCleared :
    ∃ s, run (step id (· == ·)) initial searchedAndCleared = some s ∧
      (∀ e ∈ searchedAndCleared, e.Succeeds) ∧ s.refetchCount = 2 ∧
      trace (step id (· == ·)) requested initial searchedAndCleared = [.pull] := by
  exact ⟨_, run_final rfl, by decide, by decide, by decide⟩

end NewMessage

end WaffleChat
