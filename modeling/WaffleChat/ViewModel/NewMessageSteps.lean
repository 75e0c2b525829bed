import WaffleChat.ViewModel.NewMessage

/-!
# The steps of the friend list screen

Everything one event can do.  An event is either the response to a fetch, or it writes
what it writes at once and starts fetches.

Main results:

- Theorem `starts_emitText`: an element of `inputText` writes the narrowed list and
  starts fetches.
- Theorem `step_cases`: everything one event can do.
-/

namespace WaffleChat

open EventSystem Observers

/-! ## The fetch that is answered -/

/-- The fetches before and after the one that is answered. -/
theorem fetches_around {fetches : List Fetch} {i : Nat} {fetch : Fetch}
    (hget : fetches[i]? = some fetch) :
    fetches = fetches.take i ++ fetch :: fetches.drop (i + 1) := by
  rcases List.getElem?_eq_some_iff.1 hget with ⟨hlt, hi⟩
  rw [← hi, List.getElem_cons_drop, List.take_append_drop]

/-- The answer leaves the fetches before and after it alone. -/
theorem fetches_set_around {fetches : List Fetch} {i : Nat} {fetch : Fetch}
    (hget : fetches[i]? = some fetch) (answered : Fetch) :
    fetches.set i answered = fetches.take i ++ answered :: fetches.drop (i + 1) := by
  rcases List.getElem?_eq_some_iff.1 hget with ⟨hlt, -⟩
  rw [List.set_eq_take_append_cons_drop, if_pos hlt]

namespace NewMessage

/-- Fetches of other sequences stay as they are. -/
theorem mem_answered_of_ne {s : NewMessage} {i : Nat} {pipeline q : Pipeline}
    {answer : UsersAnswer} (hget : s.fetches[i]? = some ⟨pipeline, none⟩) (hne : q ≠ pipeline)
    (hmem : Fetch.mk q none ∈ s.fetches) :
    Fetch.mk q none ∈ (s.answered i pipeline answer).fetches := by
  have hcount := count_answered hget answer q
  rw [if_neg (Ne.symm hne), Nat.sub_zero] at hcount
  rw [← List.count_pos_iff, hcount]
  exact List.count_pos_iff.2 hmem

/-! ## Starting fetches -/

/-- From `s` to `s'` nothing but fetches, the spinner they turn on and the search flag:
the new fetches come after the old ones, and a spinner that was off is on only if one of
them is a refetch. -/
structure Starts (s s' : NewMessage) : Prop where
  users_eq : s'.users = s.users
  base_eq : s'.baseUsersForFiltering = s.baseUsersForFiltering
  inputText_eq : s'.inputText = s.inputText
  bindingErrors_eq : s'.bindingErrors = s.bindingErrors
  fetches : ∃ new : List Pipeline,
    s'.fetches = s.fetches ++ new.map (Fetch.mk · none) ∧
      (s'.spinner = true → s.spinner = true ∨ ∃ pipeline ∈ new, pipeline.isRefetch = true)

/-- Nothing needs to be started. -/
theorem Starts.refl (s : NewMessage) : Starts s s :=
  ⟨rfl, rfl, rfl, rfl, [], by simp⟩

/-- What is started first and what is started then are started together. -/
theorem Starts.trans {s t u : NewMessage} (hst : Starts s t) (htu : Starts t u) :
    Starts s u := by
  rcases hst.fetches with ⟨first, hfirst, hspin⟩
  rcases htu.fetches with ⟨last, hlast, hspin'⟩
  refine ⟨htu.users_eq.trans hst.users_eq, htu.base_eq.trans hst.base_eq,
    htu.inputText_eq.trans hst.inputText_eq, htu.bindingErrors_eq.trans hst.bindingErrors_eq,
    first ++ last, ?_, ?_⟩
  · rw [hlast, hfirst, List.map_append, List.append_assoc]
  · intro hspinning
    rcases hspin' hspinning with hmiddle | ⟨pipeline, hmem, hrefetch⟩
    · rcases hspin hmiddle with hstart | ⟨pipeline, hmem, hrefetch⟩
      · exact Or.inl hstart
      · exact Or.inr ⟨pipeline, List.mem_append_left last hmem, hrefetch⟩
    · exact Or.inr ⟨pipeline, List.mem_append_right first hmem, hrefetch⟩

/-- A refetch starts a fetch at most. -/
theorem starts_refetch (s : NewMessage) : Starts s s.refetch := by
  unfold refetch
  split
  · exact Starts.refl s
  · exact ⟨rfl, rfl, rfl, rfl, [.reFetchedUsers (s.reFetchedUsers.latest + 1)], rfl,
      fun _ => Or.inr ⟨_, List.mem_singleton_self _, rfl⟩⟩

/-- An element of `onSearching` does. -/
theorem starts_acceptSearching (s : NewMessage) (searching : Bool) :
    Starts s (s.acceptSearching searching) := by
  have hset : Starts s { s with onSearching := searching } :=
    ⟨rfl, rfl, rfl, rfl, [], by simp⟩
  unfold acceptSearching
  simp only
  split
  · exact hset.trans (starts_refetch _)
  · exact hset

/-- A retry does. -/
theorem starts_retry (s : NewMessage) : Starts s s.retry := by
  rw [retry_eq]
  split
  · exact ⟨rfl, rfl, rfl, rfl, [.fetchedUsers], rfl, Or.inl⟩
  · exact Starts.refl s

/-- A pull turns the spinner on by itself. -/
theorem starts_pulled (s : NewMessage) : Starts { s with spinner := true } s.pulled := by
  have hpulled : Starts { s with spinner := true }
      { { s with spinner := true }.retry with refreshPulled := true } :=
    (starts_retry _).trans ⟨rfl, rfl, rfl, rfl, [], by simp⟩
  unfold pulled
  simp only
  split
  · exact hpulled
  · exact hpulled.trans (starts_refetch _)

/-- A reload does. -/
theorem starts_reload (s : NewMessage) (text : String) : Starts s (s.reload text) := by
  unfold reload
  split
  · exact Starts.refl s
  · have hnext : Starts (s.acceptSearching false)
        { s.acceptSearching false with
          reloadedUsers := (s.acceptSearching false).reloadedUsers.next
          fetches := (s.acceptSearching false).fetches ++
            [⟨.reloadedUsers ((s.acceptSearching false).reloadedUsers.latest + 1), none⟩] } :=
      ⟨rfl, rfl, rfl, rfl, [_], rfl, Or.inl⟩
    exact (starts_acceptSearching s false).trans hnext

section Search

variable (lowercased : String → String) (contains : String → String → Bool)

/-! ## Writing the narrowed list -/

/-- The list shown once `text` meets `base`: a non-empty text narrows it, an empty one
leaves the list as it is. -/
def narrowed (text : String) (users base : List User) : List User :=
  if text = "" then users else base.filter fun user => Found lowercased contains text user

/-- A search starts fetches, beside the list it narrows. -/
theorem starts_search (s : NewMessage) (text : String) (base : List User) :
    Starts { s with users := narrowed lowercased contains text s.users base }
      (s.search lowercased contains text base) := by
  unfold search narrowed
  split
  · exact Starts.refl s
  · rcases starts_acceptSearching s true with ⟨-, hbase, htext, herrors, hfetches⟩
    exact ⟨rfl, hbase, htext, herrors, hfetches⟩

/-- The list shown once `inputText` has emitted `text`. -/
def searched (s : NewMessage) (text : String) : List User :=
  s.baseUsersForFiltering.elim s.users (narrowed lowercased contains text s.users)

/-- An element of `inputText` writes the narrowed list and starts fetches. -/
theorem starts_emitText (s : NewMessage) (text : String) :
    Starts
      { s with inputText := some text, users := s.searched lowercased contains text }
      (s.emitText lowercased contains text) := by
  unfold emitText searched
  refine Starts.trans ?_ (starts_reload _ text)
  cases hbase : s.baseUsersForFiltering with
  | none => exact Starts.refl _
  | some base =>
      simp only [Option.elim]
      rw [← hbase]
      exact starts_search lowercased contains { s with inputText := some text } text base

/-- The answer to the initial fetch writes the list, narrowed to the text in effect. -/
theorem starts_onFetched (s : NewMessage) (users : List User) :
    Starts
      { s with
        baseUsersForFiltering := some users
        users := s.inputText.elim users fun text =>
          narrowed lowercased contains text users users }
      (s.onFetched lowercased contains (.next users)) := by
  cases htext : s.inputText with
  | none =>
      simp only [onFetched, htext, Option.elim]
      exact Starts.refl _
  | some text =>
      simp only [onFetched, htext, Option.elim]
      rw [← htext]
      exact starts_search lowercased contains
        { s with users := users, baseUsersForFiltering := some users } text users

/-! ## Everything an event can do -/

/-- The element of `inputText` an event leads to. -/
def emits (s : NewMessage) : NewMessageEvent → Option String
  | .textChanged key elapsed =>
      if s.filterKey = some key then none
      else (s.throttle.on elapsed key).2.map lowercased
  | .throttleFires => s.throttle.propagate.2.map lowercased
  | .pull => none
  | .cancel => none
  | .respond _ _ => none

/-- What an event other than a response writes at once. -/
def written (s : NewMessage) (e : NewMessageEvent) : NewMessage :=
  if e = .pull then { s with spinner := true }
  else
    (s.emits lowercased e).elim s fun text =>
      { s with inputText := some text, users := s.searched lowercased contains text }

/-- Only the spinner, the text and the users are written at once. -/
theorem base_written (s : NewMessage) (e : NewMessageEvent) :
    (s.written lowercased contains e).baseUsersForFiltering = s.baseUsersForFiltering := by
  unfold written
  split
  · rfl
  · cases s.emits lowercased e <;> rfl

/-- Writing the input starts no fetch. -/
theorem fetches_written (s : NewMessage) (e : NewMessageEvent) :
    (s.written lowercased contains e).fetches = s.fetches := by
  unfold written
  split
  · rfl
  · cases s.emits lowercased e <;> rfl

/-- An element of `inputText` writes the users it is narrowed to. -/
theorem users_written {s : NewMessage} {e : NewMessageEvent} {text : String}
    (h : text ∈ s.emits lowercased e) :
    (s.written lowercased contains e).users = s.searched lowercased contains text := by
  unfold written
  split
  · rename_i hpull
    subst hpull
    cases h
  · rw [Option.mem_def.1 h]
    rfl

/-- Beside what it writes, a text starts fetches. -/
theorem starts_textChanged (s : NewMessage) (key : String) (elapsed : Bool) :
    Starts (s.written lowercased contains (.textChanged key elapsed))
      (s.textChanged lowercased contains key elapsed) := by
  simp only [written, emits, textChanged, reduceCtorEq, if_false]
  split
  · exact Starts.refl s
  · cases hsent : (s.throttle.on elapsed key).2 with
    | none => exact ⟨rfl, rfl, rfl, rfl, [], by simp⟩
    | some key' =>
        rcases starts_emitText lowercased contains
          { s with filterKey := some key, throttle := (s.throttle.on elapsed key).1 }
          (lowercased key') with ⟨husers, hbase, htext, herrors, hfetches⟩
        exact ⟨husers, hbase, htext, herrors, hfetches⟩

/-- Beside what it writes, the timer starts fetches. -/
theorem starts_throttleFires (s : NewMessage) :
    Starts (s.written lowercased contains .throttleFires)
      (s.throttleFires lowercased contains) := by
  simp only [written, emits, throttleFires, reduceCtorEq, if_false]
  cases hsent : s.throttle.propagate.2 with
  | none => exact ⟨rfl, rfl, rfl, rfl, [], by simp⟩
  | some key =>
      rcases starts_emitText lowercased contains
        { s with throttle := s.throttle.propagate.1 } (lowercased key) with
        ⟨husers, hbase, htext, herrors, hfetches⟩
      exact ⟨husers, hbase, htext, herrors, hfetches⟩

/-- Everything one event can do. -/
theorem step_cases {s s' : NewMessage} {e : NewMessageEvent} (h : s.Sound)
    (hstep : s.step lowercased contains e = some s') :
    ((∀ i answer, e ≠ .respond i answer) ∧ Starts (s.written lowercased contains e) s') ∨
      ∃ i answer pipeline, e = .respond i answer ∧ s.fetches[i]? = some ⟨pipeline, none⟩ ∧
        Responded lowercased contains (s.answered i pipeline answer) answer pipeline s' := by
  cases e with
  | textChanged key elapsed =>
      obtain rfl : s.textChanged lowercased contains key elapsed = s' := Option.some.inj hstep
      exact Or.inl ⟨by simp, starts_textChanged lowercased contains s key elapsed⟩
  | throttleFires =>
      obtain rfl : s.throttleFires lowercased contains = s' := Option.some.inj hstep
      exact Or.inl ⟨by simp, starts_throttleFires lowercased contains s⟩
  | pull =>
      obtain rfl : s.pulled = s' := Option.some.inj hstep
      exact Or.inl ⟨by simp, starts_pulled s⟩
  | cancel =>
      obtain rfl : s.refetch = s' := Option.some.inj hstep
      exact Or.inl ⟨by simp, starts_refetch s⟩
  | respond i answer =>
      rcases respond_cases lowercased contains h hstep with ⟨pipeline, hget, hresponded⟩
      exact Or.inr ⟨i, answer, pipeline, rfl, hget, hresponded⟩

/-! ## Where the users come from -/

/-- The users shown and the users searched are all among those `Q` holds of. -/
structure DrawnFrom (Q : User → Prop) (s : NewMessage) : Prop where
  users : ∀ user ∈ s.users, Q user
  base : ∀ base ∈ s.baseUsersForFiltering, ∀ user ∈ base, Q user

variable {Q : User → Prop}

/-- Starting fetches shows no other users. -/
theorem DrawnFrom.starts {s s' : NewMessage} (h : s.DrawnFrom Q) (hstarts : Starts s s') :
    s'.DrawnFrom Q := by
  constructor
  · rw [hstarts.users_eq]
    exact h.users
  · rw [hstarts.base_eq]
    exact h.base

/-- Narrowing adds nobody. -/
theorem forall_mem_narrowed {users base : List User} (husers : ∀ user ∈ users, Q user)
    (hbase : ∀ user ∈ base, Q user) (text : String) :
    ∀ user ∈ narrowed lowercased contains text users base, Q user := by
  unfold narrowed
  split
  · exact husers
  · exact fun user hmem => hbase user (List.mem_filter.1 hmem).1

/-- A narrowed list shows no other users. -/
theorem DrawnFrom.written {s : NewMessage} (h : s.DrawnFrom Q) (e : NewMessageEvent) :
    (s.written lowercased contains e).DrawnFrom Q := by
  unfold NewMessage.written
  split
  · exact ⟨h.users, h.base⟩
  · cases s.emits lowercased e with
    | none => exact h
    | some text =>
        refine ⟨?_, h.base⟩
        simp only [Option.elim, searched]
        cases hbase : s.baseUsersForFiltering with
        | none => exact h.users
        | some base =>
            exact forall_mem_narrowed lowercased contains h.users (h.base base hbase) text

/-- An answer shows users of its own. -/
theorem DrawnFrom.responded {s s' : NewMessage} {answer : UsersAnswer} {pipeline : Pipeline}
    (h : s.DrawnFrom Q) (hanswer : ∀ user ∈ answer.users, Q user)
    (hresponded : Responded lowercased contains s answer pipeline s') : s'.DrawnFrom Q := by
  cases hresponded with
  | unheard a b => exact ⟨h.users, h.base⟩
  | fetched =>
      refine DrawnFrom.starts ⟨?_, ?_⟩ (starts_onFetched lowercased contains _ answer.users)
      · cases htext : s.inputText with
        | none => simpa [htext] using hanswer
        | some text =>
            simpa [htext] using forall_mem_narrowed lowercased contains hanswer hanswer text
      · simpa using hanswer
  | fetchFailed e => exact ⟨h.users, h.base⟩
  | reFetched inner => exact ⟨hanswer, h.base⟩
  | reFetchFailed inner hlistens e => exact ⟨by simp, h.base⟩
  | reloaded inner => exact ⟨hanswer, h.base⟩
  | reloadFailed inner hlistens e => exact ⟨h.users, h.base⟩

/-- Nobody is listed or searched who was not in the answer to a fetch. -/
theorem DrawnFrom.step {s s' : NewMessage} {e : NewMessageEvent} (hs : s.Sound)
    (h : s.DrawnFrom Q)
    (hanswer : ∀ i answer, e = .respond i answer → ∀ user ∈ answer.users, Q user)
    (hstep : s.step lowercased contains e = some s') : s'.DrawnFrom Q := by
  rcases step_cases lowercased contains hs hstep with ⟨-, hstarts⟩ |
    ⟨i, answer, pipeline, he, -, hresponded⟩
  · exact (h.written lowercased contains e).starts hstarts
  · have hanswered : (s.answered i pipeline answer).DrawnFrom Q := ⟨h.users, h.base⟩
    exact hanswered.responded lowercased contains (hanswer i answer he) hresponded

end Search

end NewMessage

end WaffleChat
