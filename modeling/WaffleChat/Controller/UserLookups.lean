import WaffleChat.Controller.Session
import WaffleChat.Service.FetchConversations

/-!
# User ids passed to the document store

Three places of the app name a document of `users`: the lookup of a conversation's
peer, the lookup behind the profile screen, and the profile written at the end of a
registration.  Each takes its id from optional or defaulted data, and
`document(_:)` raises an exception for the empty id, which ends the app.

Main results:

- Theorem `peerId_ne_empty_iff`: which summary documents name a peer.
- Theorem `raised_eq_false`: the runs which no exception ends.
- Theorem `named_iff`: in which runs every id passed to `document(_:)` is non-empty.
-/

namespace WaffleChat

open CallbackProgram EventSystem Observers

/-! ## The app -/

/-- The screens and the session, the accounts whose conversations are listened to, the
ids passed to `document(_:)`, and whether the last of them raised the exception. -/
structure App where
  session : Session
  listeners : List Uid
  passed : List Uid
  raised : Bool

/-- What can happen to the app. -/
inductive AppEvent where
  | session (e : SessionEvent)
  /-- The profile button of the conversations is tapped. -/
  | profileTapped
  /-- The summaries listener number `i` is registered on have changed. -/
  | snapshot (i : Nat) (changes : List (Ambient × DocumentChange))
deriving DecidableEq, Repr

/-- The id a request names its document of `users` by. -/
def AuthRequest.userId : AuthRequest → Option Uid
  | .setUserData uid _ => some uid
  | _ => none

namespace App

variable (lowercased : String → String)

/-- Before the launch. -/
def initial (firebase : Firebase) : App where
  session := .initial firebase
  listeners := []
  passed := []
  raised := false

/-- `userRef.document(uid)`; after an exception nothing runs any more. -/
def document (s : App) (uid : Uid) : App :=
  if s.raised then s else { s with passed := s.passed ++ [uid], raised := uid = "" }

/-- The ids the code that runs in an event of the session passes to `document(_:)`: the
one of the request the handler of a callback issues, if it names a profile. -/
def sessionIds (session : Session) : SessionEvent → List Uid
  | .callback i _ =>
      ((session.started[i]?).bind fun b =>
        (b.task.current (Session.program lowercased)).awaiting.bind AuthRequest.userId).toList
  | _ => []

/-- A new `ConversationsController` is shown. -/
def shown (before after : Session) : SessionEvent → Bool
  | .launch => after.window = .conversations
  | _ => before.window ≠ .conversations && after.window = .conversations

/-- The listeners after an event of the session: a new conversation list calls
`fetchConversations`, which needs a session; the process takes its listeners with it. -/
def sessionListeners (s : App) (after : Session) (e : SessionEvent) : List Uid :=
  if e = .terminate then []
  else if shown s.session after e then s.listeners ++ after.firebase.currentUser.toList
  else s.listeners

/-- One event. -/
def step (s : App) (e : AppEvent) : Option App :=
  if s.raised then none
  else
    match e with
    | .session e => do
        let session ← s.session.step lowercased e
        return (sessionIds lowercased session e).foldl document
          { s with session := session, listeners := s.sessionListeners session e }
    | .profileTapped =>
        -- `ProfileViewModel.init`
        if s.session.window = .conversations then
          some (s.document (s.session.firebase.currentUser.getD ""))
        else none
    | .snapshot i changes => do
        let uid ← s.listeners[i]?
        return (changes.map fun change =>
          (Message.init change.1 change.2.document.data).peerId uid).foldl document s

/-! ## What is passed -/

/-- No empty id has been passed to `document(_:)`. -/
def Named (s : App) : Prop :=
  ∀ uid ∈ s.passed, uid ≠ ""

instance : DecidablePred Named := fun s =>
  inferInstanceAs (Decidable (∀ uid ∈ s.passed, uid ≠ ""))

/-- The exception is raised by the empty id. -/
def RaisedByEmpty (s : App) : Prop :=
  s.raised = true → ¬ s.Named

/-- Passing ids to `document(_:)` changes neither the session nor the listeners. -/
theorem session_foldl_document (ids : List Uid) (s : App) :
    (ids.foldl document s).session = s.session ∧
      (ids.foldl document s).listeners = s.listeners := by
  induction ids generalizing s with
  | nil => exact ⟨rfl, rfl⟩
  | cons uid ids ih =>
      have hhead : (s.document uid).session = s.session ∧
          (s.document uid).listeners = s.listeners := by
        unfold document
        split <;> exact ⟨rfl, rfl⟩
      rw [List.foldl_cons, (ih _).1, (ih _).2]
      exact hhead

/-- After an exception nothing is passed any more. -/
theorem foldl_document_of_raised {s : App} (h : s.raised = true) (ids : List Uid) :
    ids.foldl document s = s := by
  induction ids with
  | nil => rfl
  | cons uid ids ih =>
      have hhead : s.document uid = s := if_pos h
      rw [List.foldl_cons, hhead]
      exact ih

/-- One more id is named exactly if it is not empty. -/
theorem named_document {s : App} (hs : s.Named) (hraised : s.raised = false) (uid : Uid) :
    (s.document uid).Named ↔ uid ≠ "" := by
  have hdocument : (s.document uid).passed = s.passed ++ [uid] := by simp [document, hraised]
  unfold Named
  rw [hdocument]
  simp only [List.forall_mem_append, List.forall_mem_singleton]
  exact ⟨And.right, fun h => ⟨hs, h⟩⟩

/-- The empty id raises. -/
theorem raised_document {s : App} (hraised : s.raised = false) (uid : Uid) :
    (s.document uid).raised = decide (uid = "") := by
  simp [document, hraised]

/-- Documents are asked for one after another until an empty id comes. -/
theorem named_foldl_document {s : App} (hs : s.Named) (hraised : s.raised = false)
    (ids : List Uid) : (ids.foldl document s).Named ↔ ∀ uid ∈ ids, uid ≠ "" := by
  induction ids generalizing s with
  | nil => simpa using hs
  | cons uid ids ih =>
      rw [List.foldl_cons, List.forall_mem_cons]
      by_cases huid : uid = ""
      · have hnot : ¬ (s.document uid).Named := by
          rw [named_document hs hraised]
          exact fun h => h huid
        have hstop : (s.document uid).raised = true := by
          rw [raised_document hraised]
          simpa using huid
        rw [foldl_document_of_raised hstop]
        exact iff_of_false hnot fun h => h.1 huid
      · have hnext : (s.document uid).raised = false := by
          rw [raised_document hraised]
          simpa using huid
        rw [ih ((named_document hs hraised uid).2 huid) hnext]
        exact ⟨fun h => ⟨huid, h⟩, And.right⟩

/-- Nothing but the empty id raises. -/
theorem raisedByEmpty_foldl_document {s : App} (hs : s.RaisedByEmpty) (ids : List Uid) :
    (ids.foldl document s).RaisedByEmpty := by
  induction ids generalizing s with
  | nil => exact hs
  | cons uid ids ih =>
      refine ih ?_
      cases hraised : s.raised with
      | true =>
          have hhead : s.document uid = s := if_pos hraised
          rwa [hhead]
      | false =>
          intro hnow hnamed
          rw [raised_document hraised, decide_eq_true_eq] at hnow
          exact hnamed uid (by simp [document, hraised]) hnow

/-! ## Summary documents -/

/-- The document names a peer of `uid`: it is addressed to somebody else, or addressed to
`uid` and signed by somebody. -/
def Addressed (uid : Uid) (dic : Dictionary) : Prop :=
  if dic.string? "toId" = some uid then
    dic.string? "fromId" ≠ none ∧ dic.string? "fromId" ≠ some ""
  else dic.string? "toId" ≠ none ∧ dic.string? "toId" ≠ some ""

instance (uid : Uid) (dic : Dictionary) : Decidable (Addressed uid dic) :=
  inferInstanceAs (Decidable (if dic.string? "toId" = some uid then
    dic.string? "fromId" ≠ none ∧ dic.string? "fromId" ≠ some ""
  else dic.string? "toId" ≠ none ∧ dic.string? "toId" ≠ some ""))

/-- Whatever a document holds, the peer read from it is the empty id exactly when the
document names none. -/
theorem peerId_ne_empty_iff {uid : Uid} (huid : uid ≠ "") (ambient : Ambient)
    (dic : Dictionary) : (Message.init ambient dic).peerId uid ≠ "" ↔ Addressed uid dic := by
  unfold Addressed Message.peerId
  cases hto : dic.string? "toId" with
  | none =>
      have htoId : (Message.init ambient dic).toId = "" := by simp [Message.init, hto]
      rw [htoId, if_neg (Ne.symm huid)]
      simp
  | some receiver =>
      have htoId : (Message.init ambient dic).toId = receiver := by simp [Message.init, hto]
      rw [htoId]
      by_cases hown : receiver = uid
      · rw [if_pos hown, if_pos (congrArg some hown)]
        cases hfrom : dic.string? "fromId" with
        | none => simp [Message.init, hfrom]
        | some sender => simp [Message.init, hfrom]
      · have hne : some receiver ≠ some uid := fun h => hown (Option.some.inj h)
        rw [if_neg hown, if_neg hne]
        simp

/-! ## The ids of the session -/

/-- The request is answered with a URL. -/
def isURL : Outcome → Bool
  | .url _ => true
  | _ => false

/-- Only a request for a download URL is answered with one. -/
theorem isURL_eq_false {firebase firebase' : Firebase} {request : AuthRequest}
    {outcome : Outcome} {answer : AuthAnswer}
    (h : firebase.answer request outcome = some (firebase', answer))
    (hrequest : ∀ path, request ≠ .downloadURL path) : isURL outcome = false := by
  cases outcome with
  | url url =>
      cases request <;> cases h
      exact absurd rfl (hrequest _)
  | _ => rfl

/-- A request for a download URL fails or is answered with one, for the current user. -/
theorem isURL_of_downloadURL {firebase firebase' : Firebase} {path : String}
    {outcome : Outcome} {answer : AuthAnswer}
    (h : firebase.answer (.downloadURL path) outcome = some (firebase', answer)) :
    isURL outcome = !answer.failed ∧ answer.currentUid = firebase.currentUser := by
  cases outcome <;> cases h
  · exact ⟨rfl, rfl⟩
  · exact ⟨rfl, rfl⟩

/-- The handler of a callback names a profile exactly when it is handed a download URL;
the profile is that of the current user. -/
theorem sessionIds_callback {s s' : Session} {i : Nat} {outcome : Outcome}
    (h : Session.step lowercased s (.callback i outcome) = some s') :
    sessionIds lowercased s' (.callback i outcome) =
      if isURL outcome then [s.firebase.currentUser.getD ""] else [] := by
  rcases Session.step_callback lowercased h with ⟨b, b', request, answer, hanswered⟩
  have hget : s'.started[i]? = some b' := by
    rw [hanswered.started_eq]
    exact List.getElem?_set_self (List.getElem?_eq_some_iff.1 hanswered.get).1
  have hawaiting := hanswered.request_eq
  have hanswer := hanswered.firebase_eq
  simp only [sessionIds, hget, Option.bind_some, Task.current, hanswered.job_eq,
    hanswered.answers_eq]
  cases hjob : b.task.job with
  | login email password =>
      rw [Task.current, hjob, Session.program] at hawaiting
      rcases performLogin_awaiting hawaiting with ⟨-, rfl⟩
      have hnone : ((performLogin email password).after
          (b.task.answers ++ [answer])).awaiting = none := by
        rw [Option.eq_none_iff_forall_ne_some]
        intro request hrequest
        simpa using (performLogin_awaiting hrequest).1
      rw [Session.program, hnone, isURL_eq_false hanswer (by simp)]
      rfl
  | registration job =>
      rw [Task.current, hjob, Session.program, Register.awaiting_after] at hawaiting
      rw [Session.program, Register.awaiting_after]
      split at hawaiting
      · cases hawaiting
      · rename_i hok
        -- the four requests of a registration, by the answers its handlers have received
        rcases hanswers : b.task.answers with _ | ⟨a₀, _ | ⟨a₁, _ | ⟨a₂, _ | ⟨a₃, rest⟩⟩⟩⟩
        all_goals simp only [hanswers, Option.some.injEq, reduceCtorEq] at hawaiting hok
        all_goals subst hawaiting
        · rw [isURL_eq_false hanswer (by simp)]
          cases hfailed : answer.failed <;> simp [hfailed, AuthRequest.userId]
        · rw [isURL_eq_false hanswer (by simp)]
          cases hfailed : answer.failed <;> simp [hfailed, AuthRequest.userId]
        · rcases isURL_of_downloadURL hanswer with ⟨hurl, huid⟩
          have hbefore : a₀.failed = false ∧ a₁.failed = false := by simpa using hok
          rw [hurl, ← huid]
          cases hfailed : answer.failed <;>
            simp [hfailed, hbefore.1, hbefore.2, AuthRequest.userId]
        · rw [isURL_eq_false hanswer (by simp)]
          simp

/-- Only a callback of a registration passes ids of the session. -/
theorem sessionIds_of_not_callback {s : Session} {e : SessionEvent}
    (he : ∀ i outcome, e ≠ .callback i outcome) : sessionIds lowercased s e = [] := by
  cases e with
  | callback i outcome => exact absurd rfl (he i outcome)
  | _ => rfl

/-! ## Uids are never empty -/

/-- Firebase signs in under a uid that is not empty. -/
def SignsInNamed : AppEvent → Prop
  | .session (.callback _ (.signedIn uid)) => uid ≠ ""
  | _ => True

instance : DecidablePred SignsInNamed
  | .session (.callback _ (.signedIn uid)) => inferInstanceAs (Decidable (uid ≠ ""))
  | .session (.callback _ (.failure _)) => inferInstanceAs (Decidable True)
  | .session (.callback _ (.created _)) => inferInstanceAs (Decidable True)
  | .session (.callback _ .stored) => inferInstanceAs (Decidable True)
  | .session (.callback _ (.url _)) => inferInstanceAs (Decidable True)
  | .session .launch => inferInstanceAs (Decidable True)
  | .session .terminate => inferInstanceAs (Decidable True)
  | .session (.loginTapped _ _) => inferInstanceAs (Decidable True)
  | .session .goToSignUpTapped => inferInstanceAs (Decidable True)
  | .session .goToLoginTapped => inferInstanceAs (Decidable True)
  | .session (.signUpTapped _) => inferInstanceAs (Decidable True)
  | .session (.logoutTapped _) => inferInstanceAs (Decidable True)
  | .profileTapped => inferInstanceAs (Decidable True)
  | .snapshot _ _ => inferInstanceAs (Decidable True)

/-- The current user and the accounts listened to have a uid that is not empty. -/
structure Sound (s : App) : Prop where
  raised : s.RaisedByEmpty
  currentUser : s.session.firebase.currentUser ≠ some ""
  listeners : ∀ uid ∈ s.listeners, uid ≠ ""

/-- A stored session has an id. -/
theorem sound_initial {firebase : Firebase} (h : firebase.currentUser ≠ some "") :
    (initial firebase).Sound where
  raised := by simp [RaisedByEmpty, initial]
  currentUser := h
  listeners := by simp [initial]

/-- Outside callbacks the session only ends. -/
theorem currentUser_of_not_callback {s s' : Session} {e : SessionEvent}
    (he : ∀ i outcome, e ≠ .callback i outcome) (h : Session.step lowercased s e = some s') :
    s'.firebase.currentUser = s.firebase.currentUser ∨ s'.firebase.currentUser = none := by
  cases e with
  | callback i outcome => exact absurd rfl (he i outcome)
  | launch =>
      obtain rfl := Option.some.inj h
      left
      split <;> rfl
  | terminate =>
      obtain rfl := Option.some.inj h
      exact Or.inl rfl
  | logoutTapped throws =>
      simp only [Session.step] at h
      split at h
      · split at h
        · obtain rfl := Option.some.inj h
          exact Or.inl rfl
        · obtain rfl := Option.some.inj h
          exact Or.inr rfl
      · cases h
  | _ =>
      simp only [Session.step] at h
      split at h
      · obtain rfl := Option.some.inj h
        exact Or.inl rfl
      · cases h

/-- A request signs in under a uid that is not empty. -/
theorem currentUser_answer_ne {firebase firebase' : Firebase} {request : AuthRequest}
    {outcome : Outcome} {answer : AuthAnswer}
    (h : firebase.answer request outcome = some (firebase', answer))
    (hs : firebase.currentUser ≠ some "") (hnamed : ∀ uid, outcome = .signedIn uid → uid ≠ "") :
    firebase'.currentUser ≠ some "" := by
  rcases Firebase.answer_cases h with ⟨_, -, rfl⟩ | ⟨_, _, uid, hrequest, -, -⟩ |
    ⟨_, _, uid, -, hunused, -, rfl⟩ | ⟨_, _, -, -, rfl⟩ | ⟨_, _, -, -, rfl⟩ |
    ⟨_, _, -, -, -, rfl⟩
  · exact hs
  · rw [hrequest] at h
    cases outcome with
    | signedIn uid' =>
        cases h
        exact fun heq => hnamed uid' rfl (Option.some.inj heq)
    | failure error =>
        cases h
        exact hs
    | _ => cases h
  · exact fun heq => hunused.1 (Option.some.inj heq)
  · exact hs
  · exact hs
  · exact hs

/-- Whoever is signed in has an id. -/
theorem currentUser_step {s s' : Session} {e : SessionEvent} (he : SignsInNamed (.session e))
    (hs : s.firebase.currentUser ≠ some "") (h : Session.step lowercased s e = some s') :
    s'.firebase.currentUser ≠ some "" := by
  by_cases hcallback : ∃ i outcome, e = .callback i outcome
  · rcases hcallback with ⟨i, outcome, rfl⟩
    rcases Session.step_callback lowercased h with ⟨b, b', request, answer, hanswered⟩
    refine currentUser_answer_ne hanswered.firebase_eq hs ?_
    rintro uid rfl
    exact he
  · have hne : ∀ i outcome, e ≠ .callback i outcome := fun i outcome heq =>
      hcallback ⟨i, outcome, heq⟩
    rcases currentUser_of_not_callback lowercased hne h with hsame | hnone
    · rwa [hsame]
    · rw [hnone]
      simp

/-- Passing ids changes nothing else. -/
theorem sound_foldl_document {s : App} (hs : s.Sound) (ids : List Uid) :
    (ids.foldl document s).Sound := by
  rcases session_foldl_document ids s with ⟨hsession, hlisteners⟩
  refine ⟨raisedByEmpty_foldl_document hs.raised ids, ?_, ?_⟩
  · rw [hsession]
    exact hs.currentUser
  · rw [hlisteners]
    exact hs.listeners

/-- Everything one event can do: the session moves on, and ids are passed. -/
theorem step_cases {s s' : App} {e : AppEvent} (h : step lowercased s e = some s') :
    s.raised = false ∧
    ((∃ e' session, e = .session e' ∧ s.session.step lowercased e' = some session ∧
      s' = (sessionIds lowercased session e').foldl document
        { s with session := session, listeners := s.sessionListeners session e' }) ∨
    (e = .profileTapped ∧ s' = s.document (s.session.firebase.currentUser.getD "")) ∨
    (∃ i changes uid, e = .snapshot i changes ∧ s.listeners[i]? = some uid ∧
      s' = (changes.map fun change =>
        (Message.init change.1 change.2.document.data).peerId uid).foldl document s)) := by
  unfold step at h
  split at h
  · cases h
  · rename_i hraised
    refine ⟨by simpa using hraised, ?_⟩
    cases e with
    | session e' =>
        simp only [bind_pure_eq_some] at h
        rcases h with ⟨session, hsession, rfl⟩
        exact Or.inl ⟨e', session, rfl, hsession, rfl⟩
    | profileTapped =>
        dsimp only at h
        split at h
        · exact Or.inr (Or.inl ⟨rfl, (Option.some.inj h).symm⟩)
        · cases h
    | snapshot i changes =>
        simp only [bind_pure_eq_some] at h
        rcases h with ⟨uid, huid, rfl⟩
        exact Or.inr (Or.inr ⟨i, changes, uid, rfl, huid, rfl⟩)

/-- Every event keeps what is known of ids. -/
theorem sound_step {s s' : App} {e : AppEvent} (he : SignsInNamed e) (hs : s.Sound)
    (hstep : step lowercased s e = some s') : s'.Sound := by
  rcases (step_cases lowercased hstep).2 with ⟨e', session, rfl, hsession, rfl⟩ | ⟨rfl, rfl⟩ |
    ⟨i, changes, uid, rfl, -, rfl⟩
  · have hcurrent := currentUser_step lowercased he hs.currentUser hsession
    refine sound_foldl_document ?_ _
    refine ⟨hs.raised, hcurrent, ?_⟩
    intro uid huid
    change uid ∈ s.sessionListeners session e' at huid
    unfold sessionListeners at huid
    split at huid
    · cases huid
    · split at huid
      · rcases List.mem_append.1 huid with huid | huid
        · exact hs.listeners uid huid
        · rintro rfl
          exact hcurrent (by simpa using huid)
      · exact hs.listeners uid huid
  · exact sound_foldl_document hs [_]
  · exact sound_foldl_document hs _

/-! ## No lookup with an empty id -/

/-- The event gives every id it passes: the profile is opened, and the download URL of a
registration arrives, while somebody is signed in; changed summaries name a peer. -/
def Identified (s : App) : AppEvent → Prop
  | .session (.callback _ (.url _)) => s.session.firebase.currentUser ≠ none
  | .session _ => True
  | .profileTapped => s.session.firebase.currentUser ≠ none
  | .snapshot i changes => ∀ uid ∈ s.listeners[i]?, ∀ change ∈ changes,
      Addressed uid change.2.document.data

instance (s : App) : DecidablePred s.Identified
  | .session (.callback _ (.url _)) =>
      inferInstanceAs (Decidable (s.session.firebase.currentUser ≠ none))
  | .session (.callback _ (.signedIn _)) => inferInstanceAs (Decidable True)
  | .session (.callback _ (.failure _)) => inferInstanceAs (Decidable True)
  | .session (.callback _ (.created _)) => inferInstanceAs (Decidable True)
  | .session (.callback _ .stored) => inferInstanceAs (Decidable True)
  | .session .launch => inferInstanceAs (Decidable True)
  | .session .terminate => inferInstanceAs (Decidable True)
  | .session (.loginTapped _ _) => inferInstanceAs (Decidable True)
  | .session .goToSignUpTapped => inferInstanceAs (Decidable True)
  | .session .goToLoginTapped => inferInstanceAs (Decidable True)
  | .session (.signUpTapped _) => inferInstanceAs (Decidable True)
  | .session (.logoutTapped _) => inferInstanceAs (Decidable True)
  | .profileTapped => inferInstanceAs (Decidable (s.session.firebase.currentUser ≠ none))
  | .snapshot i changes => inferInstanceAs (Decidable (∀ uid ∈ s.listeners[i]?,
      ∀ change ∈ changes, Addressed uid change.2.document.data))

/-- The default is taken exactly when nobody is signed in. -/
theorem getD_ne_empty_iff {currentUser : Option Uid} (h : currentUser ≠ some "") :
    currentUser.getD "" ≠ "" ↔ currentUser ≠ none := by
  cases currentUser with
  | none => simp
  | some uid => simpa using h

/-- A step passes named ids exactly if it is identified. -/
theorem named_step_iff {s s' : App} {e : AppEvent} (hs : s.Sound) (hnamed : s.Named)
    (hstep : step lowercased s e = some s') : s'.Named ↔ s.Identified e := by
  rcases step_cases lowercased hstep with ⟨hraised, ⟨e', session, rfl, hsession, rfl⟩ | ⟨rfl, rfl⟩ |
    ⟨i, changes, uid, rfl, huid, rfl⟩⟩
  · have hfold : ∀ ids : List Uid, (ids.foldl document
        { s with session := session, listeners := s.sessionListeners session e' }).Named ↔
        ∀ uid ∈ ids, uid ≠ "" := by
      intro ids
      refine named_foldl_document ?_ ?_ ids
      · exact hnamed
      · exact hraised
    rw [hfold]
    by_cases hcallback : ∃ i outcome, e' = .callback i outcome
    · rcases hcallback with ⟨i, outcome, rfl⟩
      rw [sessionIds_callback lowercased hsession]
      cases outcome with
      | url url =>
          simp only [isURL, if_true, List.forall_mem_singleton]
          exact getD_ne_empty_iff hs.currentUser
      | _ => simp [isURL, Identified]
    · have hne : ∀ i outcome, e' ≠ .callback i outcome := fun i outcome heq =>
        hcallback ⟨i, outcome, heq⟩
      rw [sessionIds_of_not_callback lowercased hne]
      cases e' with
      | callback i outcome => exact absurd rfl (hne i outcome)
      | _ => simp [Identified]
  · rw [named_document hnamed hraised]
    exact getD_ne_empty_iff hs.currentUser
  · rw [named_foldl_document hnamed hraised]
    have hne : uid ≠ "" := hs.listeners uid (List.mem_of_getElem? huid)
    simp only [List.forall_mem_map, Identified, huid, Option.mem_some_iff, forall_eq',
      peerId_ne_empty_iff hne]

/-- As long as every event gives the ids it passes, the exception does not end the app. -/
theorem raised_eq_false {firebase : Firebase} (hfirebase : firebase.currentUser ≠ some "")
    {es : List AppEvent} (hes : ∀ e ∈ es, SignsInNamed e)
    (hidentified : StepsMeet (step lowercased) Identified (initial firebase) es) {s : App}
    (hrun : run (step lowercased) (initial firebase) es = some s) : s.raised = false := by
  have hboth : s.Sound ∧ s.Named := by
    refine run_invariant_of_stepsMeet (P := fun s => Sound s ∧ Named s) ?_
      ((stepsMeet_of_forall_mem hes).and hidentified) ⟨sound_initial hfirebase, ?_⟩ hrun
    · rintro a e b ⟨he, hid⟩ ⟨hsound, hnamed⟩ hab
      exact ⟨sound_step lowercased he hsound hab,
        (named_step_iff lowercased hsound hnamed hab).2 hid⟩
    · simp [Named, initial]
  cases hraised : s.raised with
  | false => rfl
  | true => exact absurd hboth.2 (hboth.1.raised hraised)

/-- No empty id is ever passed to `document(_:)` in exactly the runs whose events all give
the ids they pass. -/
theorem named_iff {firebase : Firebase} (hfirebase : firebase.currentUser ≠ some "")
    {es : List AppEvent} (hes : ∀ e ∈ es, SignsInNamed e) {s : App}
    (hrun : run (step lowercased) (initial firebase) es = some s) :
    Always (step lowercased) Named (initial firebase) es ↔
      StepsMeet (step lowercased) Identified (initial firebase) es := by
  refine always_iff_stepsMeet_of (I := Sound) ?_ ?_ (stepsMeet_of_forall_mem hes)
    (sound_initial hfirebase) ?_ hrun
  · exact fun _ _ _ he hs hstep => sound_step lowercased he hs hstep
  · exact fun _ _ _ _ hs hnamed hstep => named_step_iff lowercased hs hnamed hstep
  · simp [Named, initial]

/-- A sign-in that is answered as given. -/
def signIn (outcome : Outcome) : List AppEvent :=
  [.session .launch, .session (.loginTapped "alice@example.com" "password"),
    .session (.callback 0 outcome)]

/-- After a sign-in, both the profile and a complete summary pass ids. -/
theorem named_iff_signIn :
    Always (step id) Named (initial .empty)
      (signIn (.signedIn "alice") ++
        [.profileTapped, .snapshot 0 [ConversationFeed.summaryOfBob "one"]]) :=
  (named_iff id (by decide) (by decide) (run_final rfl)).2 (by decide)

/-- A registration whose account signs out before its profile is written. -/
def signOutInRegistration (job : SignUp) : List AppEvent :=
  [.session .launch, .session (.loginTapped "alice@example.com" "password"),
    .session .goToSignUpTapped, .session (.signUpTapped job),
    .session (.callback 1 (.created "bob")), .session (.callback 1 .stored),
    .session (.callback 0 (.signedIn "alice")), .session (.logoutTapped false),
    .session (.callback 1 (.url none))]

/-- Each of the three places passes an empty id: for a summary that has its timestamp and
nothing else, after a wrong password, and after a logout during a registration. -/
theorem not_named :
    (∃ s, run (step id) (initial .empty) (signIn (.signedIn "alice") ++
      [.snapshot 0 [(⟨⟨0, 0⟩, some "alice"⟩,
        ⟨.added, ⟨.named "bob", [("timestamp", .timestamp ⟨1, 0⟩)]⟩⟩)]]) = some s ∧
      ¬ s.Named) ∧
    (∃ s, run (step id) (initial .empty)
      (signIn (.failure ⟨"wrong-password"⟩) ++ [.profileTapped]) = some s ∧ ¬ s.Named) ∧
    ∃ s, run (step id) (initial .empty) (signOutInRegistration ⟨⟨none, "", "", "", ""⟩, "image"⟩) =
      some s ∧ ¬ s.Named :=
  ⟨⟨_, run_final rfl, by decide⟩, ⟨_, run_final rfl, by decide⟩, ⟨_, run_final rfl, by decide⟩⟩

end App

end WaffleChat
