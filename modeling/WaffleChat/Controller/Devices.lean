import WaffleChat.Controller.OpenChats
import WaffleChat.Controller.RegisteredSessions
import WaffleChat.Service.SharedStore

/-!
# The app on all devices

Any number of devices over one Firebase project: on each a session with its forms, and on all
of them chat screens, opened by whoever is signed in for users that `fetchUsers` or
`fetchUser` has delivered.  Profiles and messages lie in one database.

Main results:

- Theorem `Devices.sound_step`: who takes part in chats has an account.
- Theorem `Devices.database_accounted`: what the database contains after any run.
- Theorem `Devices.chats_unaffected`: the chat screens run as if there were nothing else.
-/

namespace WaffleChat

open CallbackProgram EventSystem Observers

/-! ## Sessions and chats -/

/-- A session touches no documents but profiles. -/
theorem Session.without_step {lowercased : String → String} {s s' : Session}
    {e : SessionEvent} (hstep : Session.step lowercased s e = some s') :
    s'.firebase.store.without usersPath = s.firebase.store.without usersPath := by
  rcases Session.step_cases lowercased hstep with
    ⟨i, outcome, b, b', request, answer, -, hanswered⟩ | ⟨hne, -⟩
  · rcases Firebase.store_answer hanswered.firebase_eq with hsame | ⟨uid, docData, -, -, hstore⟩
    · rw [hsame]
    · rw [hstore, Firestore.without_setData]
  · rcases Session.firebase_of_not_callback hne hstep with hsame | hout
    · rw [hsame]
    · rw [hout]
      rfl

/-- A listener of a log sees nothing of the profiles. -/
@[simp]
theorem Delivery.visible_withoutUsers (s : Delivery) (owner peer : Uid) :
    s.withoutUsers.visible owner peer = s.visible owner peer := by
  have hne : logPath owner peer ≠ usersPath := by simp [logPath, usersPath]
  simp [visible, withoutUsers, Firestore.documents_without_of_ne _ hne]

namespace OpenChats

/-- The chat screens over a database without profiles. -/
def withoutUsers (s : OpenChats) : OpenChats :=
  { s with delivery := s.delivery.withoutUsers }

/-- Chat screens go on as if there were no profiles. -/
theorem step_withoutUsers {s s' : OpenChats} {e : OpenChatsEvent}
    (hstage : ∀ t ∈ s.delivery.tasks, Delivery.AtStage t) (hstep : step s e = some s') :
    step s.withoutUsers e = some s'.withoutUsers := by
  cases e with
  | opened uid user =>
      simp only [step, Option.ite_none_right_eq_some, Option.some.injEq] at hstep
      rcases hstep with ⟨hother, rfl⟩
      simp [step, hother, withoutUsers]
  | inputText k text =>
      simp only [step, bind_pure_eq_some] at hstep
      rcases hstep with ⟨chat, hget, rfl⟩
      simp [step, withoutUsers, hget]
  | sendButtonTapped k date =>
      simp only [step, Option.bind_eq_bind, Option.bind_eq_some_iff, Option.pure_def] at hstep
      rcases hstep with ⟨chat, hget, htapped⟩
      split at htapped
      · rename_i hempty
        obtain rfl := Option.some.inj htapped
        simp [step, withoutUsers, hget, hempty]
      · rename_i htext
        rcases Option.bind_eq_some_iff.1 htapped with ⟨delivery, hdelivery, hs'⟩
        obtain rfl := Option.some.inj hs'
        simp [step, withoutUsers, hget, htext, Delivery.step_withoutUsers hstage hdelivery]
  | backend e =>
      simp only [step, Option.bind_eq_bind, Option.bind_eq_some_iff, Option.guard_eq_some',
        Option.pure_def, Option.some.injEq] at hstep
      rcases hstep with ⟨-, hstarted, delivery, hdelivery, rfl⟩
      simp [step, withoutUsers, hstarted, Delivery.step_withoutUsers hstage hdelivery]
  | snapshot k callback =>
      simp only [step, Option.bind_eq_bind, Option.bind_eq_some_iff, Option.pure_def,
        Option.some.injEq] at hstep
      rcases hstep with ⟨chat, hget, chat', hchat', rfl⟩
      have hreceives : chat.Receives s.delivery.withoutUsers callback ↔
          chat.Receives s.delivery callback := by
        simp [OpenChat.Receives]
      have hsame : chat.onSnapshot s.delivery.withoutUsers callback = some chat' := by
        rw [← hchat']
        by_cases hgiven : chat.Receives s.delivery callback
        · simp [OpenChat.onSnapshot, hreceives, hgiven]
        · simp [OpenChat.onSnapshot, hreceives, hgiven]
      simp [step, withoutUsers, hget, hsame]

/-- What a tap sends is sent from its screen. -/
theorem mem_sent {s : OpenChats} {e : OpenChatsEvent} {u : Upload} (h : u ∈ s.sent e) :
    ∃ chat ∈ s.chats, ∃ date, u = chat.upload date := by
  cases e with
  | sendButtonTapped k date =>
      cases hget : s.chats[k]? with
      | none => simp [sent, hget] at h
      | some chat =>
          refine ⟨chat, List.mem_of_getElem? hget, date, ?_⟩
          simp only [sent, hget, Option.elim_some] at h
          split at h
          · cases h
          · exact List.mem_singleton.1 h
  | _ => cases h

/-- No chat screen touches a profile. -/
theorem documents_users_step {s s' : OpenChats} {e : OpenChatsEvent}
    (hstage : ∀ t ∈ s.delivery.tasks, Delivery.AtStage t) (hstep : step s e = some s') :
    s'.delivery.store.documents usersPath = s.delivery.store.documents usersPath := by
  rcases step_cases hstep with ⟨uid, user, -, -, -, rfl⟩ | ⟨k, text, chat, -, -, rfl⟩ |
    ⟨k, date, -, -, rfl⟩ | ⟨d, delivery, -, -, hdelivery, rfl⟩ |
    ⟨k, callback, chat, chat', -, -, -, rfl⟩
  · rfl
  · rfl
  · rfl
  · exact Delivery.documents_users_step hstage hdelivery
  · rfl

end OpenChats

/-! ## All devices -/

/-- The accounts, the chat screens on all devices over the database, the sessions of the
devices, and the users that have been handed out to them. -/
structure Devices where
  accounts : List (String × Uid)
  chats : OpenChats
  sessions : List FilledSession
  users : List User

/-- What can happen next. -/
inductive DevicesEvent where
  /-- The app is installed on one more device. -/
  | installed
  /-- Something happens to the session of device `k`. -/
  | session (k : Nat) (e : FilledEvent)
  /-- `fetchUsers` on device `k` is handed the profiles in some order. -/
  | fetchedUsers (k : Nat) (documents : List Dictionary)
  /-- `fetchUser` is handed the profile of `uid`. -/
  | fetchedUser (uid : Uid)
  /-- Something happens to the chat screens and their messages. -/
  | chat (e : OpenChatsEvent)

/-- The event of the chat screens, if it is one. -/
def DevicesEvent.chat? : DevicesEvent → Option OpenChatsEvent
  | .chat e => some e
  | _ => none

namespace Devices

variable (lowercased : String → String) (selfMatches : (pattern text : String) → Bool)
  (count : String → Nat)

/-- No accounts, no documents, no devices. -/
def initial : Devices where
  accounts := []
  chats := .initial
  sessions := []
  users := []

/-- The database. -/
def store (s : Devices) : Firestore :=
  s.chats.delivery.store

/-- Firebase as a device sees it on which `currentUser` is signed in. -/
def firebase (s : Devices) (currentUser : Option Uid) : Firebase :=
  ⟨s.accounts, currentUser, s.store⟩

/-- The session of a device, over what is stored now. -/
def device (s : Devices) (d : FilledSession) : FilledSession :=
  { d with
    session := { d.session with firebase := s.firebase d.session.firebase.currentUser } }

/-- A session has gone on, with what it has stored. -/
def update (s : Devices) (k : Nat) (d : FilledSession) : Devices where
  accounts := d.session.firebase.accounts
  chats :=
    { s.chats with
      delivery := { s.chats.delivery with store := d.session.firebase.store } }
  sessions := s.sessions.set k d
  users := s.users

/-- A chat is opened by a user signed in on one of the devices, for a user that has been
handed out. -/
def Opens (s : Devices) : OpenChatsEvent → Prop
  | .opened uid user =>
      (∃ d ∈ s.sessions, d.session.firebase.currentUser = some uid) ∧ user ∈ s.users
  | _ => True

instance (s : Devices) : DecidablePred s.Opens
  | .opened _ _ => inferInstanceAs (Decidable (_ ∧ _))
  | .inputText _ _ => inferInstanceAs (Decidable True)
  | .sendButtonTapped _ _ => inferInstanceAs (Decidable True)
  | .backend _ => inferInstanceAs (Decidable True)
  | .snapshot _ _ => inferInstanceAs (Decidable True)

/-- One event. -/
def step (s : Devices) : DevicesEvent → Option Devices
  | .installed =>
      some { s with sessions := s.sessions ++ [.initial selfMatches count .empty] }
  | .session k e => do
      let d ← s.sessions[k]?
      guard ((s.device d).SignsIn e)
      let d' ← (s.device d).step lowercased selfMatches count e
      return s.update k d'
  | .fetchedUsers k documents => do
      let d ← s.sessions[k]?
      guard (documents.Perm ((s.store.documents usersPath).map StoredDocument.data))
      let answer : UsersAnswer := ⟨none, some documents, d.session.firebase.currentUser⟩
      return { s with users := s.users ++ answer.users }
  | .fetchedUser uid => do
      let user ← (s.store.document? usersPath (.named uid)).bind User.init?
      return { s with users := s.users ++ [user] }
  | .chat e => do
      guard (s.Opens e)
      let chats ← s.chats.step e
      return { s with chats := chats }

variable {lowercased selfMatches count}

/-- Everything one event can do; users are handed out by reading profiles. -/
theorem step_cases {s s' : Devices} {e : DevicesEvent}
    (h : step lowercased selfMatches count s e = some s') :
    (e = .installed ∧
      s' = { s with sessions := s.sessions ++ [.initial selfMatches count .empty] }) ∨
    (∃ k e' d d', e = .session k e' ∧ s.sessions[k]? = some d ∧ (s.device d).SignsIn e' ∧
      (s.device d).step lowercased selfMatches count e' = some d' ∧ s' = s.update k d') ∨
    (∃ users, e.chat? = none ∧
      (∀ user ∈ users, ∃ doc ∈ s.store.documents usersPath, User.init? doc.data = some user) ∧
      s' = { s with users := s.users ++ users }) ∨
    (∃ e' chats, e = .chat e' ∧ s.Opens e' ∧ s.chats.step e' = some chats ∧
      s' = { s with chats := chats }) := by
  cases e with
  | installed => exact Or.inl ⟨rfl, (Option.some.inj h).symm⟩
  | session k e =>
      simp only [step, Option.bind_eq_bind, Option.bind_eq_some_iff, Option.guard_eq_some',
        Option.pure_def, Option.some.injEq] at h
      rcases h with ⟨d, hget, -, he, d', hd', rfl⟩
      exact Or.inr (Or.inl ⟨k, e, d, d', rfl, hget, he, hd', rfl⟩)
  | fetchedUsers k documents =>
      simp only [step, Option.bind_eq_bind, Option.bind_eq_some_iff, Option.guard_eq_some',
        Option.pure_def, Option.some.injEq] at h
      rcases h with ⟨d, -, -, hperm, rfl⟩
      refine Or.inr (Or.inr (Or.inl ⟨_, rfl, ?_, rfl⟩))
      intro user huser
      rcases UsersAnswer.mem_users_iff.1 huser with ⟨⟨dic, hdic, hinit⟩, -⟩
      rcases List.mem_map.1 (hperm.subset hdic) with ⟨doc, hdoc, rfl⟩
      exact ⟨doc, hdoc, hinit⟩
  | fetchedUser uid =>
      simp only [step, bind_pure_eq_some, Option.bind_eq_some_iff] at h
      rcases h with ⟨user, ⟨data, hdata, hinit⟩, rfl⟩
      refine Or.inr (Or.inr (Or.inl ⟨_, rfl, ?_, rfl⟩))
      intro other hother
      rcases Option.map_eq_some_iff.1 hdata with ⟨doc, hdoc, rfl⟩
      rw [List.mem_singleton.1 hother]
      exact ⟨doc, List.mem_of_find?_eq_some hdoc, hinit⟩
  | chat e =>
      simp only [step, Option.bind_eq_bind, Option.bind_eq_some_iff, Option.guard_eq_some',
        Option.pure_def, Option.some.injEq] at h
      rcases h with ⟨-, he, chats, hchats, rfl⟩
      exact Or.inr (Or.inr (Or.inr ⟨e, chats, rfl, he, hchats, rfl⟩))

/-! ## What holds on all devices -/

/-- The uids of the accounts. -/
def uids (s : Devices) : List Uid :=
  s.accounts.map Prod.snd

variable (lowercased selfMatches count) in
/-- Accounts and profiles are validated and belong together, the chats have gone on by
themselves, and whoever takes part in something has an account. -/
structure Sound (s : Devices) : Prop where
  validated : (s.firebase none).Validated lowercased selfMatches count
  registered : (s.firebase none).Registered
  chats : Reachable OpenChats.step .initial s.chats.withoutUsers
  sessions : ∀ d ∈ s.sessions, d.Sees selfMatches count s.uids
  users : ∀ user ∈ s.users, user.uid ∈ s.uids
  screens : ∀ chat ∈ s.chats.chats, chat.uid ∈ s.uids ∧ chat.user.uid ∈ s.uids
  uploads : ∀ u ∈ s.chats.delivery.uploads,
    u.currentUid ∈ s.uids ∧ u.peer ∈ s.uids ∧ u.currentUid ≠ u.peer

/-- At first there is no directory to leave out. -/
theorem initial_withoutUsers : initial.chats.withoutUsers = .initial := by
  simp [initial, OpenChats.withoutUsers, OpenChats.initial, Delivery.withoutUsers,
    Delivery.initial]

/-- At first nothing is stored. -/
theorem sound_initial : initial.Sound lowercased selfMatches count := by
  refine ⟨Firebase.validated_empty, Firebase.registered_empty, ?_, ?_, ?_, ?_, ?_⟩
  · rw [initial_withoutUsers]
    exact Reachable.refl _
  · simp [initial]
  · simp [initial]
  · simp [initial, OpenChats.initial]
  · simp [initial, OpenChats.initial, Delivery.initial, Delivery.uploads]

namespace Sound

variable {s : Devices} (h : s.Sound lowercased selfMatches count)

include h

/-- The uploads have gone on by themselves. -/
theorem tasks : ∀ t ∈ s.chats.delivery.tasks, Delivery.AtStage t := by
  have hstage := Delivery.reachable_tasks (OpenChats.reachable_delivery h.chats)
  exact hstage

/-- A profile that is read belongs to an account. -/
theorem init_mem_uids {doc : StoredDocument} (hdoc : doc ∈ s.store.documents usersPath)
    {user : User} (hinit : User.init? doc.data = some user) : user.uid ∈ s.uids := by
  rcases (h.validated.profiles doc hdoc).init_eq with ⟨user', hinit', hid, -⟩
  obtain rfl := Option.some.inj (hinit.symm.trans hinit')
  rcases h.registered.profiles doc hdoc with ⟨uid, huid, hname⟩
  rwa [← DocumentId.named.inj (hname.symm.trans hid)]

/-- A device over what is stored now is sound. -/
theorem device {d : FilledSession} (hd : d ∈ s.sessions) :
    (s.device d).Sound lowercased selfMatches count ∧ (s.device d).session.Registered := by
  have hsees := h.sessions d hd
  refine ⟨⟨hsees.login, hsees.registrations, ?_, hsees.jobs⟩, ?_, hsees.answers⟩
  · exact ⟨h.validated.accounts, h.validated.profiles, h.validated.nodup⟩
  · exact ⟨h.registered.emails, h.registered.nodup, h.registered.profiles, hsees.current⟩

end Sound

/-- What a session stores is no concern of the chats. -/
theorem withoutUsers_update {s : Devices} {k : Nat} {d d' : FilledSession} {e : FilledEvent}
    (he : (s.device d).SignsIn e)
    (hstep : (s.device d).step lowercased selfMatches count e = some d') :
    (s.update k d').chats.withoutUsers = s.chats.withoutUsers := by
  have hstore : d'.session.firebase.store.without usersPath = s.store.without usersPath := by
    rcases FilledSession.session_step he hstep with hsame | ⟨e', -, hsession⟩
    · rw [hsame]
      rfl
    · exact Session.without_step hsession
  simp [update, OpenChats.withoutUsers, Delivery.withoutUsers, hstore, store]

/-- No session loses an account. -/
theorem Sound.uids_update {s : Devices} (h : s.Sound lowercased selfMatches count) {k : Nat}
    {d d' : FilledSession} {e : FilledEvent} (hget : s.sessions[k]? = some d)
    (he : (s.device d).SignsIn e)
    (hstep : (s.device d).step lowercased selfMatches count e = some d') :
    d'.session.Registered ∧ s.uids ⊆ (s.update k d').uids := by
  have hregistered := (h.device (List.mem_of_getElem? hget)).2
  rcases FilledSession.session_step he hstep with hsame | ⟨e', he', hsession⟩
  · rw [update, uids, uids, hsame]
    exact ⟨hregistered, List.Subset.refl _⟩
  · exact hregistered.step he' hsession

/-- A session that goes on keeps all devices sound. -/
theorem Sound.update {s : Devices} (h : s.Sound lowercased selfMatches count) {k : Nat}
    {d d' : FilledSession} {e : FilledEvent} (hget : s.sessions[k]? = some d)
    (he : (s.device d).SignsIn e)
    (hstep : (s.device d).step lowercased selfMatches count e = some d') :
    (s.update k d').Sound lowercased selfMatches count := by
  have hsound' := (h.device (List.mem_of_getElem? hget)).1.step hstep
  rcases h.uids_update hget he hstep with ⟨hregistered', hgrown⟩
  have hfirebase := hsound'.session.firebase
  refine ⟨?_, ?_, ?_, ?_, ?_, ?_, ?_⟩
  · exact ⟨hfirebase.accounts, hfirebase.profiles, hfirebase.nodup⟩
  · exact ⟨hregistered'.firebase.emails, hregistered'.firebase.nodup,
      hregistered'.firebase.profiles, fun _ hcurrent => nomatch hcurrent⟩
  · rw [withoutUsers_update he hstep]
    exact h.chats
  · intro other hmem
    rcases List.mem_or_eq_of_mem_set hmem with hold | rfl
    · exact (h.sessions other hold).mono hgrown
    · exact hsound'.sees hregistered'
  · intro user huser
    exact hgrown (h.users user huser)
  · intro chat hchat
    exact (h.screens chat hchat).imp (hgrown ·) (hgrown ·)
  · intro u hu
    exact (h.uploads u hu).imp (hgrown ·) (And.imp_left (hgrown ·))

/-- Screens are opened by and for users with accounts, and these are who sends. -/
theorem Sound.chat {s : Devices} (h : s.Sound lowercased selfMatches count)
    {e : OpenChatsEvent} (he : s.Opens e) {chats : OpenChats}
    (hstep : s.chats.step e = some chats) :
    ({ s with chats := chats } : Devices).Sound lowercased selfMatches count := by
  have hprofiles : chats.delivery.store.documents usersPath = s.store.documents usersPath :=
    OpenChats.documents_users_step h.tasks hstep
  refine ⟨?_, ?_, ?_, h.sessions, h.users, ?_, ?_⟩
  · refine ⟨h.validated.accounts, ?_, ?_⟩
    · exact hprofiles ▸ h.validated.profiles
    · exact hprofiles ▸ h.validated.nodup
  · exact ⟨h.registered.emails, h.registered.nodup, hprofiles ▸ h.registered.profiles,
      h.registered.current⟩
  · exact h.chats.next (OpenChats.step_withoutUsers h.tasks hstep)
  · rcases OpenChats.step_cases hstep with ⟨uid, user, rfl, -, -, rfl⟩ |
      ⟨k, text, chat, -, hget, rfl⟩ | ⟨k, date, -, -, rfl⟩ | ⟨d, delivery, -, -, -, rfl⟩ |
      ⟨k, callback, chat, chat', -, hget, hchat', rfl⟩
    · intro chat hchat
      rcases List.mem_append.1 hchat with hold | hnew
      · exact h.screens chat hold
      · rcases he with ⟨⟨d, hd, hcurrent⟩, huser⟩
        rw [List.mem_singleton.1 hnew]
        exact ⟨(h.sessions d hd).current uid hcurrent, h.users user huser⟩
    · intro other hmem
      rcases List.mem_or_eq_of_mem_set hmem with hold | rfl
      · exact h.screens other hold
      · exact h.screens chat (List.mem_of_getElem? hget)
    · exact h.screens
    · exact h.screens
    · intro other hmem
      rcases List.mem_or_eq_of_mem_set hmem with hold | rfl
      · exact h.screens other hold
      · rw [(OpenChat.onSnapshot_eq_some hchat').2]
        exact h.screens chat (List.mem_of_getElem? hget)
  · intro u hu
    rw [OpenChats.uploads_step hstep] at hu
    rcases List.mem_append.1 hu with hold | hnew
    · exact h.uploads u hold
    · rcases OpenChats.mem_sent hnew with ⟨chat, hchat, date, rfl⟩
      rcases OpenChats.sound_of_reachable h.chats chat hchat with ⟨seen, hsound⟩
      exact ⟨(h.screens chat hchat).1, (h.screens chat hchat).2, hsound.other⟩

/-- Users that are read from profiles can be handed out. -/
theorem Sound.handOut {s : Devices} (h : s.Sound lowercased selfMatches count)
    {users : List User} (husers : ∀ user ∈ users, ∃ doc ∈ s.store.documents usersPath,
      User.init? doc.data = some user) :
    ({ s with users := s.users ++ users } : Devices).Sound lowercased selfMatches count := by
  refine ⟨h.validated, h.registered, h.chats, h.sessions, ?_, h.screens, h.uploads⟩
  intro user huser
  rcases List.mem_append.1 huser with hold | hnew
  · exact h.users user hold
  · rcases husers user hnew with ⟨doc, hdoc, hinit⟩
    exact h.init_mem_uids hdoc hinit

/-- **Who takes part in chats has an account.** -/
theorem sound_step {s s' : Devices} {e : DevicesEvent} (h : s.Sound lowercased selfMatches count)
    (hstep : step lowercased selfMatches count s e = some s') :
    s'.Sound lowercased selfMatches count := by
  rcases step_cases hstep with ⟨-, rfl⟩ | ⟨k, e, d, d', -, hget, he, hd', rfl⟩ |
    ⟨users, -, husers, rfl⟩ | ⟨e, chats, -, he, hchats, rfl⟩
  · refine ⟨h.validated, h.registered, h.chats, ?_, h.users, h.screens, h.uploads⟩
    intro d hd
    rcases List.mem_append.1 hd with hold | hnew
    · exact h.sessions d hold
    · rw [List.mem_singleton.1 hnew]
      exact FilledSession.sees_initial _
  · exact h.update hget he hd'
  · exact h.handOut husers
  · exact h.chat he hchats

/-- No account is lost. -/
theorem uids_step {s s' : Devices} {e : DevicesEvent} (h : s.Sound lowercased selfMatches count)
    (hstep : step lowercased selfMatches count s e = some s') : s.uids ⊆ s'.uids := by
  rcases step_cases hstep with ⟨-, rfl⟩ | ⟨k, e, d, d', -, hget, he, hd', rfl⟩ |
    ⟨users, -, -, rfl⟩ | ⟨e, chats, -, -, -, rfl⟩
  · exact List.Subset.refl _
  · exact (h.uids_update hget he hd').2
  · exact List.Subset.refl _
  · exact List.Subset.refl _

/-- Who has been handed out stays handed out. -/
theorem users_step {s s' : Devices} {e : DevicesEvent}
    (hstep : step lowercased selfMatches count s e = some s') : s.users ⊆ s'.users := by
  rcases step_cases hstep with ⟨-, rfl⟩ | ⟨k, e, d, d', -, -, -, -, rfl⟩ |
    ⟨users, -, -, rfl⟩ | ⟨e, chats, -, -, -, rfl⟩
  · exact List.Subset.refl _
  · exact List.Subset.refl _
  · exact List.subset_append_left _ _
  · exact List.Subset.refl _

/-- In every reachable state what is stored is accounted for. -/
theorem sound_of_reachable {s : Devices}
    (hreach : Reachable (step lowercased selfMatches count) initial s) :
    s.Sound lowercased selfMatches count :=
  hreach.invariant (fun _ _ _ _ h hstep => sound_step h hstep) sound_initial

/-- **All that the database ever contains.**  In every run, on any number of devices, accounts
have valid emails and emails and uids of their own; the documents in `users` are validated
profiles, each stored under the uid of an account, at most one for each; and every other
document is where one of the writes of an upload puts it, from one account to another. -/
theorem database_accounted {s : Devices}
    (hreach : Reachable (step lowercased selfMatches count) initial s) :
    (∀ account ∈ s.accounts, isValidEmailAddress selfMatches account.1 = true) ∧
      (s.accounts.map Prod.fst).Nodup ∧ s.uids.Nodup ∧
      ((s.store.documents usersPath).map StoredDocument.id).Nodup ∧
      (∀ doc ∈ s.store.documents usersPath,
        ValidProfile lowercased selfMatches count doc ∧ ∃ uid ∈ s.uids, doc.id = .named uid) ∧
      ∀ path, path ≠ usersPath → ∀ doc ∈ s.store.documents path,
        ∃ u ∈ s.chats.delivery.uploads, u.currentUid ∈ s.uids ∧ u.peer ∈ s.uids ∧
          u.currentUid ≠ u.peer ∧ ∃ request ∈ u.writes, request.Puts path doc := by
  have h := sound_of_reachable hreach
  refine ⟨h.validated.accounts, h.registered.emails, h.registered.nodup, h.validated.nodup,
    ?_, ?_⟩
  · intro doc hdoc
    exact ⟨h.validated.profiles doc hdoc, h.registered.profiles doc hdoc⟩
  · intro path hpath doc hdoc
    have hkept : doc ∈ s.chats.withoutUsers.delivery.store.documents path := by
      rwa [OpenChats.withoutUsers, Delivery.withoutUsers,
        Firestore.documents_without_of_ne _ hpath]
    rcases Delivery.put_of_reachable (OpenChats.reachable_delivery h.chats) hkept with
      ⟨u, hu, request, hrequest, hputs⟩
    rcases h.uploads u hu with ⟨hcurrent, hpeer, hne⟩
    exact ⟨u, hu, hcurrent, hpeer, hne, request, hrequest, hputs⟩

/-- The emails of Alice and Bob are valid. -/
def twoEmails (_ text : String) : Bool :=
  text = "alice@example.com" ∨ text = "bob@example.com"

/-- Somebody registers on device `k`. -/
def signsUp (k : Nat) (email name : String) (uid : Uid) : List DevicesEvent :=
  let filled : List FilledEvent :=
    [.session .launch, .session .goToSignUpTapped, .registrationEdited .email email,
     .registrationEdited .fullName name, .registrationEdited .userName name,
     .registrationEdited .password "longenough", .registrationEdited .profileImage (some [1]),
     .signUpButtonTapped uid, .session (.callback 0 (.created uid)),
     .session (.callback 0 .stored), .session (.callback 0 (.url (some uid))),
     .session (.callback 0 .stored)]
  filled.map (.session k)

/-- The profile Bob registers. -/
def bob : User :=
  ⟨"bob@example.com", "Robert", "b", "b", "Robert"⟩

/-- Alice and Bob register, and Alice writes to Bob. -/
def meeting : List DevicesEvent :=
  [.installed, .installed] ++ signsUp 0 "alice@example.com" "Alice" "a" ++
  signsUp 1 "bob@example.com" "Robert" "b" ++
  [.fetchedUser "b", .chat (.opened "a" bob), .chat (.inputText 0 "hello"),
   .chat (.sendButtonTapped 0 ⟨1, 0⟩), .chat (.backend (.decide 0 .committed)),
   .chat (OpenChats.handed 0 "a" [⟨.auto 0 0, messageData "hello" "a" "b" ⟨1, 0⟩⟩])]

/-- The state after it. -/
def met : Devices :=
  final (step id twoEmails String.length) initial meeting

theorem database_accounted_meeting :
    (met.store.documents usersPath).length = 2 ∧
      (met.store.documents (logPath "a" "b")).length = 1 ∧
      met.uids.Nodup ∧
      ∀ doc ∈ met.store.documents (logPath "a" "b"),
        ∃ u ∈ met.chats.delivery.uploads, u.currentUid ∈ met.uids ∧ u.peer ∈ met.uids ∧
          u.currentUid ≠ u.peer ∧ ∃ request ∈ u.writes, request.Puts (logPath "a" "b") doc := by
  have hreach : Reachable (step id twoEmails String.length) initial met :=
    reachable_final (by decide)
  rcases database_accounted hreach with ⟨-, -, hnodup, -, -, hmessages⟩
  exact ⟨by decide, by decide, hnodup, hmessages (logPath "a" "b") (by decide)⟩

/-- Without profiles, an event of the app is one of the chat screens, or none. -/
theorem chats_step {s s' : Devices} {e : DevicesEvent} (h : s.Sound lowercased selfMatches count)
    (hstep : step lowercased selfMatches count s e = some s') :
    run OpenChats.step s.chats.withoutUsers e.chat?.toList = some s'.chats.withoutUsers := by
  rcases step_cases hstep with ⟨rfl, rfl⟩ | ⟨k, e, d, d', rfl, -, he, hd', rfl⟩ |
    ⟨users, hnone, -, rfl⟩ | ⟨e, chats, rfl, -, hchats, rfl⟩
  · rfl
  · exact congrArg some (withoutUsers_update he hd').symm
  · rw [hnone]
    rfl
  · exact run_cons_eq_some.2 ⟨_, OpenChats.step_withoutUsers h.tasks hchats, rfl⟩

/-- Without profiles, the chat screens run on their own events. -/
theorem run_chats {s : Devices} {es : List DevicesEvent}
    (hrun : run (step lowercased selfMatches count) initial es = some s) :
    run OpenChats.step .initial (es.filterMap DevicesEvent.chat?) =
      some s.chats.withoutUsers := by
  rw [← initial_withoutUsers]
  refine run_filterMap (f := fun s : Devices => s.chats.withoutUsers)
    (I := fun s => s.Sound lowercased selfMatches count) ?_ ?_ sound_initial hrun
  · intro a e b ha hab
    exact sound_step ha hab
  · intro a e b ha hab
    exact chats_step ha hab

/-- **The chats are those of the chat screens alone.**  In every run, on any number of
devices, the screens, the uploads and the messages stored are what the events of the chats
lead to when there are no accounts and no profiles; and a screen shows only messages that
its two users have sent each other, who both have accounts, each at most once. -/
theorem chats_unaffected {s : Devices} {es : List DevicesEvent}
    (hrun : run (step lowercased selfMatches count) initial es = some s) :
    run OpenChats.step .initial (es.filterMap DevicesEvent.chat?) = some s.chats.withoutUsers ∧
      ∀ chat ∈ s.chats.chats, chat.uid ∈ s.uids ∧ chat.user.uid ∈ s.uids ∧
        chat.feed.chatMessages.Subperm
          (((trace OpenChats.step OpenChats.sent .initial
            (es.filterMap DevicesEvent.chat?)).filter fun u =>
              Delivery.Between chat.uid chat.user.uid u).map (Upload.shownTo chat.uid)) := by
  have h := sound_of_reachable ⟨es, hrun⟩
  have hchats := run_chats hrun
  refine ⟨hchats, ?_⟩
  intro chat hchat
  rcases OpenChats.sound_of_reachable h.chats chat hchat with ⟨seen, hsound⟩
  rw [← OpenChats.uploads_eq hchats]
  exact ⟨(h.screens chat hchat).1, (h.screens chat hchat).2, hsound.subperm⟩

theorem chats_unaffected_meeting :
    (met.chats.chats.map fun chat => chat.feed.chatMessages.length) = [1] ∧
      run OpenChats.step .initial (meeting.filterMap DevicesEvent.chat?) =
        some met.chats.withoutUsers ∧
      ∀ chat ∈ met.chats.chats, chat.uid ∈ met.uids ∧ chat.user.uid ∈ met.uids := by
  have hrun : run (step id twoEmails String.length) initial meeting = some met :=
    run_final (by decide)
  rcases chats_unaffected hrun with ⟨hchats, hscreens⟩
  refine ⟨by decide, hchats, ?_⟩
  intro chat hchat
  exact ⟨(hscreens chat hchat).1, (hscreens chat hchat).2.1⟩

end Devices

end WaffleChat
