import WaffleChat.Library.EventSystem
import WaffleChat.Service.Authentication
import WaffleChat.Service.FetchConversations
import WaffleChat.Service.FetchUsers

/-!
# The directory of registered users

What registrations write and what the two fetches read.  The writer and the readers
share five keys, one of which is not spelled like the field it is for.

Main results:

- Theorem `init_docData`: the profile a registration writes is read back as a user.
- Theorem `documents_run`: the profiles after any number of registrations.
- Theorem `fetches_registered`: the fetches deliver exactly the registered users.
-/

namespace WaffleChat

open CallbackProgram EventSystem Observers

/-! ## One registration -/

/-- Firebase serves the requests of a program one after another, with the given
outcomes. -/
def Firebase.serve : Firebase → AuthProgram → List Outcome → Option (Firebase × AuthProgram)
  | firebase, p, [] => some (firebase, p)
  | firebase, p, outcome :: outcomes => do
      let request ← p.awaiting
      let (firebase, answer) ← firebase.answer request outcome
      serve firebase (p.resume answer) outcomes

/-- Serving a program goes on with its first request. -/
theorem Firebase.serve_await (firebase : Firebase) (request : AuthRequest)
    (next : AuthAnswer → AuthProgram) (outcome : Outcome) (outcomes : List Outcome) :
    firebase.serve (.await request next) (outcome :: outcomes) =
      (firebase.answer request outcome).bind fun served =>
        served.1.serve (next served.2) outcomes :=
  rfl

/-- A registration that succeeds: the values of the form, the file name drawn for the
image, and the uid and the download URL that Firebase hands out. -/
structure Enrollment where
  values : Register
  filename : String
  uid : Uid
  url : Option String
deriving DecidableEq, Repr

namespace Enrollment

variable (lowercased : String → String)

/-- All four requests of the registration succeed. -/
def outcomes (r : Enrollment) : List Outcome :=
  [.created r.uid, .stored, .url r.url, .stored]

/-- The registration runs from its first request to its last. -/
def register (firebase : Firebase) (r : Enrollment) : Option Firebase := do
  let served ← firebase.serve (performRegistration lowercased r.filename r.values) r.outcomes
  return served.1

/-- The user that has registered. -/
def user (r : Enrollment) : User where
  email := r.values.email
  fullname := r.values.fullName
  profileImageUrl := r.url.getD ""
  uid := r.uid
  username := lowercased r.values.userName

/-- The profile document of the user. -/
def profile (r : Enrollment) : StoredDocument where
  id := .named r.uid
  data := docData lowercased r.values (r.url.getD "") r.uid

/-- The profile is read back as the user that has registered. -/
theorem init_docData (r : Enrollment) :
    User.init? (r.profile lowercased).data = some (r.user lowercased) :=
  User.init_eq_some_iff.2 ⟨rfl, rfl, rfl, rfl, rfl⟩

/-- Once the account is made, its image and its profile are stored. -/
theorem serve_saveImageToFirebase (accounts : List (String × Uid)) (store : Firestore)
    {r : Enrollment} (hname : r.uid ≠ "") :
    (Firebase.serve ⟨accounts, some r.uid, store⟩
      (saveImageToFirebase lowercased r.filename r.values) [.stored, .url r.url, .stored]).map
        Prod.fst =
      some ⟨accounts, some r.uid,
        store.setData usersPath (.named r.uid) (r.profile lowercased).data⟩ := by
  rw [saveImageToFirebase, Firebase.serve_await, Firebase.answer, Option.bind_some]
  rw [Firebase.serve_await, Firebase.answer, Option.bind_some]
  rw [saveInfoToFirestore, Firebase.serve_await, Option.getD_some, Firebase.answer, if_neg hname]
  rfl

/-- A registration that succeeds makes an account nobody had and writes its profile. -/
theorem register_eq_some {firebase firebase' : Firebase} {r : Enrollment}
    (h : register lowercased firebase r = some firebase') :
    firebase.Unused r.values.email r.uid ∧ firebase' =
      { accounts := firebase.accounts ++ [(r.values.email, r.uid)]
        currentUser := some r.uid
        store := firebase.store.setData usersPath (.named r.uid) (r.profile lowercased).data } := by
  have hserved : (firebase.serve (performRegistration lowercased r.filename r.values)
      r.outcomes).map Prod.fst = some firebase' := by
    simpa [register, Option.map_eq_bind] using h
  rw [performRegistration, outcomes, Firebase.serve_await, Firebase.answer] at hserved
  by_cases hunused : firebase.Unused r.values.email r.uid
  · rw [if_pos hunused, Option.bind_some] at hserved
    exact ⟨hunused, Option.some.inj
      (hserved.symm.trans (serve_saveImageToFirebase lowercased _ _ hunused.1))⟩
  · rw [if_neg hunused] at hserved
    cases hserved

/-! ## All registrations -/

/-- The accounts made by a sequence of registrations. -/
theorem accounts_run {rs : List Enrollment} {firebase firebase' : Firebase}
    (hrun : run (register lowercased) firebase rs = some firebase') :
    firebase'.accounts = firebase.accounts ++ rs.map fun r => (r.values.email, r.uid) := by
  induction rs generalizing firebase with
  | nil =>
      obtain rfl : firebase = firebase' := Option.some.inj hrun
      simp
  | cons r rs ih =>
      rcases run_cons_eq_some.1 hrun with ⟨next, hnext, hrest⟩
      rw [ih hrest, (register_eq_some lowercased hnext).2]
      simp

/-- No two accounts share a uid. -/
theorem nodup_accounts_run {rs : List Enrollment} {firebase firebase' : Firebase}
    (h : (firebase.accounts.map Prod.snd).Nodup)
    (hrun : run (register lowercased) firebase rs = some firebase') :
    (firebase'.accounts.map Prod.snd).Nodup := by
  refine run_invariant (P := fun firebase => (firebase.accounts.map Prod.snd).Nodup) ?_ h hrun
  intro a r b ha hab
  rcases register_eq_some lowercased hab with ⟨⟨-, hunused⟩, rfl⟩
  simp only [List.map_append, List.map_cons, List.map_nil]
  refine List.nodup_append.2 ⟨ha, List.nodup_singleton _, ?_⟩
  intro uid huid _ hlast
  rcases List.mem_map.1 huid with ⟨account, haccount, rfl⟩
  rw [List.mem_singleton.1 hlast]
  exact (hunused account haccount).2

/-- The profiles after a sequence of registrations are the old ones and one for each
registration. -/
theorem documents_run {rs : List Enrollment} {firebase firebase' : Firebase}
    (hnamed : ∀ doc ∈ firebase.store.documents usersPath,
      ∃ account ∈ firebase.accounts, doc.id = .named account.2)
    (hrun : run (register lowercased) firebase rs = some firebase') :
    firebase'.store.documents usersPath =
      firebase.store.documents usersPath ++ rs.map (profile lowercased) := by
  induction rs generalizing firebase with
  | nil =>
      obtain rfl : firebase = firebase' := Option.some.inj hrun
      simp
  | cons r rs ih =>
      rcases run_cons_eq_some.1 hrun with ⟨next, hnext, hrest⟩
      rcases register_eq_some lowercased hnext with ⟨⟨-, hunused⟩, rfl⟩
      have hkept : (firebase.store.documents usersPath).filter (fun doc => doc.id ≠ .named r.uid) =
          firebase.store.documents usersPath := by
        rw [List.filter_eq_self]
        intro doc hdoc
        rcases hnamed doc hdoc with ⟨account, haccount, hid⟩
        simpa [hid] using (hunused account haccount).2
      have hdocuments : (firebase.store.setData usersPath (.named r.uid)
          (r.profile lowercased).data).documents usersPath =
          firebase.store.documents usersPath ++ [r.profile lowercased] := by
        rw [Firestore.documents_setData, if_pos rfl, hkept]
        rfl
      rw [ih ?_ hrest, hdocuments, List.map_cons, List.append_assoc, List.singleton_append]
      rw [hdocuments]
      simp only [List.forall_mem_append, List.forall_mem_singleton]
      refine ⟨?_, (r.values.email, r.uid), List.mem_append_right _ (List.mem_singleton_self _),
        rfl⟩
      intro doc hdoc
      rcases hnamed doc hdoc with ⟨account, haccount, hid⟩
      exact ⟨account, List.mem_append_left _ haccount, hid⟩

/-- Registered users have different uids. -/
theorem nodup_uids {rs : List Enrollment} {firebase : Firebase}
    (hrun : run (register lowercased) .empty rs = some firebase) : (rs.map uid).Nodup := by
  have haccounts := nodup_accounts_run lowercased (by simp [Firebase.empty]) hrun
  rw [accounts_run lowercased hrun] at haccounts
  simpa [Firebase.empty, Function.comp_def] using haccounts

end Enrollment

/-! ## Reading the profiles -/

/-- A document is found under its id when no other document has it. -/
theorem Firestore.document_of_mem {store : Firestore} {path : CollectionPath}
    {doc : StoredDocument} (hnodup : ((store.documents path).map StoredDocument.id).Nodup)
    (hmem : doc ∈ store.documents path) : store.document? path doc.id = some doc.data := by
  have hfind : (store.documents path).find? (fun other => other.id = doc.id) = some doc := by
    obtain ⟨found, hfound⟩ : ∃ found,
        (store.documents path).find? (fun other => other.id = doc.id) = some found := by
      rw [← Option.isSome_iff_exists, List.find?_isSome]
      exact ⟨doc, hmem, by simp⟩
    have hid : found.id = doc.id := by simpa using List.find?_some hfound
    rw [hfound, List.inj_on_of_nodup_map hnodup (List.mem_of_find?_eq_some hfound) hmem hid]
  rw [document?, hfind, Option.map_some]

namespace Enrollment

variable (lowercased : String → String)

/-- The profiles all decode, to the registered users. -/
theorem filterMap_init (rs : List Enrollment) :
    (rs.map fun r => (r.profile lowercased).data).filterMap User.init? =
      rs.map (user lowercased) := by
  rw [List.filterMap_map, ← List.filterMap_eq_map]
  exact List.filterMap_congr fun r _ => init_docData lowercased r

/-- **Registered users are the directory.**  After any sequence of registrations, whoever
is signed in and in whatever order the documents come, `fetchUsers` delivers one user for
each registration but those of the viewer, and `fetchUser` delivers the user it is asked
for. -/
theorem fetches_registered {rs : List Enrollment} {firebase : Firebase}
    (hrun : run (register lowercased) .empty rs = some firebase) :
    (∀ (viewer : Uid) (documents : List Dictionary),
      documents.Perm ((firebase.store.documents usersPath).map StoredDocument.data) →
      ∃ users, (feed CreateSink.on CreateSink.fresh
          (fetchUsers ⟨none, some documents, some viewer⟩)).2 = [.next users, .completed] ∧
        users.Perm ((rs.filter fun r => r.uid ≠ viewer).map (user lowercased)) ∧
        (users.map User.uid).Nodup) ∧
    ∀ r ∈ rs, (feed CreateSink.on CreateSink.fresh
        (fetchUser (firebase.store.document? usersPath (.named r.uid)))).2 =
      [.next (some (r.user lowercased)), .completed] := by
  have hdocuments : firebase.store.documents usersPath = rs.map (profile lowercased) := by
    simpa [Firebase.empty] using documents_run lowercased (by simp [Firebase.empty]) hrun
  have huids := nodup_uids lowercased hrun
  constructor
  · intro viewer documents hperm
    rw [delivered_fetchUsers]
    refine ⟨_, rfl, ?_⟩
    have husers : (UsersAnswer.users ⟨none, some documents, some viewer⟩).Perm
        ((rs.filter fun r => r.uid ≠ viewer).map (user lowercased)) := by
      rw [hdocuments, List.map_map] at hperm
      have hdecoded : (documents.filterMap User.init?).Perm (rs.map (user lowercased)) := by
        rw [← filterMap_init]
        exact hperm.filterMap User.init?
      refine (hdecoded.filter fun user => some user.uid ≠ some viewer).trans ?_
      rw [List.filter_map]
      refine List.Perm.of_eq (congrArg _ ?_)
      exact List.filter_congr fun r _ => decide_eq_decide.2 (not_congr (Option.some_inj (b := _)))
    refine ⟨husers, (husers.map User.uid).nodup_iff.2 ?_⟩
    rw [List.map_map]
    exact (huids.sublist (List.filter_sublist.map _))
  · intro r hr
    have hids : ((firebase.store.documents usersPath).map StoredDocument.id).Nodup := by
      rw [hdocuments, List.map_map]
      have hnames : (rs.map (DocumentId.named ∘ uid)).Nodup := by
        rw [← List.map_map]
        exact huids.map fun _ _ h => DocumentId.named.inj h
      exact hnames
    have hmem : r.profile lowercased ∈ firebase.store.documents usersPath := by
      rw [hdocuments]
      exact List.mem_map_of_mem hr
    have hfound : firebase.store.document? usersPath (.named r.uid) =
        some (r.profile lowercased).data := Firestore.document_of_mem hids hmem
    rw [ConversationFeed.delivered_fetchUser, hfound, fetchUser, Option.bind_some, init_docData]

/-- Two registrations. -/
def aliceAndBob : List Enrollment :=
  [⟨⟨some [1], "alice@example.com", "Alice", "Alice", "password"⟩, "one", "a", some "https://a"⟩,
   ⟨⟨none, "bob@example.com", "Bob", "bob", "password"⟩, "two", "b", none⟩]

theorem fetches_registered_aliceAndBob :
    ∃ firebase, run (register String.toLower) .empty aliceAndBob = some firebase ∧
      (feed CreateSink.on CreateSink.fresh
        (fetchUser (firebase.store.document? usersPath (.named "a")))).2 =
        [.next (some ⟨"alice@example.com", "Alice", "https://a", "a", String.toLower "Alice"⟩),
          .completed] :=
  ⟨_, run_final rfl, (fetches_registered String.toLower (run_final rfl)).2 _ List.mem_cons_self⟩

end Enrollment

end WaffleChat
