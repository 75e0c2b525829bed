import WaffleChat.Controller.OpenChats
import WaffleChat.Library.Executions
import WaffleChat.Service.UploadProgress

/-!
# Every screen catches up

Chat screens in an execution without end.  The backend decides what is outstanding sooner or
later, and a listener is handed what has been written to its log sooner or later; how long
either takes is left open.

Main results:

- Theorems `workLeft_backend` and `workLeft_other`: only the store works the uploads off.
- Theorem `eventually_quiet`: after the last tap the uploads come to their end.
- Theorem `eventually_shows`: a screen comes to show all that has been sent, and stays so.
-/

namespace WaffleChat

open CallbackProgram EventSystem

namespace OpenChats

/-- As long as an upload has something left to do one of them goes on, and the listener of
screen `k` is handed its whole log again and again. -/
structure Fair {s : OpenChats} (x : Execution step s) (k : Nat) : Prop where
  goesOn : ∀ n, (∃ e, e.Continues ∧ ((x.state n).delivery.step e).isSome) →
    ∃ m, n ≤ m ∧ ∃ e, x.event m = .backend e ∧ e.Continues
  catchesUp : ∀ n chat, (x.state n).chats[k]? = some chat →
    ∃ m chat', n ≤ m ∧ (x.state m).chats[k]? = some chat' ∧ (x.state m).Complete chat'

/-! ## One event -/

/-- The screens start the uploads themselves, and no process stops in a run that succeeds. -/
theorem workLeft_backend {s s' : OpenChats} (hreach : Reachable step initial s)
    {e : DeliveryEvent} (hsucceeds : e.Succeeds) (hstep : step s (.backend e) = some s') :
    e.Continues ∧ s'.delivery.workLeft + 1 = s.delivery.workLeft := by
  simp only [step, Option.bind_eq_bind, Option.bind_eq_some_iff, Option.guard_eq_some',
    Option.pure_def, Option.some.injEq] at hstep
  rcases hstep with ⟨-, hstarted, delivery, hdelivery, rfl⟩
  have hcontinues : e.Continues := by
    cases e with
    | upload u => cases hstarted
    | stop i => exact hsucceeds
    | _ => trivial
  exact ⟨hcontinues,
    Delivery.workLeft_continues (reachable_delivery hreach) hcontinues hdelivery⟩

/-- Any other event leaves as much to do, and unless it sends something the store alone. -/
theorem workLeft_other {s s' : OpenChats} {e : OpenChatsEvent} (hother : ∀ d, e ≠ .backend d)
    (hstep : step s e = some s') :
    s.delivery.workLeft ≤ s'.delivery.workLeft ∧ (sent s e = [] → s'.delivery = s.delivery) := by
  rcases step_cases hstep with ⟨uid, user, -, -, -, rfl⟩ | ⟨k, text, chat, -, -, rfl⟩ |
    ⟨k, date, -, -, rfl⟩ | ⟨d, delivery, hevents, -, hdelivery, rfl⟩ |
    ⟨k, callback, chat, chat', -, -, -, rfl⟩
  · exact ⟨le_rfl, fun _ => rfl⟩
  · exact ⟨le_rfl, fun _ => rfl⟩
  · exact ⟨le_rfl, fun _ => rfl⟩
  · have hsent : (sent s e).map DeliveryEvent.upload = [d] := by
      cases e with
      | backend d => exact absurd rfl (hother d)
      | _ => exact hevents
    rcases List.map_eq_singleton_iff.1 hsent with ⟨u, hu, rfl⟩
    refine ⟨?_, fun hnil => ?_⟩
    · obtain rfl := Option.some.inj hdelivery
      simp [Delivery.workLeft]
    · rw [hnil] at hu
      cases hu
  · exact ⟨le_rfl, fun _ => rfl⟩

/-- An event that sends nothing leaves no more to do than there was. -/
theorem workLeft_le {s s' : OpenChats} (hreach : Reachable step initial s)
    {e : OpenChatsEvent} (hsucceeds : e.Succeeds) (hsent : sent s e = [])
    (hstep : step s e = some s') :
    s'.delivery.workLeft ≤ s.delivery.workLeft ∧
      (s.delivery.workLeft = 0 → s'.delivery = s.delivery) := by
  by_cases hbackend : ∃ d, e = .backend d
  · rcases hbackend with ⟨d, rfl⟩
    have hless := (workLeft_backend hreach hsucceeds hstep).2
    exact ⟨by omega, fun hzero => by omega⟩
  · have hsame := (workLeft_other (fun d hd => hbackend ⟨d, hd⟩) hstep).2 hsent
    exact ⟨by rw [hsame], fun _ => hsame⟩

/-- A screen stays open, and what it has caught up with it keeps. -/
theorem screen_step {s s' : OpenChats} {e : OpenChatsEvent} (hstep : step s e = some s')
    {k : Nat} {chat : OpenChat} (hget : s.chats[k]? = some chat) :
    ∃ chat', s'.chats[k]? = some chat' ∧ (chat'.uid = chat.uid ∧ chat'.user = chat.user) ∧
      (s'.delivery = s.delivery → s.Complete chat → s'.Complete chat') := by
  have hlt := (List.getElem?_eq_some_iff.1 hget).1
  rcases step_cases hstep with ⟨uid, user, -, -, -, rfl⟩ | ⟨j, text, other, -, hother, rfl⟩ |
    ⟨j, date, -, -, rfl⟩ | ⟨d, delivery, -, -, -, rfl⟩ |
    ⟨j, callback, other, other', -, hother, hother', rfl⟩
  · exact ⟨chat, (List.getElem?_append_left hlt).trans hget, ⟨rfl, rfl⟩, fun _ => id⟩
  · by_cases hjk : j = k
    · subst hjk
      obtain rfl : chat = other := Option.some.inj (hget.symm.trans hother)
      exact ⟨_, List.getElem?_set_self hlt, ⟨rfl, rfl⟩, fun _ => id⟩
    · exact ⟨chat, (List.getElem?_set_ne hjk).trans hget, ⟨rfl, rfl⟩, fun _ => id⟩
  · exact ⟨chat, hget, ⟨rfl, rfl⟩, fun _ => id⟩
  · refine ⟨chat, hget, ⟨rfl, rfl⟩, fun hsame hcomplete doc hdoc => hcomplete doc ?_⟩
    exact hsame ▸ hdoc
  · by_cases hjk : j = k
    · subst hjk
      obtain rfl : chat = other := Option.some.inj (hget.symm.trans hother)
      rcases OpenChat.onSnapshot_eq_some hother' with ⟨⟨-, -, -, hstay⟩, rfl⟩
      refine ⟨_, List.getElem?_set_self hlt, ⟨rfl, rfl⟩, fun _ hcomplete doc hdoc => ?_⟩
      exact hstay doc (hcomplete doc hdoc) (List.mem_append_left _ hdoc)
    · exact ⟨chat, (List.getElem?_set_ne hjk).trans hget, ⟨rfl, rfl⟩, fun _ => id⟩

/-! ## Executions -/

theorem screen_mono {s : OpenChats} (x : Execution step s) {m n : ℕ} (hmn : m ≤ n) {k : Nat}
    {chat : OpenChat} (hget : (x.state m).chats[k]? = some chat) :
    ∃ chat', (x.state n).chats[k]? = some chat' ∧
      chat'.uid = chat.uid ∧ chat'.user = chat.user := by
  refine x.keeps (P := fun s => ∃ chat', s.chats[k]? = some chat' ∧
    chat'.uid = chat.uid ∧ chat'.user = chat.user) ?_ hmn ⟨chat, hget, rfl, rfl⟩
  rintro a e b - ⟨before, hbefore, huid, huser⟩ hab
  rcases screen_step hab hbefore with ⟨after, hafter, ⟨huid', huser'⟩, -⟩
  exact ⟨after, hafter, huid'.trans huid, huser'.trans huser⟩

/-- After the last tap the uploads come to their end. -/
theorem eventually_quiet (x : Execution step initial) (hsucceeds : ∀ n, (x.event n).Succeeds)
    {m : ℕ} (hlast : ∀ n, m ≤ n → sent (x.state n) (x.event n) = []) {k : Nat}
    (hfair : Fair x k) : ∃ n, m ≤ n ∧ (x.state n).delivery.workLeft = 0 := by
  refine x.eventually_zero (fun s => s.delivery.workLeft) ?_ ?_
  · intro n hn
    exact (workLeft_le (x.reachable n) (hsucceeds n) (hlast n hn) (x.step_eq n)).1
  · intro n hn hpos
    rcases hfair.goesOn n (Delivery.continues_of_workLeft hpos) with ⟨j, hnj, e, hevent, -⟩
    have hstep := x.step_eq j
    have hevents := hsucceeds j
    rw [hevent] at hstep hevents
    have hless := (workLeft_backend (x.reachable j) hevents hstep).2
    exact ⟨j, hnj, by omega⟩

/-- When the uploads have come to their end and nothing more is sent, the store stays as it
is. -/
theorem stays_quiet (x : Execution step initial) (hsucceeds : ∀ n, (x.event n).Succeeds) {m : ℕ}
    (hlast : ∀ n, m ≤ n → sent (x.state n) (x.event n) = [])
    (hzero : (x.state m).delivery.workLeft = 0) {n : ℕ} (hmn : m ≤ n) :
    (x.state n).delivery = (x.state m).delivery := by
  induction n, hmn using Nat.le_induction with
  | base => rfl
  | succ n hn ih =>
      have hsame := workLeft_le (x.reachable n) (hsucceeds n) (hlast n hn) (x.step_eq n)
      exact (hsame.2 (by rw [ih, hzero])).trans ih

/-- A screen that has caught up stays so as long as the store stays as it is. -/
theorem stays_complete (x : Execution step initial) {m : ℕ}
    (hsame : ∀ n, m ≤ n → (x.state n).delivery = (x.state m).delivery) {k : Nat}
    {chat : OpenChat} (hget : (x.state m).chats[k]? = some chat)
    (hcomplete : (x.state m).Complete chat) {n : ℕ} (hmn : m ≤ n) :
    ∃ chat', (x.state n).chats[k]? = some chat' ∧ (x.state n).Complete chat' := by
  induction n, hmn using Nat.le_induction with
  | base => exact ⟨chat, hget, hcomplete⟩
  | succ n hn ih =>
      rcases ih with ⟨before, hbefore, hcomplete⟩
      rcases screen_step (x.step_eq n) hbefore with ⟨after, hafter, -, hkeeps⟩
      refine ⟨after, hafter, hkeeps ?_ hcomplete⟩
      exact (hsame (n + 1) (by omega)).trans (hsame n hn).symm

/-- **Every screen catches up.**  In every execution in which all writes succeed and the
backend and the listener of the screen go on, once the last message has been sent the screen
comes to show all messages the two users have sent to each other, each once, and shows them
from then on. -/
theorem eventually_shows (x : Execution step initial) (hsucceeds : ∀ n, (x.event n).Succeeds)
    {m : ℕ} (hlast : ∀ n, m ≤ n → sent (x.state n) (x.event n) = []) {k : Nat}
    (hfair : Fair x k) {chat : OpenChat} (hget : (x.state m).chats[k]? = some chat) :
    ∃ n, m ≤ n ∧ ∀ n', n ≤ n' → ∃ chat', (x.state n').chats[k]? = some chat' ∧
      chat'.feed.chatMessages.Perm
        (((trace step sent initial ((List.range m).map x.event)).filter fun u =>
          Delivery.Between chat.uid chat.user.uid u).map (Upload.shownTo chat.uid)) := by
  rcases eventually_quiet x hsucceeds hlast hfair with ⟨n, hmn, hzero⟩
  have hsame : ∀ n', n ≤ n' → (x.state n').delivery = (x.state n).delivery := fun n' hn' =>
    stays_quiet x hsucceeds (fun j hj => hlast j (hmn.trans hj)) hzero hn'
  have huploads : (x.state n).delivery.uploads =
      trace step sent initial ((List.range m).map x.event) := by
    rw [← uploads_eq (x.run_events m)]
    clear hzero hsame
    induction n, hmn using Nat.le_induction with
    | base => rfl
    | succ j hj ih => rw [uploads_step (x.step_eq j), hlast j hj, List.append_nil, ih]
  rcases screen_mono x hmn hget with ⟨before, hbefore, -, -⟩
  rcases hfair.catchesUp n before hbefore with ⟨j, caught, hnj, hcaught, hcomplete⟩
  refine ⟨j, hmn.trans hnj, fun n' hn' => ?_⟩
  have hquiet : ∀ i, j ≤ i → (x.state i).delivery = (x.state j).delivery := fun i hi =>
    (hsame i (hnj.trans hi)).trans (hsame j hnj).symm
  rcases stays_complete x hquiet hcaught hcomplete hn' with ⟨chat', hget', hcomplete'⟩
  refine ⟨chat', hget', ?_⟩
  have hes : ∀ e ∈ (List.range n').map x.event, e.Succeeds := by
    intro e he
    rcases List.mem_map.1 he with ⟨i, -, rfl⟩
    exact hsucceeds i
  have hend := hsame n' (hnj.trans hn')
  rcases run_delivery_of_succeeds hes (x.run_events n') with ⟨ds, hds, hdelivery⟩
  have hshown := shown_perm (x.reachable n') (unharmed_of_succeeds hes (x.run_events n'))
    (Delivery.quiet_of_workLeft hds hdelivery (by rw [hend, hzero]))
    (List.mem_of_getElem? hget') hcomplete'
  rcases screen_mono x (hmn.trans (hnj.trans hn')) hget with ⟨last, hlast, huid, huser⟩
  obtain rfl : chat' = last := Option.some.inj (hget'.symm.trans hlast)
  rwa [hend, huploads, huid, huser] at hshown

theorem succeeds_ofRun {es : List OpenChatsEvent} {t : OpenChats} {e : OpenChatsEvent}
    (hes : ∀ e ∈ es, e.Succeeds) (he : e.Succeeds) (hrun : run step initial es = some t)
    (hloop : step t e = some t) (n : ℕ) : ((Execution.ofRun hrun hloop).event n).Succeeds :=
  Execution.meets_ofRun (C := fun _ e => e.Succeeds) (stepsMeet_of_forall_mem hes) he hrun hloop n

/-- A run in which all writes succeed and after which all uploads are done and all screens
have caught up can be prolonged fairly. -/
theorem fair_ofRun {es : List OpenChatsEvent} {t : OpenChats} {e : OpenChatsEvent}
    (hes : ∀ e ∈ es, e.Succeeds) (he : e.Succeeds) (hrun : run step initial es = some t)
    (hloop : step t e = some t) (hdone : t.delivery.workLeft = 0)
    (hcomplete : ∀ chat ∈ t.chats, t.Complete chat) (k : Nat) :
    Fair (Execution.ofRun hrun hloop) k := by
  set x := Execution.ofRun hrun hloop with hx
  have hlast : ∀ n, es.length ≤ n → x.state n = t := fun n hn =>
    Execution.stateOf_of_length_le hrun hn
  have hsucceeds := succeeds_ofRun hes he hrun hloop
  constructor
  · rintro n ⟨d, hcontinues, hsome⟩
    rcases Option.isSome_iff_exists.1 hsome with ⟨delivery, hd⟩
    have hpos := Delivery.workLeft_continues (reachable_delivery (x.reachable n)) hcontinues hd
    have hend : (x.state (max n es.length)).delivery.workLeft = 0 := by
      rw [hlast _ (le_max_right _ _), hdone]
    rcases x.exists_decrease (fun s => s.delivery.workLeft) (le_max_left n es.length) (by omega)
      with ⟨j, hj, hless⟩
    -- nothing but an event of the store leaves less to do
    have hstep := x.step_eq j
    cases hevent : x.event j with
    | backend d =>
        have hevents := hsucceeds j
        rw [hevent] at hstep hevents
        exact ⟨j, hj, d, hevent, (workLeft_backend (x.reachable j) hevents hstep).1⟩
    | _ =>
        have hmore := (workLeft_other (by simp [hevent]) hstep).1
        omega
  · intro n chat hget
    rcases screen_mono x (le_max_left n es.length) hget with ⟨chat', hget', -, -⟩
    refine ⟨max n es.length, chat', le_max_left _ _, hget', ?_⟩
    rw [hlast _ (le_max_right _ _)] at hget' ⊢
    exact hcomplete chat' (List.mem_of_getElem? hget')

theorem run_crossing : run step initial crossing = some (final step initial crossing) :=
  run_final (by decide)

/-- `crossing`, and then nothing new. -/
def crossingExecution : Execution step initial :=
  Execution.ofRun (e := .inputText 0 "ping") run_crossing rfl

theorem eventually_shows_crossing :
    ∃ n, crossing.length ≤ n ∧ ∀ n', n ≤ n' → ∃ chat,
      (crossingExecution.state n').chats[1]? = some chat ∧
      chat.feed.chatMessages.Perm [ping.shownTo "bob", pong.shownTo "bob"] := by
  have hloop : (OpenChatsEvent.inputText 0 "ping").Succeeds := trivial
  have hlast : ∀ n, crossing.length ≤ n →
      sent (crossingExecution.state n) (crossingExecution.event n) = [] := by
    intro n hn
    have hevent : crossingExecution.event n = .inputText 0 "ping" :=
      List.getD_eq_default _ _ hn
    rw [hevent]
    rfl
  have hstate : crossingExecution.state crossing.length = final step initial crossing :=
    Execution.stateOf_of_length_le run_crossing le_rfl
  exact eventually_shows crossingExecution (succeeds_ofRun (by decide) hloop run_crossing rfl)
    hlast (fair_ofRun (by decide) hloop run_crossing rfl (by decide) (by decide) 1)
    (by rw [hstate]; rfl)

end OpenChats

end WaffleChat
