import WaffleChat.Library.Executions
import WaffleChat.Service.IssuedWrites
import WaffleChat.Service.StoredMessages

/-!
# The chat view model

`ChatViewModel` over one chat: the text relay, the send taps, and the uploads the
accepted taps have started.  A tap samples the latest text; a later tap makes
`flatMapLatest` drop the observable of the earlier upload, whose writes and
completion handlers go on all the same.

Main results:

- Theorem `step_cases`: everything one event can do.
- Theorem `sound_of_reachable`: the sink always listens to the latest upload.
- Theorem `taps_sent`: the uploads are the accepted taps, each is carried through, and
  no tap is acknowledged twice.
-/

namespace WaffleChat

open CallbackProgram EventSystem Gather Observers

/-- A callback of the backend in the course of an upload. -/
inductive UploadCallback where
  /-- The log write upload `i` waits for is decided. -/
  | decide (i : Nat) (result : WriteResult)
  /-- The completion handler of the decided log write of upload `i` runs. -/
  | handle (i : Nat)
  /-- The outstanding summary write at position `k` of upload `i` is decided. -/
  | decideSummary (i k : Nat) (result : WriteResult)
deriving DecidableEq, Repr

namespace UploadCallback

/-- The callback as an event of the backend. -/
def event : UploadCallback → DeliveryEvent
  | .decide i result => .decide i result
  | .handle i => .handle i
  | .decideSummary i k result => .decideSummary i k result

/-- The upload the callback belongs to. -/
def task : UploadCallback → Nat
  | .decide i _ => i
  | .handle i => i
  | .decideSummary i _ _ => i

/-- What the code that runs in the callback hands to its observer. -/
def reports (delivery : Delivery) : UploadCallback → List (Event BackendError Bool)
  | .handle i =>
      (delivery.tasks[i]?).elim [] fun t => (t.current Upload.program).emitted
  | _ => []

end UploadCallback

/-- What can happen to the view model. -/
inductive ChatInput where
  /-- The text view's text arrives. -/
  | inputText (text : String)
  /-- The send button is tapped; the device clock shows `date`. -/
  | sendButtonTapped (date : Timestamp)
  /-- The backend calls back. -/
  | callback (c : UploadCallback)
deriving DecidableEq, Repr

/-- The text relay, the uploads started by the taps, the sinks of `flatMapLatest` and of
`asDriver(onErrorJustReturn: false)`, and the elements the driver has delivered. -/
structure ChatViewModel where
  inputText : String
  delivery : Delivery
  latest : SwitchSink
  driver : CatchSink
  isMessageUploaded : List Bool

namespace ChatViewModel

/-- A new chat. -/
def initial : ChatViewModel where
  inputText := ""
  delivery := .initial
  latest := .fresh
  driver := .fresh
  isMessageUploaded := []

/-- Events of the inner observable number `id` pass `flatMapLatest` and the driver.  An
observable that has been disposed of is deaf; `flatMapLatest` disposes of exactly those
it no longer listens to. -/
def hear (s : ChatViewModel) (id : Nat) (events : List (Event BackendError Bool)) :
    ChatViewModel :=
  let switched := feed (fun sink event => sink.inner id event) s.latest events
  let driven := feed (CatchSink.on false) s.driver switched.2
  { s with
    latest := switched.1
    driver := driven.1
    isMessageUploaded := s.isMessageUploaded ++ driven.2.filterMap Event.value? }

/-- The request part of `uploadMessage`, which needs a session. -/
def upload (s : ChatViewModel) (currentUser : Option Uid) (user : User) (date : Timestamp) :
    Option Delivery :=
  match currentUser with
  | some currentUid => s.delivery.step (.upload ⟨currentUid, user, s.inputText, date⟩)
  | none => some s.delivery

/-- One event; the inner observables of `flatMapLatest` are numbered from one. -/
def step (currentUser : Option Uid) (user : User) (s : ChatViewModel) :
    ChatInput → Option ChatViewModel
  | .inputText text => some { s with inputText := text }
  | .sendButtonTapped date =>
      -- `.filter { $0.0 != "" }`
      if s.inputText = "" then some s
      else do
        let delivery ← s.upload currentUser user date
        let latest := s.latest.next
        return { s with delivery := delivery, latest := latest }.hear latest.latest
          (uploadMessage date currentUser s.inputText (some user)).emitted
  | .callback c => do
      let delivery ← s.delivery.step c.event
      return { s with delivery := delivery }.hear (c.task + 1) (c.reports delivery)

variable {currentUser : Option Uid} {user : User}

@[simp]
theorem hear_nil (s : ChatViewModel) (id : Nat) : s.hear id [] = s := by
  simp [hear]

@[simp]
theorem hear_delivery (s : ChatViewModel) (id : Nat) (events : List (Event BackendError Bool)) :
    (s.hear id events).delivery = s.delivery :=
  rfl

@[simp]
theorem hear_inputText (s : ChatViewModel) (id : Nat)
    (events : List (Event BackendError Bool)) : (s.hear id events).inputText = s.inputText :=
  rfl

/-- Everything one event can do. -/
theorem step_cases {s s' : ChatViewModel} {e : ChatInput}
    (h : step currentUser user s e = some s') :
    (∃ text, e = .inputText text ∧ s' = { s with inputText := text }) ∨
    (∃ date, e = .sendButtonTapped date ∧ s.inputText = "" ∧ s' = s) ∨
    (∃ date currentUid, e = .sendButtonTapped date ∧ s.inputText ≠ "" ∧
      currentUser = some currentUid ∧ ∃ delivery,
      s.delivery.step (.upload ⟨currentUid, user, s.inputText, date⟩) = some delivery ∧
      s' = { s with delivery := delivery, latest := s.latest.next }) ∨
    (∃ date, e = .sendButtonTapped date ∧ s.inputText ≠ "" ∧ currentUser = none ∧
      s' = { s with latest := s.latest.next }.hear s.latest.next.latest
        [.next false, .completed]) ∨
    (∃ c delivery, e = .callback c ∧ s.delivery.step c.event = some delivery ∧
      s' = { s with delivery := delivery }.hear (c.task + 1) (c.reports delivery)) := by
  cases e with
  | inputText text => exact Or.inl ⟨text, rfl, (Option.some.inj h).symm⟩
  | sendButtonTapped date =>
      by_cases htext : s.inputText = ""
      · simp only [step, htext, if_true, Option.some.injEq] at h
        exact Or.inr (Or.inl ⟨date, rfl, htext, h.symm⟩)
      · simp only [step, htext, if_false, bind_pure_eq_some] at h
        rcases h with ⟨delivery, hdelivery, rfl⟩
        cases currentUser with
        | some currentUid =>
            refine Or.inr (Or.inr (Or.inl
              ⟨date, currentUid, rfl, htext, rfl, delivery, hdelivery, ?_⟩))
            exact hear_nil _ _
        | none =>
            obtain rfl : s.delivery = delivery := Option.some.inj hdelivery
            exact Or.inr (Or.inr (Or.inr (Or.inl ⟨date, rfl, htext, rfl, rfl⟩)))
  | callback c =>
      simp only [step, bind_pure_eq_some] at h
      rcases h with ⟨delivery, hdelivery, rfl⟩
      exact Or.inr (Or.inr (Or.inr (Or.inr ⟨c, delivery, rfl, hdelivery, rfl⟩)))

/-! ## What is heard of the uploads -/

/-- The sinks are alive and listen to the upload started last. -/
structure Sound (currentUser : Option Uid) (s : ChatViewModel) : Prop where
  reachable : Reachable Delivery.step .initial s.delivery
  alive : ∀ t ∈ s.delivery.tasks, t.stopped = false
  latest_live : s.latest.disposed = false
  latest_running : s.latest.stopped = false
  driver_live : s.driver.disposed = false
  latest_eq : currentUser.isSome → s.latest.latest = s.delivery.tasks.length
  signedOut : currentUser = none → s.delivery.tasks = []

/-- At first nothing is typed and nothing sent. -/
theorem sound_initial : initial.Sound currentUser where
  reachable := Reachable.refl _
  alive := by simp [initial, Delivery.initial]
  latest_live := rfl
  latest_running := rfl
  driver_live := rfl
  latest_eq := fun _ => rfl
  signedOut := fun _ => rfl

/-- An element of an inner observable is delivered if that observable is the latest. -/
theorem hear_next {s : ChatViewModel} (hs : s.latest.disposed = false)
    (hdriver : s.driver.disposed = false) (id : Nat) (value : Bool) :
    s.hear id [.next value] =
      { s with
        isMessageUploaded := s.isMessageUploaded ++
          if s.latest.latest = id then [value] else [] } := by
  by_cases hid : s.latest.latest = id
  · simp [hear, SwitchSink.inner_next hid hs, CatchSink.on_next hdriver, hid, Event.value?]
  · simp [hear, SwitchSink.inner_of_ne hid, hid]

/-- The callback is the handler of the second log write of the latest upload. -/
def acknowledges (s : ChatViewModel) : UploadCallback → Bool
  | .handle i =>
      i + 1 = s.latest.latest && (s.delivery.tasks[i]?).any fun t => t.answers.length = 1
  | _ => false

/-- A callback delivers `true` exactly when it is the handler of the second log write of
the latest upload. -/
theorem step_callback {s s' : ChatViewModel} (hs : s.Sound currentUser) {c : UploadCallback}
    (h : step currentUser user s (.callback c) = some s') :
    ∃ delivery, s.delivery.step c.event = some delivery ∧
      s' = { s with
        delivery := delivery
        isMessageUploaded := s.isMessageUploaded ++ if s.acknowledges c then [true] else [] } := by
  simp only [step, bind_pure_eq_some] at h
  rcases h with ⟨delivery, hdelivery, rfl⟩
  refine ⟨delivery, hdelivery, ?_⟩
  cases c with
  | decide i result =>
      exact (hear_nil _ _).trans (by simp [acknowledges])
  | decideSummary i k result =>
      exact (hear_nil _ _).trans (by simp [acknowledges])
  | handle i =>
      simp only [UploadCallback.event, Delivery.step, Option.bind_eq_bind,
        Option.bind_eq_some_iff, Option.pure_def, Option.some.injEq] at hdelivery
      rcases hdelivery with ⟨t, ht, t', ht', rfl⟩
      have hlt := (List.getElem?_eq_some_iff.1 ht).1
      have hnew : (s.delivery.tasks.set i t')[i]? = some t' := List.getElem?_set_self hlt
      have hanswers : t'.answers.length = t.answers.length + 1 := by
        rcases Task.handle_eq_some_iff.1 ht' with ⟨-, result, -, rfl⟩
        simp
      have hjob := Task.job_handle ht'
      simp only [UploadCallback.reports, hnew, Option.elim_some, UploadCallback.task]
      rw [Task.current, Upload.emitted_after, hanswers]
      by_cases hone : t.answers.length = 1
      · rw [if_pos (by omega)]
        refine (hear_next ?_ ?_ (i + 1) true).trans ?_
        · exact hs.latest_live
        · exact hs.driver_live
        · simp [acknowledges, ht, hone, eq_comm]
      · rw [if_neg (by omega), hear_nil]
        simp [acknowledges, ht, hone]

/-- A tap without a session is answered with `false`. -/
theorem hear_signedOut {s : ChatViewModel} (hs : s.Sound currentUser) :
    { s with latest := s.latest.next }.hear s.latest.next.latest [.next false, .completed] =
      { s with
        latest := { s.latest.next with hasLatest := false }
        isMessageUploaded := s.isMessageUploaded ++ [false] } := by
  simp [hear, SwitchSink.next, SwitchSink.inner, SwitchSink.forward, CatchSink.on,
    hs.latest_live, hs.latest_running, hs.driver_live, Event.value?]

/-- A callback moves its own upload on; only a handler adds an answer. -/
theorem tasks_callback {delivery delivery' : Delivery} {c : UploadCallback}
    (h : delivery.step c.event = some delivery') :
    ∃ t t', delivery.tasks[c.task]? = some t ∧ delivery'.tasks = delivery.tasks.set c.task t' ∧
      t'.job = t.job ∧ t'.stopped = t.stopped ∧
      t'.answers.length = t.answers.length + if c = .handle c.task then 1 else 0 := by
  cases c with
  | decide i result =>
      simp only [UploadCallback.event, Delivery.step, Option.bind_eq_bind,
        Option.bind_eq_some_iff, Option.pure_def, Option.some.injEq] at h
      rcases h with ⟨t, ht, request, -, rfl⟩
      exact ⟨t, t.arrive result, ht, rfl, rfl, rfl, by simp [Task.arrive]⟩
  | handle i =>
      simp only [UploadCallback.event, Delivery.step, Option.bind_eq_bind,
        Option.bind_eq_some_iff, Option.pure_def, Option.some.injEq] at h
      rcases h with ⟨t, ht, t', ht', rfl⟩
      rcases Task.handle_eq_some_iff.1 ht' with ⟨-, result, -, rfl⟩
      exact ⟨t, _, ht, rfl, rfl, rfl, by simp [UploadCallback.task]⟩
  | decideSummary i k result =>
      simp only [UploadCallback.event, Delivery.step, Option.bind_eq_bind,
        Option.bind_eq_some_iff, Option.pure_def, Option.some.injEq] at h
      rcases h with ⟨t, ht, request, -, rfl⟩
      exact ⟨t, t.flush k, ht, rfl, rfl, rfl, by simp [Task.flush]⟩

/-- No callback stops a process or starts an upload. -/
theorem delivery_callback {delivery delivery' : Delivery} {c : UploadCallback}
    (h : delivery.step c.event = some delivery') :
    delivery'.tasks.map Task.job = delivery.tasks.map Task.job ∧
      ((∀ t ∈ delivery.tasks, t.stopped = false) → ∀ t ∈ delivery'.tasks, t.stopped = false) := by
  rcases tasks_callback h with ⟨t, t', hget, htasks, hjob, hstopped, -⟩
  rw [htasks]
  refine ⟨Delivery.map_job_set t' hget hjob, ?_⟩
  intro halive x hx
  rcases List.mem_or_eq_of_mem_set hx with hx | rfl
  · exact halive x hx
  · exact hstopped.trans (halive t (List.mem_of_getElem? hget))

/-- Starting an upload adds its task. -/
theorem delivery_upload {delivery delivery' : Delivery} {u : Upload}
    (h : delivery.step (.upload u) = some delivery') :
    delivery'.tasks = delivery.tasks ++ [Task.start Upload.program u] := by
  rw [← Option.some.inj h]

/-- Every input keeps uploads and taps together. -/
theorem sound_step {s s' : ChatViewModel} {e : ChatInput} (hs : s.Sound currentUser)
    (hstep : step currentUser user s e = some s') : s'.Sound currentUser := by
  rcases step_cases hstep with ⟨text, -, rfl⟩ | ⟨date, -, -, rfl⟩ |
    ⟨date, currentUid, -, -, hsession, delivery, hupload, rfl⟩ | ⟨date, -, -, hsession, rfl⟩ |
    ⟨c, -, rfl, -, -⟩
  · exact ⟨hs.reachable, hs.alive, hs.latest_live, hs.latest_running, hs.driver_live, hs.latest_eq,
      hs.signedOut⟩
  · exact hs
  · have htasks := delivery_upload hupload
    refine ⟨hs.reachable.next hupload, ?_, hs.latest_live, hs.latest_running, hs.driver_live,
      ?_, ?_⟩
    · intro t ht
      rw [htasks] at ht
      rcases List.mem_append.1 ht with ht | ht
      · exact hs.alive t ht
      · rw [List.mem_singleton.1 ht]
        rfl
    · intro hsome
      simp [SwitchSink.next, htasks, hs.latest_eq hsome]
    · intro hnone
      rw [hsession] at hnone
      cases hnone
  · rw [hear_signedOut hs]
    refine ⟨hs.reachable, hs.alive, hs.latest_live, hs.latest_running, hs.driver_live, ?_,
      hs.signedOut⟩
    intro hsome
    rw [hsession] at hsome
    cases hsome
  · rcases step_callback hs hstep with ⟨delivery, hdelivery, rfl⟩
    rcases delivery_callback hdelivery with ⟨hjobs, halive⟩
    have hlength : delivery.tasks.length = s.delivery.tasks.length := by
      simpa using congrArg List.length hjobs
    refine ⟨hs.reachable.next hdelivery, halive hs.alive, hs.latest_live, hs.latest_running,
      hs.driver_live, ?_, ?_⟩
    · intro hsome
      exact (hs.latest_eq hsome).trans hlength.symm
    · intro hnone
      have hnil := hs.signedOut hnone
      rw [hnil] at hlength
      exact List.length_eq_zero_iff.1 hlength

/-- In every reachable state they are. -/
theorem sound_of_reachable {s : ChatViewModel}
    (hreach : Reachable (step currentUser user) initial s) : s.Sound currentUser :=
  hreach.invariant (fun _ _ _ _ ha hab => sound_step ha hab) sound_initial

/-! ## The accepted taps -/

/-- The uploads the taps of a run ask for: one for each tap at which the latest text is not
empty, carrying that text to the user of the chat. -/
def acceptedTaps (currentUid : Uid) (user : User) : String → List ChatInput → List Upload
  | _, [] => []
  | _, .inputText text :: es => acceptedTaps currentUid user text es
  | text, .sendButtonTapped date :: es =>
      (if text = "" then [] else [⟨currentUid, user, text, date⟩]) ++
        acceptedTaps currentUid user text es
  | text, .callback _ :: es => acceptedTaps currentUid user text es

/-- The uploads started are the accepted taps, in order. -/
theorem jobs_run {currentUid : Uid} {es : List ChatInput} {s s' : ChatViewModel}
    (hs : s.Sound (some currentUid))
    (hrun : run (step (some currentUid) user) s es = some s') :
    s'.delivery.tasks.map Task.job =
      s.delivery.tasks.map Task.job ++ acceptedTaps currentUid user s.inputText es := by
  induction es generalizing s with
  | nil =>
      obtain rfl : s = s' := Option.some.inj hrun
      simp [acceptedTaps]
  | cons e es ih =>
      rcases run_cons_eq_some.1 hrun with ⟨a, ha, htail⟩
      have hrest := ih (sound_step hs ha) htail
      rcases step_cases ha with ⟨text, rfl, rfl⟩ | ⟨date, rfl, htext, rfl⟩ |
        ⟨date, uid, rfl, htext, hsession, delivery, hupload, rfl⟩ | ⟨date, -, -, hsession, -⟩ |
        ⟨c, -, rfl, -, -⟩
      · exact hrest
      · simpa [acceptedTaps, htext] using hrest
      · obtain rfl : currentUid = uid := Option.some.inj hsession
        rw [delivery_upload hupload] at hrest
        simpa [acceptedTaps, htext, Task.start] using hrest
      · cases hsession
      · rcases step_callback hs ha with ⟨delivery, hdelivery, rfl⟩
        rw [(delivery_callback hdelivery).1] at hrest
        exact hrest

/-- Both log writes of the upload have called back. -/
def answered (t : UploadTask) : Bool :=
  2 ≤ t.answers.length

/-- An upload counts once it is answered, and an acknowledgement is the moment it is. -/
theorem countP_answered {s : ChatViewModel} {delivery : Delivery} {c : UploadCallback}
    (h : s.delivery.step c.event = some delivery) :
    s.delivery.tasks.countP answered + (if s.acknowledges c then 1 else 0) ≤
      delivery.tasks.countP answered := by
  rcases tasks_callback h with ⟨t, t', hget, htasks, -, -, hanswers⟩
  have hcount := countP_set_add (p := answered) hget t'
  rw [htasks]
  cases c with
  | decide i result =>
      have hsame : answered t' = answered t := by simp [answered, hanswers]
      rw [hsame] at hcount
      simpa [acknowledges] using (Nat.add_right_cancel hcount).ge
  | decideSummary i k result =>
      have hsame : answered t' = answered t := by simp [answered, hanswers]
      rw [hsame] at hcount
      simpa [acknowledges] using (Nat.add_right_cancel hcount).ge
  | handle i =>
      have hget' : s.delivery.tasks[i]? = some t := hget
      simp only [UploadCallback.task, if_true] at hanswers hcount ⊢
      simp only [answered, hanswers, decide_eq_true_eq] at hcount
      simp only [acknowledges, hget', Option.any_some, Bool.and_eq_true, decide_eq_true_eq]
      split_ifs at hcount ⊢ <;> omega

/-- `true` is delivered at most once for each upload. -/
theorem count_isMessageUploaded_le {s : ChatViewModel}
    (hreach : Reachable (step currentUser user) initial s) :
    s.isMessageUploaded.count true ≤ s.delivery.tasks.countP answered := by
  refine hreach.invariant
    (P := fun s => s.isMessageUploaded.count true ≤ s.delivery.tasks.countP answered) ?_ (le_refl _)
  intro a e b hreach ha hab
  have hs := sound_of_reachable hreach
  rcases step_cases hab with ⟨text, -, rfl⟩ | ⟨date, -, -, rfl⟩ |
    ⟨date, currentUid, -, -, -, delivery, hupload, rfl⟩ | ⟨date, -, -, -, rfl⟩ | ⟨c, -, rfl, -, -⟩
  · exact ha
  · exact ha
  · rw [delivery_upload hupload, List.countP_append]
    exact ha.trans (Nat.le_add_right _ _)
  · rw [hear_signedOut hs]
    simpa using ha
  · rcases step_callback hs hab with ⟨delivery, hdelivery, rfl⟩
    refine le_trans ?_ (countP_answered hdelivery)
    rw [List.count_append]
    refine Nat.add_le_add ha ?_
    split <;> simp

/-! ## Every accepted tap is carried through -/

/-- A callback of one of the log writes of upload `i` can come now. -/
def CallbackDue (currentUser : Option Uid) (user : User) (s : ChatViewModel) (i : Nat) : Prop :=
  ∃ c : UploadCallback, c.event.CallsBack i ∧ (step currentUser user s (.callback c)).isSome

/-- The callbacks of an execution keep coming: as long as one of them is due for an upload,
one of that upload comes later. -/
def Fair {s : ChatViewModel} (x : Execution (step currentUser user) s) : Prop :=
  ∀ n i, CallbackDue currentUser user (x.state n) i →
    ∃ m, n ≤ m ∧ ∃ c : UploadCallback, x.event m = .callback c ∧ c.event.CallsBack i

/-- The callbacks upload `i` still waits for. -/
def callbacksLeft (s : ChatViewModel) (i : Nat) : Nat :=
  (s.delivery.tasks[i]?).elim 0 Delivery.callbacksLeft

/-- The event is a callback of one of the log writes of upload `i`. -/
def CallsBack (i : Nat) : ChatInput → Prop
  | .callback c => c.event.CallsBack i
  | _ => False

instance (i : Nat) : DecidablePred (CallsBack i)
  | .inputText _ => inferInstanceAs (Decidable False)
  | .sendButtonTapped _ => inferInstanceAs (Decidable False)
  | .callback c => inferInstanceAs (Decidable (c.event.CallsBack i))

/-- A started upload stays whatever happens on the screen, and its own callbacks are all
that it uses up. -/
theorem callbacksLeft_step {s s' : ChatViewModel} {e : ChatInput} (hs : s.Sound currentUser)
    (hstep : step currentUser user s e = some s') {i : Nat} {t : UploadTask}
    (ht : s.delivery.tasks[i]? = some t) :
    ∃ t', s'.delivery.tasks[i]? = some t' ∧ t'.job = t.job ∧
      s'.callbacksLeft i + (if CallsBack i e then 1 else 0) = s.callbacksLeft i := by
  rcases step_cases hstep with ⟨text, rfl, rfl⟩ | ⟨date, rfl, -, rfl⟩ |
    ⟨date, currentUid, rfl, -, -, delivery, hupload, rfl⟩ | ⟨date, rfl, -, -, rfl⟩ |
    ⟨c, -, rfl, -, -⟩
  · exact ⟨t, ht, rfl, rfl⟩
  · exact ⟨t, ht, rfl, rfl⟩
  · rcases Delivery.callbacksLeft_step hs.reachable hupload ht with ⟨t', ht', hjob, hleft⟩
    exact ⟨t', ht', hjob, by
      simpa [callbacksLeft, ht, ht', CallsBack, DeliveryEvent.CallsBack] using hleft⟩
  · exact ⟨t, ht, rfl, rfl⟩
  · rcases step_callback hs hstep with ⟨delivery, hdelivery, rfl⟩
    rcases Delivery.callbacksLeft_step hs.reachable hdelivery ht with ⟨t', ht', hjob, hleft⟩
    refine ⟨t', ht', hjob, ?_⟩
    simp only [callbacksLeft, ht, ht', Option.elim_some]
    exact hleft

/-- A callback is due as long as there are some left. -/
theorem callbackDue_iff {s : ChatViewModel} (hs : s.Sound currentUser) {i : Nat} :
    CallbackDue currentUser user s i ↔ 0 < s.callbacksLeft i := by
  constructor
  · rintro ⟨c, hcalls, hsome⟩
    rcases Option.isSome_iff_exists.1 hsome with ⟨s', hs'⟩
    rcases step_callback hs hs' with ⟨delivery, hdelivery, -⟩
    have hi : c.task = i := by
      cases c with
      | decide j result => exact hcalls
      | handle j => exact hcalls
      | decideSummary j k result => exact hcalls.elim
    rcases tasks_callback hdelivery with ⟨t, -, hget, -⟩
    have ht : s.delivery.tasks[i]? = some t := hi ▸ hget
    rcases callbacksLeft_step hs hs' ht with ⟨-, -, -, hleft⟩
    rw [if_pos (show CallsBack i (.callback c) from hcalls)] at hleft
    omega
  · intro hleft
    cases ht : s.delivery.tasks[i]? with
    | none => simp [callbacksLeft, ht] at hleft
    | some t =>
        have hpos : 0 < Delivery.callbacksLeft t := by simpa [callbacksLeft, ht] using hleft
        rcases Delivery.callback_due hpos (hs.alive t (List.mem_of_getElem? ht)) with hdue | hdue
        · rcases Option.isSome_iff_exists.1 hdue with ⟨request, hrequest⟩
          exact ⟨.decide i .committed, rfl, by
            simp [step, UploadCallback.event, Delivery.step, ht, hrequest]⟩
        · rcases Option.isSome_iff_exists.1 hdue with ⟨t', ht'⟩
          exact ⟨.handle i, rfl, by simp [step, UploadCallback.event, Delivery.step, ht, ht']⟩

/-- Once an upload has started it stays started, with the same message. -/
theorem task_mono (x : Execution (step currentUser user) initial) {m n : ℕ}
    (hmn : m ≤ n) {i : Nat} {t : UploadTask} (ht : (x.state m).delivery.tasks[i]? = some t) :
    ∃ t', (x.state n).delivery.tasks[i]? = some t' ∧ t'.job = t.job := by
  refine x.keeps (P := fun s => ∃ t', s.delivery.tasks[i]? = some t' ∧ t'.job = t.job) ?_ hmn
    ⟨t, ht, rfl⟩
  rintro a e b hreach ⟨ta, hta, hjob⟩ hab
  rcases callbacksLeft_step (sound_of_reachable hreach) hab hta with ⟨tb, htb, hsame, -⟩
  exact ⟨tb, htb, hsame.trans hjob⟩

/-- In a fair execution every upload gets all its callbacks. -/
theorem eventually_callbacksLeft (x : Execution (step currentUser user) initial) (hfair : Fair x)
    {n : ℕ} {i : Nat} {t : UploadTask} (ht : (x.state n).delivery.tasks[i]? = some t) :
    ∃ m, n ≤ m ∧ (x.state m).callbacksLeft i = 0 := by
  have hleft : ∀ k, n ≤ k → (x.state (k + 1)).callbacksLeft i +
      (if CallsBack i (x.event k) then 1 else 0) = (x.state k).callbacksLeft i := by
    intro k hk
    rcases task_mono x hk ht with ⟨tk, htk, -⟩
    rcases callbacksLeft_step (sound_of_reachable (x.reachable k)) (x.step_eq k) htk with
      ⟨-, -, -, hleft⟩
    exact hleft
  refine x.eventually_zero (fun s => s.callbacksLeft i) ?_ ?_
  · intro k hk
    exact (Nat.le_add_right _ _).trans (hleft k hk).le
  · intro k hk hpos
    have hdue : CallbackDue currentUser user (x.state k) i :=
      (callbackDue_iff (sound_of_reachable (x.reachable k))).2 hpos
    rcases hfair k i hdue with ⟨l, hkl, c, hc, hcalls⟩
    have hnow := hleft l (hk.trans hkl)
    rw [hc, if_pos (show CallsBack i (.callback c) from hcalls)] at hnow
    exact ⟨l, hkl, by omega⟩

/-- The uploads are the taps on a text that is not empty, each for that text and the user
of the chat; an upload issues its four writes in order and none twice, and in every fair
execution it comes to issue all four, whatever else is tapped in the meantime; `true` is
delivered at most once for each of them. -/
theorem taps_sent (currentUid : Uid) (user : User) :
    (∀ es s, run (step (some currentUid) user) initial es = some s →
      s.delivery.tasks.map Task.job = acceptedTaps currentUid user "" es ∧
      (∀ i t, s.delivery.tasks[i]? = some t → s.delivery.issuedBy i <+: t.job.writes) ∧
      s.isMessageUploaded.count true ≤ (acceptedTaps currentUid user "" es).length) ∧
    ∀ x : Execution (step (some currentUid) user) initial, Fair x → ∀ n i t,
      (x.state n).delivery.tasks[i]? = some t →
        ∃ m, ∀ k, m ≤ k → (x.state k).delivery.issuedBy i = t.job.writes := by
  refine ⟨?_, ?_⟩
  · intro es s hrun
    have hreach : Reachable (step (some currentUid) user) initial s := ⟨es, hrun⟩
    have hjobs : s.delivery.tasks.map Task.job = acceptedTaps currentUid user "" es :=
      jobs_run sound_initial hrun
    refine ⟨hjobs, ?_, ?_⟩
    · intro i t ht
      rw [Delivery.issuedBy_eq (sound_of_reachable hreach).reachable, ht, Option.elim_some,
        Delivery.requested, Upload.requests_eq]
      split
      · exact ⟨_, rfl⟩
      · exact ⟨_, rfl⟩
      · exact List.prefix_refl _
    · rw [← hjobs, List.length_map]
      exact (count_isMessageUploaded_le hreach).trans List.countP_le_length
  · intro x hfair n i t ht
    rcases eventually_callbacksLeft x hfair ht with ⟨m, hnm, hm⟩
    refine ⟨m, ?_⟩
    intro k hk
    have hkeep : (∃ tk, (x.state k).delivery.tasks[i]? = some tk ∧ tk.job = t.job) ∧
        (x.state k).callbacksLeft i = 0 := by
      refine x.keeps (P := fun s => (∃ tk, s.delivery.tasks[i]? = some tk ∧ tk.job = t.job) ∧
        s.callbacksLeft i = 0) ?_ hk ⟨task_mono x hnm ht, hm⟩
      rintro a e b hreach ⟨⟨ta, hta, hjob⟩, hzero⟩ hab
      rcases callbacksLeft_step (sound_of_reachable hreach) hab hta with ⟨tb, htb, hsame, hleft⟩
      exact ⟨⟨tb, htb, hsame.trans hjob⟩, by omega⟩
    rcases hkeep with ⟨⟨tk, htk, hjob⟩, hleft⟩
    rw [← hjob]
    refine Delivery.issuedBy_of_callbacksLeft (sound_of_reachable (x.reachable k)).reachable htk ?_
    simpa [callbacksLeft, htk] using hleft

/-- A run after which no upload waits for a callback can be prolonged fairly. -/
theorem fair_ofRun {es : List ChatInput} {t : ChatViewModel} {e : ChatInput}
    (hrun : run (step currentUser user) initial es = some t)
    (hloop : step currentUser user t e = some t) (hdone : ∀ i, t.callbacksLeft i = 0) :
    Fair (Execution.ofRun hrun hloop) := by
  intro n i hdue
  let x := Execution.ofRun hrun hloop
  have hpos := (callbackDue_iff (sound_of_reachable (x.reachable n))).1 hdue
  by_contra hnone
  -- without a callback of its own the upload waits for ever
  have hwaits : ∀ k, n ≤ k → 0 < (x.state k).callbacksLeft i := by
    intro k hk
    induction k, hk using Nat.le_induction with
    | base => exact hpos
    | succ k hk ih =>
        cases htask : (x.state k).delivery.tasks[i]? with
        | none => simp [callbacksLeft, htask] at ih
        | some tk =>
            rcases callbacksLeft_step (sound_of_reachable (x.reachable k)) (x.step_eq k) htask with
              ⟨-, -, -, hleft⟩
            have hother : ¬ CallsBack i (x.event k) := by
              intro hcalls
              cases hevent : x.event k with
              | inputText text => rw [hevent] at hcalls; exact hcalls
              | sendButtonTapped date => rw [hevent] at hcalls; exact hcalls
              | callback c =>
                  rw [hevent] at hcalls
                  exact hnone ⟨k, hk, c, hevent, hcalls⟩
            rw [if_neg hother] at hleft
            omega
  have hend := hwaits (max n es.length) (le_max_left _ _)
  have hlast : x.state (max n es.length) = t :=
    Execution.stateOf_of_length_le hrun (le_max_right _ _)
  rw [hlast, hdone i] at hend
  exact Nat.lt_irrefl 0 hend

/-- The second tap supersedes the first upload before any of its callbacks. -/
def twoTaps : List ChatInput :=
  [.inputText "hi", .sendButtonTapped ⟨1, 0⟩, .sendButtonTapped ⟨2, 0⟩] ++
    [.decide 0 .committed, .handle 0, .decide 0 .committed, .handle 0, .decide 1 .committed,
      .handle 1, .decide 1 .committed, .handle 1].map ChatInput.callback

theorem run_twoTaps : run (step (some "alice") (.sample "bob")) initial twoTaps =
    some (final (step (some "alice") (.sample "bob")) initial twoTaps) :=
  run_final rfl

/-- `twoTaps` and then nothing new. -/
def twoTapsExecution : Execution (step (some "alice") (.sample "bob")) initial :=
  Execution.ofRun (e := .inputText "hi") run_twoTaps rfl

/-- All writes are decided and all answers handled. -/
theorem fair_twoTapsExecution : Fair twoTapsExecution := by
  refine fair_ofRun run_twoTaps rfl ?_
  intro i
  rcases i with _ | _ | i
  · rfl
  · rfl
  · rfl

theorem taps_sent_twoTaps :
    ∃ s, run (step (some "alice") (.sample "bob")) initial twoTaps = some s ∧
      s.delivery.tasks.map Task.job = acceptedTaps "alice" (.sample "bob") "" twoTaps ∧
      s.isMessageUploaded.count true ≤ 2 ∧
      ∃ m, ∀ k, m ≤ k → (twoTapsExecution.state k).delivery.issuedBy 0 =
        Upload.writes ⟨"alice", .sample "bob", "hi", ⟨1, 0⟩⟩ :=
  have hsent := taps_sent "alice" (.sample "bob")
  ⟨_, run_twoTaps, (hsent.1 twoTaps _ run_twoTaps).1, (hsent.1 twoTaps _ run_twoTaps).2.2,
    hsent.2 twoTapsExecution fair_twoTapsExecution 2 0
      (Task.start Upload.program ⟨"alice", .sample "bob", "hi", ⟨1, 0⟩⟩) rfl⟩

end ChatViewModel

end WaffleChat
