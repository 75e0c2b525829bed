import WaffleChat.ViewModel.Chat

/-!
# The chat composer

The text view of `ChatController`, its binding to the view model and the clearing of
the text view when an upload is acknowledged.  `rx.text` reports an edit from a block
scheduled on the main queue, so the view model may lag behind the text view.

A draft is a period in which the text is not edited; the history beside the screen
numbers the drafts and keeps which of them each upload carries.

Main results:

- Theorem `safe_iff`: in which runs no draft is uploaded twice and no acknowledgement
  erases anything but the draft it acknowledges.
-/

namespace WaffleChat

open CallbackProgram EventSystem Observers

/-- What can happen to the chat screen. -/
inductive ChatScreenEvent where
  /-- The user edits the text view. -/
  | edit (text : String)
  /-- A block scheduled by an edit runs and reads the text view. -/
  | textChanged
  /-- The send button is tapped. -/
  | sendTapped (date : Timestamp)
  /-- The backend calls back. -/
  | callback (c : UploadCallback)
deriving DecidableEq, Repr

/-- The view model, the text of `messageInputTextView`, and the number of blocks its
edits have scheduled. -/
structure ChatController where
  viewModel : ChatViewModel
  messageInputText : String
  scheduled : Nat

namespace ChatController

/-- A new screen. -/
def initial : ChatController where
  viewModel := .initial
  messageInputText := ""
  scheduled := 0

/-- `clearMessageText`. -/
def clearMessageText (s : ChatController) : ChatController :=
  { s with messageInputText := "", scheduled := s.scheduled + 1 }

/-- The view model changes; every new `true` of `isMessageUploaded` clears the text view. -/
def drive (s : ChatController) (viewModel : ChatViewModel) : ChatController :=
  let delivered := viewModel.isMessageUploaded.drop s.viewModel.isMessageUploaded.length
  (delivered.filter id).foldl (fun s _ => s.clearMessageText) { s with viewModel := viewModel }

theorem viewModel_foldl_clearMessageText (delivered : List Bool) (s : ChatController) :
    (delivered.foldl (fun s _ => s.clearMessageText) s).viewModel = s.viewModel := by
  induction delivered generalizing s with
  | nil => rfl
  | cons value delivered ih => exact ih s.clearMessageText

/-- Clearing the text view does not touch the view model. -/
@[simp]
theorem viewModel_drive (s : ChatController) (viewModel : ChatViewModel) :
    (s.drive viewModel).viewModel = viewModel :=
  viewModel_foldl_clearMessageText _ _

/-- One event. -/
def step (currentUser : Option Uid) (user : User) (s : ChatController) :
    ChatScreenEvent → Option ChatController
  | .edit text => some { s with messageInputText := text, scheduled := s.scheduled + 1 }
  | .textChanged =>
      if s.scheduled = 0 then none
      else do
        let viewModel ← s.viewModel.step currentUser user (.inputText s.messageInputText)
        return { s with viewModel := viewModel, scheduled := s.scheduled - 1 }
  | .sendTapped date => do
      let viewModel ← s.viewModel.step currentUser user (.sendButtonTapped date)
      return s.drive viewModel
  | .callback c => do
      let viewModel ← s.viewModel.step currentUser user (.callback c)
      return s.drive viewModel

end ChatController

/-! ## The drafts -/

/-- A draft erased by an acknowledgement, its text, and the upload acknowledged. -/
structure Erasure where
  draft : Nat
  text : String
  upload : Nat
deriving DecidableEq, Repr

/-- The number of the draft in the text view, of the one the view model has read, of the
one each upload carries, and what has been erased. -/
structure Drafts where
  current : Nat
  read : Nat
  sent : List Nat
  erased : List Erasure
deriving DecidableEq, Repr

/-- The screen with the history of its drafts. -/
structure TrackedChat where
  screen : ChatController
  drafts : Drafts

namespace TrackedChat

/-- A new screen, and the empty draft it shows. -/
def initial : TrackedChat where
  screen := .initial
  drafts := ⟨0, 0, [], []⟩

/-- What an event that leads to `after` adds to the history. -/
def record (s : TrackedChat) (after : ChatController) : ChatScreenEvent → Drafts
  | .edit _ => { s.drafts with current := s.drafts.current + 1 }
  | .textChanged => { s.drafts with read := s.drafts.current }
  | .sendTapped _ =>
      if s.screen.viewModel.delivery.tasks.length < after.viewModel.delivery.tasks.length then
        { s.drafts with sent := s.drafts.sent ++ [s.drafts.read] }
      else s.drafts
  | .callback c =>
      if s.screen.viewModel.acknowledges c then
        { s.drafts with
          current := s.drafts.current + 1
          erased := s.drafts.erased ++
            [⟨s.drafts.current, s.screen.messageInputText, c.task⟩] }
      else s.drafts

/-- One event of the screen, with its history. -/
def step (currentUser : Option Uid) (user : User) (s : TrackedChat) (e : ChatScreenEvent) :
    Option TrackedChat := do
  let after ← s.screen.step currentUser user e
  return ⟨after, s.record after e⟩

variable {currentUser : Option Uid} {user : User}

/-- Without its history the tracked screen is the screen itself, in every run. -/
theorem run_screen {es : List ChatScreenEvent} {s : TrackedChat} {t : ChatController} :
    run (ChatController.step currentUser user) s.screen es = some t ↔
      ∃ s', run (step currentUser user) s es = some s' ∧ s'.screen = t := by
  induction es generalizing s with
  | nil => simp
  | cons e es ih =>
      simp only [run_cons_eq_some]
      constructor
      · rintro ⟨a, ha, htail⟩
        have hnext : step currentUser user s e = some ⟨a, s.record a e⟩ := by simp [step, ha]
        rcases (ih (s := ⟨a, s.record a e⟩)).1 htail with ⟨s', hs', rfl⟩
        exact ⟨s', ⟨_, hnext, hs'⟩, rfl⟩
      · rintro ⟨s', ⟨b, hb, htail⟩, rfl⟩
        simp only [step, bind_pure_eq_some] at hb
        rcases hb with ⟨a, ha, rfl⟩
        exact ⟨a, ha, (ih (s := ⟨a, s.record a e⟩)).2 ⟨s', htail, rfl⟩⟩

/-- The uploads started so far. -/
def uploads (s : TrackedChat) : List Upload :=
  s.screen.viewModel.delivery.tasks.map Task.job

/-- What the view model has read from the text view. -/
abbrev inputText (s : TrackedChat) : String :=
  s.screen.viewModel.inputText

/-- A callback that acknowledges nothing, like a tap that starts nothing, leaves the texts,
the drafts and the list of the uploads as they are. -/
structure Unchanged (s s' : TrackedChat) : Prop where
  text_eq : s'.screen.messageInputText = s.screen.messageInputText
  inputText_eq : s'.inputText = s.inputText
  uploads_eq : s'.uploads = s.uploads
  drafts_eq : s'.drafts = s.drafts

/-- Everything one event can do to the texts, the uploads and the drafts. -/
theorem step_cases {s s' : TrackedChat} {e : ChatScreenEvent}
    (hs : s.screen.viewModel.Sound currentUser) (h : step currentUser user s e = some s') :
    (∃ text, e = .edit text ∧ s'.screen.messageInputText = text ∧ s'.inputText = s.inputText ∧
      s'.uploads = s.uploads ∧
      s'.drafts = { s.drafts with current := s.drafts.current + 1 }) ∨
    (e = .textChanged ∧ s'.screen.messageInputText = s.screen.messageInputText ∧
      s'.inputText = s.screen.messageInputText ∧ s'.uploads = s.uploads ∧
      s'.drafts = { s.drafts with read := s.drafts.current }) ∨
    (∃ date currentUid, e = .sendTapped date ∧ s.inputText ≠ "" ∧ currentUser = some currentUid ∧
      s'.screen.messageInputText = s.screen.messageInputText ∧ s'.inputText = s.inputText ∧
      s'.uploads = s.uploads ++ [⟨currentUid, user, s.inputText, date⟩] ∧
      s'.drafts = { s.drafts with sent := s.drafts.sent ++ [s.drafts.read] }) ∨
    (∃ date, e = .sendTapped date ∧ (s.inputText = "" ∨ currentUser = none) ∧ Unchanged s s') ∨
    (∃ c, e = .callback c ∧ s.screen.viewModel.acknowledges c = false ∧ Unchanged s s') ∨
    (∃ c, e = .callback c ∧ s.screen.viewModel.acknowledges c = true ∧
      s'.screen.messageInputText = "" ∧ s'.inputText = s.inputText ∧ s'.uploads = s.uploads ∧
      s'.drafts =
        { s.drafts with
          current := s.drafts.current + 1
          erased := s.drafts.erased ++
            [⟨s.drafts.current, s.screen.messageInputText, c.task⟩] }) := by
  simp only [step, bind_pure_eq_some] at h
  rcases h with ⟨after, hafter, rfl⟩
  cases e with
  | edit text =>
      obtain rfl := Option.some.inj hafter
      exact Or.inl ⟨text, rfl, rfl, rfl, rfl, rfl⟩
  | textChanged =>
      simp only [ChatController.step] at hafter
      split at hafter
      · cases hafter
      · obtain rfl := Option.some.inj hafter
        exact Or.inr (Or.inl ⟨rfl, rfl, rfl, rfl, rfl⟩)
  | sendTapped date =>
      simp only [ChatController.step, bind_pure_eq_some] at hafter
      rcases hafter with ⟨viewModel, hviewModel, rfl⟩
      rcases ChatViewModel.step_cases hviewModel with ⟨text, he, -⟩ | ⟨date, he, htext, rfl⟩ |
        ⟨date, currentUid, he, htext, hsession, delivery, hupload, rfl⟩ |
        ⟨date, he, -, hsession, rfl⟩ | ⟨c, delivery, he, -, -⟩
      all_goals cases he
      · refine Or.inr (Or.inr (Or.inr (Or.inl ⟨date, rfl, Or.inl htext, ?_⟩)))
        have hdrive : s.screen.drive s.screen.viewModel = s.screen := by
          simp [ChatController.drive]
        rw [hdrive]
        exact ⟨rfl, rfl, rfl, by simp [record]⟩
      · refine Or.inr (Or.inr (Or.inl ⟨date, currentUid, rfl, htext, hsession, ?_⟩))
        have htasks := ChatViewModel.delivery_upload hupload
        refine ⟨?_, ?_, ?_, ?_⟩
        · simp [ChatController.drive]
        · simp [ChatController.drive]
        · simp [ChatController.drive, uploads, htasks, Task.start]
        · simp [ChatController.drive, record, htasks]
      · refine Or.inr (Or.inr (Or.inr (Or.inl ⟨date, rfl, Or.inr hsession, ?_⟩)))
        rw [ChatViewModel.hear_signedOut hs]
        refine ⟨?_, ?_, ?_, ?_⟩
        · simp [ChatController.drive]
        · simp [ChatController.drive]
        · simp [ChatController.drive, uploads]
        · simp [ChatController.drive, record]
  | callback c =>
      simp only [ChatController.step, bind_pure_eq_some] at hafter
      rcases hafter with ⟨viewModel, hviewModel, rfl⟩
      rcases ChatViewModel.step_callback hs hviewModel with ⟨delivery, hdelivery, rfl⟩
      have hjobs := (ChatViewModel.delivery_callback hdelivery).1
      cases hack : s.screen.viewModel.acknowledges c with
      | false =>
          refine Or.inr (Or.inr (Or.inr (Or.inr (Or.inl ⟨c, rfl, hack, ?_⟩))))
          refine ⟨?_, ?_, ?_, ?_⟩
          · simp [ChatController.drive]
          · simp [ChatController.drive]
          · simpa [ChatController.drive, uploads] using hjobs
          · simp [record, hack]
      | true =>
          refine Or.inr (Or.inr (Or.inr (Or.inr (Or.inr ⟨c, rfl, hack, ?_⟩))))
          refine ⟨?_, ?_, ?_, ?_⟩
          · simp [ChatController.drive, ChatController.clearMessageText]
          · simp [ChatController.drive, ChatController.clearMessageText]
          · simpa [ChatController.drive, ChatController.clearMessageText, uploads] using hjobs
          · simp [record, hack]

/-! ## Numbering the drafts -/

/-- The sinks of the view model stay sound. -/
theorem viewModel_step {s s' : TrackedChat} {e : ChatScreenEvent}
    (hs : s.screen.viewModel.Sound currentUser) (h : step currentUser user s e = some s') :
    s'.screen.viewModel.Sound currentUser := by
  simp only [step, bind_pure_eq_some] at h
  rcases h with ⟨after, hafter, rfl⟩
  cases e with
  | edit text =>
      obtain rfl := Option.some.inj hafter
      exact hs
  | textChanged =>
      simp only [ChatController.step] at hafter
      split at hafter
      · cases hafter
      · simp only [bind_pure_eq_some] at hafter
        rcases hafter with ⟨viewModel, hviewModel, rfl⟩
        exact ChatViewModel.sound_step hs hviewModel
  | sendTapped date =>
      simp only [ChatController.step, bind_pure_eq_some] at hafter
      rcases hafter with ⟨viewModel, hviewModel, rfl⟩
      rw [ChatController.viewModel_drive]
      exact ChatViewModel.sound_step hs hviewModel
  | callback c =>
      simp only [ChatController.step, bind_pure_eq_some] at hafter
      rcases hafter with ⟨viewModel, hviewModel, rfl⟩
      rw [ChatController.viewModel_drive]
      exact ChatViewModel.sound_step hs hviewModel

/-- The drafts are numbered in the order they are typed, read and sent, and the numbers
tell the texts. -/
structure Consistent (currentUser : Option Uid) (s : TrackedChat) : Prop where
  viewModel : s.screen.viewModel.Sound currentUser
  length_eq : s.drafts.sent.length = s.uploads.length
  sorted : s.drafts.sent.Pairwise (· ≤ ·)
  sent_le : ∀ draft ∈ s.drafts.sent, draft ≤ s.drafts.read
  read_le : s.drafts.read ≤ s.drafts.current
  inputText_eq : s.drafts.read = s.drafts.current → s.inputText = s.screen.messageInputText
  text_eq : ∀ i : Nat, s.drafts.sent[i]? = some s.drafts.current →
    (s.uploads[i]?).map Upload.text = some s.screen.messageInputText

theorem consistent_initial : initial.Consistent currentUser where
  viewModel := ChatViewModel.sound_initial
  length_eq := rfl
  sorted := List.Pairwise.nil
  sent_le := by simp [initial]
  read_le := le_refl _
  inputText_eq := fun _ => rfl
  text_eq := by simp [initial]

theorem consistent_unchanged {s s' : TrackedChat} (hs : s.Consistent currentUser)
    (hviewModel : s'.screen.viewModel.Sound currentUser) (h : Unchanged s s') :
    s'.Consistent currentUser := by
  refine ⟨hviewModel, ?_, ?_, ?_, ?_, ?_, ?_⟩
  · rw [h.drafts_eq, h.uploads_eq, hs.length_eq]
  · rw [h.drafts_eq]
    exact hs.sorted
  · rw [h.drafts_eq]
    exact hs.sent_le
  · rw [h.drafts_eq]
    exact hs.read_le
  · rw [h.drafts_eq, h.inputText_eq, h.text_eq]
    exact hs.inputText_eq
  · rw [h.drafts_eq, h.uploads_eq, h.text_eq]
    exact hs.text_eq

/-- A new draft is carried by no upload and has not been read. -/
theorem consistent_newDraft {s s' : TrackedChat} (hs : s.Consistent currentUser)
    (hviewModel : s'.screen.viewModel.Sound currentUser)
    (huploads : s'.uploads = s.uploads) (hsent : s'.drafts.sent = s.drafts.sent)
    (hread : s'.drafts.read = s.drafts.read)
    (hcurrent : s'.drafts.current = s.drafts.current + 1) : s'.Consistent currentUser := by
  have hle := hs.read_le
  refine ⟨hviewModel, ?_, ?_, ?_, ?_, ?_, ?_⟩
  · rw [hsent, huploads, hs.length_eq]
  · rw [hsent]
    exact hs.sorted
  · rw [hsent, hread]
    exact hs.sent_le
  · omega
  · omega
  · intro i hi
    rw [hsent, hcurrent] at hi
    have hsome := hs.sent_le _ (List.mem_of_getElem? hi)
    omega

theorem consistent_step {s s' : TrackedChat} {e : ChatScreenEvent}
    (hs : s.Consistent currentUser) (hstep : step currentUser user s e = some s') :
    s'.Consistent currentUser := by
  have hviewModel := viewModel_step hs.viewModel hstep
  rcases step_cases hs.viewModel hstep with ⟨text, -, -, -, huploads, hdrafts⟩ |
    ⟨-, htext, hinput, huploads, hdrafts⟩ |
    ⟨date, currentUid, -, -, -, htext, hinput, huploads, hdrafts⟩ | ⟨date, -, -, hsame⟩ |
    ⟨c, -, -, hsame⟩ | ⟨c, -, -, -, -, huploads, hdrafts⟩
  · exact consistent_newDraft hs hviewModel huploads (by rw [hdrafts]) (by rw [hdrafts])
      (by rw [hdrafts])
  · refine ⟨hviewModel, ?_, ?_, ?_, ?_, ?_, ?_⟩
    · rw [hdrafts, huploads, hs.length_eq]
    · rw [hdrafts]
      exact hs.sorted
    · rw [hdrafts]
      exact fun draft hdraft => (hs.sent_le draft hdraft).trans hs.read_le
    · rw [hdrafts]
    · rw [hinput, htext]
      exact fun _ => rfl
    · rw [hdrafts, huploads, htext]
      exact hs.text_eq
  · refine ⟨hviewModel, ?_, ?_, ?_, ?_, ?_, ?_⟩
    · rw [hdrafts, huploads, List.length_append, List.length_append, hs.length_eq]
      rfl
    · rw [hdrafts]
      refine List.pairwise_append.2 ⟨hs.sorted, List.pairwise_singleton _ _, ?_⟩
      intro draft hdraft last hlast
      rw [List.mem_singleton.1 hlast]
      exact hs.sent_le draft hdraft
    · rw [hdrafts]
      intro draft hdraft
      rcases List.mem_append.1 hdraft with hdraft | hdraft
      · exact hs.sent_le draft hdraft
      · exact (List.mem_singleton.1 hdraft).le
    · rw [hdrafts]
      exact hs.read_le
    · rw [hdrafts, hinput, htext]
      exact hs.inputText_eq
    · intro i hi
      rw [hdrafts] at hi
      rw [huploads, htext]
      rcases lt_trichotomy i s.drafts.sent.length with hlt | heq | hgt
      · rw [List.getElem?_append_left hlt] at hi
        rw [List.getElem?_append_left (hs.length_eq ▸ hlt)]
        exact hs.text_eq i hi
      · have hread : s.drafts.read = s.drafts.current := by simpa [heq] using hi
        simp [heq, hs.length_eq, hs.inputText_eq hread]
      · have hnone : (s.drafts.sent ++ [s.drafts.read])[i]? = none := by
          simpa using Nat.succ_le_of_lt hgt
        rw [hnone] at hi
        cases hi
  · exact consistent_unchanged hs hviewModel hsame
  · exact consistent_unchanged hs hviewModel hsame
  · exact consistent_newDraft hs hviewModel huploads (by rw [hdrafts]) (by rw [hdrafts])
      (by rw [hdrafts])

/-! ## Draft safety -/

/-- No draft is uploaded twice, and what an acknowledgement has erased was nothing or the
very draft, with the very text, that the acknowledged upload carries. -/
def Safe (s : TrackedChat) : Prop :=
  s.drafts.sent.Nodup ∧ ∀ lost ∈ s.drafts.erased, lost.text = "" ∨
    (s.drafts.sent[lost.upload]? = some lost.draft ∧
      (s.uploads[lost.upload]?).map Upload.text = some lost.text)

/-- No tap is accepted on a text that the last upload already carries, and when the latest
upload is acknowledged the text view is empty or has not been edited since it was read for
that upload. -/
def Unhurried (currentUser : Option Uid) (s : TrackedChat) : ChatScreenEvent → Prop
  | .sendTapped _ => s.inputText ≠ "" → currentUser.isSome →
      s.drafts.sent.getLast? ≠ some s.drafts.read
  | .callback c => s.screen.viewModel.acknowledges c = true →
      s.screen.messageInputText = "" ∨ s.drafts.sent[c.task]? = some s.drafts.current
  | _ => True

instance : DecidablePred Safe := fun s =>
  inferInstanceAs (Decidable (s.drafts.sent.Nodup ∧ ∀ lost ∈ s.drafts.erased, lost.text = "" ∨
    (s.drafts.sent[lost.upload]? = some lost.draft ∧
      (s.uploads[lost.upload]?).map Upload.text = some lost.text)))

instance (s : TrackedChat) : DecidablePred (Unhurried currentUser s)
  | .edit _ => inferInstanceAs (Decidable True)
  | .textChanged => inferInstanceAs (Decidable True)
  | .sendTapped _ => inferInstanceAs (Decidable (s.inputText ≠ "" → currentUser.isSome →
      s.drafts.sent.getLast? ≠ some s.drafts.read))
  | .callback c => inferInstanceAs (Decidable (s.screen.viewModel.acknowledges c = true →
      s.screen.messageInputText = "" ∨ s.drafts.sent[c.task]? = some s.drafts.current))

/-- The draft that has been read is carried by an upload exactly when the last one carries
it. -/
theorem Consistent.read_mem_iff {s : TrackedChat} (hs : s.Consistent currentUser) :
    s.drafts.read ∈ s.drafts.sent ↔ s.drafts.sent.getLast? = some s.drafts.read := by
  constructor
  · intro hmem
    rcases List.eq_nil_or_concat s.drafts.sent with hnil | ⟨before, last, hsent⟩
    · rw [hnil] at hmem
      cases hmem
    · rw [List.concat_eq_append] at hsent
      have hsorted := hs.sorted
      rw [hsent] at hsorted hmem
      have hlast : last ≤ s.drafts.read := hs.sent_le last (by simp [hsent])
      have hread : s.drafts.read ≤ last := by
        rcases List.mem_append.1 hmem with hmem | hmem
        · exact (List.pairwise_append.1 hsorted).2.2 _ hmem last (List.mem_singleton_self last)
        · exact (List.mem_singleton.1 hmem).le
      rw [hsent, List.getLast?_append, List.getLast?_singleton]
      exact congrArg some (le_antisymm hlast hread)
  · exact List.mem_of_getLast?

/-- A safe state stays safe exactly when the event is unhurried. -/
theorem safe_step_iff {s s' : TrackedChat} {e : ChatScreenEvent}
    (hs : s.Consistent currentUser) (hsafe : s.Safe)
    (hstep : step currentUser user s e = some s') :
    s'.Safe ↔ Unhurried currentUser s e := by
  have hkeep : s'.uploads = s.uploads → s'.drafts.sent = s.drafts.sent →
      s'.drafts.erased = s.drafts.erased → s'.Safe := by
    intro huploads hsent herased
    unfold Safe
    rw [huploads, hsent, herased]
    exact hsafe
  rcases step_cases hs.viewModel hstep with ⟨text, rfl, -, -, huploads, hdrafts⟩ |
    ⟨rfl, -, -, huploads, hdrafts⟩ |
    ⟨date, currentUid, rfl, hinput, hsession, -, -, huploads, hdrafts⟩ | ⟨date, rfl, hnone, hsame⟩ |
    ⟨c, rfl, hack, hsame⟩ | ⟨c, rfl, hack, -, -, huploads, hdrafts⟩
  · exact iff_of_true (hkeep huploads (by rw [hdrafts]) (by rw [hdrafts])) trivial
  · exact iff_of_true (hkeep huploads (by rw [hdrafts]) (by rw [hdrafts])) trivial
  · have herased : ∀ lost ∈ s'.drafts.erased, lost.text = "" ∨
        (s'.drafts.sent[lost.upload]? = some lost.draft ∧
          (s'.uploads[lost.upload]?).map Upload.text = some lost.text) := by
      intro lost hlost
      rw [hdrafts] at hlost ⊢
      rcases hsafe.2 lost hlost with hempty | ⟨hsent, htext⟩
      · exact Or.inl hempty
      · have hlt := (List.getElem?_eq_some_iff.1 hsent).1
        refine Or.inr ⟨(List.getElem?_append_left hlt).trans hsent, ?_⟩
        rw [huploads, List.getElem?_append_left (hs.length_eq ▸ hlt)]
        exact htext
    have hnodup : s'.drafts.sent.Nodup ↔ s.drafts.read ∉ s.drafts.sent := by
      rw [hdrafts, List.nodup_append]
      simp only [hsafe.1, List.nodup_singleton, List.mem_singleton, true_and]
      constructor
      · exact fun hne hmem => hne _ hmem _ rfl rfl
      · rintro hnot draft hdraft last rfl rfl
        exact hnot hdraft
    have hsession' : currentUser.isSome := by simp [hsession]
    unfold Safe Unhurried
    rw [hnodup, hs.read_mem_iff]
    exact ⟨fun h _ _ => h.1, fun h => ⟨h hinput hsession', herased⟩⟩
  · refine iff_of_true (hkeep hsame.uploads_eq (by rw [hsame.drafts_eq])
      (by rw [hsame.drafts_eq])) ?_
    intro hinput hsession
    rcases hnone with hempty | hsignedOut
    · exact (hinput hempty).elim
    · simp [hsignedOut] at hsession
  · refine iff_of_true (hkeep hsame.uploads_eq (by rw [hsame.drafts_eq])
      (by rw [hsame.drafts_eq])) ?_
    intro hack'
    rw [hack] at hack'
    cases hack'
  · have hlast : s'.Safe ↔ s.screen.messageInputText = "" ∨
        (s.drafts.sent[c.task]? = some s.drafts.current ∧
          (s.uploads[c.task]?).map Upload.text = some s.screen.messageInputText) := by
      unfold Safe
      rw [hdrafts, huploads]
      simp only [List.mem_append, List.mem_singleton, or_imp, forall_and, forall_eq]
      exact ⟨fun h => h.2.2, fun h => ⟨hsafe.1, hsafe.2, h⟩⟩
    rw [hlast]
    unfold Unhurried
    constructor
    · rintro h -
      exact h.imp_right And.left
    · intro h
      exact (h hack).imp_right fun hsent => ⟨hsent, hs.text_eq _ hsent⟩

/-- In the chat composer no draft is uploaded twice and no acknowledgement erases text it
does not acknowledge, in exactly the runs whose events are all unhurried. -/
theorem safe_iff {es : List ChatScreenEvent} {s : ChatController}
    (hrun : run (ChatController.step currentUser user) .initial es = some s) :
    Always (step currentUser user) Safe initial es ↔
      StepsMeet (step currentUser user) (Unhurried currentUser) initial es := by
  rcases (run_screen (s := initial)).1 hrun with ⟨t, ht, -⟩
  refine always_iff_stepsMeet (I := Consistent currentUser) ?_ ?_ consistent_initial ?_ ht
  · exact fun _ _ _ hs hstep => consistent_step hs hstep
  · exact fun _ _ _ hs hsafe hstep => safe_step_iff hs hsafe hstep
  · exact ⟨List.nodup_nil, by simp [initial]⟩

/-- Both log writes of upload `i` are committed and handled. -/
def callbacks (i : Nat) : List ChatScreenEvent :=
  [.callback (.decide i .committed), .callback (.handle i), .callback (.decide i .committed),
    .callback (.handle i)]

/-- A second draft is typed once the text view has been cleared. -/
def unhurriedChat : List ChatScreenEvent :=
  [.edit "hi", .textChanged, .sendTapped ⟨1, 0⟩] ++ callbacks 0 ++
    [.textChanged, .edit "bye", .textChanged, .sendTapped ⟨2, 0⟩] ++ callbacks 1

theorem safe_unhurriedChat :
    ∃ s, run (ChatController.step (some "alice") (.sample "bob")) .initial unhurriedChat = some s ∧
      Always (step (some "alice") (.sample "bob")) Safe initial unhurriedChat :=
  ⟨_, run_final rfl, (safe_iff (run_final rfl)).2 (by decide)⟩

/-- The button is tapped twice before the acknowledgement. -/
def doubleTap : List ChatScreenEvent :=
  [.edit "hi", .textChanged, .sendTapped ⟨1, 0⟩, .sendTapped ⟨2, 0⟩]

/-- The user types on before the acknowledgement. -/
def typedOn : List ChatScreenEvent :=
  [.edit "hi", .textChanged, .sendTapped ⟨1, 0⟩, .edit "hi again", .textChanged] ++ callbacks 0

/-- A draft is uploaded twice, and an unsent text is erased. -/
theorem not_safe_doubleTap_typedOn :
    (∃ s, run (step (some "alice") (.sample "bob")) initial doubleTap = some s ∧
      s.drafts.sent = [1, 1] ∧ ¬ s.Safe) ∧
    ∃ s, run (step (some "alice") (.sample "bob")) initial typedOn = some s ∧
      s.drafts.erased = [⟨2, "hi again", 0⟩] ∧ s.drafts.sent = [1] ∧ ¬ s.Safe :=
  ⟨⟨_, run_final rfl, rfl, by decide⟩, ⟨_, run_final rfl, rfl, rfl, by decide⟩⟩

end TrackedChat

end WaffleChat
