import Mathlib.Data.List.Infix
import WaffleChat.Library.EventSystem

/-!
# Images from the web

`sd_setImage(with:)`, called on any number of image views, over one `SDWebImageManager` with
its memory cache and its list of failed URLs.  Each call cancels the operation the view has
started before; the disk is read on a queue of its own, and the completions of queries and
downloads come in any order, also for operations that have been cancelled.  Operations of one
URL share the operation of the downloader, which may forget the handler of a late one.

Main results:

- Theorem `Sound.complete`: what a completion shows belongs to the URL of the view.
- Theorem `Sound.setImage`: a new operation is the only one its view still listens to.
- Theorem `Sound.step`: what views show has been loaded for their URLs, and what they do not
  show is on its way or has failed.
-/

namespace WaffleChat

open EventSystem

/-- How far an operation is: the disk is being read, the main queue is about to hear what has
been found there, the image is being downloaded, the downloader has forgotten the handler, or
the completion has been called. -/
inductive LoadStage (Image : Type) where
  | querying
  | queried (diskImage : Option Image)
  | downloading
  | dropped
  | finished
deriving DecidableEq, Repr

/-- `SDWebImageCombinedOperation`, with the image view its completion sets. -/
structure CombinedOperation (URL Image : Type) where
  url : URL
  view : Nat
  stage : LoadStage Image
  cancelled : Bool
deriving DecidableEq, Repr

/-- An image view: the URL it was given last, the image it shows, and its entry in
`sd_operationDictionary`. -/
structure ImageView (URL Image : Type) where
  imageURL : Option URL
  image : Option Image
  loadOperation : Option Nat
deriving DecidableEq, Repr

/-- `SDWebImageManager` with the operations it has started and the views they are for. -/
structure ImageManager (URL Image : Type) where
  memoryCache : List (URL × Image)
  failedURLs : List URL
  operations : List (CombinedOperation URL Image)
  views : List (ImageView URL Image)
deriving DecidableEq, Repr

/-- What the disk, the main queue and the network report, and what the system takes back. -/
inductive ImageEvent (URL Image : Type) where
  /-- The disk has been read for operation `i`. -/
  | diskRead (i : Nat) (diskImage : Option Image)
  /-- The main queue hears of the query of operation `i`. -/
  | queryDone (i : Nat)
  /-- The download of operation `i` completes; an error may block its URL. -/
  | downloaded (i : Nat) (result : Except Bool Image)
  /-- The downloader removes the handler of operation `i`, which has been added after the
  handlers were called. -/
  | dropped (i : Nat)
  /-- The memory cache drops the image of a URL. -/
  | evicted (url : URL)

namespace CombinedOperation

variable {URL Image : Type}

/-- The operation has neither been cancelled nor called its completion. -/
def Running (op : CombinedOperation URL Image) : Prop :=
  op.cancelled = false ∧ op.stage ≠ .finished

/-- The query of the operation is over. -/
def queryOver (op : CombinedOperation URL Image) : Bool :=
  match op.stage with
  | .querying => false
  | .queried _ => false
  | _ => true

/-- `cancel` -/
def cancel (op : CombinedOperation URL Image) : CombinedOperation URL Image :=
  { op with cancelled := true }

end CombinedOperation

namespace ImageManager

variable {URL Image : Type}

/-- Nothing cached, nothing started. -/
def initial : ImageManager URL Image where
  memoryCache := []
  failedURLs := []
  operations := []
  views := []

/-- The URLs the views were given last. -/
def imageURLs (s : ImageManager URL Image) : List (Option URL) :=
  s.views.map ImageView.imageURL

/-- The URLs of the operations. -/
def urls (s : ImageManager URL Image) : List URL :=
  s.operations.map CombinedOperation.url

/-- An image view is created. -/
def addView (s : ImageManager URL Image) : ImageManager URL Image :=
  { s with views := s.views ++ [⟨none, none, none⟩] }

/-- `sd_cancelImageLoadOperation(withKey:)` -/
def cancelImageLoad (s : ImageManager URL Image) (view : ImageView URL Image) :
    ImageManager URL Image :=
  { s with
    operations := view.loadOperation.elim s.operations fun i =>
      s.operations.modify i CombinedOperation.cancel }

/-- Operation `i` moves on. -/
def move (s : ImageManager URL Image) (i : Nat) (op : CombinedOperation URL Image)
    (stage : LoadStage Image) : ImageManager URL Image :=
  { s with operations := s.operations.set i { op with stage := stage } }

/-- The completion of operation `i` is called, with an image or an error.  That of a cancelled
one is called with an error, and no error sets an image. -/
def complete (s : ImageManager URL Image) (i : Nat) (op : CombinedOperation URL Image)
    (image : Option Image) : ImageManager URL Image :=
  { s.move i op .finished with
    views :=
      if op.cancelled then s.views
      else s.views.modify op.view fun view => { view with image := image.or view.image } }

/-- What is heard about a URL: the image that the disk or the network has for it, or that it
has none. -/
def answered (s : ImageManager URL Image) :
    ImageEvent URL Image → List (URL × Option Image)
  | .diskRead i (some image) =>
      (s.operations[i]?).elim [] fun op => if op.cancelled then [] else [(op.url, some image)]
  | .downloaded i result =>
      (s.operations[i]?).elim [] fun op =>
        if op.cancelled then [] else [(op.url, result.toOption)]
  | _ => []

/-- What the state says about the answers heard so far. -/
structure Sound (heard : List (URL × Option Image)) (s : ImageManager URL Image) : Prop where
  cached : ∀ entry ∈ s.memoryCache, (entry.1, some entry.2) ∈ heard
  failed : ∀ url ∈ s.failedURLs, (url, none) ∈ heard
  queried : ∀ op ∈ s.operations, ∀ image, op.stage = .queried (some image) →
    (op.url, some image) ∈ heard
  owned : ∀ (k : Nat) view (i : Nat), s.views[k]? = some view → view.loadOperation = some i →
    ∃ op, s.operations[i]? = some op ∧ op.view = k ∧ view.imageURL = some op.url
  listened : ∀ (i : Nat) op, s.operations[i]? = some op → op.Running →
    ∃ view, s.views[op.view]? = some view ∧ view.loadOperation = some i
  shown : ∀ (k : Nat) view image, s.views[k]? = some view → view.image = some image →
    ∃ url, view.imageURL = some url ∧ (url, some image) ∈ heard
  blank : ∀ (k : Nat) view url, s.views[k]? = some view → view.imageURL = some url →
    view.image = none → (url, none) ∈ heard ∨
      ∃ (i : Nat) (op : CombinedOperation URL Image), view.loadOperation = some i ∧
        s.operations[i]? = some op ∧ op.Running
  shared : ∀ (i : Nat) op, s.operations[i]? = some op → op.stage = .dropped →
    ∃ j ≠ i, s.urls[j]? = some op.url

/-- At first nothing is shown, and nothing has been heard. -/
theorem sound_initial : (initial : ImageManager URL Image).Sound [] := by
  constructor <;> simp [initial]

/-- What has been heard stays heard. -/
theorem Sound.mono {heard : List (URL × Option Image)} {s : ImageManager URL Image}
    (h : s.Sound heard) (more : List (URL × Option Image)) : s.Sound (heard ++ more) := by
  refine ⟨?_, ?_, ?_, h.owned, h.listened, ?_, ?_, h.shared⟩
  · intro entry hentry
    exact List.mem_append_left _ (h.cached entry hentry)
  · intro url hurl
    exact List.mem_append_left _ (h.failed url hurl)
  · intro op hop image hstage
    exact List.mem_append_left _ (h.queried op hop image hstage)
  · intro k view image hview himage
    rcases h.shown k view image hview himage with ⟨url, hurl, hheard⟩
    exact ⟨url, hurl, List.mem_append_left _ hheard⟩
  · intro k view url hview hurl himage
    rcases h.blank k view url hview hurl himage with hheard | hrunning
    · exact Or.inl (List.mem_append_left _ hheard)
    · exact Or.inr hrunning

/-! ## Operations -/

variable {heard : List (URL × Option Image)} {s : ImageManager URL Image}

/-- Only the operation that moves on changes. -/
theorem getElem?_move {i : Nat} {op : CombinedOperation URL Image}
    (hget : s.operations[i]? = some op) (stage : LoadStage Image) (j : Nat) :
    (s.move i op stage).operations[j]? =
      if i = j then some { op with stage := stage } else s.operations[j]? := by
  have hlt := (List.getElem?_eq_some_iff.1 hget).1
  simp [move, List.getElem?_set, hlt]

/-- An operation that moves on keeps its URL. -/
theorem urls_move {i : Nat} {op : CombinedOperation URL Image}
    (hget : s.operations[i]? = some op) (stage : LoadStage Image) :
    (s.move i op stage).urls = s.urls := by
  apply List.ext_getElem?
  intro j
  simp only [urls, List.getElem?_map, getElem?_move hget]
  split
  · rename_i hij
    subst hij
    rw [hget]
    rfl
  · rfl

/-- A dropped handler stays one of two for its URL. -/
theorem Sound.shared_move (h : s.Sound heard) {i : Nat} {op : CombinedOperation URL Image}
    (hget : s.operations[i]? = some op) (stage : LoadStage Image)
    (hdropped : stage = .dropped → ∃ j ≠ i, s.urls[j]? = some op.url) (j : Nat)
    {other : CombinedOperation URL Image}
    (hother : (s.move i op stage).operations[j]? = some other) (hstage : other.stage = .dropped) :
    ∃ k ≠ j, (s.move i op stage).urls[k]? = some other.url := by
  rw [urls_move hget]
  rw [getElem?_move hget] at hother
  split at hother
  · rename_i hij
    subst hij
    obtain rfl := Option.some.inj hother
    exact hdropped hstage
  · exact h.shared j other hother hstage

/-- An operation that moves on is still the one it was. -/
theorem Sound.move (h : s.Sound heard) {i : Nat} {op : CombinedOperation URL Image}
    (hget : s.operations[i]? = some op) (hbefore : op.stage ≠ .finished)
    {stage : LoadStage Image} (hafter : stage ≠ .finished)
    (hqueried : ∀ image, stage = .queried (some image) → (op.url, some image) ∈ heard)
    (hdropped : stage = .dropped → ∃ j ≠ i, s.urls[j]? = some op.url) :
    (s.move i op stage).Sound heard := by
  refine ⟨h.cached, h.failed, ?_, ?_, ?_, h.shown, ?_,
    fun j _ => h.shared_move hget stage hdropped j⟩
  · intro other hother image hstage
    rcases List.mem_or_eq_of_mem_set hother with hold | rfl
    · exact h.queried other hold image hstage
    · exact hqueried image hstage
  · intro k view j hview hload
    rcases h.owned k view j hview hload with ⟨other, hother, howner, hurl⟩
    rw [getElem?_move hget]
    split
    · rename_i hij
      subst hij
      obtain rfl : op = other := Option.some.inj (hget.symm.trans hother)
      exact ⟨_, rfl, howner, hurl⟩
    · exact ⟨other, hother, howner, hurl⟩
  · intro j other hother hrunning
    rw [getElem?_move hget] at hother
    split at hother
    · rename_i hij
      subst hij
      obtain rfl := Option.some.inj hother
      exact h.listened i op hget ⟨hrunning.1, hbefore⟩
    · exact h.listened j other hother hrunning
  · intro k view url hview hurl himage
    refine (h.blank k view url hview hurl himage).imp_right ?_
    rintro ⟨j, other, hload, hother, hrunning⟩
    refine ⟨j, ?_⟩
    rw [getElem?_move hget]
    split
    · rename_i hij
      subst hij
      obtain rfl : op = other := Option.some.inj (hget.symm.trans hother)
      exact ⟨_, hload, rfl, hrunning.1, hafter⟩
    · exact ⟨other, hload, hother, hrunning⟩

/-- View `k` after the completion of an operation: only the view the operation is for gets
the image. -/
def reached (op : CombinedOperation URL Image) (image : Option Image) (k : Nat)
    (view : ImageView URL Image) : ImageView URL Image :=
  if op.view = k ∧ op.cancelled = false then { view with image := image.or view.image }
  else view

/-- A completion does not change what a view has asked for. -/
@[simp]
theorem imageURL_reached (op : CombinedOperation URL Image) (image : Option Image) (k : Nat)
    (view : ImageView URL Image) : (reached op image k view).imageURL = view.imageURL := by
  unfold reached
  split <;> rfl

/-- A completion leaves the entry of the operation in place. -/
@[simp]
theorem loadOperation_reached (op : CombinedOperation URL Image) (image : Option Image) (k : Nat)
    (view : ImageView URL Image) :
    (reached op image k view).loadOperation = view.loadOperation := by
  unfold reached
  split <;> rfl

/-- The views after a completion. -/
theorem getElem?_complete (s : ImageManager URL Image) (i : Nat)
    (op : CombinedOperation URL Image) (image : Option Image) (k : Nat) :
    (s.complete i op image).views[k]? = (s.views[k]?).map (reached op image k) := by
  unfold reached
  cases hcancelled : op.cancelled with
  | true => simp [complete, hcancelled]
  | false =>
      by_cases hview : op.view = k
      · simp [complete, hcancelled, hview]
      · simp [complete, hcancelled, hview]

/-- No completion changes what a view has asked for. -/
theorem imageURLs_complete (s : ImageManager URL Image) (i : Nat)
    (op : CombinedOperation URL Image) (image : Option Image) :
    (s.complete i op image).imageURLs = s.imageURLs := by
  apply List.ext_getElem?
  intro k
  simp only [imageURLs, List.getElem?_map, getElem?_complete, Option.map_map]
  congr 1
  funext view
  exact imageURL_reached op image k view

/-- What a completion shows belongs to the URL of the view. -/
theorem Sound.complete (h : s.Sound heard) {i : Nat} {op : CombinedOperation URL Image}
    (hget : s.operations[i]? = some op) (hbefore : op.stage ≠ .finished) {image : Option Image}
    (hheard : op.cancelled = false → (op.url, image) ∈ heard) :
    (s.complete i op image).Sound heard := by
  have hoperations : ∀ j, (s.complete i op image).operations[j]? =
      if i = j then some { op with stage := .finished } else s.operations[j]? := fun j =>
    getElem?_move hget .finished j
  -- a view the completion reaches has been waiting for it
  have hwaiting : ∀ {k before}, s.views[k]? = some before → op.view = k →
      op.cancelled = false → before.imageURL = some op.url := by
    intro k before hview howner hcancelled
    rcases h.listened i op hget ⟨hcancelled, hbefore⟩ with ⟨waiting, hwaiting, hload⟩
    rw [howner] at hwaiting
    obtain rfl : before = waiting := Option.some.inj (hview.symm.trans hwaiting)
    rcases h.owned k before i hview hload with ⟨other, hother, -, hurl⟩
    obtain rfl : op = other := Option.some.inj (hget.symm.trans hother)
    exact hurl
  refine ⟨h.cached, h.failed, ?_, ?_, ?_, ?_, ?_,
    fun j _ => h.shared_move hget .finished (fun hstage => nomatch hstage) j⟩
  · intro other hother image hstage
    rcases List.mem_or_eq_of_mem_set hother with hold | rfl
    · exact h.queried other hold image hstage
    · cases hstage
  · intro k view j hview hload
    rw [getElem?_complete, Option.map_eq_some_iff] at hview
    rcases hview with ⟨before, hold, rfl⟩
    rw [loadOperation_reached] at hload
    rcases h.owned k before j hold hload with ⟨other, hother, howner, hurl⟩
    rw [hoperations, imageURL_reached]
    split
    · rename_i hij
      subst hij
      obtain rfl : op = other := Option.some.inj (hget.symm.trans hother)
      exact ⟨_, rfl, howner, hurl⟩
    · exact ⟨other, hother, howner, hurl⟩
  · intro j other hother hrunning
    rw [hoperations] at hother
    split at hother
    · obtain rfl := Option.some.inj hother
      exact absurd rfl hrunning.2
    · rcases h.listened j other hother hrunning with ⟨view, hview, hload⟩
      refine ⟨reached op image other.view view, ?_, by rw [loadOperation_reached, hload]⟩
      rw [getElem?_complete, hview, Option.map_some]
  · intro k view shown hview hshown
    rw [getElem?_complete, Option.map_eq_some_iff] at hview
    rcases hview with ⟨before, hold, rfl⟩
    rw [imageURL_reached]
    unfold reached at hshown
    split at hshown
    · rename_i hreached
      rcases Option.or_eq_some_iff.1 hshown with rfl | ⟨-, hkept⟩
      · exact ⟨op.url, hwaiting hold hreached.1 hreached.2, hheard hreached.2⟩
      · exact h.shown k before shown hold hkept
    · exact h.shown k before shown hold hshown
  · intro k view url hview hurl hblank
    rw [getElem?_complete, Option.map_eq_some_iff] at hview
    rcases hview with ⟨before, hold, rfl⟩
    rw [imageURL_reached] at hurl
    rw [loadOperation_reached]
    unfold reached at hblank
    split at hblank
    · rename_i hreached
      rcases Option.or_eq_none_iff.1 hblank with ⟨rfl, -⟩
      have hsame := hwaiting hold hreached.1 hreached.2
      obtain rfl : url = op.url := Option.some.inj (hurl.symm.trans hsame)
      exact Or.inl (hheard hreached.2)
    · rename_i hother
      refine (h.blank k before url hold hurl hblank).imp_right ?_
      rintro ⟨j, waiting, hload, hwait, hrunning⟩
      refine ⟨j, waiting, hload, ?_, hrunning⟩
      rw [hoperations, if_neg]
      · exact hwait
      · rintro rfl
        obtain rfl : op = waiting := Option.some.inj (hget.symm.trans hwait)
        rcases h.owned k before i hold hload with ⟨owner, howner, hk, -⟩
        obtain rfl : op = owner := Option.some.inj (hget.symm.trans howner)
        exact hother ⟨hk, hrunning.1⟩

/-! ## Calls -/

/-- A new view asks for nothing and shows nothing. -/
theorem Sound.addView (h : s.Sound heard) : s.addView.Sound heard := by
  have hviews : ∀ {k : Nat} {view}, s.addView.views[k]? = some view →
      s.views[k]? = some view ∨ view = ⟨none, none, none⟩ := by
    intro k view hview
    rw [ImageManager.addView, List.getElem?_append] at hview
    split at hview
    · exact Or.inl hview
    · rw [List.getElem?_singleton] at hview
      split at hview
      · exact Or.inr (Option.some.inj hview).symm
      · cases hview
  refine ⟨h.cached, h.failed, h.queried, ?_, ?_, ?_, ?_, h.shared⟩
  · intro k view i hview hload
    rcases hviews hview with hold | rfl
    · exact h.owned k view i hold hload
    · cases hload
  · intro i op hop hrunning
    rcases h.listened i op hop hrunning with ⟨view, hview, hload⟩
    exact ⟨view, List.getElem?_append_left (List.getElem?_eq_some_iff.1 hview).1 ▸ hview, hload⟩
  · intro k view image hview himage
    rcases hviews hview with hold | rfl
    · exact h.shown k view image hold himage
    · cases himage
  · intro k view url hview hurl himage
    rcases hviews hview with hold | rfl
    · exact h.blank k view url hold hurl himage
    · cases hurl

/-- Operation `i` after a view has cancelled the one it has started. -/
def afterCancel (view : ImageView URL Image) (i : Nat) (op : CombinedOperation URL Image) :
    CombinedOperation URL Image :=
  if view.loadOperation = some i then op.cancel else op

/-- A cancelled operation keeps its URL. -/
@[simp]
theorem url_afterCancel (view : ImageView URL Image) (i : Nat)
    (op : CombinedOperation URL Image) : (afterCancel view i op).url = op.url := by
  unfold afterCancel
  split <;> rfl

/-- A cancelled operation keeps its view. -/
@[simp]
theorem view_afterCancel (view : ImageView URL Image) (i : Nat)
    (op : CombinedOperation URL Image) : (afterCancel view i op).view = op.view := by
  unfold afterCancel
  split <;> rfl

/-- A cancelled operation gets on as before. -/
@[simp]
theorem stage_afterCancel (view : ImageView URL Image) (i : Nat)
    (op : CombinedOperation URL Image) : (afterCancel view i op).stage = op.stage := by
  unfold afterCancel
  split <;> rfl

/-- The operation a view has started is the one it stops. -/
theorem running_afterCancel {view : ImageView URL Image} {i : Nat}
    {op : CombinedOperation URL Image} :
    (afterCancel view i op).Running ↔ op.Running ∧ view.loadOperation ≠ some i := by
  unfold afterCancel
  split
  · rename_i hload
    simp [CombinedOperation.Running, CombinedOperation.cancel, hload]
  · rename_i hload
    simp [hload]

/-- A new view has no URL. -/
@[simp]
theorem imageURLs_addView (s : ImageManager URL Image) :
    s.addView.imageURLs = s.imageURLs ++ [none] := by
  simp [imageURLs, addView]

/-- The operations after a view has cancelled its own. -/
theorem getElem?_cancelImageLoad (s : ImageManager URL Image) (view : ImageView URL Image)
    (i : Nat) :
    (s.cancelImageLoad view).operations[i]? = (s.operations[i]?).map (afterCancel view i) := by
  unfold afterCancel
  cases hload : view.loadOperation with
  | none => simp [cancelImageLoad, hload]
  | some j =>
      by_cases hij : j = i
      · simp [cancelImageLoad, hload, hij]
      · simp [cancelImageLoad, hload, hij]

/-- Cancelling changes no URL of an operation. -/
theorem urls_cancelImageLoad (s : ImageManager URL Image) (view : ImageView URL Image) :
    (s.cancelImageLoad view).urls = s.urls := by
  apply List.ext_getElem?
  intro i
  simp only [urls, List.getElem?_map, getElem?_cancelImageLoad, Option.map_map]
  congr 1
  funext op
  exact url_afterCancel view i op

/-- View `k` drops what it has asked for and shows what is known of its next URL. -/
def present (s : ImageManager URL Image) (k : Nat) (view : ImageView URL Image)
    (url : Option URL) (image : Option Image) : ImageManager URL Image :=
  { s.cancelImageLoad view with views := s.views.set k ⟨url, image, none⟩ }

/-- A view may show what has been found for its next URL, and nothing where it has failed. -/
theorem Sound.present (h : s.Sound heard) {k : Nat} {view : ImageView URL Image}
    (hk : s.views[k]? = some view) {url : Option URL} {image : Option Image}
    (hshown : ∀ shown, image = some shown → ∃ u, url = some u ∧ (u, some shown) ∈ heard)
    (hblank : ∀ u, url = some u → image = none → (u, none) ∈ heard) :
    (s.present k view url image).Sound heard := by
  have hviews : ∀ {j : Nat} {other}, (s.present k view url image).views[j]? = some other →
      other = ⟨url, image, none⟩ ∨ j ≠ k ∧ s.views[j]? = some other := by
    intro j other hother
    by_cases hjk : k = j
    · subst hjk
      have hlt := (List.getElem?_eq_some_iff.1 hk).1
      simp only [ImageManager.present, List.getElem?_set_self hlt, Option.some.injEq] at hother
      exact Or.inl hother.symm
    · simp only [ImageManager.present, List.getElem?_set_ne hjk] at hother
      exact Or.inr ⟨Ne.symm hjk, hother⟩
  have hoperations : ∀ i, (s.present k view url image).operations[i]? =
      (s.operations[i]?).map (afterCancel view i) :=
    getElem?_cancelImageLoad s view
  refine ⟨h.cached, h.failed, ?_, ?_, ?_, ?_, ?_, ?_⟩
  · intro op hop shown hstage
    rcases List.mem_iff_getElem?.1 hop with ⟨i, hi⟩
    rw [hoperations, Option.map_eq_some_iff] at hi
    rcases hi with ⟨before, hbefore, rfl⟩
    rw [stage_afterCancel] at hstage
    rw [url_afterCancel]
    exact h.queried before (List.mem_of_getElem? hbefore) shown hstage
  · intro j other i hother hload
    rcases hviews hother with rfl | ⟨-, hold⟩
    · cases hload
    · rcases h.owned j other i hold hload with ⟨op, hop, howner, hurl⟩
      refine ⟨afterCancel view i op, ?_, ?_, ?_⟩
      · rw [hoperations, hop, Option.map_some]
      · rw [view_afterCancel, howner]
      · rw [url_afterCancel, hurl]
  · intro i op hop hrunning
    rw [hoperations, Option.map_eq_some_iff] at hop
    rcases hop with ⟨before, hbefore, rfl⟩
    rcases running_afterCancel.1 hrunning with ⟨hbusy, hload⟩
    rcases h.listened i before hbefore hbusy with ⟨listener, hlistener, hlistens⟩
    refine ⟨listener, ?_, hlistens⟩
    rw [view_afterCancel, ImageManager.present, List.getElem?_set_ne]
    · exact hlistener
    · rintro rfl
      obtain rfl := Option.some.inj (hk.symm.trans hlistener)
      exact hload hlistens
  · intro j other shown hother himage
    rcases hviews hother with rfl | ⟨-, hold⟩
    · exact hshown shown himage
    · exact h.shown j other shown hold himage
  · intro j other u hother hurl himage
    rcases hviews hother with rfl | ⟨hne, hold⟩
    · exact Or.inl (hblank u hurl himage)
    · refine (h.blank j other u hold hurl himage).imp_right ?_
      rintro ⟨i, op, hload, hop, hrunning⟩
      -- the operation of view `j` is not the one that is cancelled
      have hkept : view.loadOperation ≠ some i := by
        intro hcancelled
        rcases h.owned j other i hold hload with ⟨mine, hmine, rfl, -⟩
        rcases h.owned k view i hk hcancelled with ⟨yours, hyours, rfl, -⟩
        obtain rfl := Option.some.inj (hmine.symm.trans hyours)
        exact hne rfl
      refine ⟨i, afterCancel view i op, hload, ?_, running_afterCancel.2 ⟨hrunning, hkept⟩⟩
      rw [hoperations, hop, Option.map_some]
  · intro i op hop hstage
    rw [hoperations, Option.map_eq_some_iff] at hop
    rcases hop with ⟨before, hbefore, rfl⟩
    rw [stage_afterCancel] at hstage
    rw [url_afterCancel]
    exact urls_cancelImageLoad s view ▸ h.shared i before hbefore hstage

/-- Only the view that is given a URL asks for another one. -/
@[simp]
theorem imageURLs_present (s : ImageManager URL Image) (k : Nat) (view : ImageView URL Image)
    (url : Option URL) (image : Option Image) :
    (s.present k view url image).imageURLs = s.imageURLs.set k url := by
  simp [imageURLs, present, List.map_set]

/-- A new operation of view `k`, which has none. -/
def begin (s : ImageManager URL Image) (k : Nat) (url : URL) : ImageManager URL Image :=
  { s with
    operations := s.operations ++ [⟨url, k, .querying, false⟩]
    views := s.views.set k ⟨some url, none, some s.operations.length⟩ }

/-- Starting an operation gives its view the URL. -/
@[simp]
theorem imageURLs_begin (s : ImageManager URL Image) (k : Nat) (url : URL) :
    (s.begin k url).imageURLs = s.imageURLs.set k (some url) := by
  simp [imageURLs, begin, List.map_set]

/-- A new operation is the one its view listens to. -/
theorem Sound.begin (h : s.Sound heard) {k : Nat} {view : ImageView URL Image}
    (hk : s.views[k]? = some view) (hidle : view.loadOperation = none) (url : URL) :
    (s.begin k url).Sound heard := by
  have hlt := (List.getElem?_eq_some_iff.1 hk).1
  have hviews : ∀ {j : Nat} {other}, (s.begin k url).views[j]? = some other →
      k = j ∧ other = ⟨some url, none, some s.operations.length⟩ ∨
        k ≠ j ∧ s.views[j]? = some other := by
    intro j other hother
    by_cases hjk : k = j
    · subst hjk
      simp only [ImageManager.begin, List.getElem?_set_self hlt, Option.some.injEq] at hother
      exact Or.inl ⟨rfl, hother.symm⟩
    · simp only [ImageManager.begin, List.getElem?_set_ne hjk] at hother
      exact Or.inr ⟨hjk, hother⟩
  have hkept : ∀ {i : Nat} {op}, s.operations[i]? = some op →
      (s.begin k url).operations[i]? = some op := by
    intro i op hop
    exact (List.getElem?_append_left (List.getElem?_eq_some_iff.1 hop).1).trans hop
  have hnew : (s.begin k url).operations[s.operations.length]? =
      some ⟨url, k, .querying, false⟩ :=
    List.getElem?_concat_length
  refine ⟨h.cached, h.failed, ?_, ?_, ?_, ?_, ?_, ?_⟩
  · intro op hop image hstage
    rcases List.mem_append.1 hop with hold | hlast
    · exact h.queried op hold image hstage
    · obtain rfl := List.mem_singleton.1 hlast
      cases hstage
  · intro j other i hother hload
    rcases hviews hother with ⟨rfl, rfl⟩ | ⟨-, hold⟩
    · obtain rfl := Option.some.inj hload
      exact ⟨_, hnew, rfl, rfl⟩
    · rcases h.owned j other i hold hload with ⟨op, hop, hrest⟩
      exact ⟨op, hkept hop, hrest⟩
  · intro i op hop hrunning
    rw [ImageManager.begin, List.getElem?_append] at hop
    split at hop
    · rename_i hold
      rcases h.listened i op hop hrunning with ⟨listener, hlistener, hlistens⟩
      refine ⟨listener, ?_, hlistens⟩
      rw [ImageManager.begin, List.getElem?_set_ne]
      · exact hlistener
      · rintro rfl
        obtain rfl := Option.some.inj (hk.symm.trans hlistener)
        cases hidle.symm.trans hlistens
    · rename_i hnotOld
      rw [List.getElem?_singleton] at hop
      split at hop
      · rename_i hlast
        obtain rfl := Option.some.inj hop
        obtain rfl : i = s.operations.length := by omega
        exact ⟨_, List.getElem?_set_self hlt, rfl⟩
      · cases hop
  · intro j other image hother himage
    rcases hviews hother with ⟨rfl, rfl⟩ | ⟨-, hold⟩
    · cases himage
    · exact h.shown j other image hold himage
  · intro j other u hother hurl himage
    rcases hviews hother with ⟨rfl, rfl⟩ | ⟨-, hold⟩
    · exact Or.inr ⟨_, _, rfl, hnew, rfl, by simp⟩
    · refine (h.blank j other u hold hurl himage).imp_right ?_
      rintro ⟨i, op, hload, hop, hrunning⟩
      exact ⟨i, op, hload, hkept hop, hrunning⟩
  · intro i op hop hstage
    have hurls : (s.begin k url).urls = s.urls ++ [url] := by simp [urls, ImageManager.begin]
    rw [ImageManager.begin, List.getElem?_append] at hop
    split at hop
    · rcases h.shared i op hop hstage with ⟨j, hji, hj⟩
      refine ⟨j, hji, ?_⟩
      rw [hurls, List.getElem?_append_left (List.getElem?_eq_some_iff.1 hj).1]
      exact hj
    · rw [List.getElem?_singleton] at hop
      split at hop
      · obtain rfl := Option.some.inj hop
        cases hstage
      · cases hop

section Manager

variable [DecidableEq URL]

/-- `imageFromMemoryCache(forKey:)` -/
def imageFromMemoryCache (s : ImageManager URL Image) (url : URL) : Option Image :=
  (s.memoryCache.find? fun entry => entry.1 = url).map Prod.snd

/-- `setObject(_:forKey:cost:)` of the memory cache. -/
def storeImage (s : ImageManager URL Image) (url : URL) (image : Image) :
    ImageManager URL Image :=
  { s with memoryCache := (url, image) :: s.memoryCache.filter fun entry => entry.1 ≠ url }

/-- `sd_setImage(with:)` on view `k`.  A URL that has failed is not asked for again, and an
image from the memory cache is shown before the call returns. -/
def setImage (s : ImageManager URL Image) (k : Nat) (url : Option URL) :
    ImageManager URL Image :=
  match s.views[k]?, url with
  | none, _ => s
  | some view, none => s.present k view none none
  | some view, some url =>
      if url ∈ s.failedURLs then s.present k view (some url) none
      else
        match s.imageFromMemoryCache url with
        | some image => s.present k view (some url) (some image)
        | none => (s.present k view none none).begin k url

/-- The disk has been read for operation `i`: an image found there is kept in memory. -/
def diskRead (s : ImageManager URL Image) (i : Nat) (diskImage : Option Image) :
    Option (ImageManager URL Image) :=
  match s.operations[i]? with
  | some op =>
      match op.stage with
      | .querying =>
          if op.cancelled then some (s.complete i op none)
          else
            let s' := s.move i op (.queried diskImage)
            some (diskImage.elim s' (s'.storeImage op.url))
      | _ => none
  | none => none

/-- The completion of the cache query, with `callDownloadProcess` behind it. -/
def queryDone (s : ImageManager URL Image) (i : Nat) : Option (ImageManager URL Image) :=
  match s.operations[i]? with
  | some op =>
      match op.stage with
      | .queried diskImage =>
          if op.cancelled then some (s.complete i op none)
          else
            match diskImage with
            | some image => some (s.complete i op (some image))
            | none => some (s.move i op .downloading)
      | _ => none
  | none => none

/-- The completion of the download, with `callStoreCacheProcess` behind it.  That of a cancelled
operation can be called once more, which changes nothing and is left out. -/
def downloaded (s : ImageManager URL Image) (i : Nat) (result : Except Bool Image) :
    Option (ImageManager URL Image) :=
  match s.operations[i]? with
  | some op =>
      match op.stage with
      | .downloading =>
          if op.cancelled then some (s.complete i op none)
          else
            match result with
            | .ok image => some ((s.complete i op (some image)).storeImage op.url image)
            | .error blocks =>
                let s' := s.complete i op none
                some (if blocks then { s' with failedURLs := op.url :: s'.failedURLs } else s')
      | _ => none
  | none => none

/-- `done` of the downloader operation.  A handler is still added to it until it is finished,
and one that has come after `callbacksForKey` is removed without having been called; the
downloader operation has been started for another image operation. -/
def dropHandler (s : ImageManager URL Image) (i : Nat) : Option (ImageManager URL Image) :=
  match s.operations[i]? with
  | some op =>
      match op.stage with
      | .downloading =>
          if ∃ other ∈ s.operations.eraseIdx i, other.url = op.url ∧ other.queryOver then
            some (s.move i op .dropped)
          else none
      | _ => none
  | none => none

/-- One report; one that its operation does not wait for is not enabled. -/
def step (s : ImageManager URL Image) : ImageEvent URL Image → Option (ImageManager URL Image)
  | .diskRead i diskImage => s.diskRead i diskImage
  | .queryDone i => s.queryDone i
  | .downloaded i result => s.downloaded i result
  | .dropped i => s.dropHandler i
  | .evicted url =>
      some { s with memoryCache := s.memoryCache.filter fun entry => entry.1 ≠ url }

/-- What has been found may be kept in memory. -/
theorem Sound.storeImage (h : s.Sound heard) {url : URL} {image : Image}
    (hheard : (url, some image) ∈ heard) : (s.storeImage url image).Sound heard := by
  refine ⟨?_, h.failed, h.queried, h.owned, h.listened, h.shown, h.blank, h.shared⟩
  intro entry hentry
  rcases List.mem_cons.1 hentry with rfl | hold
  · exact hheard
  · exact h.cached entry (List.mem_filter.1 hold).1

/-- After a call the view asks for the URL of the call, whatever it is. -/
theorem imageURLs_setImage (s : ImageManager URL Image) (k : Nat) (url : Option URL) :
    (s.setImage k url).imageURLs = s.imageURLs.set k url := by
  unfold setImage
  split
  · rename_i hnone
    rw [List.set_eq_of_length_le]
    simpa [imageURLs] using hnone
  · simp
  · split
    · simp
    · split
      · simp
      · simp

/-- A new call cancels what its view has asked for before, and nothing else. -/
theorem Sound.setImage (h : s.Sound heard) (k : Nat) (url : Option URL) :
    (s.setImage k url).Sound heard := by
  unfold ImageManager.setImage
  split
  · exact h
  · rename_i view hk
    exact h.present hk (fun _ hshown => nomatch hshown) (fun _ hurl => nomatch hurl)
  · rename_i view url hk
    split
    · rename_i hfailed
      refine h.present hk (fun _ hshown => nomatch hshown) ?_
      rintro _ ⟨⟩ -
      exact h.failed url hfailed
    · split
      · rename_i image hcached
        refine h.present hk ?_ (fun _ _ hblank => nomatch hblank)
        rintro _ ⟨⟩
        rcases Option.map_eq_some_iff.1 hcached with ⟨⟨key, cached⟩, hfound, rfl⟩
        obtain rfl : key = url := by simpa using List.find?_some hfound
        exact ⟨key, rfl, h.cached _ (List.mem_of_find?_eq_some hfound)⟩
      · have hidle : (s.present k view none none).views[k]? = some ⟨none, none, none⟩ :=
          List.getElem?_set_self (List.getElem?_eq_some_iff.1 hk).1
        refine Sound.begin ?_ hidle rfl url
        exact h.present hk (fun _ hshown => nomatch hshown) (fun _ hurl => nomatch hurl)

/-! ## Reports -/

/-- What reading the disk can do. -/
theorem diskRead_cases {i : Nat} {diskImage : Option Image} {s' : ImageManager URL Image}
    (hread : s.diskRead i diskImage = some s') :
    ∃ op, s.operations[i]? = some op ∧ op.stage = .querying ∧
      (op.cancelled = true ∧ s' = s.complete i op none ∨
        op.cancelled = false ∧ s' =
          diskImage.elim (s.move i op (.queried diskImage))
            ((s.move i op (.queried diskImage)).storeImage op.url)) := by
  unfold diskRead at hread
  split at hread
  case h_2 => cases hread
  rename_i op hop
  split at hread
  case h_2 => cases hread
  rename_i hstage
  refine ⟨op, hop, hstage, ?_⟩
  split at hread
  · rename_i hcancelled
    exact Or.inl ⟨hcancelled, (Option.some.inj hread).symm⟩
  · rename_i hlive
    exact Or.inr ⟨by simpa using hlive, (Option.some.inj hread).symm⟩

omit [DecidableEq URL] in
/-- What the end of a query can do. -/
theorem queryDone_cases {i : Nat} {s' : ImageManager URL Image}
    (hdone : s.queryDone i = some s') :
    ∃ op diskImage, s.operations[i]? = some op ∧ op.stage = .queried diskImage ∧
      (op.cancelled = true ∧ s' = s.complete i op none ∨
        (∃ image, diskImage = some image ∧ s' = s.complete i op (some image)) ∨
        s' = s.move i op .downloading) := by
  unfold queryDone at hdone
  split at hdone
  case h_2 => cases hdone
  rename_i op hop
  split at hdone
  case h_2 => cases hdone
  rename_i diskImage hstage
  refine ⟨op, diskImage, hop, hstage, ?_⟩
  split at hdone
  · rename_i hcancelled
    exact Or.inl ⟨hcancelled, (Option.some.inj hdone).symm⟩
  · split at hdone
    · exact Or.inr (Or.inl ⟨_, rfl, (Option.some.inj hdone).symm⟩)
    · exact Or.inr (Or.inr (Option.some.inj hdone).symm)

/-- What the end of a download can do. -/
theorem downloaded_cases {i : Nat} {result : Except Bool Image} {s' : ImageManager URL Image}
    (hdone : s.downloaded i result = some s') :
    ∃ op, s.operations[i]? = some op ∧ op.stage = .downloading ∧
      (op.cancelled = true ∧ s' = s.complete i op none ∨
        op.cancelled = false ∧
          ((∃ image, result = .ok image ∧
              s' = (s.complete i op (some image)).storeImage op.url image) ∨
            ∃ failed ⊆ op.url :: s.failedURLs, result.toOption = none ∧
              s' = { s.complete i op none with failedURLs := failed })) := by
  unfold downloaded at hdone
  split at hdone
  case h_2 => cases hdone
  rename_i op hop
  split at hdone
  case h_2 => cases hdone
  rename_i hstage
  refine ⟨op, hop, hstage, ?_⟩
  split at hdone
  · rename_i hcancelled
    exact Or.inl ⟨hcancelled, (Option.some.inj hdone).symm⟩
  · rename_i hlive
    refine Or.inr ⟨by simpa using hlive, ?_⟩
    split at hdone
    · exact Or.inl ⟨_, rfl, (Option.some.inj hdone).symm⟩
    · obtain rfl := Option.some.inj hdone
      split
      · exact Or.inr ⟨_, List.Subset.refl _, rfl, rfl⟩
      · exact Or.inr ⟨s.failedURLs, List.subset_cons_self _ _, rfl, rfl⟩

/-- A dropped handler is one of two for its URL. -/
theorem dropHandler_cases {i : Nat} {s' : ImageManager URL Image}
    (hdrop : s.dropHandler i = some s') :
    ∃ op, s.operations[i]? = some op ∧ op.stage = .downloading ∧
      (∃ j ≠ i, s.urls[j]? = some op.url) ∧ s' = s.move i op .dropped := by
  unfold dropHandler at hdrop
  split at hdrop
  case h_2 => cases hdrop
  rename_i op hop
  split at hdrop
  case h_2 => cases hdrop
  rename_i hstage
  refine ⟨op, hop, hstage, ?_⟩
  split at hdrop
  · rename_i hother
    rcases hother with ⟨other, hmem, hurl, -⟩
    rcases List.mem_eraseIdx_iff_getElem?.1 hmem with ⟨j, hji, hj⟩
    refine ⟨⟨j, hji, ?_⟩, (Option.some.inj hdrop).symm⟩
    rw [urls, List.getElem?_map, hj, Option.map_some, hurl]
  · cases hdrop

/-- No report changes what a view has asked for. -/
theorem imageURLs_step {e : ImageEvent URL Image} {s' : ImageManager URL Image}
    (hstep : s.step e = some s') : s'.imageURLs = s.imageURLs := by
  cases e with
  | diskRead i diskImage =>
      rcases diskRead_cases hstep with ⟨op, -, -, ⟨-, rfl⟩ | ⟨-, rfl⟩⟩
      · exact imageURLs_complete s i op none
      · cases diskImage <;> rfl
  | queryDone i =>
      rcases queryDone_cases hstep with ⟨op, -, -, -, ⟨-, rfl⟩ | ⟨image, -, rfl⟩ | rfl⟩
      · exact imageURLs_complete s i op none
      · exact imageURLs_complete s i op (some image)
      · rfl
  | downloaded i result =>
      rcases downloaded_cases hstep with
        ⟨op, -, -, ⟨-, rfl⟩ | ⟨-, ⟨image, -, rfl⟩ | ⟨failed, -, -, rfl⟩⟩⟩
      · exact imageURLs_complete s i op none
      · exact imageURLs_complete s i op (some image)
      · exact imageURLs_complete s i op none
  | dropped i =>
      rcases dropHandler_cases hstep with ⟨op, -, -, -, rfl⟩
      rfl
  | evicted url =>
      obtain rfl := Option.some.inj hstep
      rfl

/-- What is found on the disk is kept for the URL that was looked up. -/
theorem Sound.diskRead (h : s.Sound heard) {i : Nat} {diskImage : Option Image}
    {s' : ImageManager URL Image} (hread : s.diskRead i diskImage = some s') :
    s'.Sound (heard ++ s.answered (.diskRead i diskImage)) := by
  have hmono := h.mono (s.answered (.diskRead i diskImage))
  rcases diskRead_cases hread with ⟨op, hop, hstage, ⟨hcancelled, rfl⟩ | ⟨hlive, rfl⟩⟩
  · exact hmono.complete hop (by simp [hstage]) (by simp [hcancelled])
  · cases diskImage with
    | none => exact hmono.move hop (by simp [hstage]) (by simp) (by simp) (by simp)
    | some image =>
        have hheard : (op.url, some image) ∈ heard ++ s.answered (.diskRead i (some image)) := by
          simp [answered, hop, hlive]
        refine Sound.storeImage (hmono.move hop (by simp [hstage]) (by simp) ?_ (by simp)) hheard
        rintro _ ⟨⟩
        exact hheard

omit [DecidableEq URL] in
/-- A query brings what the disk has had for its URL. -/
theorem Sound.queryDone (h : s.Sound heard) {i : Nat} {s' : ImageManager URL Image}
    (hdone : s.queryDone i = some s') : s'.Sound heard := by
  rcases queryDone_cases hdone with
    ⟨op, diskImage, hop, hstage, ⟨hcancelled, rfl⟩ | ⟨image, rfl, rfl⟩ | rfl⟩
  · exact h.complete hop (by simp [hstage]) (by simp [hcancelled])
  · refine h.complete hop (by simp [hstage]) fun _ => ?_
    exact h.queried op (List.mem_of_getElem? hop) image hstage
  · exact h.move hop (by simp [hstage]) (by simp) (by simp) (by simp)

/-- A download brings the image of its URL, or the failure of this URL. -/
theorem Sound.downloaded (h : s.Sound heard) {i : Nat} {result : Except Bool Image}
    {s' : ImageManager URL Image} (hdone : s.downloaded i result = some s') :
    s'.Sound (heard ++ s.answered (.downloaded i result)) := by
  have hmono := h.mono (s.answered (.downloaded i result))
  rcases downloaded_cases hdone with ⟨op, hop, hstage, ⟨hcancelled, rfl⟩ | ⟨hlive, hresult⟩⟩
  · exact hmono.complete hop (by simp [hstage]) (by simp [hcancelled])
  · have hheard : (op.url, result.toOption) ∈ heard ++ s.answered (.downloaded i result) := by
      simp [answered, hop, hlive]
    rcases hresult with ⟨image, rfl, rfl⟩ | ⟨failed, hsubset, hnone, rfl⟩
    · exact (hmono.complete hop (by simp [hstage]) fun _ => hheard).storeImage hheard
    · rw [hnone] at hheard
      have hcomplete := hmono.complete hop (by simp [hstage]) fun _ => hheard
      refine { hcomplete with failed := ?_ }
      intro url hurl
      rcases List.mem_cons.1 (hsubset hurl) with rfl | hold
      · exact hheard
      · exact hcomplete.failed url hold

/-- A dropped handler shows nothing. -/
theorem Sound.dropHandler (h : s.Sound heard) {i : Nat} {s' : ImageManager URL Image}
    (hdrop : s.dropHandler i = some s') : s'.Sound heard := by
  rcases dropHandler_cases hdrop with ⟨op, hop, hstage, hshared, rfl⟩
  exact h.move hop (by simp [hstage]) (by simp) (by simp) fun _ => hshared

/-- **What views show** has been heard of for their URLs, and what they do not show is on its
way or has failed: whatever is reported next. -/
theorem Sound.step (h : s.Sound heard) {e : ImageEvent URL Image} {s' : ImageManager URL Image}
    (hstep : s.step e = some s') : s'.Sound (heard ++ s.answered e) := by
  cases e with
  | diskRead i diskImage => exact h.diskRead hstep
  | queryDone i => exact (h.queryDone hstep).mono _
  | downloaded i result => exact h.downloaded hstep
  | dropped i => exact (h.dropHandler hstep).mono _
  | evicted url =>
      obtain rfl := Option.some.inj hstep
      refine { h.mono _ with cached := ?_ }
      intro entry hentry
      exact (h.mono _).cached entry (List.mem_filter.1 hentry).1

end Manager

end ImageManager

end WaffleChat
