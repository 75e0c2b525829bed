import WaffleChat.Library.EventSystem

/-!
# Refinement between event systems

A concrete system refines an abstract one when a map from its states to abstract ones
turns every step into a run.  When also the events are mapped, one to one, the map
commutes with whole runs, so that runs with the same image are seen to end alike.

Main results:

- Theorem `reachable_map`: what is reachable stays reachable under the map.
- Theorem `run_map`: a map that commutes with every step commutes with every run.
- Theorem `stepsMeet_of_map`: what the image of a run meets step by step, the run meets.
- Theorem `run_trace_of_map`: when every step is a run of abstract events, so is every run.
- Theorem `run_filterMap`: the run of one component is the run of the events of this component.
- Theorem `run_replaced`: a run of replaced events that looks the same.
- Theorem `run_congr_of_map`: runs that differ only in what the map forgets end in states
  that differ only in it.
-/

namespace EventSystem

variable {σ τ ε δ : Type*} {step : σ → ε → Option σ} {abstractStep : τ → δ → Option τ}

theorem Reachable.single {s t : σ} {e : ε} (h : step s e = some t) : Reachable step s t :=
  (Reachable.refl s).next h

/-- Under the invariant `I`, the map `f` turns every step into a run. -/
theorem reachable_map {f : σ → τ} {I : σ → Prop}
    (hI : ∀ s e s', I s → step s e = some s' → I s')
    (hmap : ∀ s e s', I s → step s e = some s' → Reachable abstractStep (f s) (f s'))
    {s t : σ} (hs : I s) (hreach : Reachable step s t) : Reachable abstractStep (f s) (f t) := by
  have hboth : I t ∧ Reachable abstractStep (f s) (f t) := by
    refine hreach.invariant (P := fun a => I a ∧ Reachable abstractStep (f s) (f a)) ?_
      ⟨hs, Reachable.refl (f s)⟩
    rintro a e b - ⟨ha, hsa⟩ hab
    exact ⟨hI a e b ha hab, hsa.trans (hmap a e b ha hab)⟩
  exact hboth.2

/-- If every step is, under the map `f`, a run of the events `g` makes of it, every run is one
of those events in order. -/
theorem run_trace_of_map {f : σ → τ} {g : σ → ε → List δ}
    (hmap : ∀ s e s', step s e = some s' → run abstractStep (f s) (g s e) = some (f s'))
    {s t : σ} {es : List ε} (hrun : run step s es = some t) :
    run abstractStep (f s) (trace step g s es) = some (f t) := by
  have hstep : ∀ ds a e b, run abstractStep (f s) ds = some (f a) → step a e = some b →
      run abstractStep (f s) (ds ++ g a e) = some (f b) := by
    intro ds a e b ha hab
    exact run_append_eq_some.2 ⟨f a, ha, hmap a e b hab⟩
  have hnil : run abstractStep (f s) [] = some (f s) := rfl
  simpa using run_trace_invariant (R := fun ds a => run abstractStep (f s) ds = some (f a)) hstep
    hnil hrun

/-- If under the invariant `I` every step is, under the map `f`, the step of the event `g`
makes of it, or none, every run is the run of those events. -/
theorem run_filterMap {f : σ → τ} {g : ε → Option δ} {I : σ → Prop}
    (hI : ∀ s e s', I s → step s e = some s' → I s')
    (hmap : ∀ s e s', I s → step s e = some s' →
      run abstractStep (f s) (g e).toList = some (f s'))
    {s t : σ} {es : List ε} (hs : I s) (hrun : run step s es = some t) :
    run abstractStep (f s) (es.filterMap g) = some (f t) := by
  induction es generalizing s with
  | nil =>
      obtain rfl := Option.some.inj hrun
      rfl
  | cons e es ih =>
      rcases run_cons_eq_some.1 hrun with ⟨a, hstep, hrest⟩
      have hsplit : (e :: es).filterMap g = (g e).toList ++ es.filterMap g := by
        cases hg : g e <;> simp [hg]
      rw [hsplit]
      exact run_append_eq_some.2 ⟨f a, hmap s e a hs hstep, ih (hI s e a hs hstep) hrest⟩

/-- If under the invariant `I` every step is, under the map `f`, a step of the event `g` makes
of it that looks the same, every run is a run of those events that looks the same. -/
theorem run_replaced {ο : Type*} {f : σ → τ} {g : σ → ε → δ} {I : σ → Prop}
    {observe : σ → ε → List ο} {abstractObserve : τ → δ → List ο}
    (hI : ∀ s e s', I s → step s e = some s' → I s')
    (hmap : ∀ s e s', I s → step s e = some s' → abstractStep (f s) (g s e) = some (f s'))
    (hobserve : ∀ s e s', I s → step s e = some s' → abstractObserve (f s) (g s e) = observe s e)
    {s t : σ} {es : List ε} (hs : I s) (hrun : run step s es = some t) :
    let replaced := trace step (fun s e => [g s e]) s es
    run abstractStep (f s) replaced = some (f t) ∧
      trace abstractStep abstractObserve (f s) replaced = trace step observe s es := by
  induction es generalizing s with
  | nil =>
      obtain rfl := Option.some.inj hrun
      exact ⟨rfl, rfl⟩
  | cons e es ih =>
      rcases run_cons_eq_some.1 hrun with ⟨a, hstep, hrest⟩
      rcases ih (hI s e a hs hstep) hrest with ⟨hreplaced, hobserved⟩
      have hhead := hmap s e a hs hstep
      simp only [trace, hstep, Option.elim_some, List.singleton_append, run_cons_eq_some, hhead,
        hobserve s e a hs hstep, hobserved, and_true]
      exact ⟨f a, rfl, hreplaced⟩

/-- What is observed of a run is observed of one of its steps. -/
theorem forall_mem_trace {ο : Type*} {observe : σ → ε → List ο} {P : ο → Prop} {s : σ}
    {es : List ε} (h : ∀ a, ∀ e ∈ es, ∀ o ∈ observe a e, P o) :
    ∀ o ∈ trace step observe s es, P o := by
  induction es generalizing s with
  | nil => simp [trace]
  | cons e es ih =>
      intro o ho
      rcases List.mem_append.1 ho with hfirst | hrest
      · exact h s e List.mem_cons_self o hfirst
      · cases hstep : step s e with
        | none => simp [hstep] at hrest
        | some s' =>
            rw [hstep] at hrest
            exact ih (fun a e he => h a e (List.mem_cons_of_mem _ he)) o hrest

/-- A map of states and events that commutes with every step commutes with every run. -/
theorem run_map {f : σ → τ} {g : ε → δ}
    (hmap : ∀ s e, abstractStep (f s) (g e) = (step s e).map f) (s : σ) (es : List ε) :
    run abstractStep (f s) (es.map g) = (run step s es).map f := by
  induction es generalizing s with
  | nil => rfl
  | cons e es ih =>
      rw [List.map_cons, run, run, hmap]
      cases hstep : step s e with
      | none => rfl
      | some s' => exact ih s'

/-- Runs on events with the same image, from states with the same image, are both possible
or both impossible, and end in states with the same image. -/
theorem run_congr_of_map {f : σ → τ} {g : ε → δ}
    (hmap : ∀ s e, abstractStep (f s) (g e) = (step s e).map f) {s s' : σ} {es es' : List ε}
    (hs : f s = f s') (hes : es.map g = es'.map g) :
    (run step s es).map f = (run step s' es').map f := by
  rw [← run_map hmap, ← run_map hmap, hs, hes]

/-- A condition the image of a run meets step by step is met by the run. -/
theorem stepsMeet_of_map {f : σ → τ} {g : ε → δ} {C : τ → δ → Prop}
    (hmap : ∀ s e, abstractStep (f s) (g e) = (step s e).map f) {s : σ} {es : List ε}
    (hC : StepsMeet abstractStep C (f s) (es.map g)) :
    StepsMeet step (fun s e => C (f s) (g e)) s es := by
  induction es generalizing s with
  | nil => trivial
  | cons e es ih =>
      refine ⟨hC.1, ?_⟩
      intro s' hstep
      exact ih (hC.2 (f s') (by rw [hmap, hstep, Option.map_some]))

/-- What is observed of a run is observed of its image. -/
theorem trace_map {ο : Type*} {f : σ → τ} {g : ε → δ} {observe : σ → ε → List ο}
    {abstractObserve : τ → δ → List ο}
    (hmap : ∀ s e, abstractStep (f s) (g e) = (step s e).map f)
    (hobserve : ∀ s e, abstractObserve (f s) (g e) = observe s e) (s : σ) (es : List ε) :
    trace abstractStep abstractObserve (f s) (es.map g) = trace step observe s es := by
  induction es generalizing s with
  | nil => rfl
  | cons e es ih =>
      rw [List.map_cons, trace, trace, hmap, hobserve]
      cases hstep : step s e with
      | none => rfl
      | some s' => exact congrArg (observe s e ++ ·) (ih s')

end EventSystem
