import Mathlib.Data.List.Induction

/-!
# Histories

A run is a left fold of a step function over its events, and the states it goes through are those after the
prefixes of the events. A condition on the steps is met by a run if every event meets it in the state
before.
-/

namespace Histories

variable {σ τ α : Type} {step : σ → α → σ} {s : σ} {events : List α}

/-- Every event of the run meets the condition in the state before. -/
def EachStep (step : σ → α → σ) (C : σ → α → Prop) (s : σ) (events : List α) : Prop :=
  ∀ before event, before ++ [event] <+: events → C (before.foldl step s) event

/-- The property holds in every state of the run. -/
def Throughout (step : σ → α → σ) (P : σ → Prop) (s : σ) (events : List α) : Prop :=
  ∀ before, before <+: events → P (before.foldl step s)

theorem prefix_of_concat {before : List α} {event : α} (h : before ++ [event] <+: events) : before <+: events :=
  (List.prefix_append _ _).trans h

theorem foldl_concat (before : List α) (event : α) :
    (before ++ [event]).foldl step s = step (before.foldl step s) event := by
  rw [List.foldl_append, List.foldl_cons, List.foldl_nil]

theorem EachStep.nil (step : σ → α → σ) (C : σ → α → Prop) (s : σ) : EachStep step C s [] := by
  intro before event hpre
  rw [List.prefix_nil] at hpre
  exact absurd hpre (List.append_ne_nil_of_right_ne_nil _ (List.cons_ne_nil _ _))

theorem eachStep_cons {C : σ → α → Prop} {event : α} :
    EachStep step C s (event :: events) ↔ C s event ∧ EachStep step C (step s event) events := by
  constructor
  · intro h
    refine ⟨h [] event ⟨events, rfl⟩, fun before later hpre => ?_⟩
    exact h (event :: before) later (List.cons_prefix_cons.mpr ⟨rfl, hpre⟩)
  · intro h
    obtain ⟨hfirst, hrest⟩ := h
    intro before later hpre
    cases before with
    | nil =>
        obtain ⟨rfl, _⟩ := List.cons_prefix_cons.mp hpre
        exact hfirst
    | cons first before =>
        obtain ⟨rfl, htail⟩ := List.cons_prefix_cons.mp hpre
        exact hrest before later htail

instance EachStep.decidable {C : σ → α → Prop} [∀ s, DecidablePred (C s)] (s : σ) :
    (events : List α) → Decidable (EachStep step C s events)
  | [] => isTrue (.nil step C s)
  | event :: events =>
      have : Decidable (EachStep step C (step s event) events) := EachStep.decidable (step s event) events
      decidable_of_iff (C s event ∧ EachStep step C (step s event) events) eachStep_cons.symm

theorem EachStep.congr {C D : σ → α → Prop} (h : ∀ s event, C s event ↔ D s event) :
    EachStep step C s events ↔ EachStep step D s events :=
  forall₃_congr fun _ _ _ => h _ _

theorem EachStep.mono {C D : σ → α → Prop} (h : ∀ s event, C s event → D s event) (hC : EachStep step C s events) :
    EachStep step D s events := fun before event hpre => h _ _ (hC before event hpre)

theorem eachStep_append {C : σ → α → Prop} {first second : List α} :
    EachStep step C s (first ++ second) ↔ EachStep step C s first ∧ EachStep step C (first.foldl step s) second := by
  induction first generalizing s with
  | nil => exact ⟨fun h => ⟨.nil _ _ _, h⟩, fun h => h.2⟩
  | cons event first ih => rw [List.cons_append, eachStep_cons, eachStep_cons, ih, List.foldl_cons, and_assoc]

theorem Throughout.mono {P Q : σ → Prop} (h : ∀ s, P s → Q s) (hP : Throughout step P s events) :
    Throughout step Q s events := fun before hpre => h _ (hP before hpre)

theorem Throughout.last {P : σ → Prop} (h : Throughout step P s events) : P (events.foldl step s) :=
  h events List.prefix_rfl

theorem throughout_append {P : σ → Prop} {first second : List α} :
    Throughout step P s (first ++ second) ↔
      Throughout step P s first ∧ Throughout step P (first.foldl step s) second := by
  constructor
  · intro h
    refine ⟨fun before hpre => h before (hpre.trans (List.prefix_append _ _)), fun before hpre => ?_⟩
    rw [← List.foldl_append]
    exact h (first ++ before) ((List.prefix_append_right_inj first).mpr hpre)
  · intro h
    obtain ⟨hfirst, hsecond⟩ := h
    intro before hpre
    rcases List.prefix_or_prefix_of_prefix hpre (List.prefix_append first second) with hshort | ⟨rest, rfl⟩
    · exact hfirst before hshort
    · rw [List.foldl_append]
      exact hsecond rest ((List.prefix_append_right_inj first).mp hpre)

/-- What every step keeps that meets the condition, holds throughout. -/
theorem Throughout.of_step {P : σ → Prop} {C : σ → α → Prop} (hstart : P s)
    (hstep : ∀ s event, C s event → P s → P (step s event)) (hC : EachStep step C s events) :
    Throughout step P s events := by
  intro before
  induction before using List.reverseRecOn with
  | nil => exact fun _ => hstart
  | append_singleton before event ih =>
      intro hpre
      rw [foldl_concat]
      exact hstep _ _ (hC before event hpre) (ih (prefix_of_concat hpre))

/-- Of runs whose steps are all possible: if the condition is just what a possible step needs to keep the property, it is
just what a run needs. -/
theorem throughout_iff_of_eachStep {P : σ → Prop} {C D : σ → α → Prop} (hD : EachStep step D s events) (hstart : P s)
    (hstep : ∀ s event, D s event → P s → (P (step s event) ↔ C s event)) :
    Throughout step P s events ↔ EachStep step C s events := by
  constructor
  · intro hP before event hpre
    have hnext := hP _ hpre
    rw [foldl_concat] at hnext
    exact (hstep _ _ (hD before event hpre) (hP before (prefix_of_concat hpre))).mp hnext
  · intro hC
    refine Throughout.of_step (C := fun s event => D s event ∧ C s event) hstart ?_ fun before event hpre => ?_
    · intro s event h
      obtain ⟨hpossible, hcondition⟩ := h
      intro hP
      exact (hstep s event hpossible hP).mpr hcondition
    · exact ⟨hD before event hpre, hC before event hpre⟩

/-- If the condition is just what a step needs to keep the property, it is just what a run needs. -/
theorem throughout_iff {P : σ → Prop} {C : σ → α → Prop} (hstart : P s)
    (hstep : ∀ s event, P s → (P (step s event) ↔ C s event)) :
    Throughout step P s events ↔ EachStep step C s events :=
  throughout_iff_of_eachStep (D := fun _ _ => True) (fun _ _ _ => trivial) hstart fun s event _ => hstep s event

theorem throughout_cons {P : σ → Prop} {event : α} :
    Throughout step P s (event :: events) ↔ P s ∧ Throughout step P (step s event) events := by
  constructor
  · intro h
    exact ⟨h [] (List.nil_prefix), fun before hpre => h (event :: before) (List.cons_prefix_cons.mpr ⟨rfl, hpre⟩)⟩
  · intro h
    obtain ⟨hfirst, hrest⟩ := h
    intro before hpre
    cases before with
    | nil => exact hfirst
    | cons first before =>
        obtain ⟨rfl, htail⟩ := List.cons_prefix_cons.mp hpre
        exact hrest before htail

instance Throughout.decidable {P : σ → Prop} [DecidablePred P] (s : σ) :
    (events : List α) → Decidable (Throughout step P s events)
  | [] => decidable_of_iff (P s) ⟨fun h before hpre => by rwa [List.prefix_nil.mp hpre], fun h => h [] List.nil_prefix⟩
  | event :: events =>
      have : Decidable (Throughout step P (step s event) events) := Throughout.decidable (step s event) events
      decidable_of_iff (P s ∧ Throughout step P (step s event) events) throughout_cons.symm

/-- Two runs over the same events stay related if every step keeps it where the second run has the property. -/
theorem Throughout.simulates {ρ : Type} {R : ρ → σ → Prop} {P : σ → Prop} {step' : ρ → α → ρ} {r : ρ} (hstart : R r s)
    (hstep : ∀ r s event, R r s → P s → P (step s event) → R (step' r event) (step s event))
    (hP : Throughout step P s events) : R (events.foldl step' r) (events.foldl step s) := by
  induction events generalizing r s with
  | nil => exact hstart
  | cons event events ih =>
      obtain ⟨hfirst, hrest⟩ := throughout_cons.mp hP
      exact ih (hstep r s event hstart hfirst (hrest [] List.nil_prefix)) hrest

end Histories
