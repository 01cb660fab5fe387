import Mathlib.Data.List.Basic

/-!
# Loops that may fail

Rules for left folds in `Except`: what one pass of the body establishes, the whole loop establishes.
The invariant may name the elements still to come, which is how a loop that works off a queue is
verified: the body gives back the invariant for one element less.

`drain` is the loop that works off the due elements of a queue and returns the others.
-/

namespace Loops

variable {α β σ τ ε : Type}

/-! ### Sequencing -/

theorem bind_eq_ok {x : Except ε α} {f : α → Except ε β} {b : β} :
    x >>= f = .ok b ↔ ∃ a, x = .ok a ∧ f a = .ok b := by
  cases x with
  | error e => simp [bind, Except.bind]
  | ok a => simp [bind, Except.bind]

theorem bind_eq_error {x : Except ε α} {f : α → Except ε β} {e : ε} :
    x >>= f = .error e ↔ x = .error e ∨ ∃ a, x = .ok a ∧ f a = .error e := by
  cases x with
  | error e => simp [bind, Except.bind]
  | ok a => simp [bind, Except.bind]

theorem map_eq_ok {x : Except ε α} {f : α → β} {b : β} : f <$> x = .ok b ↔ ∃ a, x = .ok a ∧ f a = b := by
  cases x with
  | error e => simp [Functor.map, Except.map]
  | ok a => simp [Functor.map, Except.map]

@[simp] theorem ok_bind (a : α) (f : α → Except ε β) : (.ok a : Except ε α) >>= f = f a := rfl

@[simp] theorem map_ok (f : α → β) (a : α) : f <$> (.ok a : Except ε α) = .ok (f a) := rfl

@[simp] theorem pure_eq_ok (a : α) : (pure a : Except ε α) = .ok a := rfl

/-! ### Left folds -/

/-- A loop whose body uses up one element of the invariant at a time. -/
theorem foldlM_consumes {f : σ → α → Except ε σ} (P : List α → σ → Prop)
    (hstep : ∀ x xs s, P (x :: xs) s → ∃ s', f s x = .ok s' ∧ P xs s') :
    ∀ xs s, P xs s → ∃ s', xs.foldlM f s = .ok s' ∧ P [] s' := by
  intro xs
  induction xs with
  | nil => exact fun s hs => ⟨s, rfl, hs⟩
  | cons x xs ih =>
      intro s hs
      obtain ⟨mid, hmid, hP⟩ := hstep x xs s hs
      obtain ⟨s', hs', hdone⟩ := ih mid hP
      exact ⟨s', by rw [List.foldlM_cons, hmid, ok_bind, hs'], hdone⟩

/-- A loop none of whose passes fails is the loop of its results. -/
theorem foldlM_eq_foldl {f : σ → α → Except ε σ} {g : σ → α → σ} (P : List α → σ → Prop)
    (hstep : ∀ x xs s, P (x :: xs) s → f s x = .ok (g s x) ∧ P xs (g s x)) :
    ∀ xs s, P xs s → xs.foldlM f s = .ok (xs.foldl g s) := by
  intro xs
  induction xs with
  | nil => exact fun s _ => rfl
  | cons x xs ih =>
      intro s hs
      obtain ⟨hx, hP⟩ := hstep x xs s hs
      rw [List.foldlM_cons, hx, ok_bind, ih _ hP, List.foldl_cons]

/-- Two loops that run side by side. -/
theorem foldl_prodMk (f : σ → α → σ) (g : τ → α → τ) (xs : List α) (s : σ) (t : τ) :
    xs.foldl (fun st x => (f st.1 x, g st.2 x)) (s, t) = (xs.foldl f s, xs.foldl g t) :=
  List.foldl_hom₂ xs Prod.mk f g _ s t fun _ _ _ => rfl

/-- Two loops over corresponding lists, in step. -/
theorem foldlM_simulates {f : σ → α → Except ε σ} {g : τ → β → Except ε τ} (φ : α → β)
    (R : List α → σ → τ → Prop)
    (hstep : ∀ x xs s t, R (x :: xs) s t →
      ∃ s' t', f s x = .ok s' ∧ g t (φ x) = .ok t' ∧ R xs s' t') :
    ∀ xs s t, R xs s t →
      ∃ s' t', xs.foldlM f s = .ok s' ∧ (xs.map φ).foldlM g t = .ok t' ∧ R [] s' t' := by
  intro xs
  induction xs with
  | nil => exact fun s t h => ⟨s, t, rfl, rfl, h⟩
  | cons x xs ih =>
      intro s t h
      obtain ⟨sMid, tMid, hs, ht, hR⟩ := hstep x xs s t h
      obtain ⟨s', t', hs', ht', hdone⟩ := ih sMid tMid hR
      refine ⟨s', t', ?_, ?_, hdone⟩
      · rw [List.foldlM_cons, hs, ok_bind, hs']
      · rw [List.map_cons, List.foldlM_cons, ht, ok_bind, ht']

/-! ### Working off a queue -/

/-- Call `fn` for each due element in order and return the elements that are not due. -/
def drain (due : α → Bool) (fn : σ → α → Except ε σ) : List α → σ → Except ε (σ × List α)
  | [], s => .ok (s, [])
  | x :: xs, s =>
      if due x then do
        let s ← fn s x
        drain due fn xs s
      else do
        let (s, kept) ← drain due fn xs s
        return (s, x :: kept)

/-- The calls do not touch the queue, so the loop is a fold over the due elements. -/
theorem drain_eq (due : α → Bool) (fn : σ → α → Except ε σ) (xs : List α) (s : σ) :
    drain due fn xs s =
      (fun s' => (s', xs.filter fun x => !due x)) <$> (xs.filter due).foldlM fn s := by
  induction xs generalizing s with
  | nil => rfl
  | cons x xs ih =>
      unfold drain
      by_cases hx : due x = true
      · simp only [hx, if_true, List.filter_cons_of_pos, Bool.not_true, Bool.false_eq_true,
          not_false_eq_true, List.filter_cons_of_neg, List.foldlM_cons]
        cases fn s x with
        | error e => rfl
        | ok mid => exact ih mid
      · simp only [hx, Bool.false_eq_true, if_false, not_false_eq_true, List.filter_cons_of_neg, ih,
          Bool.not_false, List.filter_cons_of_pos]
        cases (xs.filter due).foldlM fn s <;> rfl

theorem drain_of_foldlM {due : α → Bool} {fn : σ → α → Except ε σ} {xs : List α} {s s' : σ}
    (h : (xs.filter due).foldlM fn s = .ok s') :
    drain due fn xs s = .ok (s', xs.filter fun x => !due x) := by
  rw [drain_eq, h, map_ok]

/-- A queue with nothing due is left as it is. -/
theorem drain_of_none {due : α → Bool} (fn : σ → α → Except ε σ) {xs : List α} (h : ∀ x ∈ xs, due x = false) (s : σ) :
    drain due fn xs s = .ok (s, xs) := by
  have hnone : xs.filter due = [] := List.filter_eq_nil_iff.mpr fun x hx => by simp [h x hx]
  have hall : (xs.filter fun x => !due x) = xs := List.filter_eq_self.mpr fun x hx => by simp [h x hx]
  rw [drain_eq, hnone, hall]
  rfl

end Loops
