import Mathlib.Algebra.Order.Group.Int
import Mathlib.Tactic.Ring
import Mathlib.Tactic.Linarith

/-!
# Lines on a grid

The points of a grid are pairs of integers. A line goes from a point in one of eight directions, and a point
is between two others if it comes after the one and before the other on a line.
-/

namespace GridLines

/-- Along a row, a column or a diagonal. -/
def IsDirection (d : Int × Int) : Prop := d.1.natAbs ≤ 1 ∧ d.2.natAbs ≤ 1 ∧ d ≠ (0, 0)

/-- The point `n` steps from another. -/
def walk (start d : Int × Int) (n : Nat) : Int × Int := (start.1 + n * d.1, start.2 + n * d.2)

/-- Strictly between two points of a line. -/
def Between (start target point : Int × Int) : Prop :=
  ∃ d, IsDirection d ∧ ∃ k n : Nat, 0 < k ∧ k < n ∧ point = walk start d k ∧ target = walk start d n

/-- On the line from a point to another, its ends included. -/
def OnLine (start target point : Int × Int) : Prop := point = start ∨ point = target ∨ Between start target point

variable {start target point d : Int × Int} {n : Nat}

@[simp] theorem walk_zero : walk start d 0 = start := by simp [walk]

theorem walk_succ : walk start d (n + 1) = walk (walk start d 1) d n := by
  simp only [walk, Nat.cast_add, Nat.cast_one, one_mul, Prod.mk.injEq]
  constructor <;> ring

/-- The displacement tells the direction and the number of steps. -/
theorem walk_eq_iff (hd : IsDirection d) (hn : 0 < n) {d' : Int × Int} {n' : Nat} (hd' : IsDirection d') (hn' : 0 < n') :
    walk start d n = walk start d' n' ↔ d = d' ∧ n = n' := by
  constructor
  · intro h
    obtain ⟨hrow, hcol, hne⟩ := hd
    obtain ⟨hrow', hcol', hne'⟩ := hd'
    simp only [walk, add_right_inj, ne_eq, Prod.ext_iff] at h hne hne'
    obtain ⟨hfirst, hsecond⟩ := h
    have hcases : ∀ i : Int, i.natAbs ≤ 1 → i = -1 ∨ i = 0 ∨ i = 1 := fun i hi => by omega
    rcases hcases d.1 hrow with h1 | h1 | h1 <;> rcases hcases d'.1 hrow' with h2 | h2 | h2 <;>
      rcases hcases d.2 hcol with h3 | h3 | h3 <;> rcases hcases d'.2 hcol' with h4 | h4 | h4 <;>
      rw [h1, h2] at hfirst <;> rw [h3, h4] at hsecond <;> simp only [Prod.ext_iff] <;> omega
  · intro h
    obtain ⟨rfl, rfl⟩ := h
    rfl

/-- On a known line the points between are those of the steps between. -/
theorem between_walk_iff (hd : IsDirection d) (hn : 0 < n) :
    Between start (walk start d n) point ↔ ∃ k, 0 < k ∧ k < n ∧ point = walk start d k := by
  constructor
  · intro h
    obtain ⟨d', hd', k, n', hk, hkn, hpoint, htarget⟩ := h
    obtain ⟨rfl, rfl⟩ := (walk_eq_iff hd hn hd' (hk.trans hkn)).mp htarget
    exact ⟨k, hk, hkn, hpoint⟩
  · intro h
    obtain ⟨k, hk, hkn, hpoint⟩ := h
    exact ⟨d, hd, k, n, hk, hkn, hpoint, rfl⟩

theorem walk_ne_start (hd : IsDirection d) (hn : 0 < n) : walk start d n ≠ start := by
  intro h
  obtain ⟨-, -, hne⟩ := hd
  simp only [walk, Prod.ext_iff, add_eq_left, mul_eq_zero, Nat.cast_eq_zero, hn.ne', false_or] at h
  exact hne (Prod.ext h.1 h.2)

/-- The steps of a line, from its first point on. -/
theorem onLine_walk_iff (hd : 0 < n → IsDirection d) :
    OnLine start (walk start d n) point ↔ ∃ k ≤ n, point = walk start d k := by
  rcases Nat.eq_zero_or_pos n with rfl | hn
  · have hbetween : ¬Between start start point := by
      intro h
      obtain ⟨d', hd', k, n', hk, hkn, -, htarget⟩ := h
      exact walk_ne_start hd' (hk.trans hkn) htarget.symm
    simp [OnLine, hbetween]
  · rw [OnLine, between_walk_iff (hd hn) hn]
    constructor
    · intro h
      rcases h with rfl | rfl | ⟨k, -, hkn, rfl⟩
      · exact ⟨0, hn.le, walk_zero.symm⟩
      · exact ⟨n, le_rfl, rfl⟩
      · exact ⟨k, hkn.le, rfl⟩
    · intro h
      obtain ⟨k, hkn, rfl⟩ := h
      rcases Nat.eq_zero_or_pos k with rfl | hk
      · exact .inl walk_zero
      · rcases hkn.lt_or_eq with hlt | rfl
        · exact .inr (.inr ⟨k, hk, hlt, rfl⟩)
        · exact .inr (.inl rfl)

theorem exists_onLine_walk_iff (hd : 0 < n → IsDirection d) {P : Int × Int → Prop} :
    (∃ cell, OnLine start (walk start d n) cell ∧ P cell) ↔ ∃ k ≤ n, P (walk start d k) := by
  simp only [onLine_walk_iff hd]
  constructor
  · intro h
    obtain ⟨cell, ⟨k, hk, rfl⟩, hp⟩ := h
    exact ⟨k, hk, hp⟩
  · intro h
    obtain ⟨k, hk, hp⟩ := h
    exact ⟨_, ⟨k, hk, rfl⟩, hp⟩

theorem Between.ne_start (h : Between start target point) : point ≠ start := by
  obtain ⟨d, hd, k, n, hk, hkn, rfl, rfl⟩ := h
  exact walk_ne_start hd hk

/-- A point between two others lies in the rectangle that they span. -/
theorem Between.bounds (h : Between start target point) :
    min start.1 target.1 ≤ point.1 ∧ point.1 ≤ max start.1 target.1 ∧
      min start.2 target.2 ≤ point.2 ∧ point.2 ≤ max start.2 target.2 := by
  obtain ⟨d, ⟨hrow, hcol, -⟩, k, n, hk, hkn, rfl, rfl⟩ := h
  have hcases : ∀ i : Int, i.natAbs ≤ 1 → i = -1 ∨ i = 0 ∨ i = 1 := fun i hi => by omega
  simp only [walk]
  refine ⟨?_, ?_, ?_, ?_⟩
  · rcases hcases d.1 hrow with h1 | h1 | h1 <;> rw [h1] <;> omega
  · rcases hcases d.1 hrow with h1 | h1 | h1 <;> rw [h1] <;> omega
  · rcases hcases d.2 hcol with h1 | h1 | h1 <;> rw [h1] <;> omega
  · rcases hcases d.2 hcol with h1 | h1 | h1 <;> rw [h1] <;> omega

/-- Points that lie between others are on a row, a column or a diagonal with them, two steps or more apart. -/
theorem Between.far (h : Between start target point) :
    (target.1 = start.1 ∨ target.2 = start.2 ∨ (target.1 - start.1).natAbs = (target.2 - start.2).natAbs) ∧
      (2 ≤ (target.1 - start.1).natAbs ∨ 2 ≤ (target.2 - start.2).natAbs) := by
  obtain ⟨d, ⟨hrow, hcol, hne⟩, k, n, hk, hkn, -, rfl⟩ := h
  have hcases : ∀ i : Int, i.natAbs ≤ 1 → i = -1 ∨ i = 0 ∨ i = 1 := fun i hi => by omega
  simp only [ne_eq, Prod.ext_iff] at hne
  simp only [walk]
  rcases hcases d.1 hrow with h1 | h1 | h1 <;> rcases hcases d.2 hcol with h2 | h2 | h2 <;>
    rw [h1, h2] at hne ⊢ <;> constructor <;> omega

end GridLines
