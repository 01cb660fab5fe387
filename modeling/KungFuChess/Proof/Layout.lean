import Mathlib.Tactic.Ring
import KungFuChess.Model.Layout

/-!
# Pixels and cells

The layout puts the board into the window and cuts it into squares. A pixel of the board lies in one square, and
`try_pixel_to_cell` names the cell of that square. No step leaves the range of `int`.
-/

namespace KungFuChess

/-- The pixel lies in the square of the cell. -/
structure BoardLayout.InSquare (layout : BoardLayout) (row col : Nat) (x y : Int) : Prop where
  left : layout.cellOriginX col ≤ x
  right : x < layout.cellOriginX col + layout.cellSize
  top : layout.cellOriginY row ≤ y
  bottom : y < layout.cellOriginY row + layout.cellSize

/-- The pixel lies in the rectangle of the board. -/
structure BoardLayout.OnBoard (layout : BoardLayout) (x y : Int) : Prop where
  left : layout.boardX ≤ x
  right : x < layout.boardX + layout.boardWidthPixels
  top : layout.boardY ≤ y
  bottom : y < layout.boardY + layout.boardHeightPixels

/-- The rectangle of the board has room for its cells and lies within a window. -/
structure BoardLayout.Covers (layout : BoardLayout) (cols rows : Nat) (windowWidth windowHeight : Int) : Prop where
  cellSize_nonneg : 0 ≤ layout.cellSize
  boardX_nonneg : 0 ≤ layout.boardX
  boardY_nonneg : 0 ≤ layout.boardY
  width_eq : layout.boardWidthPixels = cols * layout.cellSize
  height_eq : layout.boardHeightPixels = rows * layout.cellSize
  right_le : layout.boardX + layout.boardWidthPixels ≤ windowWidth
  bottom_le : layout.boardY + layout.boardHeightPixels ≤ windowHeight

section

variable {layout : BoardLayout} {cols rows : Nat} {windowWidth windowHeight : Int}

/-! ### One direction -/

/-- Half of what a window has left over, on the side where the board begins. -/
theorem margin_bounds {window board : Int} (h : board ≤ window) :
    0 ≤ (window - board).tdiv 2 ∧ (window - board).tdiv 2 + board ≤ window := by
  rw [Int.tdiv_eq_ediv_of_nonneg (by omega)]
  omega

/-- As many squares as the window was divided by fit into it. -/
theorem mul_le_of_le_tdiv {window size : Int} {count : Nat} (hwindow : 0 < window) (hcount : 0 < count)
    (hsize : size ≤ window.tdiv count) : count * size ≤ window := by
  rw [Int.tdiv_eq_ediv_of_nonneg hwindow.le] at hsize
  calc (count : Int) * size = size * count := mul_comm _ _
    _ ≤ window := (Int.le_ediv_iff_mul_le (by omega)).mp hsize

/-- The quotient of an offset is the number of the square that the offset lies in. -/
theorem tdiv_eq_iff_inSquare {offset size : Int} {count : Nat} (hoffset : 0 ≤ offset) (hsize : 0 < size) :
    toSize (offset.tdiv size) = count ↔ count * size ≤ offset ∧ offset < count * size + size := by
  have hnonneg : 0 ≤ offset / size := Int.ediv_nonneg hoffset hsize.le
  rw [Int.tdiv_eq_ediv_of_nonneg hoffset, toSize, if_pos hnonneg]
  have hlow := Int.le_ediv_iff_mul_le (a := count) (b := offset) hsize
  have hhigh := Int.ediv_lt_iff_lt_mul (a := offset) (b := count + 1) hsize
  rw [add_mul, one_mul] at hhigh
  rw [← hlow, ← hhigh]
  omega

/-- The squares of a row lie in it from end to end. -/
theorem square_le_row {size : Int} {index count : Nat} (hsize : 0 ≤ size) (h : index < count) :
    (index : Int) * size + size ≤ count * size := by
  have hle : ((index + 1 : Nat) : Int) * size ≤ (count : Int) * size :=
    Int.mul_le_mul_of_nonneg_right (by omega) hsize
  calc (index : Int) * size + size = ((index + 1 : Nat) : Int) * size := by
        push_cast
        ring
    _ ≤ count * size := hle

/-! ### The board in the window -/

/-- What `calculate` finds, for a window that has no pixels as well. -/
theorem calculateLayout_covers (hcols : 0 < cols) (hrows : 0 < rows) :
    (calculateLayout windowWidth windowHeight cols rows).Covers cols rows (max windowWidth 0) (max windowHeight 0) := by
  unfold calculateLayout
  split
  · exact ⟨le_rfl, le_rfl, le_rfl, by simp, by simp, by simp, by simp⟩
  · rename_i hwindow
    have hwidth : 0 < windowWidth := by omega
    have hheight : 0 < windowHeight := by omega
    rw [max_eq_left hwidth.le, max_eq_left hheight.le]
    dsimp only
    have hnonneg : 0 ≤ min (windowWidth.tdiv cols) (windowHeight.tdiv rows) :=
      le_min (Int.tdiv_nonneg hwidth.le (by omega)) (Int.tdiv_nonneg hheight.le (by omega))
    have hw := mul_le_of_le_tdiv hwidth hcols (min_le_left (windowWidth.tdiv cols) (windowHeight.tdiv rows))
    have hh := mul_le_of_le_tdiv hheight hrows (min_le_right (windowWidth.tdiv cols) (windowHeight.tdiv rows))
    generalize min (windowWidth.tdiv cols) (windowHeight.tdiv rows) = size at hnonneg hw hh ⊢
    rw [mul_comm] at hw hh
    obtain ⟨hx, hright⟩ := margin_bounds hw
    obtain ⟨hy, hbottom⟩ := margin_bounds hh
    exact ⟨hnonneg, hx, hy, mul_comm _ _, mul_comm _ _, hright, hbottom⟩

namespace BoardLayout.Covers

/-- A pixel in the square of a cell of the board lies on the board. -/
theorem onBoard (h : layout.Covers cols rows windowWidth windowHeight) {row col : Nat} {x y : Int} (hrow : row < rows)
    (hcol : col < cols) (hsquare : layout.InSquare row col x y) : layout.OnBoard x y := by
  obtain ⟨hleft, hright, htop, hbottom⟩ := hsquare
  simp only [cellOriginX, cellOriginY, toInt] at hleft hright htop hbottom
  have hwide := square_le_row h.cellSize_nonneg hcol
  have hhigh := square_le_row h.cellSize_nonneg hrow
  have hx : 0 ≤ (col : Int) * layout.cellSize := Int.mul_nonneg (by omega) h.cellSize_nonneg
  have hy : 0 ≤ (row : Int) * layout.cellSize := Int.mul_nonneg (by omega) h.cellSize_nonneg
  have hwidth := h.width_eq
  have hheight := h.height_eq
  constructor <;> omega

/-- `try_pixel_to_cell` names the cell whose square the pixel lies in. -/
theorem tryPixelToCell_eq_some_iff (h : layout.Covers cols rows windowWidth windowHeight) {row col : Nat} {x y : Int} :
    layout.tryPixelToCell x y cols rows = some (row, col) ↔
      0 < layout.cellSize ∧ row < rows ∧ col < cols ∧ layout.InSquare row col x y := by
  unfold tryPixelToCell
  have hboard : row < rows → col < cols → layout.InSquare row col x y → layout.OnBoard x y := h.onBoard
  by_cases hempty : layout.cellSize ≤ 0 ∨ cols = 0 ∨ rows = 0
  · rw [if_pos hempty]
    simp only [reduceCtorEq, false_iff]
    intro h
    obtain ⟨hsize, hrow, hcol, -⟩ := h
    omega
  rw [if_neg hempty]
  have hsize : 0 < layout.cellSize := by omega
  by_cases hbefore : x < layout.boardX ∨ y < layout.boardY
  · rw [if_pos hbefore]
    simp only [reduceCtorEq, false_iff]
    intro h
    obtain ⟨-, hrow, hcol, hsquare⟩ := h
    obtain ⟨hleft, -, htop, -⟩ := hboard hrow hcol hsquare
    omega
  rw [if_neg hbefore]
  dsimp only
  by_cases hafter : x - layout.boardX ≥ layout.boardWidthPixels ∨ y - layout.boardY ≥ layout.boardHeightPixels
  · rw [if_pos hafter]
    simp only [reduceCtorEq, false_iff]
    intro h
    obtain ⟨-, hrow, hcol, hsquare⟩ := h
    obtain ⟨-, hright, -, hbottom⟩ := hboard hrow hcol hsquare
    omega
  rw [if_neg hafter]
  have hx := @tdiv_eq_iff_inSquare (x - layout.boardX) layout.cellSize col (by omega) hsize
  have hy := @tdiv_eq_iff_inSquare (y - layout.boardY) layout.cellSize row (by omega) hsize
  simp only [Option.ite_none_right_eq_some, Option.some.injEq, Prod.mk.injEq]
  constructor
  · intro h
    obtain ⟨⟨hcol, hrow⟩, rfl, rfl⟩ := h
    have hcolumn := hx.mp rfl
    have hline := hy.mp rfl
    refine ⟨hsize, hrow, hcol, ?_, ?_, ?_, ?_⟩ <;> simp only [cellOriginX, cellOriginY, toInt] <;> omega
  · intro h
    obtain ⟨-, hrow, hcol, hleft, hright, htop, hbottom⟩ := h
    simp only [cellOriginX, cellOriginY, toInt] at hleft hright htop hbottom
    have hcolumn := hx.mpr (by omega)
    have hline := hy.mpr (by omega)
    exact ⟨⟨hcolumn ▸ hcol, hline ▸ hrow⟩, hline, hcolumn⟩

/-- Every pixel of the board has a cell. -/
theorem exists_cell (h : layout.Covers cols rows windowWidth windowHeight) {x y : Int} (hpixel : layout.OnBoard x y) :
    ∃ row col, layout.tryPixelToCell x y cols rows = some (row, col) := by
  obtain ⟨hleft, hright, htop, hbottom⟩ := hpixel
  have hwidth := h.width_eq
  have hheight := h.height_eq
  have hsize : 0 < layout.cellSize := by
    rcases h.cellSize_nonneg.lt_or_eq with hpos | hzero
    · exact hpos
    · rw [← hzero, mul_zero] at hwidth
      omega
  have hcount : ∀ (offset : Int) (count : Nat), 0 ≤ offset → offset < count * layout.cellSize →
      toSize (offset.tdiv layout.cellSize) < count := by
    intro offset count hnonneg hlt
    obtain ⟨hle, -⟩ := (tdiv_eq_iff_inSquare hnonneg hsize).mp rfl
    by_contra hge
    have hmul : (count : Int) * layout.cellSize ≤ (toSize (offset.tdiv layout.cellSize) : Nat) * layout.cellSize :=
      Int.mul_le_mul_of_nonneg_right (by omega) hsize.le
    omega
  have hcol := hcount (x - layout.boardX) cols (by omega) (by omega)
  have hrow := hcount (y - layout.boardY) rows (by omega) (by omega)
  refine ⟨_, _, h.tryPixelToCell_eq_some_iff.mpr ⟨hsize, hrow, hcol, ?_⟩⟩
  have hx := (tdiv_eq_iff_inSquare (show 0 ≤ x - layout.boardX by omega) hsize).mp rfl
  have hy := (tdiv_eq_iff_inSquare (show 0 ≤ y - layout.boardY by omega) hsize).mp rfl
  constructor <;> simp only [cellOriginX, cellOriginY, toInt] <;> omega

end BoardLayout.Covers

/-! ### Within the range of int -/

theorem checked_of_isInt32 {i : Int} (h : IsInt32 i) : MachineInt.checked i = some i := if_pos h

theorem div_of_isInt32 {a b : Int} (ha : IsInt32 a) (hnonneg : 0 ≤ a) (hb : 0 < b) :
    MachineInt.div a b = some (a.tdiv b) := by
  have hle : a.tdiv b ≤ a := by
    rw [Int.tdiv_eq_ediv_of_nonneg hnonneg]
    exact Int.ediv_le_self _ hnonneg
  have hge : 0 ≤ a.tdiv b := Int.tdiv_nonneg hnonneg hb.le
  obtain ⟨hlow, hhigh⟩ := ha
  rw [MachineInt.div, if_neg hb.ne', checked_of_isInt32 ⟨by omega, by omega⟩]

theorem ofSize_of_isInt32 {n : Nat} (h : IsInt32 n) : MachineInt.ofSize n = toInt n := by
  obtain ⟨hlow, hhigh⟩ := h
  exact Int.bmod_eq_of_le_mul_two (by omega) (by omega)

theorem calculateLayout_checked {boardWidthCells boardHeightCells : Int} (hwidth : IsInt32 windowWidth)
    (hheight : IsInt32 windowHeight) :
    MachineInt.calculateLayout windowWidth windowHeight boardWidthCells boardHeightCells =
      some (calculateLayout windowWidth windowHeight boardWidthCells boardHeightCells) := by
  unfold MachineInt.calculateLayout calculateLayout
  by_cases hempty : windowWidth ≤ 0 ∨ windowHeight ≤ 0 ∨ boardWidthCells ≤ 0 ∨ boardHeightCells ≤ 0
  · rw [if_pos hempty, if_pos hempty]
  · obtain ⟨cols, rfl⟩ := Int.eq_ofNat_of_zero_le (show 0 ≤ boardWidthCells by omega)
    obtain ⟨rows, rfl⟩ := Int.eq_ofNat_of_zero_le (show 0 ≤ boardHeightCells by omega)
    have hcovers := @calculateLayout_covers cols rows windowWidth windowHeight (by omega) (by omega)
    rw [max_eq_left (by omega), max_eq_left (by omega), calculateLayout, if_neg hempty] at hcovers
    rw [if_neg hempty, if_neg hempty, div_of_isInt32 hwidth (by omega) (by omega),
      div_of_isInt32 hheight (by omega) (by omega), Option.bind_eq_bind, Option.bind_some, Option.bind_some]
    dsimp only at hcovers ⊢
    generalize min (windowWidth.tdiv cols) (windowHeight.tdiv rows) = size at hcovers ⊢
    obtain ⟨hsize, hx, hy, hw, hh, hright, hbottom⟩ := hcovers
    dsimp only at hsize hx hy hw hh hright hbottom
    have hwpos : 0 ≤ (cols : Int) * size := Int.mul_nonneg (by omega) hsize
    have hhpos : 0 ≤ (rows : Int) * size := Int.mul_nonneg (by omega) hsize
    obtain ⟨hlow, hhigh⟩ := hwidth
    obtain ⟨hlow', hhigh'⟩ := hheight
    rw [checked_of_isInt32 (i := size * cols) ⟨by omega, by omega⟩, Option.bind_some,
      checked_of_isInt32 (i := size * rows) ⟨by omega, by omega⟩, Option.bind_some,
      checked_of_isInt32 (i := windowWidth - size * cols) ⟨by omega, by omega⟩, Option.bind_some,
      div_of_isInt32 ⟨by omega, by omega⟩ (by omega) (by omega), Option.bind_some,
      checked_of_isInt32 (i := windowHeight - size * rows) ⟨by omega, by omega⟩, Option.bind_some,
      div_of_isInt32 ⟨by omega, by omega⟩ (by omega) (by omega), Option.bind_some]

namespace BoardLayout.Covers

theorem tryPixelToCell_checked (h : layout.Covers cols rows windowWidth windowHeight) {x y : Int} (hx : IsInt32 x)
    (hy : IsInt32 y) : MachineInt.tryPixelToCell layout x y cols rows = some (layout.tryPixelToCell x y cols rows) := by
  unfold MachineInt.tryPixelToCell tryPixelToCell
  obtain ⟨hlow, hhigh⟩ := hx
  obtain ⟨hlow', hhigh'⟩ := hy
  have hleft := h.boardX_nonneg
  have htop := h.boardY_nonneg
  by_cases hempty : layout.cellSize ≤ 0 ∨ cols = 0 ∨ rows = 0
  · rw [if_pos hempty, if_pos hempty]
  rw [if_neg hempty, if_neg hempty]
  by_cases hbefore : x < layout.boardX ∨ y < layout.boardY
  · rw [if_pos hbefore, if_pos hbefore]
  have hlocalX : IsInt32 (x - layout.boardX) := ⟨by omega, by omega⟩
  have hlocalY : IsInt32 (y - layout.boardY) := ⟨by omega, by omega⟩
  rw [if_neg hbefore, if_neg hbefore, checked_of_isInt32 hlocalX, Option.bind_eq_bind, Option.bind_some,
    checked_of_isInt32 hlocalY, Option.bind_some]
  dsimp only
  by_cases hafter : x - layout.boardX ≥ layout.boardWidthPixels ∨ y - layout.boardY ≥ layout.boardHeightPixels
  · rw [if_pos hafter, if_pos hafter]
  rw [if_neg hafter, if_neg hafter, div_of_isInt32 hlocalX (by omega) (by omega), Option.bind_some,
    div_of_isInt32 hlocalY (by omega) (by omega), Option.bind_some]

/-- The origin of a cell of the board, in a window whose size is an `int`. -/
theorem cellOrigin_checked (h : layout.Covers cols rows windowWidth windowHeight) (hwidth : IsInt32 windowWidth)
    (hheight : IsInt32 windowHeight) (hcols : IsInt32 cols) (hrows : IsInt32 rows) {row col : Nat} (hrow : row < rows)
    (hcol : col < cols) :
    MachineInt.cellOriginX layout col = some (layout.cellOriginX col) ∧
      MachineInt.cellOriginY layout row = some (layout.cellOriginY row) := by
  have hleft := h.boardX_nonneg
  have htop := h.boardY_nonneg
  have hright := h.right_le
  have hbottom := h.bottom_le
  have hsize := h.cellSize_nonneg
  rw [h.width_eq] at hright
  rw [h.height_eq] at hbottom
  have hwide := square_le_row hsize hcol
  have hhigh := square_le_row hsize hrow
  have hx : 0 ≤ (col : Int) * layout.cellSize := Int.mul_nonneg (by omega) hsize
  have hy : 0 ≤ (row : Int) * layout.cellSize := Int.mul_nonneg (by omega) hsize
  obtain ⟨-, hcolsInt⟩ := hcols
  obtain ⟨-, hrowsInt⟩ := hrows
  obtain ⟨-, hwidthInt⟩ := hwidth
  obtain ⟨-, hheightInt⟩ := hheight
  unfold MachineInt.cellOriginX MachineInt.cellOriginY cellOriginX cellOriginY
  rw [ofSize_of_isInt32 ⟨by omega, by omega⟩, ofSize_of_isInt32 ⟨by omega, by omega⟩]
  simp only [toInt]
  rw [checked_of_isInt32 (i := (col : Int) * layout.cellSize) ⟨by omega, by omega⟩, Option.bind_eq_bind, Option.bind_some,
    checked_of_isInt32 (i := (row : Int) * layout.cellSize) ⟨by omega, by omega⟩, Option.bind_some]
  exact ⟨checked_of_isInt32 ⟨by omega, by omega⟩, checked_of_isInt32 ⟨by omega, by omega⟩⟩

end BoardLayout.Covers

/-! ### The board and its cells -/

theorem pixels_and_cells_correspond (hwidth : IsInt32 windowWidth) (hheight : IsInt32 windowHeight) (hcols : IsInt32 cols)
    (hrows : IsInt32 rows) (hcolsPos : 0 < cols) (hrowsPos : 0 < rows)
    (hlayout : calculateLayout windowWidth windowHeight cols rows = layout) :
    MachineInt.calculateLayout windowWidth windowHeight cols rows = some layout ∧
      (0 < windowWidth → 0 < windowHeight →
        0 ≤ layout.boardX ∧ 0 ≤ layout.boardWidthPixels ∧ layout.boardX + layout.boardWidthPixels ≤ windowWidth ∧
          0 ≤ layout.boardY ∧ 0 ≤ layout.boardHeightPixels ∧ layout.boardY + layout.boardHeightPixels ≤ windowHeight) ∧
      (∀ row col, row < rows → col < cols →
        MachineInt.cellOriginX layout col = some (layout.cellOriginX col) ∧
          MachineInt.cellOriginY layout row = some (layout.cellOriginY row)) ∧
      ∀ x y, IsInt32 x → IsInt32 y →
        MachineInt.tryPixelToCell layout x y cols rows = some (layout.tryPixelToCell x y cols rows) ∧
          (∀ row col, layout.tryPixelToCell x y cols rows = some (row, col) ↔
            0 < layout.cellSize ∧ row < rows ∧ col < cols ∧ layout.InSquare row col x y) ∧
          (layout.OnBoard x y → ∃! cell : Cell, cell.1 < rows ∧ cell.2 < cols ∧ layout.InSquare cell.1 cell.2 x y) ∧
          (¬layout.OnBoard x y → layout.tryPixelToCell x y cols rows = none) := by
  subst hlayout
  have hcovers := @calculateLayout_covers cols rows windowWidth windowHeight hcolsPos hrowsPos
  refine ⟨calculateLayout_checked hwidth hheight, ?_, ?_, ?_⟩
  · intro hwidthPos hheightPos
    rw [max_eq_left hwidthPos.le, max_eq_left hheightPos.le] at hcovers
    have hw := hcovers.width_eq
    have hh := hcovers.height_eq
    have hwpos : 0 ≤ (cols : Int) * _ := Int.mul_nonneg (by omega) hcovers.cellSize_nonneg
    have hhpos : 0 ≤ (rows : Int) * _ := Int.mul_nonneg (by omega) hcovers.cellSize_nonneg
    exact ⟨hcovers.boardX_nonneg, by rwa [hw], hcovers.right_le, hcovers.boardY_nonneg, by rwa [hh], hcovers.bottom_le⟩
  · intro row col hrow hcol
    obtain ⟨hlow, hhigh⟩ := hwidth
    obtain ⟨hlow', hhigh'⟩ := hheight
    exact hcovers.cellOrigin_checked ⟨by omega, by omega⟩ ⟨by omega, by omega⟩ hcols hrows hrow hcol
  · intro x y hx hy
    refine ⟨hcovers.tryPixelToCell_checked hx hy, fun row col => hcovers.tryPixelToCell_eq_some_iff, ?_, ?_⟩
    · intro hpixel
      obtain ⟨row, col, hcell⟩ := hcovers.exists_cell hpixel
      obtain ⟨hsize, hrow, hcol, hsquare⟩ := hcovers.tryPixelToCell_eq_some_iff.mp hcell
      refine ⟨(row, col), ⟨hrow, hcol, hsquare⟩, ?_⟩
      rintro ⟨row', col'⟩ ⟨hrow', hcol', hsquare'⟩
      have hcell' := hcovers.tryPixelToCell_eq_some_iff.mpr ⟨hsize, hrow', hcol', hsquare'⟩
      exact Option.some.inj (hcell'.symm.trans hcell)
    · intro hpixel
      by_contra hsome
      obtain ⟨⟨row, col⟩, hcell⟩ := Option.ne_none_iff_exists'.mp hsome
      obtain ⟨-, hrow, hcol, hsquare⟩ := hcovers.tryPixelToCell_eq_some_iff.mp hcell
      exact hpixel (hcovers.onBoard hrow hcol hsquare)

/-- A window of 830 by 850 pixels, with a margin of 15 pixels at the left and of 25 at the top. -/
theorem pixels_and_cells_correspond_standard :
    (calculateLayout 830 850 8 8).OnBoard 15 25 ∧
      ∃! cell : Cell, cell.1 < 8 ∧ cell.2 < 8 ∧ (calculateLayout 830 850 8 8).InSquare cell.1 cell.2 15 25 :=
  have hpixel : (calculateLayout 830 850 8 8).OnBoard 15 25 := ⟨by decide, by decide, by decide, by decide⟩
  have hall := (@pixels_and_cells_correspond _ 8 8 830 850
    ⟨by decide, by decide⟩ ⟨by decide, by decide⟩ ⟨by decide, by decide⟩ ⟨by decide, by decide⟩ (by decide) (by decide)
    rfl).2.2.2 15 25 ⟨by decide, by decide⟩ ⟨by decide, by decide⟩
  ⟨hpixel, hall.2.2.1 hpixel⟩

end

end KungFuChess
