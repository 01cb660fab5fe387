import KungFuChess.Model.Piece

/-!
# The board on the screen

`ui/layout/`: where the board lies in the window, in pixels, and which cell a pixel belongs to. The last
section has the same computations with the width of `int`.
-/

namespace KungFuChess

def kReferenceCellSizePixels : Int := 100

structure BoardLayout where
  boardX : Int := 0
  boardY : Int := 0
  cellSize : Int := 0
  boardWidthPixels : Int := 0
  boardHeightPixels : Int := 0
deriving DecidableEq, Repr

def BoardLayout.cellOriginX (layout : BoardLayout) (col : Nat) : Int := layout.boardX + toInt col * layout.cellSize

def BoardLayout.cellOriginY (layout : BoardLayout) (row : Nat) : Int := layout.boardY + toInt row * layout.cellSize

/-- The row and the column of the cell, if the pixel lies on one. -/
def BoardLayout.tryPixelToCell (layout : BoardLayout) (x y : Int) (widthCells heightCells : Nat) : Option Cell :=
  if layout.cellSize ≤ 0 ∨ widthCells = 0 ∨ heightCells = 0 then none
  else if x < layout.boardX ∨ y < layout.boardY then none
  else
    let localX := x - layout.boardX
    let localY := y - layout.boardY
    if localX ≥ layout.boardWidthPixels ∨ localY ≥ layout.boardHeightPixels then none
    else
      let col := toSize (localX.tdiv layout.cellSize)
      let row := toSize (localY.tdiv layout.cellSize)
      if col < widthCells ∧ row < heightCells then some (row, col) else none

/-- `BoardLayoutCalculator::calculate`. -/
def calculateLayout (windowWidth windowHeight boardWidthCells boardHeightCells : Int) : BoardLayout :=
  if windowWidth ≤ 0 ∨ windowHeight ≤ 0 ∨ boardWidthCells ≤ 0 ∨ boardHeightCells ≤ 0 then {}
  else
    let cellSize := min (windowWidth.tdiv boardWidthCells) (windowHeight.tdiv boardHeightCells)
    let boardWidthPixels := cellSize * boardWidthCells
    let boardHeightPixels := cellSize * boardHeightCells
    let boardX := (windowWidth - boardWidthPixels).tdiv 2
    let boardY := (windowHeight - boardHeightPixels).tdiv 2
    ⟨boardX, boardY, cellSize, boardWidthPixels, boardHeightPixels⟩

structure UiWindowDimensions where
  width : Int := 0
  height : Int := 0
deriving DecidableEq, Repr

/-- The products fit an `int` on a board of fewer than 21 million rows and columns. -/
def defaultInitialWindowSize (rows cols : Nat) : UiWindowDimensions :=
  ⟨toInt cols * kReferenceCellSizePixels, toInt rows * kReferenceCellSizePixels⟩

/-! ### In the width of int

Operation by operation. Where an operation overflows, or divides by zero, there is no result. -/

namespace MachineInt

/-- The result of an operation on `int`. -/
def checked (i : Int) : Option Int := if IsInt32 i then some i else none

def div (a b : Int) : Option Int := if b = 0 then none else checked (a.tdiv b)

/-- `static_cast<int>` of a `std::size_t`. -/
def ofSize (n : Nat) : Int := (n : Int).bmod (2 ^ 32)

def cellOriginX (layout : BoardLayout) (col : Nat) : Option Int := do
  let offset ← checked (ofSize col * layout.cellSize)
  checked (layout.boardX + offset)

def cellOriginY (layout : BoardLayout) (row : Nat) : Option Int := do
  let offset ← checked (ofSize row * layout.cellSize)
  checked (layout.boardY + offset)

def tryPixelToCell (layout : BoardLayout) (x y : Int) (widthCells heightCells : Nat) : Option (Option Cell) :=
  if layout.cellSize ≤ 0 ∨ widthCells = 0 ∨ heightCells = 0 then some none
  else if x < layout.boardX ∨ y < layout.boardY then some none
  else do
    let localX ← checked (x - layout.boardX)
    let localY ← checked (y - layout.boardY)
    if localX ≥ layout.boardWidthPixels ∨ localY ≥ layout.boardHeightPixels then some none
    else do
      let col ← div localX layout.cellSize
      let row ← div localY layout.cellSize
      some (if toSize col < widthCells ∧ toSize row < heightCells then some (toSize row, toSize col) else none)

def calculateLayout (windowWidth windowHeight boardWidthCells boardHeightCells : Int) : Option BoardLayout :=
  if windowWidth ≤ 0 ∨ windowHeight ≤ 0 ∨ boardWidthCells ≤ 0 ∨ boardHeightCells ≤ 0 then some {}
  else do
    let cellWidth ← div windowWidth boardWidthCells
    let cellHeight ← div windowHeight boardHeightCells
    let cellSize := min cellWidth cellHeight
    let boardWidthPixels ← checked (cellSize * boardWidthCells)
    let boardHeightPixels ← checked (cellSize * boardHeightCells)
    let boardX ← div (← checked (windowWidth - boardWidthPixels)) 2
    let boardY ← div (← checked (windowHeight - boardHeightPixels)) 2
    some ⟨boardX, boardY, cellSize, boardWidthPixels, boardHeightPixels⟩

end MachineInt

end KungFuChess
