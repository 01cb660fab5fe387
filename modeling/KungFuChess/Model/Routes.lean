import KungFuChess.Model.Realtime

/-!
# Common routes

`paths_share_cell` of `logic/path_utils.cpp` and the route part of `realtime/collision_resolver.cpp`. The
coordinates of a cell are in the range of `int`, so that its casts and the differences are exact.
-/

namespace KungFuChess

def isStraightOrDiagonalPath (dr dc : Int) : Bool :=
  if dr = 0 ∨ dc = 0 then true else dr.natAbs == dc.natAbs

/-- The two `while (true)` loops of `paths_share_cell` are of this form: leave with `true` where the test holds, stop
at the end cell, and take a step. `fuel` bounds the number of rounds. -/
def searchPath (test : Int → Int → Checked Bool) (endRow endCol stepR stepC : Int) : Nat → Int → Int → Checked Bool
  | 0, _, _ => .error .pathHasNoEnd
  | fuel + 1, row, col => do
      if ← test row col then return true
      if row = endRow ∧ col = endCol then return false
      searchPath test endRow endCol stepR stepC fuel (row + stepR) (col + stepC)

/-- The inner loop: whether `(aRow, aCol)` is a cell of the second path. A walk that has not met its end after one
round more than the longer displacement never will. -/
def isOnPath (bStart bEnd : Cell) (aRow aCol : Int) : Checked Bool :=
  let bDr := toInt bEnd.1 - toInt bStart.1
  let bDc := toInt bEnd.2 - toInt bStart.2
  searchPath (fun bRow bCol => .ok (aRow == bRow && aCol == bCol)) (toInt bEnd.1) (toInt bEnd.2) (stepOf bDr)
    (stepOf bDc) (max bDr.natAbs bDc.natAbs + 1) (toInt bStart.1) (toInt bStart.2)

def pathsShareCell (aStart aEnd bStart bEnd : Cell) : Checked Bool :=
  let aDr := toInt aEnd.1 - toInt aStart.1
  let aDc := toInt aEnd.2 - toInt aStart.2
  let bDr := toInt bEnd.1 - toInt bStart.1
  let bDc := toInt bEnd.2 - toInt bStart.2
  if !isStraightOrDiagonalPath aDr aDc || !isStraightOrDiagonalPath bDr bDc then
    .ok (aStart == bStart || aStart == bEnd || aEnd == bStart || aEnd == bEnd)
  else
    searchPath (isOnPath bStart bEnd) (toInt aEnd.1) (toInt aEnd.2) (stepOf aDr) (stepOf aDc)
      (max aDr.natAbs aDc.natAbs + 1) (toInt aStart.1) (toInt aStart.2)

def rangesOverlap (aMin aMax bMin bMax : Nat) : Bool := aMin ≤ bMax && bMin ≤ aMax

def hasCommonRoute (a b : PendingMove) : Checked Bool := do
  if ← pathsShareCell a.startPos a.endPos b.startPos b.endPos then return true
  -- parallel moves along rows, and along columns, conflict without a common cell
  if a.startPos.1 = a.endPos.1 ∧ b.startPos.1 = b.endPos.1 then
    return rangesOverlap (min a.startPos.2 a.endPos.2) (max a.startPos.2 a.endPos.2)
      (min b.startPos.2 b.endPos.2) (max b.startPos.2 b.endPos.2)
  if a.startPos.2 = a.endPos.2 ∧ b.startPos.2 = b.endPos.2 then
    return rangesOverlap (min a.startPos.1 a.endPos.1) (max a.startPos.1 a.endPos.1)
      (min b.startPos.1 b.endPos.1) (max b.startPos.1 b.endPos.1)
  return false

def conflictsWithOppositeColorMove (pendingMoves : List PendingMove) (clockMs : Int) (movingColor : PieceColor)
    (proposed : PendingMove) : Checked Bool :=
  match pendingMoves with
  | [] => .ok false
  | existing :: rest =>
      if clockMs ≥ existing.arrivalTime then conflictsWithOppositeColorMove rest clockMs movingColor proposed
      else if existing.color = movingColor then conflictsWithOppositeColorMove rest clockMs movingColor proposed
      else do
        if ← hasCommonRoute existing proposed then return true
        conflictsWithOppositeColorMove rest clockMs movingColor proposed

end KungFuChess
