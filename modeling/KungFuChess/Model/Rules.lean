import KungFuChess.Model.Board

/-!
# Move rules

`logic/path_utils.cpp`, the validators under `rules/piece_rules/`, their registry, the move validator
and the standard rule set of `rules/game_rules.cpp`. Coordinates are `int` here, as in the source.
-/

namespace KungFuChess

/-! ### Paths -/

/-- The step of one coordinate, `(d == 0) ? 0 : (d > 0 ? 1 : -1)`. -/
def stepOf (d : Int) : Int := if d = 0 then 0 else if d > 0 then 1 else -1

/-- The `while` loop of `for_each_cell_on_path`: the cells visited until `(endRow, endCol)` is met.
`fuel` bounds the number of rounds. -/
def walkPath (endRow endCol stepR stepC : Int) : Nat → Int → Int → Checked (List (Int × Int))
  | 0, row, col => if row ≠ endRow ∨ col ≠ endCol then .error .pathHasNoEnd else .ok []
  | fuel + 1, row, col =>
      if row ≠ endRow ∨ col ≠ endCol then do
        let rest ← walkPath endRow endCol stepR stepC fuel (row + stepR) (col + stepC)
        return (row, col) :: rest
      else .ok []

/-- The cells `for_each_cell_on_path` hands to its visitor, in order. A walk that has not met its end
after as many rounds as the longer displacement has passed it and never will. -/
def forEachCellOnPath (startRow startCol endRow endCol : Int) : Checked (List (Int × Int)) :=
  let dr := endRow - startRow
  let dc := endCol - startCol
  walkPath endRow endCol (stepOf dr) (stepOf dc) (max dr.natAbs dc.natAbs)
    (startRow + stepOf dr) (startCol + stepOf dc)

/-! ### Piece rules -/

abbrev MoveValidatorFn := BoardModel → Int → Int → Int → Int → Checked Bool

/-- `is_path_clear`, written out once in `rook_rules.cpp` and once in `bishop_rules.cpp`. -/
def isPathClear (board : BoardModel) (startRow startCol endRow endCol : Int) : Checked Bool := do
  let cells ← forEachCellOnPath startRow startCol endRow endCol
  cells.foldlM (fun clear cell => do
    let empty ← board.isEmpty (toSize cell.1) (toSize cell.2)
    return if !empty then false else clear) true

def isRookMove : MoveValidatorFn := fun board startRow startCol endRow endCol =>
  if startRow ≠ endRow ∧ startCol ≠ endCol then .ok false
  else isPathClear board startRow startCol endRow endCol

def isBishopMove : MoveValidatorFn := fun board startRow startCol endRow endCol =>
  let dr := endRow - startRow
  let dc := endCol - startCol
  if dr.natAbs ≠ dc.natAbs then .ok false else isPathClear board startRow startCol endRow endCol

def isQueenMove : MoveValidatorFn := fun board startRow startCol endRow endCol => do
  if ← isRookMove board startRow startCol endRow endCol then return true
  isBishopMove board startRow startCol endRow endCol

def isKingMove : MoveValidatorFn := fun _ startRow startCol endRow endCol =>
  let adr := (endRow - startRow).natAbs
  let adc := (endCol - startCol).natAbs
  .ok (adr ≤ 1 && adc ≤ 1 && (adr != 0 || adc != 0))

def isKnightMove (dr dc : Int) : Bool :=
  (dr.natAbs == 2 && dc.natAbs == 1) || (dr.natAbs == 1 && dc.natAbs == 2)

def validateKnightMove : MoveValidatorFn := fun _ startRow startCol endRow endCol =>
  .ok (isKnightMove (endRow - startRow) (endCol - startCol))

def isPawnStartRow (board : BoardModel) (pawnColor : PieceColor) (startRow : Int) : Bool :=
  let rows := toInt board.rows
  if rows < 4 then false
  else match pawnColor with
    | .white => startRow == rows - 2
    | .black => startRow == 1

def isPawnMoveForPiece (board : BoardModel) (moving : Piece)
    (startRow startCol endRow endCol : Int) : Checked Bool :=
  let dr := endRow - startRow
  let dc := endCol - startCol
  let dest := board.pieceAt (toSize endRow) (toSize endCol)
  if dc = 0 then
    if dest.isSome then .ok false
    else if moving.isWhite && dr == -1 then .ok true
    else if moving.isBlack && dr == 1 then .ok true
    else if moving.isWhite && dr == -2 && isPawnStartRow board moving.color startRow then
      board.isEmpty (toSize (startRow - 1)) (toSize startCol)
    else if moving.isBlack && dr == 2 && isPawnStartRow board moving.color startRow then
      board.isEmpty (toSize (startRow + 1)) (toSize startCol)
    else .ok false
  else if dc.natAbs = 1 then
    match dest with
    | none => .ok false
    | some dest =>
        if moving.isWhite && dr == -1 then .ok dest.isBlack
        else if moving.isBlack && dr == 1 then .ok dest.isWhite
        else .ok false
  else .ok false

def isPawnMove : MoveValidatorFn := fun board startRow startCol endRow endCol =>
  match board.pieceAt (toSize startRow) (toSize startCol) with
  | none => .ok false
  | some moving => isPawnMoveForPiece board moving startRow startCol endRow endCol

structure PieceRuleEntry where
  validator : Option MoveValidatorFn := none
  requiresDestinationCheck : Bool := false

def getRuleEntry : PieceKind → PieceRuleEntry
  | .king => ⟨isKingMove, true⟩
  | .queen => ⟨isQueenMove, true⟩
  | .rook => ⟨isRookMove, true⟩
  | .bishop => ⟨isBishopMove, true⟩
  | .knight => ⟨validateKnightMove, true⟩
  | .pawn => ⟨isPawnMove, false⟩
  | .count => {}

/-! ### The move validator -/

def isDestinationLegal (board : BoardModel) (startRow startCol endRow endCol : Int) : Bool :=
  match board.pieceAt (toSize endRow) (toSize endCol) with
  | none => true
  | some dest =>
      match board.pieceAt (toSize startRow) (toSize startCol) with
      | none => false
      | some moving => moving.isOpponentOf dest

def isLegalMove (board : BoardModel) (kind : PieceKind) (startRow startCol endRow endCol : Int) :
    Checked Bool :=
  if board.rows = 0 ∨ board.cols = 0 then .ok false
  else if !board.contains startRow startCol || !board.contains endRow endCol then .ok false
  else if startRow = endRow ∧ startCol = endCol then .ok false
  else match (getRuleEntry kind).validator with
    | none => .ok false
    | some validator => do
        if !(← validator board startRow startCol endRow endCol) then return false
        if (getRuleEntry kind).requiresDestinationCheck then
          return isDestinationLegal board startRow startCol endRow endCol
        return true

/-! ### Game rules -/

structure GameRules where
  isLegalMove : BoardModel → PieceKind → Int → Int → Int → Int → Checked Bool
  onReachLastRow : Piece → Nat → Nat → Piece
  isGameOver : Piece → Bool
  moveDurationMs : Int := 1000
  jumpDurationMs : Int := 1000
  longRestDurationMs : Int := 1000
  shortRestDurationMs : Int := 1000

def kMoveDurationMs : Int := 1000
def kJumpDurationMs : Int := 1000
def kLongRestDurationMs : Int := 4500
def kShortRestDurationMs : Int := 2500

def promotePawnToQueen (piece : Piece) (endRow boardRows : Nat) : Piece :=
  if piece.kind ≠ .pawn then piece
  else
    let lastRow := boardRows - 1
    if piece.isWhite && endRow == 0 then { piece with kind := .queen }
    else if piece.isBlack && endRow == lastRow then { piece with kind := .queen }
    else piece

def kingCaptureEndsGame (lostPiece : Piece) : Bool := lostPiece.kind == .king

def GameRules.standard : GameRules where
  isLegalMove := KungFuChess.isLegalMove
  onReachLastRow := promotePawnToQueen
  isGameOver := kingCaptureEndsGame
  moveDurationMs := kMoveDurationMs
  jumpDurationMs := kJumpDurationMs
  longRestDurationMs := kLongRestDurationMs
  shortRestDurationMs := kShortRestDurationMs

end KungFuChess
