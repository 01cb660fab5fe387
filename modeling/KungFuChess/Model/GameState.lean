import KungFuChess.Model.Realtime

/-!
# The game

`logic/game_state.cpp`: one board, one set of rules, the arbiter, the selection and the game-over flag.
`applyAction` is the only way a game changes; `runActions` is a whole game.
-/

namespace KungFuChess

inductive GameAction where
  | select (row col : Nat)
  | clearSelection
  | moveSelected (toRow toCol : Nat)
  | jumpSelected
  | jumpAt (row col : Nat)
  | advanceClock (milliseconds : Int)
deriving DecidableEq, Repr

@[ext]
structure GameState where
  board : BoardModel
  rules : GameRules
  arbiter : RealTimeArbiter := {}
  selected : Option Cell := none
  gameOver : Bool := false

namespace GameState

def new (board : BoardModel) : GameState := { board, rules := .standard }

variable (state : GameState)

def rows : Nat := state.board.rows

def cols : Nat := state.board.cols

def clockMs : Int := state.arbiter.clockMs

def pendingMoves : List PendingMove := state.arbiter.scheduler.pendingMoves

def activeJumps : List JumpState := state.arbiter.scheduler.activeJumps

def activeRests : RestMap := state.arbiter.scheduler.activeRests

def isGameOver : Bool := state.gameOver

def tokenAt (row col : Nat) : Text := state.board.tokenAt row col

/-- The tokens of the grid, row by row. -/
def gridTokens : List Text :=
  (List.range state.rows).flatMap fun row => (List.range state.cols).map (state.tokenAt row)

def winningColor : Option PieceColor :=
  if !state.gameOver then none
  else
    let whiteKing := toToken .white .king
    let blackKing := toToken .black .king
    let (whitePresent, blackPresent) := state.gridTokens.foldl (fun (white, black) token =>
      if token == whiteKing then (true, black)
      else if token == blackKing then (white, true)
      else (white, black)) (false, false)
    if whitePresent && !blackPresent then some .white
    else if blackPresent && !whitePresent then some .black
    else none

/-! ### Selection and piece queries -/

def isInBounds (row col : Nat) : Bool := state.board.isInBounds row col

def isPiece (row col : Nat) : Checked Bool :=
  if !state.isInBounds row col then .ok false
  else do return !(← state.board.isEmpty row col)

def isPieceMoving (row col : Nat) : Bool := state.arbiter.isPieceMoving row col

def isPieceJumping (row col : Nat) : Bool := state.arbiter.isPieceJumping row col

def isPieceResting (row col : Nat) : Bool :=
  match state.board.pieceAt row col with
  | none => false
  | some piece => state.arbiter.isPieceResting piece.id

def isSelectablePiece (row col : Nat) : Checked Bool := do
  return (← state.isPiece row col) && !state.isPieceMoving row col && !state.isPieceJumping row col
    && !state.isPieceResting row col

def isLegalMove (startRow startCol endRow endCol : Int) : Checked Bool :=
  match state.board.pieceAt (toSize startRow) (toSize startCol) with
  | none => .ok false
  | some moving => state.rules.isLegalMove state.board moving.kind startRow startCol endRow endCol

/-! ### Time -/

def addClock (ms : Int) : Checked GameState := do
  let (arbiter, board, gameOver) ← state.arbiter.updateTime ms state.board state.rules state.gameOver
  return { state with arbiter, board, gameOver }

def settlePendingMoves : Checked GameState := do
  let (arbiter, board, gameOver) ←
    state.arbiter.settlePendingMoves state.board state.rules state.gameOver
  return { state with arbiter, board, gameOver }

/-! ### Actions -/

def select (row col : Nat) : GameState :=
  if !state.isInBounds row col then state else { state with selected := some (row, col) }

def clearSelection : GameState := { state with selected := none }

def computeMoveDuration (fromRow fromCol toRow toCol : Nat) (isCapture : Bool) : Int :=
  if isCapture then state.rules.moveDurationMs
  else
    let rowDelta := if fromRow > toRow then fromRow - toRow else toRow - fromRow
    let colDelta := if fromCol > toCol then fromCol - toCol else toCol - fromCol
    (max rowDelta colDelta : Nat) * state.rules.moveDurationMs

def canMoveSelectedTo (fromRow fromCol toRow toCol : Nat) : Checked Bool :=
  if !state.isInBounds toRow toCol then .ok false
  else if state.isPieceMoving fromRow fromCol || state.isPieceJumping fromRow fromCol
      || state.isPieceResting fromRow fromCol then .ok false
  else match state.board.pieceAt fromRow fromCol with
    | none => .ok false
    | some moving => do
        if !(← state.isLegalMove (toInt fromRow) (toInt fromCol) (toInt toRow) (toInt toCol)) then
          return false
        return !state.arbiter.isSameColorDestinationClaimed moving.color (toRow, toCol)

def moveSelectedTo (toRow toCol : Nat) : Checked GameState :=
  match state.selected with
  | none => .ok state
  | some (fromRow, fromCol) => do
      if !(← state.canMoveSelectedTo fromRow fromCol toRow toCol) then return state
      match state.board.pieceAt fromRow fromCol with
      | none => .error .nullPiece
      | some moving => do
          let isCapture := (state.board.pieceAt toRow toCol).any (·.isOpponentOf moving)
          let moveDuration := state.computeMoveDuration fromRow fromCol toRow toCol isCapture
          let board ← state.board.setPieceState moving.id .moving
          let board ← board.clearCell fromRow fromCol
          let arbiter := state.arbiter.requestMove moving.id moving.color moving.kind
            (fromRow, fromCol) (toRow, toCol) moveDuration
          return clearSelection { state with board, arbiter }

def jumpAt (row col : Nat) : Checked GameState := do
  if !state.isInBounds row col then return state
  if ← state.board.isEmpty row col then return state
  if state.isPieceMoving row col || state.isPieceJumping row col || state.isPieceResting row col then
    return state
  match state.board.pieceAt row col with
  | none => return state
  | some piece => do
      let board ← state.board.setPieceState piece.id .moving
      let board ← board.clearCell row col
      let arbiter := state.arbiter.requestJump piece.id piece.color piece.kind (row, col)
        state.rules.jumpDurationMs
      return { state with board, arbiter }

def jumpSelected : Checked GameState :=
  match state.selected with
  | none => .ok state
  | some (row, col) => do return clearSelection (← state.jumpAt row col)

def applyAction : GameAction → Checked GameState
  | .select row col => .ok (state.select row col)
  | .clearSelection => .ok state.clearSelection
  | .moveSelected toRow toCol => state.moveSelectedTo toRow toCol
  | .jumpSelected => state.jumpSelected
  | .jumpAt row col => state.jumpAt row col
  | .advanceClock milliseconds => state.addClock milliseconds

def runActions (actions : List GameAction) : Checked GameState := actions.foldlM applyAction state

end GameState

/-- A board that `parse_board_rows` accepts. -/
def AcceptedBoard (board : BoardModel) : Prop :=
  ∃ lines before, parseBoardRows lines before = .ok (.ok, board)

/-- The games that can be reached from an accepted board under the standard rules. -/
def Reachable (state : GameState) : Prop :=
  ∃ board, AcceptedBoard board ∧ ∃ actions, (GameState.new board).runActions actions = .ok state

end KungFuChess
