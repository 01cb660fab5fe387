import Mathlib.Data.Nat.Basic
import KungFuChess.Lib.OrdMap
import KungFuChess.Lib.Loops
import KungFuChess.Model.Rules

/-!
# Moves in flight

The scheduler, the collision resolver and the arbiter of `realtime/`. A member function that changes
the board, the game-over flag or the queues returns their new values. The conversions of the clock to
`uint64_t` and back cancel, so the clock is passed as it is.
-/

namespace KungFuChess

structure PendingMove where
  pieceId : Nat
  color : PieceColor
  kind : PieceKind
  startPos : Cell
  endPos : Cell
  startTime : Int
  arrivalTime : Int
deriving DecidableEq, Repr

structure JumpState where
  pieceId : Nat
  color : PieceColor
  kind : PieceKind
  cell : Cell
  startTime : Int
  arrivalTime : Int
deriving DecidableEq, Repr

inductive RestKind where
  | short
  | long
deriving DecidableEq, Repr

/-- The times are `int` in the source, narrowed from 64-bit times. -/
structure ActiveRest where
  kind : RestKind
  startTimeMs : Int
  endTimeMs : Int
  row : Nat
  col : Nat
deriving DecidableEq, Repr

abbrev RestMap := OrdMap Nat ActiveRest

@[ext]
structure MoveScheduler where
  pendingMoves : List PendingMove := []
  activeJumps : List JumpState := []
  activeRests : RestMap := OrdMap.empty
deriving DecidableEq

/-! ### `CollisionResolver` -/

def isSameColorDestinationClaimed (pendingMoves : List PendingMove) (clockMs : Int)
    (movingColor : PieceColor) (endPos : Cell) : Bool :=
  pendingMoves.any fun existing =>
    decide (clockMs < existing.arrivalTime) && existing.color == movingColor
      && existing.endPos == endPos

/-- The jump that takes a piece of colour `color` arriving on `targetCell`. -/
def capturingJump (clockMs : Int) (activeJumps : List JumpState) (targetCell : Cell)
    (color : PieceColor) : Option JumpState :=
  activeJumps.find? fun jump =>
    decide (clockMs ≤ jump.arrivalTime) && jump.cell == targetCell && color != jump.color

/-- Whether the arrival was resolved as a capture, with the board and the game-over flag after it. -/
def checkForJumpCapture (board : BoardModel) (rules : GameRules) (clockMs : Int)
    (activeJumps : List JumpState) (targetCell : Cell) (arrivingPieceId : Nat)
    (gameOver : Bool) : Checked (Bool × BoardModel × Bool) := do
  let arriving ← board.getPiece arrivingPieceId
  match capturingJump clockMs activeJumps targetCell arriving.color with
  | some _ => return (true, board, if rules.isGameOver arriving then true else gameOver)
  | none =>
      match board.pieceAt targetCell.1 targetCell.2 with
      | none => return (false, board, gameOver)
      | some destination =>
          if destination.color != arriving.color then
            let gameOver := if rules.isGameOver destination then true else gameOver
            let board ← board.removePieceAt targetCell.1 targetCell.2
            let arriving ← board.getPiece arrivingPieceId
            let placed := rules.onReachLastRow arriving targetCell.1 board.rows
            let board ← board.placePiece
              { placed with cell := positionOf targetCell.1 targetCell.2, state := .idle }
            return (true, board, gameOver)
          else return (false, board, gameOver)

/-! ### `MoveScheduler` -/

namespace MoveScheduler

variable (scheduler : MoveScheduler)

def isPieceMoving (clockMs : Int) (row col : Nat) : Bool :=
  scheduler.pendingMoves.any fun move =>
    decide (clockMs < move.arrivalTime) && move.startPos.1 == row && move.startPos.2 == col

def isPieceJumping (clockMs : Int) (row col : Nat) : Bool :=
  scheduler.activeJumps.any fun jump =>
    decide (clockMs < jump.arrivalTime) && jump.cell.1 == row && jump.cell.2 == col

def isPieceResting (clockMs : Int) (pieceId : Nat) : Bool :=
  match scheduler.activeRests.find? pieceId with
  | none => false
  | some rest => decide (clockMs < rest.endTimeMs)

/-- Calls `fn` for each due move and gives back the moves still pending. -/
def forEachPendingDue {σ : Type} (clockMs : Int) (fn : σ → PendingMove → Checked σ)
    (pendingMoves : List PendingMove) (s : σ) : Checked (σ × List PendingMove) :=
  Loops.drain (fun move => !decide (clockMs < move.arrivalTime)) fn pendingMoves s

/-- Erases the first pending move of the piece, if any. -/
def cancelPendingMove (pieceId : Nat) : MoveScheduler :=
  { scheduler with
    pendingMoves := scheduler.pendingMoves.eraseP fun move => move.pieceId == pieceId }

def scheduleMove (move : PendingMove) : MoveScheduler :=
  { scheduler with pendingMoves := scheduler.pendingMoves ++ [move] }

def scheduleJump (jump : JumpState) : MoveScheduler :=
  { scheduler with activeJumps := scheduler.activeJumps ++ [jump] }

/-- Calls `onComplete` for each jump that has ended and gives back the others. -/
def expireJumps {σ : Type} (clockMs : Int) (onComplete : σ → JumpState → Checked σ)
    (activeJumps : List JumpState) (s : σ) : Checked (σ × List JumpState) :=
  Loops.drain (fun jump => !decide (clockMs < jump.arrivalTime)) onComplete activeJumps s

end MoveScheduler

def expireRests (clockMs : Int) (rests : RestMap) : RestMap :=
  rests.filter fun _ rest => !decide (clockMs ≥ rest.endTimeMs)

/-- `schedule_rest`, called with a rest that runs from `arrivalTime` for `duration`. -/
def scheduleRest (rests : RestMap) (pieceId : Nat) (kind : RestKind)
    (arrivalTime duration : Int) (cell : Cell) : RestMap :=
  rests.insert pieceId
    ⟨kind, narrowTime arrivalTime, narrowTime (arrivalTime + duration), cell.1, cell.2⟩

/-! ### `RealTimeArbiter` -/

/-- Whether a move in flight is still playable on the board as it is. -/
def canSettleMove (board : BoardModel) (move : PendingMove) : Checked Bool := do
  let (startRow, startCol) := move.startPos
  let (endRow, endCol) := move.endPos
  let piece ← board.getPiece move.pieceId
  let rule := getRuleEntry piece.kind
  match rule.validator with
  | none => return false
  | some validator => do
      let validated : Checked Bool :=
        if piece.kind = .pawn then
          isPawnMoveForPiece board piece (toInt startRow) (toInt startCol) (toInt endRow) (toInt endCol)
        else validator board (toInt startRow) (toInt startCol) (toInt endRow) (toInt endCol)
      if !(← validated) then return false
      if rule.requiresDestinationCheck then
        match board.pieceAt endRow endCol with
        | none => return true
        | some dest => return piece.isOpponentOf dest
      return true

def restorePieceToCell (board : BoardModel) (pieceId : Nat) (row col : Nat) :
    Checked BoardModel := do
  let board ← board.setPieceState pieceId .idle
  if (board.pieceAt row col).any (·.id == pieceId) then return board
  let empty ← board.isEmpty row col
  let cleared : Checked BoardModel := if !empty then board.removePieceAt row col else .ok board
  let board ← cleared
  let updated ← board.getPiece pieceId
  board.placePieceAt row col { updated with cell := positionOf row col }

def restoreAbortedMove (board : BoardModel) (move : PendingMove) : Checked BoardModel :=
  restorePieceToCell board move.pieceId move.startPos.1 move.startPos.2

def restoreJumper (board : BoardModel) (jump : JumpState) : Checked BoardModel :=
  restorePieceToCell board jump.pieceId jump.cell.1 jump.cell.2

/-- What the callback of `settle_pending_moves` changes. -/
structure Settling where
  board : BoardModel
  rests : RestMap
  gameOver : Bool
  boardChanged : Bool
deriving DecidableEq

/-- The callback of `settle_pending_moves` for one due move. -/
def settleDueMove (rules : GameRules) (clockMs : Int) (activeJumps : List JumpState)
    (s : Settling) (move : PendingMove) : Checked Settling := do
  if !(← canSettleMove s.board move) then
    let board ← restoreAbortedMove s.board move
    return { s with board }
  let (startRow, startCol) := move.startPos
  let (endRow, endCol) := move.endPos
  let released : Checked BoardModel :=
    if (s.board.pieceAt startRow startCol).any (·.id == move.pieceId) then
      s.board.clearCell startRow startCol
    else .ok s.board
  let board ← released
  let arriving ← board.getPiece move.pieceId
  let capturedOpponentId :=
    match board.pieceAt endRow endCol with
    | some opponent => if opponent.isOpponentOf arriving then opponent.id else kInvalidId
    | none => kInvalidId
  let (captured, board, gameOver) ←
    checkForJumpCapture board rules clockMs activeJumps move.endPos move.pieceId s.gameOver
  if !captured then
    let updated ← board.getPiece move.pieceId
    let updated := rules.onReachLastRow updated endRow board.rows
    let board ← board.placePiece { updated with cell := positionOf endRow endCol, state := .idle }
    let rests := scheduleRest s.rests move.pieceId .long move.arrivalTime rules.longRestDurationMs
      move.endPos
    return ⟨board, rests, gameOver, true⟩
  else if (board.pieceAt endRow endCol).any (·.id == move.pieceId) then
    let rests := if capturedOpponentId ≠ kInvalidId then s.rests.erase capturedOpponentId else s.rests
    let rests := scheduleRest rests move.pieceId .long move.arrivalTime rules.longRestDurationMs
      move.endPos
    return ⟨board, rests, gameOver, true⟩
  else
    let board ← board.setPieceState move.pieceId .captured
    return ⟨board, s.rests.erase move.pieceId, gameOver, s.boardChanged⟩

/-- The moves in flight that are no longer playable, in queue order. -/
def invalidInFlightMoves (board : BoardModel) (clockMs : Int) (pendingMoves : List PendingMove) :
    Checked (List PendingMove) :=
  pendingMoves.foldlM (fun invalid move => do
    if clockMs < move.arrivalTime then
      if !(← canSettleMove board move) then return invalid ++ [move]
    return invalid) []

def cancelInvalidInFlightMoves (board : BoardModel) (clockMs : Int) (scheduler : MoveScheduler) :
    Checked (BoardModel × MoveScheduler) := do
  let invalid ← invalidInFlightMoves board clockMs scheduler.pendingMoves
  invalid.foldlM (fun (board, scheduler) move => do
    let board ← restoreAbortedMove board move
    return (board, scheduler.cancelPendingMove move.pieceId)) (board, scheduler)

/-- The callback of `expire_jumps`. -/
def finishJump (rules : GameRules) (s : BoardModel × RestMap) (jump : JumpState) :
    Checked (BoardModel × RestMap) := do
  let board ← restoreJumper s.1 jump
  return (board, scheduleRest s.2 jump.pieceId .short jump.arrivalTime rules.shortRestDurationMs
    jump.cell)

@[ext]
structure RealTimeArbiter where
  scheduler : MoveScheduler := {}
  clockMs : Int := 0
deriving DecidableEq

namespace RealTimeArbiter

variable (arbiter : RealTimeArbiter)

def settlePendingMoves (board : BoardModel) (rules : GameRules) (gameOver : Bool) :
    Checked (RealTimeArbiter × BoardModel × Bool) := do
  let clockMs := arbiter.clockMs
  let scheduler := arbiter.scheduler
  let (settled, pendingMoves) ←
    MoveScheduler.forEachPendingDue clockMs (settleDueMove rules clockMs scheduler.activeJumps)
      scheduler.pendingMoves ⟨board, scheduler.activeRests, gameOver, false⟩
  let scheduler := { scheduler with pendingMoves, activeRests := settled.rests }
  let cancelled : Checked (BoardModel × MoveScheduler) :=
    if settled.boardChanged then cancelInvalidInFlightMoves settled.board clockMs scheduler
    else .ok (settled.board, scheduler)
  let (board, scheduler) ← cancelled
  let ((board, rests), activeJumps) ←
    MoveScheduler.expireJumps clockMs (finishJump rules) scheduler.activeJumps
      (board, scheduler.activeRests)
  let scheduler := { scheduler with activeJumps, activeRests := expireRests clockMs rests }
  return ({ arbiter with scheduler }, board, settled.gameOver)

def updateTime (ms : Int) (board : BoardModel) (rules : GameRules) (gameOver : Bool) :
    Checked (RealTimeArbiter × BoardModel × Bool) :=
  settlePendingMoves { arbiter with clockMs := arbiter.clockMs + ms } board rules gameOver

def isPieceMoving (row col : Nat) : Bool := arbiter.scheduler.isPieceMoving arbiter.clockMs row col

def isPieceJumping (row col : Nat) : Bool := arbiter.scheduler.isPieceJumping arbiter.clockMs row col

def isPieceResting (pieceId : Nat) : Bool :=
  arbiter.scheduler.isPieceResting arbiter.clockMs pieceId

def isSameColorDestinationClaimed (color : PieceColor) (endPos : Cell) : Bool :=
  KungFuChess.isSameColorDestinationClaimed arbiter.scheduler.pendingMoves arbiter.clockMs color endPos

def requestMove (pieceId : Nat) (color : PieceColor) (kind : PieceKind) (startPos endPos : Cell)
    (moveDurationMs : Int) : RealTimeArbiter :=
  { arbiter with
    scheduler := arbiter.scheduler.scheduleMove
      ⟨pieceId, color, kind, startPos, endPos, arbiter.clockMs, arbiter.clockMs + moveDurationMs⟩ }

def requestJump (pieceId : Nat) (color : PieceColor) (kind : PieceKind) (cell : Cell)
    (jumpDurationMs : Int) : RealTimeArbiter :=
  { arbiter with
    scheduler := arbiter.scheduler.scheduleJump
      ⟨pieceId, color, kind, cell, arbiter.clockMs, arbiter.clockMs + jumpDurationMs⟩ }

end RealTimeArbiter

end KungFuChess
