import KungFuChess.Model.GameState
import KungFuChess.Model.Snapshot

/-!
# The view of a game

`MoveScheduler::animations_at`, `ui/view/board_view_builder.cpp` and `ui/view/board_view_model.cpp`: what a client is
shown of a game. With it the question of `main_gui.cpp` whether a cell may be selected, which a client answers from
what it is shown.

The scheduler keeps its rests in an unordered map; here they come by id. Ids are 32 bits wide. The `float` type and the
division of two integers as floats are parameters.
-/

namespace KungFuChess

structure FloatRatio (F : Type) where
  zero : F
  one : F
  -- `static_cast<float>(a) / static_cast<float>(b)`
  ratio : Int → Int → F

section

variable {F : Type} (floats : FloatRatio F)

def computeAnimationProgress (clockMs startTime arrivalTime : Int) : F :=
  if clockMs ≥ arrivalTime then floats.one
  else if clockMs ≤ startTime then floats.zero
  else floats.ratio (clockMs - startTime) (arrivalTime - startTime)

/-- What is over at the time is not shown. -/
def MoveScheduler.animationsAt (scheduler : MoveScheduler) (clockMs : Int) : AnimationSnapshot F where
  moves := scheduler.pendingMoves.filterMap fun move =>
    if clockMs ≥ move.arrivalTime then none
    else some ⟨.ofNat move.pieceId, move.kind, move.color, move.startPos.1, move.startPos.2, move.endPos.1,
      move.endPos.2, computeAnimationProgress floats clockMs move.startTime move.arrivalTime⟩
  jumps := scheduler.activeJumps.filterMap fun jump =>
    if clockMs ≥ jump.arrivalTime then none
    else some ⟨.ofNat jump.pieceId, jump.kind, jump.color, jump.cell.1, jump.cell.2,
      computeAnimationProgress floats clockMs jump.startTime jump.arrivalTime⟩
  rests := scheduler.activeRests.entries.filterMap fun (pieceId, rest) =>
    if clockMs ≥ rest.endTimeMs then none
    else some ⟨.ofNat pieceId, rest.row, rest.col, rest.kind,
      computeAnimationProgress floats clockMs rest.startTimeMs rest.endTimeMs⟩

def RealTimeArbiter.animationsForRender (arbiter : RealTimeArbiter) : AnimationSnapshot F :=
  arbiter.scheduler.animationsAt floats arbiter.clockMs

def GameState.animationsForRender (state : GameState) : AnimationSnapshot F := state.arbiter.animationsForRender floats

/-! ### `BoardViewBuilder` -/

def cellViewOf (token : Text) : CellView :=
  match descriptorFromToken token with
  | some descriptor => ⟨some ⟨descriptor.kind, descriptor.color⟩⟩
  | none => {}

def buildBoardView (state : GameState) : BoardViewModel F where
  height := state.rows
  width := state.cols
  clockMs := state.clockMs
  gameOver := state.isGameOver
  selection := state.selected
  cells := (List.range state.rows).flatMap fun row =>
    (List.range state.cols).map fun col => cellViewOf (state.tokenAt row col)
  animations := state.animationsForRender floats

end

/-! ### What a client asks -/

section

variable {F : Type} (view : BoardViewModel F)

def findRestAt (row col : Nat) : Option (ActiveRestSnapshot F) :=
  view.animations.rests.find? fun rest => rest.row == row && rest.col == col

def boardViewPieceAt (row col : Nat) : Option PieceView := (boardViewCellAt view row col).piece

def boardViewIsMoveOrigin (row col : Nat) : Bool :=
  view.animations.moves.any fun move => move.fromRow == row && move.fromCol == col

def boardViewIsJumpOrigin (row col : Nat) : Bool :=
  view.animations.jumps.any fun jump => jump.row == row && jump.col == col

def boardViewIsRestingCell (row col : Nat) : Bool := (findRestAt view row col).isSome

def viewIsSelectablePiece (row col : Nat) : Bool :=
  if !(boardViewPieceAt view row col).isSome then false
  else if boardViewIsMoveOrigin view row col then false
  else if boardViewIsJumpOrigin view row col then false
  else !boardViewIsRestingCell view row col

end

end KungFuChess
