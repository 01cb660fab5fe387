import KungFuChess.Model.GameState

/-!
# Matches

The part of `server/` that stands between the players and the game: `Match`, the permission check
`is_action_allowed`, and the loop of `ActiveRoomProcessor` that feeds the inputs of both players to the
match. Of a room only its match takes part. The call of the finish callback, after which the loop
returns, is the second result: the winner by resignation.
-/

namespace KungFuChess

structure Match where
  state : GameState

namespace Match

def new (board : BoardModel) : Match := ⟨GameState.new board⟩

def submitAction (m : Match) (action : GameAction) : Checked Match := do
  return ⟨← m.state.applyAction action⟩

def tick (m : Match) (deltaMs : Int) : Checked Match := do
  return ⟨← m.state.addClock deltaMs⟩

def isGameOver (m : Match) : Bool := m.state.isGameOver

end Match

/-! ### `is_action_allowed` -/

def pieceColorAt (state : GameState) (row col : Nat) : Checked (Option PieceColor) := do
  if !(← state.isPiece row col) then return none
  match descriptorFromToken (state.tokenAt row col) with
  | none => return none
  | some descriptor => return some descriptor.color

def isActionAllowed (playerSide : PieceColor) (m : Match) (action : GameAction) : Checked Bool :=
  let ownsPieceAt (row col : Nat) : Checked Bool := do
    return (← pieceColorAt m.state row col) == some playerSide
  match action with
  | .clearSelection => .ok true
  | .advanceClock _ => .ok false
  | .select row col => ownsPieceAt row col
  | .jumpAt row col => ownsPieceAt row col
  | .moveSelected _ _ | .jumpSelected =>
      match m.state.selected with
      | none => .ok false
      | some (row, col) => ownsPieceAt row col

/-! ### `ActiveRoomProcessor` -/

inductive RoomInputKind where
  | action
  | resign
deriving DecidableEq, Repr

structure RoomPlayerInput where
  playerSide : PieceColor
  kind : RoomInputKind
  action : GameAction
deriving DecidableEq, Repr

def opponentOf : PieceColor → PieceColor
  | .white => .black
  | .black => .white

/-- The match after the inputs, and the winner if one of them resigned. -/
def applyRoomInputs (m : Match) : List RoomPlayerInput → Checked (Match × Option PieceColor)
  | [] => .ok (m, none)
  | input :: inputs =>
      if input.kind = .resign then .ok (m, some (opponentOf input.playerSide))
      else do
        if ← isActionAllowed input.playerSide m input.action then
          applyRoomInputs (← m.submitAction input.action) inputs
        else applyRoomInputs m inputs

/-- What `process` does to a room between two inputs: a tick of the clock, or the inputs of one poll. -/
inductive RoomEvent where
  | tick (deltaMs : Int)
  | inputs (polled : List RoomPlayerInput)

def Match.handle (m : Match) : RoomEvent → Checked Match
  | .tick deltaMs => m.tick deltaMs
  | .inputs polled => do return (← applyRoomInputs m polled).1

/-- A match, through any interleaving of ticks and inputs. -/
def Match.run (m : Match) (events : List RoomEvent) : Checked Match := events.foldlM Match.handle m

end KungFuChess
