import Mathlib.Data.Nat.Digits.Defs
import KungFuChess.Model.Layout
import KungFuChess.Model.Runtime

/-!
# What drives a game

The three parts of the program that hand inputs to a game: `io/game_input_handler.cpp` for the text commands and for the
pixels of the mouse, `ui/controller/ui_controller.cpp` for the frames of the window, and the round of
`server/room/active_room_processor.cpp` for the two players of a room. All of them change a `GameState` they do not own.
The view that a frame builds and draws changes nothing.
-/

namespace KungFuChess

/-! ### Commands -/

/-- `stream >> word` of an `std::istringstream`: the word and the rest of the stream. -/
def extractWord (stream : Text) : Option (Text × Text) :=
  match stream.dropWhile isSpace with
  | [] => none
  | c :: rest =>
      let stream := c :: rest
      some (stream.takeWhile fun c => !isSpace c, stream.dropWhile fun c => !isSpace c)

/-- `stream >> number` for a signed type of so many bits: a sign, if any, and the digits after it. It fails without
digits and on a number that does not fit. -/
def extractInt (bits : Nat) (stream : Text) : Option (Int × Text) :=
  let stream := stream.dropWhile isSpace
  let (negative, stream) :=
    match stream with
    | '-' :: rest => (true, rest)
    | '+' :: rest => (false, rest)
    | _ => (false, stream)
  let digits := stream.takeWhile Char.isDigit
  if digits.isEmpty then none
  else
    let magnitude : Int := Nat.ofDigitChars 10 digits 0
    let number := if negative then -magnitude else magnitude
    if -(2 ^ (bits - 1)) ≤ number ∧ number < 2 ^ (bits - 1) then some (number, stream.dropWhile Char.isDigit)
    else none

def kPrintBoardCommand : Text := "print board".toList

/-- `write_board` of `io/board_writer.cpp`. -/
def writeBoard (board : BoardModel) : Text :=
  ['\n'].intercalate ((List.range board.rows).map fun row =>
    [' '].intercalate ((List.range board.cols).map (board.tokenAt row)))

namespace GameState

variable (state : GameState)

def isFriendlyToSelection (row col : Nat) : Checked Bool :=
  match state.selected with
  | none => .ok false
  | some (fromRow, fromCol) => do
      if !(← state.isSelectablePiece row col) then return false
      match state.board.pieceAt fromRow fromCol, state.board.pieceAt row col with
      | some selectedPiece, some cellPiece => return cellPiece.isSameColorAs selectedPiece
      | _, _ => return false

/-- What is printed, and the game, which is settled first. -/
def writeBoard : Checked (Text × GameState) := do
  let state ← state.settlePendingMoves
  return (KungFuChess.writeBoard state.board, state)

end GameState

/-! ### `GameInputHandler` -/

structure GameInputHandler where
  layout : BoardLayout := {}
deriving DecidableEq, Repr

namespace GameInputHandler

/-- `bootstrap_default_layout`. -/
def new (state : GameState) : GameInputHandler :=
  if state.rows = 0 ∨ state.cols = 0 then {}
  else
    let window := defaultInitialWindowSize state.rows state.cols
    ⟨calculateLayout window.width window.height (toInt state.cols) (toInt state.rows)⟩

variable (handler : GameInputHandler) (state : GameState)

def pixelToCell (x y : Int) : Option Cell :=
  if state.rows = 0 ∨ state.cols = 0 then none
  else handler.layout.tryPixelToCell x y state.cols state.rows

def handleSelect (row col : Nat) : Checked GameState := do
  if ← state.isSelectablePiece row col then return state.select row col
  return state

/-- A click on the selected piece itself makes it jump. -/
def handleFriendlyClick (row col : Nat) : Checked GameState :=
  match state.selected with
  | some (fromRow, fromCol) =>
      if fromRow = row ∧ fromCol = col then
        if !state.isPieceMoving fromRow fromCol && !state.isPieceJumping fromRow fromCol
            && !state.isPieceResting fromRow fromCol then state.jumpSelected
        else .ok state
      else .ok (state.select row col)
  | none => .ok (state.select row col)

def handleMoveAttempt (row col : Nat) : Checked GameState :=
  match state.selected with
  | none => .ok state
  | some (fromRow, fromCol) =>
      if state.isPieceMoving fromRow fromCol || state.isPieceJumping fromRow fromCol
          || state.isPieceResting fromRow fromCol then .ok state
      else state.moveSelectedTo row col

def handleClick (x y : Int) : Checked GameState :=
  if state.isGameOver then .ok state
  else match handler.pixelToCell state x y with
    | none => .ok state
    | some (row, col) =>
        if !state.isInBounds row col then .ok state
        else if state.selected.isNone then handleSelect state row col
        else do
          if ← state.isFriendlyToSelection row col then handleFriendlyClick state row col
          else handleMoveAttempt state row col

def handleJump (x y : Int) : Checked GameState :=
  if state.isGameOver then .ok state
  else match handler.pixelToCell state x y with
    | none => .ok state
    | some (row, col) =>
        if !state.isInBounds row col then .ok state
        else if state.isPieceMoving row col || state.isPieceJumping row col || state.isPieceResting row col then .ok state
        else do return (← state.jumpAt row col).clearSelection

def handleWait (ms : Int) : Checked GameState := if state.isGameOver then .ok state else state.addClock ms

/-- What the command prints, and the game after it. -/
def execute (command : Text) : Checked (Text × GameState) :=
  match extractWord command with
  | none => .ok ([], state)
  | some (verb, stream) =>
      if verb = "click".toList then
        match extractInt 32 stream with
        | none => .ok ([], state)
        | some (x, stream) =>
            match extractInt 32 stream with
            | none => .ok ([], state)
            | some (y, _) => do return ([], ← handler.handleClick state x y)
      else if verb = "jump".toList then
        match extractInt 32 stream with
        | none => .ok ([], state)
        | some (x, stream) =>
            match extractInt 32 stream with
            | none => .ok ([], state)
            | some (y, _) => do return ([], ← handler.handleJump state x y)
      else if verb = "wait".toList then
        match extractInt 64 stream with
        | none => .ok ([], state)
        | some (ms, _) => do return ([], ← handleWait state ms)
      else if verb = "print".toList ∧ command = kPrintBoardCommand then do
        let (printed, state) ← state.writeBoard
        return (printed ++ ['\n'], state)
      else .ok ([], state)

end GameInputHandler

/-! ### `GameEngine` -/

structure GameEngine where
  state : GameState
  processor : GameInputHandler

namespace GameEngine

def new (board : BoardModel) : GameEngine :=
  let state := GameState.new board
  ⟨state, .new state⟩

variable (engine : GameEngine)

def execute (command : Text) : Checked (Text × GameEngine) := do
  let (printed, state) ← engine.processor.execute engine.state command
  return (printed, { engine with state })

/-- What the commands print, one after the other, and the engine after them. -/
def executeAll (engine : GameEngine) : List Text → Checked (Text × GameEngine)
  | [] => .ok ([], engine)
  | command :: commands => do
      let (printed, engine) ← engine.execute command
      let (later, engine) ← engine.executeAll commands
      return (printed ++ later, engine)

end GameEngine

/-! ### `UiController` -/

/-- A controller with a game of its own. -/
structure UiController where
  processor : GameInputHandler
deriving DecidableEq, Repr

/-- The layout is the one that the renderer has at the time. -/
def UiController.frame (rendered : BoardLayout) (deltaMs : Int) (state : GameState) :
    Checked (UiController × GameState) := do
  let controller : UiController := ⟨⟨rendered⟩⟩
  return (controller, ← state.addClock deltaMs)

/-! ### `ActiveRoomProcessor` -/

/-- The part of a round of `process` between the look at the connections and the end of the game, on the match of the
room. It is the end of the game that resets the room. -/
def Match.process (m : Match) (elapsed : Int) (active : Bool) (polled : List RoomPlayerInput) : Checked Match := do
  let ticked : Checked Match := if elapsed ≥ kTargetFrameMs ∧ !m.isGameOver then m.tick elapsed else .ok m
  let m ← ticked
  if active && !m.isGameOver then return (← applyRoomInputs m polled).1
  return m

/-! ### All of them on one game -/

structure Drivers where
  state : GameState
  engine : GameInputHandler
  controller : UiController

inductive DriverInput where
  | command (text : Text)
  | frame (rendered : BoardLayout) (deltaMs : Int)
  | pixelClick (x y : Int)
  | pixelJump (x y : Int)
  | process (elapsed : Int) (active : Bool) (polled : List RoomPlayerInput)

namespace Drivers

def new (state : GameState) (rendered : BoardLayout) : Drivers := ⟨state, .new state, ⟨⟨rendered⟩⟩⟩

variable (drivers : Drivers)

def handle : DriverInput → Checked Drivers
  | .command text => do return { drivers with state := (← drivers.engine.execute drivers.state text).2 }
  | .frame rendered deltaMs => do
      let (controller, state) ← UiController.frame rendered deltaMs drivers.state
      return { drivers with state, controller }
  | .pixelClick x y => do
      return { drivers with state := ← drivers.controller.processor.handleClick drivers.state x y }
  | .pixelJump x y => do
      return { drivers with state := ← drivers.controller.processor.handleJump drivers.state x y }
  | .process elapsed active polled => do
      return { drivers with state := (← Match.process ⟨drivers.state⟩ elapsed active polled).state }

def run (inputs : List DriverInput) : Checked Drivers := inputs.foldlM handle drivers

end Drivers

end KungFuChess
