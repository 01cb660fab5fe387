import KungFuChess.Model.Realtime

/-!
# Snapshots

The view of a board that the server sends to its clients, with the text format of
`server/snapshot_writer.cpp` and its reader `network/snapshot_reader.cpp`. A list of lines stands for the
lines of the reader from its line index on.

Two things can stop the reader short of a result: a signed overflow in `parse_int64`, and `reserve` with
more cells than a vector can hold. A product of two `std::size_t` wraps and goes on.

The `float` type, the printing of one with six decimals and `std::strtof` are parameters.
-/

namespace KungFuChess

structure FloatText (F : Type) where
  -- `std::fixed << std::setprecision(6) << value`
  print : F → Text
  -- the value read and the number of characters it took
  strtof : Text → F × Nat

/-! ### The view -/

structure PieceView where
  kind : PieceKind
  color : PieceColor
deriving DecidableEq, Repr

structure CellView where
  piece : Option PieceView := none
deriving DecidableEq, Repr

structure ActiveMoveSnapshot (F : Type) where
  pieceId : UInt32
  kind : PieceKind
  color : PieceColor
  fromRow : Nat
  fromCol : Nat
  toRow : Nat
  toCol : Nat
  progress : F
deriving DecidableEq, Repr

structure ActiveJumpSnapshot (F : Type) where
  pieceId : UInt32
  kind : PieceKind
  color : PieceColor
  row : Nat
  col : Nat
  progress : F
deriving DecidableEq, Repr

structure ActiveRestSnapshot (F : Type) where
  pieceId : UInt32
  row : Nat
  col : Nat
  kind : RestKind
  progress : F
deriving DecidableEq, Repr

structure AnimationSnapshot (F : Type) where
  moves : List (ActiveMoveSnapshot F) := []
  jumps : List (ActiveJumpSnapshot F) := []
  rests : List (ActiveRestSnapshot F) := []
deriving DecidableEq, Repr

structure BoardViewModel (F : Type) where
  height : Nat := 0
  width : Nat := 0
  clockMs : Int := 0
  gameOver : Bool := false
  selection : Option Cell := none
  cells : List CellView := []
  animations : AnimationSnapshot F := {}
deriving DecidableEq, Repr

section

variable {F : Type}

def boardViewCellIndex (row col width : Nat) : Nat := row * width + col

def boardViewCellAt (view : BoardViewModel F) (row col : Nat) : CellView :=
  if row ≥ view.height ∨ col ≥ view.width then {}
  else (view.cells[boardViewCellIndex row col view.width]?).getD {}

/-! ### `write_snapshot` -/

/-- `out << n` for an unsigned number. -/
def decimal (n : Nat) : Text := Nat.toDigits 10 n

/-- `out << i` for a signed number. -/
def signedDecimal (i : Int) : Text := if i < 0 then '-' :: decimal i.natAbs else decimal i.natAbs

def writeCellToken (cell : CellView) : Text :=
  match cell.piece with
  | some piece => toToken piece.color piece.kind
  | none => ['.']

def restKindToken : RestKind → Text
  | .short => "short".toList
  | .long => "long".toList

variable (floats : FloatText F)

def writeMoveSnapshot (move : ActiveMoveSnapshot F) : Text :=
  "move piece_id ".toList ++ decimal move.pieceId.toNat ++ " piece ".toList
    ++ toToken move.color move.kind ++ " from ".toList ++ decimal move.fromRow ++ [' ']
    ++ decimal move.fromCol ++ " to ".toList ++ decimal move.toRow ++ [' '] ++ decimal move.toCol
    ++ " progress ".toList ++ floats.print move.progress ++ ['\n']

def writeJumpSnapshot (jump : ActiveJumpSnapshot F) : Text :=
  "jump piece_id ".toList ++ decimal jump.pieceId.toNat ++ " piece ".toList
    ++ toToken jump.color jump.kind ++ " row ".toList ++ decimal jump.row ++ [' '] ++ decimal jump.col
    ++ " progress ".toList ++ floats.print jump.progress ++ ['\n']

def writeRestSnapshot (rest : ActiveRestSnapshot F) : Text :=
  "rest piece_id ".toList ++ decimal rest.pieceId.toNat ++ " row ".toList ++ decimal rest.row ++ [' ']
    ++ decimal rest.col ++ " kind ".toList ++ restKindToken rest.kind ++ " progress ".toList
    ++ floats.print rest.progress ++ ['\n']

/-- The inner loop over the columns. -/
def writeRow (view : BoardViewModel F) (row : Nat) : Text :=
  (List.range view.width).flatMap fun col =>
    (if col > 0 then [' '] else []) ++ writeCellToken (boardViewCellAt view row col)

def writeCells (view : BoardViewModel F) : Text :=
  (List.range view.height).flatMap fun row =>
    writeRow view row ++ if row + 1 < view.height then ['\n'] else []

def writeSelection : Option Cell → Text
  | some (row, col) => "selection ".toList ++ decimal row ++ [' '] ++ decimal col ++ ['\n']
  | none => []

def writeSnapshot (view : BoardViewModel F) : Text :=
  "snapshot\n".toList
    ++ "clock_ms ".toList ++ signedDecimal view.clockMs ++ ['\n']
    ++ "game_over ".toList ++ (if view.gameOver then "true".toList else "false".toList) ++ ['\n']
    ++ "height ".toList ++ decimal view.height ++ ['\n']
    ++ "width ".toList ++ decimal view.width ++ ['\n']
    ++ writeSelection view.selection
    ++ "cells\n".toList ++ writeCells view
    ++ "\nanimations\nmoves\n".toList ++ view.animations.moves.flatMap (writeMoveSnapshot floats)
    ++ "jumps\n".toList ++ view.animations.jumps.flatMap (writeJumpSnapshot floats)
    ++ "rests\n".toList ++ view.animations.rests.flatMap (writeRestSnapshot floats)

end

/-! ### Lines, tokens and numbers -/

/-- `current` is the line being read. -/
def splitLinesFrom (current : Text) : Text → List Text
  | [] => if current.isEmpty then [] else [current]
  | ch :: rest =>
      if ch = '\r' then splitLinesFrom current rest
      else if ch = '\n' then current :: splitLinesFrom [] rest
      else splitLinesFrom (current ++ [ch]) rest

def splitLines (text : Text) : List Text := splitLinesFrom [] text

def splitTokens (line : Text) : List Text := splitFrom [] line

/-- What stops the reader short of a result. -/
inductive SnapshotFault where
  -- a value leaves the range of `std::int64_t`
  | signedOverflow
  -- `std::length_error`, thrown by `reserve`
  | lengthError
deriving DecidableEq, Repr

abbrev Reading := Except SnapshotFault

/-- The loop of `parse_int64`. -/
def parseDigits (value : Nat) : Text → Reading (Option Nat)
  | [] => .ok (some value)
  | ch :: rest =>
      if !ch.isDigit then .ok none
      else
        let value := value * 10 + (ch.toNat - '0'.toNat)
        if value ≥ 2 ^ 63 then .error .signedOverflow else parseDigits value rest

/-- No sign is read, so the values are natural numbers. -/
def parseInt64 (token : Text) : Reading (Option Nat) :=
  if token.isEmpty then .ok none else parseDigits 0 token

/-- The check for a negative value never fires. -/
def parseNonNegativeSize (token : Text) : Reading (Option Nat) := parseInt64 token

def parseBool (token : Text) : Option Bool :=
  if token = "true".toList then some true
  else if token = "false".toList then some false
  else none

def parseCellToken (token : Text) : Option CellView :=
  if !isValidToken token then none
  else match descriptorFromToken token with
    | some descriptor => some ⟨some ⟨descriptor.kind, descriptor.color⟩⟩
    | none => some {}

/-- The narrowing to `Piece::Id` drops the high bits. -/
def parsePieceId (token : Text) : Reading (Option UInt32) := do
  return (← parseInt64 token).map UInt32.ofNat

def parseRestKind (token : Text) : Option RestKind :=
  if token = "short".toList then some .short
  else if token = "long".toList then some .long
  else none

def isSectionMarker (tokens : List Text) (marker : Text) : Bool := tokens == [marker]

/-! ### `read_snapshot` -/

section

variable {F : Type} (floats : FloatText F)

def parseFloat (token : Text) : Option F :=
  if token.isEmpty then none
  else
    let (value, consumed) := floats.strtof token
    if consumed ≠ token.length then none else some value

def parseMoveLine : List Text → Reading (Option (ActiveMoveSnapshot F))
  | [word, idWord, id, pieceWord, piece, fromWord, fromRow, fromCol, toWord, toRow, toCol, progressWord,
      progress] =>
      if word ≠ "move".toList ∨ idWord ≠ "piece_id".toList ∨ pieceWord ≠ "piece".toList
          ∨ fromWord ≠ "from".toList ∨ toWord ≠ "to".toList ∨ progressWord ≠ "progress".toList then
        .ok none
      else do
        let pieceId ← parsePieceId id
        let descriptor := descriptorFromToken piece
        let fromRow ← parseNonNegativeSize fromRow
        let fromCol ← parseNonNegativeSize fromCol
        let toRow ← parseNonNegativeSize toRow
        let toCol ← parseNonNegativeSize toCol
        match pieceId, descriptor, fromRow, fromCol, toRow, toCol, parseFloat floats progress with
        | some pieceId, some descriptor, some fromRow, some fromCol, some toRow, some toCol,
            some progress =>
            return some ⟨pieceId, descriptor.kind, descriptor.color, fromRow, fromCol, toRow, toCol,
              progress⟩
        | _, _, _, _, _, _, _ => return none
  | _ => .ok none

def parseJumpLine : List Text → Reading (Option (ActiveJumpSnapshot F))
  | [word, idWord, id, pieceWord, piece, rowWord, row, col, progressWord, progress] =>
      if word ≠ "jump".toList ∨ idWord ≠ "piece_id".toList ∨ pieceWord ≠ "piece".toList
          ∨ rowWord ≠ "row".toList ∨ progressWord ≠ "progress".toList then
        .ok none
      else do
        let pieceId ← parsePieceId id
        let descriptor := descriptorFromToken piece
        let row ← parseNonNegativeSize row
        let col ← parseNonNegativeSize col
        match pieceId, descriptor, row, col, parseFloat floats progress with
        | some pieceId, some descriptor, some row, some col, some progress =>
            return some ⟨pieceId, descriptor.kind, descriptor.color, row, col, progress⟩
        | _, _, _, _, _ => return none
  | _ => .ok none

def parseRestLine : List Text → Reading (Option (ActiveRestSnapshot F))
  | [word, idWord, id, rowWord, row, col, kindWord, kind, progressWord, progress] =>
      if word ≠ "rest".toList ∨ idWord ≠ "piece_id".toList ∨ rowWord ≠ "row".toList
          ∨ kindWord ≠ "kind".toList ∨ progressWord ≠ "progress".toList then
        .ok none
      else do
        let pieceId ← parsePieceId id
        let row ← parseNonNegativeSize row
        let col ← parseNonNegativeSize col
        match pieceId, row, col, parseRestKind kind, parseFloat floats progress with
        | some pieceId, some row, some col, some kind, some progress =>
            return some ⟨pieceId, row, col, kind, progress⟩
        | _, _, _, _, _ => return none
  | _ => .ok none

/-- The loop of `parse_animation_section`; the last section has an empty `nextSectionName`. -/
def parseSectionLines {S : Type} (nextSectionName : Text) (parseLine : List Text → Reading (Option S))
    (destination : List S) : List Text → Reading (Option (List S × List Text))
  | [] => .ok (if nextSectionName.isEmpty then some (destination, []) else none)
  | line :: lines =>
      let tokens := splitTokens line
      if tokens.isEmpty then parseSectionLines nextSectionName parseLine destination lines
      else if !nextSectionName.isEmpty && isSectionMarker tokens nextSectionName then
        .ok (some (destination, line :: lines))
      else do
        match ← parseLine tokens with
        | none => return none
        | some parsed => parseSectionLines nextSectionName parseLine (destination ++ [parsed]) lines

def parseAnimationSection {S : Type} (sectionName nextSectionName : Text)
    (parseLine : List Text → Reading (Option S)) : List Text → Reading (Option (List S × List Text))
  | [] => .ok none
  | line :: lines =>
      if !isSectionMarker (splitTokens line) sectionName then .ok none
      else parseSectionLines nextSectionName parseLine [] lines

def parseAnimations : List Text → Reading (Option (AnimationSnapshot F))
  | [] => .ok none
  | line :: lines =>
      if !isSectionMarker (splitTokens line) "animations".toList then .ok none
      else do
        match ← parseAnimationSection "moves".toList "jumps".toList (parseMoveLine floats) lines with
        | none => return none
        | some (moves, lines) =>
            match ← parseAnimationSection "jumps".toList "rests".toList (parseJumpLine floats) lines with
            | none => return none
            | some (jumps, lines) =>
                match ← parseAnimationSection "rests".toList [] (parseRestLine floats) lines with
                | none => return none
                | some (rests, lines) =>
                    return if lines.isEmpty then some ⟨moves, jumps, rests⟩ else none

/-- The header loop: the view so far and the lines after the `cells` marker. -/
def readHeader (view : BoardViewModel F) :
    List Text → Reading (Option (BoardViewModel F × List Text))
  | [] => .ok none
  | line :: lines =>
      match splitTokens line with
      | [] => readHeader view lines
      | key :: arguments =>
          if key = "cells".toList then
            .ok (if arguments.isEmpty then some (view, lines) else none)
          else if key = "clock_ms".toList then
            match arguments with
            | [token] => do
                match ← parseInt64 token with
                | none => return none
                | some clockMs => readHeader { view with clockMs } lines
            | _ => .ok none
          else if key = "game_over".toList then
            match arguments with
            | [token] =>
                match parseBool token with
                | none => .ok none
                | some gameOver => readHeader { view with gameOver } lines
            | _ => .ok none
          else if key = "height".toList then
            match arguments with
            | [token] => do
                match ← parseNonNegativeSize token with
                | none => return none
                | some height => readHeader { view with height } lines
            | _ => .ok none
          else if key = "width".toList then
            match arguments with
            | [token] => do
                match ← parseNonNegativeSize token with
                | none => return none
                | some width => readHeader { view with width } lines
            | _ => .ok none
          else if key = "selection".toList then
            match arguments with
            | [rowToken, colToken] => do
                let row ← parseNonNegativeSize rowToken
                let col ← parseNonNegativeSize colToken
                match row, col with
                | some row, some col => readHeader { view with selection := some (row, col) } lines
                | _, _ => return none
            | _ => .ok none
          else .ok none

/-- `cells.max_size()`: a `CellView` takes 12 bytes, and a vector at most `PTRDIFF_MAX`. -/
def kMaxCells : Nat := (2 ^ 63 - 1) / 12

/-- `view.height * view.width`, the argument of `reserve`. -/
def cellCount (view : BoardViewModel F) : Nat := view.height * view.width % 2 ^ 64

def reserveCells (count : Nat) : Reading Unit :=
  if count > kMaxCells then .error .lengthError else .ok ()

/-- The loop over the rows, with the number of rows left. -/
def readRows (width : Nat) : Nat → List Text → List CellView → Option (List CellView × List Text)
  | 0, lines, cells => some (cells, lines)
  | _ + 1, [], _ => none
  | rows + 1, line :: lines, cells =>
      let tokens := splitTokens line
      if tokens.length ≠ width then none
      else match tokens.mapM parseCellToken with
        | none => none
        | some row => readRows width rows lines (cells ++ row)

/-- `read_snapshot` up to the `cells` marker. -/
def readUpToCells (text : Text) : Reading (Option (BoardViewModel F × List Text)) :=
  match splitLines text with
  | [] => .ok none
  | first :: lines => if first ≠ "snapshot".toList then .ok none else readHeader {} lines

def readSnapshot (text : Text) : Reading (Option (BoardViewModel F)) := do
  match ← readUpToCells text with
  | none => return none
  | some (view, lines) =>
      reserveCells (cellCount view)
      match readRows view.width view.height lines [] with
      | none => return none
      | some (cells, lines) =>
          if lines.isEmpty then return some { view with cells }
          else match ← parseAnimations floats lines with
            | none => return none
            | some animations => return some { view with cells, animations }

end

end KungFuChess
