import KungFuChess.Model.Piece

/-!
# The board

`BoardModel` of `model/board_model.cpp`: a grid of piece ids beside a table of pieces, where the piece
with id `n` is entry `n - 1`. Reads that the code guards answer `Option`; an unguarded
`cells_[row][col]`, and the lookups that throw, are `Checked`.
-/

namespace KungFuChess

structure BoardModel where
  cells : List (List (Option Nat))
  pieces : List Piece
deriving DecidableEq, Repr

namespace BoardModel

variable (board : BoardModel)

def rows : Nat := board.cells.length

def cols : Nat := (board.cells.head?.map List.length).getD 0

def isInBounds (row col : Nat) : Bool :=
  !board.cells.isEmpty && decide (row < board.rows) && decide (col < board.cols)

def contains (row col : Int) : Bool :=
  if row < 0 ∨ col < 0 then false else board.isInBounds (toSize row) (toSize col)

def entryAt (row col : Nat) : Option (Option Nat) := board.cells[row]?.bind (·[col]?)

/-- The id on a cell; `none` for an empty cell and off the grid. -/
def cellId (row col : Nat) : Option Nat := (board.entryAt row col).join

def setCell (row col : Nat) (id : Option Nat) : BoardModel :=
  { board with cells := board.cells.modify row (·.set col id) }

/-- An unguarded write to `cells_[row][col]`. -/
def writeCell (row col : Nat) (id : Option Nat) : Checked BoardModel :=
  match board.entryAt row col with
  | some _ => .ok (board.setCell row col id)
  | none => .error (.cellAccess row col)

def isEmpty (row col : Nat) : Checked Bool :=
  match board.entryAt row col with
  | some id => .ok id.isNone
  | none => .error (.cellAccess row col)

def findPieceById (id : Nat) : Option Piece :=
  if id = kInvalidId ∨ id > board.pieces.length then none else board.pieces[id - 1]?

def pieceAt (row col : Nat) : Option Piece :=
  if board.isInBounds row col then (board.cellId row col).bind board.findPieceById else none

def getPiece (id : Nat) : Checked Piece :=
  match board.findPieceById id with
  | some piece => .ok piece
  | none => .error .invalidPieceId

def setPiece (piece : Piece) : BoardModel :=
  { board with pieces := board.pieces.set (piece.id - 1) piece }

/-- `get_piece(id).state = state`. -/
def setPieceState (id : Nat) (state : PieceState) : Checked BoardModel := do
  let piece ← board.getPiece id
  return { board with pieces := board.pieces.set (id - 1) { piece with state } }

def storePiece (piece : Piece) : Checked BoardModel :=
  if piece.id = kInvalidId ∨ piece.id > board.pieces.length + 1 then .error .pieceIdNotSequential
  else if piece.id = board.pieces.length + 1 then
    .ok { board with pieces := board.pieces ++ [piece] }
  else .ok (board.setPiece piece)

def placePieceAt (row col : Nat) (piece : Piece) : Checked BoardModel := do
  let stored ← board.storePiece { piece with cell := positionOf row col }
  stored.writeCell row col (some piece.id)

def placePiece (piece : Piece) : Checked BoardModel :=
  board.placePieceAt (toSize piece.cell.row) (toSize piece.cell.col) piece

def removePieceAt (row col : Nat) : Checked BoardModel :=
  match board.entryAt row col with
  | none => .error (.cellAccess row col)
  | some none => board.writeCell row col none
  | some (some id) => do
      let lost ← board.setPieceState id .captured
      lost.writeCell row col none

def clearCell (row col : Nat) : Checked BoardModel := board.writeCell row col none

def tokenAt (row col : Nat) : Text :=
  match board.pieceAt row col with
  | none => [kEmptyToken]
  | some piece => toToken piece.color piece.kind

/-- `operator==`: the pieces of the table are not compared. -/
def equals (lhs rhs : BoardModel) : Bool :=
  if lhs.rows ≠ rhs.rows ∨ lhs.cols ≠ rhs.cols then false
  else (List.range lhs.rows).all fun row => (List.range lhs.cols).all fun col => lhs.tokenAt row col == rhs.tokenAt row col

/-! ### Reading a board from tokens -/

/-- One token of `append_token_row`: the next cell of the row under construction. The assertion on the
descriptor is the caller's: `parse_board_rows` has checked every token. -/
def appendToken (rowIndex : Nat) (state : BoardModel × PieceFactory × List (Option Nat))
    (token : Text) : Checked (BoardModel × PieceFactory × List (Option Nat)) :=
  let (board, factory, cellRow) := state
  if isEmptyToken token then .ok (board, factory, cellRow ++ [none])
  else match descriptorFromToken token with
    | none => .error .nullPiece
    | some descriptor => do
        let (piece, factory) := factory.create descriptor.color descriptor.kind
          (positionOf rowIndex cellRow.length)
        let board ← board.storePiece piece
        return (board, factory, cellRow ++ [board.pieces.getLast?.map (·.id)])

def appendTokenRow (tokens : List Text) (rowIndex : Nat) (factory : PieceFactory) :
    Checked (BoardModel × PieceFactory) := do
  let (board, factory, cellRow) ← tokens.foldlM (appendToken rowIndex) (board, factory, [])
  return ({ board with cells := board.cells ++ [cellRow] }, factory)

end BoardModel

/-! ### `rules/board_validator.cpp` -/

inductive BoardError where
  | ok
  | unknownToken
  | rowWidthMismatch
deriving DecidableEq, Repr

/-- `std::isspace` in the classic locale. -/
def isSpace (c : Char) : Bool :=
  c = ' ' || c = '\t' || c = '\n' || c = '\x0b' || c = '\x0c' || c = '\r'

/-- `while (stream >> token)`: the whitespace-separated tokens of a line. `current` is the token being
read. -/
def splitFrom (current : Text) : Text → List Text
  | [] => if current.isEmpty then [] else [current]
  | c :: rest =>
      if isSpace c then
        if current.isEmpty then splitFrom [] rest else current :: splitFrom [] rest
      else splitFrom (current ++ [c]) rest

def splitRow (line : Text) : List Text := splitFrom [] line

/-- The loop of `parse_board_rows`: `expectedWidth` is 0 until the first line has been read. -/
def parseRows (expectedWidth rowIndex : Nat) (parsed : BoardModel) (factory : PieceFactory) :
    List Text → Checked (Except BoardError BoardModel)
  | [] => .ok (.ok parsed)
  | line :: lines =>
      let tokens := splitRow line
      if expectedWidth = 0 ∧ tokens.length = 0 then .ok (.error .rowWidthMismatch)
      else if expectedWidth ≠ 0 ∧ tokens.length ≠ expectedWidth then .ok (.error .rowWidthMismatch)
      else if !tokens.all isValidToken then .ok (.error .unknownToken)
      else do
        let (parsed, factory) ← parsed.appendTokenRow tokens rowIndex factory
        parseRows tokens.length (rowIndex + 1) parsed factory lines

/-- The error code, and the output board: assigned only when the code is `Ok`. -/
def parseBoardRows (lines : List Text) (board : BoardModel) : Checked (BoardError × BoardModel) := do
  match ← parseRows 0 0 ⟨[], []⟩ {} lines with
  | .ok parsed => return (.ok, parsed)
  | .error error => return (error, board)

end KungFuChess
