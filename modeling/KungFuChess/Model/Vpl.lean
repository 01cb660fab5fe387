import KungFuChess.Lib.Lexing
import KungFuChess.Model.Drivers

/-!
# The program on standard input

`main.cpp` with `io/vpl_io.cpp`: a board and commands for it are read from standard input, in sections with a header
before each, and what the commands print goes to standard output.
-/

namespace KungFuChess

/-- `std::getline` until it fails: a last line without a break counts if there is anything on it. `current` is the line
being read. -/
def getLinesFrom (current : Text) : Text → List Text
  | [] => if current.isEmpty then [] else [current]
  | c :: rest => if c = '\n' then current :: getLinesFrom [] rest else getLinesFrom (current ++ [c]) rest

def getLines (text : Text) : List Text := getLinesFrom [] text

/-- One of `" \t\r\n"`. -/
def isTrimmed (c : Char) : Bool := c = ' ' || c = '\t' || c = '\r' || c = '\n'

def trimLine (line : Text) : Text := Lexing.trim isTrimmed line

def kBoardSectionHeader : Text := "Board:".toList

def kCommandsSectionHeader : Text := "Commands:".toList

inductive VplSection where
  | none
  | board
  | commands
deriving DecidableEq, Repr

structure VplInput where
  board : BoardModel := ⟨[], []⟩
  error : BoardError := .ok
  commands : List Text := []

/-- What `read_vpl_input` keeps while it reads. -/
structure VplReader where
  inSection : VplSection := .none
  boardLines : List Text := []
  commands : List Text := []
deriving DecidableEq, Repr

def VplReader.read (reader : VplReader) (line : Text) : VplReader :=
  let trimmed := trimLine line
  if trimmed = kBoardSectionHeader then { reader with inSection := .board }
  else if trimmed = kCommandsSectionHeader then { reader with inSection := .commands }
  else match reader.inSection with
    | .board => { reader with boardLines := reader.boardLines ++ [line] }
    | .commands => if line.isEmpty then reader else { reader with commands := reader.commands ++ [line] }
    | .none => reader

def readVplInput (input : Text) : Checked VplInput := do
  let reader := (getLines input).foldl VplReader.read {}
  let (error, board) ← parseBoardRows reader.boardLines ⟨[], []⟩
  return ⟨board, error, reader.commands⟩

def boardErrorMessage : BoardError → Text
  | .ok => []
  | .unknownToken => "ERROR UNKNOWN_TOKEN".toList
  | .rowWidthMismatch => "ERROR ROW_WIDTH_MISMATCH".toList

/-- `main`, from what it reads to what it prints. The clock has no bound here; in the source it has 64 bits, so this is the
program for as long as its waits stay within them. -/
def vplMain (input : Text) : Checked Text := do
  let input ← readVplInput input
  if input.error ≠ .ok then return boardErrorMessage input.error ++ ['\n']
  return (← (GameEngine.new input.board).executeAll input.commands).1

end KungFuChess
