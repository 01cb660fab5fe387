import Mathlib.Algebra.Group.Nat.Defs
import Mathlib.Algebra.Ring.Int.Defs
import Mathlib.Data.List.Basic

/-!
# Pieces and their tokens

The piece record of `model/piece.h`, the two-letter tokens of `model/piece_token.cpp` and the integer
conversions the game code makes.

A `std::string` is the list of its characters, one for each byte. A `std::size_t` is a `Nat` and an
`int` coordinate is an `Int`: every board is held in memory cell by cell, so its coordinates are far
below `2 ^ 31` and the casts between the two are exact on them. Times are `Int`; only where the code
narrows a time to `int` does the width of the type matter, and there the narrowing is written out.
-/

namespace KungFuChess

abbrev Text := List Char

/-- What stops the game code short of a result. -/
inductive Fault where
  -- `std::out_of_range("invalid piece id")`, thrown by `get_piece`
  | invalidPieceId
  -- `std::invalid_argument`, thrown by `store_piece`
  | pieceIdNotSequential
  -- `cells_[row][col]` outside the grid
  | cellAccess (row col : Nat)
  -- a null piece pointer is dereferenced
  | nullPiece
  -- a walk along a path that never meets its end cell
  | pathHasNoEnd
deriving DecidableEq, Repr

abbrev Checked := Except Fault

/-- A grid cell as the code stores it, `std::pair<std::size_t, std::size_t>`: row, then column. -/
abbrev Cell := Nat × Nat

/-- `static_cast<int>` of a grid coordinate. -/
def toInt (n : Nat) : Int := n

/-- `static_cast<std::size_t>` of an `int`. -/
def toSize (i : Int) : Nat := if 0 ≤ i then i.toNat else (i + 2 ^ 64).toNat

/-- `static_cast<int>` of a 64-bit time: the low 32 bits, as a signed number. -/
def narrowTime (t : Int) : Int := t.bmod (2 ^ 32)

/-- The number is an `int`. -/
def IsInt32 (i : Int) : Prop := -2 ^ 31 ≤ i ∧ i < 2 ^ 31

instance (i : Int) : Decidable (IsInt32 i) := inferInstanceAs (Decidable (-2 ^ 31 ≤ i ∧ i < 2 ^ 31))

inductive PieceColor where
  | white
  | black
deriving DecidableEq, Repr

inductive PieceKind where
  | king
  | queen
  | rook
  | bishop
  | knight
  | pawn
  | count
deriving DecidableEq, Repr

inductive PieceState where
  | idle
  | moving
  | captured
deriving DecidableEq, Repr

structure Position where
  row : Int
  col : Int
deriving DecidableEq, Repr

def kInvalidId : Nat := 0

structure Piece where
  id : Nat
  color : PieceColor
  kind : PieceKind
  cell : Position
  state : PieceState
deriving DecidableEq, Repr

namespace Piece

def isWhite (piece : Piece) : Bool := piece.color == .white

def isBlack (piece : Piece) : Bool := piece.color == .black

def isSameColorAs (piece other : Piece) : Bool :=
  piece.id != kInvalidId && other.id != kInvalidId && piece.color == other.color

def isOpponentOf (piece other : Piece) : Bool :=
  piece.id != kInvalidId && other.id != kInvalidId && piece.color != other.color

end Piece

def positionOf (row col : Nat) : Position := ⟨toInt row, toInt col⟩

structure PieceFactory where
  nextId : Nat := 1

def PieceFactory.create (factory : PieceFactory) (color : PieceColor) (kind : PieceKind)
    (cell : Position) : Piece × PieceFactory :=
  (⟨factory.nextId, color, kind, cell, .idle⟩, ⟨factory.nextId + 1⟩)

/-! ### Tokens -/

def kWhiteColor : Char := 'w'
def kBlackColor : Char := 'b'
def kEmptyToken : Char := '.'

def kPieceKindMappings : List (PieceKind × Char) :=
  [(.king, 'K'), (.queen, 'Q'), (.rook, 'R'), (.bishop, 'B'), (.knight, 'N'), (.pawn, 'P')]

structure PieceDescriptor where
  color : PieceColor
  kind : PieceKind
deriving DecidableEq, Repr

def isEmptyToken (token : Text) : Bool := token == [kEmptyToken]

def colorToChar : PieceColor → Char
  | .white => kWhiteColor
  | .black => kBlackColor

def kindToChar (kind : PieceKind) : Char :=
  match kPieceKindMappings.find? fun entry => entry.1 == kind with
  | none => 'P'
  | some entry => entry.2

def colorFromChar (color : Char) : Option PieceColor :=
  if color = kWhiteColor then some .white
  else if color = kBlackColor then some .black
  else none

def kindFromChar (character : Char) : Option PieceKind :=
  (kPieceKindMappings.find? fun entry => entry.2 == character).map Prod.fst

def isValidToken (token : Text) : Bool :=
  isEmptyToken token ||
    match token with
    | [color, kind] => (colorFromChar color).isSome && (kindFromChar kind).isSome
    | _ => false

def descriptorFromToken (token : Text) : Option PieceDescriptor :=
  if isEmptyToken token then none
  else if !isValidToken token then none
  else match token with
    | color :: kind :: _ => do
        let color ← colorFromChar color
        let kind ← kindFromChar kind
        return ⟨color, kind⟩
    | _ => none

def toToken (color : PieceColor) (kind : PieceKind) : Text := [colorToChar color, kindToChar kind]

end KungFuChess
