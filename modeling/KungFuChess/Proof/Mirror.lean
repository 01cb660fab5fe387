import KungFuChess.Proof.Settlement

/-!
# Mirrored boards

A mirror turns the board upside down and swaps the colours. It renames the pieces too, because ids are
handed out in reading order. `Mirror.Boards` relates a board to its image; every board operation keeps
the relation, and every validator gives the same verdict on both sides. The code that depends on a
colour or on a row is the pawn rule and the promotion: the branch of one colour is the mirror image of
the branch of the other.
-/

namespace KungFuChess

open Loops BoardModel

def PieceColor.swap : PieceColor → PieceColor
  | .white => .black
  | .black => .white

theorem PieceColor.swap_inj {color other : PieceColor} : color.swap = other.swap ↔ color = other := by
  cases color <;> cases other <;> decide

theorem Piece.isBlack_eq (p : Piece) : p.isBlack = !p.isWhite := by
  cases hcolor : p.color <;> simp only [Piece.isWhite, Piece.isBlack, hcolor] <;> rfl

/-- Rows off the board are kept. -/
def mirrorRow (rows row : Nat) : Nat := if row < rows then rows - 1 - row else row

theorem mirrorRow_mirrorRow (rows row : Nat) : mirrorRow rows (mirrorRow rows row) = row := by
  unfold mirrorRow
  split
  · rw [if_pos (by omega)]
    omega
  · rfl

/-- The height of the board and the new names of the pieces. -/
structure Mirror where
  rows : Nat
  rename : Nat → Nat
  bijective : Function.Bijective rename
  invalid : rename kInvalidId = kInvalidId

namespace Mirror

variable (M : Mirror)

def row (row : Nat) : Nat := mirrorRow M.rows row

def cell (cell : Cell) : Cell := (M.row cell.1, cell.2)

def position (cell : Position) : Position :=
  ⟨if 0 ≤ cell.row ∧ cell.row < M.rows then M.rows - 1 - cell.row else cell.row, cell.col⟩

def piece (p : Piece) : Piece := ⟨M.rename p.id, p.color.swap, p.kind, M.position p.cell, p.state⟩

def move (move : PendingMove) : PendingMove :=
  ⟨M.rename move.pieceId, move.color.swap, move.kind, M.cell move.startPos, M.cell move.endPos,
    move.startTime, move.arrivalTime⟩

def jump (jump : JumpState) : JumpState :=
  ⟨M.rename jump.pieceId, jump.color.swap, jump.kind, M.cell jump.cell, jump.startTime,
    jump.arrivalTime⟩

def rest (rest : ActiveRest) : ActiveRest := { rest with row := M.row rest.row }

/-- The boards are mirror images of each other. -/
structure Boards (b b' : BoardModel) : Prop where
  rect : b.Rect
  rect' : b'.Rect
  rows : b.rows = M.rows
  rows' : b'.rows = M.rows
  cols : b'.cols = b.cols
  cellId : ∀ row col, b'.cellId (M.row row) col = (b.cellId row col).map M.rename
  findPieceById : ∀ id, b'.findPieceById (M.rename id) = (b.findPieceById id).map M.piece

/-! ### Coordinates and ids -/

section Coordinates

variable {M} {row row' : Nat}

theorem row_of_lt (h : row < M.rows) : M.row row = M.rows - 1 - row := if_pos h

theorem row_lt_iff : M.row row < M.rows ↔ row < M.rows := by
  unfold Mirror.row mirrorRow
  split <;> omega

theorem row_row : M.row (M.row row) = row := mirrorRow_mirrorRow M.rows row

theorem row_inj : M.row row = M.row row' ↔ row = row' := by
  constructor
  · intro heq
    have hrow : M.row (M.row row) = row := row_row
    rw [← hrow, heq, row_row]
  · exact congrArg M.row

theorem cell_inj {cell cell' : Cell} : M.cell cell = M.cell cell' ↔ cell = cell' := by
  simp only [Mirror.cell, Prod.ext_iff, row_inj]

theorem toInt_row (h : row < M.rows) : toInt (M.row row) = M.rows - 1 - toInt row := by
  rw [row_of_lt h]
  simp only [toInt]
  omega

theorem position_positionOf (M : Mirror) (row col : Nat) :
    M.position (positionOf row col) = positionOf (M.row row) col := by
  by_cases hrow : row < M.rows
  · have hin : 0 ≤ toInt row ∧ toInt row < M.rows := by
      simp only [toInt]
      omega
    rw [Mirror.position, positionOf, positionOf, if_pos hin, toInt_row hrow]
  · have hout : ¬(0 ≤ toInt row ∧ toInt row < M.rows) := by
      simp only [toInt]
      omega
    rw [Mirror.position, positionOf, positionOf, if_neg hout, Mirror.row, mirrorRow, if_neg hrow]

theorem rename_inj {id id' : Nat} : M.rename id = M.rename id' ↔ id = id' := M.bijective.injective.eq_iff

theorem rename_ne_invalid (id : Nat) : (M.rename id != kInvalidId) = (id != kInvalidId) := by
  have hiff : M.rename id = kInvalidId ↔ id = kInvalidId := by
    conv_lhs => rw [← M.invalid]
    exact rename_inj
  rw [Bool.eq_iff_iff, bne_iff_ne, bne_iff_ne, Ne, hiff]

theorem isOpponentOf_piece (M : Mirror) (p q : Piece) :
    (M.piece p).isOpponentOf (M.piece q) = p.isOpponentOf q := by
  have hcolor : (p.color.swap != q.color.swap) = (p.color != q.color) := by
    cases p.color <;> cases q.color <;> decide
  simp only [Piece.isOpponentOf, Mirror.piece, rename_ne_invalid, hcolor]

theorem isWhite_piece (M : Mirror) (p : Piece) : (M.piece p).isWhite = p.isBlack := by
  cases hcolor : p.color <;> simp only [Piece.isWhite, Piece.isBlack, Mirror.piece, hcolor] <;> rfl

theorem isBlack_piece (M : Mirror) (p : Piece) : (M.piece p).isBlack = p.isWhite := by
  cases hcolor : p.color <;> simp only [Piece.isWhite, Piece.isBlack, Mirror.piece, hcolor] <;> rfl

end Coordinates

/-! ### Boards -/

namespace Boards

variable {M} {b b' : BoardModel} {flights : List Flight} {p : Piece} {row col : Nat}

theorem inBounds_iff (h : M.Boards b b') : b'.InBounds (M.row row) col ↔ b.InBounds row col := by
  rw [InBounds, InBounds, h.rows, h.rows', h.cols, row_lt_iff]

theorem isInBounds_eq (h : M.Boards b b') (row col : Nat) :
    b'.isInBounds (M.row row) col = b.isInBounds row col := by
  rw [Bool.eq_iff_iff, isInBounds_iff, isInBounds_iff]
  exact h.inBounds_iff

theorem pieceAt (h : M.Boards b b') (row col : Nat) :
    b'.pieceAt (M.row row) col = (b.pieceAt row col).map M.piece := by
  rw [pieceAt_eq h.rect', pieceAt_eq h.rect, h.cellId]
  cases b.cellId row col with
  | none => rfl
  | some id => exact h.findPieceById id

theorem isEmpty (h : M.Boards b b') (hin : b.InBounds row col) :
    b'.isEmpty (M.row row) col = b.isEmpty row col := by
  rw [isEmpty_eq h.rect hin, isEmpty_eq h.rect' (h.inBounds_iff.mpr hin), h.cellId]
  cases b.cellId row col <;> rfl

theorem setPiece (h : M.Boards b b') {old : Piece} (hold : b.findPieceById p.id = some old) :
    M.Boards (b.setPiece p) (b'.setPiece (M.piece p)) := by
  have hold' : b'.findPieceById (M.piece p).id = some (M.piece old) := by
    rw [show (M.piece p).id = M.rename p.id from rfl, h.findPieceById, hold]
    rfl
  refine ⟨h.rect, h.rect', h.rows, h.rows', h.cols, h.cellId, fun id => ?_⟩
  rw [findPieceById_setPiece hold, findPieceById_setPiece hold',
    show (M.piece p).id = M.rename p.id from rfl]
  by_cases hid : id = p.id
  · rw [if_pos hid, if_pos (congrArg M.rename hid)]
    rfl
  · rw [if_neg hid, if_neg (fun heq => hid (rename_inj.mp heq))]
    exact h.findPieceById id

theorem setCell (h : M.Boards b b') (hin : b.InBounds row col) (entry : Option Nat) :
    M.Boards (b.setCell row col entry) (b'.setCell (M.row row) col (entry.map M.rename)) := by
  refine ⟨rect_setCell _ _ _ _ h.rect, rect_setCell _ _ _ _ h.rect', ?_, ?_, ?_, ?_, h.findPieceById⟩
  · rw [rows_setCell, h.rows]
  · rw [rows_setCell, h.rows']
  · rw [cols_setCell, cols_setCell, h.cols]
  · intro r c
    rw [cellId_setCell h.rect hin, cellId_setCell h.rect' (h.inBounds_iff.mpr hin)]
    simp only [row_inj]
    split
    · rfl
    · exact h.cellId r c

theorem lift (h : M.Boards b b') (hb : Located b flights) (hp : b.pieceAt row col = some p) :
    M.Boards (b.lift p row col) (b'.lift (M.piece p) (M.row row) col) := by
  obtain ⟨hcell, hfind⟩ := hb.pieceAt_eq_some_iff.mp hp
  have hmoving := h.setPiece (p := { p with state := .moving }) hfind
  exact hmoving.setCell (inBounds_of_cellId hb.rect hcell) none

theorem evict (h : M.Boards b b') (hb : Located b flights) (row col : Nat) :
    M.Boards (b.evict row col) (b'.evict (M.row row) col) := by
  unfold BoardModel.evict
  rw [h.pieceAt]
  cases hq : b.pieceAt row col with
  | none => exact h
  | some q =>
      obtain ⟨hcell, hfind⟩ := hb.pieceAt_eq_some_iff.mp hq
      have hlost := h.setPiece (p := { q with state := .captured }) hfind
      exact hlost.setCell (inBounds_of_cellId hb.rect hcell) none

theorem put (h : M.Boards b b') {old : Piece} (hold : b.findPieceById p.id = some old)
    (hin : b.InBounds row col) :
    M.Boards (b.put p row col) (b'.put (M.piece p) (M.row row) col) := by
  have hplaced := h.setPiece (p := { p with cell := positionOf row col }) hold
  have hpiece : M.piece { p with cell := positionOf row col }
      = { M.piece p with cell := positionOf (M.row row) col } := by
    simp only [Mirror.piece, position_positionOf]
  rw [hpiece] at hplaced
  exact hplaced.setCell hin (some p.id)

theorem land {f : Flight} (h : M.Boards b b') (hb : Located b (f :: flights)) (hid : p.id = f.id)
    (hin : b.InBounds row col) :
    M.Boards (b.land p row col) (b'.land (M.piece p) (M.row row) col) := by
  obtain ⟨old, hold, -⟩ := hb.findPieceById_flight
  have hfind : (b.evict row col).findPieceById p.id = some old := by
    rw [hid, hb.findPieceById_evict_flight List.mem_cons_self, hold]
  exact (h.evict hb row col).put hfind ((inBounds_evict row col).mpr hin)

end Boards

/-! ### Paths -/

theorem cellsBetween_flip (k startRow startCol endRow endCol : Int) :
    cellsBetween (k - startRow) startCol (k - endRow) endCol
      = (cellsBetween startRow startCol endRow endCol).map fun cell => (k - cell.1, cell.2) := by
  have hdr : k - endRow - (k - startRow) = -(endRow - startRow) := by omega
  simp only [cellsBetween, hdr, Int.natAbs_neg, stepOf_neg, List.map_map]
  refine List.map_congr_left fun i _ => ?_
  simp only [Function.comp_apply, Prod.mk.injEq, and_true]
  ring

section Rules

variable {M} {b b' : BoardModel} {sr sc er ec : Nat}

theorem Boards.pathClear (h : M.Boards b b') (hs : b.InBounds sr sc) (he : b.InBounds er ec)
    (haligned : Aligned (toInt sr) (toInt sc) (toInt er) (toInt ec)) :
    pathClear b' (toInt (M.row sr)) (toInt sc) (toInt (M.row er)) (toInt ec)
      = pathClear b (toInt sr) (toInt sc) (toInt er) (toInt ec) := by
  have hsr : sr < M.rows := h.rows ▸ hs.1
  have her : er < M.rows := h.rows ▸ he.1
  rw [KungFuChess.pathClear, KungFuChess.pathClear, toInt_row hsr, toInt_row her, cellsBetween_flip,
    List.all_map]
  rw [Bool.eq_iff_iff, List.all_eq_true, List.all_eq_true]
  refine forall₂_congr fun cell hcell => ?_
  obtain ⟨hmin, hmax, -⟩ := mem_cellsBetween haligned hcell
  simp only [toInt] at hmin hmax
  have hflip : toSize (M.rows - 1 - cell.1) = M.row (toSize cell.1) := by
    have hlow : 0 ≤ cell.1 := by omega
    rw [toSize, toSize, if_pos (by omega), if_pos hlow, row_of_lt (by omega)]
    omega
  rw [Function.comp_apply, hflip, h.cellId]
  cases b.cellId (toSize cell.1) (toSize cell.2) <;> simp

/-! ### Validators -/

theorem Boards.isPawnStartRow (h : M.Boards b b') (hrow : sr < M.rows) (color : PieceColor) :
    isPawnStartRow b' color.swap (toInt (M.row sr)) = isPawnStartRow b color (toInt sr) := by
  unfold KungFuChess.isPawnStartRow
  rw [h.rows, h.rows', toInt_row hrow]
  dsimp only
  split
  · rfl
  · rw [Bool.eq_iff_iff]
    cases color <;> simp only [PieceColor.swap, beq_iff_eq, toInt] <;> omega

/-- The pawn rule of one colour is the mirror image of the rule of the other. -/
theorem Boards.isPawnMoveForPiece (h : M.Boards b b') (hs : b.InBounds sr sc) (he : b.InBounds er ec)
    (p : Piece) :
    isPawnMoveForPiece b' (M.piece p) (toInt (M.row sr)) (toInt sc) (toInt (M.row er)) (toInt ec)
      = isPawnMoveForPiece b p (toInt sr) (toInt sc) (toInt er) (toInt ec) := by
  have hsr : sr < M.rows := h.rows ▸ hs.1
  have her : er < M.rows := h.rows ▸ he.1
  have hdr : toInt (M.row er) - toInt (M.row sr) = -(toInt er - toInt sr) := by
    rw [toInt_row hsr, toInt_row her]
    omega
  have hflip : ∀ d k : Int, (-d == k) = (d == -k) := by
    intro d k
    rw [Bool.eq_iff_iff, beq_iff_eq, beq_iff_eq]
    omega
  -- the cell a double step passes
  have hpassed : ∀ d : Int, toInt er - toInt sr = 2 * d →
      b'.isEmpty (toSize (toInt (M.row sr) - d)) sc = b.isEmpty (toSize (toInt sr + d)) sc := by
    intro d hd
    simp only [toInt] at hd
    have hin : b.InBounds (toSize (toInt sr + d)) sc := by
      refine ⟨?_, hs.2⟩
      rw [h.rows, toSize, toInt, if_pos (by omega)]
      omega
    have hrow : toSize (toInt (M.row sr) - d) = M.row (toSize (toInt sr + d)) := by
      have hlt : toSize (toInt sr + d) < M.rows := h.rows ▸ hin.1
      rw [row_of_lt hlt, toInt_row hsr, toSize, toSize, toInt, if_pos (by omega), if_pos (by omega)]
      omega
    rw [hrow]
    exact h.isEmpty hin
  have hstart := h.isPawnStartRow hsr p.color
  unfold KungFuChess.isPawnMoveForPiece
  dsimp only
  rw [toSize_toInt, toSize_toInt, toSize_toInt, toSize_toInt, h.pieceAt, Option.isSome_map, hdr,
    isWhite_piece, isBlack_piece, p.isBlack_eq]
  simp only [hflip]
  by_cases hstraight : toInt ec - toInt sc = 0
  · rw [if_pos hstraight, if_pos hstraight]
    by_cases hdest : (b.pieceAt er ec).isSome = true
    · rw [if_pos hdest, if_pos hdest]
    · rw [if_neg hdest, if_neg hdest, show (M.piece p).color = p.color.swap from rfl, hstart]
      cases p.isWhite
      · simp only [Bool.not_false, Bool.true_and, Bool.false_and, Bool.false_eq_true, if_false, neg_neg]
        split
        · rfl
        split
        · rename_i hdouble
          simp only [Bool.and_eq_true, beq_iff_eq] at hdouble
          exact hpassed 1 hdouble.1
        · rfl
      · simp only [Bool.not_true, Bool.true_and, Bool.false_and, Bool.false_eq_true, if_false]
        split
        · rfl
        split
        · rename_i hdouble
          simp only [Bool.and_eq_true, beq_iff_eq] at hdouble
          exact hpassed (-1) (by omega)
        · rfl
  · rw [if_neg hstraight, if_neg hstraight]
    by_cases hdiagonal : (toInt ec - toInt sc).natAbs = 1
    · rw [if_pos hdiagonal, if_pos hdiagonal]
      cases b.pieceAt er ec with
      | none => rfl
      | some dest =>
          simp only [Option.map_some, isWhite_piece, isBlack_piece]
          cases p.isWhite
          · simp only [Bool.not_false, Bool.true_and, Bool.false_and, Bool.false_eq_true, if_false, neg_neg]
          · simp only [Bool.not_true, Bool.true_and, Bool.false_and, Bool.false_eq_true, if_false]
    · rw [if_neg hdiagonal, if_neg hdiagonal]

theorem Boards.validator (h : M.Boards b b') (hs : b.InBounds sr sc) (he : b.InBounds er ec)
    {kind : PieceKind} {validator : MoveValidatorFn}
    (hvalidator : (getRuleEntry kind).validator = some validator) :
    validator b' (toInt (M.row sr)) (toInt sc) (toInt (M.row er)) (toInt ec)
      = validator b (toInt sr) (toInt sc) (toInt er) (toInt ec) := by
  have hsr : sr < M.rows := h.rows ▸ hs.1
  have her : er < M.rows := h.rows ▸ he.1
  have hs' := h.inBounds_iff.mpr hs
  have he' := h.inBounds_iff.mpr he
  have hdr : (toInt (M.row er) - toInt (M.row sr)).natAbs = (toInt er - toInt sr).natAbs := by
    rw [toInt_row hsr, toInt_row her]
    omega
  have hclear : ∀ on : Bool, (on = true → Aligned (toInt sr) (toInt sc) (toInt er) (toInt ec)) →
      (on && KungFuChess.pathClear b' (toInt (M.row sr)) (toInt sc) (toInt (M.row er)) (toInt ec))
        = (on && KungFuChess.pathClear b (toInt sr) (toInt sc) (toInt er) (toInt ec)) := by
    intro on haligned
    cases on with
    | false => rfl
    | true => rw [h.pathClear hs he (haligned rfl)]
  have hline : sr = er ∨ sc = ec → Aligned (toInt sr) (toInt sc) (toInt er) (toInt ec) :=
    fun hon => hon.elim (fun heq => .inl (congrArg toInt heq.symm))
      fun heq => .inr (.inl (congrArg toInt heq.symm))
  cases kind <;> cases hvalidator
  case king => simp only [isKingMove, hdr]
  case queen =>
    rw [isQueenMove_eq h.rect hs he, isQueenMove_eq h.rect' hs' he', hdr]
    simp only [row_inj]
    refine congrArg Except.ok (hclear _ fun hon => ?_)
    simp only [Bool.or_eq_true, decide_eq_true_eq] at hon
    exact hon.elim hline fun hdiagonal => .inr (.inr hdiagonal)
  case rook =>
    rw [isRookMove_eq h.rect hs he, isRookMove_eq h.rect' hs' he']
    simp only [row_inj]
    refine congrArg Except.ok (hclear _ fun hon => ?_)
    simp only [Bool.or_eq_true, decide_eq_true_eq] at hon
    exact hline hon
  case bishop =>
    rw [isBishopMove_eq h.rect hs he, isBishopMove_eq h.rect' hs' he', hdr]
    exact congrArg Except.ok (hclear _ fun hon => .inr (.inr (of_decide_eq_true hon)))
  case knight => simp only [validateKnightMove, isKnightMove, hdr]
  case pawn =>
    unfold isPawnMove
    rw [toSize_toInt, toSize_toInt, toSize_toInt, h.pieceAt]
    cases b.pieceAt sr sc with
    | none => rfl
    | some moving => exact h.isPawnMoveForPiece hs he moving

theorem Boards.isDestinationLegal (h : M.Boards b b') (sr sc er ec : Nat) :
    isDestinationLegal b' (toInt (M.row sr)) (toInt sc) (toInt (M.row er)) (toInt ec)
      = isDestinationLegal b (toInt sr) (toInt sc) (toInt er) (toInt ec) := by
  unfold KungFuChess.isDestinationLegal
  simp only [toSize_toInt, h.pieceAt]
  cases b.pieceAt er ec with
  | none => rfl
  | some dest =>
      cases b.pieceAt sr sc with
      | none => rfl
      | some moving => exact isOpponentOf_piece M moving dest

theorem Boards.isLegalMove (h : M.Boards b b') (kind : PieceKind) (sr sc er ec : Nat) :
    isLegalMove b' kind (toInt (M.row sr)) (toInt sc) (toInt (M.row er)) (toInt ec)
      = isLegalMove b kind (toInt sr) (toInt sc) (toInt er) (toInt ec) := by
  have hsame : toInt (M.row sr) = toInt (M.row er) ↔ toInt sr = toInt er :=
    ⟨fun heq => congrArg toInt (row_inj.mp (toInt_injective heq)),
      fun heq => congrArg (fun row => toInt (M.row row)) (toInt_injective heq)⟩
  unfold KungFuChess.isLegalMove
  rw [h.rows, h.rows', h.cols, contains_toInt, contains_toInt, contains_toInt, contains_toInt,
    h.isInBounds_eq, h.isInBounds_eq, h.isDestinationLegal]
  simp only [hsame]
  split
  · rfl
  split
  · rfl
  rename_i hin
  simp only [Bool.or_eq_true, Bool.not_eq_true', not_or, Bool.not_eq_false, isInBounds_iff] at hin
  split
  · rfl
  split
  · rfl
  · rename_i validator hvalidator
    rw [h.validator hin.1 hin.2 hvalidator]

theorem Boards.canSettleMove (h : M.Boards b b') {move : PendingMove} {p : Piece}
    (hp : b.findPieceById move.pieceId = some p) (hs : b.InBounds move.startPos.1 move.startPos.2)
    (he : b.InBounds move.endPos.1 move.endPos.2) :
    canSettleMove b' (M.move move) = canSettleMove b move := by
  have hp' : b'.findPieceById (M.move move).pieceId = some (M.piece p) := by
    rw [show (M.move move).pieceId = M.rename move.pieceId from rfl, h.findPieceById, hp]
    rfl
  unfold KungFuChess.canSettleMove
  dsimp only
  rw [getPiece_eq hp, getPiece_eq hp', ok_bind, ok_bind]
  simp only [Mirror.move, Mirror.cell, h.pieceAt, show (M.piece p).kind = p.kind from rfl,
    h.isPawnMoveForPiece hs he]
  cases hvalidator : (getRuleEntry p.kind).validator with
  | none => rfl
  | some validator =>
      simp only [h.validator hs he hvalidator]
      cases b.pieceAt move.endPos.1 move.endPos.2 with
      | none => rfl
      | some dest => simp only [Option.map_some, isOpponentOf_piece]

end Rules

end Mirror

end KungFuChess
