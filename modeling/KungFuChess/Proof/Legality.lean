import KungFuChess.Lib.GridLines
import KungFuChess.Proof.Pieces
import KungFuChess.Proof.Routes

/-!
# The rules of chess

`ChessMove` says what a piece may do on a board, without a walk or a loop. The validator answers by it when a
move is asked for, and `canSettleMove` when it arrives.
-/

namespace KungFuChess

open Loops BoardModel GridLines

/-! ### What the rules say -/

/-- The grid is made of rows of one length and holds pieces of the table, which are where their ids say. -/
structure BoardModel.Valid (b : BoardModel) : Prop where
  rect : b.Rect
  idsInPlace : b.IdsInPlace
  onTable : ∀ row col id, b.cellId row col = some id → (b.findPieceById id).isSome = true

/-- The piece on a cell of the board. -/
def BoardModel.pieceOn (b : BoardModel) (cell : Int × Int) : Option Piece :=
  if b.contains cell.1 cell.2 then b.pieceAt (toSize cell.1) (toSize cell.2) else none

def BoardModel.OpponentOn (b : BoardModel) (color : PieceColor) (cell : Int × Int) : Prop :=
  ∃ q, b.pieceOn cell = some q ∧ q.color ≠ color

def BoardModel.ClearBetween (b : BoardModel) (start target : Int × Int) : Prop :=
  ∀ cell, Between start target cell → b.pieceOn cell = none

def PieceColor.forward : PieceColor → Int
  | .white => -1
  | .black => 1

/-- The row in front of the last one on the piece's own side. -/
def secondRow (rows : Nat) : PieceColor → Int
  | .white => rows - 2
  | .black => 1

def PieceKind.slides : PieceKind → Bool
  | .rook | .bishop | .queen => true
  | _ => false

/-- The displacements of a piece that is not a pawn. -/
def PieceKind.Reaches (dr dc : Int) : PieceKind → Prop
  | .rook => dr = 0 ∨ dc = 0
  | .bishop => dr.natAbs = dc.natAbs
  | .queen => dr = 0 ∨ dc = 0 ∨ dr.natAbs = dc.natAbs
  | .knight => dr.natAbs = 1 ∧ dc.natAbs = 2 ∨ dr.natAbs = 2 ∧ dc.natAbs = 1
  | .king => dr.natAbs ≤ 1 ∧ dc.natAbs ≤ 1
  | .pawn | .count => False

inductive PawnMove (b : BoardModel) (color : PieceColor) (start target : Int × Int) : Prop where
  | step (htarget : target = (start.1 + color.forward, start.2)) (hempty : b.pieceOn target = none)
  | double (hrows : 4 ≤ b.rows) (hstart : start.1 = secondRow b.rows color)
      (htarget : target = (start.1 + 2 * color.forward, start.2))
      (hpassed : b.pieceOn (start.1 + color.forward, start.2) = none) (hempty : b.pieceOn target = none)
  | capture (hrow : target.1 = start.1 + color.forward) (hcol : (target.2 - start.2).natAbs = 1)
      (hopponent : b.OpponentOn color target)

structure PieceMove (b : BoardModel) (kind : PieceKind) (color : PieceColor) (start target : Int × Int) : Prop where
  reaches : kind.Reaches (target.1 - start.1) (target.2 - start.2)
  clear : kind.slides = true → b.ClearBetween start target
  free : b.pieceOn target = none ∨ b.OpponentOn color target

/-- What a piece may do from one cell of the board to another. -/
def ChessMove (b : BoardModel) (kind : PieceKind) (color : PieceColor) (start target : Int × Int) : Prop :=
  if kind = .pawn then PawnMove b color start target else PieceMove b kind color start target

/-! ### A move as shape, path and target -/

/-- What the rules ask of a move whatever stands on the board. -/
def MoveShape (rows : Nat) (kind : PieceKind) (color : PieceColor) (start target : Int × Int) : Prop :=
  if kind = .pawn then
    target.2 = start.2 ∧ (target.1 = start.1 + color.forward ∨
        target.1 = start.1 + 2 * color.forward ∧ 4 ≤ rows ∧ start.1 = secondRow rows color) ∨
      (target.2 - start.2).natAbs = 1 ∧ target.1 = start.1 + color.forward
  else kind.Reaches (target.1 - start.1) (target.2 - start.2)

/-- What may stand on the cell a move ends on. -/
def TargetFree (b : BoardModel) (kind : PieceKind) (color : PieceColor) (start target : Int × Int) : Prop :=
  (b.pieceOn target = none ∧ (kind = .pawn → target.2 = start.2)) ∨
    (b.OpponentOn color target ∧ (kind = .pawn → target.2 ≠ start.2))

section Spec

variable {b : BoardModel} {kind : PieceKind} {color : PieceColor} {start target : Int × Int}

theorem PieceColor.forward_cases (color : PieceColor) : color.forward = -1 ∨ color.forward = 1 := by
  cases color
  · exact .inl rfl
  · exact .inr rfl

/-- A piece that does not slide passes no cell. -/
theorem clearBetween_of_not_slides (hkind : kind ≠ .pawn) (hslides : kind.slides = false)
    (hreaches : kind.Reaches (target.1 - start.1) (target.2 - start.2)) : b.ClearBetween start target := by
  intro cell hbetween
  obtain ⟨halign, hfar⟩ := hbetween.far
  cases kind with
  | king => simp only [PieceKind.Reaches] at hreaches; omega
  | knight => simp only [PieceKind.Reaches] at hreaches; omega
  | rook => cases hslides
  | bishop => cases hslides
  | queen => cases hslides
  | pawn => exact absurd rfl hkind
  | count => exact hreaches.elim

/-- Between two cells two rows apart there is one cell. -/
theorem between_double_iff (color : PieceColor) {cell : Int × Int} :
    Between start (start.1 + 2 * color.forward, start.2) cell ↔ cell = (start.1 + color.forward, start.2) := by
  have hd : IsDirection (color.forward, 0) := by
    rcases color.forward_cases with h | h <;> rw [h] <;> refine ⟨by decide, by decide, by decide⟩
  have htarget : (start.1 + 2 * color.forward, start.2) = walk start (color.forward, 0) 2 := by
    simp [walk]
  rw [htarget, between_walk_iff hd (by decide)]
  constructor
  · intro h
    obtain ⟨k, hk, hk2, rfl⟩ := h
    obtain rfl : k = 1 := by omega
    simp [walk]
  · intro h
    obtain rfl := h
    exact ⟨1, by decide, by decide, by simp [walk]⟩

theorem chessMove_iff :
    ChessMove b kind color start target ↔ MoveShape b.rows kind color start target ∧
      b.ClearBetween start target ∧ TargetFree b kind color start target := by
  have hforward := color.forward_cases
  unfold ChessMove MoveShape TargetFree
  by_cases hpawn : kind = .pawn
  · simp only [hpawn, if_true, forall_const]
    constructor
    · intro h
      rcases h with ⟨htarget, hempty⟩ | ⟨hrows, hstart, htarget, hpassed, hempty⟩ | ⟨hrow, hcol, hopponent⟩
      · refine ⟨.inl ?_, fun cell hbetween => ?_, .inl ⟨hempty, by rw [htarget]⟩⟩
        · rw [htarget]
          exact ⟨rfl, .inl rfl⟩
        · have hfar := hbetween.far.2
          rw [htarget] at hfar
          omega
      · refine ⟨.inl ?_, fun cell hbetween => ?_, .inl ⟨hempty, by rw [htarget]⟩⟩
        · rw [htarget]
          exact ⟨rfl, .inr ⟨rfl, hrows, hstart⟩⟩
        · rw [htarget, between_double_iff] at hbetween
          rw [hbetween, hpassed]
      · refine ⟨.inr ⟨hcol, hrow⟩, fun cell hbetween => ?_, .inr ⟨hopponent, by omega⟩⟩
        have hfar := hbetween.far.2
        omega
    · intro h
      obtain ⟨⟨hcol, hrow | ⟨hrow, hrows, hstart⟩⟩ | ⟨hcol, hrow⟩, hclear, ⟨hempty, hsame⟩ | ⟨hopponent, hother⟩⟩ := h
      · exact .step (Prod.ext hrow hcol) hempty
      · exact absurd hcol hother
      · have htarget : target = (start.1 + 2 * color.forward, start.2) := Prod.ext hrow hcol
        refine .double hrows hstart htarget (hclear _ ?_) hempty
        rw [htarget, between_double_iff]
      · exact absurd hcol hother
      · omega
      · exact .capture hrow hcol hopponent
  · simp only [hpawn, if_false, false_imp_iff, and_true]
    constructor
    · intro h
      obtain ⟨hreaches, hclear, hfree⟩ := h
      refine ⟨hreaches, ?_, hfree⟩
      cases hslides : kind.slides with
      | true => exact hclear hslides
      | false => exact clearBetween_of_not_slides hpawn hslides hreaches
    · intro h
      obtain ⟨hreaches, hclear, hfree⟩ := h
      exact ⟨hreaches, fun _ => hclear, hfree⟩

end Spec

/-! ### The validators -/

section Validators

variable {b : BoardModel} {kind : PieceKind} {start target : Cell} {p : Piece}

theorem pointOf_inj (h : pointOf start = pointOf target) : start = target := by
  simp only [pointOf, Prod.mk.injEq] at h
  exact Prod.ext (toInt_injective h.1) (toInt_injective h.2)

theorem pieceOn_pointOf (b : BoardModel) (cell : Cell) : b.pieceOn (pointOf cell) = b.pieceAt cell.1 cell.2 := by
  simp only [pieceOn, pointOf, contains_toInt, toSize_toInt]
  split
  · rfl
  · rename_i hout
    rw [pieceAt, if_neg hout]

/-- A point of the board is the point of a cell. -/
theorem pointOf_toSize (point : Int × Int) (hrow : 0 ≤ point.1) (hcol : 0 ≤ point.2) :
    pointOf (toSize point.1, toSize point.2) = point := by
  simp only [pointOf, toSize, if_pos hrow, if_pos hcol, toInt, Int.toNat_of_nonneg hrow, Int.toNat_of_nonneg hcol]

theorem Located.valid {flights : List Flight} (h : Located b flights) : b.Valid where
  rect := h.rect
  idsInPlace := h.idsInPlace
  onTable row col id hcell := by
    obtain ⟨p, hp, -⟩ := h.onGrid row col id hcell
    rw [hp]
    rfl

theorem BoardModel.Valid.pieceAt_eq_none_iff (hb : b.Valid) {row col : Nat} :
    b.pieceAt row col = none ↔ b.cellId row col = none := by
  rw [pieceAt_eq hb.rect]
  cases hcell : b.cellId row col with
  | none => simp
  | some id =>
      have hsome := hb.onTable row col id hcell
      simpa [Option.isSome_iff_ne_none] using hsome

theorem BoardModel.Valid.id_ne (hb : b.Valid) {row col : Nat} (hp : b.pieceAt row col = some p) :
    p.id ≠ kInvalidId := by
  rw [pieceAt_eq hb.rect, Option.bind_eq_some_iff] at hp
  obtain ⟨id, -, hfind⟩ := hp
  rw [hb.idsInPlace id p hfind]
  exact (findPieceById_eq_some.mp hfind).1

/-- What a walk finds is what stands between its ends. -/
theorem pathClear_iff (hb : b.Valid)
    (h : Aligned (toInt start.1) (toInt start.2) (toInt target.1) (toInt target.2)) :
    pathClear b (toInt start.1) (toInt start.2) (toInt target.1) (toInt target.2) = true ↔
      b.ClearBetween (pointOf start) (pointOf target) := by
  have hmem := fun point => @mem_cellsBetween_iff (pointOf start) (pointOf target) point h
  simp only [pointOf] at hmem
  simp only [pathClear, List.all_eq_true, hmem, Option.isNone_iff_eq_none, ClearBetween, pointOf]
  refine forall₂_congr fun point hbetween => ?_
  obtain ⟨hrow, -, hcol, -⟩ := hbetween.bounds
  simp only [toInt] at hrow hcol
  rw [← hb.pieceAt_eq_none_iff, ← pointOf_toSize point (by omega) (by omega), pieceOn_pointOf]
  simp only [pointOf, toSize_toInt]

/-- A validator that is not the pawns' checks the displacement, and the path if the piece slides. -/
theorem validator_eq_true_iff (hb : b.Valid) (hs : b.InBounds start.1 start.2) (ht : b.InBounds target.1 target.2)
    (hne : start ≠ target) (hkind : kind ≠ .pawn) {validator : MoveValidatorFn}
    (hvalidator : (getRuleEntry kind).validator = some validator) :
    validator b (toInt start.1) (toInt start.2) (toInt target.1) (toInt target.2) = .ok true ↔
      kind.Reaches (toInt target.1 - toInt start.1) (toInt target.2 - toInt start.2) ∧
        (kind.slides = true → b.ClearBetween (pointOf start) (pointOf target)) := by
  have hrow : start.1 = target.1 ↔ toInt target.1 - toInt start.1 = 0 := by
    simp only [toInt]
    omega
  have hcol : start.2 = target.2 ↔ toInt target.2 - toInt start.2 = 0 := by
    simp only [toInt]
    omega
  have hline : toInt target.1 - toInt start.1 = 0 ∨ toInt target.2 - toInt start.2 = 0 →
      Aligned (toInt start.1) (toInt start.2) (toInt target.1) (toInt target.2) := by
    intro h
    unfold Aligned
    omega
  have hdiagonal : (toInt target.1 - toInt start.1).natAbs = (toInt target.2 - toInt start.2).natAbs →
      Aligned (toInt start.1) (toInt start.2) (toInt target.1) (toInt target.2) := fun h => .inr (.inr h)
  cases kind <;> cases hvalidator
  case king =>
    have hapart : ¬(toInt target.1 - toInt start.1 = 0 ∧ toInt target.2 - toInt start.2 = 0) := by
      rw [← hrow, ← hcol]
      exact fun hsame => hne (Prod.ext hsame.1 hsame.2)
    simp only [isKingMove, Except.ok.injEq, Bool.and_eq_true, decide_eq_true_eq, Bool.or_eq_true, bne_iff_ne,
      PieceKind.Reaches, PieceKind.slides, Bool.false_eq_true, false_imp_iff, and_true]
    omega
  case queen =>
    simp only [isQueenMove_eq hb.rect hs ht, Except.ok.injEq, Bool.and_eq_true, Bool.or_eq_true, decide_eq_true_eq,
      hrow, hcol, or_assoc, PieceKind.Reaches, PieceKind.slides, forall_const]
    refine and_congr_right fun hreach => pathClear_iff hb ?_
    rcases hreach with h | h | h
    · exact hline (.inl h)
    · exact hline (.inr h)
    · exact hdiagonal h
  case rook =>
    simp only [isRookMove_eq hb.rect hs ht, Except.ok.injEq, Bool.and_eq_true, Bool.or_eq_true, decide_eq_true_eq,
      hrow, hcol, PieceKind.Reaches, PieceKind.slides, forall_const]
    exact and_congr_right fun hreach => pathClear_iff hb (hline hreach)
  case bishop =>
    simp only [isBishopMove_eq hb.rect hs ht, Except.ok.injEq, Bool.and_eq_true, decide_eq_true_eq,
      PieceKind.Reaches, PieceKind.slides, forall_const]
    exact and_congr_right fun hreach => pathClear_iff hb (hdiagonal hreach)
  case knight =>
    simp only [validateKnightMove, isKnightMove, Except.ok.injEq, Bool.or_eq_true, Bool.and_eq_true, beq_iff_eq,
      PieceKind.Reaches, PieceKind.slides, Bool.false_eq_true, false_imp_iff, and_true]
    omega
  case pawn => exact absurd rfl hkind

/-- The read of the cell that a pawn passes. -/
theorem isEmpty_passed (hb : b.Valid) (hs : b.InBounds start.1 start.2) (color : PieceColor)
    (hin : 0 ≤ toInt start.1 + color.forward) (hrows : toInt start.1 + color.forward < b.rows) :
    b.isEmpty (toSize (toInt start.1 + color.forward)) (toSize (toInt start.2)) = .ok true ↔
      b.pieceOn (toInt start.1 + color.forward, toInt start.2) = none := by
  have hpoint := pointOf_toSize (toInt start.1 + color.forward, toInt start.2) hin (Int.natCast_nonneg _)
  have hbounds : b.InBounds (toSize (toInt start.1 + color.forward)) (toSize (toInt start.2)) := by
    rw [toSize_toInt]
    refine ⟨?_, hs.2⟩
    rw [toSize, if_pos hin]
    omega
  rw [isEmpty_eq hb.rect hbounds, ← hpoint, pieceOn_pointOf, hb.pieceAt_eq_none_iff]
  simp only [Except.ok.injEq, Option.isNone_iff_eq_none]

theorem pawnMove_iff (b : BoardModel) (color : PieceColor) (start target : Int × Int) :
    PawnMove b color start target ↔
      (target.2 - start.2 = 0 ∧ b.pieceOn target = none ∧ (target.1 - start.1 = color.forward ∨
          target.1 - start.1 = 2 * color.forward ∧ 4 ≤ b.rows ∧ start.1 = secondRow b.rows color ∧
            b.pieceOn (start.1 + color.forward, start.2) = none)) ∨
        (target.2 - start.2).natAbs = 1 ∧ target.1 - start.1 = color.forward ∧ b.OpponentOn color target := by
  constructor
  · intro h
    rcases h with ⟨rfl, hempty⟩ | ⟨hrows, hstart, rfl, hpassed, hempty⟩ | ⟨hrow, hcol, hopponent⟩
    · exact .inl ⟨by simp, hempty, .inl (by simp)⟩
    · exact .inl ⟨by simp, hempty, .inr ⟨by simp, hrows, hstart, hpassed⟩⟩
    · exact .inr ⟨hcol, by omega, hopponent⟩
  · intro h
    rcases h with ⟨hcol, hempty, hrow | ⟨hrow, hrows, hstart, hpassed⟩⟩ | ⟨hcol, hrow, hopponent⟩
    · exact .step (Prod.ext (by dsimp only; omega) (by dsimp only; omega)) hempty
    · exact .double hrows hstart (Prod.ext (by dsimp only; omega) (by dsimp only; omega)) hpassed hempty
    · exact .capture (by omega) hcol hopponent

theorem isPawnStartRow_iff (b : BoardModel) (color : PieceColor) (row : Int) :
    isPawnStartRow b color row = true ↔ 4 ≤ b.rows ∧ row = secondRow b.rows color := by
  unfold isPawnStartRow secondRow toInt
  by_cases hfew : b.rows < 4
  · have hfew' : (b.rows : Int) < 4 := by omega
    simp only [hfew', if_true, Bool.false_eq_true, false_iff]
    omega
  · have hmany : ¬(b.rows : Int) < 4 := by omega
    simp only [hmany, if_false]
    cases color <;> simp only [beq_iff_eq] <;> omega

/-- The rule of the pawns, written once for both colours. -/
theorem isPawnMoveForPiece_eq (b : BoardModel) (p : Piece) (startRow startCol endRow endCol : Int) :
    isPawnMoveForPiece b p startRow startCol endRow endCol =
      if endCol - startCol = 0 then
        if (b.pieceAt (toSize endRow) (toSize endCol)).isSome then .ok false
        else if endRow - startRow = p.color.forward then .ok true
        else if endRow - startRow = 2 * p.color.forward ∧ isPawnStartRow b p.color startRow = true then
          b.isEmpty (toSize (startRow + p.color.forward)) (toSize startCol)
        else .ok false
      else if (endCol - startCol).natAbs = 1 then
        .ok (decide (endRow - startRow = p.color.forward) &&
          (b.pieceAt (toSize endRow) (toSize endCol)).any fun dest => dest.color != p.color)
      else .ok false := by
  have hwhite : p.isWhite = true ↔ p.color = .white := beq_iff_eq
  have hblack : p.isBlack = true ↔ p.color = .black := beq_iff_eq
  have hdest : ∀ q : Piece, q.isBlack = (q.color != .white) ∧ q.isWhite = (q.color != .black) := by
    intro q
    unfold Piece.isBlack Piece.isWhite
    cases q.color <;> exact ⟨rfl, rfl⟩
  unfold isPawnMoveForPiece
  dsimp only
  split
  · cases hcolor : p.color <;>
      simp [hwhite, hblack, hcolor, PieceColor.forward, ← Int.sub_eq_add_neg]
  · cases b.pieceAt (toSize endRow) (toSize endCol) with
    | none => simp
    | some q =>
        by_cases hrow : endRow - startRow = p.color.forward <;> cases hcolor : p.color <;>
          simp_all [PieceColor.forward]

theorem isPawnMoveForPiece_iff (hb : b.Valid) (hs : b.InBounds start.1 start.2) :
    isPawnMoveForPiece b p (toInt start.1) (toInt start.2) (toInt target.1) (toInt target.2) = .ok true ↔
      PawnMove b p.color (pointOf start) (pointOf target) := by
  have hdest : b.pieceAt (toSize (toInt target.1)) (toSize (toInt target.2)) =
      b.pieceOn (toInt target.1, toInt target.2) := by
    rw [toSize_toInt, toSize_toInt, ← pieceOn_pointOf, pointOf]
  have hdouble : isPawnStartRow b p.color (toInt start.1) = true →
      (b.isEmpty (toSize (toInt start.1 + p.color.forward)) (toSize (toInt start.2)) = .ok true ↔
        b.pieceOn (toInt start.1 + p.color.forward, toInt start.2) = none) := by
    intro hstart
    obtain ⟨hmany, hrow⟩ := (isPawnStartRow_iff b p.color _).mp hstart
    refine isEmpty_passed hb hs p.color ?_ ?_ <;> rw [hrow] <;> cases p.color <;>
      simp only [secondRow, PieceColor.forward] <;> omega
  have hstart := isPawnStartRow_iff b p.color (toInt start.1)
  have hforward := p.color.forward_cases
  rw [isPawnMoveForPiece_eq, hdest, pointOf, pointOf, pawnMove_iff]
  dsimp only
  by_cases hstraight : toInt target.2 - toInt start.2 = 0
  · have haside : ¬(toInt target.2 - toInt start.2).natAbs = 1 := by omega
    rw [if_pos hstraight]
    by_cases hq : b.pieceOn (toInt target.1, toInt target.2) = none
    · rw [if_neg (by simp [hq])]
      by_cases hstep : toInt target.1 - toInt start.1 = p.color.forward
      · simp [hstep, hstraight, hq]
      · rw [if_neg hstep]
        by_cases htwo : toInt target.1 - toInt start.1 = 2 * p.color.forward ∧
            isPawnStartRow b p.color (toInt start.1) = true
        · obtain ⟨hmany, hfrom⟩ := hstart.mp htwo.2
          have hsecond : ¬2 * p.color.forward = p.color.forward := by omega
          rw [if_pos htwo, hdouble htwo.2, htwo.1]
          simp only [hstraight, hq, hmany, hfrom, hsecond, true_and, false_or, false_and, and_false,
            or_false]
        · rw [if_neg htwo]
          rw [hstart] at htwo
          simp only [hstraight, hq, hstep, true_and, false_or, false_and, and_false, or_false, Except.ok.injEq,
            Bool.false_eq_true, false_iff]
          exact fun hdoubled => htwo ⟨hdoubled.1, hdoubled.2.1, hdoubled.2.2.1⟩
    · rw [if_pos (Option.isSome_iff_ne_none.mpr hq)]
      simp [haside, hq]
  · rw [if_neg hstraight]
    by_cases hcol : (toInt target.2 - toInt start.2).natAbs = 1
    · simp only [hcol, if_true, Except.ok.injEq, Bool.and_eq_true, decide_eq_true_eq, Option.any_eq_true, bne_iff_ne,
        hstraight, false_and, false_or, true_and, OpponentOn]
    · simp [hcol, hstraight]

theorem Piece.isOpponentOf_iff {q : Piece} (hp : p.id ≠ kInvalidId) (hq : q.id ≠ kInvalidId) :
    p.isOpponentOf q = true ↔ q.color ≠ p.color := by
  simp only [isOpponentOf, Bool.and_eq_true, bne_iff_ne]
  exact ⟨fun h heq => h.2 heq.symm, fun h => ⟨⟨hp, hq⟩, Ne.symm h⟩⟩

/-- The check of the target that every kind but the pawns' asks for. -/
theorem destination_iff (hb : b.Valid) (hp : p.id ≠ kInvalidId) :
    (b.pieceAt target.1 target.2).all p.isOpponentOf = true ↔
      b.pieceOn (pointOf target) = none ∨ b.OpponentOn p.color (pointOf target) := by
  rw [pieceOn_pointOf, OpponentOn, pieceOn_pointOf]
  cases hq : b.pieceAt target.1 target.2 with
  | none => simp
  | some q => simp [Piece.isOpponentOf_iff hp (hb.id_ne hq)]

theorem requiresDestinationCheck_iff {validator : MoveValidatorFn} (h : (getRuleEntry kind).validator = some validator) :
    (getRuleEntry kind).requiresDestinationCheck = true ↔ kind ≠ .pawn := by
  cases kind <;> simp_all [getRuleEntry]

theorem not_chessMove_count (b : BoardModel) (color : PieceColor) (start target : Int × Int) :
    ¬ChessMove b .count color start target := fun h => h.reaches

/-- A validator and the check of the target after it. -/
theorem checks_iff {x : Checked Bool} {check d : Bool} :
    (do if !(← x) then return false
        if check then return d
        return true) = .ok true ↔ x = .ok true ∧ (check = true → d = true) := by
  cases x with
  | error fault =>
      refine ⟨fun h => ?_, fun h => ?_⟩
      · cases h
      · cases h.1
  | ok v => cases v <;> cases check <;> simp

/-- The two checks are the rules. -/
theorem chessMove_iff_checks (hb : b.Valid) (hp : p.id ≠ kInvalidId) (hs : b.InBounds start.1 start.2)
    (ht : b.InBounds target.1 target.2) (hne : start ≠ target) {validator : MoveValidatorFn}
    (hvalidator : (getRuleEntry p.kind).validator = some validator) :
    ChessMove b p.kind p.color (pointOf start) (pointOf target) ↔
      (if p.kind = .pawn then isPawnMoveForPiece b p (toInt start.1) (toInt start.2) (toInt target.1) (toInt target.2)
        else validator b (toInt start.1) (toInt start.2) (toInt target.1) (toInt target.2)) = .ok true ∧
      ((getRuleEntry p.kind).requiresDestinationCheck = true →
        (b.pieceAt target.1 target.2).all p.isOpponentOf = true) := by
  rw [requiresDestinationCheck_iff hvalidator, ChessMove]
  by_cases hpawn : p.kind = .pawn
  · simp [hpawn, isPawnMoveForPiece_iff hb hs]
  · rw [if_neg hpawn, if_neg hpawn, validator_eq_true_iff hb hs ht hne hpawn hvalidator, destination_iff hb hp]
    exact ⟨fun h => ⟨⟨h.reaches, h.clear⟩, fun _ => h.free⟩, fun h => ⟨h.1.1, h.1.2, h.2 hpawn⟩⟩

theorem validator_eq_none_iff : (getRuleEntry kind).validator = none ↔ kind = .count := by
  cases kind <;> simp [getRuleEntry]

/-- A move in flight may be settled just if it follows the rules on the board as it is. -/
theorem canSettleMove_iff (hb : b.Valid) {move : PendingMove} (hp : b.findPieceById move.pieceId = some p)
    (hs : b.InBounds move.startPos.1 move.startPos.2) (ht : b.InBounds move.endPos.1 move.endPos.2)
    (hne : move.startPos ≠ move.endPos) :
    canSettleMove b move = .ok true ↔ ChessMove b p.kind p.color (pointOf move.startPos) (pointOf move.endPos) := by
  have hid : p.id ≠ kInvalidId := by
    rw [hb.idsInPlace _ _ hp]
    exact (findPieceById_eq_some.mp hp).1
  unfold canSettleMove
  dsimp only
  rw [getPiece_eq hp, ok_bind]
  cases hvalidator : (getRuleEntry p.kind).validator with
  | none =>
      rw [validator_eq_none_iff.mp hvalidator]
      simp [not_chessMove_count]
  | some validator =>
      rw [chessMove_iff_checks hb hid hs ht hne hvalidator, ← checks_iff]
      cases b.pieceAt move.endPos.1 move.endPos.2 <;> rfl

/-- A move that is asked for is legal just if it goes to another cell of the board by the rules. -/
theorem isLegalMove_iff (hb : b.Valid) (hp : b.pieceAt start.1 start.2 = some p) :
    isLegalMove b p.kind (toInt start.1) (toInt start.2) (toInt target.1) (toInt target.2) = .ok true ↔
      b.InBounds target.1 target.2 ∧ start ≠ target ∧ ChessMove b p.kind p.color (pointOf start) (pointOf target) := by
  have hs : b.InBounds start.1 start.2 := by
    rw [pieceAt_eq hb.rect, Option.bind_eq_some_iff] at hp
    obtain ⟨id, hid, -⟩ := hp
    exact inBounds_of_cellId hb.rect hid
  have hid := hb.id_ne hp
  have hsize : ¬(b.rows = 0 ∨ b.cols = 0) := by
    obtain ⟨hrow, hcol⟩ := hs
    omega
  unfold isLegalMove
  rw [if_neg hsize, contains_toInt, contains_toInt, isInBounds_iff.mpr hs]
  by_cases ht : b.InBounds target.1 target.2
  · rw [isInBounds_iff.mpr ht]
    by_cases hne : start = target
    · simp [hne]
    · have hpoint : ¬(toInt start.1 = toInt target.1 ∧ toInt start.2 = toInt target.2) :=
        fun h => hne (pointOf_inj (Prod.ext h.1 h.2))
      simp only [Bool.not_true, Bool.or_self, Bool.false_eq_true, if_false, hpoint, ht, ne_eq, hne, not_false_eq_true,
        true_and]
      cases hvalidator : (getRuleEntry p.kind).validator with
      | none =>
          rw [validator_eq_none_iff.mp hvalidator]
          simp [not_chessMove_count]
      | some validator =>
          have hrule : (if p.kind = .pawn then
                isPawnMoveForPiece b p (toInt start.1) (toInt start.2) (toInt target.1) (toInt target.2)
              else validator b (toInt start.1) (toInt start.2) (toInt target.1) (toInt target.2)) =
              validator b (toInt start.1) (toInt start.2) (toInt target.1) (toInt target.2) := by
            split
            · rename_i hkind
              rw [hkind] at hvalidator
              cases hvalidator
              simp only [isPawnMove, toSize_toInt, hp]
            · rfl
          have hdest : isDestinationLegal b (toInt start.1) (toInt start.2) (toInt target.1) (toInt target.2) =
              (b.pieceAt target.1 target.2).all p.isOpponentOf := by
            simp only [isDestinationLegal, toSize_toInt, hp]
            cases b.pieceAt target.1 target.2 <;> rfl
          rw [chessMove_iff_checks hb hid hs ht hne hvalidator, hrule, ← checks_iff, hdest]
  · have hout : b.isInBounds target.1 target.2 = false := by
      rw [← Bool.not_eq_true, isInBounds_iff]
      exact ht
    simp [hout, ht]

/-- Every point is a cell, or off every board. -/
theorem point_cases (point : Int × Int) :
    (∃ cell, point = pointOf cell) ∨ ∀ b : BoardModel, b.contains point.1 point.2 = false := by
  by_cases hneg : point.1 < 0 ∨ point.2 < 0
  · exact .inr fun b => by rw [contains, if_pos hneg]
  · exact .inl ⟨_, (pointOf_toSize point (by omega) (by omega)).symm⟩

theorem contains_pointOf (b : BoardModel) (cell : Cell) :
    b.contains (pointOf cell).1 (pointOf cell).2 = true ↔ b.InBounds cell.1 cell.2 := by
  rw [pointOf, contains_toInt, isInBounds_iff]

/-- The validator answers for every valid board and every pair of cells, and its answer is that of the rules. -/
theorem legal_moves_are_chess_moves (hb : b.Valid) {start target : Int × Int} (hp : b.pieceOn start = some p) :
    ∃ legal, isLegalMove b p.kind start.1 start.2 target.1 target.2 = .ok legal ∧
      (legal = true ↔ b.contains start.1 start.2 = true ∧ b.contains target.1 target.2 = true ∧ start ≠ target ∧
        ChessMove b p.kind p.color start target) := by
  have hin : b.contains start.1 start.2 = true := by
    by_contra hout
    rw [pieceOn, if_neg hout] at hp
    cases hp
  obtain ⟨cell, rfl⟩ | hstart := point_cases start
  · rw [pieceOn_pointOf] at hp
    obtain ⟨other, rfl⟩ | htarget := point_cases target
    · obtain ⟨legal, hlegal⟩ := isLegalMove_total hb.rect p.kind cell.1 cell.2 other.1 other.2
      have hiff : isLegalMove b p.kind (toInt cell.1) (toInt cell.2) (toInt other.1) (toInt other.2) = .ok true ↔ _ :=
        isLegalMove_iff hb hp
      have hne : pointOf cell ≠ pointOf other ↔ cell ≠ other := not_congr ⟨pointOf_inj, congrArg pointOf⟩
      refine ⟨legal, hlegal, ?_⟩
      rw [hlegal, Except.ok.injEq] at hiff
      rw [hiff, contains_pointOf b other, hne, hin]
      simp only [true_and]
    · refine ⟨false, ?_, by simp [htarget b]⟩
      unfold isLegalMove
      rw [htarget b]
      simp
  · rw [hstart b] at hin
    cases hin

/-- The rook of the duel may take the king. -/
theorem legal_moves_are_chess_moves_duel :
    duelBoard.pieceOn (0, 0) = some ⟨1, .white, .rook, ⟨0, 0⟩, .idle⟩ ∧
      ∃ legal, isLegalMove duelBoard .rook 0 0 0 1 = .ok legal ∧
        (legal = true ↔ duelBoard.contains 0 0 = true ∧ duelBoard.contains 0 1 = true ∧ ((0, 0) : Int × Int) ≠ (0, 1) ∧
          ChessMove duelBoard .rook .white (0, 0) (0, 1)) := by
  have hpiece : duelBoard.pieceOn (0, 0) = some ⟨1, .white, .rook, ⟨0, 0⟩, .idle⟩ := by decide
  exact ⟨hpiece, @legal_moves_are_chess_moves _ _ (gameInv_new duelBoard_accepted).located.valid _ (0, 1) hpiece⟩

end Validators

end KungFuChess
