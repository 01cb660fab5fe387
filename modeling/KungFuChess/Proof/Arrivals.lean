import KungFuChess.Proof.Legality

/-!
# Asked for and arrived

A move is checked twice, by code of its own each time: on the board it is asked for on, and on the board without
the moving piece when it arrives. The checks read every cell but the one the piece came from, so they agree as
long as nothing else on the board changes.
-/

namespace KungFuChess

open Loops BoardModel GridLines

/-- Two boards that agree on every cell but one. -/
structure SameElsewhere (b b' : BoardModel) (start : Cell) : Prop where
  rows : b'.rows = b.rows
  cols : b'.cols = b.cols
  entry : ∀ cell : Cell, cell ≠ start → b'.entryAt cell.1 cell.2 = b.entryAt cell.1 cell.2
  piece : ∀ cell : Cell, cell ≠ start → b'.pieceAt cell.1 cell.2 = b.pieceAt cell.1 cell.2

section Elsewhere

variable {b b' : BoardModel} {start target : Cell} {kind : PieceKind} {p : Piece} {flights : List Flight}

theorem entryAt_setCell_of_ne (b : BoardModel) (id : Option Nat) {cell : Cell} (hne : cell ≠ start) :
    (b.setCell start.1 start.2 id).entryAt cell.1 cell.2 = b.entryAt cell.1 cell.2 := by
  simp only [entryAt, setCell, List.getElem?_modify, Option.map_eq_map]
  cases hrow : b.cells[cell.1]? with
  | none => rfl
  | some cells =>
      by_cases hsame : start.1 = cell.1
      · have hcol : start.2 ≠ cell.2 := fun heq => hne (Prod.ext hsame.symm heq.symm)
        simp [hsame, List.getElem?_set_ne hcol]
      · simp [hsame]

theorem isInBounds_setCell (b : BoardModel) (row col : Nat) (id : Option Nat) (row' col' : Nat) :
    (b.setCell row col id).isInBounds row' col' = b.isInBounds row' col' := by
  rw [Bool.eq_iff_iff, isInBounds_iff, isInBounds_iff]
  simp [InBounds]

theorem sameElsewhere_setCell (b : BoardModel) (start : Cell) (id : Option Nat) :
    SameElsewhere b (b.setCell start.1 start.2 id) start where
  rows := rows_setCell ..
  cols := cols_setCell ..
  entry cell hne := entryAt_setCell_of_ne b id hne
  piece cell hne := by
    simp only [pieceAt, isInBounds_setCell, cellId, entryAt_setCell_of_ne b id hne]
    rfl

theorem Located.cellId_lift (h : Located b flights) (hp : b.pieceAt start.1 start.2 = some p) (row col : Nat) :
    (b.lift p start.1 start.2).cellId row col = if (row, col) = start then none else b.cellId row col := by
  have hin := inBounds_of_cellId h.rect (h.pieceAt_eq_some_iff.mp hp).1
  have hgrid := cellId_setCell (rect_setPiece b { p with state := .moving } h.rect) hin none row col
  rw [cellId_setPiece] at hgrid
  rw [BoardModel.lift, hgrid]
  simp only [Prod.ext_iff]

theorem Located.findPieceById_lift (h : Located b flights) (hp : b.pieceAt start.1 start.2 = some p) (id : Nat) :
    (b.lift p start.1 start.2).findPieceById id =
      if id = p.id then some { p with state := .moving } else b.findPieceById id := by
  have hfind := (h.pieceAt_eq_some_iff.mp hp).2
  have hset := findPieceById_setPiece (p := { p with state := .moving }) hfind id
  rw [BoardModel.lift, findPieceById_setCell, hset]

/-- A piece that leaves its cell changes in the table only. -/
theorem Located.sameElsewhere_lift (h : Located b flights) (hp : b.pieceAt start.1 start.2 = some p) :
    SameElsewhere b (b.lift p start.1 start.2) start where
  rows := by simp [BoardModel.lift]
  cols := by simp [BoardModel.lift]
  entry cell hne := entryAt_setCell_of_ne (b.setPiece { p with state := .moving }) none hne
  piece cell hne := by
    obtain ⟨hcell, -⟩ := h.pieceAt_eq_some_iff.mp hp
    have hrect : (b.lift p start.1 start.2).Rect := rect_setCell _ _ _ _ (rect_setPiece b _ h.rect)
    rw [pieceAt_eq hrect, pieceAt_eq h.rect, h.cellId_lift hp, if_neg hne]
    cases hother : b.cellId cell.1 cell.2 with
    | none => rfl
    | some id =>
        have hid : id ≠ p.id := by
          intro h
          obtain rfl := h
          obtain ⟨hrow, hcol⟩ := h.cell_unique hother hcell
          exact hne (Prod.ext hrow hcol)
        rw [Option.bind_some, Option.bind_some, h.findPieceById_lift hp, if_neg hid]

theorem SameElsewhere.isEmpty (h : SameElsewhere b b' start) {cell : Cell} (hne : cell ≠ start) :
    b'.isEmpty cell.1 cell.2 = b.isEmpty cell.1 cell.2 := by
  simp only [BoardModel.isEmpty, h.entry cell hne]

theorem foldlM_congr_mem {σ α : Type} {f g : σ → α → Checked σ} {xs : List α}
    (h : ∀ x ∈ xs, ∀ s, f s x = g s x) (s : σ) : xs.foldlM f s = xs.foldlM g s := by
  induction xs generalizing s with
  | nil => rfl
  | cons x xs ih =>
      rw [List.foldlM_cons, List.foldlM_cons, h x List.mem_cons_self]
      exact bind_congr fun s => ih (fun y hy => h y (List.mem_cons_of_mem _ hy)) s

/-- A walk does not look at the cell it sets out from. -/
theorem SameElsewhere.isPathClear (h : SameElsewhere b b' start)
    (halign : Aligned (toInt start.1) (toInt start.2) (toInt target.1) (toInt target.2)) :
    isPathClear b' (toInt start.1) (toInt start.2) (toInt target.1) (toInt target.2) =
      isPathClear b (toInt start.1) (toInt start.2) (toInt target.1) (toInt target.2) := by
  rw [KungFuChess.isPathClear, KungFuChess.isPathClear, forEachCellOnPath_eq halign, ok_bind, ok_bind]
  refine foldlM_congr_mem (fun point hpoint clear => ?_) true
  have hbetween := (@mem_cellsBetween_iff (pointOf start) (pointOf target) point halign).mp hpoint
  obtain ⟨hrow, -, hcol, -⟩ := hbetween.bounds
  simp only [pointOf, toInt] at hrow hcol
  have hcell : ((toSize point.1, toSize point.2) : Cell) ≠ start := by
    intro heq
    refine hbetween.ne_start ?_
    rw [← heq, pointOf_toSize point (by omega) (by omega)]
  rw [h.isEmpty hcell]

theorem SameElsewhere.isRookMove (h : SameElsewhere b b' start) :
    isRookMove b' (toInt start.1) (toInt start.2) (toInt target.1) (toInt target.2) =
      isRookMove b (toInt start.1) (toInt start.2) (toInt target.1) (toInt target.2) := by
  unfold KungFuChess.isRookMove
  split
  · rfl
  · rename_i hline
    apply h.isPathClear
    unfold Aligned
    omega

theorem SameElsewhere.isBishopMove (h : SameElsewhere b b' start) :
    isBishopMove b' (toInt start.1) (toInt start.2) (toInt target.1) (toInt target.2) =
      isBishopMove b (toInt start.1) (toInt start.2) (toInt target.1) (toInt target.2) := by
  unfold KungFuChess.isBishopMove
  dsimp only
  split
  · rfl
  · rename_i hdiagonal
    exact h.isPathClear (.inr (.inr (not_not.mp hdiagonal)))

theorem SameElsewhere.validator (h : SameElsewhere b b' start) (hkind : kind ≠ .pawn) {validator : MoveValidatorFn}
    (hvalidator : (getRuleEntry kind).validator = some validator) :
    validator b' (toInt start.1) (toInt start.2) (toInt target.1) (toInt target.2) =
      validator b (toInt start.1) (toInt start.2) (toInt target.1) (toInt target.2) := by
  cases kind <;> cases hvalidator
  case king => rfl
  case queen => rw [isQueenMove, isQueenMove, h.isRookMove, h.isBishopMove]
  case rook => exact h.isRookMove
  case bishop => exact h.isBishopMove
  case knight => rfl
  case pawn => exact absurd rfl hkind

theorem SameElsewhere.isPawnMoveForPiece (h : SameElsewhere b b' start) (hne : start ≠ target) {p' : Piece}
    (hcolor : p'.color = p.color) :
    isPawnMoveForPiece b' p' (toInt start.1) (toInt start.2) (toInt target.1) (toInt target.2) =
      isPawnMoveForPiece b p (toInt start.1) (toInt start.2) (toInt target.1) (toInt target.2) := by
  rw [isPawnMoveForPiece_eq, isPawnMoveForPiece_eq, toSize_toInt, toSize_toInt, toSize_toInt, hcolor,
    h.piece target (Ne.symm hne)]
  have hrow : ∀ row, isPawnStartRow b' p.color row = isPawnStartRow b p.color row := by
    intro row
    unfold isPawnStartRow
    rw [h.rows]
  rw [hrow]
  split
  · split
    · rfl
    split
    · rfl
    split
    · rename_i hdouble
      obtain ⟨hmany, hsecond⟩ := (isPawnStartRow_iff b p.color _).mp hdouble.2
      have hpassed : ((toSize (toInt start.1 + p.color.forward), start.2) : Cell) ≠ start := by
        intro heq
        have hsame : toSize (toInt start.1 + p.color.forward) = start.1 := congrArg Prod.fst heq
        have hpos : 0 ≤ toInt start.1 + p.color.forward := by
          rw [hsecond]
          cases p.color <;> simp only [secondRow, PieceColor.forward] <;> omega
        rw [toSize, if_pos hpos] at hsame
        simp only [toInt] at hsame hpos
        rcases p.color.forward_cases with hforward | hforward <;> omega
      exact h.isEmpty hpassed
    · rfl
  · rfl

/-- A move that leaves a board as it was elsewhere arrives on it just if it may be asked for. -/
theorem SameElsewhere.canSettleMove_eq (h : SameElsewhere b b' start) (hs : b.InBounds start.1 start.2)
    (hp : b.pieceAt start.1 start.2 = some p) (ht : b.InBounds target.1 target.2) (hne : start ≠ target) {p' : Piece}
    {move : PendingMove} (hstart : move.startPos = start) (hend : move.endPos = target)
    (hp' : b'.findPieceById move.pieceId = some p') (hid : p'.id = p.id) (hcolor : p'.color = p.color)
    (hkind : p'.kind = p.kind) :
    canSettleMove b' move =
      isLegalMove b p.kind (toInt start.1) (toInt start.2) (toInt target.1) (toInt target.2) := by
  have hsize : ¬(b.rows = 0 ∨ b.cols = 0) := by
    obtain ⟨hrow, hcol⟩ := hs
    omega
  have hpoint : ¬(toInt start.1 = toInt target.1 ∧ toInt start.2 = toInt target.2) :=
    fun heq => hne (pointOf_inj (Prod.ext heq.1 heq.2))
  have hopponent : ∀ q, p'.isOpponentOf q = p.isOpponentOf q := by
    intro q
    unfold Piece.isOpponentOf
    rw [hid, hcolor]
  obtain ⟨id, _, _, startPos, endPos, _, _⟩ := move
  obtain rfl : start = startPos := hstart.symm
  obtain rfl : target = endPos := hend.symm
  unfold canSettleMove isLegalMove
  dsimp only at hp' ⊢
  rw [getPiece_eq hp', ok_bind, hkind, if_neg hsize, contains_toInt, contains_toInt, isInBounds_iff.mpr hs,
    isInBounds_iff.mpr ht, h.piece _ (Ne.symm hne)]
  simp only [Bool.not_true, Bool.or_self, Bool.false_eq_true, if_false, hpoint]
  cases hvalidator : (getRuleEntry p.kind).validator with
  | none => rfl
  | some validator =>
      have hrule : (if p.kind = .pawn then
            KungFuChess.isPawnMoveForPiece b' p' (toInt start.1) (toInt start.2) (toInt target.1) (toInt target.2)
          else validator b' (toInt start.1) (toInt start.2) (toInt target.1) (toInt target.2)) =
          validator b (toInt start.1) (toInt start.2) (toInt target.1) (toInt target.2) := by
        split
        · rename_i hpawn
          rw [hpawn] at hvalidator
          cases hvalidator
          rw [h.isPawnMoveForPiece hne hcolor]
          simp only [isPawnMove, toSize_toInt, hp]
        · rename_i hpawn
          exact h.validator hpawn hvalidator
      have hdest : isDestinationLegal b (toInt start.1) (toInt start.2) (toInt target.1) (toInt target.2) =
          (b.pieceAt target.1 target.2).all p.isOpponentOf := by
        simp only [isDestinationLegal, toSize_toInt, hp]
        cases b.pieceAt target.1 target.2 <;> rfl
      dsimp only
      rw [hrule, hdest]
      cases b.pieceAt target.1 target.2 with
      | none => rfl
      | some q =>
          simp only [hopponent]
          rfl

/-- On every board, the check of a move as it is asked for and the check of its arrival, on the board without the
moving piece, have the same result. -/
theorem request_and_arrival_agree {move : PendingMove} (hs : b.cellId start.1 start.2 = some move.pieceId)
    (hp : b.pieceAt start.1 start.2 = some p) (hstart : move.startPos = start)
    (ht : b.InBounds move.endPos.1 move.endPos.2) (hne : move.endPos ≠ start) :
    isLegalMove b p.kind (toInt start.1) (toInt start.2) (toInt move.endPos.1) (toInt move.endPos.2) = .ok true ↔
      ∃ cleared, b.clearCell start.1 start.2 = .ok cleared ∧ canSettleMove cleared move = .ok true := by
  have hbounds : b.isInBounds start.1 start.2 = true := by
    by_contra hout
    rw [pieceAt, if_neg hout] at hp
    cases hp
  have hfind : b.findPieceById move.pieceId = some p := by
    rw [pieceAt, if_pos hbounds, hs] at hp
    exact hp
  have hclear : b.clearCell start.1 start.2 = .ok (b.setCell start.1 start.2 none) := by
    have hentry : b.entryAt start.1 start.2 = some (some move.pieceId) := Option.join_eq_some_iff.mp hs
    simp only [clearCell, writeCell, hentry]
  have hagree := (sameElsewhere_setCell b start none).canSettleMove_eq (isInBounds_iff.mp hbounds) hp ht
    (Ne.symm hne) hstart rfl hfind rfl rfl rfl
  rw [hclear, ← hagree]
  simp

/-- The rook of the duel, asked to take the king. -/
theorem request_and_arrival_agree_duel :
    duelBoard.cellId 0 0 = some 1 ∧ duelBoard.pieceAt 0 0 = some ⟨1, .white, .rook, ⟨0, 0⟩, .idle⟩ ∧
      (isLegalMove duelBoard .rook 0 0 0 1 = .ok true ↔
        ∃ cleared, duelBoard.clearCell 0 0 = .ok cleared ∧
          canSettleMove cleared ⟨1, .white, .rook, (0, 0), (0, 1), 0, 1000⟩ = .ok true) := by
  have hs : duelBoard.cellId 0 0 = some 1 := by decide
  have hp : duelBoard.pieceAt 0 0 = some ⟨1, .white, .rook, ⟨0, 0⟩, .idle⟩ := by decide
  have ht : duelBoard.InBounds 0 1 := ⟨by decide, by decide⟩
  let move : PendingMove := ⟨1, .white, .rook, (0, 0), (0, 1), 0, 1000⟩
  have hstart : move.startPos = (0, 0) := rfl
  exact ⟨hs, hp, request_and_arrival_agree hs hp hstart ht (by decide)⟩

end Elsewhere

end KungFuChess
