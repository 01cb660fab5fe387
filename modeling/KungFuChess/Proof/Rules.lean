import Mathlib.Tactic.Ring
import Mathlib.Tactic.Linarith
import KungFuChess.Model.Realtime
import KungFuChess.Proof.Board

/-!
# The validators answer

A validator reads the grid without a guard and walks a path until it meets the end cell. On a
rectangular board and between cells of the board, every walk that is started ends and stays on the
board, so every validator has an answer; and a settled move never comes down on a piece of its own
colour.
-/

namespace KungFuChess

open Loops BoardModel

/-! ### Walks -/

theorem stepOf_neg (d : Int) : stepOf (-d) = -stepOf d := by
  unfold stepOf
  split_ifs <;> omega

theorem stepOf_eq_zero {d : Int} : stepOf d = 0 ↔ d = 0 := by
  unfold stepOf
  split_ifs <;> simp_all

theorem natAbs_mul_stepOf (d : Int) : (d.natAbs : Int) * stepOf d = d := by
  unfold stepOf
  split_ifs <;> omega

theorem walkPath_eq {stepR stepC : Int} (hstep : stepR ≠ 0 ∨ stepC ≠ 0) (n : Nat) :
    ∀ (fuel : Nat) (row col : Int), n ≤ fuel →
      walkPath (row + n * stepR) (col + n * stepC) stepR stepC fuel row col =
        .ok ((List.range n).map fun (i : Nat) => (row + i * stepR, col + i * stepC)) := by
  induction n with
  | zero =>
      intro fuel row col _
      cases fuel <;> simp [walkPath]
  | succ n ih =>
      intro fuel row col hfuel
      obtain ⟨fuel, rfl⟩ : ∃ f, fuel = f + 1 := ⟨fuel - 1, by omega⟩
      have hpos : (0 : Int) < ((n + 1 : Nat) : Int) := by omega
      have hgo : row ≠ row + ((n + 1 : Nat) : Int) * stepR ∨ col ≠ col + ((n + 1 : Nat) : Int) * stepC := by
        refine hstep.imp (fun h => ?_) fun h => ?_
        · have := Int.mul_ne_zero (ne_of_gt hpos) h
          omega
        · have := Int.mul_ne_zero (ne_of_gt hpos) h
          omega
      have hrow : row + ((n + 1 : Nat) : Int) * stepR = row + stepR + (n : Int) * stepR := by
        push_cast
        ring
      have hcol : col + ((n + 1 : Nat) : Int) * stepC = col + stepC + (n : Int) * stepC := by
        push_cast
        ring
      rw [walkPath, if_pos hgo, hrow, hcol, ih fuel (row + stepR) (col + stepC) (by omega)]
      simp only [ok_bind, pure_eq_ok, List.range_succ_eq_map, List.map_cons, List.map_map,
        Nat.cast_zero, zero_mul, add_zero, Except.ok.injEq, List.cons.injEq, true_and]
      apply List.map_congr_left
      intro i _
      simp only [Function.comp_apply, Nat.succ_eq_add_one, Nat.cast_add, Nat.cast_one, Prod.mk.injEq]
      constructor <;> ring

/-- The two cells lie in one row, column or diagonal. -/
def Aligned (startRow startCol endRow endCol : Int) : Prop :=
  endRow = startRow ∨ endCol = startCol ∨ (endRow - startRow).natAbs = (endCol - startCol).natAbs

/-- The cells strictly between two aligned cells, from the first to the second. -/
def cellsBetween (startRow startCol endRow endCol : Int) : List (Int × Int) :=
  let dr := endRow - startRow
  let dc := endCol - startCol
  (List.range (max dr.natAbs dc.natAbs - 1)).map fun (i : Nat) =>
    (startRow + stepOf dr + i * stepOf dr, startCol + stepOf dc + i * stepOf dc)

section Walk

variable {startRow startCol endRow endCol : Int}

/-- An aligned displacement is the longer distance times the step, in both coordinates. -/
theorem Aligned.displacement (h : Aligned startRow startCol endRow endCol) :
    endRow = startRow + ((max (endRow - startRow).natAbs (endCol - startCol).natAbs : Nat) : Int)
        * stepOf (endRow - startRow) ∧
      endCol = startCol + ((max (endRow - startRow).natAbs (endCol - startCol).natAbs : Nat) : Int)
        * stepOf (endCol - startCol) := by
  have hr := natAbs_mul_stepOf (endRow - startRow)
  have hc := natAbs_mul_stepOf (endCol - startCol)
  rcases h with h | h | h
  · have hz : endRow - startRow = 0 := by omega
    have hm : max (endRow - startRow).natAbs (endCol - startCol).natAbs = (endCol - startCol).natAbs := by
      omega
    rw [hm, hc, stepOf_eq_zero.mpr hz]
    omega
  · have hz : endCol - startCol = 0 := by omega
    have hm : max (endRow - startRow).natAbs (endCol - startCol).natAbs = (endRow - startRow).natAbs := by
      omega
    rw [hm, hr, stepOf_eq_zero.mpr hz]
    omega
  · have hm : max (endRow - startRow).natAbs (endCol - startCol).natAbs = (endRow - startRow).natAbs := by
      omega
    rw [hm, hr, h, hc]
    omega

theorem forEachCellOnPath_eq (h : Aligned startRow startCol endRow endCol) :
    forEachCellOnPath startRow startCol endRow endCol =
      .ok (cellsBetween startRow startCol endRow endCol) := by
  obtain ⟨hrow, hcol⟩ := h.displacement
  unfold forEachCellOnPath cellsBetween
  generalize hn : max (endRow - startRow).natAbs (endCol - startCol).natAbs = n at hrow hcol ⊢
  dsimp only
  rw [hn]
  by_cases hzero : n = 0
  · have hr0 : endRow - startRow = 0 := by omega
    have hc0 : endCol - startCol = 0 := by omega
    have hrow' : endRow = startRow := by omega
    have hcol' : endCol = startCol := by omega
    subst hzero hrow' hcol'
    simp [walkPath, stepOf]
  · obtain ⟨m, rfl⟩ : ∃ m, n = m + 1 := ⟨n - 1, by omega⟩
    have hstep : stepOf (endRow - startRow) ≠ 0 ∨ stepOf (endCol - startCol) ≠ 0 := by
      rw [Ne, Ne, stepOf_eq_zero, stepOf_eq_zero]
      omega
    have hwalk := walkPath_eq hstep m (m + 1) (startRow + stepOf (endRow - startRow))
      (startCol + stepOf (endCol - startCol)) (by omega)
    push_cast at hrow hcol
    have hr' : startRow + stepOf (endRow - startRow) + (m : Int) * stepOf (endRow - startRow) = endRow := by
      linarith
    have hc' : startCol + stepOf (endCol - startCol) + (m : Int) * stepOf (endCol - startCol) = endCol := by
      linarith
    rw [hr', hc'] at hwalk
    rw [hwalk, Nat.add_sub_cancel]

theorem mem_cellsBetween (h : Aligned startRow startCol endRow endCol) {cell : Int × Int}
    (hcell : cell ∈ cellsBetween startRow startCol endRow endCol) :
    min startRow endRow ≤ cell.1 ∧ cell.1 ≤ max startRow endRow ∧
      min startCol endCol ≤ cell.2 ∧ cell.2 ≤ max startCol endCol := by
  obtain ⟨hrow, hcol⟩ := h.displacement
  simp only [cellsBetween, List.mem_map, List.mem_range] at hcell
  obtain ⟨i, hi, rfl⟩ := hcell
  generalize max (endRow - startRow).natAbs (endCol - startCol).natAbs = n at hi hrow hcol
  have hstep : ∀ d : Int, stepOf d = 0 ∨ stepOf d = 1 ∨ stepOf d = -1 := by
    intro d
    unfold stepOf
    split_ifs <;> simp
  constructor
  · rcases hstep (endRow - startRow) with hs | hs | hs <;> rw [hs] at hrow ⊢ <;> omega
  constructor
  · rcases hstep (endRow - startRow) with hs | hs | hs <;> rw [hs] at hrow ⊢ <;> omega
  constructor
  · rcases hstep (endCol - startCol) with hs | hs | hs <;> rw [hs] at hcol ⊢ <;> omega
  · rcases hstep (endCol - startCol) with hs | hs | hs <;> rw [hs] at hcol ⊢ <;> omega

end Walk

/-! ### Validators -/

section Validators

variable {b : BoardModel} {sr sc er ec : Nat}

/-- Whether every cell strictly between two cells is empty. -/
def pathClear (b : BoardModel) (startRow startCol endRow endCol : Int) : Bool :=
  (cellsBetween startRow startCol endRow endCol).all fun cell =>
    (b.cellId (toSize cell.1) (toSize cell.2)).isNone

theorem inBounds_between (hs : b.InBounds sr sc) (he : b.InBounds er ec)
    (h : Aligned (toInt sr) (toInt sc) (toInt er) (toInt ec)) {cell : Int × Int}
    (hcell : cell ∈ cellsBetween (toInt sr) (toInt sc) (toInt er) (toInt ec)) :
    b.InBounds (toSize cell.1) (toSize cell.2) := by
  obtain ⟨h1, h2, h3, h4⟩ := mem_cellsBetween h hcell
  obtain ⟨hsr, hsc⟩ := hs
  obtain ⟨her, hec⟩ := he
  have hr : 0 ≤ cell.1 := by
    simp only [toInt] at h1
    omega
  have hc : 0 ≤ cell.2 := by
    simp only [toInt] at h3
    omega
  simp only [toInt] at h2 h4
  simp only [toSize, if_pos hr, if_pos hc]
  constructor <;> omega

theorem isPathClear_eq (hrect : b.Rect) (hs : b.InBounds sr sc) (he : b.InBounds er ec)
    (h : Aligned (toInt sr) (toInt sc) (toInt er) (toInt ec)) :
    isPathClear b (toInt sr) (toInt sc) (toInt er) (toInt ec) =
      .ok (pathClear b (toInt sr) (toInt sc) (toInt er) (toInt ec)) := by
  rw [isPathClear, forEachCellOnPath_eq h, ok_bind, pathClear]
  have hin : ∀ cell ∈ cellsBetween (toInt sr) (toInt sc) (toInt er) (toInt ec),
      b.InBounds (toSize cell.1) (toSize cell.2) := fun _ => inBounds_between hs he h
  -- the visitor's flag, carried through the fold
  suffices hfold : ∀ (cells : List (Int × Int)) (clear : Bool),
      (∀ cell ∈ cells, b.InBounds (toSize cell.1) (toSize cell.2)) →
      cells.foldlM (m := Checked) (fun clear cell => do
        let empty ← b.isEmpty (toSize cell.1) (toSize cell.2)
        return if !empty then false else clear) clear =
      .ok (clear && cells.all fun cell => (b.cellId (toSize cell.1) (toSize cell.2)).isNone) by
    simpa using hfold _ true hin
  intro cells
  induction cells with
  | nil => simp
  | cons cell cells ih =>
      intro clear hcells
      rw [List.foldlM_cons, isEmpty_eq hrect (hcells cell List.mem_cons_self), ok_bind, pure_eq_ok,
        ok_bind, ih _ fun c hc => hcells c (List.mem_cons_of_mem _ hc), List.all_cons]
      cases (b.cellId (toSize cell.1) (toSize cell.2)).isNone <;> cases clear <;> rfl

theorem isRookMove_eq (hrect : b.Rect) (hs : b.InBounds sr sc) (he : b.InBounds er ec) :
    isRookMove b (toInt sr) (toInt sc) (toInt er) (toInt ec) =
      .ok ((decide (sr = er) || decide (sc = ec))
        && pathClear b (toInt sr) (toInt sc) (toInt er) (toInt ec)) := by
  unfold isRookMove
  split
  · rename_i hoff
    have hr : sr ≠ er := fun heq => hoff.1 (congrArg toInt heq)
    have hc : sc ≠ ec := fun heq => hoff.2 (congrArg toInt heq)
    simp [hr, hc]
  · rename_i hon
    have hline : sr = er ∨ sc = ec := by
      by_contra hneither
      push Not at hneither
      exact hon ⟨fun heq => hneither.1 (toInt_injective heq), fun heq => hneither.2 (toInt_injective heq)⟩
    rw [isPathClear_eq hrect hs he]
    · simp [hline]
    · rcases hline with rfl | rfl
      · exact Or.inl rfl
      · exact Or.inr (Or.inl rfl)

theorem isBishopMove_eq (hrect : b.Rect) (hs : b.InBounds sr sc) (he : b.InBounds er ec) :
    isBishopMove b (toInt sr) (toInt sc) (toInt er) (toInt ec) =
      .ok (decide ((toInt er - toInt sr).natAbs = (toInt ec - toInt sc).natAbs)
        && pathClear b (toInt sr) (toInt sc) (toInt er) (toInt ec)) := by
  unfold isBishopMove
  dsimp only
  split
  · rename_i hoff
    simp [hoff]
  · rename_i hon
    rw [Classical.not_not] at hon
    rw [isPathClear_eq hrect hs he (Or.inr (Or.inr hon))]
    simp [hon]

theorem isQueenMove_eq (hrect : b.Rect) (hs : b.InBounds sr sc) (he : b.InBounds er ec) :
    isQueenMove b (toInt sr) (toInt sc) (toInt er) (toInt ec) =
      .ok ((decide (sr = er) || decide (sc = ec)
          || decide ((toInt er - toInt sr).natAbs = (toInt ec - toInt sc).natAbs))
        && pathClear b (toInt sr) (toInt sc) (toInt er) (toInt ec)) := by
  rw [isQueenMove, isRookMove_eq hrect hs he, ok_bind, isBishopMove_eq hrect hs he]
  cases pathClear b (toInt sr) (toInt sc) (toInt er) (toInt ec) <;>
    by_cases hline : sr = er ∨ sc = ec <;> simp [hline]

theorem isEmpty_total (hrect : b.Rect) {row : Int} (hlow : 0 ≤ row) (hhigh : row < b.rows) (hcol : sc < b.cols) :
    ∃ v, b.isEmpty (toSize row) (toSize (toInt sc)) = .ok v := by
  refine ⟨_, isEmpty_eq hrect ⟨?_, ?_⟩⟩
  · rw [toSize, if_pos hlow]
    omega
  · rw [toSize_toInt]
    exact hcol

theorem isPawnMoveForPiece_total (hrect : b.Rect) (hs : b.InBounds sr sc) (he : b.InBounds er ec)
    (moving : Piece) :
    ∃ v, isPawnMoveForPiece b moving (toInt sr) (toInt sc) (toInt er) (toInt ec) = .ok v := by
  unfold isPawnMoveForPiece
  dsimp only
  obtain ⟨hsr, hsc⟩ := hs
  obtain ⟨her, hec⟩ := he
  split
  · split
    · exact ⟨_, rfl⟩
    split
    · exact ⟨_, rfl⟩
    split
    · exact ⟨_, rfl⟩
    split
    · rename_i hdouble
      simp only [Bool.and_eq_true, beq_iff_eq, toInt] at hdouble
      exact isEmpty_total hrect (by rw [toInt]; omega) (by rw [toInt]; omega) hsc
    split
    · rename_i hdouble
      simp only [Bool.and_eq_true, beq_iff_eq, toInt] at hdouble
      exact isEmpty_total hrect (by rw [toInt]; omega) (by rw [toInt]; omega) hsc
    · exact ⟨_, rfl⟩
  · split
    · split
      · exact ⟨_, rfl⟩
      · split
        · exact ⟨_, rfl⟩
        split
        · exact ⟨_, rfl⟩
        · exact ⟨_, rfl⟩
    · exact ⟨_, rfl⟩

theorem validator_total (hrect : b.Rect) (hs : b.InBounds sr sc) (he : b.InBounds er ec)
    {kind : PieceKind} {validator : MoveValidatorFn}
    (h : (getRuleEntry kind).validator = some validator) :
    ∃ v, validator b (toInt sr) (toInt sc) (toInt er) (toInt ec) = .ok v := by
  cases kind <;> cases h
  case king => exact ⟨_, rfl⟩
  case queen => exact ⟨_, isQueenMove_eq hrect hs he⟩
  case rook => exact ⟨_, isRookMove_eq hrect hs he⟩
  case bishop => exact ⟨_, isBishopMove_eq hrect hs he⟩
  case knight => exact ⟨_, rfl⟩
  case pawn =>
    unfold isPawnMove
    split
    · exact ⟨_, rfl⟩
    · exact isPawnMoveForPiece_total hrect hs he _

theorem isLegalMove_total (hrect : b.Rect) (kind : PieceKind) (sr sc er ec : Nat) :
    ∃ v, isLegalMove b kind (toInt sr) (toInt sc) (toInt er) (toInt ec) = .ok v := by
  unfold isLegalMove
  split
  · exact ⟨_, rfl⟩
  split
  · exact ⟨_, rfl⟩
  rename_i hin
  simp only [contains_toInt, Bool.or_eq_true, Bool.not_eq_true', not_or, Bool.not_eq_false,
    isInBounds_iff] at hin
  split
  · exact ⟨_, rfl⟩
  split
  · exact ⟨_, rfl⟩
  · rename_i validator hvalidator
    obtain ⟨v, hv⟩ := validator_total hrect hin.1 hin.2 hvalidator
    rw [hv, ok_bind]
    cases v
    · exact ⟨_, rfl⟩
    · cases (getRuleEntry kind).requiresDestinationCheck <;> exact ⟨_, rfl⟩

end Validators

/-! ### Arrivals -/

section Arrivals

variable {b : BoardModel} {move : PendingMove} {p q : Piece}

theorem canSettleMove_total (hrect : b.Rect) (hp : b.findPieceById move.pieceId = some p)
    (hs : b.InBounds move.startPos.1 move.startPos.2) (he : b.InBounds move.endPos.1 move.endPos.2) :
    ∃ v, canSettleMove b move = .ok v := by
  unfold canSettleMove
  dsimp only
  rw [getPiece_eq hp, ok_bind]
  split
  · exact ⟨_, rfl⟩
  · rename_i validator hvalidator
    have hplay : ∃ v, (if p.kind = .pawn then
        isPawnMoveForPiece b p (toInt move.startPos.1) (toInt move.startPos.2) (toInt move.endPos.1)
          (toInt move.endPos.2)
        else validator b (toInt move.startPos.1) (toInt move.startPos.2) (toInt move.endPos.1)
          (toInt move.endPos.2)) = .ok v := by
      split
      · exact isPawnMoveForPiece_total hrect hs he p
      · exact validator_total hrect hs he hvalidator
    obtain ⟨v, hv⟩ := hplay
    rw [hv, ok_bind]
    cases v
    · exact ⟨_, rfl⟩
    · simp only [Bool.not_true, Bool.false_eq_true, if_false]
      cases (getRuleEntry p.kind).requiresDestinationCheck
      · exact ⟨_, rfl⟩
      · cases b.pieceAt move.endPos.1 move.endPos.2 <;> exact ⟨_, rfl⟩

theorem isPawnMoveForPiece_dest {startRow startCol : Int} {er ec : Nat}
    (h : isPawnMoveForPiece b p startRow startCol (toInt er) (toInt ec) = .ok true)
    (hq : b.pieceAt er ec = some q) : q.color ≠ p.color := by
  unfold isPawnMoveForPiece at h
  simp only [toSize_toInt, hq, Option.isSome_some, if_true] at h
  split at h
  · cases h
  · split at h
    · split at h
      · rename_i hmoving
        simp only [Piece.isWhite, Piece.isBlack, Bool.and_eq_true, beq_iff_eq, Except.ok.injEq] at h hmoving
        rw [h, hmoving.1]
        decide
      · split at h
        · rename_i hmoving
          simp only [Piece.isWhite, Piece.isBlack, Bool.and_eq_true, beq_iff_eq, Except.ok.injEq] at h hmoving
          rw [h, hmoving.1]
          decide
        · cases h
    · cases h

/-- A move that can be settled does not come down on a piece of its own colour. -/
theorem canSettleMove_dest (hp : b.findPieceById move.pieceId = some p)
    (h : canSettleMove b move = .ok true) (hq : b.pieceAt move.endPos.1 move.endPos.2 = some q) :
    q.color ≠ p.color := by
  unfold canSettleMove at h
  dsimp only at h
  rw [getPiece_eq hp, ok_bind] at h
  split at h
  · cases h
  · rename_i validator hvalidator
    obtain ⟨v, hv, h⟩ := bind_eq_ok.mp h
    cases v
    · cases h
    · simp only [Bool.not_true, Bool.false_eq_true, if_false] at h
      by_cases hpawn : p.kind = .pawn
      · rw [if_pos hpawn] at hv
        exact isPawnMoveForPiece_dest hv hq
      · have hcheck : (getRuleEntry p.kind).requiresDestinationCheck = true := by
          cases hkind : p.kind <;> simp_all [getRuleEntry]
        simp only [hcheck, if_true, hq, pure_eq_ok, Except.ok.injEq] at h
        simp only [Piece.isOpponentOf, Bool.and_eq_true, bne_iff_ne] at h
        exact fun heq => h.2 heq.symm

end Arrivals

end KungFuChess
