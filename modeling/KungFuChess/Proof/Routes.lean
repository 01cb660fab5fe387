import KungFuChess.Lib.GridLines
import KungFuChess.Model.Routes
import KungFuChess.Proof.Rules

/-!
# Routes

A route is the line from the cell a piece leaves to the cell it goes to. The walks of `path_utils.cpp` visit the
cells of the line in their order and end.
-/

namespace KungFuChess

open Loops GridLines

/-- A grid cell as the walks are given it. -/
def pointOf (cell : Cell) : Int × Int := (toInt cell.1, toInt cell.2)

section Lines

variable {start target point : Int × Int}

/-- An aligned displacement, as steps in a direction. -/
theorem Aligned.walk_eq (h : Aligned start.1 start.2 target.1 target.2) :
    target = walk start (stepOf (target.1 - start.1), stepOf (target.2 - start.2))
      (max (target.1 - start.1).natAbs (target.2 - start.2).natAbs) := by
  obtain ⟨hrow, hcol⟩ := h.displacement
  exact Prod.ext hrow hcol

theorem isDirection_stepOf {dr dc : Int} (h : 0 < max dr.natAbs dc.natAbs) : IsDirection (stepOf dr, stepOf dc) := by
  have hunit : ∀ d : Int, (stepOf d).natAbs ≤ 1 := by
    intro d
    unfold stepOf
    split_ifs <;> decide
  refine ⟨hunit _, hunit _, fun hzero => ?_⟩
  simp only [Prod.mk.injEq, stepOf_eq_zero] at hzero
  omega

/-- The cells that the walk visits, as steps in a direction. -/
theorem cellsBetween_eq (startRow startCol endRow endCol : Int) :
    cellsBetween startRow startCol endRow endCol =
      (List.range (max (endRow - startRow).natAbs (endCol - startCol).natAbs - 1)).map fun i =>
        walk (startRow, startCol) (stepOf (endRow - startRow), stepOf (endCol - startCol)) (i + 1) := by
  simp only [cellsBetween, walk, Nat.cast_add, Nat.cast_one, add_mul, one_mul]
  apply List.map_congr_left
  intro i _
  exact Prod.ext (by ring) (by ring)

theorem mem_cellsBetween_iff (h : Aligned start.1 start.2 target.1 target.2) :
    point ∈ cellsBetween start.1 start.2 target.1 target.2 ↔ Between start target point := by
  have hwalk := h.walk_eq
  rw [cellsBetween_eq]
  have hd := @isDirection_stepOf (target.1 - start.1) (target.2 - start.2)
  generalize (stepOf (target.1 - start.1), stepOf (target.2 - start.2)) = d at hwalk hd ⊢
  generalize max (target.1 - start.1).natAbs (target.2 - start.2).natAbs = n at hwalk hd ⊢
  subst hwalk
  simp only [List.mem_map, List.mem_range]
  rcases Nat.eq_zero_or_pos n with rfl | hn
  · constructor
    · intro h
      obtain ⟨i, hi, -⟩ := h
      omega
    · intro h
      obtain ⟨d', hd', k, n', hk, hkn, -, htarget⟩ := h
      exact absurd (htarget.symm.trans walk_zero) (walk_ne_start hd' (hk.trans hkn))
  · rw [between_walk_iff (hd hn) hn]
    constructor
    · intro h
      obtain ⟨i, hi, rfl⟩ := h
      exact ⟨i + 1, by omega, by omega, rfl⟩
    · intro h
      obtain ⟨k, hk, hkn, rfl⟩ := h
      obtain ⟨i, rfl⟩ : ∃ i, k = i + 1 := ⟨k - 1, by omega⟩
      exact ⟨i, by omega, rfl⟩

/-- Every visited cell lies between the start and all the cells visited after it. -/
theorem pairwise_cellsBetween (startRow startCol endRow endCol : Int) :
    (cellsBetween startRow startCol endRow endCol).Pairwise fun first second =>
      Between (startRow, startCol) second first := by
  rw [cellsBetween_eq]
  rw [List.pairwise_map]
  refine List.pairwise_lt_range.imp_of_mem ?_
  intro i j _ hj hij
  rw [List.mem_range] at hj
  exact ⟨_, isDirection_stepOf (by omega), i + 1, j + 1, by omega, by omega, rfl, rfl⟩

/-- No cell is visited twice. -/
theorem nodup_cellsBetween (startRow startCol endRow endCol : Int) :
    (cellsBetween startRow startCol endRow endCol).Nodup := by
  refine (pairwise_cellsBetween startRow startCol endRow endCol).imp fun {first second} hbetween hsame => ?_
  obtain ⟨d, hd, k, n, hk, hkn, hfirst, hsecond⟩ := hbetween
  have hboth := hfirst.symm.trans (hsame.trans hsecond)
  exact hkn.ne ((walk_eq_iff hd hk hd (hk.trans hkn)).mp hboth).2

end Lines

/-! ### The search along a path -/

section Search

variable {test : Int → Int → Checked Bool} {p : Int × Int → Bool} {d : Int × Int}

/-- The search meets its end and has then tested every cell of the line. -/
theorem searchPath_eq (htest : ∀ cell, test cell.1 cell.2 = .ok (p cell)) (n : Nat) :
    ∀ (fuel : Nat) (start : Int × Int), (0 < n → IsDirection d) → n < fuel →
      searchPath test (walk start d n).1 (walk start d n).2 d.1 d.2 fuel start.1 start.2 =
        .ok ((List.range (n + 1)).any fun k => p (walk start d k)) := by
  induction n with
  | zero =>
      intro fuel start _ hfuel
      obtain ⟨fuel, rfl⟩ : ∃ f, fuel = f + 1 := ⟨fuel - 1, by omega⟩
      rw [searchPath, htest, ok_bind, walk_zero]
      cases hp : p start <;> simp [hp]
  | succ n ih =>
      intro fuel start hd hfuel
      obtain ⟨fuel, rfl⟩ : ∃ f, fuel = f + 1 := ⟨fuel - 1, by omega⟩
      have hdir := hd (Nat.succ_pos n)
      have hmore : ¬(start.1 = (walk start d (n + 1)).1 ∧ start.2 = (walk start d (n + 1)).2) := fun hend =>
        walk_ne_start hdir (Nat.succ_pos n) (Prod.ext hend.1 hend.2).symm
      have hstep : (start.1 + d.1, start.2 + d.2) = walk start d 1 := by simp [walk]
      rw [searchPath, htest, ok_bind, List.range_succ_eq_map, List.any_cons, List.any_map, walk_zero]
      cases hp : p start with
      | true => simp
      | false =>
          have hrest : ((fun k => p (walk start d k)) ∘ Nat.succ) = fun k => p (walk (walk start d 1) d k) :=
            funext fun k => congrArg p walk_succ
          rw [if_neg (by decide), if_neg hmore, Bool.false_or, hrest, walk_succ,
            ← ih fuel (walk start d 1) (fun _ => hdir) (by omega), ← hstep]

theorem aligned_iff {startRow startCol endRow endCol : Int} :
    isStraightOrDiagonalPath (endRow - startRow) (endCol - startCol) = true ↔
      Aligned startRow startCol endRow endCol := by
  unfold isStraightOrDiagonalPath Aligned
  split
  · simp only [true_iff]
    omega
  · rw [beq_iff_eq]
    omega

/-- Along the line of two aligned cells the search finds a cell that passes the test, if there is one. -/
theorem searchPath_onLine {start target : Int × Int} (htest : ∀ cell, test cell.1 cell.2 = .ok (p cell))
    (h : Aligned start.1 start.2 target.1 target.2) :
    ∃ found, searchPath test target.1 target.2 (stepOf (target.1 - start.1)) (stepOf (target.2 - start.2))
        (max (target.1 - start.1).natAbs (target.2 - start.2).natAbs + 1) start.1 start.2 = .ok found ∧
      (found = true ↔ ∃ cell, OnLine start target cell ∧ p cell = true) := by
  have hwalk := h.walk_eq
  have hd := @isDirection_stepOf (target.1 - start.1) (target.2 - start.2)
  have hsearch := searchPath_eq htest _ _ start hd (Nat.lt_succ_self _)
  have hline := @exists_onLine_walk_iff start _ _ hd fun cell => p cell = true
  rw [← hwalk] at hsearch hline
  refine ⟨_, hsearch, ?_⟩
  rw [hline]
  simp only [List.any_eq_true, List.mem_range, Nat.lt_succ_iff]

/-- What two paths have in common. -/
def ShareCell (aStart aEnd bStart bEnd : Int × Int) : Prop :=
  ∃ cell, OnLine aStart aEnd cell ∧ OnLine bStart bEnd cell

theorem shareCell_comm {aStart aEnd bStart bEnd : Int × Int} :
    ShareCell aStart aEnd bStart bEnd ↔ ShareCell bStart bEnd aStart aEnd := by
  unfold ShareCell
  simp only [and_comm]

end Search

section Moves

variable {aStart aEnd bStart bEnd : Cell} {a b : PendingMove}

theorem isOnPath_of_aligned (hb : Aligned (toInt bStart.1) (toInt bStart.2) (toInt bEnd.1) (toInt bEnd.2))
    (cell : Int × Int) :
    ∃ found, isOnPath bStart bEnd cell.1 cell.2 = .ok found ∧
      (found = true ↔ OnLine (pointOf bStart) (pointOf bEnd) cell) := by
  obtain ⟨found, hsearch, hfound⟩ := @searchPath_onLine (fun bRow bCol => .ok (cell.1 == bRow && cell.2 == bCol))
    (fun other => cell.1 == other.1 && cell.2 == other.2) (pointOf bStart) (pointOf bEnd) (fun _ => rfl) hb
  simp only [Bool.and_eq_true, beq_iff_eq, ← Prod.ext_iff, exists_eq_right'] at hfound
  exact ⟨found, hsearch, hfound⟩

theorem pathsShareCell_of_aligned (ha : Aligned (toInt aStart.1) (toInt aStart.2) (toInt aEnd.1) (toInt aEnd.2))
    (hb : Aligned (toInt bStart.1) (toInt bStart.2) (toInt bEnd.1) (toInt bEnd.2)) :
    ∃ shared, pathsShareCell aStart aEnd bStart bEnd = .ok shared ∧
      (shared = true ↔ ShareCell (pointOf aStart) (pointOf aEnd) (pointOf bStart) (pointOf bEnd)) := by
  unfold pathsShareCell
  dsimp only
  rw [aligned_iff.mpr ha, aligned_iff.mpr hb, if_neg (by decide)]
  choose onB hsearch honB using isOnPath_of_aligned hb
  obtain ⟨shared, hshared, hiff⟩ := @searchPath_onLine _ _ (pointOf aStart) (pointOf aEnd) hsearch ha
  refine ⟨shared, hshared, hiff.trans ?_⟩
  simp only [honB, ShareCell]

theorem pathsShareCell_of_not_aligned
    (h : ¬(Aligned (toInt aStart.1) (toInt aStart.2) (toInt aEnd.1) (toInt aEnd.2) ∧
      Aligned (toInt bStart.1) (toInt bStart.2) (toInt bEnd.1) (toInt bEnd.2))) :
    pathsShareCell aStart aEnd bStart bEnd =
      .ok (decide (aStart = bStart ∨ aStart = bEnd ∨ aEnd = bStart ∨ aEnd = bEnd)) := by
  unfold pathsShareCell
  dsimp only
  rw [if_pos]
  · simp [Bool.or_assoc, beq_eq_decide]
  · rw [← aligned_iff, ← aligned_iff, ← Bool.and_eq_true, Bool.not_eq_true] at h
    rw [← Bool.not_and, h]
    rfl

/-- The search answers for every four cells. -/
theorem pathsShareCell_spec (aStart aEnd bStart bEnd : Cell) :
    ∃ shared, pathsShareCell aStart aEnd bStart bEnd = .ok shared ∧
      (Aligned (toInt aStart.1) (toInt aStart.2) (toInt aEnd.1) (toInt aEnd.2) →
        Aligned (toInt bStart.1) (toInt bStart.2) (toInt bEnd.1) (toInt bEnd.2) →
        (shared = true ↔ ShareCell (pointOf aStart) (pointOf aEnd) (pointOf bStart) (pointOf bEnd))) ∧
      (¬(Aligned (toInt aStart.1) (toInt aStart.2) (toInt aEnd.1) (toInt aEnd.2) ∧
          Aligned (toInt bStart.1) (toInt bStart.2) (toInt bEnd.1) (toInt bEnd.2)) →
        (shared = true ↔ aStart = bStart ∨ aStart = bEnd ∨ aEnd = bStart ∨ aEnd = bEnd)) := by
  by_cases h : Aligned (toInt aStart.1) (toInt aStart.2) (toInt aEnd.1) (toInt aEnd.2) ∧
      Aligned (toInt bStart.1) (toInt bStart.2) (toInt bEnd.1) (toInt bEnd.2)
  · obtain ⟨shared, hshared, hiff⟩ := pathsShareCell_of_aligned h.1 h.2
    exact ⟨shared, hshared, fun _ _ => hiff, fun hnot => absurd h hnot⟩
  · exact ⟨_, pathsShareCell_of_not_aligned h, fun ha hb => absurd ⟨ha, hb⟩ h, fun _ => decide_eq_true_iff⟩

theorem pathsShareCell_comm (aStart aEnd bStart bEnd : Cell) :
    pathsShareCell aStart aEnd bStart bEnd = pathsShareCell bStart bEnd aStart aEnd := by
  obtain ⟨left, hleft, haligned, hother⟩ := pathsShareCell_spec aStart aEnd bStart bEnd
  obtain ⟨right, hright, haligned', hother'⟩ := pathsShareCell_spec bStart bEnd aStart aEnd
  rw [hleft, hright]
  refine congrArg Except.ok (Bool.eq_iff_iff.mpr ?_)
  by_cases h : Aligned (toInt aStart.1) (toInt aStart.2) (toInt aEnd.1) (toInt aEnd.2) ∧
      Aligned (toInt bStart.1) (toInt bStart.2) (toInt bEnd.1) (toInt bEnd.2)
  · rw [haligned h.1 h.2, haligned' h.2 h.1, shareCell_comm]
  · rw [hother h, hother' fun hboth => h hboth.symm]
    constructor
    · intro h
      rcases h with h | h | h | h <;> simp only [h, true_or, or_true]
    · intro h
      rcases h with h | h | h | h <;> simp only [h, true_or, or_true]

theorem rangesOverlap_comm (aMin aMax bMin bMax : Nat) :
    rangesOverlap aMin aMax bMin bMax = rangesOverlap bMin bMax aMin aMax := Bool.and_comm _ _

theorem hasCommonRoute_comm (a b : PendingMove) : hasCommonRoute a b = hasCommonRoute b a := by
  unfold hasCommonRoute
  rw [pathsShareCell_comm]
  simp only [and_comm (a := a.startPos.1 = a.endPos.1), and_comm (a := a.startPos.2 = a.endPos.2),
    rangesOverlap_comm (min a.startPos.1 a.endPos.1), rangesOverlap_comm (min a.startPos.2 a.endPos.2)]

theorem hasCommonRoute_spec (a b : PendingMove) :
    ∃ common, hasCommonRoute a b = .ok common ∧
      (pathsShareCell a.startPos a.endPos b.startPos b.endPos = .ok true → common = true) := by
  obtain ⟨shared, hshared, -⟩ := pathsShareCell_spec a.startPos a.endPos b.startPos b.endPos
  unfold hasCommonRoute
  rw [hshared, ok_bind]
  cases shared with
  | true => exact ⟨true, rfl, fun _ => rfl⟩
  | false =>
      rw [if_neg (by decide)]
      split_ifs
      · exact ⟨_, rfl, fun h => absurd (Except.ok.inj h) (by decide)⟩
      · exact ⟨_, rfl, fun h => absurd (Except.ok.inj h) (by decide)⟩
      · exact ⟨_, rfl, fun h => absurd (Except.ok.inj h) (by decide)⟩

/-- A proposed move is in conflict with the moves of the other colour in flight that have a route in common with it. -/
theorem conflictsWithOppositeColorMove_eq (pendingMoves : List PendingMove) (clockMs : Int) (movingColor : PieceColor)
    (proposed : PendingMove) :
    ∃ conflict, conflictsWithOppositeColorMove pendingMoves clockMs movingColor proposed = .ok conflict ∧
      (conflict = true ↔ ∃ existing ∈ pendingMoves, clockMs < existing.arrivalTime ∧ existing.color ≠ movingColor ∧
        hasCommonRoute existing proposed = .ok true) := by
  induction pendingMoves with
  | nil => exact ⟨false, rfl, by simp⟩
  | cons existing rest ih =>
      obtain ⟨conflict, hrest, hiff⟩ := ih
      simp only [List.exists_mem_cons_iff, ← hiff]
      rw [conflictsWithOppositeColorMove]
      by_cases harrived : clockMs ≥ existing.arrivalTime
      · rw [if_pos harrived]
        refine ⟨conflict, hrest, ?_⟩
        simp [harrived.not_gt]
      by_cases hcolor : existing.color = movingColor
      · rw [if_neg harrived, if_pos hcolor]
        exact ⟨conflict, hrest, by simp [hcolor]⟩
      rw [if_neg harrived, if_neg hcolor]
      obtain ⟨common, hcommon, -⟩ := hasCommonRoute_spec existing proposed
      rw [hcommon, ok_bind]
      cases common with
      | true => exact ⟨true, rfl, by simp [hcolor, lt_of_not_ge harrived]⟩
      | false => exact ⟨conflict, hrest, by simp⟩

/-! ### The path helpers -/

theorem path_helpers_exact :
    (∀ startRow startCol endRow endCol, Aligned startRow startCol endRow endCol →
      ∃ cells, forEachCellOnPath startRow startCol endRow endCol = .ok cells ∧ cells.Nodup ∧
        (∀ cell, cell ∈ cells ↔ Between (startRow, startCol) (endRow, endCol) cell) ∧
        cells.Pairwise fun first second => Between (startRow, startCol) second first) ∧
    (∀ aStart aEnd bStart bEnd : Cell, ∃ shared, pathsShareCell aStart aEnd bStart bEnd = .ok shared ∧
      (Aligned (toInt aStart.1) (toInt aStart.2) (toInt aEnd.1) (toInt aEnd.2) →
        Aligned (toInt bStart.1) (toInt bStart.2) (toInt bEnd.1) (toInt bEnd.2) →
        (shared = true ↔ ∃ cell, OnLine (pointOf aStart) (pointOf aEnd) cell ∧
          OnLine (pointOf bStart) (pointOf bEnd) cell)) ∧
      (¬(Aligned (toInt aStart.1) (toInt aStart.2) (toInt aEnd.1) (toInt aEnd.2) ∧
          Aligned (toInt bStart.1) (toInt bStart.2) (toInt bEnd.1) (toInt bEnd.2)) →
        (shared = true ↔ aStart = bStart ∨ aStart = bEnd ∨ aEnd = bStart ∨ aEnd = bEnd))) ∧
    ∀ a b : PendingMove, ∃ common, hasCommonRoute a b = .ok common ∧ hasCommonRoute b a = .ok common ∧
      (Aligned (toInt a.startPos.1) (toInt a.startPos.2) (toInt a.endPos.1) (toInt a.endPos.2) →
        Aligned (toInt b.startPos.1) (toInt b.startPos.2) (toInt b.endPos.1) (toInt b.endPos.2) →
        (∃ cell, OnLine (pointOf a.startPos) (pointOf a.endPos) cell ∧
          OnLine (pointOf b.startPos) (pointOf b.endPos) cell) → common = true) := by
  refine ⟨?_, pathsShareCell_spec, ?_⟩
  · intro startRow startCol endRow endCol h
    refine ⟨_, forEachCellOnPath_eq h, nodup_cellsBetween _ _ _ _, fun cell => ?_, pairwise_cellsBetween _ _ _ _⟩
    exact @mem_cellsBetween_iff (startRow, startCol) (endRow, endCol) cell h
  · intro a b
    obtain ⟨common, hcommon, hshare⟩ := hasCommonRoute_spec a b
    obtain ⟨shared, hshared, hiff, -⟩ := pathsShareCell_spec a.startPos a.endPos b.startPos b.endPos
    refine ⟨common, hcommon, hasCommonRoute_comm a b ▸ hcommon, fun ha hb hcell => hshare ?_⟩
    rw [hshared, (hiff ha hb).mpr hcell]

/-- A diagonal and the one across it meet in the cell (1, 1). -/
theorem path_helpers_exact_diagonals :
    (∃ cells, forEachCellOnPath 0 0 3 3 = .ok cells ∧ cells.Nodup ∧
      ∀ cell, cell ∈ cells ↔ Between (0, 0) (3, 3) cell) ∧
    (∃ shared, pathsShareCell (0, 0) (3, 3) (0, 2) (2, 0) = .ok shared ∧
      (shared = true ↔ ∃ cell, OnLine (pointOf (0, 0)) (pointOf (3, 3)) cell ∧
        OnLine (pointOf (0, 2)) (pointOf (2, 0)) cell)) ∧
    (∃ shared, pathsShareCell (0, 0) (1, 2) (1, 2) (4, 4) = .ok shared ∧
      (shared = true ↔ ((0, 0) : Cell) = (1, 2) ∨ ((0, 0) : Cell) = (4, 4) ∨ ((1, 2) : Cell) = (1, 2) ∨
        ((1, 2) : Cell) = (4, 4))) ∧
    hasCommonRoute ⟨1, .white, .bishop, (0, 0), (3, 3), 0, 3000⟩ ⟨2, .black, .bishop, (0, 2), (2, 0), 0, 2000⟩ =
      .ok true := by
  obtain ⟨hpath, hshare, hroute⟩ := path_helpers_exact
  have hlong : Aligned (toInt 0) (toInt 0) (toInt 3) (toInt 3) := .inr (.inr (by decide))
  have hacross : Aligned (toInt 0) (toInt 2) (toInt 2) (toInt 0) := .inr (.inr (by decide))
  have hoff : ¬Aligned (toInt 0) (toInt 0) (toInt 1) (toInt 2) := by
    unfold Aligned
    decide
  obtain ⟨cells, hcells, hnodup, hbetween, -⟩ := hpath 0 0 3 3 (.inr (.inr (by decide)))
  obtain ⟨met, hmet, haligned, -⟩ := hshare (0, 0) (3, 3) (0, 2) (2, 0)
  obtain ⟨ends, hends, -, hunaligned⟩ := hshare (0, 0) (1, 2) (1, 2) (4, 4)
  obtain ⟨common, hcommon, -, hmeets⟩ := hroute ⟨1, .white, .bishop, (0, 0), (3, 3), 0, 3000⟩
    ⟨2, .black, .bishop, (0, 2), (2, 0), 0, 2000⟩
  refine ⟨⟨cells, hcells, hnodup, hbetween⟩, ⟨met, hmet, haligned hlong hacross⟩,
    ⟨ends, hends, hunaligned fun h => hoff h.1⟩, ?_⟩
  rw [hcommon, hmeets hlong hacross ⟨(1, 1), .inr (.inr ⟨(1, 1), by simp [IsDirection], 1, 3, by decide⟩),
    .inr (.inr ⟨(1, -1), by simp [IsDirection], 1, 2, by decide⟩)⟩]

end Moves

end KungFuChess
