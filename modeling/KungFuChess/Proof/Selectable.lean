import KungFuChess.Proof.Commands
import KungFuChess.Proof.RestCells
import KungFuChess.Proof.View

/-!
# What may be selected

A game looks for flights by the cell they have left and for rests by the piece. A client has only the cells: it takes a
cell for resting if any rest lies there. The two differ where the rest of a piece that has been taken lies under another
piece, so they agree for as long as no such rest is left behind.
-/

namespace KungFuChess

open Loops BoardModel

section Queries

variable {s : GameState} {row col : Nat}

/-- The piece is within its rest. -/
def OwnRest (s : GameState) (p : Piece) : Prop :=
  ∃ rest, s.activeRests.find? p.id = some rest ∧ s.clockMs < rest.endTimeMs

/-- Nothing that is in the air has left the cell. -/
def NoneAway (s : GameState) (cell : Cell) : Prop :=
  (∀ move ∈ s.pendingMoves, move.startPos ≠ cell) ∧ ∀ jump ∈ s.activeJumps, jump.cell ≠ cell

theorem isPieceMoving_eq_false_iff (h : GameInv s) :
    s.isPieceMoving row col = false ↔ ∀ move ∈ s.pendingMoves, move.startPos ≠ (row, col) := by
  unfold GameState.isPieceMoving RealTimeArbiter.isPieceMoving MoveScheduler.isPieceMoving
  rw [List.any_eq_false]
  refine forall₂_congr fun move hmove => ?_
  have hflying : s.arbiter.clockMs < move.arrivalTime := h.movesFlying move hmove
  simp [hflying, Prod.ext_iff]

theorem isPieceJumping_eq_false_iff (h : GameInv s) :
    s.isPieceJumping row col = false ↔ ∀ jump ∈ s.activeJumps, jump.cell ≠ (row, col) := by
  unfold GameState.isPieceJumping RealTimeArbiter.isPieceJumping MoveScheduler.isPieceJumping
  rw [List.any_eq_false]
  refine forall₂_congr fun jump hjump => ?_
  have hflying : s.arbiter.clockMs < jump.arrivalTime := h.jumpsFlying jump hjump
  simp [hflying, Prod.ext_iff]

theorem isPieceResting_eq_true_iff {p : Piece} (hp : s.board.pieceAt row col = some p) :
    s.isPieceResting row col = true ↔ OwnRest s p := by
  rw [GameState.isPieceResting, hp]
  dsimp only
  unfold RealTimeArbiter.isPieceResting MoveScheduler.isPieceResting OwnRest GameState.activeRests
  cases s.arbiter.scheduler.activeRests.find? p.id with
  | none => simp
  | some rest => simp [GameState.clockMs]

theorem isSelectablePiece_iff (h : GameInv s) :
    s.isSelectablePiece row col = .ok true ↔
      ∃ p, s.board.pieceAt row col = some p ∧ ¬OwnRest s p ∧ NoneAway s (row, col) := by
  rw [isSelectablePiece_eq h.located, Except.ok.injEq]
  cases hp : s.board.pieceAt row col with
  | none => simp
  | some p =>
      simp only [Option.isSome_some, Bool.true_and, Bool.and_eq_true, Bool.not_eq_true', isPieceMoving_eq_false_iff h,
        isPieceJumping_eq_false_iff h, ← Bool.not_eq_true, isPieceResting_eq_true_iff hp, Option.some.injEq,
        exists_eq_left', NoneAway]
      exact and_comm

end Queries

/-! ### What a game lets be selected -/

/-- A cell may be selected if there is a piece on it that is idle and not within its rest, and nothing in the air has
left the cell. -/
theorem selectable_iff {s : GameState} (hreach : Reachable s) (row col : Nat) :
    ∃ v, s.isSelectablePiece row col = .ok v ∧
      (v = true ↔ ∃ p, s.board.pieceAt row col = some p ∧ p.state = .idle ∧ ¬OwnRest s p ∧
        (∀ move ∈ s.pendingMoves, move.startPos ≠ (row, col)) ∧ ∀ jump ∈ s.activeJumps, jump.cell ≠ (row, col)) := by
  have h := hreach.inv
  have hiff := @isSelectablePiece_iff s row col h
  refine ⟨_, isSelectablePiece_eq h.located row col, ?_⟩
  rw [isSelectablePiece_eq h.located, Except.ok.injEq] at hiff
  rw [hiff]
  refine exists_congr fun p => and_congr_right fun hp => ?_
  exact (and_iff_right (h.located.idle_of_pieceAt hp).1).symm

/-- A rook with room to fly, and a king beside it. -/
def runwayBoard : BoardModel :=
  ⟨[[some 1, none, none, none, none, none, none, none], [some 2, none, none, none, none, none, none, none]],
    [⟨1, .white, .rook, ⟨0, 0⟩, .idle⟩, ⟨2, .white, .king, ⟨1, 0⟩, .idle⟩]⟩

theorem runwayBoard_accepted : AcceptedBoard runwayBoard :=
  ⟨["wR . . . . . . .".toList, "wK . . . . . . .".toList], ⟨[], []⟩, by decide⟩

theorem selectable_iff_runway :
    ∃ s, (GameState.new runwayBoard).runActions [.select 0 0, .moveSelected 0 7] = .ok s ∧
      ∃ v, s.isSelectablePiece 1 0 = .ok v ∧
        (v = true ↔ ∃ p, s.board.pieceAt 1 0 = some p ∧ p.state = .idle ∧ ¬OwnRest s p ∧
          (∀ move ∈ s.pendingMoves, move.startPos ≠ (1, 0)) ∧ ∀ jump ∈ s.activeJumps, jump.cell ≠ (1, 0)) := by
  obtain ⟨s, hs, -⟩ := runActions_inv (gameInv_new runwayBoard_accepted) [.select 0 0, .moveSelected 0 7]
  exact ⟨s, hs, selectable_iff ⟨runwayBoard, runwayBoard_accepted, _, hs⟩ 1 0⟩

/-- The king has stepped onto the cell that the rook has left, and rested there while the rook still flies. -/
theorem not_selectable_iff_idle :
    ¬∀ s, Reachable s → ∀ row col, s.isSelectablePiece row col = .ok true ↔
      ∃ p, s.board.pieceAt row col = some p ∧ p.state = .idle ∧ ¬OwnRest s p := by
  intro hclaim
  have hrun : (fun s => (s.isSelectablePiece 0 0, s.board.pieceAt 0 0, s.activeRests.find? 2)) <$>
      (GameState.new runwayBoard).runActions [.select 0 0, .moveSelected 0 7, .select 1 0, .moveSelected 0 0,
        .advanceClock 1000, .advanceClock 4500] =
      .ok (.ok false, some ⟨2, .white, .king, ⟨0, 0⟩, .idle⟩, none) := by decide
  obtain ⟨s, hs, hshown⟩ := map_eq_ok.mp hrun
  simp only [Prod.mk.injEq] at hshown
  obtain ⟨hrefused, hp, hnone⟩ := hshown
  have hselectable := (hclaim s ⟨runwayBoard, runwayBoard_accepted, _, hs⟩ 0 0).mpr ⟨_, hp, rfl, fun hrest => by
    obtain ⟨rest, hrest, -⟩ := hrest
    cases hrest.symm.trans hnone⟩
  cases hselectable.symm.trans hrefused

/-! ### What a client takes for selectable -/

/-- On a cell from which nothing has left, a piece without a rest stands where a rest lies. -/
def Haunted (s : GameState) (cell : Cell) : Prop :=
  (∃ p, s.board.pieceAt cell.1 cell.2 = some p ∧ s.activeRests.find? p.id = none) ∧ NoneAway s cell ∧
    ∃ id rest, s.activeRests.find? id = some rest ∧ (rest.row, rest.col) = cell

section Client

variable {F : Type} (floats : FloatRatio F) {s : GameState} {row col : Nat}

theorem boardViewIsMoveOrigin_build (h : GameInv s) :
    boardViewIsMoveOrigin (buildBoardView floats s) row col = s.isPieceMoving row col := by
  rw [Bool.eq_iff_iff, ← not_iff_not, Bool.not_eq_true, Bool.not_eq_true, isPieceMoving_eq_false_iff h,
    boardViewIsMoveOrigin, moves_buildBoardView floats h, List.any_map, List.any_eq_false]
  refine forall₂_congr fun move _ => ?_
  simp [showMove, Prod.ext_iff]

theorem boardViewIsJumpOrigin_build (h : GameInv s) :
    boardViewIsJumpOrigin (buildBoardView floats s) row col = s.isPieceJumping row col := by
  rw [Bool.eq_iff_iff, ← not_iff_not, Bool.not_eq_true, Bool.not_eq_true, isPieceJumping_eq_false_iff h,
    boardViewIsJumpOrigin, jumps_buildBoardView floats h, List.any_map, List.any_eq_false]
  refine forall₂_congr fun jump _ => ?_
  simp [showJump, Prod.ext_iff]

/-- The entry of the rest of a piece is shown until it is over. -/
theorem boardViewIsRestingCell_build (hr : RestInv s) :
    boardViewIsRestingCell (buildBoardView floats s) row col = true ↔
      ∃ id rest, s.activeRests.find? id = some rest ∧ (rest.row, rest.col) = (row, col) := by
  rw [boardViewIsRestingCell, findRestAt, List.find?_isSome]
  constructor
  · intro h
    obtain ⟨shownRest, hshown, hcell⟩ := h
    obtain ⟨⟨id, rest⟩, hentry, hshows⟩ := List.mem_filterMap.mp hshown
    dsimp only at hshows
    split at hshows
    · cases hshows
    · cases hshows
      exact ⟨id, rest, OrdMap.find?_eq_some_iff.mpr hentry, by simpa [Prod.ext_iff] using hcell⟩
  · intro h
    obtain ⟨id, rest, hrest, hcell⟩ := h
    refine ⟨_, List.mem_filterMap.mpr ⟨(id, rest), OrdMap.find?_eq_some_iff.mp hrest, if_neg ?_⟩, ?_⟩
    · exact Int.not_le.mpr (hr.running id rest hrest)
    · simpa [Prod.ext_iff] using hcell

/-- The rest of a piece on the board lies on its cell. -/
theorem RestCells.on_cell (hc : RestCells s) (h : GameInv s) {p : Piece} (hp : s.board.pieceAt row col = some p)
    {rest : ActiveRest} (hrest : s.activeRests.find? p.id = some rest) : (rest.row, rest.col) = (row, col) := by
  have hfind := (h.located.pieceAt_eq_some_iff.mp hp).2
  obtain ⟨hidle, hcell⟩ := h.located.idle_of_pieceAt hp
  obtain ⟨q, hq, hwhere⟩ := hc _ _ hrest
  cases hfind.symm.trans hq
  rcases hwhere with hcaptured | hat
  · cases hidle.symm.trans hcaptured
  · obtain ⟨hrow, hcol⟩ := positionOf_inj (hat.symm.trans hcell)
    exact Prod.ext hrow hcol

theorem viewIsSelectablePiece_iff (hreach : Reachable s) :
    viewIsSelectablePiece (buildBoardView floats s) row col = true ↔
      (∃ p, s.board.pieceAt row col = some p) ∧ NoneAway s (row, col) ∧
        ∀ id rest, s.activeRests.find? id = some rest → (rest.row, rest.col) ≠ (row, col) := by
  have h := hreach.inv
  have hpiece : (boardViewPieceAt (buildBoardView floats s) row col).isSome = true ↔
      ∃ p, s.board.pieceAt row col = some p := by
    rw [boardViewPieceAt_build floats hreach.playable, Option.isSome_map, Option.isSome_iff_exists]
  have hrests : boardViewIsRestingCell (buildBoardView floats s) row col = false ↔
      ∀ id rest, s.activeRests.find? id = some rest → (rest.row, rest.col) ≠ (row, col) := by
    rw [← Bool.not_eq_true, boardViewIsRestingCell_build floats hreach.restInv]
    simp only [not_exists, not_and]
  rw [← hpiece, ← hrests, NoneAway, ← isPieceMoving_eq_false_iff h, ← isPieceJumping_eq_false_iff h,
    ← boardViewIsMoveOrigin_build floats h, ← boardViewIsJumpOrigin_build floats h, viewIsSelectablePiece]
  cases (boardViewPieceAt (buildBoardView floats s) row col).isSome <;>
    cases boardViewIsMoveOrigin (buildBoardView floats s) row col <;>
    cases boardViewIsJumpOrigin (buildBoardView floats s) row col <;>
    cases boardViewIsRestingCell (buildBoardView floats s) row col <;> decide

/-- A client never takes more for selectable than there is. -/
theorem isSelectablePiece_of_view (hreach : Reachable s)
    (hview : viewIsSelectablePiece (buildBoardView floats s) row col = true) :
    s.isSelectablePiece row col = .ok true := by
  obtain ⟨⟨p, hp⟩, haway, hrests⟩ := (viewIsSelectablePiece_iff floats hreach).mp hview
  refine (isSelectablePiece_iff hreach.inv).mpr ⟨p, hp, ?_, haway⟩
  intro h
  obtain ⟨rest, hrest, -⟩ := h
  exact hrests _ rest hrest (hreach.restCells.on_cell hreach.inv hp hrest)

theorem selects_alike_iff (hreach : Reachable s) (cell : Cell) :
    s.isSelectablePiece cell.1 cell.2 = .ok (viewIsSelectablePiece (buildBoardView floats s) cell.1 cell.2) ↔
      ¬Haunted s cell := by
  have h := hreach.inv
  constructor
  · intro hsame h
    obtain ⟨⟨p, hp, hnone⟩, haway, hrest⟩ := h
    have hown : ¬OwnRest s p := by
      intro h
      obtain ⟨rest, hown, -⟩ := h
      cases hown.symm.trans hnone
    have hserver := (isSelectablePiece_iff h).mpr ⟨p, hp, hown, haway⟩
    obtain ⟨id, rest, hfind, hcell⟩ := hrest
    have hclient := ((viewIsSelectablePiece_iff floats hreach).mp
      (Except.ok.inj (hsame.symm.trans hserver))).2.2
    exact hclient id rest hfind hcell
  · intro hclear
    cases hview : viewIsSelectablePiece (buildBoardView floats s) cell.1 cell.2 with
    | true => exact isSelectablePiece_of_view floats hreach hview
    | false =>
        have hrefused := isSelectablePiece_eq h.located cell.1 cell.2
        rw [hrefused, Except.ok.injEq, ← Bool.not_eq_true]
        intro hserver
        rw [hserver] at hrefused
        obtain ⟨p, hp, hown, haway⟩ := (isSelectablePiece_iff h).mp hrefused
        -- the piece has no rest, so a rest on its cell is that of another
        have hnone : s.activeRests.find? p.id = none := by
          cases hrest : s.activeRests.find? p.id with
          | none => rfl
          | some rest => exact absurd ⟨rest, hrest, hreach.restInv.running _ rest hrest⟩ hown
        have hclient := (viewIsSelectablePiece_iff floats hreach).mpr ⟨⟨p, hp⟩, haway, fun id rest hrest hcell =>
          hclear ⟨⟨p, hp, hnone⟩, haway, id, rest, hrest, hcell⟩⟩
        cases hview.symm.trans hclient

/-- Without rests of pieces that have been taken no cell is haunted. -/
theorem NoGhosts.not_haunted (hg : NoGhosts s) (hreach : Reachable s) (cell : Cell) : ¬Haunted s cell := by
  intro h
  obtain ⟨⟨p, hp, hnone⟩, -, id, rest, hrest, hcell⟩ := h
  have hlocated := hreach.inv.located
  obtain ⟨q, hq, hwhere⟩ := hreach.restCells id rest hrest
  have hgrounded : id ∉ (flightsOf s.pendingMoves s.activeJumps).map Flight.id := by
    intro hmem
    obtain ⟨f, hf, rfl⟩ := List.mem_map.mp hmem
    cases (hreach.restInv.flying f hf).symm.trans hrest
  have htaken : TakenOrAt s.board id cell := hcell ▸ ⟨q, hq, hwhere⟩
  rcases htaken.cases hlocated hgrounded with ⟨r, hr, hstate⟩ | hstands
  · exact hg id rest r hrest hr hstate
  · rw [(hlocated.pieceAt_eq_some_iff.mp hp).1, Option.some.injEq] at hstands
    subst hstands
    cases hnone.symm.trans hrest

end Client

/-! ### A client and its server -/

/-- A client lets be selected what the server does, but for the haunted cells. There are none in a run in which nothing
that comes back takes a piece at rest. -/
theorem client_selects_as_server_iff {F : Type} (floats : FloatRatio F) :
    (∀ s, Reachable s → ∀ cell : Cell,
      s.isSelectablePiece cell.1 cell.2 = .ok (viewIsSelectablePiece (buildBoardView floats s) cell.1 cell.2) ↔
        ¬Haunted s cell) ∧
    ∀ board actions, AcceptedBoard board → (∀ s a s', Takes board actions s a s' → SparesResting s a) →
      ∀ s, Visits board actions s → ∀ cell : Cell,
        s.isSelectablePiece cell.1 cell.2 = .ok (viewIsSelectablePiece (buildBoardView floats s) cell.1 cell.2) := by
  refine ⟨fun s hreach cell => selects_alike_iff floats hreach cell, ?_⟩
  intro board actions hboard hspares s hvisits cell
  have hreach := hvisits.reachable hboard
  exact (selects_alike_iff floats hreach cell).mpr ((hvisits.noGhosts hboard hspares).not_haunted hreach cell)

/-- Progress in whole shares: none, or all of it. -/
def wholeShares : FloatRatio Nat := ⟨0, 1, fun _ _ => 0⟩

/-- Two rooks that take turns on the first file, and a king. -/
def haunt : BoardModel :=
  ⟨[[some 1, none, none, none], [some 2, none, some 3, none]],
    [⟨1, .white, .rook, ⟨0, 0⟩, .idle⟩, ⟨2, .black, .rook, ⟨1, 0⟩, .idle⟩, ⟨3, .black, .king, ⟨1, 2⟩, .idle⟩]⟩

theorem haunt_accepted : AcceptedBoard haunt :=
  ⟨["wR . . .".toList, "bR . bK .".toList], ⟨[], []⟩, by decide⟩

theorem client_selects_as_server_iff_haunt :
    ∃ s, (GameState.new haunt).runActions [.select 0 0, .moveSelected 0 3, .advanceClock 500] = .ok s ∧ ∀ cell : Cell,
      s.isSelectablePiece cell.1 cell.2 = .ok (viewIsSelectablePiece (buildBoardView wholeShares s) cell.1 cell.2) := by
  obtain ⟨s, hs, -⟩ := runActions_inv (gameInv_new haunt_accepted) [.select 0 0, .moveSelected 0 3, .advanceClock 500]
  refine ⟨s, hs, (client_selects_as_server_iff wholeShares).2 haunt _ haunt_accepted ?_ s
    (Visits.of_run hs)⟩
  rintro mid a next ⟨before, after, hsplit, hmid, -⟩ ms rfl e he
  have hbefore : before = [.select 0 0, .moveSelected 0 3] ∧ ms = 500 := by
    rcases before with _ | ⟨x, _ | ⟨y, _ | ⟨z, before⟩⟩⟩ <;> simp_all
  obtain ⟨rfl, rfl⟩ := hbefore
  have hquiet : (fun s => s.events 500) <$> (GameState.new haunt).runActions [.select 0 0, .moveSelected 0 3] = .ok [] := by
    decide
  rw [hmid] at hquiet
  have hnone : mid.events 500 = [] := Except.ok.inj hquiet
  rw [hnone] at he
  cases he

/-- The rook that comes back takes the one that rests on its cell, and the rest stays behind. -/
theorem not_client_selects_as_server :
    ¬∀ s, Reachable s → ∀ cell : Cell, s.isInBounds cell.1 cell.2 = true →
      s.isSelectablePiece cell.1 cell.2 = .ok (viewIsSelectablePiece (buildBoardView wholeShares s) cell.1 cell.2) := by
  intro hclaim
  have hrun : (fun s => (s.isInBounds 0 0, s.isSelectablePiece 0 0,
      viewIsSelectablePiece (buildBoardView wholeShares s) 0 0)) <$>
      (GameState.new haunt).runActions [.select 0 0, .moveSelected 0 3, .advanceClock 500, .select 1 0,
        .moveSelected 0 0, .advanceClock 1100, .select 1 2, .moveSelected 0 2, .advanceClock 1000] =
      .ok (true, .ok true, false) := by decide
  obtain ⟨s, hs, hshown⟩ := map_eq_ok.mp hrun
  simp only [Prod.mk.injEq] at hshown
  obtain ⟨hcell, hserver, hclient⟩ := hshown
  have hsame := hclaim s ⟨haunt, haunt_accepted, _, hs⟩ (0, 0) hcell
  rw [hserver, hclient] at hsame
  cases hsame

end KungFuChess
