import Mathlib.Data.List.Nodup
import KungFuChess.Proof.Settlement

/-!
# The arbiter computes the settlement

Where the grid, the table and the queues agree, no operation of `RealTimeArbiter::settle_pending_moves`
fails, and the whole of it is `settle`.
-/

namespace KungFuChess

open Loops BoardModel

/-! ### Putting a piece back -/

section Restore

variable {b : BoardModel} {f : Flight} {flights : List Flight} {p : Piece} {row col : Nat}

theorem restorePieceToCell_eq (h : Located b (f :: flights)) (hp : b.findPieceById f.id = some p)
    (hin : b.InBounds row col) :
    restorePieceToCell b f.id row col = .ok (b.land { p with state := .idle } row col) := by
  have hid := h.idsInPlace f.id p hp
  rw [← hid] at hp ⊢
  have hpos := (findPieceById_eq_some.mp hp).1
  have hfind := findPieceById_setPiece (p := { p with state := .idle }) hp
  have hrect := rect_setPiece b { p with state := .idle } h.rect
  have hne : ∀ q, b.pieceAt row col = some q → p.id ≠ q.id := by
    intro q hq
    rw [hid]
    exact h.ne_of_pieceAt List.mem_cons_self hq
  have hpiece : (b.setPiece { p with state := .idle }).pieceAt row col = b.pieceAt row col := by
    rw [pieceAt_eq hrect, pieceAt_eq h.rect, cellId_setPiece]
    cases hcell : b.cellId row col with
    | none => rfl
    | some id =>
        rw [Option.bind_some, Option.bind_some, hfind, if_neg]
        intro h
        obtain rfl := h
        rw [hid] at hcell
        exact h.cellId_ne_flight List.mem_cons_self hcell
  have hother : (b.pieceAt row col).any (·.id == p.id) = false := by
    rw [hid]
    exact h.pieceAt_any_flight List.mem_cons_self
  have hempty : (b.setPiece { p with state := .idle }).isEmpty row col = .ok (b.cellId row col).isNone :=
    isEmpty_eq hrect hin
  simp only [restorePieceToCell, setPieceState_eq h.idsInPlace hp, ok_bind, hpiece, hother,
    Bool.false_eq_true, if_false, hempty]
  cases hq : b.pieceAt row col with
  | none =>
      have hland : b.land { p with state := .idle } row col = b.put { p with state := .idle } row col := by
        simp only [land, evict, hq]
      have hget : (b.setPiece { p with state := .idle }).findPieceById p.id
          = some { p with state := .idle } := by
        rw [hfind, if_pos rfl]
      rw [h.pieceAt_eq_none_iff.mp hq, hland]
      simp only [Option.isNone_none, Bool.not_true, Bool.false_eq_true, if_false, ok_bind,
        getPiece_eq hget]
      rw [placePieceAt_eq (p := { p with cell := positionOf row col, state := .idle }) hrect hget hin]
      simp only [put]
      rw [setPiece_setPiece_of_id_eq]
      rfl
  | some q =>
      obtain ⟨hcell, hqfind⟩ := h.pieceAt_eq_some_iff.mp hq
      have hqpos := (findPieceById_eq_some.mp hqfind).1
      have hids : (b.setPiece { p with state := .idle }).IdsInPlace :=
        idsInPlace_setPiece h.idsInPlace (p := { p with state := .idle }) hp
      have hevict : (b.setPiece { p with state := .idle }).evict row col
          = ((b.setPiece { p with state := .idle }).setPiece { q with state := .captured }).setCell
              row col none := by
        simp only [evict, hpiece, hq]
      have hget : ((b.setPiece { p with state := .idle }).evict row col).findPieceById p.id
          = some { p with state := .idle } := by
        have hqfind' : (b.setPiece { p with state := .idle }).findPieceById q.id = some q := by
          rw [hfind, if_neg (Ne.symm (hne q hq)), hqfind]
        have hset := findPieceById_setPiece (p := { q with state := .captured }) hqfind' p.id
        rw [hevict, findPieceById_setCell, hset, if_neg (hne q hq), hfind, if_pos rfl]
      have hin' : ((b.setPiece { p with state := .idle }).evict row col).InBounds row col :=
        (inBounds_evict row col).mpr hin
      have hrect' : ((b.setPiece { p with state := .idle }).evict row col).Rect := by
        rw [hevict]
        exact rect_setCell _ _ _ _ (rect_setPiece _ _ hrect)
      rw [hcell]
      simp only [Option.isNone_some, Bool.not_false, if_true,
        removePieceAt_eq hrect hids (hpiece.trans hq), ok_bind, getPiece_eq hget]
      rw [placePieceAt_eq (p := { p with cell := positionOf row col, state := .idle }) hrect' hget hin']
      have hpieces : ((b.setPiece { p with state := .idle }).setPiece { q with state := .captured }).setPiece
            { p with cell := positionOf row col, state := .idle }
          = (b.setPiece { q with state := .captured }).setPiece
            { p with cell := positionOf row col, state := .idle } := by
        rw [setPiece_comm b (p := { p with state := .idle }) (q := { q with state := .captured }) hpos
          hqpos (hne q hq), setPiece_setPiece_of_id_eq]
        rfl
      have hland : b.land { p with state := .idle } row col
          = ((b.setPiece { q with state := .captured }).setCell row col none).put
              { p with state := .idle } row col := by
        simp only [land, evict, hq]
      rw [hland, hevict]
      simp only [put]
      exact congrArg (fun board : BoardModel =>
        Except.ok ((board.setCell row col none).setCell row col (some p.id))) hpieces

end Restore

/-! ### Settling a due move -/

section Due

variable {rules : GameRules} {clockMs : Int} {jumps : List JumpState} {b : BoardModel} {f : Flight}
  {flights : List Flight} {p q : Piece} {target : Cell} {move : PendingMove}

theorem canSettleMove_eq (hrect : b.Rect) (hp : b.findPieceById move.pieceId = some p)
    (hs : b.InBounds move.startPos.1 move.startPos.2) (he : b.InBounds move.endPos.1 move.endPos.2) :
    canSettleMove b move = .ok (playable b move) := by
  obtain ⟨v, hv⟩ := canSettleMove_total hrect hp hs he
  simp only [playable, hv]

theorem checkForJumpCapture_jump (rules : GameRules) (gameOver : Bool) (hp : b.findPieceById f.id = some p)
    {jump : JumpState} (hjump : capturingJump clockMs jumps target p.color = some jump) :
    checkForJumpCapture b rules clockMs jumps target f.id gameOver
      = .ok (true, b, gameOver || rules.isGameOver p) := by
  simp only [checkForJumpCapture, getPiece_eq hp, ok_bind, hjump, pure_eq_ok]
  cases rules.isGameOver p <;> cases gameOver <;> rfl

theorem checkForJumpCapture_empty (rules : GameRules) (gameOver : Bool) (hp : b.findPieceById f.id = some p)
    (hjump : capturingJump clockMs jumps target p.color = none)
    (hempty : b.pieceAt target.1 target.2 = none) :
    checkForJumpCapture b rules clockMs jumps target f.id gameOver = .ok (false, b, gameOver) := by
  simp only [checkForJumpCapture, getPiece_eq hp, ok_bind, hjump, hempty, pure_eq_ok]

/-- The piece that is placed after the occupant of its cell has been removed, or where there was none. -/
theorem placePiece_landing (hkeeps : (rules.onReachLastRow p target.1 b.rows).id = p.id)
    (h : Located b (f :: flights)) (hp : b.findPieceById f.id = some p) (hin : b.InBounds target.1 target.2) :
    (b.evict target.1 target.2).placePiece
        { rules.onReachLastRow p target.1 b.rows with
          cell := positionOf target.1 target.2, state := .idle }
      = .ok (b.land (rules.landing p target.1 b.rows) target.1 target.2) := by
  have hget : (b.evict target.1 target.2).findPieceById (rules.landing p target.1 b.rows).id = some p := by
    rw [GameRules.landing, hkeeps, h.idsInPlace f.id p hp, h.findPieceById_evict_flight List.mem_cons_self, hp]
  exact placePiece_eq (h.evict target.1 target.2).rect hget
    ((inBounds_evict target.1 target.2).mpr hin)

theorem checkForJumpCapture_occupant (hkeeps : (rules.onReachLastRow p target.1 b.rows).id = p.id) (gameOver : Bool)
    (h : Located b (f :: flights)) (hp : b.findPieceById f.id = some p) (hin : b.InBounds target.1 target.2)
    (hjump : capturingJump clockMs jumps target p.color = none)
    (hq : b.pieceAt target.1 target.2 = some q) (hcolor : q.color ≠ p.color) :
    checkForJumpCapture b rules clockMs jumps target f.id gameOver
      = .ok (true, b.land (rules.landing p target.1 b.rows) target.1 target.2,
          gameOver || rules.isGameOver q) := by
  have hget : (b.evict target.1 target.2).getPiece f.id = .ok p := by
    refine getPiece_eq ?_
    rw [h.findPieceById_evict_flight List.mem_cons_self, hp]
  have hplace := placePiece_landing hkeeps h hp hin
  simp only [checkForJumpCapture, getPiece_eq hp, ok_bind, hjump, hq, bne_iff_ne, ne_eq, hcolor,
    not_false_eq_true, if_true, removePieceAt_eq h.rect h.idsInPlace hq, hget, rows_evict, hplace,
    pure_eq_ok]
  cases rules.isGameOver q <;> cases gameOver <;> rfl

/-- The rules need only keep the piece that lands. -/
theorem settleDueMove_eq_of_keeps {s : Settling} (h : Located s.board (move.flight :: flights))
    (hp : s.board.findPieceById move.pieceId = some p)
    (hkeeps : playable s.board move = true → (rules.onReachLastRow p move.endPos.1 s.board.rows).id = p.id)
    (hend : s.board.InBounds move.endPos.1 move.endPos.2) :
    settleDueMove rules clockMs jumps s move = .ok (settleMove rules clockMs jumps s move) := by
  have hid := h.idsInPlace move.pieceId p hp
  have hstart := h.originsIn move.flight List.mem_cons_self
  have hflight : move.flight.id = move.pieceId := rfl
  have hpieceOf := pieceOf_eq hp
  unfold settleDueMove settleMove dueEvent
  rw [canSettleMove_eq h.rect hp hstart hend, ok_bind, hpieceOf]
  dsimp only
  cases hplay : playable s.board move with
  | false =>
      have hrestore : restoreAbortedMove s.board move
          = .ok (s.board.land { p with state := .idle } move.startPos.1 move.startPos.2) :=
        restorePieceToCell_eq h hp hstart
      simp only [Bool.not_false, if_true, hrestore, ok_bind, pure_eq_ok, Bool.false_eq_true, if_false,
        SettleEvent.boardAfter, SettleEvent.restsAfter, SettleEvent.gameOverAfter,
        SettleEvent.isLanding, Bool.or_false]
  | true =>
      have hkeeps := hkeeps hplay
      have haway : ∀ row col, (s.board.pieceAt row col).any (·.id == move.pieceId) = false :=
        fun row col => h.pieceAt_any_flight List.mem_cons_self
      simp only [Bool.not_true, Bool.false_eq_true, if_false, haway, ok_bind, getPiece_eq hp, if_true]
      cases hjump : capturingJump clockMs jumps move.endPos p.color with
      | some jump =>
          have hcheck := checkForJumpCapture_jump (f := move.flight) rules s.gameOver hp hjump
          rw [hflight] at hcheck
          simp only [hcheck, ok_bind, Bool.not_true, Bool.false_eq_true, if_false, haway,
            setPieceState_eq h.idsInPlace hp, pure_eq_ok, SettleEvent.boardAfter, SettleEvent.restsAfter,
            SettleEvent.gameOverAfter, SettleEvent.isLanding, Bool.or_false, hid]
      | none =>
          cases hq : s.board.pieceAt move.endPos.1 move.endPos.2 with
          | none =>
              have hcheck := checkForJumpCapture_empty (f := move.flight) rules s.gameOver hp hjump hq
              have hplace := placePiece_landing hkeeps h hp hend
              have hevict : s.board.evict move.endPos.1 move.endPos.2 = s.board := by
                simp only [evict, hq]
              rw [hflight] at hcheck
              rw [hevict] at hplace
              simp only [hcheck, ok_bind, Bool.not_false, if_true, getPiece_eq hp, hplace, pure_eq_ok,
                SettleEvent.boardAfter, SettleEvent.restsAfter, SettleEvent.gameOverAfter,
                SettleEvent.isLanding, Bool.or_true, Option.elim_none, Option.any_none, Bool.or_false,
                hid]
          | some q =>
              have hcolor := canSettleMove_dest hp (canSettleMove_of_playable hplay) hq
              have hcheck := checkForJumpCapture_occupant hkeeps s.gameOver h hp hend hjump hq hcolor
              have hqfind := (h.pieceAt_eq_some_iff.mp hq).2
              have hqid : q.id ≠ kInvalidId := (findPieceById_eq_some.mp hqfind).1
              have hpid : p.id ≠ kInvalidId := by
                rw [hid]
                exact (findPieceById_eq_some.mp hp).1
              have hopponent : q.isOpponentOf p = true := by
                simp only [Piece.isOpponentOf, Bool.and_eq_true, bne_iff_ne]
                exact ⟨⟨hqid, hpid⟩, hcolor⟩
              have hlanded : ((s.board.land (rules.landing p move.endPos.1 s.board.rows) move.endPos.1
                  move.endPos.2).pieceAt move.endPos.1 move.endPos.2).any (·.id == move.pieceId) = true := by
                have hplaced : (rules.landing p move.endPos.1 s.board.rows).id = move.pieceId := hkeeps.trans hid
                rw [h.pieceAt_land hplaced rfl hend, if_pos ⟨rfl, rfl⟩]
                simpa using hplaced
              rw [hflight] at hcheck
              simp only [hcheck, ok_bind, Bool.not_true, Bool.false_eq_true, if_false, hlanded, if_true,
                hopponent, hqid, pure_eq_ok, SettleEvent.boardAfter, SettleEvent.restsAfter, ne_eq,
                not_false_eq_true, SettleEvent.gameOverAfter, SettleEvent.isLanding, Bool.or_true,
                Option.elim_some, Option.any_some, hid]

theorem settleDueMove_eq (hrules : rules.KeepsPieces) {s : Settling}
    (h : Located s.board (move.flight :: flights))
    (hend : s.board.InBounds move.endPos.1 move.endPos.2) :
    settleDueMove rules clockMs jumps s move = .ok (settleMove rules clockMs jumps s move) := by
  obtain ⟨p, hp, -⟩ := h.findPieceById_flight
  exact settleDueMove_eq_of_keeps h hp (fun _ => (hrules p move.endPos.1 s.board.rows).1) hend

/-- All the due moves, with other flights still in the air. -/
theorem foldlM_settleDueMove (hrules : rules.KeepsPieces) {s : Settling} {moves : List PendingMove}
    (h : Located s.board (moves.map PendingMove.flight ++ flights))
    (hends : ∀ move ∈ moves, s.board.InBounds move.endPos.1 move.endPos.2) :
    moves.foldlM (settleDueMove rules clockMs jumps) s
      = .ok (moves.foldl (settleMove rules clockMs jumps) s) := by
  refine foldlM_eq_foldl (fun moves s => Located s.board (moves.map PendingMove.flight ++ flights) ∧
    ∀ move ∈ moves, s.board.InBounds move.endPos.1 move.endPos.2) ?_ moves s ⟨h, hends⟩
  intro move moves s h
  obtain ⟨hloc, hin⟩ := h
  have hend := hin move List.mem_cons_self
  have hfits := dueEvent_fits clockMs jumps hloc hend
  have hdims := hfits.rows_boardAfter rules
  refine ⟨settleDueMove_eq hrules hloc hend, hfits.located hrules hloc, fun other hother => ?_⟩
  have := hin other (List.mem_cons_of_mem _ hother)
  simpa only [settleMove, InBounds, hdims] using this

end Due

/-! ### Cancelling moves in flight -/

section Cancel

variable {clockMs : Int} {b : BoardModel} {flights : List Flight} {moves : List PendingMove}

theorem invalidInFlightMoves_eq (clockMs : Int) (moves : List PendingMove) (h : Located b flights)
    (hflights : ∀ move ∈ moves, move.flight ∈ flights)
    (hends : ∀ move ∈ moves, b.InBounds move.endPos.1 move.endPos.2)
    (hflying : ∀ move ∈ moves, clockMs < move.arrivalTime) :
    invalidInFlightMoves b clockMs moves = .ok (moves.filter fun move => !playable b move) := by
  have hcollect : moves.foldl (fun invalid move => if !playable b move then invalid ++ [move] else invalid) []
      = moves.filter fun move => !playable b move := by
    rw [← List.foldl_filter, List.foldl_append_eq_append, ← List.flatMap_def, List.flatMap_singleton',
      List.nil_append]
  rw [invalidInFlightMoves, ← hcollect]
  refine foldlM_eq_foldl (fun left _ => ∀ move ∈ left, move ∈ moves) ?_ moves [] fun _ hmove => hmove
  intro move left invalid hleft
  have hmem := hleft move List.mem_cons_self
  obtain ⟨p, hp, -⟩ := h.flightPiece move.flight (hflights move hmem)
  have hverdict := canSettleMove_eq h.rect hp (h.originsIn _ (hflights move hmem)) (hends move hmem)
  refine ⟨?_, fun other hother => hleft other (List.mem_cons_of_mem _ hother)⟩
  simp only [hflying move hmem, if_true, hverdict, ok_bind]
  cases playable b move <;> rfl

theorem eraseP_pieceId (hnodup : (moves.map PendingMove.pieceId).Nodup) (id : Nat) :
    moves.eraseP (·.pieceId == id) = moves.filter fun move => move.pieceId != id := by
  induction moves with
  | nil => rfl
  | cons move moves ih =>
      obtain ⟨hnotin, hrest⟩ := List.nodup_cons.mp hnodup
      by_cases hid : move.pieceId = id
      · have hall : ∀ other ∈ moves, other.pieceId ≠ id := by
          intro other hother heq
          exact hnotin (List.mem_map.mpr ⟨other, hother, heq.trans hid.symm⟩)
        rw [List.eraseP_cons_of_pos (by simpa using hid), List.filter_cons_of_neg (by simpa using hid)]
        exact (List.filter_eq_self.mpr fun other hother => by simpa using hall other hother).symm
      · rw [List.eraseP_cons_of_neg (by simpa using hid), List.filter_cons_of_pos (by simpa using hid),
          ih hrest]

/-- Cancelling a list of moves leaves the moves of the other pieces. -/
theorem foldl_cancelPendingMove (invalid : List PendingMove) (scheduler : MoveScheduler)
    (hnodup : (scheduler.pendingMoves.map PendingMove.pieceId).Nodup) :
    invalid.foldl (fun scheduler move => scheduler.cancelPendingMove move.pieceId) scheduler
      = { scheduler with
          pendingMoves := scheduler.pendingMoves.filter fun move =>
            move.pieceId ∉ invalid.map PendingMove.pieceId } := by
  induction invalid generalizing scheduler with
  | nil => simp
  | cons move invalid ih =>
      have herase := eraseP_pieceId hnodup move.pieceId
      have hsub : ((scheduler.cancelPendingMove move.pieceId).pendingMoves.map
          PendingMove.pieceId).Nodup :=
        hnodup.sublist (List.eraseP_sublist.map PendingMove.pieceId)
      rw [List.foldl_cons, ih _ hsub]
      simp only [MoveScheduler.cancelPendingMove, herase, List.filter_filter, List.map_cons,
        List.mem_cons, not_or]
      congr 1
      refine List.filter_congr fun other _ => ?_
      by_cases heq : other.pieceId = move.pieceId <;> simp [heq]

theorem filter_not_mem_filter (hnodup : (moves.map PendingMove.pieceId).Nodup) (keep : PendingMove → Bool) :
    (moves.filter fun move =>
        move.pieceId ∉ (moves.filter fun other => !keep other).map PendingMove.pieceId)
      = moves.filter keep := by
  refine List.filter_congr fun move hmove => ?_
  have hiff : move.pieceId ∈ (moves.filter fun other => !keep other).map PendingMove.pieceId
      ↔ keep move = false := by
    constructor
    · intro hmem
      obtain ⟨other, hother, hid⟩ := List.mem_map.mp hmem
      obtain ⟨hother, hkeep⟩ := List.mem_filter.mp hother
      rw [List.inj_on_of_nodup_map hnodup hother hmove hid] at hkeep
      simpa using hkeep
    · intro hkeep
      exact List.mem_map_of_mem (List.mem_filter.mpr ⟨hmove, by simp [hkeep]⟩)
  simp only [hiff, Bool.not_eq_false, Bool.decide_eq_true]

theorem restoreAbortedMove_eq {move : PendingMove} (h : Located b (move.flight :: flights)) :
    restoreAbortedMove b move = .ok (putBack b move.flight) := by
  obtain ⟨p, hp, -⟩ := h.findPieceById_flight
  rw [putBack, pieceOf_eq hp]
  exact restorePieceToCell_eq h hp (h.originsIn _ List.mem_cons_self)

theorem putBack_located {f : Flight} (h : Located b (f :: flights)) : Located (putBack b f) flights := by
  obtain ⟨p, hp, hid, -⟩ := h.findPieceById_flight
  rw [putBack, pieceOf_eq hp]
  exact h.land hid rfl (h.originsIn f List.mem_cons_self)

theorem cancelInvalidInFlightMoves_eq {scheduler : MoveScheduler}
    (h : Located b (scheduler.pendingMoves.map PendingMove.flight ++ flights))
    (hends : ∀ move ∈ scheduler.pendingMoves, b.InBounds move.endPos.1 move.endPos.2)
    (hflying : ∀ move ∈ scheduler.pendingMoves, clockMs < move.arrivalTime) :
    cancelInvalidInFlightMoves b clockMs scheduler
      = .ok (((scheduler.pendingMoves.filter fun move => !playable b move).map
            PendingMove.flight).foldl putBack b,
          { scheduler with pendingMoves := scheduler.pendingMoves.filter (playable b) }) := by
  have hnodup : (scheduler.pendingMoves.map PendingMove.pieceId).Nodup := by
    have hids := h.idsNodup
    rw [List.map_append, List.map_map] at hids
    exact (List.nodup_append.mp hids).1
  have hperm := filter_append_perm_map PendingMove.flight scheduler.pendingMoves fun move => !playable b move
  have hinvalid := invalidInFlightMoves_eq clockMs scheduler.pendingMoves h
    (fun move hmove => List.mem_append_left _ (List.mem_map_of_mem hmove)) hends hflying
  have hloop := foldlM_eq_foldl (ε := Fault)
    (f := fun (s : BoardModel × MoveScheduler) (move : PendingMove) => do
      let board ← restoreAbortedMove s.1 move
      return (board, s.2.cancelPendingMove move.pieceId))
    (g := fun s move => (putBack s.1 move.flight, s.2.cancelPendingMove move.pieceId))
    (fun invalid s => Located s.1 (invalid.map PendingMove.flight
      ++ ((scheduler.pendingMoves.filter fun move => !!playable b move).map PendingMove.flight
        ++ flights)))
    (by
      intro move invalid s hloc
      refine ⟨?_, putBack_located hloc⟩
      rw [restoreAbortedMove_eq hloc, ok_bind, pure_eq_ok])
    (scheduler.pendingMoves.filter fun move => !playable b move) (b, scheduler)
    (h.perm ((hperm.append_right _).trans (by rw [List.append_assoc])))
  unfold cancelInvalidInFlightMoves
  rw [hinvalid, ok_bind]
  refine hloop.trans ?_
  rw [foldl_prodMk (fun b move => putBack b (PendingMove.flight move))
      (fun scheduler move => MoveScheduler.cancelPendingMove scheduler (PendingMove.pieceId move)),
    foldl_cancelPendingMove _ _ hnodup, filter_not_mem_filter hnodup, List.foldl_map]

/-- The cancellation, which is skipped if no piece has landed. -/
theorem cancelled_eq {s : Settling} (clockMs : Int) (scheduler : MoveScheduler)
    (h : Located s.board (scheduler.pendingMoves.map PendingMove.flight ++ flights))
    (hends : ∀ move ∈ scheduler.pendingMoves, s.board.InBounds move.endPos.1 move.endPos.2)
    (hflying : ∀ move ∈ scheduler.pendingMoves, clockMs < move.arrivalTime) :
    (if s.boardChanged then cancelInvalidInFlightMoves s.board clockMs scheduler
      else .ok (s.board, scheduler))
      = .ok (((cancelledMoves s scheduler.pendingMoves).map PendingMove.flight).foldl putBack s.board,
          { scheduler with pendingMoves := keptMoves s scheduler.pendingMoves }) := by
  unfold cancelledMoves keptMoves
  split
  · exact cancelInvalidInFlightMoves_eq h hends hflying
  · rfl

end Cancel

/-! ### Ending jumps -/

section Jumps

variable {rules : GameRules} {b : BoardModel} {flights : List Flight}

theorem foldlM_finishJump {jumps : List JumpState} {rests : RestMap}
    (h : Located b (jumps.map JumpState.flight ++ flights)) :
    jumps.foldlM (finishJump rules) (b, rests)
      = .ok ((jumps.map JumpState.flight).foldl putBack b, jumps.foldl (restJumper rules) rests) := by
  have hloop := foldlM_eq_foldl (f := finishJump rules)
    (g := fun s jump => (putBack s.1 jump.flight, restJumper rules s.2 jump))
    (fun jumps s => Located s.1 (jumps.map JumpState.flight ++ flights))
    (by
      intro jump jumps s hloc
      refine ⟨?_, putBack_located hloc⟩
      obtain ⟨p, hp, -⟩ := hloc.findPieceById_flight
      have hrestore : restoreJumper s.1 jump = .ok (putBack s.1 jump.flight) := by
        rw [putBack, pieceOf_eq hp]
        exact restorePieceToCell_eq hloc hp (hloc.originsIn _ List.mem_cons_self)
      rw [finishJump, hrestore, ok_bind, pure_eq_ok, restJumper])
    jumps (b, rests) h
  rw [hloop, foldl_prodMk (fun b jump => putBack b (JumpState.flight jump)), List.foldl_map]

end Jumps

/-! ### The whole settlement -/

theorem settlePendingMoves_eq {rules : GameRules} {arbiter : RealTimeArbiter} {board : BoardModel}
    (hrules : rules.KeepsPieces) (gameOver : Bool)
    (hb : Located board (flightsOf arbiter.scheduler.pendingMoves arbiter.scheduler.activeJumps))
    (hends : ∀ move ∈ arbiter.scheduler.pendingMoves, board.InBounds move.endPos.1 move.endPos.2) :
    arbiter.settlePendingMoves board rules gameOver = .ok (settle rules arbiter board gameOver) := by
  have htrace := trace_settleDue arbiter hrules gameOver hb hends
  have hmid : Located (settleDue rules arbiter board gameOver).board
      ((flyingMoves arbiter).map PendingMove.flight
        ++ arbiter.scheduler.activeJumps.map JumpState.flight) := htrace.located hrules hb
  have hdue : MoveScheduler.forEachPendingDue arbiter.clockMs
      (settleDueMove rules arbiter.clockMs arbiter.scheduler.activeJumps)
      arbiter.scheduler.pendingMoves (settleStart arbiter board gameOver)
        = .ok (settleDue rules arbiter board gameOver, flyingMoves arbiter) :=
    drain_of_foldlM (foldlM_settleDueMove hrules (hb.perm (dueMoves_append_perm arbiter))
      fun move hmove => hends move (List.mem_filter.mp hmove).1)
  have hcancel := cancelled_eq arbiter.clockMs ⟨flyingMoves arbiter, arbiter.scheduler.activeJumps,
    (settleDue rules arbiter board gameOver).rests⟩ hmid
    (fun move hmove => htrace.inBounds.mpr (hends move (List.mem_filter.mp hmove).1))
    (fun move hmove => by simpa [PendingMove.isDue] using (List.mem_filter.mp hmove).2)
  have hjumps : MoveScheduler.expireJumps arbiter.clockMs (finishJump rules)
      arbiter.scheduler.activeJumps
      (((cancelledMoves (settleDue rules arbiter board gameOver) (flyingMoves arbiter)).map
        PendingMove.flight).foldl putBack (settleDue rules arbiter board gameOver).board,
        (settleDue rules arbiter board gameOver).rests)
        = .ok (_, flyingJumps arbiter) :=
    drain_of_foldlM (foldlM_finishJump (located_cancelled hrules gameOver hb hends))
  unfold RealTimeArbiter.settlePendingMoves
  dsimp only
  rw [show (⟨board, arbiter.scheduler.activeRests, gameOver, false⟩ : Settling)
    = settleStart arbiter board gameOver from rfl, hdue, ok_bind]
  dsimp only
  rw [hcancel, ok_bind]
  dsimp only
  rw [hjumps, ok_bind, pure_eq_ok]
  simp only [settle, settledArbiter, settledBoard, endedFlights, List.foldl_append]
  rfl

end KungFuChess
