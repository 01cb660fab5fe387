import Mathlib.Algebra.Order.BigOperators.Group.List
import KungFuChess.Proof.Arrivals
import KungFuChess.Proof.Ticks

/-!
# Undisturbed moves

A tick in which nothing falls due only moves the clock and drops rests, under any rules and on any board. So a
move that is alone in the air is settled once, in the tick that reaches its arrival, and the ticks before and after
do not count: what is left is one call of `settle_due_move` on the board that the move left behind.
-/

namespace KungFuChess

open Loops BoardModel

/-! ### Ticks in which nothing falls due -/

/-- The game at another time, with other rests. -/
def GameState.retimed (s : GameState) (clockMs : Int) (rests : RestMap) : GameState :=
  { s with arbiter := ⟨{ s.arbiter.scheduler with activeRests := rests }, clockMs⟩ }

/-- A run of ticks. -/
def ticks (steps : List Int) : List GameAction := steps.map .advanceClock

section Idle

variable {s : GameState} {ms clockMs : Int} {rests : RestMap} {steps : List Int}

@[simp] theorem GameState.retimed_board : (s.retimed clockMs rests).board = s.board := rfl

@[simp] theorem GameState.retimed_rules : (s.retimed clockMs rests).rules = s.rules := rfl

@[simp] theorem GameState.retimed_gameOver : (s.retimed clockMs rests).gameOver = s.gameOver := rfl

@[simp] theorem GameState.retimed_pendingMoves : (s.retimed clockMs rests).pendingMoves = s.pendingMoves := rfl

@[simp] theorem GameState.retimed_activeJumps : (s.retimed clockMs rests).activeJumps = s.activeJumps := rfl

@[simp] theorem GameState.retimed_clockMs : (s.retimed clockMs rests).clockMs = clockMs := rfl

theorem addClock_of_idle (hmoves : ∀ move ∈ s.pendingMoves, s.clockMs + ms < move.arrivalTime)
    (hjumps : ∀ jump ∈ s.activeJumps, s.clockMs + ms < jump.arrivalTime) :
    s.addClock ms = .ok (s.retimed (s.clockMs + ms) (expireRests (s.clockMs + ms) s.activeRests)) := by
  have hpending : ∀ settled, MoveScheduler.forEachPendingDue (s.arbiter.clockMs + ms)
      (settleDueMove s.rules (s.arbiter.clockMs + ms) s.arbiter.scheduler.activeJumps)
      s.arbiter.scheduler.pendingMoves settled = .ok (settled, s.arbiter.scheduler.pendingMoves) := by
    refine drain_of_none _ fun move hmove => ?_
    have hlate : s.arbiter.clockMs + ms < move.arrivalTime := hmoves move hmove
    simp [hlate]
  have hended : ∀ x, MoveScheduler.expireJumps (s.arbiter.clockMs + ms) (finishJump s.rules)
      s.arbiter.scheduler.activeJumps x = .ok (x, s.arbiter.scheduler.activeJumps) := by
    refine drain_of_none _ fun jump hjump => ?_
    have hlate : s.arbiter.clockMs + ms < jump.arrivalTime := hjumps jump hjump
    simp [hlate]
  unfold GameState.addClock RealTimeArbiter.updateTime RealTimeArbiter.settlePendingMoves
  dsimp only
  rw [hpending, ok_bind]
  simp only [Bool.false_eq_true, if_false, ok_bind, hended, pure_eq_ok]
  rfl

theorem runActions_cons (s : GameState) (a : GameAction) (actions : List GameAction) :
    s.runActions (a :: actions) = s.applyAction a >>= fun s' => s'.runActions actions := by
  rw [GameState.runActions, List.foldlM_cons]
  rfl

theorem runActions_append (s : GameState) (before after : List GameAction) :
    s.runActions (before ++ after) = s.runActions before >>= fun s' => s'.runActions after := by
  rw [GameState.runActions, List.foldlM_append]
  rfl

theorem runActions_singleton (s : GameState) (a : GameAction) : s.runActions [a] = s.applyAction a := by
  rw [runActions_cons]
  cases s.applyAction a <;> rfl

/-- A run that goes on from another takes up where that one ended. -/
theorem runActions_after {before after : List GameAction} {s y z : GameState}
    (hbefore : s.runActions before = .ok y) (hall : s.runActions (before ++ after) = .ok z) :
    y.runActions after = .ok z := by
  rw [runActions_append, hbefore] at hall
  exact hall

theorem sum_nonneg (hsteps : ∀ ms ∈ steps, 0 ≤ ms) : 0 ≤ steps.sum := List.sum_nonneg hsteps

/-- As long as nothing falls due, ticks only tell the time and end rests. -/
theorem runActions_idle (hsteps : ∀ ms ∈ steps, 0 ≤ ms)
    (hmoves : ∀ move ∈ s.pendingMoves, s.clockMs + steps.sum < move.arrivalTime)
    (hjumps : ∀ jump ∈ s.activeJumps, s.clockMs + steps.sum < jump.arrivalTime) :
    ∃ rests, s.runActions (ticks steps) = .ok (s.retimed (s.clockMs + steps.sum) rests) ∧
      SameRests (s.clockMs + steps.sum) rests s.activeRests := by
  induction steps generalizing s with
  | nil =>
      refine ⟨s.activeRests, ?_, rfl⟩
      rw [ticks, List.map_nil, List.sum_nil, Int.add_zero]
      rfl
  | cons ms steps ih =>
      have hrest : ∀ ms ∈ steps, 0 ≤ ms := fun ms hms => hsteps ms (List.mem_cons_of_mem _ hms)
      have hsum : 0 ≤ steps.sum := sum_nonneg hrest
      simp only [List.sum_cons] at hmoves hjumps ⊢
      have hstep : s.addClock ms = _ := addClock_of_idle
        (fun move hmove => by have := hmoves move hmove; omega)
        (fun jump hjump => by have := hjumps jump hjump; omega)
      obtain ⟨rests, hrun, hsame⟩ := ih (s := s.retimed (s.clockMs + ms) (expireRests (s.clockMs + ms) s.activeRests)) hrest
        (fun move hmove => by have := hmoves move hmove; simp only [GameState.retimed_clockMs]; omega)
        (fun jump hjump => by have := hjumps jump hjump; simp only [GameState.retimed_clockMs]; omega)
      rw [GameState.retimed_clockMs, Int.add_assoc] at hrun hsame
      refine ⟨rests, ?_, hsame.trans (expireRests_expireRests (by omega) s.activeRests)⟩
      rw [ticks, List.map_cons, runActions_cons, GameState.applyAction, hstep, ok_bind]
      rw [ticks] at hrun
      rw [hrun]
      rfl

/-- The step of a list in which a sum is reached. -/
theorem exists_crossing {d : Int} (hne : steps ≠ []) (hd : d ≤ steps.sum) :
    ∃ before ms after, steps = before ++ ms :: after ∧ (before = [] ∨ before.sum < d) ∧ d ≤ before.sum + ms := by
  induction steps generalizing d with
  | nil => exact absurd rfl hne
  | cons ms steps ih =>
      by_cases hfirst : d ≤ ms
      · exact ⟨[], ms, steps, rfl, .inl rfl, by simpa using hfirst⟩
      · rw [List.sum_cons] at hd
        have hrest : steps ≠ [] := by
          intro h
          obtain rfl := h
          simp only [List.sum_nil] at hd
          omega
        obtain ⟨before, last, after, rfl, hbefore, hlast⟩ := ih (d := d - ms) hrest (by omega)
        refine ⟨ms :: before, last, after, rfl, .inr ?_, ?_⟩
        · rcases hbefore with rfl | hbefore
          · simp only [List.sum_cons, List.sum_nil]
            omega
          · rw [List.sum_cons]
            omega
        · rw [List.sum_cons]
          omega

/-- A run of ticks up to the first one that something may fall due in. -/
theorem runActions_crossing {d : Int} (hne : steps ≠ []) (hsteps : ∀ ms ∈ steps, 0 ≤ ms) (hd : d ≤ steps.sum)
    (hmoves : ∀ move ∈ s.pendingMoves, s.clockMs + d ≤ move.arrivalTime)
    (hjumps : ∀ jump ∈ s.activeJumps, s.clockMs + d ≤ jump.arrivalTime) :
    ∃ before ms after rests, steps = before ++ ms :: after ∧ (before = [] ∨ before.sum < d) ∧ d ≤ before.sum + ms ∧
      s.runActions (ticks steps) =
        (s.retimed (s.clockMs + before.sum) rests).addClock ms >>= fun s' => s'.runActions (ticks after) := by
  obtain ⟨before, ms, after, rfl, hbefore, hms⟩ := exists_crossing hne hd
  have hearly : ∃ rests, s.runActions (ticks before) = .ok (s.retimed (s.clockMs + before.sum) rests) := by
    rcases hbefore with rfl | hbefore
    · refine ⟨s.activeRests, ?_⟩
      rw [ticks, List.map_nil, List.sum_nil, Int.add_zero]
      rfl
    · have hbeforeSteps : ∀ step ∈ before, 0 ≤ step := fun step hstep => hsteps step (List.mem_append_left _ hstep)
      obtain ⟨rests, hrun, -⟩ := runActions_idle (s := s) hbeforeSteps
        (fun move hmove => Int.lt_of_lt_of_le (Int.add_lt_add_left hbefore _) (hmoves move hmove))
        (fun jump hjump => Int.lt_of_lt_of_le (Int.add_lt_add_left hbefore _) (hjumps jump hjump))
      exact ⟨rests, hrun⟩
  obtain ⟨rests, hrun⟩ := hearly
  refine ⟨before, ms, after, rests, rfl, hbefore, hms, ?_⟩
  rw [ticks, List.map_append, runActions_append, ← ticks, hrun, ok_bind, List.map_cons, runActions_cons]
  rfl

/-- With nothing in the air, the rest of the run only tells the time. -/
theorem runActions_quiet (hsteps : ∀ ms ∈ steps, 0 ≤ ms) (hmoves : s.pendingMoves = []) (hjumps : s.activeJumps = []) :
    ∃ clockMs rests, s.runActions (ticks steps) = .ok (s.retimed clockMs rests) := by
  obtain ⟨rests, hrun, -⟩ := runActions_idle (s := s) hsteps (by rw [hmoves]; rintro move ⟨⟩)
    (by rw [hjumps]; rintro jump ⟨⟩)
  exact ⟨_, rests, hrun⟩

end Idle

/-! ### Starting a move -/

/-- The game accepts the move of the selected piece `p` from `source` to `target`. -/
structure GameState.Starts (s : GameState) (p : Piece) (source target : Cell) (s' : GameState) : Prop where
  selected : s.selected = some source
  piece : s.board.pieceAt source.1 source.2 = some p
  accepted : s.canMoveSelectedTo source.1 source.2 target.1 target.2 = .ok true
  step : s.moveSelectedTo target.1 target.2 = .ok s'

/-- The number of steps a king needs. -/
def chebyshev (start target : Cell) : Nat :=
  max (toInt start.1 - toInt target.1).natAbs (toInt start.2 - toInt target.2).natAbs

def GameState.travelTime (s : GameState) (p : Piece) (source target : Cell) : Int :=
  if (s.board.pieceAt target.1 target.2).any (·.color != p.color) then s.rules.moveDurationMs
  else s.rules.moveDurationMs * chebyshev source target

section Start

variable {s s' : GameState} {p : Piece} {source target : Cell} {flights : List Flight}

theorem canMoveSelectedTo_eq_true_iff {fromRow fromCol toRow toCol : Nat} :
    s.canMoveSelectedTo fromRow fromCol toRow toCol = .ok true ↔
      s.board.InBounds toRow toCol ∧ s.isPieceMoving fromRow fromCol = false ∧
        s.isPieceJumping fromRow fromCol = false ∧ s.isPieceResting fromRow fromCol = false ∧
        ∃ p, s.board.pieceAt fromRow fromCol = some p ∧
          s.rules.isLegalMove s.board p.kind (toInt fromRow) (toInt fromCol) (toInt toRow) (toInt toCol) = .ok true ∧
          s.arbiter.isSameColorDestinationClaimed p.color (toRow, toCol) = false := by
  have hbounds : s.isInBounds toRow toCol = true ↔ s.board.InBounds toRow toCol := isInBounds_iff
  unfold GameState.canMoveSelectedTo
  cases hin : s.isInBounds toRow toCol with
  | false => simp [← hbounds, hin]
  | true =>
      cases hmoving : s.isPieceMoving fromRow fromCol <;> cases hjumping : s.isPieceJumping fromRow fromCol <;>
        cases hresting : s.isPieceResting fromRow fromCol <;> simp [← hbounds, hin]
      cases hp : s.board.pieceAt fromRow fromCol with
      | none => simp
      | some p =>
          simp only [GameState.isLegalMove, toSize_toInt, hp, Option.some.injEq, exists_eq_left']
          cases hlegal : s.rules.isLegalMove s.board p.kind (toInt fromRow) (toInt fromCol) (toInt toRow)
              (toInt toCol) with
          | error fault => simp [bind, Except.bind]
          | ok legal => cases legal <;> simp

theorem computeMoveDuration_eq (h : Located s.board flights) (hp : s.board.pieceAt source.1 source.2 = some p) :
    s.computeMoveDuration source.1 source.2 target.1 target.2
        ((s.board.pieceAt target.1 target.2).any (·.isOpponentOf p)) = s.travelTime p source target := by
  have hopponent : (s.board.pieceAt target.1 target.2).any (·.isOpponentOf p) =
      (s.board.pieceAt target.1 target.2).any (·.color != p.color) := by
    cases hq : s.board.pieceAt target.1 target.2 with
    | none => rfl
    | some q =>
        rw [Option.any_some, Option.any_some, Bool.eq_iff_iff,
          Piece.isOpponentOf_iff (h.valid.id_ne hq) (h.valid.id_ne hp), bne_iff_ne]
        exact ne_comm
  have hdistance : (max (if source.1 > target.1 then source.1 - target.1 else target.1 - source.1)
      (if source.2 > target.2 then source.2 - target.2 else target.2 - source.2)) = chebyshev source target := by
    simp only [chebyshev, toInt]
    split <;> split <;> omega
  unfold GameState.computeMoveDuration GameState.travelTime
  rw [hopponent]
  split
  · rfl
  · dsimp only
    rw [hdistance, Int.mul_comm]

/-- A move that is accepted lifts its piece off the board, whatever the rules are. -/
theorem GameState.Starts.eq_withMove (h : s.Starts p source target s') (hboard : Located s.board flights) :
    s' = s.withMove p source target (s.travelTime p source target) := by
  obtain ⟨board, hstate, hclear⟩ := bind_eq_ok.mp (lift_eq hboard h.piece)
  have hstep := h.step
  unfold GameState.moveSelectedTo at hstep
  simp only [h.selected, h.accepted, ok_bind, Bool.not_true, Bool.false_eq_true, if_false, h.piece, hstate, hclear,
    pure_eq_ok, computeMoveDuration_eq hboard h.piece] at hstep
  cases hstep
  rfl

theorem GameState.Starts.inBounds (h : s.Starts p source target s') : s.board.InBounds target.1 target.2 :=
  (canMoveSelectedTo_eq_true_iff.mp h.accepted).1

theorem GameState.Starts.legal (h : s.Starts p source target s') :
    s.rules.isLegalMove s.board p.kind (toInt source.1) (toInt source.2) (toInt target.1) (toInt target.2) = .ok true := by
  obtain ⟨-, -, -, -, q, hq, hlegal, -⟩ := canMoveSelectedTo_eq_true_iff.mp h.accepted
  rw [h.piece, Option.some.injEq] at hq
  exact hq ▸ hlegal

end Start

/-! ### A move alone in the air -/

section Alone

variable {s : GameState} {move : PendingMove} {p : Piece} {ms : Int}

/-- The tick that reaches the arrival of the only move in the air settles that move and nothing else. -/
theorem addClock_alone (hmoves : s.pendingMoves = [move]) (hjumps : s.activeJumps = [])
    (hdue : move.arrivalTime ≤ s.clockMs + ms) :
    s.addClock ms =
      (settleDueMove s.rules (s.clockMs + ms) [] ⟨s.board, s.activeRests, s.gameOver, false⟩ move >>= fun settled =>
        .ok { s with
          board := settled.board
          gameOver := settled.gameOver
          arbiter := ⟨⟨[], [], expireRests (s.clockMs + ms) settled.rests⟩, s.clockMs + ms⟩ }) := by
  have hlate : ¬s.arbiter.clockMs + ms < move.arrivalTime := Int.not_lt.mpr hdue
  change s.arbiter.scheduler.pendingMoves = [move] at hmoves
  change s.arbiter.scheduler.activeJumps = [] at hjumps
  unfold GameState.addClock RealTimeArbiter.updateTime RealTimeArbiter.settlePendingMoves
  simp only [hmoves, hjumps, MoveScheduler.forEachPendingDue, MoveScheduler.expireJumps, drain, hlate, decide_false,
    Bool.not_false, if_true]
  rw [show s.clockMs = s.arbiter.clockMs from rfl, show s.activeRests = s.arbiter.scheduler.activeRests from rfl]
  cases settleDueMove s.rules (s.arbiter.clockMs + ms) []
      ⟨s.board, s.arbiter.scheduler.activeRests, s.gameOver, false⟩ move with
  | error fault => rfl
  | ok settled =>
      have hcancel : ∀ clockMs scheduler, scheduler.pendingMoves = [] →
          cancelInvalidInFlightMoves settled.board clockMs scheduler = .ok (settled.board, scheduler) := by
        intro clockMs scheduler hnone
        simp only [cancelInvalidInFlightMoves, invalidInFlightMoves, hnone, List.foldlM_nil, pure_eq_ok, ok_bind]
      simp only [ok_bind]
      rw [hcancel _ _ rfl]
      cases settled.boardChanged <;> rfl

/-- The board and the flag after the only move in the air has been settled. -/
theorem settleMove_alone (rules : GameRules) (clockMs : Int) (move : PendingMove) {x : Settling}
    (hp : x.board.findPieceById move.pieceId = some p) :
    (settleMove rules clockMs [] x move).board =
        (if playable x.board move then x.board.land (rules.landing p move.endPos.1 x.board.rows) move.endPos.1 move.endPos.2
          else x.board.land { p with state := .idle } move.startPos.1 move.startPos.2) ∧
      (settleMove rules clockMs [] x move).gameOver =
        (x.gameOver || playable x.board move &&
          (x.board.pieceAt move.endPos.1 move.endPos.2).any rules.isGameOver) := by
  unfold settleMove dueEvent
  rw [pieceOf_eq hp]
  dsimp only
  cases playable x.board move with
  | false => exact ⟨rfl, (Bool.or_false _).symm⟩
  | true => exact ⟨rfl, rfl⟩

end Alone

/-- The move in flight that an accepted move leads to. -/
def GameState.startedMove (s : GameState) (p : Piece) (source target : Cell) : PendingMove :=
  ⟨p.id, p.color, p.kind, source, target, s.clockMs, s.clockMs + s.travelTime p source target⟩

section Landing

variable {s s' : GameState} {p : Piece} {source target : Cell} {steps : List Int}

/-- The piece is in the air, and everything else is as it was. -/
structure Departed (s : GameState) (p : Piece) (source target : Cell) (s' : GameState) : Prop where
  board : s'.board = s.board.lift p source.1 source.2
  pendingMoves : s'.pendingMoves = [s.startedMove p source target]
  activeJumps : s'.activeJumps = []
  clockMs : s'.clockMs = s.clockMs
  rules : s'.rules = s.rules
  gameOver : s'.gameOver = s.gameOver
  located : Located s'.board [(s.startedMove p source target).flight]
  flying : s'.board.findPieceById p.id = some { p with state := .moving }

theorem GameState.Starts.departed (h : s.Starts p source target s') (hboard : Located s.board [])
    (hmoves : s.pendingMoves = []) (hjumps : s.activeJumps = []) : Departed s p source target s' := by
  obtain rfl := h.eq_withMove hboard
  refine ⟨rfl, ?_, hjumps, rfl, rfl, rfl, hboard.lift h.piece rfl (by simp), ?_⟩
  · show s.pendingMoves ++ [_] = _
    rw [hmoves]
    rfl
  · show (s.board.lift p source.1 source.2).findPieceById p.id = _
    rw [hboard.findPieceById_lift h.piece, if_pos rfl]

/-- Whether the arrival is settled as a landing. -/
def GameState.lands (s : GameState) (p : Piece) (source target : Cell) : Bool :=
  playable (s.board.lift p source.1 source.2) (s.startedMove p source target)

/-- The piece as the rules hand it back on the row of its target. -/
def GameState.handedBack (s : GameState) (p : Piece) (target : Cell) : Piece :=
  s.rules.onReachLastRow { p with state := .moving } target.1 s.board.rows

theorem Departed.rows (h : Departed s p source target s') : s'.board.rows = s.board.rows := by
  simp [h.board, BoardModel.lift]

theorem Departed.inBounds (h : Departed s p source target s') (hin : s.board.InBounds target.1 target.2) :
    s'.board.InBounds target.1 target.2 := by
  rw [h.board]
  exact inBounds_lift.mpr hin

/-- The run up to the settlement of the move. -/
theorem Departed.run (h : Departed s p source target s') (hsteps : ∀ ms ∈ steps, 0 ≤ ms) (hne : steps ≠ [])
    (hd : s.travelTime p source target ≤ steps.sum) :
    ∃ (clockMs : Int) (rests : RestMap) (left : Settling → RestMap) (after : List Int), (∀ ms ∈ after, 0 ≤ ms) ∧
      s'.runActions (ticks steps) =
        (settleDueMove s.rules clockMs [] ⟨s'.board, rests, s.gameOver, false⟩ (s.startedMove p source target) >>=
          fun settled => GameState.runActions
            ⟨settled.board, s.rules, ⟨⟨[], [], left settled⟩, clockMs⟩, s'.selected, settled.gameOver⟩
            (ticks after)) := by
  have harrival : ∀ move ∈ s'.pendingMoves, s'.clockMs + s.travelTime p source target ≤ move.arrivalTime := by
    rw [h.pendingMoves, h.clockMs]
    intro move hmove
    rw [List.mem_singleton.mp hmove]
    exact Int.le_refl _
  have hnone : ∀ jump ∈ s'.activeJumps, s'.clockMs + s.travelTime p source target ≤ jump.arrivalTime := by
    rw [h.activeJumps]
    intro jump h
    obtain ⟨⟩ := h
  obtain ⟨before, ms, after, rests, rfl, -, hms, hrun⟩ := runActions_crossing hne hsteps hd harrival hnone
  have hsettle := addClock_alone (s := s'.retimed (s'.clockMs + before.sum) rests) h.pendingMoves h.activeJumps (by
    show s.clockMs + _ ≤ s'.clockMs + before.sum + ms
    rw [h.clockMs]
    omega)
  refine ⟨s'.clockMs + before.sum + ms, rests,
    fun settled => expireRests (s'.clockMs + before.sum + ms) settled.rests, after,
    fun step hstep => hsteps step (List.mem_append_right _ (List.mem_cons_of_mem _ hstep)), ?_⟩
  rw [hrun, hsettle, bind_assoc, GameState.retimed_rules, GameState.retimed_board, GameState.retimed_gameOver, h.rules,
    h.gameOver]
  rfl

/-- What the ticks lead to if the rules keep the piece. -/
theorem Departed.settles (h : Departed s p source target s') (hin : s.board.InBounds target.1 target.2)
    (hkeeps : s.lands p source target = true → (s.handedBack p target).id = p.id) (hsteps : ∀ ms ∈ steps, 0 ≤ ms)
    (hne : steps ≠ []) (hd : s.travelTime p source target ≤ steps.sum) :
    ∃ final, s'.runActions (ticks steps) = .ok final ∧ final.pendingMoves = [] ∧ final.activeJumps = [] ∧
      final.board = (if s.lands p source target then
          s'.board.land { s.handedBack p target with state := .idle } target.1 target.2
        else s'.board.land { p with state := .idle } source.1 source.2) ∧
      final.gameOver = (s.gameOver || s.lands p source target &&
        (s'.board.pieceAt target.1 target.2).any s.rules.isGameOver) := by
  obtain ⟨clockMs, rests, left, after, hafter, hrun⟩ := h.run hsteps hne hd
  have hlands : s.lands p source target = playable s'.board (s.startedMove p source target) := by
    rw [h.board]
    rfl
  have hback : s.handedBack p target = s.rules.onReachLastRow { p with state := .moving } target.1 s'.board.rows := by
    rw [h.rows]
    rfl
  have hsettle : settleDueMove s.rules clockMs [] ⟨s'.board, rests, s.gameOver, false⟩ (s.startedMove p source target) =
      .ok (settleMove s.rules clockMs [] ⟨s'.board, rests, s.gameOver, false⟩ (s.startedMove p source target)) :=
    settleDueMove_eq_of_keeps h.located h.flying
      (fun hplay => (congrArg Piece.id hback).symm.trans (hkeeps (hlands.trans hplay))) (h.inBounds hin)
  obtain ⟨hboard, hgameOver⟩ := settleMove_alone s.rules clockMs (s.startedMove p source target)
    (x := ⟨s'.board, rests, s.gameOver, false⟩) h.flying
  rw [hsettle, ok_bind] at hrun
  obtain ⟨later, expired, hquiet⟩ := runActions_quiet hafter
    (s := ⟨_, s.rules, ⟨⟨[], [], left _⟩, clockMs⟩, s'.selected, _⟩) rfl rfl
  refine ⟨_, hrun.trans hquiet, rfl, rfl, ?_, ?_⟩
  · rw [GameState.retimed_board, hboard, ← hlands, hback]
    rfl
  · rw [GameState.retimed_gameOver, hgameOver, ← hlands]
    rfl

end Landing

/-! ### Arrivals under the standard rules -/

theorem promotePawnToQueen_eq (p : Piece) (row rows : Nat) :
    promotePawnToQueen p row rows =
      { p with kind := if p.kind = .pawn ∧ row = lastRow p.color rows then .queen else p.kind } := by
  obtain ⟨id, color, kind, cell, state⟩ := p
  by_cases hpawn : kind = .pawn
  · subst hpawn
    cases color with
    | white => by_cases hlast : row = 0 <;> simp [promotePawnToQueen, Piece.isWhite, Piece.isBlack, lastRow, hlast]
    | black => by_cases hlast : row = rows - 1 <;> simp [promotePawnToQueen, Piece.isWhite, Piece.isBlack, lastRow, hlast]
  · simp [promotePawnToQueen, hpawn]

/-- The game `final` that the move of `p` from `source` to `target` leads to while it is in the air. -/
structure InFlight (s : GameState) (p : Piece) (source target : Cell) (final : GameState) : Prop where
  size : final.board.rows = s.board.rows ∧ final.board.cols = s.board.cols
  cells : ∀ cell : Cell,
    final.board.cellId cell.1 cell.2 = if cell = source then none else s.board.cellId cell.1 cell.2
  flying : final.board.findPieceById p.id = some { p with state := .moving }
  pending : final.pendingMoves = [s.startedMove p source target]
  others : ∀ id, id ≠ p.id → final.board.findPieceById id = s.board.findPieceById id
  gameOver : final.gameOver = s.gameOver

/-- The game `final` that the move of `p` from `source` to `target` leads to when it has arrived. -/
structure Arrived (s : GameState) (p : Piece) (source target : Cell) (final : GameState) : Prop where
  size : final.board.rows = s.board.rows ∧ final.board.cols = s.board.cols
  cells : ∀ cell : Cell, final.board.cellId cell.1 cell.2 =
    if cell = target then some p.id else if cell = source then none else s.board.cellId cell.1 cell.2
  landed : final.board.findPieceById p.id = some { p with
    kind := if p.kind = .pawn ∧ target.1 = lastRow p.color s.board.rows then .queen else p.kind
    cell := positionOf target.1 target.2
    state := .idle }
  captured : ∀ q, s.board.pieceAt target.1 target.2 = some q →
    q.color ≠ p.color ∧ final.board.findPieceById q.id = some { q with state := .captured }
  others : ∀ id, id ≠ p.id → (∀ q, s.board.pieceAt target.1 target.2 = some q → q.id ≠ id) →
    final.board.findPieceById id = s.board.findPieceById id
  gameOver : final.gameOver = true ↔
    s.gameOver = true ∨ ∃ q, s.board.pieceAt target.1 target.2 = some q ∧ q.kind = .king
  noneLeft : final.pendingMoves = [] ∧ final.activeJumps = []

section Standard

variable {s s' : GameState} {p : Piece} {source target : Cell} {steps : List Int}

theorem GameState.Starts.ne (h : s.Starts p source target s') (hrules : s.rules = .standard) : source ≠ target := by
  have hlegal := h.legal
  rw [hrules] at hlegal
  have hne := isLegalMove_ne hlegal
  intro h
  obtain rfl := h
  simp at hne

theorem GameState.Starts.travelTime_pos (h : s.Starts p source target s') (hrules : s.rules = .standard) :
    0 < s.travelTime p source target := by
  have hduration : s.rules.moveDurationMs = 1000 := by rw [hrules]; rfl
  have hfar : 0 < chebyshev source target := by
    by_contra hnear
    simp only [chebyshev, toInt] at hnear
    exact h.ne hrules (Prod.ext (by omega) (by omega))
  unfold GameState.travelTime
  rw [hduration]
  split <;> omega

/-- What is legal by the standard rules when it is asked for lands, and nothing else does. -/
theorem GameState.Starts.lands_iff (h : s.Starts p source target s') (hboard : Located s.board [])
    (hne : source ≠ target) :
    s.lands p source target = true ↔ KungFuChess.isLegalMove s.board p.kind (toInt source.1) (toInt source.2)
      (toInt target.1) (toInt target.2) = .ok true := by
  have hin := inBounds_of_cellId hboard.rect (hboard.pieceAt_eq_some_iff.mp h.piece).1
  have hflying : (s.board.lift p source.1 source.2).findPieceById (s.startedMove p source target).pieceId =
      some { p with state := .moving } := by
    rw [hboard.findPieceById_lift h.piece]
    exact if_pos rfl
  have hagree := (hboard.sameElsewhere_lift h.piece).canSettleMove_eq hin h.piece h.inBounds hne rfl rfl hflying
    rfl rfl rfl
  unfold GameState.lands
  rw [← hagree]
  refine ⟨canSettleMove_of_playable, fun hcan => ?_⟩
  unfold playable
  rw [hcan]

theorem GameState.Starts.lands (h : s.Starts p source target s') (hrules : s.rules = .standard)
    (hboard : Located s.board []) : s.lands p source target = true := by
  have hlegal := h.legal
  rw [hrules] at hlegal
  exact (h.lands_iff hboard (h.ne hrules)).mpr hlegal

theorem GameState.handedBack_standard (hrules : s.rules = .standard) :
    s.handedBack p target = { p with
      kind := if p.kind = .pawn ∧ target.1 = lastRow p.color s.board.rows then .queen else p.kind
      state := .moving } := by
  rw [GameState.handedBack, hrules]
  exact promotePawnToQueen_eq _ _ _

/-- The ticks that reach the arrival of a move that was legal when it was asked for. -/
theorem GameState.Starts.arrived (h : s.Starts p source target s') (hrules : s.rules = .standard)
    (hboard : Located s.board []) (hdeparted : Departed s p source target s') (hsteps : ∀ ms ∈ steps, 0 ≤ ms)
    (harrived : s.travelTime p source target ≤ steps.sum) :
    ∃ final, s'.runActions (ticks steps) = .ok final ∧ Arrived s p source target final := by
  have hne : steps ≠ [] := by
    intro h
    obtain rfl := h
    exact absurd (h.travelTime_pos hrules) (Int.not_lt.mpr harrived)
  have helsewhere := hboard.sameElsewhere_lift h.piece
  have hlands := h.lands hrules hboard
  have hback : s.handedBack p target = _ := s.handedBack_standard hrules
  obtain ⟨final, hrun, hpending, hjumps, hfinal, hgameOver⟩ :=
    hdeparted.settles h.inBounds (fun _ => by rw [hback]) hsteps hne harrived
  rw [hlands, if_pos rfl, hback] at hfinal
  have hoccupant : s'.board.pieceAt target.1 target.2 = s.board.pieceAt target.1 target.2 := by
    rw [hdeparted.board]
    exact helsewhere.piece target (Ne.symm (h.ne hrules))
  have hin := hdeparted.inBounds h.inBounds
  have hfind := fun id => @Located.findPieceById_land _ _ _ { p with
      kind := if p.kind = .pawn ∧ target.1 = lastRow p.color s.board.rows then .queen else p.kind
      state := .idle } target.1 target.2 hdeparted.located rfl id
  refine ⟨final, hrun, ?_, fun cell => ?_, ?_, fun q hq => ⟨?_, ?_⟩, fun id hid hother => ?_, ?_, hpending, hjumps⟩
  · rw [hfinal, hdeparted.board, rows_land, cols_land]
    exact ⟨helsewhere.rows, helsewhere.cols⟩
  · rw [hfinal, hdeparted.located.cellId_land hin, hdeparted.board, hboard.cellId_lift h.piece]
    simp only [Prod.ext_iff]
  · rw [hfinal, hfind, if_pos rfl]
  · rw [← hoccupant] at hq
    rw [GameState.lands, ← hdeparted.board] at hlands
    have hflying : s'.board.findPieceById (s.startedMove p source target).pieceId = _ := hdeparted.flying
    have hcolor := canSettleMove_dest hflying (canSettleMove_of_playable hlands) hq
    exact hcolor
  · have hqid : q.id ≠ p.id := by
      intro heq
      rw [← hoccupant] at hq
      exact hdeparted.located.ne_of_pieceAt List.mem_cons_self hq heq.symm
    rw [hfinal, hfind, if_neg hqid, hoccupant, hq]
    exact if_pos rfl
  · rw [hfinal, hfind, if_neg hid, hoccupant]
    have hsame : s'.board.findPieceById id = s.board.findPieceById id := by
      rw [hdeparted.board, hboard.findPieceById_lift h.piece, if_neg hid]
    cases hq : s.board.pieceAt target.1 target.2 with
    | none => exact hsame
    | some q => exact (if_neg (Ne.symm (hother q hq))).trans hsame
  · rw [hgameOver, hlands, hoccupant, hrules, Bool.true_and, Bool.or_eq_true, Option.any_eq_true]
    simp only [GameRules.standard, kingCaptureEndsGame, beq_iff_eq]

/-- A move that the game accepts, and that nothing disturbs, arrives on its cell on time, whatever the ticks are. -/
theorem undisturbed_move_arrives (hreach : Reachable s) (hmoves : s.pendingMoves = []) (hjumps : s.activeJumps = [])
    (hstart : s.Starts p source target s') (hsteps : ∀ ms ∈ steps, 0 ≤ ms) :
    ∃ final, s'.runActions (ticks steps) = .ok final ∧
      (steps.sum < s.travelTime p source target → InFlight s p source target final) ∧
      (s.travelTime p source target ≤ steps.sum → Arrived s p source target final) := by
  have hinv := hreach.inv
  have hboard : Located s.board [] := by
    have hlocated := hinv.located
    rwa [hmoves, hjumps] at hlocated
  have hdeparted := hstart.departed hboard hmoves hjumps
  have hpos := hstart.travelTime_pos hinv.rules
  have helsewhere := hboard.sameElsewhere_lift hstart.piece
  rcases lt_or_ge steps.sum (s.travelTime p source target) with hearly | harrived
  · obtain ⟨rests, hrun, -⟩ := runActions_idle (s := s') hsteps (by
      rw [hdeparted.pendingMoves, hdeparted.clockMs]
      intro move hmove
      rw [List.mem_singleton.mp hmove]
      exact Int.add_lt_add_left hearly _) (by
      rw [hdeparted.activeJumps]
      intro jump h
      cases h)
    refine ⟨_, hrun, fun _ => ?_, fun hlate => absurd hlate (Int.not_le.mpr hearly)⟩
    refine ⟨?_, fun cell => ?_, hdeparted.flying, hdeparted.pendingMoves, fun id hid => ?_, hdeparted.gameOver⟩
    · rw [GameState.retimed_board, hdeparted.board]
      exact ⟨helsewhere.rows, helsewhere.cols⟩
    · rw [GameState.retimed_board, hdeparted.board]
      exact hboard.cellId_lift hstart.piece cell.1 cell.2
    · rw [GameState.retimed_board, hdeparted.board, hboard.findPieceById_lift hstart.piece, if_neg hid]
  · obtain ⟨final, hrun, hlanded⟩ := hstart.arrived hinv.rules hboard hdeparted hsteps harrived
    exact ⟨final, hrun, fun hlate => absurd hlate (Int.not_lt.mpr harrived), fun _ => hlanded⟩

/-- The rook of the duel takes the king, in two ticks. -/
theorem undisturbed_move_arrives_duel :
    ∃ s s', (GameState.new duelBoard).runActions [.select 0 0] = .ok s ∧
      s.Starts ⟨1, .white, .rook, ⟨0, 0⟩, .idle⟩ (0, 0) (0, 1) s' ∧
      ∃ final, s'.runActions (ticks [400, 600]) = .ok final ∧
        (400 + 600 < s.travelTime ⟨1, .white, .rook, ⟨0, 0⟩, .idle⟩ (0, 0) (0, 1) →
          InFlight s ⟨1, .white, .rook, ⟨0, 0⟩, .idle⟩ (0, 0) (0, 1) final) ∧
        (s.travelTime ⟨1, .white, .rook, ⟨0, 0⟩, .idle⟩ (0, 0) (0, 1) ≤ 400 + 600 →
          Arrived s ⟨1, .white, .rook, ⟨0, 0⟩, .idle⟩ (0, 0) (0, 1) final) := by
  have hrun : (GameState.new duelBoard).runActions [.select 0 0] = .ok ((GameState.new duelBoard).select 0 0) := rfl
  have hreach : Reachable ((GameState.new duelBoard).select 0 0) := ⟨duelBoard, duelBoard_accepted, _, hrun⟩
  obtain ⟨s', hs', -⟩ := moveSelectedTo_step hreach.inv 0 1
  have hstart : ((GameState.new duelBoard).select 0 0).Starts ⟨1, .white, .rook, ⟨0, 0⟩, .idle⟩ (0, 0) (0, 1) s' :=
    ⟨rfl, by decide, by decide, hs'⟩
  exact ⟨_, s', hrun, hstart, undisturbed_move_arrives hreach rfl rfl hstart (by decide)⟩

end Standard

/-! ### Arrivals under injected rules -/

section Injected

variable {s s' : GameState} {p : Piece} {source target : Cell} {steps : List Int}

theorem cellId_of_writeCell {b b' : BoardModel} {row col : Nat} {id : Option Nat} (h : b.writeCell row col id = .ok b') :
    b'.cellId row col = id := by
  unfold writeCell at h
  cases hentry : b.entryAt row col with
  | none =>
      rw [hentry] at h
      cases h
  | some old =>
      rw [hentry] at h
      cases h
      obtain ⟨line, hrow, hcol⟩ := Option.bind_eq_some_iff.mp hentry
      have hlength : col < line.length := (List.getElem?_eq_some_iff.mp hcol).1
      simp [cellId, entryAt, setCell, hrow, hlength]

theorem cellId_of_placePiece {b b' : BoardModel} {q : Piece} (h : b.placePiece q = .ok b') :
    b'.cellId (toSize q.cell.row) (toSize q.cell.col) = some q.id := by
  obtain ⟨stored, -, hwrite⟩ := bind_eq_ok.mp h
  exact cellId_of_writeCell hwrite

/-- A landing leaves on the target whatever piece the rules hand back. -/
theorem cellId_of_settleDueMove {rules : GameRules} {clockMs : Int} {x settled : Settling} {move : PendingMove}
    (h : Located x.board [move.flight]) (hp : x.board.findPieceById move.pieceId = some p)
    (hplay : playable x.board move = true) (hsettle : settleDueMove rules clockMs [] x move = .ok settled) :
    settled.board.cellId move.endPos.1 move.endPos.2 = some (rules.onReachLastRow p move.endPos.1 x.board.rows).id := by
  have haway : ∀ row col, (x.board.pieceAt row col).any (·.id == move.pieceId) = false :=
    fun row col => h.pieceAt_any_flight List.mem_cons_self
  have hplaced : ∀ {b b' : BoardModel}, b.placePiece { rules.onReachLastRow p move.endPos.1 x.board.rows with
      cell := positionOf move.endPos.1 move.endPos.2, state := .idle } = .ok b' →
      b'.cellId move.endPos.1 move.endPos.2 = some (rules.onReachLastRow p move.endPos.1 x.board.rows).id := by
    intro b b' hplace
    simpa [positionOf] using cellId_of_placePiece hplace
  unfold settleDueMove at hsettle
  rw [canSettleMove_of_playable hplay, ok_bind] at hsettle
  simp only [Bool.not_true, Bool.false_eq_true, if_false, haway, ok_bind, getPiece_eq hp] at hsettle
  cases hq : x.board.pieceAt move.endPos.1 move.endPos.2 with
  | none =>
      have hcheck : checkForJumpCapture x.board rules clockMs [] move.endPos move.pieceId x.gameOver =
          .ok (false, x.board, x.gameOver) := checkForJumpCapture_empty (f := move.flight) rules x.gameOver hp rfl hq
      simp only [hcheck, ok_bind, Bool.not_false, if_true, getPiece_eq hp] at hsettle
      obtain ⟨board, hplace, hdone⟩ := bind_eq_ok.mp hsettle
      cases hdone
      exact hplaced hplace
  | some q =>
      have hcolor := canSettleMove_dest hp (canSettleMove_of_playable hplay) hq
      have hget : (x.board.evict move.endPos.1 move.endPos.2).getPiece move.pieceId = .ok p := by
        refine getPiece_eq ?_
        have hflight : (x.board.evict move.endPos.1 move.endPos.2).findPieceById move.pieceId = _ :=
          h.findPieceById_evict_flight List.mem_cons_self
        exact hflight.trans hp
      have hnone : capturingJump clockMs [] move.endPos p.color = none := rfl
      simp only [checkForJumpCapture, getPiece_eq hp, ok_bind, hnone, hq, bne_iff_ne, ne_eq, hcolor, not_false_eq_true,
        if_true, removePieceAt_eq h.rect h.idsInPlace hq, hget, rows_evict] at hsettle
      obtain ⟨⟨captured, board, gameOver⟩, hcapture, hrest⟩ := bind_eq_ok.mp hsettle
      obtain ⟨placed, hplace, hsame⟩ := bind_eq_ok.mp hcapture
      cases hsame
      simp only [Bool.not_true, Bool.false_eq_true, if_false] at hrest
      have hcell := hplaced hplace
      split at hrest
      · cases hrest
        exact hcell
      · obtain ⟨board', hstate, hdone⟩ := bind_eq_ok.mp hrest
        obtain ⟨piece, -, hset⟩ := bind_eq_ok.mp hstate
        cases hset
        cases hdone
        exact hcell

theorem Departed.cellId_target (h : Departed s p source target s') (hlands : s.lands p source target = true)
    (hsteps : ∀ ms ∈ steps, 0 ≤ ms) (hne : steps ≠ []) (hd : s.travelTime p source target ≤ steps.sum)
    {final : GameState} (hrun : s'.runActions (ticks steps) = .ok final) :
    final.board.cellId target.1 target.2 = some (s.handedBack p target).id := by
  obtain ⟨clockMs, rests, left, after, hafter, hsettles⟩ := h.run hsteps hne hd
  rw [hsettles] at hrun
  obtain ⟨settled, hsettled, hrest⟩ := bind_eq_ok.mp hrun
  obtain ⟨later, expired, hquiet⟩ := runActions_quiet hafter
    (s := ⟨settled.board, s.rules, ⟨⟨[], [], left settled⟩, clockMs⟩, s'.selected, settled.gameOver⟩) rfl rfl
  have hplay : playable s'.board (s.startedMove p source target) = true := by
    rw [← hlands, GameState.lands, h.board]
  have hplaced := cellId_of_settleDueMove h.located h.flying hplay hsettled
  rw [hquiet, Except.ok.injEq] at hrest
  rw [← hrest, GameState.handedBack, ← h.rows]
  exact hplaced

/-- A piece that is put back is on the target only if it has started there. -/
theorem Departed.cellId_source (h : Departed s p source target s') (hboard : Located s.board [])
    (hp : s.board.pieceAt source.1 source.2 = some p) :
    (s'.board.land { p with state := .idle } source.1 source.2).cellId target.1 target.2 = some p.id ↔
      target = source := by
  have hsource := (hboard.pieceAt_eq_some_iff.mp hp).1
  have hin : s'.board.InBounds source.1 source.2 := by
    rw [h.board]
    exact inBounds_lift.mpr (inBounds_of_cellId hboard.rect hsource)
  rw [h.located.cellId_land hin, h.board, hboard.cellId_lift hp]
  by_cases hsame : target = source
  · simp [hsame]
  · rw [if_neg fun heq => hsame (Prod.ext heq.1 heq.2), if_neg hsame]
    refine iff_of_false (fun hother => hsame ?_) hsame
    obtain ⟨hrow, hcol⟩ := hboard.cell_unique hother hsource
    exact Prod.ext hrow hcol

/-- A move accepted under injected rules, and left alone, ends on its target just if the standard rules accept it
too, or it goes nowhere, and the rules do not exchange the piece as it lands. -/
theorem injected_move_arrives_iff (hboard : Located s.board []) (hmoves : s.pendingMoves = [])
    (hjumps : s.activeJumps = []) (hstart : s.Starts p source target s')
    (hsteps : ∀ ms ∈ steps, 0 ≤ ms) (hne : steps ≠ []) (hd : s.travelTime p source target ≤ steps.sum) :
    (∃ final, s'.runActions (ticks steps) = .ok final ∧ final.board.cellId target.1 target.2 = some p.id) ↔
      (target = source ∨ isLegalMove s.board p.kind (toInt source.1) (toInt source.2) (toInt target.1)
          (toInt target.2) = .ok true) ∧
        (s.lands p source target = true → (s.handedBack p target).id = p.id) := by
  have hdeparted := hstart.departed hboard hmoves hjumps
  have hin := hdeparted.inBounds hstart.inBounds
  cases hlands : s.lands p source target with
  | true =>
      have hlegal : target = source ∨ isLegalMove s.board p.kind (toInt source.1) (toInt source.2) (toInt target.1)
          (toInt target.2) = .ok true := by
        by_cases hsame : target = source
        · exact .inl hsame
        · exact .inr ((hstart.lands_iff hboard (Ne.symm hsame)).mp hlands)
      constructor
      · intro h
        obtain ⟨final, hrun, hcell⟩ := h
        have hplaced := hdeparted.cellId_target hlands hsteps hne hd hrun
        exact ⟨hlegal, fun _ => Option.some.inj (hplaced.symm.trans hcell)⟩
      · intro h
        obtain ⟨-, hkeeps⟩ := h
        obtain ⟨final, hrun, -, -, hfinal, -⟩ := hdeparted.settles hstart.inBounds (fun _ => hkeeps rfl) hsteps hne hd
        refine ⟨final, hrun, ?_⟩
        rw [hfinal, hlands, if_pos rfl, hdeparted.located.cellId_land hin, if_pos ⟨rfl, rfl⟩, hkeeps rfl]
  | false =>
      obtain ⟨final, hrun, -, -, hfinal, -⟩ := hdeparted.settles hstart.inBounds (by simp [hlands]) hsteps hne hd
      rw [hlands, if_neg (by decide)] at hfinal
      have hcell : final.board.cellId target.1 target.2 = some p.id ↔ target = source := by
        rw [hfinal]
        exact hdeparted.cellId_source hboard hstart.piece
      simp only [Bool.false_eq_true, false_imp_iff, and_true]
      constructor
      · intro h
        obtain ⟨other, hrun', htarget⟩ := h
        rw [hrun, Except.ok.injEq] at hrun'
        exact .inl (hcell.mp (hrun' ▸ htarget))
      · intro h
        rcases h with hsame | hother
        · exact ⟨final, hrun, hcell.mpr hsame⟩
        · by_cases hsame : target = source
          · exact ⟨final, hrun, hcell.mpr hsame⟩
          · rw [(hstart.lands_iff hboard (Ne.symm hsame)).mpr hother] at hlands
            cases hlands

/-- Rules that allow every move. -/
def permissiveRules : GameRules := { GameRules.standard with isLegalMove := fun _ _ _ _ _ _ => .ok true }

/-- The duel under the permissive rules, with the rook selected. -/
def permissiveDuel : GameState := { board := duelBoard, rules := permissiveRules, selected := some (0, 0) }

/-- The rook goes one step down, as the standard rules allow too. -/
theorem injected_move_arrives_iff_duel :
    ∃ s', permissiveDuel.Starts ⟨1, .white, .rook, ⟨0, 0⟩, .idle⟩ (0, 0) (1, 0) s' ∧
      ((∃ final, s'.runActions (ticks [400, 600]) = .ok final ∧ final.board.cellId 1 0 = some 1) ↔
        (((1, 0) : Cell) = (0, 0) ∨ isLegalMove duelBoard .rook 0 0 1 0 = .ok true) ∧
          (permissiveDuel.lands ⟨1, .white, .rook, ⟨0, 0⟩, .idle⟩ (0, 0) (1, 0) = true →
            (permissiveDuel.handedBack ⟨1, .white, .rook, ⟨0, 0⟩, .idle⟩ (1, 0)).id = 1)) := by
  have hstep : (fun _ => ()) <$> permissiveDuel.moveSelectedTo 1 0 = .ok () := by decide
  obtain ⟨s', hs', -⟩ := map_eq_ok.mp hstep
  have hstart : permissiveDuel.Starts ⟨1, .white, .rook, ⟨0, 0⟩, .idle⟩ (0, 0) (1, 0) s' :=
    ⟨rfl, by decide, by decide, hs'⟩
  have hboard : Located permissiveDuel.board [] := (gameInv_new duelBoard_accepted).located
  have hsum : permissiveDuel.travelTime ⟨1, .white, .rook, ⟨0, 0⟩, .idle⟩ (0, 0) (1, 0) ≤ [400, 600].sum := by decide
  exact ⟨s', hstart, injected_move_arrives_iff hboard rfl rfl hstart (by decide) (by decide) hsum⟩

/-- The rook is allowed to move like a bishop, and is put back as it arrives. -/
theorem injected_move_put_back :
    ¬∀ (s s' : GameState) (p : Piece) (source target : Cell) (steps : List Int), Located s.board [] →
      s.pendingMoves = [] → s.activeJumps = [] → 0 < s.rules.moveDurationMs → 0 < s.rules.jumpDurationMs →
      0 < s.rules.longRestDurationMs → 0 < s.rules.shortRestDurationMs → s.Starts p source target s' →
      (∀ ms ∈ steps, 0 ≤ ms) → s.travelTime p source target ≤ steps.sum →
      ∃ final, s'.runActions (ticks steps) = .ok final ∧ final.board.cellId target.1 target.2 = some p.id := by
  intro harrives
  have hrun : (fun final => final.board.cellId 1 1) <$>
      (permissiveDuel.moveSelectedTo 1 1 >>= fun s' => s'.runActions (ticks [1000])) = .ok none := by decide
  obtain ⟨final, hfinal, hcell⟩ := map_eq_ok.mp hrun
  obtain ⟨s', hs', hticks⟩ := bind_eq_ok.mp hfinal
  have hstart : permissiveDuel.Starts ⟨1, .white, .rook, ⟨0, 0⟩, .idle⟩ (0, 0) (1, 1) s' :=
    ⟨rfl, by decide, by decide, hs'⟩
  obtain ⟨other, hother, hstands⟩ := harrives permissiveDuel s' _ _ _ [1000]
    (gameInv_new duelBoard_accepted).located rfl rfl (by decide) (by decide) (by decide) (by decide) hstart (by decide)
    (by decide)
  rw [hticks, Except.ok.injEq] at hother
  rw [← hother, hcell] at hstands
  cases hstands

end Injected

end KungFuChess
