import Mathlib.Data.List.Pairwise
import KungFuChess.Proof.Flights

/-!
# The entries of the queues

The requests look into the queues by cell and by target, so no two entries share what a request looks for. A
settlement only takes entries away, and what is left has been told apart when it was entered.
-/

namespace KungFuChess

open BoardModel

/-- What no entry has in common with another, and that all of them are under way. -/
structure Unambiguous (s : GameState) : Prop where
  starts : (s.pendingMoves.map PendingMove.startPos ++ s.activeJumps.map JumpState.cell).Nodup
  ends : s.pendingMoves.Pairwise fun move other => move.color = other.color → move.endPos ≠ other.endPos
  movesUnderWay : ∀ move ∈ s.pendingMoves, move.startTime ≤ s.clockMs ∧ s.clockMs < move.arrivalTime
  jumpsUnderWay : ∀ jump ∈ s.activeJumps, jump.startTime ≤ s.clockMs ∧ s.clockMs < jump.arrivalTime
  owners : ∀ move ∈ s.pendingMoves, ∀ jump ∈ s.activeJumps, move.pieceId ≠ jump.pieceId

/-- What `GameInv` does not say of the entries. -/
structure EntryInv (s : GameState) : Prop where
  ends : s.pendingMoves.Pairwise fun move other => move.color = other.color → move.endPos ≠ other.endPos
  movesStarted : ∀ move ∈ s.pendingMoves, move.startTime ≤ s.clockMs
  jumpsStarted : ∀ jump ∈ s.activeJumps, jump.startTime ≤ s.clockMs

/-- The clock does not run backwards. -/
def GameAction.Forward (a : GameAction) : Prop := ∀ ms, a = .advanceClock ms → 0 ≤ ms

section Games

variable {s s' : GameState} {a : GameAction} {p : Piece} {source target : Cell}

theorem keptMoves_sublist (settled : Settling) (moves : List PendingMove) : (keptMoves settled moves).Sublist moves := by
  unfold keptMoves
  split
  · exact List.filter_sublist
  · exact List.Sublist.refl moves

theorem pendingMoves_advance_sublist (s : GameState) (ms : Int) : (s.advance ms).pendingMoves.Sublist s.pendingMoves :=
  (keptMoves_sublist _ _).trans List.filter_sublist

/-- An accepted move ends where no other move of its colour does. -/
theorem GameState.Starts.unclaimed (hstart : s.Starts p source target s') (h : GameInv s) {move : PendingMove}
    (hmove : move ∈ s.pendingMoves) (hcolor : move.color = p.color) : move.endPos ≠ target := by
  obtain ⟨-, -, -, -, q, hq, -, hclaimed⟩ := canMoveSelectedTo_eq_true_iff.mp hstart.accepted
  rw [hstart.piece, Option.some.injEq] at hq
  subst hq
  have hflying : s.arbiter.clockMs < move.arrivalTime := h.movesFlying move hmove
  have hother := List.any_eq_false.mp hclaimed move hmove
  simp only [hflying, hcolor, decide_true, Bool.true_and, BEq.rfl, beq_iff_eq] at hother
  exact hother

theorem EntryInv.starts (he : EntryInv s) (h : GameInv s) (hstart : s.Starts p source target s') : EntryInv s' := by
  have hends : ∀ move ∈ s.pendingMoves, move.color = p.color → move.endPos ≠ target :=
    fun move hmove => hstart.unclaimed h hmove
  obtain rfl := hstart.eq_withMove h.located
  refine ⟨?_, fun move hmove => ?_, he.jumpsStarted⟩
  · refine List.pairwise_append.mpr ⟨he.ends, List.pairwise_singleton _ _, fun move hmove other hother => ?_⟩
    cases List.mem_singleton.mp hother
    exact hends move hmove
  · rcases List.mem_append.mp hmove with hold | hmove
    · exact he.movesStarted move hold
    · cases List.mem_singleton.mp hmove
      exact Int.le_refl _

theorem EntryInv.withJump (he : EntryInv s) (p : Piece) (cell : Cell) (selected : Option Cell) :
    EntryInv { s.withJump p cell with selected } := by
  refine ⟨he.ends, he.movesStarted, fun jump hjump => ?_⟩
  rcases List.mem_append.mp hjump with hold | hjump
  · exact he.jumpsStarted jump hold
  · cases List.mem_singleton.mp hjump
    exact Int.le_refl _

theorem EntryInv.advance (he : EntryInv s) {ms : Int} (hms : 0 ≤ ms) : EntryInv (s.advance ms) := by
  have hclock : s.clockMs ≤ (s.advance ms).clockMs := Int.le_add_of_nonneg_right hms
  refine ⟨he.ends.sublist (pendingMoves_advance_sublist s ms), fun move hmove => ?_, fun jump hjump => ?_⟩
  · exact (he.movesStarted move (mem_pendingMoves_advance hmove).1).trans hclock
  · exact (he.jumpsStarted jump (mem_activeJumps_advance.mp hjump).1).trans hclock

theorem EntryInv.step (he : EntryInv s) (h : GameInv s) (ha : a.Forward) (hstep : s.applyAction a = .ok s') :
    EntryInv s' := by
  cases applyAction_acted h hstep with
  | quiet selected => exact ⟨he.ends, he.movesStarted, he.jumpsStarted⟩
  | started hstart => exact he.starts h hstart
  | jumped _ _ selected => exact he.withJump _ _ selected
  | settled ms => exact he.advance (ha ms rfl)

theorem Visits.entryInv {board : BoardModel} {actions : List GameAction} (hboard : AcceptedBoard board)
    (hactions : ∀ a ∈ actions, a.Forward) (hvisits : Visits board actions s) : EntryInv s := by
  refine hvisits.induction ⟨List.Pairwise.nil, ?_, ?_⟩ fun mid a next htakes he => ?_
  · intro move h
    obtain ⟨⟩ := h
  · intro jump h
    obtain ⟨⟩ := h
  · have hinv := htakes.visits.1.inv hboard
    obtain ⟨before, after, rfl, -, hstep⟩ := htakes
    exact he.step hinv (hactions a (by simp)) hstep

theorem EntryInv.unambiguous (he : EntryInv s) (h : GameInv s) : Unambiguous s where
  starts := by
    have horigins := h.located.originsNodup
    rw [flightsOf, List.map_append, List.map_map, List.map_map] at horigins
    exact horigins
  ends := he.ends
  movesUnderWay move hmove := ⟨he.movesStarted move hmove, h.movesFlying move hmove⟩
  jumpsUnderWay jump hjump := ⟨he.jumpsStarted jump hjump, h.jumpsFlying jump hjump⟩
  owners move hmove jump hjump := by
    have hids := h.located.idsNodup
    rw [flightsOf, List.map_append, List.map_map, List.map_map] at hids
    exact (List.nodup_append.mp hids).2.2 move.pieceId (List.mem_map_of_mem hmove) jump.pieceId
      (List.mem_map_of_mem hjump)

end Games

/-- The queues are unambiguous in every state of every game whose clock does not run backwards. -/
theorem in_flight_entries_unambiguous {board : BoardModel} {actions : List GameAction} {s : GameState}
    (hboard : AcceptedBoard board) (hactions : ∀ a ∈ actions, a.Forward)
    (hrun : (GameState.new board).runActions actions = .ok s) : Unambiguous s := by
  have hvisits := Visits.of_run hrun
  exact (hvisits.entryInv hboard hactions).unambiguous (hvisits.inv hboard)

/-- A rook leaves while the king is up. -/
theorem in_flight_entries_unambiguous_duel :
    ∃ s, (GameState.new duelBoard).runActions
        [.jumpAt 0 1, .advanceClock 500, .select 0 0, .moveSelected 1 0] = .ok s ∧
      s.pendingMoves.length = 1 ∧ s.activeJumps.length = 1 ∧ Unambiguous s := by
  have hactions : ∀ a ∈ [GameAction.jumpAt 0 1, .advanceClock 500, .select 0 0, .moveSelected 1 0], a.Forward := by
    simp [GameAction.Forward]
  exact ⟨_, rfl, rfl, rfl, in_flight_entries_unambiguous duelBoard_accepted hactions rfl⟩

end KungFuChess
