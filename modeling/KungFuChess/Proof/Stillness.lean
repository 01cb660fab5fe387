import KungFuChess.Proof.Entries
import KungFuChess.Proof.Selectable

/-!
# A game comes to rest

When both players wait, a game settles: a flight takes at most as long as the board is wide or high, and a rest begins
with the arrival of its flight. Waiting puts nothing into the air, so the latest arrival and the latest end of a rest are
known from the start. After them every piece stands on the board and can be selected, and time changes nothing more.
-/

namespace KungFuChess

open Loops BoardModel

/-! ### Everything is on the board -/

section Boards

variable {s s' : GameState} {a : GameAction} {board : BoardModel}

/-- An action keeps the selected cell, drops it or selects a cell of the board. -/
theorem selected_applyAction (h : GameInv s) (hstep : s.applyAction a = .ok s') {cell : Cell}
    (hselected : s'.selected = some cell) : s.selected = some cell ∨ s.board.InBounds cell.1 cell.2 := by
  cases a with
  | select row col =>
      cases hstep
      unfold GameState.select at hselected
      split at hselected
      · exact .inl hselected
      · rename_i hin
        obtain rfl := Option.some.inj hselected
        exact .inr (isInBounds_iff.mp (by simpa [GameState.isInBounds] using hin))
  | clearSelection =>
      cases hstep
      cases hselected
  | moveSelected toRow toCol =>
      rcases moveSelectedTo_cases h hstep with rfl | ⟨p, source, hstart⟩
      · exact .inl hselected
      · obtain rfl := hstart.eq_withMove h.located
        cases hselected
  | jumpSelected =>
      simp only [GameState.applyAction, GameState.jumpSelected] at hstep
      split at hstep
      · cases hstep
        exact .inl hselected
      · obtain ⟨mid, -, hdone⟩ := bind_eq_ok.mp hstep
        cases hdone
        cases hselected
  | jumpAt row col =>
      rcases jumpAt_cases h hstep with rfl | ⟨p, -, -, rfl⟩
      · exact .inl hselected
      · exact .inl hselected
  | advanceClock ms =>
      obtain rfl := h.eq_advance hstep
      exact .inl hselected

/-- The board of the game is as large as the first, and the selection and the rests are on it. -/
structure OnBoard (board : BoardModel) (s : GameState) : Prop where
  rows : s.board.rows = board.rows
  cols : s.board.cols = board.cols
  selected : ∀ cell, s.selected = some cell → board.InBounds cell.1 cell.2
  rests : ∀ id rest, s.activeRests.find? id = some rest → board.InBounds rest.row rest.col

namespace OnBoard

theorem inBounds_iff (h : OnBoard board s) {row col : Nat} : s.board.InBounds row col ↔ board.InBounds row col := by
  rw [InBounds, InBounds, h.rows, h.cols]

theorem new (board : BoardModel) : OnBoard board (.new board) where
  rows := rfl
  cols := rfl
  selected := fun _ h => by cases h
  rests := fun _ _ h => by cases h

theorem advance (hon : OnBoard board s) (h : GameInv s) (hr : RestInv s) (ms : Int) : OnBoard board (s.advance ms) where
  rows := (h.trace ms).dims.1.trans hon.rows
  cols := (h.trace ms).dims.2.trans hon.cols
  selected := hon.selected
  rests := by
    intro id rest hrest
    rw [find?_advance h] at hrest
    have hentered := (Option.filter_eq_some_iff.mp hrest).1
    rcases enteredRests_cases h hr hentered with ⟨move, hmove, -, rfl, -⟩ | ⟨jump, hjump, -, rfl⟩ | ⟨-, hold⟩
    · exact hon.inBounds_iff.mp (h.ends move (List.mem_of_mem_filter hmove))
    · exact hon.inBounds_iff.mp (h.located.originsIn jump.flight
        (List.mem_append_right _ (List.mem_map_of_mem (List.mem_of_mem_filter hjump))))
    · exact hon.rests id rest hold

theorem step (hon : OnBoard board s) (h : GameInv s) (hr : RestInv s) (hstep : s.applyAction a = .ok s') :
    OnBoard board s' := by
  have hselected : ∀ cell, s'.selected = some cell → board.InBounds cell.1 cell.2 := by
    intro cell hcell
    rcases selected_applyAction h hstep hcell with hold | hnew
    · exact hon.selected cell hold
    · exact hon.inBounds_iff.mp hnew
  cases applyAction_acted h hstep with
  | quiet selected => exact ⟨hon.rows, hon.cols, hselected, hon.rests⟩
  | started hstart =>
      obtain rfl := hstart.eq_withMove h.located
      exact ⟨(rows_setCell ..).trans hon.rows, (cols_setCell ..).trans hon.cols, hselected, hon.rests⟩
  | jumped _ _ selected =>
      exact ⟨(rows_setCell ..).trans hon.rows, (cols_setCell ..).trans hon.cols, hselected, hon.rests⟩
  | settled ms => exact hon.advance h hr ms

theorem of_run (hboard : AcceptedBoard board) {actions : List GameAction}
    (hrun : (GameState.new board).runActions actions = .ok s) : OnBoard board s := by
  refine (Visits.of_run hrun).induction (OnBoard.new board) fun mid a next htakes hon => ?_
  have hreach := htakes.visits.1.reachable hboard
  exact hon.step hreach.inv hreach.restInv htakes.applies

end OnBoard

end Boards

/-- The longest time that a flight can take on a board. -/
def longestFlightMs (board : BoardModel) : Int := kMoveDurationMs * max 1 (max board.rows board.cols - 1 : Nat)

/-- What is in the air arrives by the one time, and the rests end by the other. -/
structure DueBy (arrivals rests : Int) (s : GameState) : Prop where
  clock : 0 ≤ s.clockMs
  moves : ∀ move ∈ s.pendingMoves, move.arrivalTime ≤ arrivals
  jumps : ∀ jump ∈ s.activeJumps, jump.arrivalTime ≤ arrivals
  rests : ∀ id rest, s.activeRests.find? id = some rest → rest.endTimeMs ≤ rests

section Games

variable {s s' : GameState} {a : GameAction} {board : BoardModel} {arrivals rests : Int} {steps : List Int}

/-! ### Durations -/

theorem longestFlightMs_pos (board : BoardModel) : kMoveDurationMs ≤ longestFlightMs board := by
  unfold longestFlightMs kMoveDurationMs
  omega

/-- A move takes no longer than a king needs from one edge to the other. -/
theorem travelTime_le (hrules : s.rules = .standard) {p : Piece} {source target : Cell}
    (hsource : board.InBounds source.1 source.2) (htarget : board.InBounds target.1 target.2) :
    s.travelTime p source target ≤ longestFlightMs board := by
  have hduration : s.rules.moveDurationMs = 1000 := by
    rw [hrules]
    rfl
  have hsteps : chebyshev source target ≤ max board.rows board.cols - 1 := by
    obtain ⟨hrow, hcol⟩ := hsource
    obtain ⟨hrow', hcol'⟩ := htarget
    simp only [chebyshev, toInt]
    omega
  unfold GameState.travelTime longestFlightMs kMoveDurationMs
  rw [hduration]
  split <;> omega

/-! ### Deadlines -/

namespace DueBy

theorem mono (h : DueBy arrivals rests s) {arrivals' rests' : Int} (harrivals : arrivals ≤ arrivals')
    (hrests : rests ≤ rests') : DueBy arrivals' rests' s where
  clock := h.clock
  moves := fun move hmove => (h.moves move hmove).trans harrivals
  jumps := fun jump hjump => (h.jumps jump hjump).trans harrivals
  rests := fun id rest hrest => (h.rests id rest hrest).trans hrests

/-- A tick keeps the deadlines: what lands in it rests from its arrival on. -/
theorem advance (hdue : DueBy arrivals rests s) (h : GameInv s) (hr : RestInv s) {ms : Int} (hms : 0 ≤ ms)
    (hafter : arrivals + kLongRestDurationMs ≤ rests) : DueBy arrivals rests (s.advance ms) where
  clock := Int.add_nonneg hdue.clock hms
  moves := fun move hmove => hdue.moves move (mem_pendingMoves_advance hmove).1
  jumps := fun jump hjump => hdue.jumps jump (mem_activeJumps_advance.mp hjump).1
  rests := by
    intro id rest hrest
    rw [find?_advance h] at hrest
    have hentered := (Option.filter_eq_some_iff.mp hrest).1
    rcases enteredRests_cases h hr hentered with ⟨move, hmove, -, rfl, -⟩ | ⟨jump, hjump, -, rfl⟩ | ⟨-, hold⟩
    · have hmem := List.mem_of_mem_filter hmove
      have hend : narrowTime (move.arrivalTime + 4500) ≤ move.arrivalTime + 4500 :=
        narrowTime_le (by have := h.movesFlying move hmem; have := hdue.clock; omega)
      have harrives := hdue.moves move hmem
      show narrowTime (move.arrivalTime + 4500) ≤ rests
      unfold kLongRestDurationMs at hafter
      omega
    · have hmem := List.mem_of_mem_filter hjump
      have hend : narrowTime (jump.arrivalTime + 2500) ≤ jump.arrivalTime + 2500 :=
        narrowTime_le (by have := h.jumpsFlying jump hmem; have := hdue.clock; omega)
      have harrives := hdue.jumps jump hmem
      show narrowTime (jump.arrivalTime + 2500) ≤ rests
      unfold kLongRestDurationMs at hafter
      omega
    · exact hdue.rests id rest hold

/-- The deadlines of the states of a game: nothing is under way for longer than the longest flight. -/
def Soon (board : BoardModel) (s : GameState) : Prop :=
  DueBy (s.clockMs + longestFlightMs board) (s.clockMs + longestFlightMs board + kLongRestDurationMs) s

theorem soon_step (hsoon : Soon board s) (hon : OnBoard board s) (h : GameInv s) (hr : RestInv s) (hforward : a.Forward)
    (hstep : s.applyAction a = .ok s') : Soon board s' := by
  have hlongest := longestFlightMs_pos board
  cases applyAction_acted h hstep with
  | quiet selected => exact ⟨hsoon.clock, hsoon.moves, hsoon.jumps, hsoon.rests⟩
  | @started _ p source target _ hstart =>
      have hsource := inBounds_of_cellId h.located.rect (h.located.pieceAt_eq_some_iff.mp hstart.piece).1
      have htravel : s.travelTime p source target ≤ longestFlightMs board :=
        travelTime_le h.rules (hon.inBounds_iff.mp hsource) (hon.inBounds_iff.mp hstart.inBounds)
      obtain rfl := hstart.eq_withMove h.located
      refine ⟨hsoon.clock, fun move hmove => ?_, hsoon.jumps, hsoon.rests⟩
      rcases List.mem_append.mp hmove with hold | hnew
      · exact hsoon.moves move hold
      · obtain rfl := List.mem_singleton.mp hnew
        exact Int.add_le_add_left htravel s.clockMs
  | @jumped _ p cell _ _ selected =>
      refine ⟨hsoon.clock, hsoon.moves, fun jump hjump => ?_, hsoon.rests⟩
      rcases List.mem_append.mp hjump with hold | hnew
      · exact hsoon.jumps jump hold
      · obtain rfl := List.mem_singleton.mp hnew
        have hduration : s.rules.jumpDurationMs = kMoveDurationMs := by
          rw [h.rules]
          rfl
        show s.clockMs + s.rules.jumpDurationMs ≤ s.clockMs + longestFlightMs board
        omega
  | settled ms =>
      have hms : 0 ≤ ms := hforward ms rfl
      have hclock : (s.advance ms).clockMs = s.clockMs + ms := rfl
      have hlater : DueBy (s.clockMs + ms + longestFlightMs board)
          (s.clockMs + ms + longestFlightMs board + kLongRestDurationMs) s := by
        apply hsoon.mono <;> omega
      unfold Soon
      rw [hclock]
      exact hlater.advance h hr hms (Int.le_refl _)

theorem soon_of_run (hboard : AcceptedBoard board) {actions : List GameAction} (hforward : ∀ a ∈ actions, a.Forward)
    (hrun : (GameState.new board).runActions actions = .ok s) : Soon board s := by
  have hboth : OnBoard board s ∧ Soon board s := by
    refine (Visits.of_run hrun).induction (P := fun s => OnBoard board s ∧ Soon board s) ⟨.new board, ?_⟩
      fun mid a next htakes h => ?_
    · refine ⟨Int.le_refl 0, ?_, ?_, fun id rest hrest => by cases hrest⟩
      · exact fun move hmove => absurd hmove List.not_mem_nil
      · exact fun jump hjump => absurd hjump List.not_mem_nil
    · obtain ⟨hon, hsoon⟩ := h
      have hreach := htakes.visits.1.reachable hboard
      have hmem : a ∈ actions := by
        obtain ⟨before, after, rfl, -⟩ := htakes
        exact List.mem_append_right _ List.mem_cons_self
      exact ⟨hon.step hreach.inv hreach.restInv htakes.applies,
        soon_step hsoon hon hreach.inv hreach.restInv (hforward a hmem) htakes.applies⟩
  exact hboth.2

/-- A run of ticks keeps the deadlines, and its clock tells how long it was. -/
theorem ticks_dueBy (hdue : DueBy arrivals rests s) (hreach : Reachable s) (hsteps : ∀ ms ∈ steps, 0 ≤ ms)
    (hafter : arrivals + kLongRestDurationMs ≤ rests) :
    ∃ t, s.runActions (ticks steps) = .ok t ∧ Reachable t ∧ DueBy arrivals rests t ∧ t.clockMs = s.clockMs + steps.sum := by
  induction steps generalizing s with
  | nil => exact ⟨s, rfl, hreach, hdue, (Int.add_zero _).symm⟩
  | cons ms steps ih =>
      obtain ⟨hms, hrest⟩ := List.forall_mem_cons.mp hsteps
      have hstep : s.applyAction (.advanceClock ms) = .ok (s.advance ms) := addClock_eq hreach.inv ms
      obtain ⟨t, hrun, hreached, hdue, hclock⟩ := @ih (s.advance ms) (hdue.advance hreach.inv hreach.restInv hms hafter)
        (hreach.runActions ((runActions_singleton s _).trans hstep)) hrest
      refine ⟨t, ?_, hreached, hdue, ?_⟩
      · rw [ticks, List.map_cons, runActions_cons, hstep, ok_bind]
        exact hrun
      · rw [hclock, List.sum_cons]
        exact Int.add_assoc _ _ _

/-! ### After the deadlines -/

theorem nothing_flies (hdue : DueBy arrivals rests s) (h : GameInv s) (hpast : arrivals ≤ s.clockMs) :
    s.pendingMoves = [] ∧ s.activeJumps = [] := by
  constructor
  · apply List.eq_nil_iff_forall_not_mem.mpr
    intro move hmove
    have := hdue.moves move hmove
    have := h.movesFlying move hmove
    omega
  · apply List.eq_nil_iff_forall_not_mem.mpr
    intro jump hjump
    have := hdue.jumps jump hjump
    have := h.jumpsFlying jump hjump
    omega

theorem nothing_rests (hdue : DueBy arrivals rests s) (hr : RestInv s) (hpast : rests ≤ s.clockMs) (id : Nat) :
    s.activeRests.find? id = none := by
  cases hrest : s.activeRests.find? id with
  | none => rfl
  | some rest =>
      have := hdue.rests id rest hrest
      have := hr.running id rest hrest
      omega

/-- With nothing in the air, every piece that has not been taken stands on its cell. -/
theorem all_stand (h : GameInv s) (hmoves : s.pendingMoves = []) (hjumps : s.activeJumps = []) {id : Nat} {p : Piece}
    (hp : s.board.findPieceById id = some p) :
    p.state = .captured ∨ ∃ row col, s.board.pieceAt row col = some p := by
  cases hstate : p.state with
  | captured => exact .inl rfl
  | moving =>
      have hflying := (h.located.moving id p hp).mp hstate
      rw [hmoves, hjumps] at hflying
      exact absurd hflying List.not_mem_nil
  | idle =>
      obtain ⟨row, col, hcell⟩ := h.located.idle id p hp hstate
      obtain rfl := h.located.idsInPlace id p hp
      exact .inr ⟨row, col, h.located.pieceAt_eq_some_iff.mpr ⟨hcell, hp⟩⟩

/-- When nothing is in the air and nothing rests, what can be selected is what stands on the board. -/
theorem selectable_of_still (h : GameInv s) (hmoves : s.pendingMoves = []) (hjumps : s.activeJumps = [])
    (hnone : ∀ id, s.activeRests.find? id = none) (row col : Nat) :
    s.isSelectablePiece row col = .ok (s.board.pieceAt row col).isSome := by
  have hmoving : s.isPieceMoving row col = false := by
    rw [isPieceMoving_eq_false_iff h, hmoves]
    exact fun move hmove => absurd hmove List.not_mem_nil
  have hjumping : s.isPieceJumping row col = false := by
    rw [isPieceJumping_eq_false_iff h, hjumps]
    exact fun jump hjump => absurd hjump List.not_mem_nil
  rw [isSelectablePiece_eq h.located, hmoving, hjumping]
  cases hp : s.board.pieceAt row col with
  | none => rfl
  | some p =>
      have hresting : s.isPieceResting row col = false := by
        rw [← Bool.not_eq_true, isPieceResting_eq_true_iff hp]
        intro hrest
        obtain ⟨rest, hrest, -⟩ := hrest
        cases (hnone p.id).symm.trans hrest
      rw [hresting]
      rfl

end DueBy

/-- Whatever has been played, when nothing more is asked for, all flights are over after the time of the longest: every
piece that has not been taken stands on the board, and all that time still does is to end the rests. After the time of a
long rest more, each of these pieces can be selected. -/
theorem games_come_to_rest {actions : List GameAction} (hboard : AcceptedBoard board) (hforward : ∀ a ∈ actions, a.Forward)
    (hrun : (GameState.new board).runActions actions = .ok s) (hsteps : ∀ ms ∈ steps, 0 ≤ ms)
    (hlong : longestFlightMs board ≤ steps.sum) :
    ∃ t, s.runActions (ticks steps) = .ok t ∧ t.pendingMoves = [] ∧ t.activeJumps = [] ∧
      (∀ id p, t.board.findPieceById id = some p → p.state = .captured ∨ ∃ row col, t.board.pieceAt row col = some p) ∧
      (∀ more, (∀ ms ∈ more, 0 ≤ ms) → t.runActions (ticks more) =
        .ok (t.retimed (t.clockMs + more.sum) (expireRests (t.clockMs + more.sum) t.activeRests))) ∧
      (longestFlightMs board + kLongRestDurationMs ≤ steps.sum →
        ∀ row col, t.isSelectablePiece row col = .ok (t.board.pieceAt row col).isSome) := by
  have hsoon := DueBy.soon_of_run hboard hforward hrun
  have hreach : Reachable s := ⟨board, hboard, actions, hrun⟩
  obtain ⟨t, hticks, hreached, hdue, hclock⟩ := DueBy.ticks_dueBy hsoon hreach hsteps (Int.le_refl _)
  obtain ⟨hmoves, hjumps⟩ := hdue.nothing_flies hreached.inv (by omega)
  refine ⟨t, hticks, hmoves, hjumps, fun id p hp => DueBy.all_stand hreached.inv hmoves hjumps hp, fun more hmore => ?_,
    fun hrested row col => ?_⟩
  · obtain ⟨rests, hmoreRun, hsame⟩ := runActions_idle hmore (s := t) (by simp [hmoves]) (by simp [hjumps])
    -- a state that is reached holds no rest that is over
    have hleft : expireRests (t.clockMs + more.sum) rests = rests := (hreached.runActions hmoreRun).restInv.expireRests
    rw [hmoreRun, ← hsame, hleft]
  · exact DueBy.selectable_of_still hreached.inv hmoves hjumps (hdue.nothing_rests hreached.restInv (by omega)) row col

end Games

/-- The rook flies to the next cell and the king jumps; after five and a half seconds both can be selected again. -/
theorem games_come_to_rest_duel :
    ∃ s t, (GameState.new duelBoard).runActions [.jumpAt 0 1, .advanceClock 500, .select 0 0, .moveSelected 1 0] = .ok s ∧
      s.pendingMoves.length = 1 ∧ s.activeJumps.length = 1 ∧ s.runActions (ticks [3000, 2500]) = .ok t ∧
      t.pendingMoves = [] ∧ t.activeJumps = [] ∧ t.isSelectablePiece 1 0 = .ok (t.board.pieceAt 1 0).isSome := by
  have hforward : ∀ a ∈ [GameAction.jumpAt 0 1, .advanceClock 500, .select 0 0, .moveSelected 1 0], a.Forward := by
    simp [GameAction.Forward]
  have hsteps : ∀ ms ∈ [(3000 : Int), 2500], 0 ≤ ms := by decide
  obtain ⟨t, hticks, hmoves, hjumps, -, -, hselectable⟩ := games_come_to_rest duelBoard_accepted hforward rfl hsteps
    (by decide)
  exact ⟨_, t, rfl, rfl, rfl, hticks, hmoves, hjumps, hselectable (by decide) 1 0⟩

end KungFuChess
