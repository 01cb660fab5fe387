import KungFuChess.Proof.Flights

/-!
# Interceptions

A piece arrives on a cell whose jumper, an enemy, is still up. If a tick ends between the arrival and the end of the
jump, the jumper takes the piece by name. If one tick passes both, the piece lands first, and loses its cell to the
jumper that comes back: captured too, but nobody looks whether it was a king. And a pawn that captures does not get
that far, since the cell it goes to is empty while the jumper is up.
-/

namespace KungFuChess

open Loops BoardModel

/-- A tick of the run ends between two times, counted from its start. -/
def StopsBetween (steps : List Int) (first last : Int) : Prop :=
  ∃ before, before <+: steps ∧ first ≤ before.sum ∧ before.sum ≤ last

section Runs

variable {s : GameState} {move : PendingMove} {jump : JumpState} {steps : List Int} {ms : Int}

/-- The first tick that reaches a time tells whether any ends in time. -/
theorem stopsBetween_iff {before after : List Int} {first last : Int} (hpos : 0 < first)
    (hsteps : ∀ step ∈ before ++ ms :: after, 0 ≤ step) (hbefore : before = [] ∨ before.sum < first)
    (hms : first ≤ before.sum + ms) : StopsBetween (before ++ ms :: after) first last ↔ before.sum + ms ≤ last := by
  have hsplit : before ++ ms :: after = (before ++ [ms]) ++ after := by simp
  have hsum : (before ++ [ms]).sum = before.sum + ms := by simp
  constructor
  · intro h
    obtain ⟨stop, hprefix, hfirst, hlast⟩ := h
    have hreached : (before ++ [ms]) <+: stop := by
      rcases List.prefix_or_prefix_of_prefix hprefix (hsplit ▸ List.prefix_append (before ++ [ms]) after) with hle | hle
      · rcases List.prefix_concat_iff.mp hle with rfl | hshort
        · exact List.prefix_refl _
        · obtain ⟨rest, rfl⟩ := hshort
          have hrest : 0 ≤ rest.sum := sum_nonneg fun step hstep => hsteps step (by simp [hstep])
          rw [List.sum_append] at hbefore
          have hnone : stop = [] → stop.sum = 0 := fun heq => by rw [heq]; rfl
          rcases hbefore with hnil | hbefore
          · have := hnone (List.append_eq_nil_iff.mp hnil).1
            omega
          · omega
      · exact hle
    obtain ⟨rest, rfl⟩ := hreached
    have hrest : 0 ≤ rest.sum := by
      refine sum_nonneg fun step hstep => hsteps step ?_
      obtain ⟨tail, htail⟩ := hprefix
      rw [← htail]
      simp [hstep]
    rw [List.sum_append, hsum] at hlast
    omega
  · intro hlast
    exact ⟨before ++ [ms], hsplit ▸ List.prefix_append _ _, by rw [hsum]; exact hms, by rw [hsum]; exact hlast⟩

theorem GameInv.retimed (h : GameInv s) {clockMs : Int} (rests : RestMap)
    (hmoves : ∀ move ∈ s.pendingMoves, clockMs < move.arrivalTime)
    (hjumps : ∀ jump ∈ s.activeJumps, clockMs < jump.arrivalTime) : GameInv (s.retimed clockMs rests) :=
  ⟨h.rules, h.located, h.ends, hmoves, hjumps⟩

/-- The last jump comes down. -/
theorem runActions_jump (h : GameInv s) (hmoves : s.pendingMoves = []) (hjumps : s.activeJumps = [jump])
    (hsteps : ∀ step ∈ steps, 0 ≤ step) (hpast : jump.arrivalTime ≤ s.clockMs + steps.sum) :
    ∃ final, s.runActions (ticks steps) = .ok final ∧ final.board = putBack s.board jump.flight ∧
      final.gameOver = s.gameOver := by
  have hup : s.clockMs < jump.arrivalTime := h.jumpsFlying jump (by rw [hjumps]; exact List.mem_cons_self)
  have hne : steps ≠ [] := by
    intro h
    obtain rfl := h
    simp only [List.sum_nil] at hpast
    omega
  obtain ⟨before, ms, after, rests, rfl, hbefore, hms, hrun⟩ := runActions_crossing (s := s)
    (d := jump.arrivalTime - s.clockMs) hne hsteps (by omega) (by rw [hmoves]; rintro move ⟨⟩) (by
      rw [hjumps]
      intro other hother
      rw [List.mem_singleton.mp hother]
      omega)
  have hearly : s.clockMs + before.sum < jump.arrivalTime := by
    rcases hbefore with rfl | hbefore
    · simpa using hup
    · omega
  have hinv : GameInv (s.retimed (s.clockMs + before.sum) rests) := h.retimed rests (by rw [hmoves]; rintro move ⟨⟩) (by
    rw [hjumps]
    intro other hother
    rw [List.mem_singleton.mp hother]
    exact hearly)
  have hdown : jump.isDue (s.clockMs + before.sum + ms) = true := by
    simp only [JumpState.isDue, Bool.not_eq_true', decide_eq_false_iff_not]
    omega
  obtain ⟨hnone, hkept⟩ := dueMoves_eq_nil ((s.retimed (s.clockMs + before.sum) rests).advancedArbiter ms) (by
    show ∀ move ∈ s.pendingMoves, _
    rw [hmoves]
    intro move h
    cases h)
  obtain ⟨hstart, hflights, hpending⟩ := settle_eq_of_idle s.rules s.board s.gameOver hnone
  have hended : endedJumps ((s.retimed (s.clockMs + before.sum) rests).advancedArbiter ms) = [jump] := by
    show s.activeJumps.filter (JumpState.isDue (s.clockMs + before.sum + ms)) = [jump]
    rw [hjumps, List.filter_cons_of_pos hdown, List.filter_nil]
  have hflying : flyingJumps ((s.retimed (s.clockMs + before.sum) rests).advancedArbiter ms) = [] := by
    show (s.activeJumps.filter fun jump => !jump.isDue (s.clockMs + before.sum + ms)) = []
    rw [hjumps, List.filter_cons_of_neg (by simp [hdown]), List.filter_nil]
  rw [addClock_eq hinv, ok_bind] at hrun
  obtain ⟨later, expired, hquiet⟩ := runActions_quiet
    (s := (s.retimed (s.clockMs + before.sum) rests).advance ms)
    (fun step hstep => hsteps step (List.mem_append_right _ (List.mem_cons_of_mem _ hstep)))
    (hpending.trans (hkept.trans hmoves)) hflying
  refine ⟨_, hrun.trans hquiet, ?_, ?_⟩
  · show (endedFlights _ _ _ _).foldl putBack (settleDue _ _ _ _).board = _
    rw [GameState.retimed_rules, GameState.retimed_board, GameState.retimed_gameOver, hflights, hended, hstart]
    rfl
  · show (settleDue _ _ _ _).gameOver = _
    rw [GameState.retimed_rules, GameState.retimed_board, GameState.retimed_gameOver, hstart]
    rfl

/-- The settlement of the only move in the air, under the only jumper. -/
def arrival (s : GameState) (clockMs : Int) (move : PendingMove) (jump : JumpState) (rests : RestMap) : Settling :=
  settleMove s.rules clockMs [jump] ⟨s.board, rests, s.gameOver, false⟩ move

/-- The tick of the arrival, in which the jump may end too. -/
theorem advance_pair (hmoves : s.pendingMoves = [move]) (hjumps : s.activeJumps = [jump])
    (hdue : move.arrivalTime ≤ s.clockMs + ms) :
    (s.advance ms).pendingMoves = [] ∧
      (s.advance ms).activeJumps = (if jump.arrivalTime ≤ s.clockMs + ms then [] else [jump]) ∧
      (s.advance ms).gameOver = (arrival s (s.clockMs + ms) move jump s.activeRests).gameOver ∧
      (s.advance ms).board =
        if jump.arrivalTime ≤ s.clockMs + ms then
          putBack (arrival s (s.clockMs + ms) move jump s.activeRests).board jump.flight
        else (arrival s (s.clockMs + ms) move jump s.activeRests).board := by
  have hmove : move.isDue (s.clockMs + ms) = true := by
    simp only [PendingMove.isDue, Bool.not_eq_true', decide_eq_false_iff_not]
    omega
  have hdues : dueMoves (s.advancedArbiter ms) = [move] := by
    show s.pendingMoves.filter (PendingMove.isDue (s.clockMs + ms)) = [move]
    rw [hmoves, List.filter_cons_of_pos hmove, List.filter_nil]
  have hflying : flyingMoves (s.advancedArbiter ms) = [] := by
    show (s.pendingMoves.filter fun move => !move.isDue (s.clockMs + ms)) = []
    rw [hmoves, List.filter_cons_of_neg (by simp [hmove]), List.filter_nil]
  have hsettled : settleDue s.rules (s.advancedArbiter ms) s.board s.gameOver =
      arrival s (s.clockMs + ms) move jump s.activeRests := by
    show (dueMoves (s.advancedArbiter ms)).foldl (settleMove s.rules (s.clockMs + ms) s.activeJumps)
      ⟨s.board, s.activeRests, s.gameOver, false⟩ = _
    rw [hdues, hjumps]
    rfl
  have hnone : ∀ x, cancelledMoves x [] = [] ∧ keptMoves x [] = [] := by
    intro x
    simp [cancelledMoves, keptMoves]
  have hdown : jump.isDue (s.clockMs + ms) = true ↔ jump.arrivalTime ≤ s.clockMs + ms := by
    simp only [JumpState.isDue, Bool.not_eq_true', decide_eq_false_iff_not, Int.not_lt]
  have hended : endedJumps (s.advancedArbiter ms) = if jump.arrivalTime ≤ s.clockMs + ms then [jump] else [] := by
    show s.activeJumps.filter (JumpState.isDue (s.clockMs + ms)) = _
    rw [hjumps, List.filter_singleton]
    simp only [← hdown]
    cases jump.isDue (s.clockMs + ms) <;> rfl
  have hup : flyingJumps (s.advancedArbiter ms) = if jump.arrivalTime ≤ s.clockMs + ms then [] else [jump] := by
    show (s.activeJumps.filter fun jump => !jump.isDue (s.clockMs + ms)) = _
    rw [hjumps, List.filter_singleton]
    simp only [← hdown]
    cases jump.isDue (s.clockMs + ms) <;> rfl
  refine ⟨?_, hup, congrArg Settling.gameOver hsettled, ?_⟩
  · show keptMoves (settleDue _ _ _ _) (flyingMoves _) = []
    rw [hflying]
    exact (hnone _).2
  · show (endedFlights _ _ _ _).foldl putBack (settleDue _ _ _ _).board = _
    rw [endedFlights, hflying, (hnone _).1, hended, hsettled]
    split <;> rfl

/-- A run past both times: the move is settled by the clock of the first tick that reaches its arrival, and the jumper
comes down after it. -/
theorem runActions_pair (h : GameInv s) (hmoves : s.pendingMoves = [move]) (hjumps : s.activeJumps = [jump])
    (hle : move.arrivalTime ≤ jump.arrivalTime) (hsteps : ∀ step ∈ steps, 0 ≤ step)
    (hpast : jump.arrivalTime ≤ s.clockMs + steps.sum) :
    ∃ clockMs rests final, s.runActions (ticks steps) = .ok final ∧
      (clockMs ≤ jump.arrivalTime ↔
        StopsBetween steps (move.arrivalTime - s.clockMs) (jump.arrivalTime - s.clockMs)) ∧
      final.board = putBack (arrival s clockMs move jump rests).board jump.flight ∧
      final.gameOver = (arrival s clockMs move jump rests).gameOver := by
  have hup : s.clockMs < move.arrivalTime := h.movesFlying move (by rw [hmoves]; exact List.mem_cons_self)
  have hne : steps ≠ [] := by
    intro h
    obtain rfl := h
    simp only [List.sum_nil] at hpast
    omega
  have hmove : ∀ other ∈ s.pendingMoves, other = move := by
    rw [hmoves]
    exact fun other hother => List.mem_singleton.mp hother
  have hjump : ∀ other ∈ s.activeJumps, other = jump := by
    rw [hjumps]
    exact fun other hother => List.mem_singleton.mp hother
  obtain ⟨before, ms, after, rests, rfl, hbefore, hms, hrun⟩ := runActions_crossing (s := s)
    (d := move.arrivalTime - s.clockMs) hne hsteps (by omega)
    (fun other hother => by rw [hmove other hother]; omega) (fun other hother => by rw [hjump other hother]; omega)
  have hstops : StopsBetween _ _ (jump.arrivalTime - s.clockMs) ↔ _ := stopsBetween_iff (by omega) hsteps hbefore hms
  have hearly : s.clockMs + before.sum < move.arrivalTime := by
    rcases hbefore with rfl | hbefore
    · simpa using hup
    · omega
  have hinv : GameInv (s.retimed (s.clockMs + before.sum) rests) := h.retimed rests
    (fun other hother => by rw [hmove other hother]; exact hearly)
    (fun other hother => by rw [hjump other hother]; omega)
  have hafter : ∀ step ∈ after, 0 ≤ step :=
    fun step hstep => hsteps step (List.mem_append_right _ (List.mem_cons_of_mem _ hstep))
  have hdue : move.arrivalTime ≤ (s.retimed (s.clockMs + before.sum) rests).clockMs + ms := by
    rw [GameState.retimed_clockMs]
    omega
  obtain ⟨hpending, hjumping, hgameOver, hboard⟩ :=
    advance_pair (s := s.retimed (s.clockMs + before.sum) rests) hmoves hjumps hdue
  rw [addClock_eq hinv, ok_bind] at hrun
  refine ⟨s.clockMs + before.sum + ms, rests, ?_⟩
  by_cases hdown : jump.arrivalTime ≤ (s.retimed (s.clockMs + before.sum) rests).clockMs + ms
  · rw [if_pos hdown] at hjumping hboard
    rw [GameState.retimed_clockMs] at hdown
    obtain ⟨later, expired, hquiet⟩ := runActions_quiet hafter hpending hjumping
    exact ⟨_, hrun.trans hquiet, by rw [hstops]; omega, hboard, hgameOver⟩
  · rw [if_neg hdown] at hjumping hboard
    rw [GameState.retimed_clockMs] at hdown
    obtain ⟨final, hlast, hback, hover⟩ := runActions_jump (hinv.advance ms) hpending hjumping hafter (by
      show jump.arrivalTime ≤ s.clockMs + before.sum + ms + after.sum
      rw [List.sum_append, List.sum_cons] at hpast
      omega)
    exact ⟨final, hrun.trans hlast, by rw [hstops]; omega, by rw [hback, hboard]; rfl, hover.trans hgameOver⟩

end Runs

/-! ### Who is left -/

/-- The jumper has taken the piece that arrived. -/
structure JumpWins (move : PendingMove) (jump : JumpState) (final : GameState) : Prop where
  taken : ∃ p, final.board.findPieceById move.pieceId = some p ∧ p.state = .captured
  back : ∃ q, final.board.pieceAt jump.cell.1 jump.cell.2 = some q ∧ q.id = jump.pieceId ∧ q.state = .idle
  gameOver : move.kind = .king → final.gameOver = true

section Outcome

variable {s : GameState} {b : BoardModel} {move : PendingMove} {jump : JumpState} {p : Piece} {clockMs : Int}
  {rests : RestMap}

/-- On a cell with a friend of the jumper only a pawn may be wrong. -/
theorem targetFree_iff (h : Located b [move.flight, jump.flight]) (hunder : Under b jump)
    (hcell : jump.cell = move.endPos) (hcolor : jump.color ≠ move.color) :
    TargetFree b move.kind move.color (pointOf move.startPos) (pointOf move.endPos) ↔
      (move.kind = .pawn → (move.endPos.2 = move.startPos.2 ↔ b.cellId move.endPos.1 move.endPos.2 = none)) := by
  have hcol : (pointOf move.endPos).2 = (pointOf move.startPos).2 ↔ move.endPos.2 = move.startPos.2 := by
    simp only [pointOf, toInt, Int.natCast_inj]
  rw [TargetFree, OpponentOn, pieceOn_pointOf, ← h.valid.pieceAt_eq_none_iff, ne_eq, hcol]
  cases hr : b.pieceAt move.endPos.1 move.endPos.2 with
  | none => simp
  | some r =>
      have henemy : r.color ≠ move.color := by
        rw [hunder r (hcell ▸ hr)]
        exact hcolor
      simp [henemy]

/-- The jumper takes the piece that stands on its cell. -/
theorem findPieceById_putBack_under (h : Located b [jump.flight]) {id : Nat} (hid : id ≠ jump.pieceId) {r : Piece}
    (hr : b.pieceAt jump.cell.1 jump.cell.2 = some r) (hunder : id = r.id) :
    (putBack b jump.flight).findPieceById id = some { r with state := .captured } := by
  obtain ⟨q, hq, -⟩ := h.findPieceById_flight
  have hother : id ≠ jump.flight.id := hid
  have hcell : jump.flight.origin = jump.cell := rfl
  rw [findPieceById_putBack h hq, if_neg hother, hcell, hr]
  exact if_pos hunder

/-- The jumper leaves alone what is not on its cell. -/
theorem findPieceById_putBack_missed (h : Located b [jump.flight]) {id : Nat} (hid : id ≠ jump.pieceId)
    (hmissed : ∀ r, b.pieceAt jump.cell.1 jump.cell.2 = some r → id ≠ r.id) :
    (putBack b jump.flight).findPieceById id = b.findPieceById id := by
  obtain ⟨q, hq, -⟩ := h.findPieceById_flight
  have hother : id ≠ jump.flight.id := hid
  have hcell : jump.flight.origin = jump.cell := rfl
  rw [findPieceById_putBack h hq, if_neg hother, hcell]
  cases hr : b.pieceAt jump.cell.1 jump.cell.2 with
  | none => rfl
  | some r => exact if_neg (hmissed r hr)

/-- The three ways in which a piece arrives under an enemy jumper. -/
theorem arrival_cases (hp : s.board.findPieceById move.pieceId = some p) (hcell : jump.cell = move.endPos)
    (hcolor : jump.color ≠ p.color) :
    (playable s.board move = false ∧
      (arrival s clockMs move jump rests).board =
        s.board.land { p with state := .idle } move.startPos.1 move.startPos.2 ∧
      (arrival s clockMs move jump rests).gameOver = s.gameOver) ∨
    (playable s.board move = true ∧ clockMs ≤ jump.arrivalTime ∧
      (arrival s clockMs move jump rests).board = s.board.setPiece { p with state := .captured } ∧
      (arrival s clockMs move jump rests).gameOver = (s.gameOver || s.rules.isGameOver p)) ∨
    (playable s.board move = true ∧ ¬clockMs ≤ jump.arrivalTime ∧
      (arrival s clockMs move jump rests).board =
        s.board.land (s.rules.landing p move.endPos.1 s.board.rows) move.endPos.1 move.endPos.2 ∧
      (arrival s clockMs move jump rests).gameOver =
        (s.gameOver || (s.board.pieceAt move.endPos.1 move.endPos.2).any s.rules.isGameOver)) := by
  have hjump : capturingJump clockMs [jump] move.endPos p.color =
      if clockMs ≤ jump.arrivalTime then some jump else none := by
    have hother : p.color ≠ jump.color := Ne.symm hcolor
    rw [capturingJump, List.find?_singleton]
    by_cases hup : clockMs ≤ jump.arrivalTime <;> simp [hup, hcell, hother]
  unfold arrival settleMove dueEvent
  rw [pieceOf_eq hp]
  dsimp only
  rw [hjump]
  cases playable s.board move with
  | false => exact .inl ⟨rfl, rfl, rfl⟩
  | true =>
      by_cases hup : clockMs ≤ jump.arrivalTime
      · rw [if_pos hup]
        exact .inr (.inl ⟨rfl, hup, rfl, rfl⟩)
      · rw [if_neg hup]
        exact .inr (.inr ⟨rfl, hup, rfl, rfl⟩)

/-- The jumper that comes down takes the piece that arrives, however it arrives, and no piece that does not. -/
theorem taken_iff_playable (h : Located s.board [move.flight, jump.flight]) (hrules : s.rules.KeepsPieces)
    (hend : s.board.InBounds move.endPos.1 move.endPos.2) (hapart : move.startPos ≠ move.endPos)
    (hcell : jump.cell = move.endPos) (hcolor : jump.color ≠ move.color) :
    (∃ q, (putBack (arrival s clockMs move jump rests).board jump.flight).findPieceById move.pieceId = some q ∧
      q.state = .captured) ↔ playable s.board move = true := by
  obtain ⟨p, hp, hid, hpcolor, -⟩ := h.findPieceById_flight
  have hmine : move.pieceId = p.id := hid.symm
  change s.board.findPieceById move.pieceId = some p at hp
  have harrived : Located (arrival s clockMs move jump rests).board [jump.flight] :=
    (dueEvent_fits clockMs [jump] h hend).located hrules h
  have hids : move.pieceId ≠ jump.pieceId := by
    intro heq
    exact (List.nodup_cons.mp h.idsNodup).1 (by simp [JumpState.flight, PendingMove.flight, heq])
  -- nothing has come to the jumper's cell
  have hmissed : (arrival s clockMs move jump rests).board.pieceAt jump.cell.1 jump.cell.2 =
        s.board.pieceAt jump.cell.1 jump.cell.2 →
      (putBack (arrival s clockMs move jump rests).board jump.flight).findPieceById move.pieceId =
        (arrival s clockMs move jump rests).board.findPieceById move.pieceId := by
    intro hunder
    refine findPieceById_putBack_missed harrived hids fun r hr => ?_
    exact h.ne_of_pieceAt List.mem_cons_self (hunder.symm.trans hr)
  obtain ⟨hno, hland, -⟩ | ⟨hyes, -, hland, -⟩ | ⟨hyes, -, hland, -⟩ :=
    @arrival_cases _ _ _ _ clockMs rests hp hcell (by rw [hpcolor]; exact hcolor)
  · -- the piece comes back to its start, so the jumper does not meet it
    have hstart : s.board.InBounds move.startPos.1 move.startPos.2 := h.originsIn _ List.mem_cons_self
    have hfound : (s.board.land { p with state := .idle } move.startPos.1 move.startPos.2).findPieceById move.pieceId = _ :=
      h.findPieceById_land (p := { p with state := .idle }) hid move.pieceId
    rw [if_pos hmine, ← hland] at hfound
    have hunder : (arrival s clockMs move jump rests).board.pieceAt jump.cell.1 jump.cell.2 =
        s.board.pieceAt jump.cell.1 jump.cell.2 := by
      rw [hland, h.pieceAt_land (p := { p with state := .idle }) hid rfl hstart, if_neg]
      exact fun hsame => hapart ((Prod.ext hsame.1 hsame.2).symm.trans hcell)
    refine iff_of_false ?_ (by rw [hno]; exact Bool.false_ne_true)
    intro h
    obtain ⟨q, hq, hstate⟩ := h
    rw [hmissed hunder, hfound] at hq
    cases hq
    cases hstate
  · -- the jumper takes it by name
    have hfound := findPieceById_setPiece (p := { p with state := .captured })
      (show s.board.findPieceById p.id = some p by rw [← hmine]; exact hp) move.pieceId
    rw [if_pos hmine, ← hland] at hfound
    have hunder : (arrival s clockMs move jump rests).board.pieceAt jump.cell.1 jump.cell.2 =
        s.board.pieceAt jump.cell.1 jump.cell.2 := by
      rw [hland, h.pieceAt_fall hp]
    exact iff_of_true ⟨_, (hmissed hunder).trans hfound, rfl⟩ hyes
  · -- it lands, and loses the cell to the jumper that comes back
    have hplaced := (s.rules.landing_id hrules p move.endPos.1 s.board.rows).trans hid
    have hunder : (arrival s clockMs move jump rests).board.pieceAt jump.cell.1 jump.cell.2 = some
        { s.rules.landing p move.endPos.1 s.board.rows with cell := positionOf move.endPos.1 move.endPos.2 } := by
      rw [hland, hcell, h.pieceAt_land hplaced rfl hend, if_pos ⟨rfl, rfl⟩]
    exact iff_of_true ⟨_, findPieceById_putBack_under harrived hids hunder hplaced.symm, rfl⟩ hyes

/-- The jumper ends the game by taking the piece in time; one that has landed ends it by what it takes itself. -/
theorem gameOver_arrival (hp : s.board.findPieceById move.pieceId = some p) (hcell : jump.cell = move.endPos)
    (hcolor : jump.color ≠ p.color) (hplay : playable s.board move = true) :
    (arrival s clockMs move jump rests).gameOver = (s.gameOver ||
      if clockMs ≤ jump.arrivalTime then s.rules.isGameOver p
      else (s.board.pieceAt move.endPos.1 move.endPos.2).any s.rules.isGameOver) := by
  obtain ⟨hno, -⟩ | ⟨-, hup, -, hgame⟩ | ⟨-, hdown, -, hgame⟩ := @arrival_cases _ _ _ _ clockMs rests hp hcell hcolor
  · rw [hplay] at hno
    cases hno
  · rw [hgame, if_pos hup]
  · rw [hgame, if_neg hdown]

/-- What the jumper's return makes of each of them. -/
theorem jumpWins_iff (h : GameInv s) (hf : FlightInv s) (hmoves : s.pendingMoves = [move])
    (hjumps : s.activeJumps = [jump]) (hcell : jump.cell = move.endPos) (hcolor : jump.color ≠ move.color)
    (hpath : s.board.ClearBetween (pointOf move.startPos) (pointOf move.endPos)) {final : GameState}
    (hboard : final.board = putBack (arrival s clockMs move jump rests).board jump.flight)
    (hover : final.gameOver = (arrival s clockMs move jump rests).gameOver) :
    JumpWins move jump final ↔
      (move.kind = .pawn → (move.endPos.2 = move.startPos.2 ↔ s.board.cellId move.endPos.1 move.endPos.2 = none)) ∧
        (move.kind = .king → s.gameOver = true ∨ clockMs ≤ jump.arrivalTime ∨
          ∃ r, s.board.pieceAt move.endPos.1 move.endPos.2 = some r ∧ r.kind = .king) := by
  have hmove : move ∈ s.pendingMoves := by rw [hmoves]; exact List.mem_singleton_self move
  have hjump : jump ∈ s.activeJumps := by rw [hjumps]; exact List.mem_singleton_self jump
  have hlocated : Located s.board [move.flight, jump.flight] := by
    have hboth := h.located
    rwa [hmoves, hjumps] at hboth
  have hend := h.ends move hmove
  have hapart := hf.apart move hmove
  have hrules : s.rules.KeepsPieces := h.rules ▸ GameRules.standard_keepsPieces
  have hking : ∀ q : Piece, s.rules.isGameOver q = true ↔ q.kind = .king := by
    intro q
    rw [h.rules]
    exact beq_iff_eq
  have hwins : JumpWins move jump final ↔
      (∃ q, (putBack (arrival s clockMs move jump rests).board jump.flight).findPieceById move.pieceId = some q ∧
        q.state = .captured) ∧ (move.kind = .king → (arrival s clockMs move jump rests).gameOver = true) := by
    constructor
    · intro h
      obtain ⟨htaken, -, hgameOver⟩ := h
      exact ⟨hboard ▸ htaken, hover ▸ hgameOver⟩
    · intro h
      obtain ⟨htaken, hgameOver⟩ := h
      have harrived := (dueEvent_fits clockMs [jump] hlocated hend).located hrules hlocated
      obtain ⟨q, hq, hqid, -, hstate⟩ := pieceAt_putBack harrived
      exact ⟨hboard ▸ htaken, hboard ▸ ⟨q, hq, hqid, hstate⟩, hover ▸ hgameOver⟩
  have hplay := playable_iff hlocated List.mem_cons_self (hf.shaped move hmove) hapart hend
  rw [targetFree_iff hlocated (hf.under jump hjump) hcell hcolor, and_iff_right hpath] at hplay
  rw [hwins, taken_iff_playable hlocated hrules hend hapart hcell hcolor, ← hplay]
  refine and_congr_right fun hyes => imp_congr_right fun hkind => ?_
  obtain ⟨p, hp, -, hpcolor, hpkind, -⟩ := hlocated.findPieceById_flight
  rw [gameOver_arrival hp hcell (by rw [hpcolor]; exact hcolor) hyes, Bool.or_eq_true]
  refine or_congr_right ?_
  by_cases hup : clockMs ≤ jump.arrivalTime
  · rw [if_pos hup, hking, hpkind]
    exact iff_of_true hkind (.inl hup)
  · rw [if_neg hup, Option.any_eq_true, or_iff_right hup]
    simp only [hking]

end Outcome

/-- A jump beats the arrival of an enemy that its rules let arrive, except that a king is lost without the end of the
game if no tick ends between its arrival and the end of the jump. -/
theorem jump_beats_arrival_iff {s : GameState} {move : PendingMove} {jump : JumpState} {steps : List Int}
    (hreach : Reachable s) (hmoves : s.pendingMoves = [move]) (hjumps : s.activeJumps = [jump])
    (hcell : jump.cell = move.endPos) (hcolor : jump.color ≠ move.color) (hle : move.arrivalTime ≤ jump.arrivalTime)
    (hpath : s.board.ClearBetween (pointOf move.startPos) (pointOf move.endPos)) (hsteps : ∀ step ∈ steps, 0 ≤ step)
    (hpast : jump.arrivalTime ≤ s.clockMs + steps.sum) :
    (∃ final, s.runActions (ticks steps) = .ok final ∧ JumpWins move jump final) ↔
      (move.kind = .pawn → (move.endPos.2 = move.startPos.2 ↔ s.board.cellId move.endPos.1 move.endPos.2 = none)) ∧
        (move.kind = .king → s.gameOver = true ∨
          StopsBetween steps (move.arrivalTime - s.clockMs) (jump.arrivalTime - s.clockMs) ∨
          ∃ r, s.board.pieceAt move.endPos.1 move.endPos.2 = some r ∧ r.kind = .king) := by
  obtain ⟨clockMs, rests, final, hrun, hstops, hboard, hover⟩ :=
    runActions_pair hreach.inv hmoves hjumps hle hsteps hpast
  have hwins := jumpWins_iff hreach.inv hreach.flightInv hmoves hjumps hcell hcolor hpath hboard hover
  rw [hstops] at hwins
  rw [← hwins]
  constructor
  · intro h
    obtain ⟨other, hother, hwin⟩ := h
    rw [hrun, Except.ok.injEq] at hother
    exact hother ▸ hwin
  · exact fun hwin => ⟨final, hrun, hwin⟩

/-- The king of the duel walks to the cell of the jumping rook, and a tick ends at its arrival. -/
theorem jump_beats_arrival_iff_duel :
    ∃ s move jump, Reachable s ∧ s.pendingMoves = [move] ∧ s.activeJumps = [jump] ∧ move.kind = .king ∧
      ((∃ final, s.runActions (ticks [1000, 5]) = .ok final ∧ JumpWins move jump final) ↔
        (move.kind = .pawn →
          (move.endPos.2 = move.startPos.2 ↔ s.board.cellId move.endPos.1 move.endPos.2 = none)) ∧
        (move.kind = .king → s.gameOver = true ∨
          StopsBetween [1000, 5] (move.arrivalTime - s.clockMs) (jump.arrivalTime - s.clockMs) ∨
          ∃ r, s.board.pieceAt move.endPos.1 move.endPos.2 = some r ∧ r.kind = .king)) := by
  have hrun : (fun s => (s.pendingMoves, s.activeJumps, s.clockMs)) <$>
      (GameState.new duelBoard).runActions [.jumpAt 0 0, .select 0 1, .moveSelected 0 0] =
        .ok ([⟨2, .black, .king, (0, 1), (0, 0), 0, 1000⟩], [⟨1, .white, .rook, (0, 0), 0, 1000⟩], 0) := by decide
  obtain ⟨s, hs, hshown⟩ := map_eq_ok.mp hrun
  simp only [Prod.mk.injEq] at hshown
  obtain ⟨hmoves, hjumps, hclock⟩ := hshown
  have hpath : s.board.ClearBetween (pointOf (0, 1)) (pointOf (0, 0)) := by
    intro cell hbetween
    have hfar := hbetween.far.2
    simp [pointOf, toInt] at hfar
  exact ⟨s, _, _, ⟨duelBoard, duelBoard_accepted, _, hs⟩, hmoves, hjumps, rfl,
    jump_beats_arrival_iff ⟨duelBoard, duelBoard_accepted, _, hs⟩ hmoves hjumps rfl (by decide) (by decide) hpath
      (by decide) (by rw [hclock]; decide)⟩

/-- If one tick passes both times, the king is lost and the game goes on. -/
theorem jump_loses_king :
    ¬∀ (s : GameState) (move : PendingMove) (jump : JumpState) (steps : List Int), Reachable s →
      s.pendingMoves = [move] → s.activeJumps = [jump] → jump.cell = move.endPos → jump.color ≠ move.color →
      move.arrivalTime ≤ jump.arrivalTime →
      s.board.ClearBetween (pointOf move.startPos) (pointOf move.endPos) → (∀ step ∈ steps, 0 ≤ step) →
      jump.arrivalTime ≤ s.clockMs + steps.sum →
      ∃ final, s.runActions (ticks steps) = .ok final ∧ JumpWins move jump final := by
  intro hwins
  have hrun : (fun s => (s.pendingMoves, s.activeJumps, s.clockMs, GameState.gameOver <$> s.runActions (ticks [1005]))) <$>
      (GameState.new duelBoard).runActions [.jumpAt 0 0, .select 0 1, .moveSelected 0 0] =
        .ok ([⟨2, .black, .king, (0, 1), (0, 0), 0, 1000⟩], [⟨1, .white, .rook, (0, 0), 0, 1000⟩], 0,
          .ok false) := by decide
  obtain ⟨s, hs, hshown⟩ := map_eq_ok.mp hrun
  simp only [Prod.mk.injEq] at hshown
  obtain ⟨hmoves, hjumps, hclock, hover⟩ := hshown
  have hpath : s.board.ClearBetween (pointOf (0, 1)) (pointOf (0, 0)) := by
    intro cell hbetween
    have hfar := hbetween.far.2
    simp [pointOf, toInt] at hfar
  obtain ⟨final, hfinal, hwin⟩ := hwins s _ _ [1005] ⟨duelBoard, duelBoard_accepted, _, hs⟩ hmoves hjumps rfl
    (by decide) (by decide) hpath (by decide) (by rw [hclock]; decide)
  rw [hfinal, map_ok, Except.ok.injEq] at hover
  rw [hwin.gameOver rfl] at hover
  cases hover

end KungFuChess
