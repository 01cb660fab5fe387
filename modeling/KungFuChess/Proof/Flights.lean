import KungFuChess.Proof.Undisturbed

/-!
# Flights

What is known of the moves and the jumps in the air of every game. A move was legal when it was asked for, so its
displacement is one of its piece's; the board has changed since, but its size has not. And a piece that stands on a
cell its jumper has left is the jumper's friend, since an enemy that arrives there is taken.
-/

namespace KungFuChess

open Loops BoardModel GridLines

/-- An enemy of the jumper does not stand on its cell. -/
def Under (b : BoardModel) (jump : JumpState) : Prop :=
  ∀ r, b.pieceAt jump.cell.1 jump.cell.2 = some r → r.color = jump.color

structure FlightInv (s : GameState) : Prop where
  shaped : ∀ move ∈ s.pendingMoves,
    MoveShape s.board.rows move.kind move.color (pointOf move.startPos) (pointOf move.endPos)
  apart : ∀ move ∈ s.pendingMoves, move.startPos ≠ move.endPos
  under : ∀ jump ∈ s.activeJumps, Under s.board jump

/-! ### Under a jumper -/

section Under

variable {b : BoardModel} {flights : List Flight} {f : Flight} {p : Piece} {source : Cell} {jump : JumpState}
  {rules : GameRules} {clockMs : Int} {jumps : List JumpState} {move : PendingMove} {x : Settling}

theorem Located.pieceAt_lift (h : Located b flights) (hp : b.pieceAt source.1 source.2 = some p) (cell : Cell) :
    (b.lift p source.1 source.2).pieceAt cell.1 cell.2 = if cell = source then none else b.pieceAt cell.1 cell.2 := by
  by_cases hsame : cell = source
  · have hrect : (b.lift p source.1 source.2).Rect := rect_setCell _ _ _ _ (rect_setPiece b _ h.rect)
    rw [if_pos hsame, pieceAt_eq hrect, h.cellId_lift hp, if_pos hsame]
    rfl
  · rw [if_neg hsame, (h.sameElsewhere_lift hp).piece cell hsame]

theorem Located.pieceAt_fall (h : Located b (f :: flights)) (hp : b.findPieceById f.id = some p) (row col : Nat) :
    (b.setPiece { p with state := .captured }).pieceAt row col = b.pieceAt row col := by
  have hid := h.idsInPlace f.id p hp
  rw [pieceAt_eq (rect_setPiece b _ h.rect), pieceAt_eq h.rect, cellId_setPiece]
  cases hcell : b.cellId row col with
  | none => rfl
  | some id =>
      have hother : id ≠ p.id := by
        intro h
        obtain rfl := h
        rw [hid] at hcell
        exact h.cellId_ne_flight List.mem_cons_self hcell
      rw [← hid] at hp
      have hset := findPieceById_setPiece (p := { p with state := .captured }) hp id
      rw [if_neg hother] at hset
      exact hset

theorem Located.origin_ne (h : Located b (f :: flights)) (hjump : jump.flight ∈ flights) : jump.cell ≠ f.origin := by
  intro heq
  exact (List.nodup_cons.mp h.originsNodup).1 (heq ▸ List.mem_map_of_mem hjump)

/-- A move that falls due puts no enemy under a jumper that is still up. -/
theorem Under.settleMove (hunder : Under x.board jump) (hrules : rules.KeepsPieces)
    (h : Located x.board (move.flight :: flights)) (hend : x.board.InBounds move.endPos.1 move.endPos.2)
    (hjump : jump ∈ jumps) (hup : clockMs ≤ jump.arrivalTime) (hflight : jump.flight ∈ flights) :
    Under (settleMove rules clockMs jumps x move).board jump := by
  obtain ⟨p, hp, hid, -⟩ := h.findPieceById_flight
  change x.board.findPieceById move.pieceId = some p at hp
  have hne := h.origin_ne hflight
  have hstart : x.board.InBounds move.startPos.1 move.startPos.2 := h.originsIn _ List.mem_cons_self
  intro r hr
  unfold KungFuChess.settleMove dueEvent at hr
  rw [pieceOf_eq hp] at hr
  dsimp only at hr
  split at hr
  · split at hr
    · rw [SettleEvent.boardAfter, h.pieceAt_fall hp] at hr
      exact hunder r hr
    · rename_i hnone
      have hplaced := (rules.landing_id hrules p move.endPos.1 x.board.rows).trans hid
      rw [SettleEvent.boardAfter, h.pieceAt_land hplaced rfl hend] at hr
      split at hr
      · rename_i hcell
        cases hr
        have hall := List.find?_eq_none.mp hnone jump hjump
        have hcell' : jump.cell = move.endPos := Prod.ext hcell.1 hcell.2
        simp only [hup, hcell', decide_true, beq_self_eq_true, Bool.true_and, bne_iff_ne, ne_eq, not_not] at hall
        exact ((hrules p move.endPos.1 x.board.rows).2).trans hall
      · exact hunder r hr
  · rw [SettleEvent.boardAfter, h.pieceAt_land (p := { p with state := .idle }) hid rfl hstart, if_neg] at hr
    · exact hunder r hr
    · exact fun hsame => hne (Prod.ext hsame.1 hsame.2)

theorem Under.foldl_settleMove (hrules : rules.KeepsPieces) (moves : List PendingMove) (x : Settling)
    (hunder : Under x.board jump) (h : Located x.board (moves.map PendingMove.flight ++ flights))
    (hends : ∀ move ∈ moves, x.board.InBounds move.endPos.1 move.endPos.2) (hjump : jump ∈ jumps)
    (hup : clockMs ≤ jump.arrivalTime) (hflight : jump.flight ∈ flights) :
    Under (moves.foldl (KungFuChess.settleMove rules clockMs jumps) x).board jump := by
  induction moves generalizing x with
  | nil => exact hunder
  | cons move moves ih =>
      have hend := hends move List.mem_cons_self
      obtain ⟨hlocated, hends'⟩ := settleMove_located hrules clockMs jumps h hends
      exact ih _ (hunder.settleMove hrules h hend hjump hup (List.mem_append_right _ hflight)) hlocated hends'

theorem Under.foldl_putBack (ended : List Flight) (hunder : Under b jump) (h : Located b (ended ++ flights))
    (hflight : jump.flight ∈ flights) : Under (ended.foldl putBack b) jump := by
  induction ended generalizing b with
  | nil => exact hunder
  | cons f ended ih =>
      refine ih (fun r hr => ?_) (putBack_located h)
      rw [pieceAt_putBack_of_ne h (h.origin_ne (List.mem_append_right _ hflight))] at hr
      exact hunder r hr

end Under

/-! ### The flights of a game -/

section Games

variable {s s' : GameState} {a : GameAction} {row col : Nat}

/-- A request to move is accepted or ignored. -/
theorem moveSelectedTo_cases (h : GameInv s) (hstep : s.moveSelectedTo row col = .ok s') :
    s' = s ∨ ∃ p source, s.Starts p source (row, col) s' := by
  cases hselected : s.selected with
  | none =>
      simp only [GameState.moveSelectedTo, hselected, Except.ok.injEq] at hstep
      exact .inl hstep.symm
  | some source =>
      obtain ⟨v, hv, hspec⟩ := canMoveSelectedTo_spec h source.1 source.2 row col
      cases v with
      | false =>
          simp only [GameState.moveSelectedTo, hselected, hv, ok_bind, Bool.not_false, if_true, pure_eq_ok,
            Except.ok.injEq] at hstep
          exact .inl hstep.symm
      | true =>
          obtain ⟨-, -, -, -, p, hp⟩ := hspec rfl
          exact .inr ⟨p, source, hselected, hp, hv, hstep⟩

theorem jumpAt_cases (h : GameInv s) (hstep : s.jumpAt row col = .ok s') :
    s' = s ∨ ∃ p, s.board.pieceAt row col = some p ∧ s.isPieceResting row col = false ∧ s' = s.withJump p (row, col) := by
  rw [jumpAt_eq h, Except.ok.injEq] at hstep
  split at hstep
  · exact .inl hstep.symm
  · rename_i haway
    simp only [Bool.or_eq_true, not_or, Bool.not_eq_true] at haway
    cases hp : s.board.pieceAt row col with
    | none =>
        rw [hp] at hstep
        exact .inl hstep.symm
    | some p =>
        rw [hp] at hstep
        exact .inr ⟨p, rfl, haway.2, hstep.symm⟩

/-- What an action leads to, with what it has checked. -/
inductive Acted (s : GameState) : GameAction → GameState → Prop where
  | quiet {a : GameAction} (selected : Option Cell) : Acted s a { s with selected }
  | started {a : GameAction} {p : Piece} {source target : Cell} {s' : GameState}
      (hstart : s.Starts p source target s') : Acted s a s'
  | jumped {a : GameAction} {p : Piece} {cell : Cell} (hp : s.board.pieceAt cell.1 cell.2 = some p)
      (hrested : s.isPieceResting cell.1 cell.2 = false) (selected : Option Cell) :
      Acted s a { s.withJump p cell with selected }
  | settled (ms : Int) : Acted s (.advanceClock ms) (s.advance ms)

theorem applyAction_acted (h : GameInv s) (hstep : s.applyAction a = .ok s') : Acted s a s' := by
  cases a with
  | select row col =>
      cases hstep
      unfold GameState.select
      split
      · exact .quiet s.selected
      · exact .quiet _
  | clearSelection =>
      cases hstep
      exact .quiet none
  | moveSelected toRow toCol =>
      rcases moveSelectedTo_cases h hstep with rfl | ⟨p, source, hstart⟩
      · exact .quiet s'.selected
      · exact .started hstart
  | jumpSelected =>
      simp only [GameState.applyAction, GameState.jumpSelected] at hstep
      split at hstep
      · cases hstep
        exact .quiet s.selected
      · obtain ⟨mid, hmid, hdone⟩ := bind_eq_ok.mp hstep
        cases hdone
        rcases jumpAt_cases h hmid with rfl | ⟨p, hp, hrested, rfl⟩
        · exact .quiet none
        · exact @Acted.jumped s _ p (_, _) hp hrested none
  | jumpAt row col =>
      rcases jumpAt_cases h hstep with rfl | ⟨p, hp, hrested, rfl⟩
      · exact .quiet s'.selected
      · exact @Acted.jumped s _ p (row, col) hp hrested s.selected
  | advanceClock ms =>
      obtain rfl := h.eq_advance hstep
      exact .settled ms

theorem FlightInv.starts (hf : FlightInv s) (h : GameInv s) {p : Piece} {source target : Cell}
    (hstart : s.Starts p source target s') : FlightInv s' := by
  have hlegal := hstart.legal
  rw [h.rules] at hlegal
  obtain ⟨-, hne, hchess⟩ := (isLegalMove_iff h.located.valid hstart.piece).mp hlegal
  have hshape := (chessMove_iff.mp hchess).1
  have hrows : (s.board.lift p source.1 source.2).rows = s.board.rows := by simp [BoardModel.lift]
  obtain rfl := hstart.eq_withMove h.located
  refine ⟨fun move hmove => ?_, fun move hmove => ?_, fun jump hjump r hr => ?_⟩
  · show MoveShape (s.board.lift p source.1 source.2).rows _ _ _ _
    rw [hrows]
    rcases List.mem_append.mp hmove with hold | hmove
    · exact hf.shaped move hold
    · cases List.mem_singleton.mp hmove
      exact hshape
  · rcases List.mem_append.mp hmove with hold | hmove
    · exact hf.apart move hold
    · cases List.mem_singleton.mp hmove
      exact hne
  · change (s.board.lift p source.1 source.2).pieceAt jump.cell.1 jump.cell.2 = some r at hr
    rw [h.located.pieceAt_lift hstart.piece] at hr
    split at hr
    · cases hr
    · exact hf.under jump hjump r hr

theorem FlightInv.withJump (hf : FlightInv s) (h : GameInv s) {p : Piece} {cell : Cell}
    (hp : s.board.pieceAt cell.1 cell.2 = some p) (selected : Option Cell) :
    FlightInv { s.withJump p cell with selected } := by
  have hrows : (s.board.lift p cell.1 cell.2).rows = s.board.rows := by simp [BoardModel.lift]
  refine ⟨fun move hmove => ?_, hf.apart, fun jump hjump r hr => ?_⟩
  · show MoveShape (s.board.lift p cell.1 cell.2).rows _ _ _ _
    rw [hrows]
    exact hf.shaped move hmove
  · change (s.board.lift p cell.1 cell.2).pieceAt jump.cell.1 jump.cell.2 = some r at hr
    rw [h.located.pieceAt_lift hp] at hr
    split at hr
    · cases hr
    · rename_i hother
      rcases List.mem_append.mp hjump with hold | hjump
      · exact hf.under jump hold r hr
      · cases List.mem_singleton.mp hjump
        exact absurd rfl hother

theorem FlightInv.advance (hf : FlightInv s) (h : GameInv s) (ms : Int) : FlightInv (s.advance ms) := by
  have hrules : s.rules.KeepsPieces := h.rules ▸ GameRules.standard_keepsPieces
  have hrows : (s.advance ms).board.rows = s.board.rows := (h.trace ms).dims.1
  have hpending : ∀ move ∈ (s.advance ms).pendingMoves, move ∈ s.pendingMoves :=
    fun move hmove => (mem_pendingMoves_advance hmove).1
  refine ⟨fun move hmove => ?_, fun move hmove => hf.apart move (hpending move hmove), fun jump hjump => ?_⟩
  · rw [hrows]
    exact hf.shaped move (hpending move hmove)
  · obtain ⟨hactive, hup⟩ := mem_activeJumps_advance.mp hjump
    have hflight : jump.flight ∈ flightsOf (s.advance ms).pendingMoves (s.advance ms).activeJumps :=
      List.mem_append_right _ (List.mem_map_of_mem hjump)
    have hperm := flightsOf_perm s.rules (s.advancedArbiter ms) s.board s.gameOver
    have hlocated := located_settleDue (s.advancedArbiter ms) hrules s.gameOver h.located h.ends
    refine Under.foldl_putBack _ ?_ hlocated hflight
    exact Under.foldl_settleMove hrules (dueMoves (s.advancedArbiter ms))
      (settleStart (s.advancedArbiter ms) s.board s.gameOver) (hf.under jump hactive) (h.located.perm hperm)
      (fun move hmove => h.ends move (List.mem_filter.mp hmove).1) hactive (Int.le_of_lt hup)
      (List.mem_append_right _ hflight)

theorem FlightInv.step (hf : FlightInv s) (h : GameInv s) (hstep : s.applyAction a = .ok s') : FlightInv s' := by
  cases applyAction_acted h hstep with
  | quiet selected => exact ⟨hf.shaped, hf.apart, hf.under⟩
  | started hstart => exact hf.starts h hstart
  | jumped hp _ selected => exact hf.withJump h hp selected
  | settled ms => exact hf.advance h ms

theorem Reachable.flightInv (h : Reachable s) : FlightInv s := by
  refine h.induction (fun board _ => ⟨?_, ?_, ?_⟩) fun mid a next hreach hstep hf => ?_
  · intro move h
    obtain ⟨⟩ := h
  · intro move h
    obtain ⟨⟩ := h
  · intro jump h
    obtain ⟨⟩ := h
  · exact hf.step hreach.inv hstep

end Games

/-! ### What is left to check of a move in the air -/

section Playable

variable {b : BoardModel} {flights : List Flight} {move : PendingMove}

theorem playable_iff_canSettleMove : playable b move = true ↔ canSettleMove b move = .ok true := by
  refine ⟨canSettleMove_of_playable, fun hok => ?_⟩
  unfold playable
  rw [hok]

/-- Of a move that was legal once, an arrival checks the cells it passes and the one it ends on. -/
theorem playable_iff (h : Located b flights) (hmove : move.flight ∈ flights)
    (hshape : MoveShape b.rows move.kind move.color (pointOf move.startPos) (pointOf move.endPos))
    (hne : move.startPos ≠ move.endPos) (hend : b.InBounds move.endPos.1 move.endPos.2) :
    playable b move = true ↔ b.ClearBetween (pointOf move.startPos) (pointOf move.endPos) ∧
      TargetFree b move.kind move.color (pointOf move.startPos) (pointOf move.endPos) := by
  obtain ⟨p, hp, hcolor, hkind⟩ := h.flightPiece move.flight hmove
  have hcan := canSettleMove_iff h.valid hp (h.originsIn _ hmove) hend hne
  rw [playable_iff_canSettleMove, hcan, chessMove_iff, hkind, hcolor]
  exact and_iff_right hshape

end Playable

end KungFuChess
