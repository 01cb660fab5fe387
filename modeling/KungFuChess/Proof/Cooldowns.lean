import Mathlib.Data.List.Infix
import KungFuChess.Proof.Flights

/-!
# Cooldowns

A piece that lands, or whose jump ends, is entered in the rests with the time they are over, as an `int`. A settlement
writes and erases the rests of the pieces it works off and of those they take, and drops the ones that are over. So a
rest lasts as long as it should if its end fits an `int` and the clock does not come back to a rest that has been
dropped.
-/

namespace KungFuChess

open Loops BoardModel

/-! ### Rests through a settlement -/

/-- The rest of a piece is `rest`, unless the piece has been taken and its rest erased. -/
def Rested (b : BoardModel) (rests : RestMap) (id : Nat) (rest : Option ActiveRest) : Prop :=
  rests.find? id = rest ∨ rests.find? id = none ∧ ∃ p, b.findPieceById id = some p ∧ p.state = .captured

/-- The piece has been taken, or its cell is `cell`. -/
def TakenOrAt (b : BoardModel) (id : Nat) (cell : Cell) : Prop :=
  ∃ p, b.findPieceById id = some p ∧ (p.state = .captured ∨ p.cell = positionOf cell.1 cell.2)

section Settlement

variable {b b' : BoardModel} {rests : RestMap} {id : Nat} {rest : Option ActiveRest} {f : Flight} {e : SettleEvent}
  {flights left : List Flight} {events : List SettleEvent} {clockMs : Int} {jumps : List JumpState}
  {move : PendingMove} {jump : JumpState} {x : Settling}

theorem Trace.stays_captured (h : Trace .standard b flights events b' left) (hb : Located b flights) {p : Piece}
    (hp : b.findPieceById id = some p) (hstate : p.state = .captured) :
    ∃ p', b'.findPieceById id = some p' ∧ p'.state = .captured := by
  obtain ⟨p', hp', hfate⟩ := h.fate hb hp
  have hid := hb.idsInPlace id p hp
  have hgrounded : p.id ∉ flights.map Flight.id := by
    rw [hid, ← hb.moving id p hp, hstate]
    decide
  refine ⟨p', hp', ?_⟩
  rcases hfate.grounded hgrounded with rfl | rfl
  · exact hstate
  · rfl

theorem TakenOrAt.trace {cell : Cell} (hat : TakenOrAt b id cell) (h : Trace .standard b flights events b' left)
    (hb : Located b flights) (hid : id ∉ flights.map Flight.id) : TakenOrAt b' id cell := by
  obtain ⟨p, hp, hwhere⟩ := hat
  obtain ⟨p', hp', hfate⟩ := h.fate hb hp
  refine ⟨p', hp', ?_⟩
  rcases hfate.grounded (by rwa [hb.idsInPlace id p hp]) with rfl | rfl
  · exact hwhere
  · exact .inl rfl

/-- A piece on the ground is captured or stands on its cell. -/
theorem TakenOrAt.cases {cell : Cell} (hat : TakenOrAt b id cell) (hb : Located b flights)
    (hid : id ∉ flights.map Flight.id) :
    (∃ p, b.findPieceById id = some p ∧ p.state = .captured) ∨ b.cellId cell.1 cell.2 = some id := by
  obtain ⟨p, hp, hstate | hcell⟩ := hat
  · exact .inl ⟨p, hp, hstate⟩
  · cases hstate : p.state with
    | captured => exact .inl ⟨p, hp, hstate⟩
    | moving => exact absurd ((hb.moving id p hp).mp hstate) hid
    | idle =>
        obtain ⟨row, col, hgrid⟩ := hb.idle id p hp hstate
        obtain ⟨q, hq, -, hqcell⟩ := hb.onGrid row col id hgrid
        rw [hp, Option.some.injEq] at hq
        obtain ⟨hrow, hcol⟩ := positionOf_inj (hcell.symm.trans (hq ▸ hqcell))
        exact .inr (by rw [hrow, hcol]; exact hgrid)

/-- An event does not touch the rest of a piece other than its own, except to erase it with the piece. -/
theorem Fits.rested (h : Fits b f e) (hb : Located b (f :: flights)) (hid : id ≠ f.id) (hrest : Rested b rests id rest)
    (arrivalTime : Int) :
    Rested (e.boardAfter .standard b) (e.restsAfter .standard arrivalTime rests) id rest := by
  have htrace : Trace .standard b (f :: flights) [e] (e.boardAfter .standard b) flights :=
    .cons (.refl _) h (.nil (.refl _))
  have hpiece := hb.idsInPlace f.id _ h.piece_eq
  cases h with
  | @landed piece cell hfind htarget hin hcolor =>
      have hother : id ≠ piece.id := fun heq => hid (heq.trans hpiece)
      simp only [Rested, SettleEvent.restsAfter, scheduleRest, OrdMap.find?_insert, if_neg hother]
      cases hq : b.pieceAt cell.1 cell.2 with
      | none =>
          rw [hq] at htrace
          simp only [Option.elim_none]
          rcases hrest with hsame | ⟨hnone, p, hp, hstate⟩
          · exact .inl hsame
          · exact .inr ⟨hnone, htrace.stays_captured hb hp hstate⟩
      | some q =>
          rw [hq] at htrace
          simp only [Option.elim_some, OrdMap.find?_erase]
          by_cases htaken : id = q.id
          · have hplaced := (GameRules.standard.landing_id GameRules.standard_keepsPieces piece cell.1 b.rows).trans hpiece
            have hland := @Located.findPieceById_land _ _ _ _ cell.1 cell.2 hb hplaced id
            rw [GameRules.landing_id GameRules.standard_keepsPieces, if_neg hother, hq] at hland
            rw [if_pos htaken]
            exact .inr ⟨rfl, _, hland.trans (if_pos htaken), rfl⟩
          · rw [if_neg htaken]
            rcases hrest with hsame | ⟨hnone, p, hp, hstate⟩
            · exact .inl hsame
            · exact .inr ⟨hnone, htrace.stays_captured hb hp hstate⟩
  | @shotDown piece jump hfind hcolor =>
      have hother : id ≠ piece.id := fun heq => hid (heq.trans hpiece)
      simp only [Rested, SettleEvent.restsAfter, OrdMap.find?_erase, if_neg hother]
      exact hrest.imp_right fun h => ⟨h.1, by
        obtain ⟨p, hp, hstate⟩ := h.2
        exact htrace.stays_captured hb hp hstate⟩
  | putBack hfind =>
      exact hrest.imp_right fun h => ⟨h.1, by
        obtain ⟨p, hp, hstate⟩ := h.2
        exact htrace.stays_captured hb hp hstate⟩

theorem Rested.foldl_settleMove (moves : List PendingMove) (x : Settling)
    (hb : Located x.board (moves.map PendingMove.flight ++ flights))
    (hends : ∀ move ∈ moves, x.board.InBounds move.endPos.1 move.endPos.2) (hid : ∀ move ∈ moves, id ≠ move.pieceId)
    (hrest : Rested x.board x.rests id rest) :
    Rested (moves.foldl (settleMove .standard clockMs jumps) x).board
      (moves.foldl (settleMove .standard clockMs jumps) x).rests id rest := by
  induction moves generalizing x with
  | nil => exact hrest
  | cons move moves ih =>
      have hfits := dueEvent_fits clockMs jumps hb (hends move List.mem_cons_self)
      obtain ⟨hlocated, hends'⟩ := settleMove_located GameRules.standard_keepsPieces clockMs jumps hb hends
      exact ih _ hlocated hends' (fun other hother => hid other (List.mem_cons_of_mem _ hother))
        (hfits.rested hb (hid move List.mem_cons_self) hrest _)

theorem Rested.foldl_putBack (ended : List Flight) (hb : Located b (ended ++ flights)) (hrest : Rested b rests id rest) :
    Rested (ended.foldl putBack b) rests id rest := by
  refine hrest.imp_right fun h => ⟨h.1, ?_⟩
  obtain ⟨p, hp, hstate⟩ := h.2
  exact (trace_back GameRules.standard_keepsPieces ended b hb).stays_captured hb hp hstate

/-- The rest of a piece that lands. -/
def longRest (move : PendingMove) : ActiveRest :=
  ⟨.long, narrowTime move.arrivalTime, narrowTime (move.arrivalTime + GameRules.standard.longRestDurationMs),
    move.endPos.1, move.endPos.2⟩

/-- The rest of a piece whose jump ends. -/
def shortRest (jump : JumpState) : ActiveRest :=
  ⟨.short, narrowTime jump.arrivalTime, narrowTime (jump.arrivalTime + GameRules.standard.shortRestDurationMs),
    jump.cell.1, jump.cell.2⟩

/-- What a settlement leaves of a due move: the piece has landed and rests, or it is back without a rest. -/
def Landing (b : BoardModel) (rests : RestMap) (move : PendingMove) : Prop :=
  Rested b rests move.pieceId (some (longRest move)) ∧ TakenOrAt b move.pieceId move.endPos ∨
    rests.find? move.pieceId = none ∧ TakenOrAt b move.pieceId move.startPos

theorem settleMove_landing (hb : Located x.board (move.flight :: flights)) (hnone : x.rests.find? move.pieceId = none) :
    Landing (settleMove .standard clockMs jumps x move).board (settleMove .standard clockMs jumps x move).rests move := by
  obtain ⟨p, hp, hid, -⟩ := hb.findPieceById_flight
  change x.board.findPieceById move.pieceId = some p at hp
  have hmine : move.pieceId = p.id := hid.symm
  unfold settleMove dueEvent
  rw [pieceOf_eq hp]
  dsimp only
  split
  · split
    · refine .inr ⟨?_, _, (findPieceById_setPiece (p := { p with state := .captured })
        (show x.board.findPieceById p.id = some p by rw [← hmine]; exact hp) move.pieceId).trans (if_pos hmine),
        .inl rfl⟩
      rw [SettleEvent.restsAfter, OrdMap.find?_erase, if_pos hmine]
    · have hplaced := GameRules.standard.landing_id GameRules.standard_keepsPieces p move.endPos.1 x.board.rows
      refine .inl ⟨.inl ?_, _, (hb.findPieceById_land (hplaced.trans hid) move.pieceId).trans
        (if_pos (hmine.trans hplaced.symm)), .inr rfl⟩
      rw [SettleEvent.restsAfter, scheduleRest, OrdMap.find?_insert, if_pos hmine]
      rfl
  · exact .inr ⟨hnone, _, (hb.findPieceById_land (p := { p with state := .idle }) hid move.pieceId).trans
      (if_pos hmine), .inr rfl⟩

/-- Later events of the settlement may take the piece, and change nothing else about it. -/
theorem Landing.foldl_settleMove (moves : List PendingMove) (x : Settling)
    (hb : Located x.board (moves.map PendingMove.flight ++ flights))
    (hends : ∀ other ∈ moves, x.board.InBounds other.endPos.1 other.endPos.2)
    (hid : move.pieceId ∉ (moves.map PendingMove.flight ++ flights).map Flight.id)
    (h : Landing x.board x.rests move) :
    Landing (moves.foldl (settleMove .standard clockMs jumps) x).board
      (moves.foldl (settleMove .standard clockMs jumps) x).rests move := by
  have hothers : ∀ other ∈ moves, move.pieceId ≠ other.pieceId := by
    intro other hother heq
    exact hid (List.mem_map.mpr ⟨other.flight, List.mem_append_left _ (List.mem_map_of_mem hother), heq.symm⟩)
  have htrace := trace_due clockMs jumps GameRules.standard_keepsPieces moves x hb hends
  refine h.imp (fun h => ⟨h.1.foldl_settleMove moves x hb hends hothers, h.2.trace htrace hb hid⟩) fun h => ⟨?_,
    h.2.trace htrace hb hid⟩
  have hkept : Rested (moves.foldl (settleMove .standard clockMs jumps) x).board _ _ none :=
    Rested.foldl_settleMove moves x hb hends hothers (.inl h.1)
  exact hkept.elim (fun h => h) (fun h => h.1)

theorem Landing.foldl_putBack (ended : List Flight) (hb : Located b (ended ++ flights))
    (hid : move.pieceId ∉ (ended ++ flights).map Flight.id) (h : Landing b rests move) :
    Landing (ended.foldl putBack b) rests move := by
  have htrace := trace_back GameRules.standard_keepsPieces ended b hb
  exact h.imp (fun h => ⟨h.1.foldl_putBack ended hb, h.2.trace htrace hb hid⟩)
    fun h => ⟨h.1, h.2.trace htrace hb hid⟩

theorem foldl_settleMove_landing (moves : List PendingMove) (x : Settling)
    (hb : Located x.board (moves.map PendingMove.flight ++ flights))
    (hends : ∀ move ∈ moves, x.board.InBounds move.endPos.1 move.endPos.2) (hmove : move ∈ moves)
    (hnone : x.rests.find? move.pieceId = none) :
    Landing (moves.foldl (settleMove .standard clockMs jumps) x).board
      (moves.foldl (settleMove .standard clockMs jumps) x).rests move := by
  induction moves generalizing x with
  | nil => cases hmove
  | cons first moves ih =>
      have hfits := dueEvent_fits clockMs jumps hb (hends first List.mem_cons_self)
      obtain ⟨hlocated, hends'⟩ := settleMove_located GameRules.standard_keepsPieces clockMs jumps hb hends
      have hfirst : first.pieceId ∉ (moves.map PendingMove.flight ++ flights).map Flight.id :=
        (List.nodup_cons.mp hb.idsNodup).1
      rcases List.mem_cons.mp hmove with rfl | hmove
      · exact (settleMove_landing hb hnone).foldl_settleMove moves _ hlocated hends' hfirst
      · refine ih _ hlocated hends' hmove ?_
        have hother : move.pieceId ≠ first.flight.id := by
          intro heq
          exact hfirst (List.mem_map.mpr ⟨move.flight, List.mem_append_left _ (List.mem_map_of_mem hmove), heq⟩)
        have hkept := hfits.rested hb hother (.inl hnone) first.arrivalTime
        exact hkept.elim (fun h => h) (fun h => h.1)

theorem find?_foldl_restJumper_of_ne (rules : GameRules) (jumps : List JumpState) (rests : RestMap)
    (hid : ∀ jump ∈ jumps, id ≠ jump.pieceId) : (jumps.foldl (restJumper rules) rests).find? id = rests.find? id := by
  induction jumps generalizing rests with
  | nil => rfl
  | cons jump jumps ih =>
      rw [List.foldl_cons, ih _ fun other hother => hid other (List.mem_cons_of_mem _ hother), restJumper, scheduleRest,
        OrdMap.find?_insert, if_neg (hid jump List.mem_cons_self)]

theorem find?_foldl_restJumper (jumps : List JumpState) (rests : RestMap)
    (hnodup : (jumps.map JumpState.pieceId).Nodup) (hjump : jump ∈ jumps) :
    (jumps.foldl (restJumper .standard) rests).find? jump.pieceId = some (shortRest jump) := by
  induction jumps generalizing rests with
  | nil => cases hjump
  | cons first jumps ih =>
      obtain ⟨hfirst, hrest⟩ := List.nodup_cons.mp hnodup
      rw [List.foldl_cons]
      rcases List.mem_cons.mp hjump with rfl | hjump
      · rw [find?_foldl_restJumper_of_ne _ _ _
            (fun other hother heq => hfirst (List.mem_map.mpr ⟨other, hother, heq.symm⟩)), restJumper, scheduleRest,
          OrdMap.find?_insert, if_pos rfl]
        rfl
      · exact ih _ hrest hjump

end Settlement

/-! ### The rests of a game -/

/-- A piece in the air has no rest, and no rest is over. -/
structure RestInv (s : GameState) : Prop where
  flying : ∀ f ∈ flightsOf s.pendingMoves s.activeJumps, s.activeRests.find? f.id = none
  running : ∀ id rest, s.activeRests.find? id = some rest → s.clockMs < rest.endTimeMs

section Games

variable {s s' : GameState} {a : GameAction} {id : Nat} {ms : Int}

/-- The ids that a tick works off, and those that it leaves in the air. -/
theorem GameInv.ids_nodup (h : GameInv s) (ms : Int) :
    ((dueMoves (s.advancedArbiter ms)).map PendingMove.pieceId ++
      ((endedFlights s.rules (s.advancedArbiter ms) s.board s.gameOver).map Flight.id ++
        (flightsOf (s.advance ms).pendingMoves (s.advance ms).activeJumps).map Flight.id)).Nodup := by
  have hperm := (flightsOf_perm s.rules (s.advancedArbiter ms) s.board s.gameOver).map Flight.id
  have hnodup := hperm.nodup_iff.mp h.located.idsNodup
  rw [List.map_append, List.map_append, List.map_map] at hnodup
  exact hnodup

theorem board_advance (h : GameInv s) (ms : Int) :
    (s.advance ms).board = (endedFlights .standard (s.advancedArbiter ms) s.board s.gameOver).foldl putBack
      (settleDue .standard (s.advancedArbiter ms) s.board s.gameOver).board := by
  rw [← h.rules]
  rfl

theorem activeRests_advance (h : GameInv s) (ms : Int) :
    (s.advance ms).activeRests = expireRests (s.clockMs + ms)
      ((endedJumps (s.advancedArbiter ms)).foldl (restJumper .standard)
        (settleDue .standard (s.advancedArbiter ms) s.board s.gameOver).rests) := by
  rw [← h.rules]
  rfl

/-- What is not worked off keeps its rest until it is over, or until the piece is taken. -/
theorem rested_advance (h : GameInv s) {rest : Option ActiveRest}
    (hmoves : ∀ move ∈ dueMoves (s.advancedArbiter ms), id ≠ move.pieceId)
    (hjumps : ∀ jump ∈ endedJumps (s.advancedArbiter ms), id ≠ jump.pieceId)
    (hrest : Rested s.board s.activeRests id rest) :
    Rested (s.advance ms).board ((endedJumps (s.advancedArbiter ms)).foldl (restJumper .standard)
      (settleDue .standard (s.advancedArbiter ms) s.board s.gameOver).rests) id rest := by
  have hperm := flightsOf_perm .standard (s.advancedArbiter ms) s.board s.gameOver
  have hdue : Rested (settleDue .standard (s.advancedArbiter ms) s.board s.gameOver).board _ id rest :=
    Rested.foldl_settleMove (dueMoves (s.advancedArbiter ms)) (settleStart (s.advancedArbiter ms) s.board s.gameOver)
      (h.located.perm hperm) (fun move hmove => h.ends move (List.mem_filter.mp hmove).1) hmoves hrest
  have hlocated := located_settleDue (s.advancedArbiter ms) GameRules.standard_keepsPieces s.gameOver h.located h.ends
  have hback := hdue.foldl_putBack _ hlocated
  unfold Rested at hback ⊢
  rw [find?_foldl_restJumper_of_ne _ _ _ hjumps, board_advance h]
  exact hback

theorem RestInv.advance (h : GameInv s) (hr : RestInv s) (ms : Int) : RestInv (s.advance ms) := by
  constructor
  · intro f hf
    have hnodup := h.ids_nodup ms
    have hleft : f.id ∈ (flightsOf (s.advance ms).pendingMoves (s.advance ms).activeJumps).map Flight.id :=
      List.mem_map_of_mem hf
    obtain ⟨-, hrest, hdues⟩ := List.nodup_append.mp hnodup
    obtain ⟨-, -, hended⟩ := List.nodup_append.mp hrest
    have hmem : f ∈ flightsOf s.pendingMoves s.activeJumps :=
      (flightsOf_perm s.rules (s.advancedArbiter ms) s.board s.gameOver).mem_iff.mpr
        (List.mem_append_right _ (List.mem_append_right _ hf))
    have hkept := @rested_advance _ _ ms h none
      (fun move hmove heq => hdues _ (List.mem_map_of_mem hmove) _ (List.mem_append_right _ hleft) heq.symm)
      (fun jump hjump heq => hended jump.pieceId (List.mem_map.mpr ⟨jump.flight, List.mem_append_right _
        (List.mem_map_of_mem hjump), rfl⟩) _ hleft heq.symm) (.inl (hr.flying f hmem))
    rw [activeRests_advance h, find?_expireRests, hkept.elim (fun h => h) fun h => h.1]
    rfl
  · intro id rest hrest
    rw [activeRests_advance h, find?_expireRests, Option.filter_eq_some_iff] at hrest
    have hlate := hrest.2
    simp only [Bool.not_eq_true', decide_eq_false_iff_not, ge_iff_le, Int.not_le] at hlate
    exact hlate

/-- A piece that may be asked to move has no rest left. -/
theorem RestInv.find?_eq_none (hr : RestInv s) {cell : Cell} {p : Piece} (hp : s.board.pieceAt cell.1 cell.2 = some p)
    (hrested : s.isPieceResting cell.1 cell.2 = false) : s.activeRests.find? p.id = none := by
  have hresting : s.arbiter.isPieceResting p.id = false := by
    rw [GameState.isPieceResting, hp] at hrested
    exact hrested
  cases hrest : s.arbiter.scheduler.activeRests.find? p.id with
  | none => exact hrest
  | some rest =>
      rw [RealTimeArbiter.isPieceResting, MoveScheduler.isPieceResting, hrest] at hresting
      exact absurd (hr.running _ _ hrest) (of_decide_eq_false hresting)

theorem GameState.Starts.rested {p : Piece} {source target : Cell} (h : s.Starts p source target s') :
    s.isPieceResting source.1 source.2 = false := (canMoveSelectedTo_eq_true_iff.mp h.accepted).2.2.2.1

theorem RestInv.step (h : GameInv s) (hr : RestInv s) (hstep : s.applyAction a = .ok s') : RestInv s' := by
  cases applyAction_acted h hstep with
  | quiet selected => exact ⟨hr.flying, hr.running⟩
  | @started _ p source target _ hstart =>
      have hnone := hr.find?_eq_none hstart.piece hstart.rested
      obtain rfl := hstart.eq_withMove h.located
      refine ⟨fun f hf => ?_, hr.running⟩
      rcases List.mem_cons.mp ((flightsOf_append_move _ _ _).mem_iff.mp hf) with rfl | hold
      · exact hnone
      · exact hr.flying f hold
  | @jumped _ p cell hp hrested selected =>
      have hnone := hr.find?_eq_none hp hrested
      refine ⟨fun f hf => ?_, hr.running⟩
      rcases List.mem_cons.mp ((flightsOf_append_jump _ _ _).mem_iff.mp hf) with rfl | hold
      · exact hnone
      · exact hr.flying f hold
  | settled ms => exact hr.advance h ms

theorem Reachable.restInv (h : Reachable s) : RestInv s := by
  refine h.induction (fun board _ => ⟨?_, ?_⟩) fun mid a next hreach hstep hr => ?_
  · intro f h
    obtain ⟨⟩ := h
  · intro id rest h
    obtain ⟨⟩ := h
  · exact hr.step hreach.inv hstep

/-- The ids of a due move and of a jump that ends are on the ground after the tick. -/
theorem GameInv.grounded_due (h : GameInv s) {move : PendingMove} (hmove : move ∈ dueMoves (s.advancedArbiter ms)) :
    move.pieceId ∉ (endedFlights .standard (s.advancedArbiter ms) s.board s.gameOver ++
      flightsOf (s.advance ms).pendingMoves (s.advance ms).activeJumps).map Flight.id := by
  have hnodup := h.ids_nodup ms
  rw [← List.map_append, h.rules] at hnodup
  exact fun hmem => (List.nodup_append.mp hnodup).2.2 _ (List.mem_map_of_mem hmove) _ hmem rfl

theorem GameInv.grounded_jump (h : GameInv s) {jump : JumpState} (hjump : jump ∈ endedJumps (s.advancedArbiter ms)) :
    jump.pieceId ∉ (flightsOf (s.advance ms).pendingMoves (s.advance ms).activeJumps).map Flight.id := by
  have hrest := (List.nodup_append.mp (h.ids_nodup ms)).2.1
  have hmem : jump.pieceId ∈ (endedFlights s.rules (s.advancedArbiter ms) s.board s.gameOver).map Flight.id :=
    List.mem_map.mpr ⟨jump.flight, List.mem_append_right _ (List.mem_map_of_mem hjump), rfl⟩
  exact fun hleft => (List.nodup_append.mp hrest).2.2 _ hmem _ hleft rfl

theorem advance_landing (h : GameInv s) (hr : RestInv s) {move : PendingMove}
    (hmove : move ∈ dueMoves (s.advancedArbiter ms)) :
    Landing (s.advance ms).board ((endedJumps (s.advancedArbiter ms)).foldl (restJumper .standard)
      (settleDue .standard (s.advancedArbiter ms) s.board s.gameOver).rests) move := by
  have hperm := flightsOf_perm .standard (s.advancedArbiter ms) s.board s.gameOver
  have hlocated := located_settleDue (s.advancedArbiter ms) GameRules.standard_keepsPieces s.gameOver h.located h.ends
  have hgrounded := h.grounded_due hmove
  have hnone := hr.flying move.flight
    (List.mem_append_left _ (List.mem_map_of_mem (List.mem_filter.mp hmove).1))
  have hdue : Landing (settleDue .standard (s.advancedArbiter ms) s.board s.gameOver).board _ move :=
    foldl_settleMove_landing (dueMoves (s.advancedArbiter ms)) (settleStart (s.advancedArbiter ms) s.board s.gameOver)
      (h.located.perm hperm) (fun move hmove => h.ends move (List.mem_filter.mp hmove).1) hmove hnone
  have hback := hdue.foldl_putBack _ hlocated (by
    unfold GameState.advance at hgrounded
    rw [h.rules] at hgrounded
    exact hgrounded)
  rw [← board_advance h] at hback
  have hjumps : ∀ jump ∈ endedJumps (s.advancedArbiter ms), move.pieceId ≠ jump.pieceId := by
    intro jump hjump heq
    exact hgrounded (List.mem_map.mpr ⟨jump.flight,
      List.mem_append_left _ (List.mem_append_right _ (List.mem_map_of_mem hjump)), heq.symm⟩)
  unfold Landing Rested at hback ⊢
  rw [find?_foldl_restJumper_of_ne _ _ _ hjumps]
  exact hback

end Games

/-! ### Cooldowns of a game -/

theorem narrowTime_eq {t : Int} (hlow : -(2 ^ 31) ≤ t) (hhigh : t < 2 ^ 31) : narrowTime t = t := by
  rw [narrowTime, Int.bmod_def]
  split <;> omega

theorem narrowTime_le {t : Int} (hlow : -(2 ^ 31) ≤ t) : narrowTime t ≤ t := by
  rw [narrowTime, Int.bmod_def]
  split <;> omega

/-- The tick from `s` to `s'` in which the piece lands a move, or its jump ends, with the time its rest is over. -/
inductive Lands (s : GameState) (ms : Int) (s' : GameState) (id : Nat) : Int → Prop where
  | move {move : PendingMove} (hmove : move ∈ s.pendingMoves) (hid : move.pieceId = id)
      (hdue : move.arrivalTime ≤ s.clockMs + ms)
      (hlanded : (∃ p, s'.board.findPieceById id = some p ∧ p.state = .captured) ∨
        s'.board.cellId move.endPos.1 move.endPos.2 = some id) :
      Lands s ms s' id (move.arrivalTime + s.rules.longRestDurationMs)
  | jump {jump : JumpState} (hjump : jump ∈ s.activeJumps) (hid : jump.pieceId = id)
      (hdue : jump.arrivalTime ≤ s.clockMs + ms) : Lands s ms s' id (jump.arrivalTime + s.rules.shortRestDurationMs)

/-- The piece is not in the air. -/
def Grounded (s : GameState) (id : Nat) : Prop :=
  (∀ move ∈ s.pendingMoves, move.pieceId ≠ id) ∧ ∀ jump ∈ s.activeJumps, jump.pieceId ≠ id

/-- The piece rests until `endMs`, or has been taken. -/
def AtRest (s : GameState) (id : Nat) (endMs : Int) : Prop :=
  ∃ p, s.board.findPieceById id = some p ∧
    (p.state = .captured ∨ p.state = .idle ∧ ∃ rest, s.activeRests.find? id = some rest ∧ rest.endTimeMs = endMs)

/-- The piece does not rest longer than `endMs`. -/
def RestsUntil (s : GameState) (id : Nat) (endMs : Int) : Prop :=
  ∀ rest, s.activeRests.find? id = some rest → rest.endTimeMs ≤ endMs

section Cooldowns

variable {s s' : GameState} {a : GameAction} {id : Nat} {ms endMs : Int}

theorem grounded_iff : Grounded s id ↔ id ∉ (flightsOf s.pendingMoves s.activeJumps).map Flight.id := by
  rw [flightsOf, List.map_append, List.mem_append, not_or, List.map_map, List.map_map]
  simp only [Grounded, List.mem_map, not_exists, not_and, Function.comp_apply]
  rfl

theorem AtRest.grounded (hat : AtRest s id endMs) (h : GameInv s) : Grounded s id := by
  obtain ⟨p, hp, hstate⟩ := hat
  rw [grounded_iff, ← h.located.moving id p hp]
  rcases hstate with hstate | ⟨hstate, -⟩ <;> rw [hstate] <;> decide

/-- A piece that is asked to move is not at rest. -/
theorem AtRest.ne_asked (hat : AtRest s id endMs) (h : GameInv s) (hr : RestInv s) {cell : Cell} {p : Piece}
    (hp : s.board.pieceAt cell.1 cell.2 = some p) (hrested : s.isPieceResting cell.1 cell.2 = false) : id ≠ p.id := by
  intro h
  obtain rfl := h
  have hnone := hr.find?_eq_none hp hrested
  obtain ⟨q, hq, hstate⟩ := hat
  rw [(h.located.pieceAt_eq_some_iff.mp hp).2, Option.some.injEq] at hq
  rcases hstate with hstate | ⟨-, rest, hrest, -⟩
  · rw [← hq, (h.located.idle_of_pieceAt hp).1] at hstate
    cases hstate
  · rw [hnone] at hrest
    cases hrest

theorem not_due_of_grounded (hid : Grounded s id) (ms : Int) :
    (∀ move ∈ dueMoves (s.advancedArbiter ms), id ≠ move.pieceId) ∧
      ∀ jump ∈ endedJumps (s.advancedArbiter ms), id ≠ jump.pieceId :=
  ⟨fun move hmove => Ne.symm (hid.1 move (List.mem_filter.mp hmove).1),
    fun jump hjump => Ne.symm (hid.2 jump (List.mem_filter.mp hjump).1)⟩

/-- A rest is kept until it is over. -/
theorem AtRest.step (hat : AtRest s id endMs) (h : GameInv s) (hr : RestInv s) (hstep : s.applyAction a = .ok s')
    (hclock : s'.clockMs < endMs) : AtRest s' id endMs := by
  cases applyAction_acted h hstep with
  | quiet selected => exact hat
  | @started _ p source target _ hstart =>
      have hother := hat.ne_asked h hr hstart.piece hstart.rested
      obtain ⟨q, hq, hstate⟩ := hat
      obtain rfl := hstart.eq_withMove h.located
      exact ⟨q, (h.located.findPieceById_lift hstart.piece id).trans ((if_neg hother).trans hq), hstate⟩
  | @jumped _ p cell hp hrested selected =>
      have hother := hat.ne_asked h hr hp hrested
      obtain ⟨q, hq, hstate⟩ := hat
      exact ⟨q, (h.located.findPieceById_lift hp id).trans ((if_neg hother).trans hq), hstate⟩
  | settled ms =>
      have hground := hat.grounded h
      obtain ⟨hmoves, hjumps⟩ := not_due_of_grounded hground ms
      obtain ⟨q, hq, hstate⟩ := hat
      obtain ⟨q', hq', hfate⟩ := (h.trace ms).fate h.located hq
      rw [grounded_iff] at hground
      refine ⟨q', hq', ?_⟩
      rcases hfate.grounded (by rwa [h.located.idsInPlace id q hq]) with rfl | rfl
      · rcases hstate with hstate | ⟨hstate, rest, hrest, hend⟩
        · exact .inl hstate
        · refine .inr ⟨hstate, rest, ?_, hend⟩
          rw [activeRests_advance h, find?_expireRests]
          rcases rested_advance h hmoves hjumps (.inl hrest) with hkept | ⟨-, r, hr', hcaptured⟩
          · have hlate : s.clockMs + ms < endMs := hclock
            rw [hkept, Option.filter_some, if_pos (by simpa [hend] using hlate)]
          · rw [hq', Option.some.injEq] at hr'
            rw [hr', hcaptured] at hstate
            cases hstate
      · exact .inl rfl

theorem mem_dueMoves {move : PendingMove} (hmove : move ∈ s.pendingMoves) (hdue : move.arrivalTime ≤ s.clockMs + ms) :
    move ∈ dueMoves (s.advancedArbiter ms) := by
  refine List.mem_filter.mpr ⟨hmove, ?_⟩
  simp only [PendingMove.isDue, Bool.not_eq_true', decide_eq_false_iff_not]
  exact Int.not_lt.mpr hdue

theorem endedJumps_nodup (h : GameInv s) (ms : Int) :
    ((endedJumps (s.advancedArbiter ms)).map JumpState.pieceId).Nodup := by
  have hids := h.located.idsNodup
  rw [flightsOf, List.map_append, List.map_map, List.map_map] at hids
  exact (List.nodup_append.mp hids).2.1.sublist (List.filter_sublist.map _)

/-- The rests of a tick, before those that are over are dropped. -/
def enteredRests (s : GameState) (ms : Int) : RestMap :=
  (endedJumps (s.advancedArbiter ms)).foldl (restJumper .standard)
    (settleDue .standard (s.advancedArbiter ms) s.board s.gameOver).rests

theorem find?_advance (h : GameInv s) (ms : Int) (id : Nat) :
    (s.advance ms).activeRests.find? id =
      ((enteredRests s ms).find? id).filter fun rest => !decide (s.clockMs + ms ≥ rest.endTimeMs) := by
  rw [activeRests_advance h, find?_expireRests]
  rfl

theorem restsUntil_of_none (h : GameInv s) (hnone : (enteredRests s ms).find? id = none) :
    RestsUntil (s.advance ms) id endMs := by
  intro rest hrest
  rw [find?_advance h, hnone] at hrest
  cases hrest

/-- A piece that has been entered in the rests is at rest until its entry is dropped. -/
theorem rests_of_entered (h : GameInv s) {rest : ActiveRest} {p : Piece}
    (hentered : Rested (s.advance ms).board (enteredRests s ms) id (some rest))
    (hp : (s.advance ms).board.findPieceById id = some p)
    (hid : id ∉ (flightsOf (s.advance ms).pendingMoves (s.advance ms).activeJumps).map Flight.id) :
    RestsUntil (s.advance ms) id rest.endTimeMs ∧
      (s.clockMs + ms < rest.endTimeMs → AtRest (s.advance ms) id rest.endTimeMs) := by
  rcases hentered with hrest | ⟨hnone, q, hq, hcaptured⟩
  · have hfind := find?_advance h ms id
    rw [hrest] at hfind
    refine ⟨fun other hother => ?_, fun hlate => ⟨p, hp, ?_⟩⟩
    · rw [hfind] at hother
      rw [Option.some.inj (Option.filter_eq_some_iff.mp hother).1]
    · rw [Option.filter_some, if_pos (by simpa using hlate)] at hfind
      cases hstate : p.state with
      | captured => exact .inl rfl
      | idle => exact .inr ⟨rfl, rest, hfind, rfl⟩
      | moving => exact absurd (((h.advance ms).located.moving id p hp).mp hstate) hid
  · exact ⟨restsUntil_of_none h hnone, fun _ => ⟨q, hq, .inl hcaptured⟩⟩

/-- What a landing leaves: a rest with the end that fits an `int`, or a piece that has been taken. -/
theorem Lands.rests (hlands : Lands s ms (s.advance ms) id endMs) (h : GameInv s) (hf : FlightInv s) (hr : RestInv s) :
    RestsUntil (s.advance ms) id (narrowTime endMs) ∧
      (s.clockMs + ms < narrowTime endMs → AtRest (s.advance ms) id (narrowTime endMs)) := by
  have hlocated := (h.advance ms).located
  cases hlands with
  | @move move hmove hid hdue hlanded =>
      subst hid
      have hdue := mem_dueMoves hmove hdue
      have hgrounded : move.pieceId ∉ (flightsOf (s.advance ms).pendingMoves (s.advance ms).activeJumps).map Flight.id := by
        intro hmem
        refine h.grounded_due hdue ?_
        rw [List.map_append]
        exact List.mem_append_right _ hmem
      rw [h.rules]
      rcases advance_landing h hr hdue with ⟨hrest, p, hp, -⟩ | ⟨hnone, hat⟩
      · exact rests_of_entered h hrest hp hgrounded
      · refine ⟨restsUntil_of_none h hnone, fun _ => ?_⟩
        rcases hlanded with ⟨p, hp, hstate⟩ | htarget
        · exact ⟨p, hp, .inl hstate⟩
        · rcases hat.cases hlocated hgrounded with ⟨p, hp, hstate⟩ | hstart
          · exact ⟨p, hp, .inl hstate⟩
          · obtain ⟨hrow, hcol⟩ := hlocated.cell_unique hstart htarget
            exact absurd (Prod.ext hrow hcol) (hf.apart move hmove)
  | @jump jump hjump hid hdue =>
      subst hid
      have hended := mem_endedJumps.mpr ⟨hjump, hdue⟩
      obtain ⟨p, hp, -⟩ := h.located.flightPiece jump.flight (List.mem_append_right _ (List.mem_map_of_mem hjump))
      obtain ⟨p', hp', -⟩ := (h.trace ms).fate h.located hp
      have hentered : Rested (s.advance ms).board (enteredRests s ms) jump.pieceId (some (shortRest jump)) :=
        .inl (find?_foldl_restJumper _ _ (endedJumps_nodup h ms) hended)
      rw [h.rules]
      exact rests_of_entered h hentered hp' (h.grounded_jump hended)

/-- Without a landing the piece rests no longer. -/
theorem RestsUntil.step (hrests : RestsUntil s id endMs) (h : GameInv s) (hr : RestInv s)
    (hstep : s.applyAction a = .ok s')
    (hnone : ∀ ms, a = .advanceClock ms → ∀ other, ¬Lands s ms s' id other) : RestsUntil s' id endMs := by
  cases applyAction_acted h hstep with
  | quiet selected => exact hrests
  | started hstart =>
      obtain rfl := hstart.eq_withMove h.located
      exact hrests
  | jumped hp hrested selected => exact hrests
  | settled ms =>
      have hlands := hnone ms rfl
      have hjumps : ∀ jump ∈ endedJumps (s.advancedArbiter ms), id ≠ jump.pieceId := by
        intro jump hjump heq
        obtain ⟨hactive, hdue⟩ := mem_endedJumps.mp hjump
        exact hlands _ (.jump hactive heq.symm hdue)
      by_cases hmoves : ∀ move ∈ dueMoves (s.advancedArbiter ms), id ≠ move.pieceId
      · intro rest hrest
        rw [find?_advance h] at hrest
        rcases rested_advance h hmoves hjumps (.inl rfl) with hkept | ⟨hgone, -⟩
        · rw [enteredRests, hkept] at hrest
          exact hrests rest (Option.filter_eq_some_iff.mp hrest).1
        · rw [enteredRests, hgone] at hrest
          cases hrest
      · simp only [not_forall, not_not] at hmoves
        obtain ⟨move, hdue, rfl⟩ := hmoves
        have hgrounded := h.grounded_due hdue
        rw [List.map_append, List.mem_append, not_or] at hgrounded
        obtain ⟨hpending, hlate⟩ := List.mem_filter.mp hdue
        simp only [PendingMove.isDue, Bool.not_eq_true', decide_eq_false_iff_not] at hlate
        rcases advance_landing h hr hdue with ⟨-, hat⟩ | ⟨hgone, -⟩
        · exact absurd (.move hpending rfl (Int.not_lt.mp hlate)
            (hat.cases (h.advance ms).located hgrounded.2)) (hlands _)
        · exact restsUntil_of_none h hgone

/-- No action takes a piece at rest off the ground. -/
theorem AtRest.stays_grounded (hat : AtRest s id endMs) (h : GameInv s) (hr : RestInv s)
    (hstep : s.applyAction a = .ok s') : Grounded s' id := by
  have hground := hat.grounded h
  cases applyAction_acted h hstep with
  | quiet selected => exact hground
  | @started _ p source target _ hstart =>
      have hother := hat.ne_asked h hr hstart.piece hstart.rested
      obtain rfl := hstart.eq_withMove h.located
      refine ⟨fun move hmove => ?_, hground.2⟩
      rcases List.mem_append.mp hmove with hold | hnew
      · exact hground.1 move hold
      · rw [List.mem_singleton.mp hnew]
        exact Ne.symm hother
  | @jumped _ p cell hp hrested selected =>
      have hother := hat.ne_asked h hr hp hrested
      refine ⟨hground.1, fun jump hjump => ?_⟩
      rcases List.mem_append.mp hjump with hold | hnew
      · exact hground.2 jump hold
      · rw [List.mem_singleton.mp hnew]
        exact Ne.symm hother
  | settled ms =>
      exact ⟨fun move hmove => hground.1 move (mem_pendingMoves_advance hmove).1,
        fun jump hjump => hground.2 jump (mem_activeJumps_advance.mp hjump).1⟩

/-! ### Runs -/

variable {x : GameState} {actions : List GameAction}

/-- The first step of a run. -/
theorem RestInv.run_cons (hr : RestInv s) (h : GameInv s) (hrun : s.runActions (a :: actions) = .ok x) :
    ∃ next, s.applyAction a = .ok next ∧ next.runActions actions = .ok x ∧ GameInv next ∧ RestInv next := by
  rw [runActions_cons] at hrun
  obtain ⟨next, hnext, hrest⟩ := bind_eq_ok.mp hrun
  obtain ⟨next', hnext', hstep⟩ := applyAction_step h a
  cases hnext.symm.trans hnext'
  exact ⟨next, hnext, hrest, hstep.inv h, hr.step h hnext⟩

theorem AtRest.run (hat : AtRest s id endMs) (h : GameInv s) (hr : RestInv s) (hrun : s.runActions actions = .ok x)
    (hearly : ∀ mid rest y, actions = mid ++ rest → s.runActions mid = .ok y → y.clockMs < endMs) :
    AtRest x id endMs ∧ GameInv x ∧ RestInv x := by
  induction actions generalizing s with
  | nil =>
      cases hrun
      exact ⟨hat, h, hr⟩
  | cons a actions ih =>
      obtain ⟨next, hnext, hrest, hinv, hrests⟩ := hr.run_cons h hrun
      have hclock : next.clockMs < endMs := hearly [a] actions next rfl (by rw [runActions_cons, hnext]; rfl)
      refine ih (hat.step h hr hnext hclock) hinv hrests hrest fun mid rest y hsplit hmid => ?_
      exact hearly (a :: mid) rest y (by rw [hsplit]; rfl) (by rw [runActions_cons, hnext]; exact hmid)

theorem RestsUntil.run (hrests : RestsUntil s id endMs) (h : GameInv s) (hr : RestInv s)
    (hrun : s.runActions actions = .ok x)
    (hnone : ∀ mid step rest y y', actions = mid ++ .advanceClock step :: rest → s.runActions mid = .ok y →
      y.addClock step = .ok y' → ∀ other, ¬Lands y step y' id other) : RestsUntil x id endMs := by
  induction actions generalizing s with
  | nil =>
      cases hrun
      exact hrests
  | cons a actions ih =>
      obtain ⟨next, hnext, hrest, hinv, hnextRests⟩ := hr.run_cons h hrun
      refine ih (hrests.step h hr hnext fun ms ha => ?_) hinv hnextRests hrest
        fun mid step rest y y' hsplit hmid => ?_
      · subst ha
        exact hnone [] ms actions s next rfl rfl hnext
      · exact hnone (a :: mid) step rest y y' (by rw [hsplit]; rfl) (by rw [runActions_cons, hnext]; exact hmid)

end Cooldowns

/-- A piece that lands, or whose jump ends, is not taken off the ground before its rest is over and does not rest after
that, if the end of the rest fits an `int` and the clock does not come back across it. -/
theorem cooldown_holds {board : BoardModel} {before after : List GameAction} {s s' x : GameState} {ms endMs : Int}
    {id : Nat} (hboard : AcceptedBoard board) (hbefore : (GameState.new board).runActions before = .ok s)
    (htick : s.addClock ms = .ok s') (hlands : Lands s ms s' id endMs) (hafter : s'.runActions after = .ok x)
    (hlow : -(2 ^ 31) ≤ endMs) (hhigh : s'.clockMs < endMs → endMs < 2 ^ 31)
    (hback : ∀ mid rest y, after = mid ++ rest → s'.runActions mid = .ok y → x.clockMs < endMs → y.clockMs < endMs) :
    (x.clockMs < endMs → ∀ a next, x.applyAction a = .ok next → Grounded next id) ∧
      (endMs ≤ x.clockMs →
        (∀ mid step rest y y', after = mid ++ .advanceClock step :: rest → s'.runActions mid = .ok y →
          y.addClock step = .ok y' → ∀ other, ¬Lands y step y' id other) →
        x.arbiter.isPieceResting id = false) := by
  have hreach : Reachable s := ⟨board, hboard, before, hbefore⟩
  have hinv := hreach.inv
  have hrest := hreach.restInv
  obtain rfl := hinv.eq_advance htick
  obtain ⟨huntil, hat⟩ := hlands.rests hinv hreach.flightInv hrest
  refine ⟨fun hwindow a next hnext => ?_, fun hover hnone => ?_⟩
  · have hearly := hback [] after _ rfl rfl hwindow
    rw [narrowTime_eq hlow (hhigh hearly)] at hat
    obtain ⟨hlast, hlastInv, hlastRest⟩ := (hat hearly).run (hinv.advance ms) (hrest.advance hinv ms) hafter
      fun mid rest y hsplit hmid => hback mid rest y hsplit hmid hwindow
    exact hlast.stays_grounded hlastInv hlastRest hnext
  · have hlast := huntil.run (hinv.advance ms) (hrest.advance hinv ms) hafter hnone
    unfold RealTimeArbiter.isPieceResting MoveScheduler.isPieceResting
    cases hfind : x.arbiter.scheduler.activeRests.find? id with
    | none => rfl
    | some rest =>
        have hend := hlast rest hfind
        have hle := narrowTime_le hlow
        have hclock : endMs ≤ x.arbiter.clockMs := hover
        exact decide_eq_false (by omega)

/-- The rook of the duel steps down, and 200 ms later it still rests. -/
theorem cooldown_holds_duel :
    ∃ s s' x, (GameState.new duelBoard).runActions [.select 0 0, .moveSelected 1 0] = .ok s ∧
      s.addClock 1000 = .ok s' ∧ Lands s 1000 s' 1 5500 ∧ s'.runActions [.advanceClock 200] = .ok x ∧
      (x.clockMs < 5500 → ∀ a next, x.applyAction a = .ok next → Grounded next 1) ∧
      (5500 ≤ x.clockMs →
        (∀ mid step rest y y', [GameAction.advanceClock 200] = mid ++ .advanceClock step :: rest →
          s'.runActions mid = .ok y → y.addClock step = .ok y' → ∀ other, ¬Lands y step y' 1 other) →
        x.arbiter.isPieceResting 1 = false) := by
  have hrun : (fun s => (s.pendingMoves, s.clockMs)) <$>
      (GameState.new duelBoard).runActions [.select 0 0, .moveSelected 1 0] =
        .ok ([⟨1, .white, .rook, (0, 0), (1, 0), 0, 1000⟩], 0) := by decide
  obtain ⟨s, hs, hshown⟩ := map_eq_ok.mp hrun
  obtain ⟨hmoves, hclock⟩ := Prod.mk.injEq .. ▸ hshown
  have hreach : Reachable s := ⟨duelBoard, duelBoard_accepted, _, hs⟩
  have hticked : (fun s => (s.board.cellId 1 0, s.clockMs)) <$>
      (GameState.new duelBoard).runActions [.select 0 0, .moveSelected 1 0, .advanceClock 1000] =
        .ok (some 1, 1000) := by decide
  obtain ⟨s', hrun', hshown⟩ := map_eq_ok.mp hticked
  obtain ⟨hcell, hclock'⟩ := Prod.mk.injEq .. ▸ hshown
  have hs' : s.addClock 1000 = .ok s' := (runActions_singleton s _).symm.trans (runActions_after hs hrun')
  have hlast : GameState.clockMs <$> (GameState.new duelBoard).runActions
      [.select 0 0, .moveSelected 1 0, .advanceClock 1000, .advanceClock 200] = .ok 1200 := by decide
  obtain ⟨x, hrun'', hclock''⟩ := map_eq_ok.mp hlast
  have hx : s'.runActions [.advanceClock 200] = .ok x := runActions_after hrun' hrun''
  have hlands : Lands s 1000 s' 1 5500 := by
    have hmove : (⟨1, .white, .rook, (0, 0), (1, 0), 0, 1000⟩ : PendingMove) ∈ s.pendingMoves := by
      rw [hmoves]
      exact List.mem_singleton_self _
    have hmoved : Lands s 1000 s' 1 (1000 + s.rules.longRestDurationMs) :=
      Lands.move hmove rfl (by rw [hclock]; decide) (.inr hcell)
    rwa [hreach.inv.rules] at hmoved
  refine ⟨s, s', x, hs, hs', hlands, hx,
    cooldown_holds duelBoard_accepted hs hs' hlands hx (by decide) (fun _ => by decide) ?_⟩
  intro mid rest y hsplit hmid _
  cases mid with
  | nil =>
      cases hmid
      rw [hclock']
      decide
  | cons a mid =>
      obtain ⟨rfl, hnil⟩ := List.cons_eq_cons.mp hsplit
      obtain ⟨rfl, -⟩ := List.append_eq_nil_iff.mp hnil.symm
      cases hx.symm.trans hmid
      rw [hclock'']
      decide

/-- Close to the end of the range of an `int` the rook steps down, and may leave again at once. -/
theorem cooldown_wraps :
    ¬∀ (board : BoardModel) (before after : List GameAction) (s s' x : GameState) (ms endMs : Int) (id : Nat),
      AcceptedBoard board → (GameState.new board).runActions before = .ok s → s.addClock ms = .ok s' →
      Lands s ms s' id endMs → s'.runActions after = .ok x →
      (∀ y, Visits board (before ++ .advanceClock ms :: after) y → -(2 ^ 63) ≤ y.clockMs ∧ y.clockMs < 2 ^ 63) →
      s'.clockMs ≤ x.clockMs → x.clockMs < endMs → ∀ a next, x.applyAction a = .ok next → Grounded next id := by
  intro hholds
  have hrun : (fun s => (s.pendingMoves, s.clockMs)) <$>
      (GameState.new duelBoard).runActions [.advanceClock 2147482647, .select 0 0, .moveSelected 1 0] =
        .ok ([⟨1, .white, .rook, (0, 0), (1, 0), 2147482647, 2147483647⟩], 2147482647) := by decide
  obtain ⟨s, hs, hshown⟩ := map_eq_ok.mp hrun
  obtain ⟨hmoves, hclock⟩ := Prod.mk.injEq .. ▸ hshown
  have hreach : Reachable s := ⟨duelBoard, duelBoard_accepted, _, hs⟩
  have hticked : (fun s => (s.board.cellId 1 0, s.clockMs)) <$>
      (GameState.new duelBoard).runActions
        [.advanceClock 2147482647, .select 0 0, .moveSelected 1 0, .advanceClock 1000] =
        .ok (some 1, 2147483647) := by decide
  obtain ⟨s', hlanded, hshown⟩ := map_eq_ok.mp hticked
  obtain ⟨hcell, hclock'⟩ := Prod.mk.injEq .. ▸ hshown
  have hs' : s.addClock 1000 = .ok s' := (runActions_singleton s _).symm.trans (runActions_after hs hlanded)
  have hselected : GameState.clockMs <$> (GameState.new duelBoard).runActions
      [.advanceClock 2147482647, .select 0 0, .moveSelected 1 0, .advanceClock 1000, .select 1 0] =
        .ok 2147483647 := by decide
  obtain ⟨x, hchosen, hclock''⟩ := map_eq_ok.mp hselected
  have hx : s'.runActions [.select 1 0] = .ok x := runActions_after hlanded hchosen
  have haccepted : (fun next => next.pendingMoves.map PendingMove.pieceId) <$> (GameState.new duelBoard).runActions
      [.advanceClock 2147482647, .select 0 0, .moveSelected 1 0, .advanceClock 1000, .select 1 0,
        .moveSelected 0 0] = .ok [1] := by decide
  obtain ⟨next, hmoved, hids⟩ := map_eq_ok.mp haccepted
  have hnext : x.applyAction (.moveSelected 0 0) = .ok next :=
    (runActions_singleton x _).symm.trans (runActions_after hchosen hmoved)
  have hlands : Lands s 1000 s' 1 2147488147 := by
    have hmove : (⟨1, .white, .rook, (0, 0), (1, 0), 2147482647, 2147483647⟩ : PendingMove) ∈ s.pendingMoves := by
      rw [hmoves]
      exact List.mem_singleton_self _
    have hmoved : Lands s 1000 s' 1 (2147483647 + s.rules.longRestDurationMs) :=
      Lands.move hmove rfl (by rw [hclock]; decide) (.inr hcell)
    rwa [hreach.inv.rules] at hmoved
  have hvisits : ∀ mid ∈ [GameAction.advanceClock 2147482647, .select 0 0, .moveSelected 1 0, .advanceClock 1000,
      .select 1 0].inits, (fun y => decide (-(2 ^ 63) ≤ y.clockMs ∧ y.clockMs < 2 ^ 63)) <$>
        (GameState.new duelBoard).runActions mid = .ok true := by decide
  have hground := hholds duelBoard _ [.select 1 0] s s' x 1000 2147488147 1 duelBoard_accepted hs hs' hlands hx
    (by
      intro y h
      obtain ⟨mid, rest, hsplit, hmid⟩ := h
      have hseen := hvisits mid ((List.mem_inits _ _).mpr ⟨rest, hsplit.symm⟩)
      rw [hmid, map_ok, Except.ok.injEq, decide_eq_true_eq] at hseen
      exact hseen)
    (by rw [hclock', hclock'']) (by rw [hclock'']; decide) (.moveSelected 0 0) next hnext
  have hmem : 1 ∈ next.pendingMoves.map PendingMove.pieceId := by
    rw [hids]
    decide
  obtain ⟨move, hmove, hid⟩ := List.mem_map.mp hmem
  exact hground.1 move hmove hid

end KungFuChess
