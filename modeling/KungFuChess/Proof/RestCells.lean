import KungFuChess.Proof.Captures
import KungFuChess.Proof.Cooldowns
import KungFuChess.Proof.Landings

/-!
# Where the rests are

A rest is entered under the id of a piece and with the cell that the piece is on, and a piece at rest does not leave its
cell. So an entry lies where its piece is, unless the piece has been taken. A piece that is taken by an arrival loses
its entry; one that is taken by a piece that comes back keeps it.
-/

namespace KungFuChess

open Loops BoardModel

/-- The entry of a piece lies on the cell of the piece, unless the piece has been taken. -/
def RestCells (s : GameState) : Prop :=
  ∀ id rest, s.activeRests.find? id = some rest → TakenOrAt s.board id (rest.row, rest.col)

section Games

variable {s s' : GameState} {a : GameAction} {ms : Int} {id : Nat} {rest : ActiveRest}

/-- An entry of a tick is that of a landing, that of a jump that ends, or has been there before. -/
theorem enteredRests_cases (h : GameInv s) (hr : RestInv s) (hrest : (enteredRests s ms).find? id = some rest) :
    (∃ move ∈ dueMoves (s.advancedArbiter ms), move.pieceId = id ∧ rest = longRest move ∧
        TakenOrAt (s.advance ms).board id move.endPos) ∨
      (∃ jump ∈ endedJumps (s.advancedArbiter ms), jump.pieceId = id ∧ rest = shortRest jump) ∨
      id ∉ (flightsOf s.pendingMoves s.activeJumps).map Flight.id ∧ s.activeRests.find? id = some rest := by
  by_cases hmove : ∃ move ∈ dueMoves (s.advancedArbiter ms), move.pieceId = id
  · obtain ⟨move, hmem, rfl⟩ := hmove
    rcases advance_landing h hr hmem with ⟨hrested, hat⟩ | ⟨hnone, -⟩
    · rcases hrested with hsome | ⟨hnone, -⟩
      · exact .inl ⟨move, hmem, rfl, Option.some.inj (hrest.symm.trans hsome), hat⟩
      · cases hrest.symm.trans hnone
    · cases hrest.symm.trans hnone
  by_cases hjump : ∃ jump ∈ endedJumps (s.advancedArbiter ms), jump.pieceId = id
  · obtain ⟨jump, hmem, rfl⟩ := hjump
    have hentered := find?_foldl_restJumper (endedJumps (s.advancedArbiter ms))
      (settleDue .standard (s.advancedArbiter ms) s.board s.gameOver).rests (endedJumps_nodup h ms) hmem
    exact .inr (.inl ⟨jump, hmem, rfl, Option.some.inj (hrest.symm.trans hentered)⟩)
  · have hkept := @rested_advance _ id ms h (s.activeRests.find? id) (fun move hmem heq => hmove ⟨move, hmem, heq.symm⟩)
      (fun jump hmem heq => hjump ⟨jump, hmem, heq.symm⟩) (.inl rfl)
    rcases hkept with hsame | ⟨hnone, -⟩
    · have hold := hsame.symm.trans hrest
      refine .inr (.inr ⟨fun hflying => ?_, hold⟩)
      obtain ⟨f, hf, rfl⟩ := List.mem_map.mp hflying
      cases (hr.flying f hf).symm.trans hold
    · cases hrest.symm.trans hnone

/-- A jumper is back on its cell when its jump is over. -/
theorem pieceAt_advance_jump (h : GameInv s) {jump : JumpState} (hjump : jump ∈ endedJumps (s.advancedArbiter ms)) :
    ∃ q, (s.advance ms).board.pieceAt jump.cell.1 jump.cell.2 = some q ∧ q.id = jump.pieceId := by
  have hlocated := located_settleDue (s.advancedArbiter ms) GameRules.standard_keepsPieces s.gameOver h.located h.ends
  have hended : jump.flight ∈ endedFlights .standard (s.advancedArbiter ms) s.board s.gameOver :=
    List.mem_append_right _ (List.mem_map_of_mem hjump)
  obtain ⟨q, hq, hid, -⟩ := pieceAt_foldl_putBack_of_mem hlocated hended
  rw [← board_advance h] at hq
  exact ⟨q, hq, hid⟩

theorem Located.takenOrAt {b : BoardModel} {flights : List Flight} (h : Located b flights) {cell : Cell} {p : Piece}
    (hp : b.pieceAt cell.1 cell.2 = some p) : TakenOrAt b p.id cell :=
  ⟨p, (h.pieceAt_eq_some_iff.mp hp).2, .inr (h.idle_of_pieceAt hp).2⟩

theorem RestCells.advance (hc : RestCells s) (h : GameInv s) (hr : RestInv s) (ms : Int) : RestCells (s.advance ms) := by
  intro id rest hrest
  rw [find?_advance h] at hrest
  have hentered := (Option.filter_eq_some_iff.mp hrest).1
  rcases enteredRests_cases h hr hentered with ⟨move, -, -, rfl, hat⟩ | ⟨jump, hjump, rfl, rfl⟩ | ⟨hgrounded, hold⟩
  · exact hat
  · obtain ⟨q, hq, hid⟩ := pieceAt_advance_jump h hjump
    exact hid ▸ (h.advance ms).located.takenOrAt hq
  · exact (hc id rest hold).trace (h.trace ms) h.located hgrounded

/-- A piece that leaves its cell has no entry, and the others stay. -/
theorem RestCells.lift (hc : RestCells s) (h : GameInv s) {cell : Cell} {p : Piece}
    (hp : s.board.pieceAt cell.1 cell.2 = some p) (hnone : s.activeRests.find? p.id = none) :
    ∀ id rest, s.activeRests.find? id = some rest →
      TakenOrAt (s.board.lift p cell.1 cell.2) id (rest.row, rest.col) := by
  intro id rest hrest
  obtain ⟨q, hq, hwhere⟩ := hc id rest hrest
  refine ⟨q, ?_, hwhere⟩
  rw [h.located.findPieceById_lift hp, if_neg]
  · exact hq
  · intro h
    obtain rfl := h
    cases hrest.symm.trans hnone

theorem RestCells.step (hc : RestCells s) (h : GameInv s) (hr : RestInv s) (hstep : s.applyAction a = .ok s') :
    RestCells s' := by
  cases applyAction_acted h hstep with
  | quiet selected => exact hc
  | started hstart =>
      have hnone := hr.find?_eq_none hstart.piece hstart.rested
      have hp := hstart.piece
      obtain rfl := hstart.eq_withMove h.located
      exact hc.lift h hp hnone
  | jumped hp hrested selected => exact hc.lift h hp (hr.find?_eq_none hp hrested)
  | settled ms => exact hc.advance h hr ms

theorem Reachable.restCells (h : Reachable s) : RestCells s := by
  refine h.induction (fun board _ => ?_) fun mid a next hreach hstep hc => ?_
  · intro id rest h
    obtain ⟨⟩ := h
  · exact hc.step hreach.inv hreach.restInv hstep

end Games

/-! ### Entries that outlive their pieces -/

/-- The piece that is taken by one that comes back. -/
def SettleEvent.ousted : SettleEvent → Option Piece
  | .putBack _ _ occupant => occupant
  | _ => none

section Taken

variable {b : BoardModel} {f : Flight} {flights : List Flight} {e : SettleEvent} {v : Piece}
  {clockMs : Int} {jumps : List JumpState}

/-- An arrival, and a jumper, take a piece with its entry. -/
theorem Fits.erases (h : Fits b f e) (hb : Located b (f :: flights)) (hv : e.victim = some v) (hback : e.ousted = none)
    (rests : RestMap) (arrivalTime : Int) :
    v.id ∉ flights.map Flight.id ∧ (e.restsAfter .standard arrivalTime rests).find? v.id = none := by
  have hpiece := hb.idsInPlace f.id _ h.piece_eq
  cases h with
  | @landed piece cell hfind htarget hin hcolor =>
      change b.pieceAt cell.1 cell.2 = some v at hv
      have hflights : v.id ∉ (f :: flights).map Flight.id := by
        intro hmem
        obtain ⟨g, hg, hid⟩ := List.mem_map.mp hmem
        exact hb.ne_of_pieceAt hg hv hid
      have hne : v.id ≠ piece.id := by
        intro heq
        exact hflights (heq.trans hpiece ▸ List.mem_map_of_mem List.mem_cons_self)
      refine ⟨fun hmem => hflights (List.mem_cons_of_mem _ hmem), ?_⟩
      rw [SettleEvent.restsAfter, hv, scheduleRest, OrdMap.find?_insert, if_neg hne, Option.elim_some, OrdMap.find?_erase,
        if_pos rfl]
  | shotDown hfind hcolor =>
      cases hv
      refine ⟨hpiece ▸ (List.nodup_cons.mp hb.idsNodup).1, ?_⟩
      rw [SettleEvent.restsAfter, OrdMap.find?_erase, if_pos rfl]
  | putBack hfind => cases hv.symm.trans hback

/-- What due moves take has no entry when they are worked off. -/
theorem find?_settled_of_taken (moves : List PendingMove) (x : Settling)
    (hb : Located x.board (moves.map PendingMove.flight ++ flights))
    (hends : ∀ move ∈ moves, x.board.InBounds move.endPos.1 move.endPos.2)
    (he : e ∈ dueEvents .standard clockMs jumps moves x) (hv : e.victim = some v) (hback : e.ousted = none) :
    v.id ∉ flights.map Flight.id ∧
      (moves.foldl (settleMove .standard clockMs jumps) x).rests.find? v.id = none := by
  induction moves generalizing x with
  | nil => cases he
  | cons move moves ih =>
      have hfits := dueEvent_fits clockMs jumps hb (hends move List.mem_cons_self)
      obtain ⟨hlocated, hends'⟩ := settleMove_located GameRules.standard_keepsPieces clockMs jumps hb hends
      rcases List.mem_cons.mp he with rfl | he
      · obtain ⟨hother, hnone⟩ := hfits.erases hb hv hback x.rests move.arrivalTime
        change v.id ∉ (moves.map PendingMove.flight ++ flights).map Flight.id at hother
        rw [List.map_append, List.mem_append, not_or] at hother
        have hmoves : ∀ other ∈ moves, v.id ≠ other.pieceId := fun other hmem heq =>
          hother.1 (List.mem_map.mpr ⟨other.flight, List.mem_map_of_mem hmem, heq.symm⟩)
        have hkept : Rested (moves.foldl (settleMove .standard clockMs jumps) _).board _ v.id none :=
          Rested.foldl_settleMove moves (settleMove .standard clockMs jumps x move) hlocated hends' hmoves (.inl hnone)
        exact ⟨hother.2, hkept.elim (fun h => h) fun h => h.1⟩
      · exact ih (settleMove .standard clockMs jumps x move) hlocated hends' he

theorem victim_of_mem_backEvents {ended : List Flight} (he : e ∈ backEvents ended b) : e.victim = e.ousted := by
  induction ended generalizing b with
  | nil => cases he
  | cons f ended ih =>
      rcases List.mem_cons.mp he with rfl | he
      · rfl
      · exact ih he

end Taken

section Ghosts

variable {s s' : GameState} {a : GameAction} {ms : Int}

/-- No entry is that of a piece that has been taken. -/
def NoGhosts (s : GameState) : Prop :=
  ∀ id rest p, s.activeRests.find? id = some rest → s.board.findPieceById id = some p → p.state ≠ .captured

/-- The piece is at rest, or about to land, and will be at rest when the tick is over. -/
def RestsBeyond (s : GameState) (ms : Int) (id : Nat) : Prop :=
  ∃ rest, s.clockMs + ms < rest.endTimeMs ∧
    (s.activeRests.find? id = some rest ∨ ∃ move ∈ s.pendingMoves, move.pieceId = id ∧ rest = longRest move)

/-- What comes back in a tick takes no piece that would be at rest after it. -/
def SparesResting (s : GameState) (a : GameAction) : Prop :=
  ∀ ms, a = .advanceClock ms → ∀ e ∈ s.events ms, ∀ q, e.ousted = some q → ¬RestsBeyond s ms q.id

/-- A piece that is taken and keeps an entry is taken by one that comes back. -/
theorem ousted_of_entered (h : GameInv s) {e : SettleEvent} (he : e ∈ s.events ms) {v : Piece} (hv : e.victim = some v)
    {rest : ActiveRest} (hrest : (enteredRests s ms).find? v.id = some rest) : e.ousted = some v := by
  cases hback : e.ousted with
  | some q =>
      cases e with
      | putBack piece cell occupant => exact hback.symm.trans hv
      | landed => cases hback
      | shotDown => cases hback
  | none =>
      rw [GameState.events, settleEvents, h.rules, List.mem_append] at he
      rcases he with he | he
      · have hperm := flightsOf_perm .standard (s.advancedArbiter ms) s.board s.gameOver
        obtain ⟨hflights, hnone⟩ := find?_settled_of_taken (dueMoves (s.advancedArbiter ms))
          (settleStart (s.advancedArbiter ms) s.board s.gameOver) (h.located.perm hperm)
          (fun move hmove => h.ends move (List.mem_filter.mp hmove).1) he hv hback
        have hjumps : ∀ jump ∈ endedJumps (s.advancedArbiter ms), v.id ≠ jump.pieceId := fun jump hjump heq =>
          hflights (List.mem_map.mpr ⟨jump.flight, List.mem_append_left _ (List.mem_append_right _
            (List.mem_map_of_mem hjump)), heq.symm⟩)
        rw [enteredRests, find?_foldl_restJumper_of_ne _ _ _ hjumps] at hrest
        cases hrest.symm.trans hnone
      · cases hv.symm.trans ((victim_of_mem_backEvents he).trans hback)

theorem NoGhosts.advance (hg : NoGhosts s) (h : GameInv s) (hr : RestInv s) (hc : RestCells s)
    (hspares : SparesResting s (.advanceClock ms)) : NoGhosts (s.advance ms) := by
  intro id rest p' hrest hp' hcaptured
  rw [find?_advance h] at hrest
  obtain ⟨hentered, hlate⟩ := Option.filter_eq_some_iff.mp hrest
  simp only [ge_iff_le, Bool.not_eq_true', decide_eq_false_iff_not, Int.not_le] at hlate
  -- a piece that was there before is taken in the tick, by one that comes back
  have htaken : ∀ p, s.board.findPieceById id = some p → p.state ≠ .captured → ¬RestsBeyond s ms id := by
    intro p hp hstate hbeyond
    rcases ((h.trace ms).captured_iff h.located hp hp').mp hcaptured with hbefore | ⟨e, he, v, hv, rfl⟩
    · exact hstate hbefore
    · exact hspares ms rfl e he v (ousted_of_entered h he hv hentered) hbeyond
  rcases enteredRests_cases h hr hentered with ⟨move, hdue, rfl, rfl, -⟩ | ⟨jump, hjump, rfl, rfl⟩ | ⟨-, hold⟩
  · have hmove := (List.mem_filter.mp hdue).1
    have hflight : move.flight ∈ flightsOf s.pendingMoves s.activeJumps :=
      List.mem_append_left _ (List.mem_map_of_mem hmove)
    obtain ⟨p, hp, -⟩ := h.located.flightPiece _ hflight
    have hmoving := (h.located.moving _ p hp).mpr (List.mem_map_of_mem hflight)
    exact htaken p hp (by rw [hmoving]; decide) ⟨_, hlate, .inr ⟨move, hmove, rfl, rfl⟩⟩
  · obtain ⟨q, hq, hid⟩ := pieceAt_advance_jump h hjump
    have hlocated := (h.advance ms).located
    have hfind := (hlocated.pieceAt_eq_some_iff.mp hq).2
    rw [hid, hp', Option.some.injEq] at hfind
    have hidle := (hlocated.idle_of_pieceAt hq).1
    rw [← hfind, hcaptured] at hidle
    cases hidle
  · obtain ⟨p, hp, -⟩ := hc id rest hold
    exact htaken p hp (hg id rest p hold hp) ⟨rest, hlate, .inl hold⟩

/-- A piece that leaves its cell has not been taken. -/
theorem NoGhosts.lift (hg : NoGhosts s) (h : GameInv s) {cell : Cell} {p : Piece}
    (hp : s.board.pieceAt cell.1 cell.2 = some p) :
    ∀ id rest q, s.activeRests.find? id = some rest →
      (s.board.lift p cell.1 cell.2).findPieceById id = some q → q.state ≠ .captured := by
  intro id rest q hrest hq
  rw [h.located.findPieceById_lift hp] at hq
  split at hq
  · cases hq
    exact PieceState.noConfusion
  · exact hg id rest q hrest hq

theorem NoGhosts.step (hg : NoGhosts s) (h : GameInv s) (hr : RestInv s) (hc : RestCells s) (hspares : SparesResting s a)
    (hstep : s.applyAction a = .ok s') : NoGhosts s' := by
  cases applyAction_acted h hstep with
  | quiet selected => exact hg
  | started hstart =>
      have hp := hstart.piece
      obtain rfl := hstart.eq_withMove h.located
      exact hg.lift h hp
  | jumped hp hrested selected => exact hg.lift h hp
  | settled ms => exact hg.advance h hr hc hspares

theorem Visits.noGhosts {board : BoardModel} {actions : List GameAction} (hboard : AcceptedBoard board)
    (hspares : ∀ s a s', Takes board actions s a s' → SparesResting s a) (hvisits : Visits board actions s) :
    NoGhosts s := by
  refine hvisits.induction ?_ fun mid a next htakes hg => ?_
  · intro id rest p h
    obtain ⟨⟩ := h
  · have hreach := htakes.visits.1.reachable hboard
    exact hg.step hreach.inv hreach.restInv hreach.restCells (hspares mid a next htakes) htakes.applies

end Ghosts

end KungFuChess
