import KungFuChess.Proof.Splits

/-!
# Flights that keep apart

Most flights have nothing to do with each other. If none begins or ends on a cell that another one begins or ends on or
passes, each of them finds the cells it asks about as they were, whatever has come down before it. So it meets the same
end in any order of work, and ticks of every size agree.
-/

namespace KungFuChess

open Loops BoardModel GridLines

/-! ### Cells of flights -/

def Flight.Touches (f : Flight) (cell : Cell) : Prop := cell = f.origin ∨ f.target = some cell

/-- The cells that a flight touches and those that it passes. -/
def Flight.Covers (f : Flight) (cell : Cell) : Prop :=
  f.Touches cell ∨ ∃ target, f.target = some target ∧ Between (pointOf f.origin) (pointOf target) (pointOf cell)

def KeepApart (flights : List Flight) : Prop :=
  ∀ f ∈ flights, ∀ g ∈ flights, f ≠ g → ∀ cell, f.Touches cell → ¬g.Covers cell

section Cells

variable {b b' : BoardModel} {f : Flight} {flights left : List Flight} {e : SettleEvent} {cell : Cell}

/-- An event changes only the cells that its flight touches. -/
theorem Fits.pieceAt_of_not_touched (h : Fits b f e) (hb : Located b (f :: left)) (hcell : ¬f.Touches cell) :
    (e.boardAfter .standard b).pieceAt cell.1 cell.2 = b.pieceAt cell.1 cell.2 := by
  have hid := hb.idsInPlace f.id _ h.piece_eq
  cases h with
  | @landed piece target hfind htarget hin hcolor =>
      have hplaced := (GameRules.standard.landing_id GameRules.standard_keepsPieces piece target.1 b.rows).trans hid
      rw [SettleEvent.boardAfter, hb.pieceAt_land hplaced rfl hin, if_neg]
      intro hsame
      obtain rfl : cell = target := Prod.ext hsame.1 hsame.2
      exact hcell (.inr htarget)
  | shotDown hfind hcolor => exact hb.pieceAt_fall hfind cell.1 cell.2
  | @putBack piece hfind =>
      have hin := hb.originsIn f List.mem_cons_self
      rw [SettleEvent.boardAfter, hb.pieceAt_land (p := { piece with state := .idle }) hid rfl hin, if_neg]
      exact fun hsame => hcell (.inl (Prod.ext hsame.1 hsame.2))

end Cells

/-! ### Boards on which the flights find what they found -/

/-- A board in the course of a tick, with the flights that are left: they find their pieces and their cells as they were
in the state `s`. -/
structure Midway (s : GameState) (b : BoardModel) (flights : List Flight) : Prop where
  located : Located b flights
  flying : ∀ f ∈ flights, f ∈ flightsOf s.pendingMoves s.activeJumps
  rows : b.rows = s.board.rows
  cols : b.cols = s.board.cols
  pieces : ∀ f ∈ flights, b.findPieceById f.id = s.board.findPieceById f.id
  cells : ∀ f ∈ flights, ∀ cell, f.Covers cell → b.pieceAt cell.1 cell.2 = s.board.pieceAt cell.1 cell.2

section Midway

variable {s : GameState} {b b' : BoardModel} {f : Flight} {flights left : List Flight} {e : SettleEvent}
  {events : List SettleEvent} {move : PendingMove}

theorem GameInv.midway (h : GameInv s) : Midway s s.board (flightsOf s.pendingMoves s.activeJumps) where
  located := h.located
  flying _ hf := hf
  rows := rfl
  cols := rfl
  pieces _ _ := rfl
  cells _ _ _ _ := rfl

theorem Midway.perm (h : Midway s b flights) (hperm : flights.Perm left) : Midway s b left where
  located := h.located.perm hperm
  flying f hf := h.flying f (hperm.mem_iff.mpr hf)
  rows := h.rows
  cols := h.cols
  pieces f hf := h.pieces f (hperm.mem_iff.mpr hf)
  cells f hf := h.cells f (hperm.mem_iff.mpr hf)

/-- An event of one flight is none of the others' business. -/
theorem Midway.step (h : Midway s b (f :: left)) (hapart : KeepApart (flightsOf s.pendingMoves s.activeJumps))
    (hfits : Fits b f e) : Midway s (e.boardAfter .standard b) left where
  located := hfits.located GameRules.standard_keepsPieces h.located
  flying g hg := h.flying g (List.mem_cons_of_mem _ hg)
  rows := (hfits.rows_boardAfter .standard).1.trans h.rows
  cols := (hfits.rows_boardAfter .standard).2.trans h.cols
  pieces g hg := (hfits.find_flying h.located hg).trans (h.pieces g (List.mem_cons_of_mem _ hg))
  cells g hg cell hcovers := by
    have hne : f ≠ g := by
      intro heq
      exact (List.nodup_cons.mp h.located.idsNodup).1 (heq ▸ List.mem_map_of_mem hg)
    have hfar : ¬f.Touches cell := fun htouches => hapart f (h.flying f List.mem_cons_self) g
      (h.flying g (List.mem_cons_of_mem _ hg)) hne cell htouches hcovers
    exact (hfits.pieceAt_of_not_touched h.located hfar).trans (h.cells g (List.mem_cons_of_mem _ hg) cell hcovers)

theorem Midway.trace (h : Midway s b flights) (hapart : KeepApart (flightsOf s.pendingMoves s.activeJumps))
    (htrace : Trace .standard b flights events b' left) : Midway s b' left := by
  induction htrace with
  | nil hperm => exact h.perm hperm
  | cons hperm hfits _ ih => exact ih ((h.perm hperm).step hapart hfits)

theorem Midway.pieceOn_eq (h : Midway s b flights) (hmove : move.flight ∈ flights) {point : Int × Int}
    (hbetween : Between (pointOf move.startPos) (pointOf move.endPos) point) :
    b.pieceOn point = s.board.pieceOn point := by
  by_cases hneg : point.1 < 0 ∨ point.2 < 0
  · simp only [pieceOn, BoardModel.contains, if_pos hneg]
    rfl
  · have hcell := pointOf_toSize point (by omega) (by omega)
    rw [← hcell, pieceOn_pointOf, pieceOn_pointOf]
    refine h.cells _ hmove _ (.inr ⟨move.endPos, rfl, ?_⟩)
    rw [hcell]
    exact hbetween

/-- A move that keeps apart is as playable as it was. -/
theorem Midway.playable_eq (h : Midway s b flights) (hs : GameInv s) (hf : FlightInv s) (hmove : move.flight ∈ flights)
    (hpending : move ∈ s.pendingMoves) : playable b move = playable s.board move := by
  have hend := hs.ends move hpending
  have hshape := hf.shaped move hpending
  have hne := hf.apart move hpending
  have htarget : b.pieceOn (pointOf move.endPos) = s.board.pieceOn (pointOf move.endPos) := by
    rw [pieceOn_pointOf, pieceOn_pointOf]
    exact h.cells _ hmove _ (.inl (.inr rfl))
  have hclear : b.ClearBetween (pointOf move.startPos) (pointOf move.endPos) ↔
      s.board.ClearBetween (pointOf move.startPos) (pointOf move.endPos) :=
    forall_congr' fun point => forall_congr' fun hbetween => by rw [h.pieceOn_eq hmove hbetween]
  have hshape' : MoveShape b.rows move.kind move.color (pointOf move.startPos) (pointOf move.endPos) := by
    rw [h.rows]
    exact hshape
  have hend' : b.InBounds move.endPos.1 move.endPos.2 := by simpa only [InBounds, h.rows, h.cols] using hend
  rw [Bool.eq_iff_iff, playable_iff hs.located (h.flying _ hmove) hshape hne hend,
    playable_iff h.located hmove hshape' hne hend', hclear, TargetFree, TargetFree, OpponentOn, OpponentOn, htarget]

end Midway

/-! ### The events of flights that keep apart -/

namespace GameState

/-- A flight comes back. -/
def backEvent (s : GameState) (f : Flight) : SettleEvent :=
  .putBack (s.board.pieceOf f.id) f.origin (s.board.pieceAt f.origin.1 f.origin.2)

/-- A move arrives, or comes back. -/
def arrivalEvent (s : GameState) (move : PendingMove) : SettleEvent :=
  if playable s.board move then
    .landed (s.board.pieceOf move.pieceId) move.endPos (s.board.pieceAt move.endPos.1 move.endPos.2)
  else s.backEvent move.flight

end GameState

section Events

variable {s x : GameState} {b : BoardModel} {f : Flight} {flights : List Flight} {e : SettleEvent} {move : PendingMove}
  {clockMs ms : Int} {jumps : List JumpState}

theorem Midway.pieceOf_eq (h : Midway s b flights) (hf : f ∈ flights) : b.pieceOf f.id = s.board.pieceOf f.id := by
  rw [pieceOf, pieceOf, h.pieces f hf]

theorem Midway.backEvents_eq (ended : List Flight) (h : Midway s b (ended ++ flights))
    (hapart : KeepApart (flightsOf s.pendingMoves s.activeJumps)) : backEvents ended b = ended.map s.backEvent := by
  induction ended generalizing b with
  | nil => rfl
  | cons f ended ih =>
      obtain ⟨p, hp, -⟩ := h.located.findPieceById_flight
      have hfits : Fits b f (.putBack (b.pieceOf f.id) f.origin (b.pieceAt f.origin.1 f.origin.2)) := by
        rw [BoardModel.pieceOf_eq hp]
        exact .putBack hp
      have hone : SettleEvent.putBack (b.pieceOf f.id) f.origin (b.pieceAt f.origin.1 f.origin.2) = s.backEvent f := by
        rw [h.pieceOf_eq List.mem_cons_self, h.cells f List.mem_cons_self f.origin (.inl (.inl rfl))]
        rfl
      rw [backEvents, hone, List.map_cons]
      exact congrArg (s.backEvent f :: ·) (ih (h.step hapart hfits))

/-- No jumper is up over the cell that a move ends on. -/
theorem KeepApart.capturingJump (hapart : KeepApart (flightsOf s.pendingMoves s.activeJumps))
    (hmove : move ∈ s.pendingMoves) (hjumps : ∀ jump ∈ jumps, jump ∈ s.activeJumps) (color : PieceColor) :
    capturingJump clockMs jumps move.endPos color = none := by
  refine List.find?_eq_none.mpr fun jump hjump hup => ?_
  simp only [Bool.and_eq_true, beq_iff_eq] at hup
  refine hapart jump.flight (List.mem_append_right _ (List.mem_map_of_mem (hjumps jump hjump))) move.flight
    (List.mem_append_left _ (List.mem_map_of_mem hmove)) ?_ jump.cell (.inl rfl) (.inl (.inr ?_))
  · intro heq
    cases congrArg Flight.target heq
  · rw [hup.1.2]
    rfl

theorem Midway.dueEvent_eq (h : Midway s b flights) (hs : GameInv s) (hf : FlightInv s)
    (hapart : KeepApart (flightsOf s.pendingMoves s.activeJumps)) (hmove : move.flight ∈ flights)
    (hpending : move ∈ s.pendingMoves) (hjumps : ∀ jump ∈ jumps, jump ∈ s.activeJumps) :
    dueEvent clockMs jumps b move = s.arrivalEvent move := by
  have hend := h.cells _ hmove move.endPos (.inl (.inr rfl))
  have hstart := h.cells _ hmove move.startPos (.inl (.inl rfl))
  have hpiece : b.pieceOf move.pieceId = s.board.pieceOf move.pieceId := h.pieceOf_eq hmove
  rw [dueEvent, GameState.arrivalEvent, h.playable_eq hs hf hmove hpending, hpiece,
    hapart.capturingJump hpending hjumps, hend, hstart]
  rfl

theorem Midway.dueEvents_eq (hs : GameInv s) (hf : FlightInv s)
    (hapart : KeepApart (flightsOf s.pendingMoves s.activeJumps)) (hjumps : ∀ jump ∈ jumps, jump ∈ s.activeJumps)
    (moves : List PendingMove) (x : Settling) (h : Midway s x.board (moves.map PendingMove.flight ++ flights))
    (hmoves : ∀ move ∈ moves, move ∈ s.pendingMoves) :
    dueEvents .standard clockMs jumps moves x = moves.map s.arrivalEvent := by
  induction moves generalizing x with
  | nil => rfl
  | cons move moves ih =>
      have hpending := hmoves move List.mem_cons_self
      have hend : x.board.InBounds move.endPos.1 move.endPos.2 := by
        simpa only [InBounds, h.rows, h.cols] using hs.ends move hpending
      have hfits := dueEvent_fits clockMs jumps h.located hend
      rw [dueEvents, h.dueEvent_eq hs hf hapart List.mem_cons_self hpending hjumps,
        ih (settleMove .standard clockMs jumps x move) (h.step hapart hfits)
          (fun other hother => hmoves other (List.mem_cons_of_mem _ hother)), List.map_cons]

end Events

/-! ### Ticks of flights that keep apart -/

/-- A later state of a game in which the flights that are left find everything as it was in the state `s`. -/
structure Along (s x : GameState) : Prop where
  inv : GameInv x
  midway : Midway s x.board (flightsOf x.pendingMoves x.activeJumps)
  moves : ∀ move ∈ x.pendingMoves, move ∈ s.pendingMoves
  jumps : ∀ jump ∈ x.activeJumps, jump ∈ s.activeJumps

/-- Some move lands in the tick. -/
def SomeArrives (s x : GameState) (ms : Int) : Prop :=
  ∃ move ∈ x.pendingMoves, move.arrivalTime ≤ x.clockMs + ms ∧ playable s.board move = true

/-- The events of a tick: of the moves that are due, of those that are called off and of the jumps that end. -/
inductive Met (s x : GameState) (ms : Int) : SettleEvent → Prop where
  | due {move : PendingMove} (hmove : move ∈ x.pendingMoves) (hdue : move.arrivalTime ≤ x.clockMs + ms) :
      Met s x ms (s.arrivalEvent move)
  | calledOff {move : PendingMove} (hmove : move ∈ x.pendingMoves) (hup : x.clockMs + ms < move.arrivalTime)
      (hblocked : playable s.board move = false) (harrives : SomeArrives s x ms) : Met s x ms (s.backEvent move.flight)
  | jumped {jump : JumpState} (hjump : jump ∈ x.activeJumps) (hover : jump.arrivalTime ≤ x.clockMs + ms) :
      Met s x ms (s.backEvent jump.flight)

section Ticks

variable {s x : GameState} {a b ms : Int} {e : SettleEvent} {move : PendingMove}

theorem GameInv.along (h : GameInv s) : Along s s where
  inv := h
  midway := h.midway
  moves _ hmove := hmove
  jumps _ hjump := hjump

theorem Along.advance (h : Along s x) (hapart : KeepApart (flightsOf s.pendingMoves s.activeJumps)) (ms : Int) :
    Along s (x.advance ms) where
  inv := h.inv.advance ms
  midway := h.midway.trace hapart (h.inv.trace ms)
  moves move hmove := h.moves move (mem_pendingMoves_advance hmove).1
  jumps jump hjump := h.jumps jump (mem_activeJumps_advance.mp hjump).1

theorem isLanding_arrivalEvent (s : GameState) (move : PendingMove) :
    (s.arrivalEvent move).isLanding = playable s.board move := by
  unfold GameState.arrivalEvent
  split
  · rename_i hplay
    exact hplay.symm
  · rename_i hplay
    exact (Bool.eq_false_iff.mpr hplay).symm

theorem mem_dueMoves_iff : move ∈ dueMoves (x.advancedArbiter ms) ↔
    move ∈ x.pendingMoves ∧ move.arrivalTime ≤ x.clockMs + ms := by
  rw [dueMoves, List.mem_filter, PendingMove.isDue, Bool.not_eq_true', decide_eq_false_iff_not, Int.not_lt]
  rfl

theorem Along.dueEvents_eq (h : Along s x) (hs : GameInv s) (hf : FlightInv s)
    (hapart : KeepApart (flightsOf s.pendingMoves s.activeJumps)) (ms : Int) :
    x.dueEvents ms = (dueMoves (x.advancedArbiter ms)).map s.arrivalEvent :=
  Midway.dueEvents_eq hs hf hapart h.jumps (dueMoves (x.advancedArbiter ms))
    (settleStart (x.advancedArbiter ms) x.board x.gameOver)
    (h.midway.perm (dueMoves_append_perm (x.advancedArbiter ms)))
    fun move hmove => h.moves move (mem_dueMoves_iff.mp hmove).1

/-- The board is looked at again after a tick in which some move lands. -/
theorem Along.boardChanged_iff (h : Along s x) (hs : GameInv s) (hf : FlightInv s)
    (hapart : KeepApart (flightsOf s.pendingMoves s.activeJumps)) (ms : Int) :
    (settleDue .standard (x.advancedArbiter ms) x.board x.gameOver).boardChanged = true ↔ SomeArrives s x ms := by
  have hevents := h.dueEvents_eq hs hf hapart ms
  rw [GameState.dueEvents] at hevents
  rw [settleDue, boardChanged_foldl_settleMove]
  show (false || (dueEvents .standard (x.clockMs + ms) x.activeJumps _ _).any SettleEvent.isLanding) = true ↔ _
  rw [hevents, Bool.false_or, List.any_map, List.any_eq_true]
  constructor
  · intro hlands
    obtain ⟨move, hmove, hlanding⟩ := hlands
    obtain ⟨hpending, hdue⟩ := mem_dueMoves_iff.mp hmove
    exact ⟨move, hpending, hdue, (isLanding_arrivalEvent s move).symm.trans hlanding⟩
  · intro harrives
    obtain ⟨move, hpending, hdue, hplay⟩ := harrives
    exact ⟨move, mem_dueMoves_iff.mpr ⟨hpending, hdue⟩, (isLanding_arrivalEvent s move).trans hplay⟩

/-- The due moves of a tick leave the other flights alone. -/
theorem Along.midway_due (h : Along s x) (hapart : KeepApart (flightsOf s.pendingMoves s.activeJumps)) (ms : Int) :
    Midway s (settleDue .standard (x.advancedArbiter ms) x.board x.gameOver).board
      (flightsOf (flyingMoves (x.advancedArbiter ms)) x.activeJumps) :=
  h.midway.trace hapart (h.inv.trace_due ms)

theorem Along.playable_due (h : Along s x) (hs : GameInv s) (hf : FlightInv s)
    (hapart : KeepApart (flightsOf s.pendingMoves s.activeJumps)) (hmove : move ∈ flyingMoves (x.advancedArbiter ms)) :
    playable (settleDue .standard (x.advancedArbiter ms) x.board x.gameOver).board move = playable s.board move :=
  (h.midway_due hapart ms).playable_eq hs hf (List.mem_append_left _ (List.mem_map_of_mem hmove))
    (h.moves move (mem_flyingMoves.mp hmove).1)

theorem Along.mem_cancelledMoves_iff (h : Along s x) (hs : GameInv s) (hf : FlightInv s)
    (hapart : KeepApart (flightsOf s.pendingMoves s.activeJumps)) :
    move ∈ cancelledMoves (settleDue .standard (x.advancedArbiter ms) x.board x.gameOver)
        (flyingMoves (x.advancedArbiter ms)) ↔
      move ∈ flyingMoves (x.advancedArbiter ms) ∧ playable s.board move = false ∧ SomeArrives s x ms := by
  rw [← h.boardChanged_iff hs hf hapart ms, cancelledMoves]
  split
  · rename_i hchanged
    rw [List.mem_filter, Bool.not_eq_true']
    refine and_congr_right fun hmove => ?_
    rw [h.playable_due hs hf hapart hmove, and_iff_left hchanged]
  · rename_i hchanged
    exact iff_of_false List.not_mem_nil fun hcancelled => hchanged hcancelled.2.2

/-- A move that is not due stays in the air unless some other lands and it has lost its way. -/
theorem Along.mem_pendingMoves_advance_iff (h : Along s x) (hs : GameInv s) (hf : FlightInv s)
    (hapart : KeepApart (flightsOf s.pendingMoves s.activeJumps)) :
    move ∈ (x.advance ms).pendingMoves ↔
      move ∈ flyingMoves (x.advancedArbiter ms) ∧ (SomeArrives s x ms → playable s.board move = true) := by
  show move ∈ keptMoves (settleDue x.rules (x.advancedArbiter ms) x.board x.gameOver) _ ↔ _
  rw [h.inv.rules, ← h.boardChanged_iff hs hf hapart ms, keptMoves]
  split
  · rename_i hchanged
    rw [List.mem_filter]
    refine and_congr_right fun hmove => ?_
    rw [h.playable_due hs hf hapart hmove, forall_prop_of_true hchanged]
  · rename_i hchanged
    exact (and_iff_left fun hlands => absurd hlands hchanged).symm

theorem Along.mem_events_iff (h : Along s x) (hs : GameInv s) (hf : FlightInv s)
    (hapart : KeepApart (flightsOf s.pendingMoves s.activeJumps)) : e ∈ x.events ms ↔ Met s x ms e := by
  have hperm := (dueMoves_append_perm (x.advancedArbiter ms)).symm.trans
    (flightsOf_perm .standard (x.advancedArbiter ms) x.board x.gameOver)
  have hback := ((h.midway_due hapart ms).perm ((List.perm_append_left_iff _).mp hperm)).backEvents_eq _ hapart
  rw [h.inv.events_eq_append, hback, h.dueEvents_eq hs hf hapart, endedFlights, List.map_append, List.map_map,
    List.map_map]
  simp only [List.mem_append, List.mem_map, mem_dueMoves_iff, h.mem_cancelledMoves_iff hs hf hapart, mem_flyingMoves,
    mem_endedJumps]
  constructor
  · intro hmem
    rcases hmem with ⟨move, ⟨hmove, hdue⟩, rfl⟩ | ⟨move, ⟨⟨hmove, hup⟩, hblocked, harrives⟩, rfl⟩ |
      ⟨jump, ⟨hjump, hover⟩, rfl⟩
    · exact .due hmove hdue
    · exact .calledOff hmove hup hblocked harrives
    · exact .jumped hjump hover
  · intro hmet
    cases hmet with
    | due hmove hdue => exact .inl ⟨_, ⟨hmove, hdue⟩, rfl⟩
    | calledOff hmove hup hblocked harrives => exact .inr (.inl ⟨_, ⟨⟨hmove, hup⟩, hblocked, harrives⟩, rfl⟩)
    | jumped hjump hover => exact .inr (.inr ⟨_, ⟨hjump, hover⟩, rfl⟩)

theorem arrivalEvent_of_blocked (hblocked : playable s.board move = false) :
    s.arrivalEvent move = s.backEvent move.flight := by
  rw [GameState.arrivalEvent, hblocked]
  rfl

/-- What is in the air between two ticks. -/
theorem mem_pendingMoves_between (hs : GameInv s) (hf : FlightInv s)
    (hapart : KeepApart (flightsOf s.pendingMoves s.activeJumps)) : move ∈ (s.advance a).pendingMoves ↔
      (move ∈ s.pendingMoves ∧ s.clockMs + a < move.arrivalTime) ∧
        (SomeArrives s s a → playable s.board move = true) := by
  rw [hs.along.mem_pendingMoves_advance_iff hs hf hapart, mem_flyingMoves]

theorem clockMs_between (s : GameState) (a b : Int) : (s.advance a).clockMs + b = s.clockMs + (a + b) :=
  Int.add_assoc _ _ _

theorem Met.of_first (hb : 0 ≤ b) (h : Met s s a e) : Met s s (a + b) e := by
  cases h with
  | due hmove hdue => exact .due hmove (by omega)
  | @calledOff move hmove hup hblocked harrives =>
      by_cases hdue : move.arrivalTime ≤ s.clockMs + (a + b)
      · rw [← arrivalEvent_of_blocked hblocked]
        exact .due hmove hdue
      · obtain ⟨other, hother, hfirst, hplay⟩ := harrives
        exact .calledOff hmove (Int.not_le.mp hdue) hblocked ⟨other, hother, by omega, hplay⟩
  | jumped hjump hover => exact .jumped hjump (by omega)

theorem Met.of_second (hs : GameInv s) (hf : FlightInv s)
    (hapart : KeepApart (flightsOf s.pendingMoves s.activeJumps)) (h : Met s (s.advance a) b e) :
    Met s s (a + b) e := by
  have hclock := clockMs_between s a b
  have hair : ∀ {move : PendingMove}, move ∈ (s.advance a).pendingMoves → move ∈ s.pendingMoves :=
    fun hmove => ((mem_pendingMoves_between hs hf hapart).mp hmove).1.1
  cases h with
  | due hmove hdue => exact .due (hair hmove) (hclock ▸ hdue)
  | calledOff hmove hup hblocked harrives =>
      obtain ⟨other, hother, hdue, hplay⟩ := harrives
      exact .calledOff (hair hmove) (hclock ▸ hup) hblocked ⟨other, hair hother, hclock ▸ hdue, hplay⟩
  | jumped hjump hover => exact .jumped (mem_activeJumps_advance.mp hjump).1 (hclock ▸ hover)

theorem Met.cut (hs : GameInv s) (hf : FlightInv s) (hapart : KeepApart (flightsOf s.pendingMoves s.activeJumps))
    (hb : 0 ≤ b) (h : Met s s (a + b) e) : Met s s a e ∨ Met s (s.advance a) b e := by
  have hclock := clockMs_between s a b
  have hair : ∀ {move : PendingMove}, move ∈ s.pendingMoves → s.clockMs + a < move.arrivalTime →
      (SomeArrives s s a → playable s.board move = true) → move ∈ (s.advance a).pendingMoves :=
    fun hmove hup hway => (mem_pendingMoves_between hs hf hapart).mpr ⟨⟨hmove, hup⟩, hway⟩
  cases h with
  | @due move hmove hdue =>
      by_cases hfirst : move.arrivalTime ≤ s.clockMs + a
      · exact .inl (.due hmove hfirst)
      have hup := Int.not_le.mp hfirst
      by_cases harrives : SomeArrives s s a
      · cases hplay : playable s.board move with
        | true => exact .inr (.due (hair hmove hup fun _ => hplay) (hclock ▸ hdue))
        | false =>
            rw [arrivalEvent_of_blocked hplay]
            exact .inl (.calledOff hmove hup hplay harrives)
      · exact .inr (.due (hair hmove hup fun hlands => absurd hlands harrives) (hclock ▸ hdue))
  | @calledOff move hmove hup hblocked harrives =>
      have hlate : s.clockMs + a < move.arrivalTime := by omega
      by_cases hfirst : SomeArrives s s a
      · exact .inl (.calledOff hmove hlate hblocked hfirst)
      · -- whatever lands in the long tick lands in its second part
        obtain ⟨other, hother, hdue, hplay⟩ := harrives
        have hsecond : s.clockMs + a < other.arrivalTime :=
          Int.not_le.mp fun hearly => hfirst ⟨other, hother, hearly, hplay⟩
        have hwaits := hair hmove hlate fun hlands => absurd hlands hfirst
        exact .inr (.calledOff hwaits (hclock ▸ hup) hblocked
          ⟨other, hair hother hsecond fun _ => hplay, hclock ▸ hdue, hplay⟩)
  | @jumped jump hjump hover =>
      by_cases hfirst : jump.arrivalTime ≤ s.clockMs + a
      · exact .inl (.jumped hjump hfirst)
      · exact .inr (.jumped (mem_activeJumps_advance.mpr ⟨hjump, Int.not_le.mp hfirst⟩) (hclock ▸ hover))

/-- One tick and two have the same events. -/
theorem mem_events_append_iff (hs : GameInv s) (hf : FlightInv s)
    (hapart : KeepApart (flightsOf s.pendingMoves s.activeJumps)) (hb : 0 ≤ b) :
    e ∈ s.events a ++ (s.advance a).events b ↔ e ∈ s.events (a + b) := by
  rw [List.mem_append, hs.along.mem_events_iff hs hf hapart,
    (hs.along.advance hapart a).mem_events_iff hs hf hapart, hs.along.mem_events_iff hs hf hapart]
  exact ⟨fun h => h.elim (.of_first hb) (.of_second hs hf hapart), fun h => h.cut hs hf hapart hb⟩

end Ticks

/-! ### The same events in another order -/

section Orders

variable {s : GameState} {a b : Int} {board board' : BoardModel} {flights left : List Flight} {e : SettleEvent}
  {events events' : List SettleEvent} {id : Nat}

/-- A flight ends once. -/
theorem Trace.ownEvent_eq_some_iff (h : Trace .standard board flights events board' left) (hb : Located board flights) :
    ownEvent events id = some e ↔ e ∈ events ∧ e.piece.id = id := by
  constructor
  · intro hown
    exact ⟨List.mem_of_find?_eq_some hown, by simpa using List.find?_some hown⟩
  · intro hmine
    obtain ⟨he, rfl⟩ := hmine
    induction h with
    | nil => cases he
    | @cons board board' f flights left left' first events hperm hfits hrest ih =>
        have hb := hb.perm hperm
        have hlocated := hfits.located GameRules.standard_keepsPieces hb
        rcases List.mem_cons.mp he with rfl | he
        · exact ownEvent_cons_of_eq rfl
        · have hown := ih hlocated he
          have hended : (outcome events e.piece.id).ended = true := by rw [outcome, hown]; rfl
          have hair := ((hrest.ended_iff hlocated _).mp hended).1
          rw [ownEvent_cons_of_ne, hown]
          intro hid
          have hpiece := hb.idsInPlace f.id _ hfits.piece_eq
          exact (List.nodup_cons.mp hb.idsNodup).1 (hpiece ▸ hid ▸ hair)

theorem any_congr_of_mem_iff (hsame : ∀ e, e ∈ events ↔ e ∈ events') (p : SettleEvent → Bool) :
    events.any p = events'.any p := by
  rw [Bool.eq_iff_iff, List.any_eq_true, List.any_eq_true]
  exact exists_congr fun e => and_congr_left fun _ => hsame e

/-- The order of the events is of no account to the pieces. -/
theorem Trace.outcome_congr {board'' : BoardModel} {left' : List Flight}
    (h : Trace .standard board flights events board' left) (h' : Trace .standard board flights events' board'' left')
    (hb : Located board flights) (hsame : ∀ e, e ∈ events ↔ e ∈ events') (id : Nat) :
    outcome events id = outcome events' id := by
  have hown : ownEvent events id = ownEvent events' id := by
    refine Option.ext fun e => ?_
    rw [h.ownEvent_eq_some_iff hb, h'.ownEvent_eq_some_iff hb, hsame]
  rw [outcome, outcome, hown, any_congr_of_mem_iff hsame, any_congr_of_mem_iff hsame]

/-- If no flight begins or ends on a cell that another one begins or ends on or passes, every piece meets the same end
in one tick and in two. -/
theorem KeepApart.endAlike (hapart : KeepApart (flightsOf s.pendingMoves s.activeJumps)) (hreach : Reachable s)
    (hb : 0 ≤ b) : EndAlike s (a + b) (s.branches [a + b]) (s.branches [a, b]) := by
  have hs := hreach.inv
  rw [hs.branches_one, hs.branches_two hreach.restInv]
  have hsame : ∀ e, e ∈ s.events (a + b) ↔ e ∈ s.events a ++ (s.advance a).events b :=
    fun e => (mem_events_append_iff hs hreach.flightInv hapart hb).symm
  have hsplit := (hs.trace a).append ((hs.advance a).trace b)
  exact .of_outcomes (fun p _ => (hs.trace (a + b)).outcome_congr hsplit hs.located hsame p.id)
    (any_congr_of_mem_iff hsame _)

end Orders

end KungFuChess
