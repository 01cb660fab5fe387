import KungFuChess.Proof.Flights
import KungFuChess.Proof.Winner

/-!
# Landings

After a landing the flights that have become impossible are called off, all on the board as the landings leave it. Then
their pieces come back, and those of the jumps that are over, and nobody looks at the flights that are left again. So a
flight is left without a way exactly when one of these pieces comes back in its way.
-/

namespace KungFuChess

open Loops BoardModel GridLines

/-! ### Boards to which flights come back -/

section Back

variable {b : BoardModel} {f : Flight} {ended flights : List Flight} {move : PendingMove}

theorem rows_foldl_putBack (b : BoardModel) (ended : List Flight) :
    (ended.foldl putBack b).rows = b.rows ∧ (ended.foldl putBack b).cols = b.cols := by
  induction ended generalizing b with
  | nil => exact ⟨rfl, rfl⟩
  | cons f ended ih =>
      obtain ⟨hrows, hcols⟩ := ih (putBack b f)
      exact ⟨hrows.trans (by simp [putBack]), hcols.trans (by simp [putBack])⟩

theorem foldl_putBack_located (h : Located b (ended ++ flights)) : Located (ended.foldl putBack b) flights := by
  induction ended generalizing b with
  | nil => exact h
  | cons f ended ih => exact ih (putBack_located h)

theorem pieceAt_foldl_putBack_of_ne (h : Located b (ended ++ flights)) {cell : Cell}
    (hne : ∀ f ∈ ended, f.origin ≠ cell) :
    (ended.foldl putBack b).pieceAt cell.1 cell.2 = b.pieceAt cell.1 cell.2 := by
  induction ended generalizing b with
  | nil => rfl
  | cons f ended ih =>
      have hlater := ih (putBack_located h) fun g hg => hne g (List.mem_cons_of_mem f hg)
      exact hlater.trans (pieceAt_putBack_of_ne h (Ne.symm (hne f List.mem_cons_self)))

theorem pieceAt_foldl_putBack_of_mem (h : Located b (ended ++ flights)) (hf : f ∈ ended) :
    ∃ q, (ended.foldl putBack b).pieceAt f.origin.1 f.origin.2 = some q ∧ q.id = f.id ∧ q.color = f.color := by
  induction ended generalizing b with
  | nil => cases hf
  | cons g ended ih =>
      rcases List.mem_cons.mp hf with rfl | hf
      · obtain ⟨q, hq, hid, hcolor, -⟩ := pieceAt_putBack h
        -- no other flight comes back to the same cell
        have hothers : ∀ g ∈ ended, g.origin ≠ f.origin := by
          intro g hg heq
          exact (List.nodup_cons.mp h.originsNodup).1 (heq ▸ List.mem_map_of_mem (List.mem_append_left _ hg))
        exact ⟨q, (pieceAt_foldl_putBack_of_ne (putBack_located h) hothers).trans hq, hid, hcolor⟩
      · exact ih (putBack_located h) hf

/-- On a cell to which nothing comes back stands what stood there. -/
theorem pieceOn_foldl_putBack_of_ne (h : Located b (ended ++ flights)) {point : Int × Int}
    (hne : ∀ f ∈ ended, pointOf f.origin ≠ point) : (ended.foldl putBack b).pieceOn point = b.pieceOn point := by
  by_cases hneg : point.1 < 0 ∨ point.2 < 0
  · simp only [pieceOn, BoardModel.contains, if_pos hneg]
    rfl
  · have hcell := pointOf_toSize point (by omega) (by omega)
    rw [← hcell, pieceOn_pointOf, pieceOn_pointOf]
    exact pieceAt_foldl_putBack_of_ne h fun f hf heq => hne f hf (by rw [heq, hcell])

/-- A piece that comes back stops the move: on its way, or on the cell it ends on, unless it may be taken there. -/
def InTheWay (move : PendingMove) (f : Flight) : Prop :=
  Between (pointOf move.startPos) (pointOf move.endPos) (pointOf f.origin) ∨
    f.origin = move.endPos ∧ (f.color = move.color ∨ move.kind = .pawn ∧ move.endPos.2 = move.startPos.2)

theorem playable_foldl_putBack (h : Located b (ended ++ flights)) (hmove : move.flight ∈ flights)
    (hshape : MoveShape b.rows move.kind move.color (pointOf move.startPos) (pointOf move.endPos))
    (hne : move.startPos ≠ move.endPos) (hend : b.InBounds move.endPos.1 move.endPos.2)
    (hplay : playable b move = true) :
    playable (ended.foldl putBack b) move = true ↔ ∀ f ∈ ended, ¬InTheWay move f := by
  obtain ⟨hrows, hcols⟩ := rows_foldl_putBack b ended
  obtain ⟨hclear, hfree⟩ := (playable_iff h (List.mem_append_right _ hmove) hshape hne hend).mp hplay
  rw [playable_iff (foldl_putBack_located h) hmove (by rw [hrows]; exact hshape) hne
    (by simpa only [InBounds, hrows, hcols] using hend)]
  have hcol : (pointOf move.endPos).2 = (pointOf move.startPos).2 ↔ move.endPos.2 = move.startPos.2 := by
    simp only [pointOf, toInt, Int.natCast_inj]
  constructor
  · intro h
    obtain ⟨hclear', hfree'⟩ := h
    intro f hf hway
    obtain ⟨q, hq, -, hcolor⟩ := pieceAt_foldl_putBack_of_mem h hf
    rw [← pieceOn_pointOf] at hq
    rcases hway with hbetween | ⟨horigin, hstop⟩
    · rw [hclear' _ hbetween] at hq
      cases hq
    · rw [horigin] at hq
      rcases hfree' with ⟨hempty, -⟩ | ⟨⟨r, hr, henemy⟩, hpawn⟩
      · rw [hempty] at hq
        cases hq
      · cases hq.symm.trans hr
        rcases hstop with hfriend | ⟨hkind, hstraight⟩
        · exact henemy (hcolor.trans hfriend)
        · exact hpawn hkind (hcol.mpr hstraight)
  · intro hnone
    refine ⟨fun point hbetween => ?_, ?_⟩
    · rw [pieceOn_foldl_putBack_of_ne h]
      · exact hclear point hbetween
      · intro f hf h
        obtain rfl := h
        exact hnone f hf (.inl hbetween)
    · by_cases hback : ∃ f ∈ ended, f.origin = move.endPos
      · obtain ⟨f, hf, horigin⟩ := hback
        obtain ⟨q, hq, -, hcolor⟩ := pieceAt_foldl_putBack_of_mem h hf
        rw [horigin, ← pieceOn_pointOf] at hq
        have hstop := fun hstop => hnone f hf (.inr ⟨horigin, hstop⟩)
        refine .inr ⟨⟨q, hq, fun hfriend => hstop (.inl (hcolor.symm.trans hfriend))⟩, fun hkind hstraight => ?_⟩
        exact hstop (.inr ⟨hkind, hcol.mp hstraight⟩)
      · have hsame : (ended.foldl putBack b).pieceOn (pointOf move.endPos) = b.pieceOn (pointOf move.endPos) :=
          pieceOn_foldl_putBack_of_ne h fun f hf heq => hback ⟨f, hf, pointOf_inj heq⟩
        unfold TargetFree OpponentOn
        rw [hsame]
        exact hfree

end Back

/-! ### The flights that are left after a landing -/

section Landings

variable {s s' : GameState} {ms : Int}

/-- A due move lands in a tick. -/
def SomeoneLands (s : GameState) (ms : Int) : Prop :=
  ∃ e ∈ settleEvents s.rules (s.advancedArbiter ms) s.board s.gameOver, e.isLanding = true

/-- The board with the due moves settled. -/
def landedBoard (s : GameState) (ms : Int) : BoardModel :=
  (settleDue s.rules (s.advancedArbiter ms) s.board s.gameOver).board

/-- The flights whose piece comes back to its cell after the landings of a tick: those that have become impossible, and
the jumps that are over. -/
inductive ComesBack (s : GameState) (ms : Int) : Flight → Prop where
  | cancelled {move : PendingMove} (hmove : move ∈ s.pendingMoves) (hup : s.clockMs + ms < move.arrivalTime)
      (hblocked : canSettleMove (landedBoard s ms) move ≠ .ok true) : ComesBack s ms move.flight
  | jumped {jump : JumpState} (hjump : jump ∈ s.activeJumps) (hover : jump.arrivalTime ≤ s.clockMs + ms) :
      ComesBack s ms jump.flight

theorem isLanding_backEvents (flights : List Flight) (b : BoardModel) :
    ∀ e ∈ backEvents flights b, e.isLanding = false := by
  induction flights generalizing b with
  | nil => exact fun e he => nomatch he
  | cons f flights ih =>
      intro e he
      rcases List.mem_cons.mp he with rfl | he
      · rfl
      · exact ih _ e he

/-- A settlement notes whether any of the moves has landed. -/
theorem boardChanged_foldl_settleMove {rules : GameRules} {clockMs : Int} {jumps : List JumpState}
    (moves : List PendingMove) (x : Settling) :
    (moves.foldl (settleMove rules clockMs jumps) x).boardChanged =
      (x.boardChanged || (dueEvents rules clockMs jumps moves x).any SettleEvent.isLanding) := by
  induction moves generalizing x with
  | nil => exact (Bool.or_false _).symm
  | cons move moves ih =>
      rw [List.foldl_cons, ih, dueEvents, List.any_cons, ← Bool.or_assoc]
      rfl

theorem SomeoneLands.boardChanged (h : SomeoneLands s ms) :
    (settleDue s.rules (s.advancedArbiter ms) s.board s.gameOver).boardChanged = true := by
  obtain ⟨e, he, hlanding⟩ := h
  rw [settleDue, boardChanged_foldl_settleMove, Bool.or_eq_true, List.any_eq_true]
  rcases List.mem_append.mp he with hdue | hback
  · exact .inr ⟨e, hdue, hlanding⟩
  · rw [isLanding_backEvents _ _ e hback] at hlanding
    cases hlanding

theorem mem_endedFlights (hlands : SomeoneLands s ms) {f : Flight} :
    f ∈ endedFlights s.rules (s.advancedArbiter ms) s.board s.gameOver ↔ ComesBack s ms f := by
  rw [endedFlights, cancelledMoves, if_pos hlands.boardChanged, List.mem_append, List.mem_map, List.mem_map]
  constructor
  · intro h
    rcases h with ⟨move, hmove, rfl⟩ | ⟨jump, hjump, rfl⟩
    · obtain ⟨hflying, hblocked⟩ := List.mem_filter.mp hmove
      obtain ⟨hpending, hup⟩ := mem_flyingMoves.mp hflying
      refine .cancelled hpending hup fun hok => ?_
      have hplay := playable_iff_canSettleMove.mpr hok
      rw [landedBoard] at hplay
      rw [hplay] at hblocked
      cases hblocked
    · obtain ⟨hactive, hover⟩ := mem_endedJumps.mp hjump
      exact .jumped hactive hover
  · intro h
    rcases h with ⟨hmove, hup, hblocked⟩ | ⟨hjump, hover⟩
    · refine .inl ⟨_, List.mem_filter.mpr ⟨mem_flyingMoves.mpr ⟨hmove, hup⟩, ?_⟩, rfl⟩
      rw [Bool.not_eq_true', Bool.eq_false_iff]
      exact fun hplay => hblocked (canSettleMove_of_playable hplay)
    · exact .inr ⟨_, mem_endedJumps.mpr ⟨hjump, hover⟩, rfl⟩

theorem mem_pendingMoves_of_landing (hlands : SomeoneLands s ms) {move : PendingMove} :
    move ∈ (s.advance ms).pendingMoves ↔ move ∈ s.pendingMoves ∧ s.clockMs + ms < move.arrivalTime ∧
      canSettleMove (landedBoard s ms) move = .ok true := by
  show move ∈ keptMoves _ (flyingMoves (s.advancedArbiter ms)) ↔ _
  rw [keptMoves, if_pos hlands.boardChanged, List.mem_filter, playable_iff_canSettleMove, mem_flyingMoves, and_assoc]
  rfl

/-- After a landing every flight that is left has its way, exactly when no piece comes back in the way of one that the
landings left it. -/
theorem no_doomed_flights_iff (hreach : Reachable s) (hstep : s.addClock ms = .ok s') (hlands : SomeoneLands s ms) :
    (∀ move ∈ s'.pendingMoves, canSettleMove s'.board move = .ok true) ↔
      ∀ f, ComesBack s ms f → ∀ move ∈ s.pendingMoves, s.clockMs + ms < move.arrivalTime →
        canSettleMove (landedBoard s ms) move = .ok true → ¬InTheWay move f := by
  have hinv := hreach.inv
  have hrules : s.rules.KeepsPieces := hinv.rules ▸ GameRules.standard_keepsPieces
  obtain rfl := hinv.eq_advance hstep
  have hflights := hreach.flightInv.advance hinv ms
  have hlocated : Located (landedBoard s ms) (endedFlights s.rules (s.advancedArbiter ms) s.board s.gameOver ++
      flightsOf (s.advance ms).pendingMoves (s.advance ms).activeJumps) :=
    located_settleDue (s.advancedArbiter ms) hrules s.gameOver hinv.located hinv.ends
  obtain ⟨hrows, hcols⟩ := rows_foldl_putBack (landedBoard s ms)
    (endedFlights s.rules (s.advancedArbiter ms) s.board s.gameOver)
  have hkept : ∀ move ∈ (s.advance ms).pendingMoves, canSettleMove (landedBoard s ms) move = .ok true →
      (canSettleMove (s.advance ms).board move = .ok true ↔ ∀ f, ComesBack s ms f → ¬InTheWay move f) := by
    intro move hmove hopen
    have hend := (hinv.advance ms).ends move hmove
    have hshape := hflights.shaped move hmove
    have hback := playable_foldl_putBack hlocated (List.mem_append_left _ (List.mem_map_of_mem hmove))
      (by rw [← hrows]; exact hshape) (hflights.apart move hmove)
      ⟨lt_of_lt_of_eq hend.1 hrows, lt_of_lt_of_eq hend.2 hcols⟩ (playable_iff_canSettleMove.mpr hopen)
    rw [playable_iff_canSettleMove] at hback
    refine Iff.trans hback (forall_congr' fun f => ?_)
    rw [mem_endedFlights hlands]
  constructor
  · intro hall f hf move hmove hup hopen
    have hleft := (mem_pendingMoves_of_landing hlands).mpr ⟨hmove, hup, hopen⟩
    exact (hkept move hleft hopen).mp (hall move hleft) f hf
  · intro hnone move hleft
    obtain ⟨hmove, hup, hopen⟩ := (mem_pendingMoves_of_landing hlands).mp hleft
    exact (hkept move hleft hopen).mpr fun f hf => hnone f hf move hmove hup hopen

theorem someoneLands_iff : SomeoneLands s ms ↔
    (settleEvents s.rules (s.advancedArbiter ms) s.board s.gameOver).any SettleEvent.isLanding = true :=
  List.any_eq_true.symm

/-- The rook of the duel steps down: nothing is in the air, and nothing comes back. -/
theorem no_doomed_flights_iff_duel :
    ∃ s s', (GameState.new duelBoard).runActions [.select 0 0, .moveSelected 1 0] = .ok s ∧
      s.addClock 1000 = .ok s' ∧ SomeoneLands s 1000 ∧
      ((∀ move ∈ s'.pendingMoves, canSettleMove s'.board move = .ok true) ↔
        ∀ f, ComesBack s 1000 f → ∀ move ∈ s.pendingMoves, s.clockMs + 1000 < move.arrivalTime →
          canSettleMove (landedBoard s 1000) move = .ok true → ¬InTheWay move f) := by
  have hrun : (fun s => (settleEvents s.rules (s.advancedArbiter 1000) s.board s.gameOver).any SettleEvent.isLanding) <$>
      (GameState.new duelBoard).runActions [.select 0 0, .moveSelected 1 0] = .ok true := by decide
  obtain ⟨s, hs, hlanding⟩ := map_eq_ok.mp hrun
  have hreach : Reachable s := ⟨duelBoard, duelBoard_accepted, _, hs⟩
  have hlands := someoneLands_iff.mpr hlanding
  exact ⟨s, _, hs, addClock_eq hreach.inv 1000, hlands, no_doomed_flights_iff hreach (addClock_eq hreach.inv 1000) hlands⟩

/-- The black king lands while the rook is on its way to the cell from which the white king has jumped, and the white
king comes down there. -/
theorem doomed_flight_left :
    ¬∀ s s' ms, Reachable s → s.addClock ms = .ok s' → SomeoneLands s ms →
      ∀ move ∈ s'.pendingMoves, canSettleMove s'.board move = .ok true := by
  intro hopen
  have hrun : (fun s => (settleEvents s.rules (s.advancedArbiter 500) s.board s.gameOver).any SettleEvent.isLanding) <$>
      (GameState.new kingsBoard).runActions [.jumpAt 1 0, .select 0 2, .moveSelected 0 1, .advanceClock 500, .select 0 0,
        .moveSelected 1 0] = .ok true := by decide
  have hleft : (fun s => s.pendingMoves.map (playable s.board)) <$>
      (GameState.new kingsBoard).runActions [.jumpAt 1 0, .select 0 2, .moveSelected 0 1, .advanceClock 500, .select 0 0,
        .moveSelected 1 0, .advanceClock 500] = .ok [false] := by decide
  obtain ⟨s, hs, hlanding⟩ := map_eq_ok.mp hrun
  obtain ⟨s', hlater, hplay⟩ := map_eq_ok.mp hleft
  have hstep : s.addClock 500 = .ok s' := (runActions_singleton s _).symm.trans (runActions_after hs hlater)
  have hall := hopen s s' 500 ⟨kingsBoard, kingsBoard_accepted, _, hs⟩ hstep (someoneLands_iff.mpr hlanding)
  have hdoomed : false ∈ s'.pendingMoves.map (playable s'.board) := by
    rw [hplay]
    exact List.mem_singleton_self _
  obtain ⟨move, hmove, hblocked⟩ := List.mem_map.mp hdoomed
  rw [playable_iff_canSettleMove.mpr (hall move hmove)] at hblocked
  cases hblocked

end Landings

end KungFuChess
