import KungFuChess.Proof.Outcomes

/-!
# One tick or two

A settlement works off everything that is due at once, in the order of the requests and against the clock at the end of
the tick, so one long tick and two short ones need not agree. Which branch it takes for a move or a jump depends only on
the board and on what is in the air before the ticks, and the branches show in the state they lead to only by what they
do to each piece. So the ticks agree exactly if every piece meets the same end in both, and they do whenever the tick
can be cut between what falls due.
-/

namespace KungFuChess

open Loops BoardModel

/-! ### What a run of events leads to -/

/-- The events lead from `s` to `s'` in the time `ms`. -/
structure LeadsTo (s : GameState) (ms : Int) (events : List SettleEvent) (s' : GameState) : Prop where
  inv : GameInv s'
  restInv : RestInv s'
  trace : Trace .standard s.board (flightsOf s.pendingMoves s.activeJumps) events s'.board
    (flightsOf s'.pendingMoves s'.activeJumps)
  clock : s'.clockMs = s.clockMs + ms
  moves : ∃ keep, s'.pendingMoves = s.pendingMoves.filter keep
  jumps : s'.activeJumps = s.activeJumps.filter fun jump => !jump.isDue (s.clockMs + ms)
  rests : ∀ id rest, s'.activeRests.find? id = some rest ↔
    (outcome events id).struck = false ∧ LeftRest s ms events id rest ∧ s.clockMs + ms < rest.endTimeMs
  gameOver : s'.gameOver = (s.gameOver || events.any (SettleEvent.endsGame .standard))
  selected : s'.selected = s.selected

section LeadsTo

variable {s s' s'' : GameState} {ms a b : Int} {events events' : List SettleEvent} {id : Nat} {rest : ActiveRest}

theorem keptMoves_eq_filter (settled : Settling) (moves : List PendingMove) :
    keptMoves settled moves = moves.filter fun move => !settled.boardChanged || playable settled.board move := by
  unfold keptMoves
  split
  · rename_i hchanged
    simp [hchanged]
  · rename_i hchanged
    simp [hchanged]

/-- A tick leads to the next state by its events. -/
theorem LeadsTo.advance (h : GameInv s) (hr : RestInv s) (ms : Int) : LeadsTo s ms (s.events ms) (s.advance ms) where
  inv := h.advance ms
  restInv := hr.advance h ms
  trace := h.trace ms
  clock := rfl
  moves := by
    refine ⟨fun move => (!(settleDue s.rules (s.advancedArbiter ms) s.board s.gameOver).boardChanged ||
      playable (settleDue s.rules (s.advancedArbiter ms) s.board s.gameOver).board move) &&
        !move.isDue (s.clockMs + ms), ?_⟩
    show keptMoves _ (flyingMoves (s.advancedArbiter ms)) = _
    rw [keptMoves_eq_filter, flyingMoves, List.filter_filter]
    rfl
  jumps := rfl
  rests id rest := find?_activeRests_advance h hr
  gameOver := by
    rw [advance_gameOver, h.rules]
  selected := rfl

theorem LeadsTo.mem_pendingMoves (h : LeadsTo s ms events s') {move : PendingMove} (hmove : move ∈ s'.pendingMoves) :
    move ∈ s.pendingMoves := by
  obtain ⟨keep, hkeep⟩ := h.moves
  rw [hkeep] at hmove
  exact (List.mem_filter.mp hmove).1

theorem LeadsTo.mem_activeJumps (h : LeadsTo s ms events s') {jump : JumpState} :
    jump ∈ s'.activeJumps ↔ jump ∈ s.activeJumps ∧ s.clockMs + ms < jump.arrivalTime := by
  rw [h.jumps, List.mem_filter, JumpState.isDue, Bool.not_not, decide_eq_true_eq]

/-- A flight whose piece is in the air later is under way later. -/
theorem LeadsTo.mem_flights_of_flying (h : LeadsTo s ms events s') (hs : GameInv s) {f : Flight}
    (hf : f ∈ flightsOf s.pendingMoves s.activeJumps)
    (hid : f.id ∈ (flightsOf s'.pendingMoves s'.activeJumps).map Flight.id) :
    f ∈ flightsOf s'.pendingMoves s'.activeJumps := by
  obtain ⟨g, hg, hsame⟩ := List.mem_map.mp hid
  rw [← List.inj_on_of_nodup_map hs.located.idsNodup (h.trace.left_subset g hg) hf hsame]
  exact hg

/-- A move of a piece that is in the air later is in the queue later. -/
theorem LeadsTo.mem_pendingMoves_of_flying (h : LeadsTo s ms events s') (hs : GameInv s) {move : PendingMove}
    (hmove : move ∈ s.pendingMoves)
    (hid : move.pieceId ∈ (flightsOf s'.pendingMoves s'.activeJumps).map Flight.id) : move ∈ s'.pendingMoves := by
  have hflight := h.mem_flights_of_flying hs (List.mem_append_left _ (List.mem_map_of_mem hmove)) hid
  rcases List.mem_append.mp hflight with hflight | hflight
  · obtain ⟨other, hother, hsame⟩ := List.mem_map.mp hflight
    rw [← hs.move_eq hmove (h.mem_pendingMoves hother) (congrArg Flight.id hsame)]
    exact hother
  · obtain ⟨jump, -, hsame⟩ := List.mem_map.mp hflight
    cases congrArg Flight.target hsame

theorem LeadsTo.mem_activeJumps_of_flying (h : LeadsTo s ms events s') (hs : GameInv s) {jump : JumpState}
    (hjump : jump ∈ s.activeJumps)
    (hid : jump.pieceId ∈ (flightsOf s'.pendingMoves s'.activeJumps).map Flight.id) : jump ∈ s'.activeJumps := by
  have hflight := h.mem_flights_of_flying hs (List.mem_append_right _ (List.mem_map_of_mem hjump)) hid
  rcases List.mem_append.mp hflight with hflight | hflight
  · obtain ⟨move, -, hsame⟩ := List.mem_map.mp hflight
    cases congrArg Flight.target hsame
  · obtain ⟨other, hother, hsame⟩ := List.mem_map.mp hflight
    rw [← hs.jump_eq hjump (h.mem_activeJumps.mp hother).1 (congrArg Flight.id hsame)]
    exact hother

/-- The rests after two runs are those that the events of both leave. -/
theorem LeadsTo.rests_trans (h : LeadsTo s a events s') (h' : LeadsTo s' b events' s'') (hs : GameInv s) (hb : 0 ≤ b)
    (id : Nat) (rest : ActiveRest) : s''.activeRests.find? id = some rest ↔
      (outcome (events ++ events') id).struck = false ∧ LeftRest s (a + b) (events ++ events') id rest ∧
        s.clockMs + (a + b) < rest.endTimeMs := by
  have hclock : s'.clockMs + b = s.clockMs + (a + b) := by rw [h.clock, Int.add_assoc]
  -- what is in the air in between has met with nothing so far
  have hflying : ∀ f ∈ flightsOf s'.pendingMoves s'.activeJumps,
      (outcome events f.id).ended = false ∧ (outcome events f.id).landed = false ∧
        (outcome events f.id).taken = false ∧ (outcome events f.id).struck = false :=
    fun f hf => h.trace.outcome_flying hs.located (List.mem_map_of_mem hf)
  rw [h'.rests, hclock, struck_append, Bool.or_eq_false_iff]
  simp only [LeftRest, landed_append, hclock]
  constructor
  · intro hrest
    obtain ⟨hstruck, hleft, hlate⟩ := hrest
    rcases hleft with ⟨jump, hjump, rfl, hover, hshort⟩ | ⟨hlanded, move, hmove, rfl, hlong⟩ | hold
    · obtain ⟨-, -, -, hspared⟩ := hflying jump.flight (List.mem_append_right _ (List.mem_map_of_mem hjump))
      exact ⟨⟨hspared, hstruck⟩, .inl ⟨jump, (h.mem_activeJumps.mp hjump).1, rfl, hover, hshort⟩, hlate⟩
    · obtain ⟨hended, -, -, hspared⟩ := hflying move.flight (List.mem_append_left _ (List.mem_map_of_mem hmove))
      exact ⟨⟨hspared, hstruck⟩,
        .inr (.inl ⟨.inr ⟨hended, hlanded⟩, move, h.mem_pendingMoves hmove, rfl, hlong⟩), hlate⟩
    · obtain ⟨hspared, hleft, -⟩ := (h.rests id rest).mp hold
      refine ⟨⟨hspared, hstruck⟩, ?_, hlate⟩
      rcases hleft with ⟨jump, hjump, hid, hover, hshort⟩ | ⟨hlanded, hmove⟩ | hbefore
      · exact .inl ⟨jump, hjump, hid, by omega, hshort⟩
      · exact .inr (.inl ⟨.inl hlanded, hmove⟩)
      · exact .inr (.inr hbefore)
  · intro hrest
    obtain ⟨⟨hspared, hstruck⟩, hleft, hlate⟩ := hrest
    refine ⟨hstruck, ?_, hlate⟩
    have hbetween : LeftRest s a events id rest → s'.activeRests.find? id = some rest :=
      fun hleft => (h.rests id rest).mpr ⟨hspared, hleft, by omega⟩
    rcases hleft with ⟨jump, hjump, hid, hover, hshort⟩ | ⟨hlanded, move, hmove, hid, hlong⟩ | hbefore
    · by_cases hearly : jump.arrivalTime ≤ s.clockMs + a
      · exact .inr (.inr (hbetween (.inl ⟨jump, hjump, hid, hearly, hshort⟩)))
      · exact .inl ⟨jump, h.mem_activeJumps.mpr ⟨hjump, Int.not_le.mp hearly⟩, hid, hover, hshort⟩
    · rcases hlanded with hlanded | ⟨-, hlanded⟩
      · exact .inr (.inr (hbetween (.inr (.inl ⟨hlanded, move, hmove, hid, hlong⟩))))
      · have hair := ((h'.trace.ended_iff h.inv.located id).mp (ended_of_landed hlanded)).1
        exact .inr (.inl ⟨hlanded, move, h.mem_pendingMoves_of_flying hs hmove (hid ▸ hair), hid, hlong⟩)
    · exact .inr (.inr (hbetween (.inr (.inr hbefore))))

theorem LeadsTo.trans (h : LeadsTo s a events s') (h' : LeadsTo s' b events' s'') (hs : GameInv s) (hb : 0 ≤ b) :
    LeadsTo s (a + b) (events ++ events') s'' where
  inv := h'.inv
  restInv := h'.restInv
  trace := h.trace.append h'.trace
  clock := by rw [h'.clock, h.clock, Int.add_assoc]
  moves := by
    obtain ⟨keep, hkeep⟩ := h.moves
    obtain ⟨keep', hkeep'⟩ := h'.moves
    exact ⟨_, by rw [hkeep', hkeep, List.filter_filter]⟩
  jumps := by
    rw [h'.jumps, h.jumps, List.filter_filter, h.clock, Int.add_assoc]
    refine List.filter_congr fun jump _ => ?_
    simp only [JumpState.isDue, Bool.not_not]
    rw [← Bool.decide_and, decide_eq_decide]
    omega
  rests := h.rests_trans h' hs hb
  gameOver := by rw [h'.gameOver, h.gameOver, List.any_append, Bool.or_assoc]
  selected := h'.selected.trans h.selected

end LeadsTo

/-! ### The branches of ticks -/

/-- All that a settlement looks at: the board and what is in the air. -/
structure Sky where
  board : BoardModel
  moves : List PendingMove
  jumps : List JumpState

namespace Sky

def boardAfter (events : List SettleEvent) (b : BoardModel) : BoardModel :=
  events.foldl (fun b e => e.boardAfter .standard b) b

/-- What becomes of the due moves, each on the board that the one before it has left. -/
def dueBranches (clockMs : Int) (jumps : List JumpState) : List PendingMove → BoardModel → List SettleEvent
  | [], _ => []
  | move :: moves, b =>
      dueEvent clockMs jumps b move
        :: dueBranches clockMs jumps moves ((dueEvent clockMs jumps b move).boardAfter .standard b)

/-- The branches that a settlement takes: the due moves in the order of the requests, then, if a piece has landed, the
moves that have lost their way, then the jumps that have ended. -/
def branches (sky : Sky) (clockMs : Int) : List SettleEvent :=
  let due := dueBranches clockMs sky.jumps (sky.moves.filter (PendingMove.isDue clockMs)) sky.board
  let board := boardAfter due sky.board
  let late := sky.moves.filter fun move => !move.isDue clockMs
  let lost := if due.any SettleEvent.isLanding then late.filter fun move => !playable board move else []
  let ended := sky.jumps.filter (JumpState.isDue clockMs)
  due ++ backEvents (lost.map PendingMove.flight ++ ended.map JumpState.flight) board

/-- What is left in the air. -/
def after (sky : Sky) (clockMs : Int) : Sky where
  board := boardAfter (sky.branches clockMs) sky.board
  moves := sky.moves.filter fun move => (ownEvent (sky.branches clockMs) move.pieceId).isNone
  jumps := sky.jumps.filter fun jump => (ownEvent (sky.branches clockMs) jump.pieceId).isNone

/-- The branches of one tick after the other. -/
def run : Sky → Int → List Int → List SettleEvent
  | _, _, [] => []
  | sky, clockMs, ms :: ticks => sky.branches (clockMs + ms) ++ (sky.after (clockMs + ms)).run (clockMs + ms) ticks

end Sky

def GameState.sky (s : GameState) : Sky := ⟨s.board, s.pendingMoves, s.activeJumps⟩

def GameState.branches (s : GameState) (ticks : List Int) : List SettleEvent := s.sky.run s.clockMs ticks

section Sky

variable {b b' : BoardModel} {flights left : List Flight} {events : List SettleEvent} {s s' : GameState}
  {clockMs ms : Int} {jumps : List JumpState}

theorem Trace.board_eq (h : Trace .standard b flights events b' left) : b' = Sky.boardAfter events b := by
  induction h with
  | nil => rfl
  | cons _ _ _ ih => exact ih

theorem dueEvents_eq_dueBranches (moves : List PendingMove) (x : Settling) :
    dueEvents .standard clockMs jumps moves x = Sky.dueBranches clockMs jumps moves x.board := by
  induction moves generalizing x with
  | nil => rfl
  | cons move moves ih =>
      rw [dueEvents, Sky.dueBranches, ih]
      rfl

theorem GameInv.events_eq_branches (h : GameInv s) (ms : Int) : s.events ms = s.sky.branches (s.clockMs + ms) := by
  have hdue : s.dueEvents ms
      = Sky.dueBranches (s.clockMs + ms) s.activeJumps (dueMoves (s.advancedArbiter ms)) s.board :=
    dueEvents_eq_dueBranches _ _
  have hboard := (h.trace_due ms).board_eq
  have hchanged : (settleDue .standard (s.advancedArbiter ms) s.board s.gameOver).boardChanged
      = (s.dueEvents ms).any SettleEvent.isLanding := boardChanged_foldl_settleMove _ _
  rw [h.events_eq_append, endedFlights, cancelledMoves, hchanged, hboard, hdue]
  rfl

/-- A flight is in the air after a run exactly if it has no event. -/
theorem Trace.ownEvent_isNone_iff (h : Trace .standard b flights events b' left) (hb : Located b flights) {f : Flight}
    (hf : f ∈ flights) : (ownEvent events f.id).isNone = true ↔ f.id ∈ left.map Flight.id := by
  have hended := h.ended_iff hb f.id
  rw [and_iff_right (List.mem_map_of_mem hf)] at hended
  rw [Option.isNone_iff_eq_none, ← Option.not_isSome_iff_eq_none, ← Decidable.not_iff_not, not_not]
  exact hended

theorem LeadsTo.moves_eq (h : LeadsTo s ms events s') (hs : GameInv s) :
    s'.pendingMoves = s.pendingMoves.filter fun move => (ownEvent events move.pieceId).isNone := by
  obtain ⟨keep, hkeep⟩ := h.moves
  rw [hkeep]
  refine List.filter_congr fun move hmove => ?_
  have hkept : move ∈ s'.pendingMoves ↔ keep move = true := by rw [hkeep, List.mem_filter, and_iff_right hmove]
  have hnone := h.trace.ownEvent_isNone_iff hs.located (List.mem_append_left _ (List.mem_map_of_mem hmove))
  rw [Bool.eq_iff_iff, ← hkept]
  refine Iff.trans ⟨fun hmem => ?_, h.mem_pendingMoves_of_flying hs hmove⟩ hnone.symm
  exact List.mem_map_of_mem (List.mem_append_left _ (List.mem_map_of_mem hmem))

theorem LeadsTo.jumps_eq (h : LeadsTo s ms events s') (hs : GameInv s) :
    s'.activeJumps = s.activeJumps.filter fun jump => (ownEvent events jump.pieceId).isNone := by
  rw [h.jumps]
  refine List.filter_congr fun jump hjump => ?_
  have hkept : jump ∈ s'.activeJumps ↔ (!jump.isDue (s.clockMs + ms)) = true := by
    rw [h.jumps, List.mem_filter, and_iff_right hjump]
  have hnone := h.trace.ownEvent_isNone_iff hs.located (List.mem_append_right _ (List.mem_map_of_mem hjump))
  rw [Bool.eq_iff_iff, ← hkept]
  refine Iff.trans ⟨fun hmem => ?_, h.mem_activeJumps_of_flying hs hjump⟩ hnone.symm
  exact List.mem_map_of_mem (List.mem_append_right _ (List.mem_map_of_mem hmem))

/-- What a settlement looks at after a tick. -/
theorem GameInv.sky_advance (h : GameInv s) (hr : RestInv s) (ms : Int) :
    (s.advance ms).sky = s.sky.after (s.clockMs + ms) := by
  have hleads := LeadsTo.advance h hr ms
  rw [GameState.sky, hleads.trace.board_eq, hleads.moves_eq h, hleads.jumps_eq h, h.events_eq_branches]
  rfl

theorem GameInv.branches_one (h : GameInv s) (ms : Int) : s.branches [ms] = s.events ms := by
  rw [h.events_eq_branches]
  exact List.append_nil _

/-- The branches are the events of the ticks. -/
theorem GameInv.branches_cons (h : GameInv s) (hr : RestInv s) (ms : Int) (ticks : List Int) :
    s.branches (ms :: ticks) = s.events ms ++ (s.advance ms).branches ticks := by
  rw [h.events_eq_branches, GameState.branches, GameState.branches, h.sky_advance hr]
  rfl

theorem GameInv.branches_two (h : GameInv s) (hr : RestInv s) (a b : Int) :
    s.branches [a, b] = s.events a ++ (s.advance a).events b := by
  rw [h.branches_cons hr, (h.advance a).branches_one]

end Sky

/-! ### Runs that lead to the same state -/

/-- Every piece meets the same end in both runs. Of a piece that is taken it only matters by whom if it would be at rest
`ms` later, since what comes back leaves the rest of the piece it takes alone; and of the kings, whether one is taken by
an arrival or a jumper, since nothing else ends the game. -/
structure EndAlike (s : GameState) (ms : Int) (events events' : List SettleEvent) : Prop where
  ended : ∀ p ∈ s.board.pieces, (outcome events p.id).ended = (outcome events' p.id).ended
  landed : ∀ p ∈ s.board.pieces, (outcome events p.id).landed = (outcome events' p.id).landed
  taken : ∀ p ∈ s.board.pieces, (outcome events p.id).taken = (outcome events' p.id).taken
  struck : ∀ p ∈ s.board.pieces,
    (outcome events p.id).struck = (outcome events' p.id).struck ∨ ¬RestsBeyond s ms p.id
  kings : s.gameOver = true ∨
    events.any (SettleEvent.endsGame .standard) = events'.any (SettleEvent.endsGame .standard)

/-- It is enough that all outcomes are the same. -/
theorem EndAlike.of_outcomes {s : GameState} {ms : Int} {events events' : List SettleEvent}
    (hsame : ∀ p ∈ s.board.pieces, outcome events p.id = outcome events' p.id)
    (hkings : events.any (SettleEvent.endsGame .standard) = events'.any (SettleEvent.endsGame .standard)) :
    EndAlike s ms events events' where
  ended p hp := by rw [hsame p hp]
  landed p hp := by rw [hsame p hp]
  taken p hp := by rw [hsame p hp]
  struck p hp := .inl (by rw [hsame p hp])
  kings := .inr hkings

section Alike

variable {b : BoardModel} {flights : List Flight} {s s' s'' : GameState} {ms : Int} {events events' : List SettleEvent}
  {id : Nat} {p : Piece}

theorem Located.mem_pieces_iff (h : Located b flights) : p ∈ b.pieces ↔ b.findPieceById p.id = some p := by
  constructor
  · intro hmem
    obtain ⟨i, hi, rfl⟩ := List.mem_iff_getElem.mp hmem
    have hfind : b.findPieceById (i + 1) = some b.pieces[i] :=
      findPieceById_eq_some.mpr ⟨by omega, by simp [hi]⟩
    rw [h.idsInPlace (i + 1) _ hfind]
    exact hfind
  · intro hfind
    exact List.mem_of_getElem? (findPieceById_eq_some.mp hfind).2

theorem Located.cellId_iff (h : Located b flights) {row col : Nat} : b.cellId row col = some id ↔
    ∃ p, b.findPieceById id = some p ∧ p.state = .idle ∧ p.cell = positionOf row col := by
  refine ⟨h.onGrid row col id, fun hpiece => ?_⟩
  obtain ⟨p, hp, hidle, hcell⟩ := hpiece
  obtain ⟨row', col', hid⟩ := h.idle id p hp hidle
  obtain ⟨q, hq, -, hqcell⟩ := h.onGrid row' col' id hid
  obtain rfl : q = p := Option.some.inj (hq.symm.trans hp)
  obtain ⟨rfl, rfl⟩ := positionOf_inj (hcell.symm.trans hqcell)
  exact hid

/-- Boards of one size with the same table have the same pieces on their cells. -/
theorem Located.ext_of_findPieceById {b' : BoardModel} {flights' : List Flight} (h : Located b flights)
    (h' : Located b' flights') (hrows : b'.rows = b.rows) (hcols : b'.cols = b.cols)
    (hlength : b'.pieces.length = b.pieces.length) (hpieces : ∀ id, b'.findPieceById id = b.findPieceById id) :
    b' = b := by
  refine BoardModel.ext_of_lookup h.rect h'.rect hrows hcols (fun row col => Option.ext fun id => ?_) hlength hpieces
  rw [h'.cellId_iff, h.cellId_iff, hpieces]

/-- States that runs of one length lead to are the same if they agree on the pieces, the rests and the verdict. -/
theorem LeadsTo.eq_of_pieces (h : LeadsTo s ms events s') (h' : LeadsTo s ms events' s'') (hs : GameInv s)
    (hpieces : ∀ id, s'.board.findPieceById id = s''.board.findPieceById id)
    (hrests : ∀ id, s'.activeRests.find? id = s''.activeRests.find? id) (hover : s'.gameOver = s''.gameOver) :
    s' = s'' := by
  have hboard : s'.board = s''.board := h'.inv.located.ext_of_findPieceById h.inv.located
    (h.trace.dims.1.trans h'.trace.dims.1.symm) (h.trace.dims.2.trans h'.trace.dims.2.symm)
    (h.trace.pieces_length.trans h'.trace.pieces_length.symm) hpieces
  -- a move is in the air as long as its piece is moving
  have hair : ∀ {t : GameState} {events : List SettleEvent}, LeadsTo s ms events t → ∀ move ∈ s.pendingMoves,
      ((ownEvent events move.pieceId).isNone = true ↔
        (t.board.findPieceById move.pieceId).any (·.state == .moving) = true) := by
    intro t events ht move hmove
    have hflight : move.flight ∈ flightsOf s.pendingMoves s.activeJumps :=
      List.mem_append_left _ (List.mem_map_of_mem hmove)
    obtain ⟨p, hp, -⟩ := hs.located.flightPiece _ hflight
    have hp' := ht.trace.findPieceById_eq hs.located hp
    have hnone : (ownEvent events move.pieceId).isNone = true ↔ _ := ht.trace.ownEvent_isNone_iff hs.located hflight
    have hmoving := ht.inv.located.moving _ _ hp'
    rw [hnone, show t.board.findPieceById move.pieceId = _ from hp', Option.any_some, beq_iff_eq]
    exact hmoving.symm
  have hmoves : s'.pendingMoves = s''.pendingMoves := by
    rw [h.moves_eq hs, h'.moves_eq hs]
    refine List.filter_congr fun move hmove => ?_
    rw [Bool.eq_iff_iff, hair h move hmove, hair h' move hmove, hboard]
  have hjumps : s'.activeJumps = s''.activeJumps := h.jumps.trans h'.jumps.symm
  have hrules : s'.rules = s''.rules := h.inv.rules.trans h'.inv.rules.symm
  have hscheduler := MoveScheduler.ext hmoves hjumps (OrdMap.ext_find? hrests)
  refine GameState.ext hboard hrules (RealTimeArbiter.ext hscheduler ?_) (h.selected.trans h'.selected.symm) hover
  exact h.clock.trans h'.clock.symm

/-- Nothing happens to what is not in the table. -/
theorem Trace.outcome_of_none {b' : BoardModel} {left : List Flight} (h : Trace .standard b flights events b' left)
    (hb : Located b flights) (hnone : b.findPieceById id = none) :
    (outcome events id).landed = false ∧ (outcome events id).struck = false := by
  constructor
  · rw [Bool.eq_false_iff]
    intro hlanded
    obtain ⟨f, hf, rfl⟩ := List.mem_map.mp ((h.ended_iff hb id).mp (ended_of_landed hlanded)).1
    obtain ⟨p, hp, -⟩ := hb.flightPiece f hf
    cases hnone.symm.trans hp
  · refine struck_of_taken (Bool.eq_false_iff.mpr fun htaken => ?_)
    obtain ⟨e, he, v, hv, rfl⟩ := taken_iff.mp htaken
    obtain ⟨p, hp, -⟩ := h.victim_find hb he hv
    cases hnone.symm.trans hp

theorem LeadsTo.same_pieces_iff (h : LeadsTo s ms events s') (h' : LeadsTo s ms events' s'') (hs : GameInv s)
    (hat : AtOrigins s.board (flightsOf s.pendingMoves s.activeJumps))
    (hapart : ∀ f ∈ flightsOf s.pendingMoves s.activeJumps, f.target ≠ some f.origin) :
    (∀ id, s'.board.findPieceById id = s''.board.findPieceById id) ↔
      ∀ p ∈ s.board.pieces, (outcome events p.id).ended = (outcome events' p.id).ended ∧
        (outcome events p.id).landed = (outcome events' p.id).landed ∧
          (outcome events p.id).taken = (outcome events' p.id).taken := by
  constructor
  · intro hsame p hp
    exact (h.trace.same_record_iff h'.trace hs.located hat hapart (hs.located.mem_pieces_iff.mp hp)).mp (hsame p.id)
  · intro hsame id
    cases hp : s.board.findPieceById id with
    | some p =>
        obtain rfl := hs.located.idsInPlace id p hp
        exact (h.trace.same_record_iff h'.trace hs.located hat hapart hp).mpr
          (hsame p (hs.located.mem_pieces_iff.mpr hp))
    | none =>
        have hout : ∀ {t : GameState} {events : List SettleEvent}, LeadsTo s ms events t →
            t.board.findPieceById id = none := by
          intro t events ht
          rw [← Option.not_isSome_iff_eq_none, findPieceById_isSome, ht.trace.pieces_length, ← findPieceById_isSome, hp]
          exact Bool.false_ne_true
        rw [hout h, hout h']

/-- A piece that lands was bound for a cell. -/
theorem Trace.target_of_landed {b' : BoardModel} {left : List Flight} (h : Trace .standard b flights events b' left)
    (hb : Located b flights) {f : Flight} (hf : f ∈ flights) (hlanded : (outcome events f.id).landed = true) :
    ∃ cell, f.target = some cell := by
  obtain ⟨p, hp, -⟩ := hb.flightPiece f hf
  cases hown : ownEvent events f.id with
  | none => rw [landed_of_ownEvent_eq_none hown] at hlanded; cases hlanded
  | some e =>
      obtain ⟨-, g, hg, hid, hcloses⟩ := h.own_closes hb hp hown
      obtain rfl : g = f := List.inj_on_of_nodup_map hb.idsNodup hg hf hid
      have hlanding : e.isLanding = true := by simpa [outcome, hown] using hlanded
      cases e with
      | landed piece cell occupant => exact ⟨cell, hcloses⟩
      | shotDown => cases hlanding
      | putBack => cases hlanding

/-- A piece that is struck in one run and spared or ousted in another has the same rest after both if it would not be
at rest any more. -/
theorem LeadsTo.rest_of_struck_iff (h : LeadsTo s ms events s') (h' : LeadsTo s ms events' s'') (hs : GameInv s)
    (hlanded : (outcome events id).landed = (outcome events' id).landed)
    (htaken : (outcome events id).taken = (outcome events' id).taken) (hstruck : (outcome events id).struck = true)
    (hstruck' : (outcome events' id).struck = false) :
    s'.activeRests.find? id = s''.activeRests.find? id ↔ ¬RestsBeyond s ms id := by
  have hnone : s'.activeRests.find? id = none := by
    refine Option.eq_none_iff_forall_ne_some.mpr fun rest hrest => ?_
    rw [((h.rests id rest).mp hrest).1] at hstruck
    cases hstruck
  have htaken' : (outcome events' id).taken = true := by
    rw [← htaken]
    by_contra hspared
    rw [struck_of_taken (Bool.eq_false_iff.mpr hspared)] at hstruck
    cases hstruck
  -- in the other run a piece that comes back takes it, so it has landed if it was in the air
  have hdown : id ∈ (flightsOf s.pendingMoves s.activeJumps).map Flight.id → (outcome events' id).landed = true := by
    intro hid
    obtain ⟨e, he, v, hv, rfl⟩ := exists_ousted htaken' hstruck'
    refine h'.trace.landed_of_ousted hs.located he hv ((h'.trace.ended_iff hs.located v.id).mpr ⟨hid, fun hleft => ?_⟩)
    obtain ⟨-, -, hspared, -⟩ := h'.trace.outcome_flying hs.located hleft
    cases htaken'.symm.trans hspared
  rw [hnone, eq_comm, Option.eq_none_iff_forall_ne_some]
  constructor
  · intro hnever hbeyond
    obtain ⟨rest, hlate, hwhich⟩ := hbeyond
    refine hnever rest ((h'.rests id rest).mpr ⟨hstruck', ?_, hlate⟩)
    rcases hwhich with hold | ⟨move, hmove, rfl, hlong⟩
    · exact .inr (.inr hold)
    · have hid : move.pieceId ∈ (flightsOf s.pendingMoves s.activeJumps).map Flight.id :=
        List.mem_map.mpr ⟨move.flight, List.mem_append_left _ (List.mem_map_of_mem hmove), rfl⟩
      exact .inr (.inl ⟨hdown hid, move, hmove, rfl, hlong⟩)
  · intro hover rest hrest
    obtain ⟨-, hleft, hlate⟩ := (h'.rests id rest).mp hrest
    rcases hleft with ⟨jump, hjump, rfl, -, -⟩ | ⟨-, hmove⟩ | hold
    · have hflight : jump.flight ∈ flightsOf s.pendingMoves s.activeJumps :=
        List.mem_append_right _ (List.mem_map_of_mem hjump)
      obtain ⟨cell, htarget⟩ := h'.trace.target_of_landed hs.located hflight (hdown (List.mem_map_of_mem hflight))
      cases htarget
    · exact hover ⟨rest, hlate, .inr hmove⟩
    · exact hover ⟨rest, hlate, .inl hold⟩

theorem LeadsTo.rest_eq (h : LeadsTo s ms events s') (h' : LeadsTo s ms events' s'')
    (hlanded : (outcome events id).landed = (outcome events' id).landed)
    (hstruck : (outcome events id).struck = (outcome events' id).struck) :
    s'.activeRests.find? id = s''.activeRests.find? id := by
  refine Option.ext fun rest => ?_
  rw [h.rests, h'.rests, LeftRest, LeftRest, hlanded, hstruck]

theorem LeadsTo.same_rest_iff (h : LeadsTo s ms events s') (h' : LeadsTo s ms events' s'') (hs : GameInv s)
    (hlanded : (outcome events id).landed = (outcome events' id).landed)
    (htaken : (outcome events id).taken = (outcome events' id).taken) :
    s'.activeRests.find? id = s''.activeRests.find? id ↔
      (outcome events id).struck = (outcome events' id).struck ∨ ¬RestsBeyond s ms id := by
  cases hstruck : (outcome events id).struck with
  | true =>
      cases hstruck' : (outcome events' id).struck with
      | true => exact iff_of_true (h.rest_eq h' hlanded (hstruck.trans hstruck'.symm)) (.inl rfl)
      | false =>
          rw [h.rest_of_struck_iff h' hs hlanded htaken hstruck hstruck', or_iff_right (by decide)]
  | false =>
      cases hstruck' : (outcome events' id).struck with
      | true =>
          rw [eq_comm, h'.rest_of_struck_iff h hs hlanded.symm htaken.symm hstruck' hstruck,
            or_iff_right (by decide)]
      | false => exact iff_of_true (h.rest_eq h' hlanded (hstruck.trans hstruck'.symm)) (.inl rfl)

/-- Two runs of events lead to the same state exactly if every piece meets the same end in both. -/
theorem LeadsTo.eq_iff (h : LeadsTo s ms events s') (h' : LeadsTo s ms events' s'') (hs : GameInv s)
    (hat : AtOrigins s.board (flightsOf s.pendingMoves s.activeJumps))
    (hapart : ∀ f ∈ flightsOf s.pendingMoves s.activeJumps, f.target ≠ some f.origin) :
    s' = s'' ↔ EndAlike s ms events events' := by
  have hpieces := h.same_pieces_iff h' hs hat hapart
  have hverdict : s'.gameOver = s''.gameOver ↔ s.gameOver = true ∨
      events.any (SettleEvent.endsGame .standard) = events'.any (SettleEvent.endsGame .standard) := by
    rw [h.gameOver, h'.gameOver]
    cases s.gameOver <;> simp
  constructor
  · intro hsame
    have hends := hpieces.mp (fun id => by rw [hsame])
    exact ⟨fun p hp => (hends p hp).1, fun p hp => (hends p hp).2.1, fun p hp => (hends p hp).2.2,
      fun p hp => (h.same_rest_iff h' hs (hends p hp).2.1 (hends p hp).2.2).mp (by rw [hsame]),
      hverdict.mp (by rw [hsame])⟩
  · intro halike
    refine h.eq_of_pieces h' hs ?_ (fun id => ?_) (hverdict.mpr halike.kings)
    · exact hpieces.mpr fun p hp => ⟨halike.ended p hp, halike.landed p hp, halike.taken p hp⟩
    · cases hp : s.board.findPieceById id with
      | some p =>
          obtain rfl := hs.located.idsInPlace id p hp
          have hmem := hs.located.mem_pieces_iff.mpr hp
          exact (h.same_rest_iff h' hs (halike.landed p hmem) (halike.taken p hmem)).mpr (halike.struck p hmem)
      | none =>
          obtain ⟨hlanded, hstruck⟩ := h.trace.outcome_of_none hs.located hp
          obtain ⟨hlanded', hstruck'⟩ := h'.trace.outcome_of_none hs.located hp
          exact h.rest_eq h' (hlanded.trans hlanded'.symm) (hstruck.trans hstruck'.symm)

end Alike

/-! ### The cells that flights have left -/

section Games

variable {s s' : GameState} {a : GameAction} {b : BoardModel} {flights : List Flight} {p : Piece} {cell : Cell}

theorem AtOrigins.lift (hat : AtOrigins b flights) (h : Located b flights) (hp : b.pieceAt cell.1 cell.2 = some p)
    {f : Flight} (hid : f.id = p.id) (horigin : f.origin = cell) :
    AtOrigins (b.lift p cell.1 cell.2) (f :: flights) := by
  intro g hg q hq
  rw [h.findPieceById_lift hp] at hq
  rcases List.mem_cons.mp hg with rfl | hg
  · rw [if_pos hid, Option.some.injEq] at hq
    rw [← hq, horigin]
    exact (h.idle_of_pieceAt hp).2
  · rw [if_neg (h.ne_of_pieceAt hg hp)] at hq
    exact hat g hg q hq

theorem AtOrigins.perm {flights' : List Flight} (hat : AtOrigins b flights) (hperm : flights'.Perm flights) :
    AtOrigins b flights' := fun f hf => hat f (hperm.mem_iff.mp hf)

theorem AtOrigins.advance (hat : AtOrigins s.board (flightsOf s.pendingMoves s.activeJumps)) (h : GameInv s)
    (ms : Int) : AtOrigins (s.advance ms).board (flightsOf (s.advance ms).pendingMoves (s.advance ms).activeJumps) := by
  intro f hf q hq
  have hflight := (h.trace ms).left_subset f hf
  obtain ⟨p, hp, -⟩ := h.located.flightPiece f hflight
  obtain ⟨hended, hlanded, htaken, -⟩ := (h.trace ms).outcome_flying h.located (List.mem_map_of_mem hf)
  have hrecord := (h.trace ms).find_outcome h.located hat hp
  rw [hq, Option.some.injEq, Outcome.record, hended, hlanded, htaken] at hrecord
  rw [hrecord]
  exact hat f hflight p hp

theorem AtOrigins.step (hat : AtOrigins s.board (flightsOf s.pendingMoves s.activeJumps)) (h : GameInv s)
    (hstep : s.applyAction a = .ok s') : AtOrigins s'.board (flightsOf s'.pendingMoves s'.activeJumps) := by
  cases applyAction_acted h hstep with
  | quiet selected => exact hat
  | started hstart =>
      have hp := hstart.piece
      obtain rfl := hstart.eq_withMove h.located
      exact (hat.lift h.located hp rfl rfl).perm (flightsOf_append_move _ _ _)
  | jumped hp _ selected => exact (hat.lift h.located hp rfl rfl).perm (flightsOf_append_jump _ _ _)
  | settled ms => exact hat.advance h ms

theorem Reachable.atOrigins (h : Reachable s) : AtOrigins s.board (flightsOf s.pendingMoves s.activeJumps) := by
  refine h.induction (fun board _ => ?_) fun mid a next hreach hstep hat => AtOrigins.step hat hreach.inv hstep
  intro f hf
  obtain ⟨⟩ := hf

theorem FlightInv.target_ne_origin (hf : FlightInv s) {f : Flight}
    (hflight : f ∈ flightsOf s.pendingMoves s.activeJumps) : f.target ≠ some f.origin := by
  rcases List.mem_append.mp hflight with hmem | hmem
  · obtain ⟨move, hmove, rfl⟩ := List.mem_map.mp hmem
    exact fun heq => hf.apart move hmove (Option.some.inj heq).symm
  · obtain ⟨jump, -, rfl⟩ := List.mem_map.mp hmem
    intro heq
    cases heq

end Games

/-! ### One tick or two -/

section Ticks

variable {s : GameState} {a b : Int}

theorem advance_add_iff (hreach : Reachable s) (hb : 0 ≤ b) :
    s.advance (a + b) = (s.advance a).advance b ↔ EndAlike s (a + b) (s.branches [a + b]) (s.branches [a, b]) := by
  have hinv := hreach.inv
  have hrest := hreach.restInv
  rw [hinv.branches_one, hinv.branches_two hrest]
  have hone := LeadsTo.advance hinv hrest (a + b)
  have hfirst := LeadsTo.advance hinv hrest a
  have htwo := hfirst.trans (LeadsTo.advance hfirst.inv hfirst.restInv b) hinv hb
  exact hone.eq_iff htwo hinv hreach.atOrigins fun f hf => hreach.flightInv.target_ne_origin hf

/-- A tick of `a + b` can be cut after `a`: nothing falls due in the first part, or else no move falls due in the second
part, and no jump ends there while an opponent's move of the first part ends on its cell. -/
def CutsCleanly (s : GameState) (a b : Int) : Prop :=
  ((∀ move ∈ s.pendingMoves, s.clockMs + a < move.arrivalTime) ∧
      ∀ jump ∈ s.activeJumps, s.clockMs + a < jump.arrivalTime) ∨
    ((∀ move ∈ s.pendingMoves,
        move.arrivalTime ≤ s.clockMs + a ∨ s.clockMs + a + b < move.arrivalTime) ∧
      ∀ move ∈ s.pendingMoves, move.arrivalTime ≤ s.clockMs + a → ∀ jump ∈ s.activeJumps,
        jump.cell = move.endPos → jump.color ≠ move.color →
          jump.arrivalTime < s.clockMs + a ∨ s.clockMs + a + b ≤ jump.arrivalTime)

/-- In a tick that can be cut every piece meets the same end as in its two parts. -/
theorem CutsCleanly.endAlike (hcut : CutsCleanly s a b) (hreach : Reachable s) (hb : 0 ≤ b) :
    EndAlike s (a + b) (s.branches [a + b]) (s.branches [a, b]) := by
  refine (advance_add_iff hreach hb).mp ?_
  rcases hcut with ⟨hmoves, hjumps⟩ | ⟨hgap, hwindows⟩
  · exact (advance_add_of_idle hb hmoves hjumps).symm
  · exact (advance_add_of_gap hreach.inv hb hgap hwindows).symm

/-- Two rooks on the first and the last row. -/
def rooksBoard : BoardModel :=
  ⟨[[some 1, none, none], [none, none, none], [some 2, none, none]],
    [⟨1, .white, .rook, ⟨0, 0⟩, .idle⟩, ⟨2, .black, .rook, ⟨2, 0⟩, .idle⟩]⟩

theorem rooksBoard_accepted : AcceptedBoard rooksBoard :=
  ⟨["wR . .".toList, ". . .".toList, "bR . .".toList], ⟨[], []⟩, by decide⟩

end Ticks

end KungFuChess
