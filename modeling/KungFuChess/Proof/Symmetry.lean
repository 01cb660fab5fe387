import KungFuChess.Proof.MirroredText
import KungFuChess.Proof.Winner

/-!
# Games and their mirror images

A game played upside down with the colours swapped is the mirror image of the game, step by step. The
settlement keeps the relation between the two sides event by event; each action of `GameState` makes the
same decisions on both.
-/

namespace KungFuChess

open Loops BoardModel

namespace Mirror

variable {M : Mirror} {b b' : BoardModel} {rules : GameRules}

/-- A rest belongs to the renamed piece. -/
def Rests (M : Mirror) (rests rests' : RestMap) : Prop :=
  ∀ id, rests'.find? (M.rename id) = (rests.find? id).map M.rest

def event (M : Mirror) : SettleEvent → SettleEvent
  | .landed piece cell occupant => .landed (M.piece piece) (M.cell cell) (occupant.map M.piece)
  | .shotDown piece jump => .shotDown (M.piece piece) (M.jump jump)
  | .putBack piece cell occupant => .putBack (M.piece piece) (M.cell cell) (occupant.map M.piece)

structure Settlings (M : Mirror) (s s' : Settling) : Prop where
  boards : M.Boards s.board s'.board
  rests : M.Rests s.rests s'.rests
  gameOver : s'.gameOver = s.gameOver
  boardChanged : s'.boardChanged = s.boardChanged

/-! ### Rests -/

section Rests

variable {rests rests' : RestMap}

theorem Rests.erase (h : M.Rests rests rests') (id : Nat) :
    M.Rests (rests.erase id) (rests'.erase (M.rename id)) := by
  intro other
  rw [OrdMap.find?_erase, OrdMap.find?_erase]
  simp only [rename_inj]
  split
  · rfl
  · exact h other

theorem Rests.scheduleRest (h : M.Rests rests rests') (id : Nat) (kind : RestKind)
    (arrivalTime duration : Int) (cell : Cell) :
    M.Rests (scheduleRest rests id kind arrivalTime duration cell)
      (scheduleRest rests' (M.rename id) kind arrivalTime duration (M.cell cell)) := by
  intro other
  simp only [KungFuChess.scheduleRest, OrdMap.find?_insert, rename_inj]
  split
  · rfl
  · exact h other

theorem Rests.expireRests (h : M.Rests rests rests') (clockMs : Int) :
    M.Rests (expireRests clockMs rests) (expireRests clockMs rests') := by
  intro id
  simp only [KungFuChess.expireRests, OrdMap.find?_filter, h id]
  cases rests.find? id with
  | none => rfl
  | some rest =>
      simp only [Option.map_some, Option.filter, Mirror.rest]
      split <;> rfl

end Rests

/-! ### Events -/

theorem capturingJump_map (M : Mirror) (clockMs : Int) (jumps : List JumpState) (target : Cell)
    (color : PieceColor) :
    capturingJump clockMs (jumps.map M.jump) (M.cell target) color.swap
      = (capturingJump clockMs jumps target color).map M.jump := by
  rw [capturingJump, List.find?_map, capturingJump]
  refine congrArg (Option.map M.jump) (congrArg (fun test => jumps.find? test) ?_)
  funext jump
  have hcell : (M.cell jump.cell == M.cell target) = (jump.cell == target) := by
    rw [Bool.eq_iff_iff, beq_iff_eq, beq_iff_eq, cell_inj]
  have hcolor : (color.swap != jump.color.swap) = (color != jump.color) := by
    rw [Bool.eq_iff_iff, bne_iff_ne, bne_iff_ne, Ne, PieceColor.swap_inj]
  simp only [Function.comp_apply, Mirror.jump, hcell, hcolor]
  rfl

theorem pieceOf (h : M.Boards b b') {id : Nat} {p : Piece} (hp : b.findPieceById id = some p) :
    b'.pieceOf (M.rename id) = M.piece (b.pieceOf id) := by
  have hp' := h.findPieceById id
  rw [hp] at hp'
  rw [pieceOf_eq hp', pieceOf_eq hp]

section Events

variable {flights : List Flight} {move : PendingMove} {f : Flight}

theorem playable_move (h : M.Boards b b') (hb : Located b flights) (hmove : move.flight ∈ flights)
    (hend : b.InBounds move.endPos.1 move.endPos.2) : playable b' (M.move move) = playable b move := by
  obtain ⟨p, hp, -⟩ := hb.flightPiece _ hmove
  rw [playable, playable, h.canSettleMove hp (hb.originsIn _ hmove) hend]

theorem dueEvent_move (h : M.Boards b b') (hb : Located b (move.flight :: flights))
    (hend : b.InBounds move.endPos.1 move.endPos.2) (clockMs : Int) (jumps : List JumpState) :
    dueEvent clockMs (jumps.map M.jump) b' (M.move move) = M.event (dueEvent clockMs jumps b move) := by
  obtain ⟨p, hp, -⟩ := hb.findPieceById_flight
  have hpiece : b'.pieceOf (M.move move).pieceId = M.piece (b.pieceOf move.pieceId) := pieceOf h hp
  unfold dueEvent
  dsimp only
  rw [hpiece, playable_move h hb List.mem_cons_self hend]
  split
  · have hjump := capturingJump_map M clockMs jumps move.endPos (b.pieceOf move.pieceId).color
    simp only [Mirror.move, Mirror.piece] at hjump ⊢
    rw [hjump]
    cases capturingJump clockMs jumps move.endPos (b.pieceOf move.pieceId).color with
    | none => simp only [Option.map_none, Mirror.event, Mirror.piece, Mirror.cell, h.pieceAt]
    | some jump => rfl
  · simp only [Mirror.event, Mirror.move, Mirror.cell, h.pieceAt]

theorem promotePawnToQueen_piece (p : Piece) {row : Nat} (hrow : row < M.rows) :
    promotePawnToQueen (M.piece p) (M.row row) M.rows = M.piece (promotePawnToQueen p row M.rows) := by
  have hkind : (M.piece p).kind = p.kind := rfl
  have hfirst : (M.row row == M.rows - 1) = (row == 0) := by
    rw [Bool.eq_iff_iff, beq_iff_eq, beq_iff_eq, row_of_lt hrow]
    omega
  have hlast : (M.row row == 0) = (row == M.rows - 1) := by
    rw [Bool.eq_iff_iff, beq_iff_eq, beq_iff_eq, row_of_lt hrow]
    omega
  unfold promotePawnToQueen
  rw [hkind]
  split
  · rfl
  · dsimp only
    rw [isWhite_piece, isBlack_piece, hfirst, hlast, p.isBlack_eq]
    cases p.isWhite
    · simp only [Bool.not_false, Bool.true_and, Bool.false_and, Bool.false_eq_true, if_false]
      split <;> rfl
    · simp only [Bool.not_true, Bool.true_and, Bool.false_and, Bool.false_eq_true, if_false]
      split <;> rfl

theorem Boards.boardAfter {e : SettleEvent} (h : M.Boards b b') (hb : Located b (f :: flights))
    (hfits : Fits b f e) :
    M.Boards (e.boardAfter .standard b) ((M.event e).boardAfter .standard b') := by
  have hid := hb.idsInPlace f.id _ hfits.piece_eq
  cases hfits with
  | @landed piece cell hfind htarget hin hcolor =>
      have hrow : cell.1 < M.rows := h.rows ▸ hin.1
      have hlanding : GameRules.standard.landing (M.piece piece) (M.row cell.1) b'.rows
          = M.piece (GameRules.standard.landing piece cell.1 b.rows) := by
        rw [h.rows, h.rows']
        exact congrArg (fun p : Piece => { p with state := .idle }) (promotePawnToQueen_piece piece hrow)
      show M.Boards _ (b'.land (GameRules.standard.landing (M.piece piece) (M.row cell.1) b'.rows) _ _)
      rw [hlanding]
      exact h.land hb ((GameRules.landing_id GameRules.standard_keepsPieces _ _ _).trans hid) hin
  | @shotDown piece jump hfind hcolor =>
      rw [← hid] at hfind
      exact h.setPiece (p := { piece with state := .captured }) hfind
  | @putBack piece hfind =>
      exact h.land (p := { piece with state := .idle }) hb hid (hb.originsIn f List.mem_cons_self)

theorem gameOverAfter_event (M : Mirror) (gameOver : Bool) (e : SettleEvent) :
    (M.event e).gameOverAfter .standard gameOver = e.gameOverAfter .standard gameOver := by
  cases e with
  | landed piece cell occupant => cases occupant <;> rfl
  | shotDown piece jump => rfl
  | putBack piece cell occupant => rfl

theorem Rests.restsAfter {rests rests' : RestMap} (h : M.Rests rests rests') (arrivalTime : Int)
    (e : SettleEvent) :
    M.Rests (e.restsAfter rules arrivalTime rests) ((M.event e).restsAfter rules arrivalTime rests') := by
  cases e with
  | landed piece cell occupant =>
      cases occupant with
      | none => exact h.scheduleRest _ _ _ _ _
      | some q => exact (h.erase q.id).scheduleRest _ _ _ _ _
  | shotDown piece jump => exact h.erase _
  | putBack piece cell occupant => exact h

theorem isLanding_event (M : Mirror) (e : SettleEvent) : (M.event e).isLanding = e.isLanding := by
  cases e <;> rfl

theorem Settlings.settleMove {s s' : Settling} (h : M.Settlings s s')
    (hb : Located s.board (move.flight :: flights))
    (hend : s.board.InBounds move.endPos.1 move.endPos.2) (clockMs : Int) (jumps : List JumpState) :
    M.Settlings (settleMove .standard clockMs jumps s move)
      (settleMove .standard clockMs (jumps.map M.jump) s' (M.move move)) := by
  have hevent := dueEvent_move h.boards hb hend clockMs jumps
  unfold KungFuChess.settleMove
  dsimp only
  rw [hevent]
  refine ⟨h.boards.boardAfter hb (dueEvent_fits clockMs jumps hb hend), ?_, ?_, ?_⟩
  · exact h.rests.restsAfter _ _
  · rw [gameOverAfter_event, h.gameOver]
  · rw [isLanding_event, h.boardChanged]

theorem Settlings.foldl_settleMove (clockMs : Int) (jumps : List JumpState) (moves : List PendingMove)
    {s s' : Settling} (h : M.Settlings s s')
    (hb : Located s.board (moves.map PendingMove.flight ++ flights))
    (hends : ∀ move ∈ moves, s.board.InBounds move.endPos.1 move.endPos.2) :
    M.Settlings (moves.foldl (KungFuChess.settleMove .standard clockMs jumps) s)
      ((moves.map M.move).foldl (KungFuChess.settleMove .standard clockMs (jumps.map M.jump)) s') := by
  induction moves generalizing s s' with
  | nil => exact h
  | cons move moves ih =>
      have hend := hends move List.mem_cons_self
      obtain ⟨hlocated, hends'⟩ := settleMove_located GameRules.standard_keepsPieces clockMs jumps hb hends
      exact ih (h.settleMove hb hend clockMs jumps) hlocated hends'

/-! ### Pieces that come back -/

def flight (M : Mirror) (f : Flight) : Flight :=
  ⟨M.rename f.id, f.color.swap, f.kind, M.cell f.origin, f.target.map M.cell⟩

theorem Boards.putBack (h : M.Boards b b') (hb : Located b (f :: flights)) :
    M.Boards (putBack b f) (putBack b' (M.flight f)) := by
  obtain ⟨p, hp, hid, -⟩ := hb.findPieceById_flight
  have hpiece : b'.pieceOf (M.flight f).id = M.piece (b.pieceOf f.id) := pieceOf h hp
  unfold KungFuChess.putBack
  rw [hpiece, pieceOf_eq hp]
  exact h.land (p := { p with state := .idle }) hb hid (hb.originsIn f List.mem_cons_self)

theorem Boards.foldl_putBack (ended : List Flight) (h : M.Boards b b')
    (hb : Located b (ended ++ flights)) :
    M.Boards (ended.foldl KungFuChess.putBack b) ((ended.map M.flight).foldl KungFuChess.putBack b') := by
  induction ended generalizing b b' with
  | nil => exact h
  | cons f ended ih => exact ih (h.putBack hb) (putBack_located hb)

theorem Rests.foldl_restJumper (rules : GameRules) (jumps : List JumpState) {rests rests' : RestMap}
    (h : M.Rests rests rests') :
    M.Rests (jumps.foldl (restJumper rules) rests)
      ((jumps.map M.jump).foldl (restJumper rules) rests') := by
  induction jumps generalizing rests rests' with
  | nil => exact h
  | cons jump jumps ih => exact ih (h.scheduleRest _ _ _ _ _)

/-- The same moves in flight are cancelled on both sides. -/
theorem Settlings.cancelledMoves {s s' : Settling} (h : M.Settlings s s') (moves : List PendingMove)
    (hplay : ∀ move ∈ moves, playable s'.board (M.move move) = playable s.board move) :
    cancelledMoves s' (moves.map M.move) = (cancelledMoves s moves).map M.move ∧
      keptMoves s' (moves.map M.move) = (keptMoves s moves).map M.move := by
  unfold KungFuChess.cancelledMoves keptMoves
  rw [h.boardChanged, List.filter_map, List.filter_map]
  split
  · refine ⟨congrArg (List.map M.move) (List.filter_congr ?_),
      congrArg (List.map M.move) (List.filter_congr hplay)⟩
    intro move hmove
    exact congrArg (!·) (hplay move hmove)
  · exact ⟨rfl, rfl⟩

end Events

/-! ### Settlements -/

structure States (M : Mirror) (s s' : GameState) : Prop where
  boards : M.Boards s.board s'.board
  pendingMoves : s'.pendingMoves = s.pendingMoves.map M.move
  activeJumps : s'.activeJumps = s.activeJumps.map M.jump
  activeRests : M.Rests s.activeRests s'.activeRests
  clockMs : s'.clockMs = s.clockMs
  selected : s'.selected = s.selected.map M.cell
  gameOver : s'.gameOver = s.gameOver

section Settle

variable {s s' : GameState} {ms : Int}

theorem States.queues (h : M.States s s') (ms : Int) :
    dueMoves (s'.advancedArbiter ms) = (dueMoves (s.advancedArbiter ms)).map M.move ∧
      flyingMoves (s'.advancedArbiter ms) = (flyingMoves (s.advancedArbiter ms)).map M.move ∧
      endedJumps (s'.advancedArbiter ms) = (endedJumps (s.advancedArbiter ms)).map M.jump ∧
      flyingJumps (s'.advancedArbiter ms) = (flyingJumps (s.advancedArbiter ms)).map M.jump := by
  have hclock : (s'.advancedArbiter ms).clockMs = (s.advancedArbiter ms).clockMs :=
    congrArg (· + ms) h.clockMs
  have hmoves : (s'.advancedArbiter ms).scheduler.pendingMoves
      = (s.advancedArbiter ms).scheduler.pendingMoves.map M.move := h.pendingMoves
  have hjumps : (s'.advancedArbiter ms).scheduler.activeJumps
      = (s.advancedArbiter ms).scheduler.activeJumps.map M.jump := h.activeJumps
  simp only [dueMoves, flyingMoves, endedJumps, flyingJumps, hclock, hmoves, hjumps, List.filter_map]
  exact ⟨rfl, rfl, rfl, rfl⟩

theorem States.settleDue (h : M.States s s') (hinv : GameInv s) (ms : Int) :
    M.Settlings (settleDue .standard (s.advancedArbiter ms) s.board s.gameOver)
      (settleDue .standard (s'.advancedArbiter ms) s'.board s'.gameOver) := by
  have hstart : M.Settlings (settleStart (s.advancedArbiter ms) s.board s.gameOver)
      (settleStart (s'.advancedArbiter ms) s'.board s'.gameOver) :=
    ⟨h.boards, h.activeRests, h.gameOver, rfl⟩
  have hclock : (s'.advancedArbiter ms).clockMs = (s.advancedArbiter ms).clockMs :=
    congrArg (· + ms) h.clockMs
  have hjumps : (s'.advancedArbiter ms).scheduler.activeJumps
      = (s.advancedArbiter ms).scheduler.activeJumps.map M.jump := h.activeJumps
  unfold KungFuChess.settleDue
  rw [(h.queues ms).1, hclock, hjumps]
  refine hstart.foldl_settleMove _ _ _ (hinv.located.perm (dueMoves_append_perm (s.advancedArbiter ms))) ?_
  intro move hmove
  exact hinv.ends move (List.mem_filter.mp hmove).1

theorem States.advance (h : M.States s s') (hinv : GameInv s) (hinv' : GameInv s') (ms : Int) :
    M.States (s.advance ms) (s'.advance ms) := by
  obtain ⟨-, hflying, hended, hairborne⟩ := h.queues ms
  have hdue := h.settleDue hinv ms
  have htrace := trace_settleDue (s.advancedArbiter ms) GameRules.standard_keepsPieces
    s.gameOver hinv.located hinv.ends
  have hplay : ∀ move ∈ flyingMoves (s.advancedArbiter ms),
      playable (KungFuChess.settleDue .standard (s'.advancedArbiter ms) s'.board s'.gameOver).board
          (M.move move)
        = playable (KungFuChess.settleDue .standard (s.advancedArbiter ms) s.board s.gameOver).board
          move := by
    intro move hmove
    refine playable_move hdue.boards (htrace.located GameRules.standard_keepsPieces hinv.located)
      (List.mem_append_left _ (List.mem_map_of_mem hmove)) ?_
    exact htrace.inBounds.mpr (hinv.ends move (List.mem_filter.mp hmove).1)
  obtain ⟨hcancelled, hkept⟩ := hdue.cancelledMoves _ hplay
  have hflights : endedFlights .standard (s'.advancedArbiter ms) s'.board s'.gameOver
      = (endedFlights .standard (s.advancedArbiter ms) s.board s.gameOver).map M.flight := by
    rw [endedFlights, endedFlights, hflying, hended, hcancelled]
    simp only [List.map_append, List.map_map]
    rfl
  have hboards := hdue.boards.foldl_putBack (endedFlights .standard (s.advancedArbiter ms) s.board s.gameOver)
    (located_settleDue (s.advancedArbiter ms) GameRules.standard_keepsPieces s.gameOver
      hinv.located hinv.ends)
  rw [← hflights] at hboards
  have hrests := (hdue.rests.foldl_restJumper .standard
    (endedJumps (s.advancedArbiter ms))).expireRests (s.advancedArbiter ms).clockMs
  rw [← hended] at hrests
  unfold GameState.advance
  rw [hinv.rules, hinv'.rules]
  refine ⟨hboards, ?_, hairborne, ?_, ?_, h.selected, hdue.gameOver⟩
  · show keptMoves _ (flyingMoves (s'.advancedArbiter ms)) = _
    rw [hflying, hkept]
    rfl
  · have hclock : (s'.advancedArbiter ms).clockMs = (s.advancedArbiter ms).clockMs :=
      congrArg (· + ms) h.clockMs
    show M.Rests _ (KungFuChess.expireRests (s'.advancedArbiter ms).clockMs _)
    rw [hclock]
    exact hrests
  · exact congrArg (· + ms) h.clockMs

end Settle

/-! ### Decisions -/

section Decisions

variable {s s' : GameState}

theorem beq_row (M : Mirror) (row row' : Nat) : (M.row row == M.row row') = (row == row') := by
  rw [Bool.eq_iff_iff, beq_iff_eq, beq_iff_eq, row_inj]

theorem States.isPieceMoving (h : M.States s s') (row col : Nat) :
    s'.isPieceMoving (M.row row) col = s.isPieceMoving row col := by
  have hmoves : s'.arbiter.scheduler.pendingMoves = s.arbiter.scheduler.pendingMoves.map M.move :=
    h.pendingMoves
  have hclock : s'.arbiter.clockMs = s.arbiter.clockMs := h.clockMs
  simp only [GameState.isPieceMoving, RealTimeArbiter.isPieceMoving, MoveScheduler.isPieceMoving, hmoves,
    List.any_map]
  rw [hclock]
  refine congrArg (List.any _) (funext fun move => ?_)
  simp only [Function.comp_apply, Mirror.move, Mirror.cell, beq_row]
  rfl

theorem States.isPieceJumping (h : M.States s s') (row col : Nat) :
    s'.isPieceJumping (M.row row) col = s.isPieceJumping row col := by
  have hjumps : s'.arbiter.scheduler.activeJumps = s.arbiter.scheduler.activeJumps.map M.jump :=
    h.activeJumps
  have hclock : s'.arbiter.clockMs = s.arbiter.clockMs := h.clockMs
  simp only [GameState.isPieceJumping, RealTimeArbiter.isPieceJumping, MoveScheduler.isPieceJumping, hjumps,
    List.any_map]
  rw [hclock]
  refine congrArg (List.any _) (funext fun jump => ?_)
  simp only [Function.comp_apply, Mirror.jump, Mirror.cell, beq_row]
  rfl

theorem States.isPieceResting (h : M.States s s') (row col : Nat) :
    s'.isPieceResting (M.row row) col = s.isPieceResting row col := by
  unfold GameState.isPieceResting
  rw [h.boards.pieceAt]
  cases s.board.pieceAt row col with
  | none => rfl
  | some p =>
      have hrest : s'.arbiter.scheduler.activeRests.find? (M.rename p.id)
          = (s.arbiter.scheduler.activeRests.find? p.id).map M.rest := h.activeRests p.id
      have hclock : s'.arbiter.clockMs = s.arbiter.clockMs := h.clockMs
      simp only [Option.map_some, RealTimeArbiter.isPieceResting, MoveScheduler.isPieceResting, Mirror.piece,
        hrest, hclock]
      cases s.arbiter.scheduler.activeRests.find? p.id <;> rfl

theorem States.isSameColorDestinationClaimed (h : M.States s s') (color : PieceColor) (cell : Cell) :
    s'.arbiter.isSameColorDestinationClaimed color.swap (M.cell cell)
      = s.arbiter.isSameColorDestinationClaimed color cell := by
  have hmoves : s'.arbiter.scheduler.pendingMoves = s.arbiter.scheduler.pendingMoves.map M.move :=
    h.pendingMoves
  have hclock : s'.arbiter.clockMs = s.arbiter.clockMs := h.clockMs
  simp only [RealTimeArbiter.isSameColorDestinationClaimed, KungFuChess.isSameColorDestinationClaimed,
    hmoves, List.any_map]
  rw [hclock]
  refine congrArg (List.any _) (funext fun move => ?_)
  have hcolor : (move.color.swap == color.swap) = (move.color == color) := by
    rw [Bool.eq_iff_iff, beq_iff_eq, beq_iff_eq, PieceColor.swap_inj]
  have hcell : (M.cell move.endPos == M.cell cell) = (move.endPos == cell) := by
    rw [Bool.eq_iff_iff, beq_iff_eq, beq_iff_eq, cell_inj]
  simp only [Function.comp_apply, Mirror.move, hcolor, hcell]
  rfl

theorem States.isLegalMove (h : M.States s s') (hinv : GameInv s) (hinv' : GameInv s')
    (sr sc er ec : Nat) :
    s'.isLegalMove (toInt (M.row sr)) (toInt sc) (toInt (M.row er)) (toInt ec)
      = s.isLegalMove (toInt sr) (toInt sc) (toInt er) (toInt ec) := by
  unfold GameState.isLegalMove
  rw [toSize_toInt, toSize_toInt, toSize_toInt, h.boards.pieceAt, hinv.rules, hinv'.rules]
  cases s.board.pieceAt sr sc with
  | none => rfl
  | some moving => exact h.boards.isLegalMove moving.kind sr sc er ec

theorem States.canMoveSelectedTo (h : M.States s s') (hinv : GameInv s) (hinv' : GameInv s')
    (fromRow fromCol toRow toCol : Nat) :
    s'.canMoveSelectedTo (M.row fromRow) fromCol (M.row toRow) toCol
      = s.canMoveSelectedTo fromRow fromCol toRow toCol := by
  unfold GameState.canMoveSelectedTo GameState.isInBounds
  rw [h.boards.isInBounds_eq, h.isPieceMoving, h.isPieceJumping, h.isPieceResting, h.boards.pieceAt,
    h.isLegalMove hinv hinv']
  cases s.board.pieceAt fromRow fromCol with
  | none => rfl
  | some moving =>
      have hclaimed := h.isSameColorDestinationClaimed moving.color (toRow, toCol)
      simp only [Option.map_some, Mirror.piece, Mirror.cell] at hclaimed ⊢
      rw [hclaimed]

theorem States.isSelectablePiece (h : M.States s s') (row col : Nat) :
    s'.isSelectablePiece (M.row row) col = s.isSelectablePiece row col := by
  have hpiece : s'.isPiece (M.row row) col = s.isPiece row col := by
    unfold GameState.isPiece GameState.isInBounds
    rw [h.boards.isInBounds_eq]
    cases hin : s.board.isInBounds row col with
    | false => rfl
    | true => rw [h.boards.isEmpty (isInBounds_iff.mp hin)]
  unfold GameState.isSelectablePiece
  rw [hpiece, h.isPieceMoving, h.isPieceJumping, h.isPieceResting]

end Decisions

/-! ### Actions -/

def action (M : Mirror) : GameAction → GameAction
  | .select row col => .select (M.row row) col
  | .clearSelection => .clearSelection
  | .moveSelected toRow toCol => .moveSelected (M.row toRow) toCol
  | .jumpSelected => .jumpSelected
  | .jumpAt row col => .jumpAt (M.row row) col
  | .advanceClock milliseconds => .advanceClock milliseconds

section Actions

variable {s s' : GameState} {p : Piece}

theorem computeMoveDuration_row (hrules : s'.rules = s.rules) {fromRow toRow : Nat}
    (hfrom : fromRow < M.rows) (hto : toRow < M.rows) (fromCol toCol : Nat) (isCapture : Bool) :
    s'.computeMoveDuration (M.row fromRow) fromCol (M.row toRow) toCol isCapture
      = s.computeMoveDuration fromRow fromCol toRow toCol isCapture := by
  have hdelta : (if M.row fromRow > M.row toRow then M.row fromRow - M.row toRow
        else M.row toRow - M.row fromRow)
      = if fromRow > toRow then fromRow - toRow else toRow - fromRow := by
    rw [row_of_lt hfrom, row_of_lt hto]
    split <;> split <;> omega
  unfold GameState.computeMoveDuration
  rw [hrules, hdelta]

theorem States.withMove (h : M.States s s') (hinv : GameInv s) {source : Cell}
    (hp : s.board.pieceAt source.1 source.2 = some p) (target : Cell) (duration : Int) :
    M.States (s.withMove p source target duration)
      (s'.withMove (M.piece p) (M.cell source) (M.cell target) duration) := by
  refine ⟨h.boards.lift hinv.located hp, ?_, h.activeJumps, h.activeRests, h.clockMs, rfl, h.gameOver⟩
  have hclock : s'.arbiter.clockMs = s.arbiter.clockMs := h.clockMs
  show s'.pendingMoves ++ [_] = (s.pendingMoves ++ [_]).map M.move
  rw [h.pendingMoves, List.map_append, hclock]
  rfl

theorem States.withJump (h : M.States s s') (hinv : GameInv s) (hinv' : GameInv s') (cell : Cell)
    (hp : s.board.pieceAt cell.1 cell.2 = some p) :
    M.States (s.withJump p cell) (s'.withJump (M.piece p) (M.cell cell)) := by
  refine ⟨h.boards.lift hinv.located hp, h.pendingMoves, ?_, h.activeRests, h.clockMs, h.selected,
    h.gameOver⟩
  have hclock : s'.arbiter.clockMs = s.arbiter.clockMs := h.clockMs
  show s'.activeJumps ++ [_] = (s.activeJumps ++ [_]).map M.jump
  rw [h.activeJumps, List.map_append, hclock, hinv.rules, hinv'.rules]
  rfl

theorem States.clearSelection (h : M.States s s') : M.States s.clearSelection s'.clearSelection :=
  ⟨h.boards, h.pendingMoves, h.activeJumps, h.activeRests, h.clockMs, rfl, h.gameOver⟩

theorem States.moveSelectedTo (h : M.States s s') (hinv : GameInv s) (hinv' : GameInv s')
    (toRow toCol : Nat) :
    ∃ t t', s.moveSelectedTo toRow toCol = .ok t ∧ s'.moveSelectedTo (M.row toRow) toCol = .ok t' ∧
      M.States t t' := by
  have hselected' := h.selected
  cases hselected : s.selected with
  | none =>
      rw [hselected] at hselected'
      exact ⟨s, s', by simp only [GameState.moveSelectedTo, hselected],
        by simp only [GameState.moveSelectedTo, hselected', Option.map_none], h⟩
  | some source =>
      rw [hselected] at hselected'
      obtain ⟨v, hv, hspec⟩ := canMoveSelectedTo_spec hinv source.1 source.2 toRow toCol
      have hv' := (h.canMoveSelectedTo hinv hinv' source.1 source.2 toRow toCol).trans hv
      cases v with
      | false =>
          refine ⟨s, s', ?_, ?_, h⟩
          · simp only [GameState.moveSelectedTo, hselected, hv, ok_bind]
            rfl
          · simp only [GameState.moveSelectedTo, hselected', Option.map_some, Mirror.cell, hv', ok_bind]
            rfl
      | true =>
          obtain ⟨hin, -, -, -, p, hp⟩ := hspec rfl
          have hp' := h.boards.pieceAt source.1 source.2
          rw [hp] at hp'
          refine ⟨_, _, moveSelectedTo_eq hinv hselected hv hp, moveSelectedTo_eq hinv' hselected' hv' hp', ?_⟩
          have hsource := inBounds_of_cellId hinv.located.rect (hinv.located.pieceAt_eq_some_iff.mp hp).1
          have hcapture : ((s.board.pieceAt toRow toCol).map M.piece).any (·.isOpponentOf (M.piece p))
              = (s.board.pieceAt toRow toCol).any (·.isOpponentOf p) := by
            cases s.board.pieceAt toRow toCol with
            | none => rfl
            | some q => exact isOpponentOf_piece M q p
          have hduration := computeMoveDuration_row (M := M) (hinv'.rules.trans hinv.rules.symm)
            (h.boards.rows ▸ hsource.1) (h.boards.rows ▸ hin.1) source.2 toCol
            ((s.board.pieceAt toRow toCol).any (·.isOpponentOf p))
          rw [h.boards.pieceAt, hcapture]
          simp only [Mirror.cell]
          rw [hduration]
          exact h.withMove hinv hp (toRow, toCol) _

theorem States.jumpAt (h : M.States s s') (hinv : GameInv s) (hinv' : GameInv s') (row col : Nat) :
    ∃ t t', s.jumpAt row col = .ok t ∧ s'.jumpAt (M.row row) col = .ok t' ∧ M.States t t' := by
  refine ⟨_, _, jumpAt_eq hinv row col, jumpAt_eq hinv' (M.row row) col, ?_⟩
  rw [h.isPieceMoving, h.isPieceJumping, h.isPieceResting, h.boards.pieceAt]
  split
  · exact h
  · cases hp : s.board.pieceAt row col with
    | none => exact h
    | some p => exact h.withJump hinv hinv' (row, col) hp

/-- One action and its mirror image. -/
theorem States.applyAction (h : M.States s s') (hinv : GameInv s) (hinv' : GameInv s') (a : GameAction) :
    ∃ t t', s.applyAction a = .ok t ∧ s'.applyAction (M.action a) = .ok t' ∧ M.States t t' := by
  cases a with
  | select row col =>
      refine ⟨_, _, rfl, rfl, ?_⟩
      unfold GameState.select GameState.isInBounds
      rw [h.boards.isInBounds_eq]
      split
      · exact h
      · exact ⟨h.boards, h.pendingMoves, h.activeJumps, h.activeRests, h.clockMs, rfl, h.gameOver⟩
  | clearSelection => exact ⟨_, _, rfl, rfl, h.clearSelection⟩
  | moveSelected toRow toCol => exact h.moveSelectedTo hinv hinv' toRow toCol
  | jumpSelected =>
      have hselected' := h.selected
      simp only [GameState.applyAction, Mirror.action, GameState.jumpSelected]
      cases hselected : s.selected with
      | none =>
          rw [hselected] at hselected'
          exact ⟨s, s', rfl, by rw [hselected']; rfl, h⟩
      | some cell =>
          rw [hselected] at hselected'
          obtain ⟨t, t', ht, ht', hstates⟩ := h.jumpAt hinv hinv' cell.1 cell.2
          rw [hselected']
          refine ⟨t.clearSelection, t'.clearSelection, ?_, ?_, hstates.clearSelection⟩
          · simp only [ht, ok_bind, pure_eq_ok]
          · simp only [Option.map_some, Mirror.cell, ht', ok_bind, pure_eq_ok]
  | jumpAt row col => exact h.jumpAt hinv hinv' row col
  | advanceClock ms => exact ⟨_, _, addClock_eq hinv ms, addClock_eq hinv' ms, h.advance hinv hinv' ms⟩

/-- A game and its mirror image, step by step. -/
theorem States.runActions (h : M.States s s') (hinv : GameInv s) (hinv' : GameInv s')
    (actions : List GameAction) :
    ∃ t t', s.runActions actions = .ok t ∧ s'.runActions (actions.map M.action) = .ok t' ∧
      M.States t t' ∧ GameInv t ∧ GameInv t' := by
  refine foldlM_simulates M.action (fun _ s s' => M.States s s' ∧ GameInv s ∧ GameInv s') ?_ actions s s'
    ⟨h, hinv, hinv'⟩
  rintro a - s s' ⟨h, hinv, hinv'⟩
  obtain ⟨t, t', ht, ht', hstates⟩ := h.applyAction hinv hinv' a
  obtain ⟨u, hu, hstep⟩ := applyAction_step hinv a
  obtain ⟨u', hu', hstep'⟩ := applyAction_step hinv' (M.action a)
  rw [ht] at hu
  rw [ht'] at hu'
  cases hu
  cases hu'
  exact ⟨t, t', ht, ht', hstates, hstep.inv hinv, hstep'.inv hinv'⟩

end Actions

/-! ### The winner -/

section Winner

variable {s s' : GameState}

theorem exists_swap_eq (color : PieceColor) : ∃ other : PieceColor, color = other.swap := by
  cases color
  · exact ⟨.black, rfl⟩
  · exact ⟨.white, rfl⟩

theorem States.kingOnGrid (h : M.States s s') (color : PieceColor) :
    KingOnGrid s' color.swap ↔ KingOnGrid s color := by
  constructor
  · intro h
    obtain ⟨id', p', hp', hcolor, hkind, hidle⟩ := h
    obtain ⟨id, rfl⟩ := M.bijective.surjective id'
    rw [h.boards.findPieceById, Option.map_eq_some_iff] at hp'
    obtain ⟨p, hp, rfl⟩ := hp'
    exact ⟨id, p, hp, PieceColor.swap_inj.mp hcolor, hkind, hidle⟩
  · intro h
    obtain ⟨id, p, hp, hcolor, hkind, hidle⟩ := h
    refine ⟨M.rename id, M.piece p, ?_, congrArg PieceColor.swap hcolor, hkind, hidle⟩
    rw [h.boards.findPieceById, hp]
    rfl

theorem States.winningColor (h : M.States s s') (hinv : GameInv s) (hinv' : GameInv s') :
    s'.winningColor = s.winningColor.map PieceColor.swap := by
  have hgameOver := h.gameOver
  cases hover : s.gameOver with
  | false =>
      rw [hover] at hgameOver
      simp [GameState.winningColor, hover, hgameOver]
  | true =>
      rw [hover] at hgameOver
      refine Option.ext fun color' => ?_
      obtain ⟨color, rfl⟩ := exists_swap_eq color'
      have hmap : s.winningColor.map PieceColor.swap = some color.swap ↔ s.winningColor = some color := by
        simp only [Option.map_eq_some_iff, PieceColor.swap_inj, exists_eq_right]
      rw [hmap, winningColor_eq_some_iff hinv hover, winningColor_eq_some_iff hinv' hgameOver, h.kingOnGrid]
      refine and_congr_right fun _ => ⟨fun hothers other hne => ?_, fun hothers other' hne => ?_⟩
      · rw [← h.kingOnGrid]
        exact hothers other.swap fun heq => hne (PieceColor.swap_inj.mp heq)
      · obtain ⟨other, rfl⟩ := exists_swap_eq other'
        rw [h.kingOnGrid]
        exact hothers other fun heq => hne (congrArg PieceColor.swap heq)

end Winner

/-- The two games answer every question about a move alike. -/
structure SameVerdicts (M : Mirror) (s s' : GameState) : Prop where
  selectable : ∀ row col, s'.isSelectablePiece (M.row row) col = s.isSelectablePiece row col
  legal : ∀ sr sc er ec, s'.isLegalMove (toInt (M.row sr)) (toInt sc) (toInt (M.row er)) (toInt ec)
    = s.isLegalMove (toInt sr) (toInt sc) (toInt er) (toInt ec)
  movable : ∀ fromRow fromCol toRow toCol,
    s'.canMoveSelectedTo (M.row fromRow) fromCol (M.row toRow) toCol
      = s.canMoveSelectedTo fromRow fromCol toRow toCol

end Mirror

/-- The mirrored actions on the mirrored board lead, action by action, to the mirror image of the
game. -/
theorem game_mirror {lines : List Text} {before board : BoardModel}
    (hparse : parseBoardRows lines before = .ok (.ok, board)) :
    ∃ board', parseBoardRows (mirrorLines lines) before = .ok (.ok, board') ∧
      ∃ M : Mirror, M.rows = board.rows ∧ ∀ actions, ∃ s s',
        (GameState.new board).runActions actions = .ok s ∧
          (GameState.new board').runActions (actions.map M.action) = .ok s' ∧
          M.States s s' ∧ M.SameVerdicts s s' ∧ s'.winningColor = s.winningColor.map PieceColor.swap := by
  obtain ⟨board', hparse', M, hrows, hboards⟩ := parseBoardRows_mirrorLines hparse before
  refine ⟨board', hparse', M, hrows, fun actions => ?_⟩
  have hstart : M.States (GameState.new board) (GameState.new board') :=
    ⟨hboards, rfl, rfl, fun _ => rfl, rfl, rfl, rfl⟩
  obtain ⟨s, s', hs, hs', hstates, hinv, hinv'⟩ := hstart.runActions (gameInv_new ⟨lines, before, hparse⟩)
    (gameInv_new ⟨_, before, hparse'⟩) actions
  refine ⟨s, s', hs, hs', hstates, ⟨?_, ?_, ?_⟩, hstates.winningColor hinv hinv'⟩
  · exact hstates.isSelectablePiece
  · exact hstates.isLegalMove hinv hinv'
  · exact hstates.canMoveSelectedTo hinv hinv'

/-- The rook that takes the king, as a game of the other colour. -/
theorem game_mirror_duel :
    ∃ board', parseBoardRows [". .".toList, "bR wK".toList] ⟨[], []⟩ = .ok (.ok, board') ∧
      ∃ M : Mirror, M.rows = 2 ∧ ∃ s s',
        (GameState.new duelBoard).runActions [.select 0 0, .moveSelected 0 1, .advanceClock 1000] = .ok s ∧
          (GameState.new board').runActions [.select (M.row 0) 0, .moveSelected (M.row 0) 1,
            .advanceClock 1000] = .ok s' ∧
          M.States s s' ∧ M.SameVerdicts s s' ∧ s'.winningColor = s.winningColor.map PieceColor.swap := by
  obtain ⟨board', hparse, M, hrows, hgames⟩ :=
    game_mirror (show parseBoardRows ["wR bK".toList, ". .".toList] ⟨[], []⟩ = .ok (.ok, duelBoard) by decide)
  exact ⟨board', hparse, M, hrows, hgames [.select 0 0, .moveSelected 0 1, .advanceClock 1000]⟩

end KungFuChess
