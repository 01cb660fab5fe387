import KungFuChess.Model.GameState
import KungFuChess.Proof.Location
import KungFuChess.Proof.Rules

/-!
# Settlements

A settlement works off the due moves, then the moves in flight that have become unplayable, then the
jumps that have ended. Each of them is one event, and there are three kinds: a piece lands on its
destination, a piece is taken by a jumper as it arrives, or a piece is put back on the cell it left.
`settle` is the settlement as a function of the board and the queues, with no error left in it, and
`settleEvents` is its list of events.

`Trace` is a run of events on a board. What later modules prove about every settlement, they prove by
induction on its trace.
-/

namespace KungFuChess

open Loops BoardModel

/-- The rules hand a piece back as the same piece. -/
def GameRules.KeepsPieces (rules : GameRules) : Prop :=
  ∀ p row rows, (rules.onReachLastRow p row rows).id = p.id ∧
    (rules.onReachLastRow p row rows).color = p.color

theorem GameRules.standard_keepsPieces : GameRules.standard.KeepsPieces := by
  intro p row rows
  simp only [GameRules.standard, promotePawnToQueen]
  split
  · exact ⟨rfl, rfl⟩
  split
  · exact ⟨rfl, rfl⟩
  split
  · exact ⟨rfl, rfl⟩
  · exact ⟨rfl, rfl⟩

/-- The piece that comes down on a row. -/
def GameRules.landing (rules : GameRules) (p : Piece) (row rows : Nat) : Piece :=
  { rules.onReachLastRow p row rows with state := .idle }

theorem GameRules.landing_id {rules : GameRules} (h : rules.KeepsPieces) (p : Piece) (row rows : Nat) :
    (rules.landing p row rows).id = p.id := (h p row rows).1

/-- The piece with an id of the table. -/
def BoardModel.pieceOf (b : BoardModel) (id : Nat) : Piece :=
  (b.findPieceById id).getD ⟨kInvalidId, .white, .pawn, ⟨0, 0⟩, .idle⟩

theorem BoardModel.pieceOf_eq {b : BoardModel} {id : Nat} {p : Piece} (h : b.findPieceById id = some p) :
    b.pieceOf id = p := by
  rw [pieceOf, h, Option.getD_some]

/-- One event of a settlement: the piece it happens to as the table had it, and the piece it found on
the cell. -/
inductive SettleEvent where
  | landed (piece : Piece) (cell : Cell) (occupant : Option Piece)
  | shotDown (piece : Piece) (jump : JumpState)
  | putBack (piece : Piece) (cell : Cell) (occupant : Option Piece)
deriving DecidableEq

namespace SettleEvent

def piece : SettleEvent → Piece
  | landed piece _ _ => piece
  | shotDown piece _ => piece
  | putBack piece _ _ => piece

def boardAfter (rules : GameRules) (b : BoardModel) : SettleEvent → BoardModel
  | landed piece cell _ =>
      b.land (rules.landing piece cell.1 b.rows) cell.1 cell.2
  | shotDown piece _ => b.setPiece { piece with state := .captured }
  | putBack piece cell _ => b.land { piece with state := .idle } cell.1 cell.2

def gameOverAfter (rules : GameRules) (gameOver : Bool) : SettleEvent → Bool
  | landed _ _ occupant => gameOver || occupant.any rules.isGameOver
  | shotDown piece _ => gameOver || rules.isGameOver piece
  | putBack _ _ _ => gameOver

/-- The rests after a due move with this event. -/
def restsAfter (rules : GameRules) (arrivalTime : Int) (rests : RestMap) : SettleEvent → RestMap
  | landed piece cell occupant =>
      scheduleRest (occupant.elim rests fun q => rests.erase q.id) piece.id .long arrivalTime
        rules.longRestDurationMs cell
  | shotDown piece _ => rests.erase piece.id
  | putBack _ _ _ => rests

def isLanding : SettleEvent → Bool
  | landed _ _ _ => true
  | _ => false

end SettleEvent

/-- The event fits the board and the flight it ends. -/
inductive Fits (b : BoardModel) (f : Flight) : SettleEvent → Prop where
  | landed {piece : Piece} {cell : Cell} (hfind : b.findPieceById f.id = some piece)
      (htarget : f.target = some cell) (hin : b.InBounds cell.1 cell.2)
      (hcolor : ∀ q, b.pieceAt cell.1 cell.2 = some q → q.color ≠ piece.color) :
      Fits b f (.landed piece cell (b.pieceAt cell.1 cell.2))
  | shotDown {piece : Piece} {jump : JumpState} (hfind : b.findPieceById f.id = some piece)
      (hcolor : piece.color ≠ jump.color) : Fits b f (.shotDown piece jump)
  | putBack {piece : Piece} (hfind : b.findPieceById f.id = some piece) :
      Fits b f (.putBack piece f.origin (b.pieceAt f.origin.1 f.origin.2))

/-- A run of events, with the flights that are left. -/
inductive Trace (rules : GameRules) :
    BoardModel → List Flight → List SettleEvent → BoardModel → List Flight → Prop where
  | nil {b : BoardModel} {flights left : List Flight} (hperm : flights.Perm left) :
      Trace rules b flights [] b left
  | cons {b b' : BoardModel} {f : Flight} {flights left left' : List Flight} {e : SettleEvent}
      {events : List SettleEvent} (hperm : flights.Perm (f :: left)) (hfits : Fits b f e)
      (hrest : Trace rules (e.boardAfter rules b) left events b' left') :
      Trace rules b flights (e :: events) b' left'

section Trace

variable {rules : GameRules} {b b' : BoardModel} {f : Flight} {e : SettleEvent}
  {flights left : List Flight} {events : List SettleEvent}

theorem Fits.piece_eq (h : Fits b f e) : b.findPieceById f.id = some e.piece := by
  cases h <;> assumption

theorem Fits.located (hrules : rules.KeepsPieces) (h : Fits b f e) (hb : Located b (f :: left)) :
    Located (e.boardAfter rules b) left := by
  have hid := hb.idsInPlace f.id _ h.piece_eq
  cases h with
  | landed hfind htarget hin hcolor => exact hb.land ((rules.landing_id hrules _ _ _).trans hid) rfl hin
  | shotDown hfind hcolor => exact hb.fall hfind
  | putBack hfind => exact hb.land hid rfl (hb.originsIn f List.mem_cons_self)

theorem Fits.rows_boardAfter (h : Fits b f e) (rules : GameRules) :
    (e.boardAfter rules b).rows = b.rows ∧ (e.boardAfter rules b).cols = b.cols := by
  cases h <;> simp [SettleEvent.boardAfter]

theorem SettleEvent.pieces_length_boardAfter (rules : GameRules) (b : BoardModel) (e : SettleEvent) :
    (e.boardAfter rules b).pieces.length = b.pieces.length := by
  cases e <;> simp [SettleEvent.boardAfter]

theorem Trace.located (hrules : rules.KeepsPieces) (h : Trace rules b flights events b' left)
    (hb : Located b flights) : Located b' left := by
  induction h with
  | nil hperm => exact hb.perm hperm
  | cons hperm hfits _ ih => exact ih (hfits.located hrules (hb.perm hperm))

theorem Trace.dims (h : Trace rules b flights events b' left) : b'.rows = b.rows ∧ b'.cols = b.cols := by
  induction h with
  | nil => exact ⟨rfl, rfl⟩
  | cons _ hfits _ ih =>
      obtain ⟨hrows, hcols⟩ := hfits.rows_boardAfter rules
      exact ⟨ih.1.trans hrows, ih.2.trans hcols⟩

theorem Trace.pieces_length (h : Trace rules b flights events b' left) :
    b'.pieces.length = b.pieces.length := by
  induction h with
  | nil => rfl
  | cons _ _ _ ih => exact ih.trans (SettleEvent.pieces_length_boardAfter _ _ _)

theorem Trace.inBounds (h : Trace rules b flights events b' left) {row col : Nat} :
    b'.InBounds row col ↔ b.InBounds row col := by
  rw [InBounds, InBounds, h.dims.1, h.dims.2]

theorem Trace.of_perm {flights' : List Flight} (hperm : flights'.Perm flights)
    (h : Trace rules b flights events b' left) : Trace rules b flights' events b' left := by
  cases h with
  | nil hleft => exact .nil (hperm.trans hleft)
  | cons hleft hfits hrest => exact .cons (hperm.trans hleft) hfits hrest

theorem Trace.append (h : Trace rules b flights events b' left) {b'' : BoardModel}
    {left' : List Flight} {events' : List SettleEvent} (h' : Trace rules b' left events' b'' left') :
    Trace rules b flights (events ++ events') b'' left' := by
  induction h with
  | nil hperm => exact h'.of_perm hperm
  | cons hperm hfits _ ih => exact .cons hperm hfits (ih h')

end Trace

/-! ### The events of a settlement -/

/-- The verdict of `canSettleMove`. -/
def playable (b : BoardModel) (move : PendingMove) : Bool :=
  match canSettleMove b move with
  | .ok verdict => verdict
  | .error _ => false

def PendingMove.isDue (clockMs : Int) (move : PendingMove) : Bool := !decide (clockMs < move.arrivalTime)

def JumpState.isDue (clockMs : Int) (jump : JumpState) : Bool := !decide (clockMs < jump.arrivalTime)

def dueEvent (clockMs : Int) (jumps : List JumpState) (b : BoardModel) (move : PendingMove) :
    SettleEvent :=
  let piece := b.pieceOf move.pieceId
  if playable b move then
    match capturingJump clockMs jumps move.endPos piece.color with
    | some jump => .shotDown piece jump
    | none => .landed piece move.endPos (b.pieceAt move.endPos.1 move.endPos.2)
  else .putBack piece move.startPos (b.pieceAt move.startPos.1 move.startPos.2)

/-- The settlement of one due move. -/
def settleMove (rules : GameRules) (clockMs : Int) (jumps : List JumpState) (s : Settling)
    (move : PendingMove) : Settling :=
  let e := dueEvent clockMs jumps s.board move
  ⟨e.boardAfter rules s.board, e.restsAfter rules move.arrivalTime s.rests,
    e.gameOverAfter rules s.gameOver, s.boardChanged || e.isLanding⟩

def dueEvents (rules : GameRules) (clockMs : Int) (jumps : List JumpState) :
    List PendingMove → Settling → List SettleEvent
  | [], _ => []
  | move :: moves, s =>
      dueEvent clockMs jumps s.board move
        :: dueEvents rules clockMs jumps moves (settleMove rules clockMs jumps s move)

/-- A flight ends where it began. -/
def putBack (b : BoardModel) (f : Flight) : BoardModel :=
  b.land { b.pieceOf f.id with state := .idle } f.origin.1 f.origin.2

def backEvents : List Flight → BoardModel → List SettleEvent
  | [], _ => []
  | f :: flights, b =>
      .putBack (b.pieceOf f.id) f.origin (b.pieceAt f.origin.1 f.origin.2)
        :: backEvents flights (putBack b f)

/-- The moves in flight that are cancelled: a look at the board only if a piece has landed. -/
def cancelledMoves (s : Settling) (moves : List PendingMove) : List PendingMove :=
  if s.boardChanged then moves.filter fun move => !playable s.board move else []

def keptMoves (s : Settling) (moves : List PendingMove) : List PendingMove :=
  if s.boardChanged then moves.filter (playable s.board) else moves

section Settlement

variable (rules : GameRules) (arbiter : RealTimeArbiter) (board : BoardModel) (gameOver : Bool)

def dueMoves : List PendingMove :=
  arbiter.scheduler.pendingMoves.filter (PendingMove.isDue arbiter.clockMs)

def flyingMoves : List PendingMove :=
  arbiter.scheduler.pendingMoves.filter fun move => !move.isDue arbiter.clockMs

def endedJumps : List JumpState :=
  arbiter.scheduler.activeJumps.filter (JumpState.isDue arbiter.clockMs)

def flyingJumps : List JumpState :=
  arbiter.scheduler.activeJumps.filter fun jump => !jump.isDue arbiter.clockMs

def settleStart : Settling := ⟨board, arbiter.scheduler.activeRests, gameOver, false⟩

def settleDue : Settling :=
  (dueMoves arbiter).foldl (settleMove rules arbiter.clockMs arbiter.scheduler.activeJumps)
    (settleStart arbiter board gameOver)

/-- The flights put back after the due moves. -/
def endedFlights : List Flight :=
  (cancelledMoves (settleDue rules arbiter board gameOver) (flyingMoves arbiter)).map PendingMove.flight
    ++ (endedJumps arbiter).map JumpState.flight

/-- A jumper rests from the end of its jump. -/
def restJumper (rests : RestMap) (jump : JumpState) : RestMap :=
  scheduleRest rests jump.pieceId .short jump.arrivalTime rules.shortRestDurationMs jump.cell

def settledArbiter : RealTimeArbiter :=
  let s := settleDue rules arbiter board gameOver
  { arbiter with
    scheduler :=
      { pendingMoves := keptMoves s (flyingMoves arbiter)
        activeJumps := flyingJumps arbiter
        activeRests := expireRests arbiter.clockMs ((endedJumps arbiter).foldl (restJumper rules) s.rests) } }

def settledBoard : BoardModel :=
  (endedFlights rules arbiter board gameOver).foldl putBack (settleDue rules arbiter board gameOver).board

def settleEvents : List SettleEvent :=
  dueEvents rules arbiter.clockMs arbiter.scheduler.activeJumps (dueMoves arbiter)
      (settleStart arbiter board gameOver)
    ++ backEvents (endedFlights rules arbiter board gameOver) (settleDue rules arbiter board gameOver).board

def settle : RealTimeArbiter × BoardModel × Bool :=
  (settledArbiter rules arbiter board gameOver, settledBoard rules arbiter board gameOver,
    (settleDue rules arbiter board gameOver).gameOver)

end Settlement

/-! ### A settlement is a trace -/

section

variable {rules : GameRules} {b : BoardModel} {move : PendingMove} {flights : List Flight}

theorem canSettleMove_of_playable (h : playable b move = true) : canSettleMove b move = .ok true := by
  unfold playable at h
  split at h
  · rename_i verdict hverdict
    rw [hverdict, h]
  · cases h

theorem dueEvent_fits (clockMs : Int) (jumps : List JumpState) (hb : Located b (move.flight :: flights))
    (hend : b.InBounds move.endPos.1 move.endPos.2) :
    Fits b move.flight (dueEvent clockMs jumps b move) := by
  obtain ⟨p, hp, -⟩ := hb.findPieceById_flight
  change b.findPieceById move.pieceId = some p at hp
  unfold dueEvent
  rw [pieceOf_eq hp]
  dsimp only
  split
  · rename_i hplay
    split
    · rename_i jump hjump
      have hmatch := List.find?_some hjump
      simp only [Bool.and_eq_true, bne_iff_ne] at hmatch
      exact .shotDown hp hmatch.2
    · refine .landed hp rfl hend fun q hq => ?_
      exact canSettleMove_dest hp (canSettleMove_of_playable hplay) hq
  · exact .putBack (f := move.flight) hp

/-- With one due move worked off the others are in place, and bound for cells of the board. -/
theorem settleMove_located (hrules : rules.KeepsPieces) (clockMs : Int) (jumps : List JumpState) {s : Settling}
    {moves : List PendingMove} (hb : Located s.board ((move :: moves).map PendingMove.flight ++ flights))
    (hends : ∀ other ∈ move :: moves, s.board.InBounds other.endPos.1 other.endPos.2) :
    Located (settleMove rules clockMs jumps s move).board (moves.map PendingMove.flight ++ flights) ∧
      ∀ other ∈ moves, (settleMove rules clockMs jumps s move).board.InBounds other.endPos.1 other.endPos.2 := by
  have hfits := dueEvent_fits clockMs jumps hb (hends move List.mem_cons_self)
  have hdims := hfits.rows_boardAfter rules
  refine ⟨hfits.located hrules hb, fun other hother => ?_⟩
  have hin := hends other (List.mem_cons_of_mem _ hother)
  simpa only [settleMove, InBounds, hdims] using hin

theorem trace_due (clockMs : Int) (jumps : List JumpState) (hrules : rules.KeepsPieces) (moves : List PendingMove)
    (s : Settling) (hb : Located s.board (moves.map PendingMove.flight ++ flights))
    (hends : ∀ move ∈ moves, s.board.InBounds move.endPos.1 move.endPos.2) :
    Trace rules s.board (moves.map PendingMove.flight ++ flights)
      (dueEvents rules clockMs jumps moves s)
      (moves.foldl (settleMove rules clockMs jumps) s).board flights := by
  induction moves generalizing s with
  | nil => exact .nil (.refl _)
  | cons move moves ih =>
      have hfits := dueEvent_fits clockMs jumps hb (hends move List.mem_cons_self)
      obtain ⟨hlocated, hends'⟩ := settleMove_located hrules clockMs jumps hb hends
      exact .cons (.refl _) hfits (ih (settleMove rules clockMs jumps s move) hlocated hends')

theorem trace_back (hrules : rules.KeepsPieces) (ended : List Flight) (b : BoardModel)
    (hb : Located b (ended ++ flights)) :
    Trace rules b (ended ++ flights) (backEvents ended b) (ended.foldl putBack b) flights := by
  induction ended generalizing b with
  | nil => exact .nil (.refl _)
  | cons f ended ih =>
      obtain ⟨p, hp, -⟩ := hb.findPieceById_flight
      have hfits : Fits b f (.putBack (b.pieceOf f.id) f.origin (b.pieceAt f.origin.1 f.origin.2)) := by
        rw [pieceOf_eq hp]
        exact .putBack hp
      exact .cons (.refl _) hfits (ih _ (hfits.located hrules hb))

end

section

variable {rules : GameRules} {arbiter : RealTimeArbiter} {board : BoardModel}

theorem filter_append_perm_map {α : Type} (φ : α → Flight) (xs : List α) (keep : α → Bool) :
    (xs.map φ).Perm ((xs.filter keep).map φ ++ (xs.filter fun x => !keep x).map φ) := by
  rw [← List.map_append]
  exact (List.filter_append_perm keep xs).symm.map φ

theorem cancelledMoves_append_perm (s : Settling) (moves : List PendingMove) :
    (moves.map PendingMove.flight).Perm
      ((cancelledMoves s moves).map PendingMove.flight ++ (keptMoves s moves).map PendingMove.flight) := by
  unfold cancelledMoves keptMoves
  split
  · exact (filter_append_perm_map _ moves (playable s.board)).trans List.perm_append_comm
  · exact .refl _

theorem dueMoves_append_perm (arbiter : RealTimeArbiter) :
    (flightsOf arbiter.scheduler.pendingMoves arbiter.scheduler.activeJumps).Perm
      ((dueMoves arbiter).map PendingMove.flight
        ++ flightsOf (flyingMoves arbiter) arbiter.scheduler.activeJumps) := by
  rw [flightsOf, flightsOf, ← List.append_assoc]
  exact (filter_append_perm_map _ _ _).append_right _

/-- The board with the due moves settled. -/
theorem trace_settleDue (arbiter : RealTimeArbiter) (hrules : rules.KeepsPieces) (gameOver : Bool)
    (hb : Located board (flightsOf arbiter.scheduler.pendingMoves arbiter.scheduler.activeJumps))
    (hends : ∀ move ∈ arbiter.scheduler.pendingMoves, board.InBounds move.endPos.1 move.endPos.2) :
    Trace rules board (flightsOf arbiter.scheduler.pendingMoves arbiter.scheduler.activeJumps)
      (dueEvents rules arbiter.clockMs arbiter.scheduler.activeJumps (dueMoves arbiter)
        (settleStart arbiter board gameOver))
      (settleDue rules arbiter board gameOver).board
      (flightsOf (flyingMoves arbiter) arbiter.scheduler.activeJumps) :=
  (trace_due arbiter.clockMs arbiter.scheduler.activeJumps hrules (dueMoves arbiter)
    (settleStart arbiter board gameOver) (hb.perm (dueMoves_append_perm arbiter))
    fun move hmove => hends move (List.mem_filter.mp hmove).1).of_perm (dueMoves_append_perm arbiter)

/-- The board when the jumps are about to end. -/
theorem located_cancelled (hrules : rules.KeepsPieces) (gameOver : Bool)
    (hb : Located board (flightsOf arbiter.scheduler.pendingMoves arbiter.scheduler.activeJumps))
    (hends : ∀ move ∈ arbiter.scheduler.pendingMoves, board.InBounds move.endPos.1 move.endPos.2) :
    Located (((cancelledMoves (settleDue rules arbiter board gameOver) (flyingMoves arbiter)).map
        PendingMove.flight).foldl putBack (settleDue rules arbiter board gameOver).board)
      ((endedJumps arbiter).map JumpState.flight ++ ((flyingJumps arbiter).map JumpState.flight
        ++ (keptMoves (settleDue rules arbiter board gameOver) (flyingMoves arbiter)).map
            PendingMove.flight)) := by
  have hmid := (trace_settleDue arbiter hrules gameOver hb hends).located hrules hb
  have hkept := hmid.perm ((cancelledMoves_append_perm (settleDue rules arbiter board gameOver)
    (flyingMoves arbiter)).append_right _)
  rw [List.append_assoc] at hkept
  refine ((trace_back hrules _ _ hkept).located hrules hkept).perm ?_
  rw [← List.append_assoc]
  exact List.perm_append_comm.trans ((filter_append_perm_map _ _ _).append_right _)

/-- The flights of the queues in the order a settlement ends them. -/
theorem flightsOf_perm (rules : GameRules) (arbiter : RealTimeArbiter) (board : BoardModel)
    (gameOver : Bool) :
    (flightsOf arbiter.scheduler.pendingMoves arbiter.scheduler.activeJumps).Perm
      ((dueMoves arbiter).map PendingMove.flight
        ++ (endedFlights rules arbiter board gameOver
          ++ flightsOf (keptMoves (settleDue rules arbiter board gameOver) (flyingMoves arbiter))
              (flyingJumps arbiter))) := by
  have hmoves := filter_append_perm_map PendingMove.flight arbiter.scheduler.pendingMoves
    (PendingMove.isDue arbiter.clockMs)
  have hjumps := filter_append_perm_map JumpState.flight arbiter.scheduler.activeJumps
    (JumpState.isDue arbiter.clockMs)
  have hkept := cancelledMoves_append_perm (settleDue rules arbiter board gameOver) (flyingMoves arbiter)
  unfold flightsOf
  refine (hmoves.append hjumps).trans ?_
  rw [List.append_assoc]
  refine List.Perm.append_left _ ((hkept.append_right _).trans ?_)
  simp only [endedFlights, List.append_assoc]
  refine List.Perm.append_left _ ?_
  rw [← List.append_assoc, ← List.append_assoc]
  exact List.perm_append_comm.append_right _

/-- The board when the due moves have been worked off. -/
theorem located_settleDue (arbiter : RealTimeArbiter) (hrules : rules.KeepsPieces) (gameOver : Bool)
    (hb : Located board (flightsOf arbiter.scheduler.pendingMoves arbiter.scheduler.activeJumps))
    (hends : ∀ move ∈ arbiter.scheduler.pendingMoves, board.InBounds move.endPos.1 move.endPos.2) :
    Located (settleDue rules arbiter board gameOver).board
      (endedFlights rules arbiter board gameOver
        ++ flightsOf (settledArbiter rules arbiter board gameOver).scheduler.pendingMoves
          (settledArbiter rules arbiter board gameOver).scheduler.activeJumps) := by
  have hperm := flightsOf_perm rules arbiter board gameOver
  exact (trace_due arbiter.clockMs arbiter.scheduler.activeJumps hrules (dueMoves arbiter)
    (settleStart arbiter board gameOver) (hb.perm hperm)
    fun move hmove => hends move (List.mem_filter.mp hmove).1).located hrules (hb.perm hperm)

theorem trace_settle (hrules : rules.KeepsPieces) (gameOver : Bool)
    (hb : Located board (flightsOf arbiter.scheduler.pendingMoves arbiter.scheduler.activeJumps))
    (hends : ∀ move ∈ arbiter.scheduler.pendingMoves, board.InBounds move.endPos.1 move.endPos.2) :
    Trace rules board (flightsOf arbiter.scheduler.pendingMoves arbiter.scheduler.activeJumps)
      (settleEvents rules arbiter board gameOver) (settledBoard rules arbiter board gameOver)
      (flightsOf (settledArbiter rules arbiter board gameOver).scheduler.pendingMoves
        (settledArbiter rules arbiter board gameOver).scheduler.activeJumps) := by
  have hperm := flightsOf_perm rules arbiter board gameOver
  have hdue := trace_due arbiter.clockMs arbiter.scheduler.activeJumps hrules
    (dueMoves arbiter) (settleStart arbiter board gameOver) (hb.perm hperm)
    fun move hmove => hends move (List.mem_filter.mp hmove).1
  have hback := trace_back hrules (endedFlights rules arbiter board gameOver) _
    (located_settleDue arbiter hrules gameOver hb hends)
  exact (hdue.append hback).of_perm hperm

end

end KungFuChess
