import Mathlib.Data.List.Induction
import KungFuChess.Proof.Arbiter
import KungFuChess.Proof.Parse

/-!
# Games

`GameInv` is what every game satisfies between two actions. `GameStep` says once what an action can do:
change the selection, start a move, start a jump, or settle. `applyAction_step` is the only place where
the code of `GameState` is opened; the properties of games are then proved by cases on `GameStep`.
-/

namespace KungFuChess

open Loops BoardModel

structure GameInv (s : GameState) : Prop where
  rules : s.rules = .standard
  located : Located s.board (flightsOf s.pendingMoves s.activeJumps)
  ends : ∀ move ∈ s.pendingMoves, s.board.InBounds move.endPos.1 move.endPos.2
  movesFlying : ∀ move ∈ s.pendingMoves, s.clockMs < move.arrivalTime
  jumpsFlying : ∀ jump ∈ s.activeJumps, s.clockMs < jump.arrivalTime

namespace GameState

def advancedArbiter (s : GameState) (ms : Int) : RealTimeArbiter :=
  { s.arbiter with clockMs := s.arbiter.clockMs + ms }

/-- The state `add_clock` leads to. -/
def advance (s : GameState) (ms : Int) : GameState :=
  { s with
    arbiter := settledArbiter s.rules (s.advancedArbiter ms) s.board s.gameOver
    board := settledBoard s.rules (s.advancedArbiter ms) s.board s.gameOver
    gameOver := (settleDue s.rules (s.advancedArbiter ms) s.board s.gameOver).gameOver }

/-- The events of a clock advance. -/
def events (s : GameState) (ms : Int) : List SettleEvent :=
  settleEvents s.rules (s.advancedArbiter ms) s.board s.gameOver

def withMove (s : GameState) (p : Piece) (source target : Cell) (duration : Int) : GameState :=
  { s with
    board := s.board.lift p source.1 source.2
    arbiter := s.arbiter.requestMove p.id p.color p.kind source target duration
    selected := none }

def withJump (s : GameState) (p : Piece) (cell : Cell) : GameState :=
  { s with
    board := s.board.lift p cell.1 cell.2
    arbiter := s.arbiter.requestJump p.id p.color p.kind cell s.rules.jumpDurationMs }

end GameState

def GameAction.isAdvance : GameAction → Bool
  | .advanceClock _ => true
  | _ => false

/-- What an action can do. -/
inductive GameStep (s : GameState) : GameAction → GameState → Prop where
  | quiet {a : GameAction} (ha : a.isAdvance = false) (selected : Option Cell) :
      GameStep s a { s with selected }
  | moveStarted {p : Piece} {source target : Cell} {duration : Int} (hselected : s.selected = some source)
      (hp : s.board.pieceAt source.1 source.2 = some p)
      (hnew : source ∉ (flightsOf s.pendingMoves s.activeJumps).map Flight.origin)
      (hin : s.board.InBounds target.1 target.2) (hpos : 0 < duration) :
      GameStep s (.moveSelected target.1 target.2) (s.withMove p source target duration)
  | jumpStarted {a : GameAction} {p : Piece} {cell : Cell} {selected : Option Cell}
      (haction : a = .jumpAt cell.1 cell.2 ∨ a = .jumpSelected ∧ s.selected = some cell)
      (hp : s.board.pieceAt cell.1 cell.2 = some p)
      (hnew : cell ∉ (flightsOf s.pendingMoves s.activeJumps).map Flight.origin) :
      GameStep s a { s.withJump p cell with selected }
  | settled (ms : Int) : GameStep s (.advanceClock ms) (s.advance ms)

section Step

variable {s s' : GameState} {a : GameAction} {row col : Nat}

/-- Between actions every entry of the queues is in flight, so the queries by cell see all of them. -/
theorem GameInv.not_mem_origins (h : GameInv s) (hmoving : s.isPieceMoving row col = false)
    (hjumping : s.isPieceJumping row col = false) :
    (row, col) ∉ (flightsOf s.pendingMoves s.activeJumps).map Flight.origin := by
  intro hmem
  rw [flightsOf, List.map_append, List.mem_append, List.map_map, List.map_map] at hmem
  rcases hmem with hmem | hmem
  · obtain ⟨move, hmove, horigin⟩ := List.mem_map.mp hmem
    have hcell : move.startPos = (row, col) := horigin
    have hquery : s.isPieceMoving row col = true := by
      have hflying : s.arbiter.clockMs < move.arrivalTime := h.movesFlying move hmove
      exact List.any_eq_true.mpr ⟨move, hmove, by simp [hcell, hflying]⟩
    rw [hquery] at hmoving
    cases hmoving
  · obtain ⟨jump, hjump, horigin⟩ := List.mem_map.mp hmem
    have hcell : jump.cell = (row, col) := horigin
    have hquery : s.isPieceJumping row col = true := by
      have hflying : s.arbiter.clockMs < jump.arrivalTime := h.jumpsFlying jump hjump
      exact List.any_eq_true.mpr ⟨jump, hjump, by simp [hcell, hflying]⟩
    rw [hquery] at hjumping
    cases hjumping

theorem isLegalMove_ne {b : BoardModel} {kind : PieceKind} {sr sc er ec : Nat}
    (h : isLegalMove b kind (toInt sr) (toInt sc) (toInt er) (toInt ec) = .ok true) :
    sr ≠ er ∨ sc ≠ ec := by
  by_contra hsame
  simp only [not_or, not_not] at hsame
  rw [hsame.1, hsame.2] at h
  unfold isLegalMove at h
  split at h
  · cases h
  split at h
  · cases h
  · simp at h

theorem computeMoveDuration_pos (hrules : s.rules = .standard) {fromRow fromCol toRow toCol : Nat}
    (hne : fromRow ≠ toRow ∨ fromCol ≠ toCol) (isCapture : Bool) :
    0 < s.computeMoveDuration fromRow fromCol toRow toCol isCapture := by
  have hduration : s.rules.moveDurationMs = 1000 := by rw [hrules]; rfl
  unfold GameState.computeMoveDuration
  rw [hduration]
  split
  · decide
  · dsimp only
    split <;> split <;> omega

/-- Marking a piece as moving and clearing its cell. -/
theorem lift_eq {b : BoardModel} {flights : List Flight} {p : Piece} (h : Located b flights)
    (hp : b.pieceAt row col = some p) :
    (do let board ← b.setPieceState p.id .moving
        board.clearCell row col) = .ok (b.lift p row col) := by
  obtain ⟨hcell, hfind⟩ := h.pieceAt_eq_some_iff.mp hp
  have hin := inBounds_of_cellId h.rect hcell
  rw [setPieceState_eq h.idsInPlace hfind, ok_bind]
  exact clearCell_eq (rect_setPiece b _ h.rect) hin

theorem canMoveSelectedTo_spec (h : GameInv s) (fromRow fromCol toRow toCol : Nat) :
    ∃ v, s.canMoveSelectedTo fromRow fromCol toRow toCol = .ok v ∧
      (v = true → s.board.InBounds toRow toCol ∧ s.isPieceMoving fromRow fromCol = false ∧
        s.isPieceJumping fromRow fromCol = false ∧ (fromRow ≠ toRow ∨ fromCol ≠ toCol) ∧
        ∃ p, s.board.pieceAt fromRow fromCol = some p) := by
  unfold GameState.canMoveSelectedTo
  split
  · exact ⟨false, rfl, by simp⟩
  split
  · exact ⟨false, rfl, by simp⟩
  rename_i hin haway
  simp only [Bool.or_eq_true, not_or, Bool.not_eq_true] at haway
  cases hp : s.board.pieceAt fromRow fromCol with
  | none => exact ⟨false, rfl, by simp⟩
  | some p =>
      have hlegal : s.isLegalMove (toInt fromRow) (toInt fromCol) (toInt toRow) (toInt toCol)
          = isLegalMove s.board p.kind (toInt fromRow) (toInt fromCol) (toInt toRow) (toInt toCol) := by
        simp only [GameState.isLegalMove, toSize_toInt, hp, h.rules]
        rfl
      obtain ⟨v, hv⟩ := isLegalMove_total h.located.rect p.kind fromRow fromCol toRow toCol
      simp only [hlegal, hv, ok_bind, pure_eq_ok]
      cases v with
      | false => exact ⟨false, rfl, by simp⟩
      | true =>
          refine ⟨_, rfl, fun _ => ⟨?_, haway.1.1, haway.1.2, isLegalMove_ne hv, p, rfl⟩⟩
          simpa [GameState.isInBounds, isInBounds_iff] using hin

theorem moveSelectedTo_eq (h : GameInv s) {source : Cell} {toRow toCol : Nat} {p : Piece}
    (hselected : s.selected = some source)
    (hcan : s.canMoveSelectedTo source.1 source.2 toRow toCol = .ok true)
    (hp : s.board.pieceAt source.1 source.2 = some p) :
    s.moveSelectedTo toRow toCol = .ok (s.withMove p source (toRow, toCol)
      (s.computeMoveDuration source.1 source.2 toRow toCol
        ((s.board.pieceAt toRow toCol).any (·.isOpponentOf p)))) := by
  obtain ⟨board, hstate, hclear⟩ := bind_eq_ok.mp (lift_eq h.located hp)
  unfold GameState.moveSelectedTo
  simp only [hselected, hcan, ok_bind, Bool.not_true, Bool.false_eq_true, if_false, hp, hstate, hclear,
    pure_eq_ok]
  rfl

theorem moveSelectedTo_step (h : GameInv s) (toRow toCol : Nat) :
    ∃ s', s.moveSelectedTo toRow toCol = .ok s' ∧ GameStep s (.moveSelected toRow toCol) s' := by
  cases hselected : s.selected with
  | none => exact ⟨s, by simp only [GameState.moveSelectedTo, hselected], .quiet rfl s.selected⟩
  | some source =>
      obtain ⟨v, hv, hspec⟩ := canMoveSelectedTo_spec h source.1 source.2 toRow toCol
      cases v with
      | false =>
          refine ⟨s, ?_, .quiet rfl s.selected⟩
          simp only [GameState.moveSelectedTo, hselected, hv, ok_bind]
          rfl
      | true =>
          obtain ⟨hin, hmoving, hjumping, hne, p, hp⟩ := hspec rfl
          exact ⟨_, moveSelectedTo_eq h hselected hv hp,
            @GameStep.moveStarted s p source (toRow, toCol) _ hselected hp
              (h.not_mem_origins hmoving hjumping) hin (computeMoveDuration_pos h.rules hne _)⟩

theorem jumpAt_eq (h : GameInv s) (row col : Nat) :
    s.jumpAt row col = .ok (
      if s.isPieceMoving row col || s.isPieceJumping row col || s.isPieceResting row col then s
      else match s.board.pieceAt row col with
        | none => s
        | some p => s.withJump p (row, col)) := by
  unfold GameState.jumpAt
  cases hp : s.board.pieceAt row col with
  | none =>
      have hempty := h.located.pieceAt_eq_none_iff.mp hp
      simp only [ite_self]
      split
      · rfl
      · rename_i hin
        have hin' : s.board.InBounds row col := by
          simpa [GameState.isInBounds, isInBounds_iff] using hin
        rw [isEmpty_eq h.located.rect hin', hempty, ok_bind]
        rfl
  | some p =>
      have hcell := (h.located.pieceAt_eq_some_iff.mp hp).1
      have hin := inBounds_of_cellId h.located.rect hcell
      obtain ⟨board, hstate, hclear⟩ := bind_eq_ok.mp (lift_eq h.located hp)
      rw [GameState.isInBounds, isInBounds_iff.mpr hin, isEmpty_eq h.located.rect hin, hcell]
      simp only [Bool.not_true, Bool.false_eq_true, if_false, ok_bind, Option.isNone_some, pure_eq_ok,
        hstate, hclear]
      split
      · rfl
      · rfl

theorem jumpAt_step (h : GameInv s) (row col : Nat) :
    s.jumpAt row col = .ok s ∨ ∃ p, s.board.pieceAt row col = some p ∧
      (row, col) ∉ (flightsOf s.pendingMoves s.activeJumps).map Flight.origin ∧
      s.jumpAt row col = .ok (s.withJump p (row, col)) := by
  rw [jumpAt_eq h]
  split
  · exact .inl rfl
  · rename_i haway
    simp only [Bool.or_eq_true, not_or, Bool.not_eq_true] at haway
    cases hp : s.board.pieceAt row col with
    | none => exact .inl rfl
    | some p => exact .inr ⟨p, rfl, h.not_mem_origins haway.1.1 haway.1.2, rfl⟩

theorem addClock_eq (h : GameInv s) (ms : Int) : s.addClock ms = .ok (s.advance ms) := by
  have hsettle := settlePendingMoves_eq (h.rules ▸ GameRules.standard_keepsPieces) s.gameOver
    (show Located s.board (flightsOf (s.advancedArbiter ms).scheduler.pendingMoves
      (s.advancedArbiter ms).scheduler.activeJumps) from h.located) h.ends
  have hupdate : s.arbiter.updateTime ms s.board s.rules s.gameOver
      = (s.advancedArbiter ms).settlePendingMoves s.board s.rules s.gameOver := rfl
  rw [GameState.addClock, hupdate, hsettle]
  rfl

theorem GameInv.eq_advance (h : GameInv s) {ms : Int} (hstep : s.addClock ms = .ok s') : s' = s.advance ms := by
  rw [addClock_eq h, Except.ok.injEq] at hstep
  exact hstep.symm

theorem applyAction_step (h : GameInv s) (a : GameAction) :
    ∃ s', s.applyAction a = .ok s' ∧ GameStep s a s' := by
  cases a with
  | select row col =>
      refine ⟨_, rfl, ?_⟩
      unfold GameState.select
      split
      · exact .quiet rfl s.selected
      · exact .quiet rfl _
  | clearSelection => exact ⟨_, rfl, .quiet rfl none⟩
  | moveSelected toRow toCol => exact moveSelectedTo_step h toRow toCol
  | jumpSelected =>
      simp only [GameState.applyAction, GameState.jumpSelected]
      cases hselected : s.selected with
      | none => exact ⟨s, rfl, .quiet rfl s.selected⟩
      | some cell =>
          rcases jumpAt_step h cell.1 cell.2 with hjump | ⟨p, hp, hnew, hjump⟩
          · exact ⟨s.clearSelection, by simp only [hjump, ok_bind, pure_eq_ok], .quiet rfl none⟩
          · exact ⟨(s.withJump p cell).clearSelection, by simp only [hjump, ok_bind, pure_eq_ok],
              .jumpStarted (.inr ⟨rfl, hselected⟩) hp hnew⟩
  | jumpAt row col =>
      rcases jumpAt_step h row col with hjump | ⟨p, hp, hnew, hjump⟩
      · exact ⟨s, hjump, .quiet rfl s.selected⟩
      · exact ⟨s.withJump p (row, col), hjump,
          @GameStep.jumpStarted s _ p (row, col) s.selected (.inl rfl) hp hnew⟩
  | advanceClock ms => exact ⟨_, addClock_eq h ms, .settled ms⟩

/-! ### The invariant along a game -/

theorem flightsOf_append_move (moves : List PendingMove) (jumps : List JumpState) (move : PendingMove) :
    (flightsOf (moves ++ [move]) jumps).Perm (move.flight :: flightsOf moves jumps) := by
  simp only [flightsOf, List.map_append, List.map_cons, List.map_nil, List.append_assoc]
  exact List.perm_middle

theorem flightsOf_append_jump (moves : List PendingMove) (jumps : List JumpState) (jump : JumpState) :
    (flightsOf moves (jumps ++ [jump])).Perm (jump.flight :: flightsOf moves jumps) := by
  simp only [flightsOf, List.map_append, List.map_cons, List.map_nil, ← List.append_assoc]
  exact List.perm_append_singleton _ _

theorem inBounds_lift {b : BoardModel} {p : Piece} {row' col' : Nat} :
    (b.lift p row col).InBounds row' col' ↔ b.InBounds row' col' := by
  simp [BoardModel.lift, InBounds]

theorem GameInv.withMove (h : GameInv s) {p : Piece} {source target : Cell} {duration : Int}
    (hp : s.board.pieceAt source.1 source.2 = some p)
    (hnew : source ∉ (flightsOf s.pendingMoves s.activeJumps).map Flight.origin)
    (hin : s.board.InBounds target.1 target.2) (hpos : 0 < duration) :
    GameInv (s.withMove p source target duration) where
  rules := h.rules
  located := (h.located.lift hp rfl hnew).perm (flightsOf_append_move _ _ _).symm
  ends move hmove := by
    refine inBounds_lift.mpr ?_
    rcases List.mem_append.mp hmove with hold | hmove
    · exact h.ends move hold
    · cases List.mem_singleton.mp hmove
      exact hin
  movesFlying move hmove := by
    rcases List.mem_append.mp hmove with hold | hmove
    · exact h.movesFlying move hold
    · cases List.mem_singleton.mp hmove
      exact Int.lt_add_of_pos_right _ hpos
  jumpsFlying := h.jumpsFlying

theorem GameInv.withJump (h : GameInv s) {p : Piece} {cell : Cell}
    (hp : s.board.pieceAt cell.1 cell.2 = some p)
    (hnew : cell ∉ (flightsOf s.pendingMoves s.activeJumps).map Flight.origin) (selected : Option Cell) :
    GameInv { s.withJump p cell with selected } where
  rules := h.rules
  located := (h.located.lift hp rfl hnew).perm (flightsOf_append_jump _ _ _).symm
  ends move hmove := inBounds_lift.mpr (h.ends move hmove)
  movesFlying := h.movesFlying
  jumpsFlying jump hjump := by
    have hduration : 0 < s.rules.jumpDurationMs := by
      rw [h.rules]
      decide
    rcases List.mem_append.mp hjump with hold | hjump
    · exact h.jumpsFlying jump hold
    · cases List.mem_singleton.mp hjump
      exact Int.lt_add_of_pos_right _ hduration

theorem GameInv.trace (h : GameInv s) (ms : Int) :
    Trace .standard s.board (flightsOf s.pendingMoves s.activeJumps) (s.events ms) (s.advance ms).board
      (flightsOf (s.advance ms).pendingMoves (s.advance ms).activeJumps) := by
  have htrace := trace_settle GameRules.standard_keepsPieces s.gameOver
    (show Located s.board (flightsOf (s.advancedArbiter ms).scheduler.pendingMoves
      (s.advancedArbiter ms).scheduler.activeJumps) from h.located) h.ends
  unfold GameState.events GameState.advance
  rw [h.rules]
  exact htrace

theorem mem_keptMoves {settled : Settling} {moves : List PendingMove} {move : PendingMove}
    (h : move ∈ keptMoves settled moves) : move ∈ moves := by
  unfold keptMoves at h
  split at h
  · exact (List.mem_filter.mp h).1
  · exact h

theorem mem_flyingMoves {ms : Int} {move : PendingMove} : move ∈ flyingMoves (s.advancedArbiter ms) ↔
    move ∈ s.pendingMoves ∧ s.clockMs + ms < move.arrivalTime := by
  rw [flyingMoves, List.mem_filter, PendingMove.isDue, Bool.not_not, decide_eq_true_eq]
  rfl

theorem mem_endedJumps {ms : Int} {jump : JumpState} : jump ∈ endedJumps (s.advancedArbiter ms) ↔
    jump ∈ s.activeJumps ∧ jump.arrivalTime ≤ s.clockMs + ms := by
  rw [endedJumps, List.mem_filter, JumpState.isDue, Bool.not_eq_true', decide_eq_false_iff_not, Int.not_lt]
  rfl

/-- A tick starts no move, and leaves none that is due. -/
theorem mem_pendingMoves_advance {ms : Int} {move : PendingMove} (h : move ∈ (s.advance ms).pendingMoves) :
    move ∈ s.pendingMoves ∧ s.clockMs + ms < move.arrivalTime :=
  mem_flyingMoves.mp (mem_keptMoves h)

theorem mem_activeJumps_advance {ms : Int} {jump : JumpState} : jump ∈ (s.advance ms).activeJumps ↔
    jump ∈ s.activeJumps ∧ s.clockMs + ms < jump.arrivalTime := by
  show jump ∈ flyingJumps (s.advancedArbiter ms) ↔ _
  rw [flyingJumps, List.mem_filter, JumpState.isDue, Bool.not_not, decide_eq_true_eq]
  rfl

theorem GameInv.advance (h : GameInv s) (ms : Int) : GameInv (s.advance ms) where
  rules := h.rules
  located := (h.trace ms).located GameRules.standard_keepsPieces h.located
  ends move hmove := (h.trace ms).inBounds.mpr (h.ends move (mem_pendingMoves_advance hmove).1)
  movesFlying _ hmove := (mem_pendingMoves_advance hmove).2
  jumpsFlying _ hjump := (mem_activeJumps_advance.mp hjump).2

theorem GameStep.inv (h : GameInv s) (hstep : GameStep s a s') : GameInv s' := by
  cases hstep with
  | quiet _ selected => exact ⟨h.rules, h.located, h.ends, h.movesFlying, h.jumpsFlying⟩
  | moveStarted _ hp hnew hin hpos => exact h.withMove hp hnew hin hpos
  | jumpStarted _ hp hnew => exact h.withJump hp hnew _
  | settled ms => exact h.advance ms

end Step

theorem gameInv_new {board : BoardModel} (h : AcceptedBoard board) : GameInv (GameState.new board) := by
  obtain ⟨lines, before, hparse⟩ := h
  obtain ⟨⟨hlaid, -⟩, width, -, hlines⟩ := parseBoardRows_laid hparse
  refine ⟨rfl, hlaid.located hlines.width_eq, ?_, ?_, ?_⟩
  · intro move h
    obtain ⟨⟩ := h
  · intro move h
    obtain ⟨⟩ := h
  · intro jump h
    obtain ⟨⟩ := h

theorem AcceptedBoard.idle {board : BoardModel} (h : AcceptedBoard board) {id : Nat} {p : Piece}
    (hp : board.findPieceById id = some p) : p.state = .idle := by
  obtain ⟨lines, before, hparse⟩ := h
  exact (parseBoardRows_laid hparse).1.idle hp

theorem runActions_inv {s : GameState} (h : GameInv s) (actions : List GameAction) :
    ∃ s', s.runActions actions = .ok s' ∧ GameInv s' := by
  refine foldlM_consumes (fun _ s => GameInv s) ?_ actions s h
  intro a _ s hs
  obtain ⟨s', hs', hstep⟩ := applyAction_step hs a
  exact ⟨s', hs', hstep.inv hs⟩

/-! ### The states and the steps of one game -/

/-- A state that the game `actions` on `board` passes through. -/
def Visits (board : BoardModel) (actions : List GameAction) (s : GameState) : Prop :=
  ∃ before after, actions = before ++ after ∧ (GameState.new board).runActions before = .ok s

/-- A step that the game takes. -/
def Takes (board : BoardModel) (actions : List GameAction) (s : GameState) (a : GameAction)
    (s' : GameState) : Prop :=
  ∃ before after, actions = before ++ a :: after ∧ (GameState.new board).runActions before = .ok s ∧
    s.applyAction a = .ok s'

section Games

variable {board : BoardModel} {actions : List GameAction} {s s' : GameState} {a : GameAction}

theorem Takes.visits (h : Takes board actions s a s') :
    Visits board actions s ∧ Visits board actions s' := by
  obtain ⟨before, after, rfl, hrun, hstep⟩ := h
  refine ⟨⟨before, _, rfl, hrun⟩, before ++ [a], after, by simp, ?_⟩
  rw [GameState.runActions, List.foldlM_append]
  refine bind_eq_ok.mpr ⟨s, hrun, ?_⟩
  rw [List.foldlM_cons, hstep]
  rfl

/-- Induction along a game. -/
theorem Visits.induction {P : GameState → Prop} (hstart : P (GameState.new board))
    (hstep : ∀ s a s', Takes board actions s a s' → P s → P s') (h : Visits board actions s) : P s := by
  obtain ⟨before, after, hsplit, hrun⟩ := h
  induction before using List.reverseRecOn generalizing s after with
  | nil =>
      cases hrun
      exact hstart
  | append_singleton before a ih =>
      rw [GameState.runActions, List.foldlM_append] at hrun
      obtain ⟨mid, hmid, hlast⟩ := bind_eq_ok.mp hrun
      have happly : mid.applyAction a = .ok s := by
        rw [List.foldlM_cons] at hlast
        obtain ⟨s', hs', hdone⟩ := bind_eq_ok.mp hlast
        cases hdone
        exact hs'
      have hsplit' : actions = before ++ a :: after := by simpa using hsplit
      exact hstep mid a s ⟨before, after, hsplit', hmid, happly⟩ (ih (a :: after) hsplit' hmid)

theorem Visits.inv (hboard : AcceptedBoard board) (h : Visits board actions s) : GameInv s := by
  obtain ⟨before, -, -, hrun⟩ := h
  obtain ⟨s', hs', hinv⟩ := runActions_inv (gameInv_new hboard) before
  rw [hrun] at hs'
  cases hs'
  exact hinv

theorem Takes.gameStep (hboard : AcceptedBoard board) (h : Takes board actions s a s') :
    GameStep s a s' := by
  obtain ⟨next, hnext, hstep⟩ := applyAction_step (h.visits.1.inv hboard) a
  obtain ⟨before, after, -, -, happly⟩ := h
  rw [happly] at hnext
  cases hnext
  exact hstep

theorem Visits.of_run (hrun : (GameState.new board).runActions actions = .ok s) : Visits board actions s :=
  ⟨actions, [], (List.append_nil _).symm, hrun⟩

theorem Visits.reachable (hboard : AcceptedBoard board) (h : Visits board actions s) : Reachable s := by
  obtain ⟨before, -, -, hrun⟩ := h
  exact ⟨board, hboard, before, hrun⟩

theorem Takes.applies (h : Takes board actions s a s') : s.applyAction a = .ok s' := by
  obtain ⟨before, after, -, -, hstep⟩ := h
  exact hstep

end Games

section Reach

variable {s : GameState}

theorem Reachable.inv (h : Reachable s) : GameInv s := by
  obtain ⟨board, hboard, actions, hrun⟩ := h
  exact (Visits.of_run hrun).inv hboard

/-- What every game starts with and every action keeps holds in every game. -/
theorem Reachable.induction {P : GameState → Prop} (hstart : ∀ board, AcceptedBoard board → P (.new board))
    (hstep : ∀ s a s', Reachable s → s.applyAction a = .ok s' → P s → P s') (h : Reachable s) : P s := by
  obtain ⟨board, hboard, actions, hrun⟩ := h
  refine (Visits.of_run hrun).induction (hstart board hboard) fun mid a next htakes hmid => ?_
  exact hstep mid a next (htakes.visits.1.reachable hboard) htakes.applies hmid

end Reach

end KungFuChess
