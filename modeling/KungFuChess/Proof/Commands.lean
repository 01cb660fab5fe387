import KungFuChess.Proof.Cooldowns
import KungFuChess.Proof.Drivers

/-!
# Commands

Whatever the commands are, what they do to a game is a run of actions, and no action fails. Between two of them nothing
is due and no rest is over, so a settlement finds nothing to do and printing the board changes nothing. And no
settlement empties a cell, so the selected cell keeps a piece until its piece is asked to leave.
-/

namespace KungFuChess

open Loops BoardModel

/-! ### No access off the board -/

section Safety

variable {s : GameState} {flights : List Flight} {row col : Nat}

theorem isSome_pieceAt_iff {b : BoardModel} (h : Located b flights) :
    (b.pieceAt row col).isSome = true ↔ b.cellId row col ≠ none := by
  rw [Option.isSome_iff_ne_none, ne_eq, h.pieceAt_eq_none_iff]

theorem isPiece_eq (h : Located s.board flights) (row col : Nat) :
    s.isPiece row col = .ok (s.board.pieceAt row col).isSome := by
  unfold GameState.isPiece
  by_cases hin : s.board.InBounds row col
  · have hsome : (!(s.board.cellId row col).isNone) = (s.board.pieceAt row col).isSome := by
      rw [Bool.eq_iff_iff, isSome_pieceAt_iff h, Bool.not_eq_true', Option.isNone_eq_false_iff,
        Option.isSome_iff_ne_none]
    rw [GameState.isInBounds, isInBounds_iff.mpr hin, isEmpty_eq h.rect hin, ok_bind, pure_eq_ok, hsome]
    rfl
  · have hout : s.isInBounds row col = false := by
      rw [← Bool.not_eq_true, GameState.isInBounds, isInBounds_iff]
      exact hin
    have hnone : s.board.pieceAt row col = none := by
      rw [h.pieceAt_eq_none_iff]
      cases hcell : s.board.cellId row col with
      | none => rfl
      | some id => exact absurd (inBounds_of_cellId h.rect hcell) hin
    rw [hout, hnone]
    rfl

theorem isSelectablePiece_eq (h : Located s.board flights) (row col : Nat) :
    s.isSelectablePiece row col = .ok ((s.board.pieceAt row col).isSome && !s.isPieceMoving row col
      && !s.isPieceJumping row col && !s.isPieceResting row col) := by
  rw [GameState.isSelectablePiece, isPiece_eq h]
  rfl

/-- Reading and writing off the board. -/
structure Guarded (b : BoardModel) : Prop where
  isEmpty : ∀ row col, ¬b.InBounds row col → b.isEmpty row col = .error (.cellAccess row col)
  writeCell : ∀ row col id, ¬b.InBounds row col → b.writeCell row col id = .error (.cellAccess row col)
  removePieceAt : ∀ row col, ¬b.InBounds row col → b.removePieceAt row col = .error (.cellAccess row col)

theorem guarded_of_rect {b : BoardModel} (hrect : b.Rect) : Guarded b := by
  have hnone : ∀ row col, ¬b.InBounds row col → b.entryAt row col = none := fun row col hout =>
    Option.eq_none_iff_forall_ne_some.mpr fun entry hentry => hout (inBounds_of_entryAt hrect hentry)
  constructor
  · intro row col hout
    rw [BoardModel.isEmpty, hnone row col hout]
  · intro row col id hout
    rw [BoardModel.writeCell, hnone row col hout]
  · intro row col hout
    rw [BoardModel.removePieceAt, hnone row col hout]

/-- No action of a game fails, though on every board it comes to an access off the board would. -/
theorem board_accesses_in_range {board : BoardModel} (hboard : AcceptedBoard board) (actions : List GameAction) :
    (∀ fault, (GameState.new board).runActions actions ≠ .error fault) ∧
      ∀ s, Visits board actions s → Guarded s.board := by
  refine ⟨fun fault hfault => ?_, fun s hvisits => guarded_of_rect (hvisits.inv hboard).located.rect⟩
  obtain ⟨s, hs, -⟩ := runActions_inv (gameInv_new hboard) actions
  rw [hfault] at hs
  cases hs

/-- Coordinates far off the board, and times that lie in the past. -/
theorem board_accesses_in_range_duel :
    (∀ fault, (GameState.new duelBoard).runActions [.select 0 0, .moveSelected (2 ^ 64 - 1) 7, .moveSelected 1 0,
        .jumpAt 9 9, .advanceClock (-5), .advanceClock 1005] ≠ .error fault) ∧
      ∀ s, Visits duelBoard [.select 0 0, .moveSelected (2 ^ 64 - 1) 7, .moveSelected 1 0, .jumpAt 9 9,
        .advanceClock (-5), .advanceClock 1005] s → Guarded s.board :=
  board_accesses_in_range duelBoard_accepted _

end Safety

/-! ### Settling again -/

section Settled

variable {s : GameState}

/-- Where no rest is over none is dropped. -/
theorem RestInv.expireRests (hr : RestInv s) : KungFuChess.expireRests s.clockMs s.activeRests = s.activeRests := by
  refine OrdMap.ext_find? fun id => ?_
  rw [find?_expireRests]
  cases hrest : s.activeRests.find? id with
  | none => rfl
  | some rest =>
      have hrunning := hr.running id rest hrest
      exact Option.filter_eq_some_iff.mpr ⟨rfl, by simpa using hrunning⟩

theorem Reachable.retimed_eq (h : Reachable s) :
    s.retimed s.clockMs (KungFuChess.expireRests s.clockMs s.activeRests) = s := by
  rw [h.restInv.expireRests]
  rfl

theorem Reachable.settlePendingMoves (h : Reachable s) : s.settlePendingMoves = .ok s := by
  rw [settlePendingMoves_eq_addClock, h.nothingDue.addClock_zero, h.retimed_eq]

theorem Reachable.writeBoard (h : Reachable s) : s.writeBoard = .ok (KungFuChess.writeBoard s.board, s) := by
  rw [GameState.writeBoard, h.settlePendingMoves]
  rfl

theorem Reachable.execute_print (h : Reachable s) (handler : GameInputHandler) :
    handler.execute s kPrintBoardCommand = .ok (KungFuChess.writeBoard s.board ++ ['\n'], s) := by
  rw [KungFuChess.execute_print handler h.nothingDue, h.retimed_eq]

theorem Reachable.runActions {s' : GameState} (h : Reachable s) {actions : List GameAction}
    (hrun : s.runActions actions = .ok s') : Reachable s' := by
  obtain ⟨board, hboard, before, hbefore⟩ := h
  refine ⟨board, hboard, before ++ actions, ?_⟩
  rw [runActions_append, hbefore]
  exact hrun

end Settled

/-! ### What a command does -/

/-- What a command can do to a game. -/
inductive Commanded (s : GameState) : GameState → Prop where
  | nothing : Commanded s s
  | selected {cell : Cell} {p : Piece} (hp : s.board.pieceAt cell.1 cell.2 = some p) :
      Commanded s { s with selected := some cell }
  | dropped {s' : GameState} (actions : List GameAction) (hrun : s.runActions actions = .ok s')
      (hnone : s'.selected = none) : Commanded s s'
  | ticked (ms : Int) : Commanded s (s.advance ms)

section Handlers

variable {s : GameState} {row col : Nat}

theorem select_eq (h : GameInv s) {p : Piece} (hp : s.board.pieceAt row col = some p) :
    s.select row col = { s with selected := some (row, col) } := by
  have hin := inBounds_of_cellId h.located.rect (h.located.pieceAt_eq_some_iff.mp hp).1
  rw [GameState.select, GameState.isInBounds, isInBounds_iff.mpr hin]
  rfl

theorem handleSelect_commanded (h : GameInv s) (row col : Nat) :
    ∃ s', GameInputHandler.handleSelect s row col = .ok s' ∧ Commanded s s' := by
  unfold GameInputHandler.handleSelect
  rw [isSelectablePiece_eq h.located, ok_bind]
  split
  · rename_i hselectable
    simp only [Bool.and_eq_true] at hselectable
    obtain ⟨p, hp⟩ := Option.isSome_iff_exists.mp hselectable.1.1.1
    exact ⟨_, rfl, select_eq h hp ▸ .selected hp⟩
  · exact ⟨s, rfl, .nothing⟩

/-- A piece is asked to jump and the selection dropped. -/
theorem jumpAt_commanded (h : GameInv s) (row col : Nat) :
    ∃ s', (do return (← s.jumpAt row col).clearSelection) = .ok s' ∧ Commanded s s' := by
  obtain ⟨mid, hmid, -⟩ := applyAction_step h (.jumpAt row col)
  change s.jumpAt row col = .ok mid at hmid
  refine ⟨mid.clearSelection, by rw [hmid]; rfl, .dropped [.jumpAt row col, .clearSelection] ?_ rfl⟩
  rw [runActions_cons, GameState.applyAction, hmid, ok_bind, runActions_singleton]
  rfl

theorem handleFriendlyClick_commanded (h : GameInv s) {p : Piece} (hp : s.board.pieceAt row col = some p) :
    ∃ s', GameInputHandler.handleFriendlyClick s row col = .ok s' ∧ Commanded s s' := by
  unfold GameInputHandler.handleFriendlyClick
  cases hselected : s.selected with
  | none => exact ⟨_, rfl, select_eq h hp ▸ .selected hp⟩
  | some source =>
      dsimp only
      split
      · split
        · rw [GameState.jumpSelected, hselected]
          exact jumpAt_commanded h _ _
        · exact ⟨s, rfl, .nothing⟩
      · exact ⟨_, rfl, select_eq h hp ▸ .selected hp⟩

theorem moveSelectedTo_commanded (h : GameInv s) (row col : Nat) :
    ∃ s', s.moveSelectedTo row col = .ok s' ∧ Commanded s s' := by
  obtain ⟨s', hs', -⟩ := moveSelectedTo_step h row col
  refine ⟨s', hs', ?_⟩
  rcases moveSelectedTo_cases h hs' with rfl | ⟨p, source, hstart⟩
  · exact .nothing
  · refine .dropped [.moveSelected row col] ((runActions_singleton _ _).trans hs') ?_
    obtain rfl := hstart.eq_withMove h.located
    rfl

theorem handleMoveAttempt_commanded (h : GameInv s) (row col : Nat) :
    ∃ s', GameInputHandler.handleMoveAttempt s row col = .ok s' ∧ Commanded s s' := by
  unfold GameInputHandler.handleMoveAttempt
  cases s.selected with
  | none => exact ⟨s, rfl, .nothing⟩
  | some source =>
      dsimp only
      split
      · exact ⟨s, rfl, .nothing⟩
      · exact moveSelectedTo_commanded h row col

/-- A piece that is friendly to the selection is a piece. -/
theorem isFriendlyToSelection_spec (h : GameInv s) (row col : Nat) :
    ∃ v, s.isFriendlyToSelection row col = .ok v ∧ (v = true → ∃ p, s.board.pieceAt row col = some p) := by
  unfold GameState.isFriendlyToSelection
  cases s.selected with
  | none => exact ⟨false, rfl, by simp⟩
  | some source =>
      dsimp only
      rw [isSelectablePiece_eq h.located, ok_bind]
      split
      · exact ⟨false, rfl, by simp⟩
      · cases hp : s.board.pieceAt row col with
        | none => cases s.board.pieceAt source.1 source.2 <;> exact ⟨false, rfl, by simp⟩
        | some p => cases s.board.pieceAt source.1 source.2 <;> exact ⟨_, rfl, fun _ => ⟨p, rfl⟩⟩

theorem handleClick_commanded (handler : GameInputHandler) (h : GameInv s) (x y : Int) :
    ∃ s', handler.handleClick s x y = .ok s' ∧ Commanded s s' := by
  unfold GameInputHandler.handleClick
  split
  · exact ⟨s, rfl, .nothing⟩
  split
  · exact ⟨s, rfl, .nothing⟩
  split
  · exact ⟨s, rfl, .nothing⟩
  split
  · exact handleSelect_commanded h _ _
  · rename_i row col _ _ _
    obtain ⟨v, hv, hfriend⟩ := isFriendlyToSelection_spec h row col
    rw [hv, ok_bind]
    cases v with
    | false => exact handleMoveAttempt_commanded h row col
    | true =>
        obtain ⟨p, hp⟩ := hfriend rfl
        exact handleFriendlyClick_commanded h hp

theorem handleJump_commanded (handler : GameInputHandler) (h : GameInv s) (x y : Int) :
    ∃ s', handler.handleJump s x y = .ok s' ∧ Commanded s s' := by
  unfold GameInputHandler.handleJump
  split
  · exact ⟨s, rfl, .nothing⟩
  split
  · exact ⟨s, rfl, .nothing⟩
  split
  · exact ⟨s, rfl, .nothing⟩
  split
  · exact ⟨s, rfl, .nothing⟩
  · exact jumpAt_commanded h _ _

theorem handleWait_commanded (h : GameInv s) (ms : Int) :
    ∃ s', GameInputHandler.handleWait s ms = .ok s' ∧ Commanded s s' := by
  unfold GameInputHandler.handleWait
  split
  · exact ⟨s, rfl, .nothing⟩
  · exact ⟨s.advance ms, addClock_eq h ms, .ticked ms⟩

/-- Malformed commands do nothing. -/
theorem execute_commanded (handler : GameInputHandler) (h : Reachable s) (command : Text) :
    ∃ printed s', handler.execute s command = .ok (printed, s') ∧ Commanded s s' := by
  by_cases hprint : command = kPrintBoardCommand
  · subst hprint
    exact ⟨_, s, h.execute_print handler, .nothing⟩
  unfold GameInputHandler.execute
  split
  · exact ⟨[], s, rfl, .nothing⟩
  split
  · split
    · exact ⟨[], s, rfl, .nothing⟩
    split
    · exact ⟨[], s, rfl, .nothing⟩
    · rename_i x _ _ _ y _ _
      obtain ⟨s', hs', hcommanded⟩ := handleClick_commanded handler h.inv x y
      exact ⟨[], s', by rw [hs']; rfl, hcommanded⟩
  split
  · split
    · exact ⟨[], s, rfl, .nothing⟩
    split
    · exact ⟨[], s, rfl, .nothing⟩
    · rename_i x _ _ _ y _ _
      obtain ⟨s', hs', hcommanded⟩ := handleJump_commanded handler h.inv x y
      exact ⟨[], s', by rw [hs']; rfl, hcommanded⟩
  split
  · split
    · exact ⟨[], s, rfl, .nothing⟩
    · rename_i ms _ _
      obtain ⟨s', hs', hcommanded⟩ := handleWait_commanded h.inv ms
      exact ⟨[], s', by rw [hs']; rfl, hcommanded⟩
  · rw [if_neg fun hverb => hprint hverb.2]
    exact ⟨[], s, rfl, .nothing⟩

end Handlers

/-! ### Occupied cells -/

section Occupied

variable {rules : GameRules} {b b' : BoardModel} {f : Flight} {e : SettleEvent} {flights left : List Flight}
  {events : List SettleEvent} {row col : Nat}

theorem Fits.occupied (h : Fits b f e) (hb : Located b (f :: left)) (hcell : b.cellId row col ≠ none) :
    (e.boardAfter rules b).cellId row col ≠ none := by
  cases h with
  | landed hfind htarget hin hcolor =>
      rw [SettleEvent.boardAfter, hb.cellId_land hin]
      split
      · simp
      · exact hcell
  | shotDown hfind hcolor =>
      rw [SettleEvent.boardAfter, cellId_setPiece]
      exact hcell
  | putBack hfind =>
      rw [SettleEvent.boardAfter, hb.cellId_land (hb.originsIn f List.mem_cons_self)]
      split
      · simp
      · exact hcell

/-- No settlement empties a cell. -/
theorem Trace.occupied (hrules : rules.KeepsPieces) (h : Trace rules b flights events b' left) (hb : Located b flights)
    (hcell : b.cellId row col ≠ none) : b'.cellId row col ≠ none := by
  induction h with
  | nil => exact hcell
  | cons hperm hfits _ ih =>
      have hlocated := hb.perm hperm
      exact ih (hfits.located hrules hlocated) (hfits.occupied hlocated hcell)

end Occupied

/-! ### The selection -/

/-- The selected cell holds a piece. -/
def Held (s : GameState) : Prop := ∀ cell, s.selected = some cell → ∃ p, s.board.pieceAt cell.1 cell.2 = some p

section Runs

variable {s s' : GameState} {engine : GameEngine} {commands : List Text}

theorem Held.advance (hheld : Held s) (h : GameInv s) (ms : Int) : Held (s.advance ms) := by
  intro cell hselected
  obtain ⟨p, hp⟩ := hheld cell hselected
  have hcell : s.board.cellId cell.1 cell.2 ≠ none := by
    rw [(h.located.pieceAt_eq_some_iff.mp hp).1]
    simp
  have hafter := (h.trace ms).occupied GameRules.standard_keepsPieces h.located hcell
  exact Option.isSome_iff_exists.mp ((isSome_pieceAt_iff (h.advance ms).located).mpr hafter)

theorem Commanded.held (hcommanded : Commanded s s') (hheld : Held s) (h : GameInv s) : Held s' := by
  cases hcommanded with
  | nothing => exact hheld
  | @selected cell p hp =>
      intro other h
      obtain ⟨⟩ := h
      exact ⟨p, hp⟩
  | dropped actions hrun hnone =>
      intro cell hselected
      rw [hnone] at hselected
      cases hselected
  | ticked ms => exact hheld.advance h ms

theorem Commanded.reachable (hcommanded : Commanded s s') (h : Reachable s) : Reachable s' := by
  cases hcommanded with
  | nothing => exact h
  | @selected cell p hp =>
      have hrun : s.runActions [.select cell.1 cell.2] = .ok { s with selected := some cell } := by
        rw [runActions_singleton, GameState.applyAction, select_eq h.inv hp]
      exact h.runActions hrun
  | dropped actions hrun => exact h.runActions hrun
  | ticked ms =>
      have hrun : s.runActions [.advanceClock ms] = .ok (s.advance ms) := by
        rw [runActions_singleton, GameState.applyAction, addClock_eq h.inv]
      exact h.runActions hrun

/-- What every command keeps is kept by every run of commands. -/
theorem executeAll_keeps {P : GameState → Prop} (hstep : ∀ s s', Reachable s → Commanded s s' → P s → P s')
    (hreach : Reachable engine.state) (hp : P engine.state) :
    ∃ printed engine', engine.executeAll commands = .ok (printed, engine') ∧ Reachable engine'.state ∧ P engine'.state := by
  induction commands generalizing engine with
  | nil => exact ⟨[], engine, rfl, hreach, hp⟩
  | cons command commands ih =>
      obtain ⟨line, s', hs', hcommanded⟩ := execute_commanded engine.processor hreach command
      obtain ⟨later, engine', hengine', hlast⟩ := @ih { engine with state := s' } (hcommanded.reachable hreach)
        (hstep _ _ hreach hcommanded hp)
      refine ⟨line ++ later, engine', ?_, hlast⟩
      rw [GameEngine.executeAll, GameEngine.execute, hs']
      simp only [ok_bind, pure_eq_ok, hengine']

theorem reachable_new {board : BoardModel} (hboard : AcceptedBoard board) : Reachable (.new board) :=
  ⟨board, hboard, [], rfl⟩

/-- Printing the board can be left out of a run. -/
theorem executeAll_filter (hreach : Reachable engine.state) :
    Prod.snd <$> engine.executeAll commands =
      Prod.snd <$> engine.executeAll (commands.filter (· ≠ kPrintBoardCommand)) := by
  induction commands generalizing engine with
  | nil => rfl
  | cons command commands ih =>
      by_cases hprint : command = kPrintBoardCommand
      · rw [List.filter_cons_of_neg (by simp [hprint]), ← ih hreach, GameEngine.executeAll, GameEngine.execute, hprint,
          hreach.execute_print]
        simp only [ok_bind, pure_eq_ok]
        cases engine.executeAll commands <;> rfl
      · obtain ⟨line, s', hs', hcommanded⟩ := execute_commanded engine.processor hreach command
        have hrest := @ih { engine with state := s' } (hcommanded.reachable hreach)
        rw [List.filter_cons_of_pos (by simp [hprint]), GameEngine.executeAll, GameEngine.executeAll,
          GameEngine.execute, hs']
        simp only [ok_bind, pure_eq_ok]
        revert hrest
        cases GameEngine.executeAll { engine with state := s' } commands <;>
          cases GameEngine.executeAll { engine with state := s' } (commands.filter (· ≠ kPrintBoardCommand)) <;>
          exact fun hrest => hrest

/-- Settling a game again changes nothing, nor does printing it, however often a run does it. -/
theorem settling_is_idempotent :
    (∀ s, Reachable s → s.settlePendingMoves = .ok s ∧ s.writeBoard = .ok (writeBoard s.board, s) ∧
      ∀ handler : GameInputHandler,
        handler.execute s kPrintBoardCommand = .ok (writeBoard s.board ++ ['\n'], s)) ∧
    ∀ engine : GameEngine, Reachable engine.state → ∀ commands,
      Prod.snd <$> engine.executeAll commands =
        Prod.snd <$> engine.executeAll (commands.filter (· ≠ kPrintBoardCommand)) :=
  ⟨fun _ hreach => ⟨hreach.settlePendingMoves, hreach.writeBoard, hreach.execute_print⟩,
    fun _ hreach _ => executeAll_filter hreach⟩

/-- The rook rests when the board is printed. -/
theorem settling_is_idempotent_duel :
    ∃ s, (GameState.new duelBoard).runActions [.select 0 0, .moveSelected 1 0, .advanceClock 1000] = .ok s ∧
      s.settlePendingMoves = .ok s ∧
      Prod.snd <$> (GameEngine.new duelBoard).executeAll
          ["click 50 50".toList, "print board".toList, "click 50 150".toList, "print board".toList] =
        Prod.snd <$> (GameEngine.new duelBoard).executeAll ["click 50 50".toList, "click 50 150".toList] := by
  obtain ⟨s, hs, -⟩ := runActions_inv (gameInv_new duelBoard_accepted)
    [.select 0 0, .moveSelected 1 0, .advanceClock 1000]
  have hreach : Reachable s := ⟨duelBoard, duelBoard_accepted, _, hs⟩
  refine ⟨s, hs, (settling_is_idempotent.1 s hreach).1, ?_⟩
  exact settling_is_idempotent.2 (.new duelBoard) (reachable_new duelBoard_accepted) _

/-- Whatever the commands are, none fails, and a selected cell is on the board and holds a piece. -/
theorem selection_never_dangles {board : BoardModel} (hboard : AcceptedBoard board) (handler : GameInputHandler)
    (commands : List Text) :
    ∃ printed engine, (GameEngine.mk (.new board) handler).executeAll commands = .ok (printed, engine) ∧
      ∀ cell, engine.state.selected = some cell →
        engine.state.board.InBounds cell.1 cell.2 ∧ ∃ p, engine.state.board.pieceAt cell.1 cell.2 = some p := by
  have hstart : Held (.new board) := by
    intro cell h
    obtain ⟨⟩ := h
  have hstep : ∀ s s', Reachable s → Commanded s s' → Held s → Held s' :=
    fun _ _ hreach hcommanded hheld => hcommanded.held hheld hreach.inv
  obtain ⟨printed, engine, hrun, hreach, hheld⟩ := @executeAll_keeps ⟨.new board, handler⟩ commands Held hstep
    (reachable_new hboard) hstart
  refine ⟨printed, engine, hrun, fun cell hselected => ?_⟩
  obtain ⟨p, hp⟩ := hheld cell hselected
  have hlocated := hreach.inv.located
  exact ⟨inBounds_of_cellId hlocated.rect (hlocated.pieceAt_eq_some_iff.mp hp).1, p, hp⟩

/-- The king is selected, and taken while it is. -/
theorem selection_never_dangles_duel :
    ∃ printed engine, (GameEngine.new duelBoard).executeAll ["click 50 50".toList, "click 150 50".toList,
        "click 150 50".toList, "wait 1000".toList, "click".toList] = .ok (printed, engine) ∧
      ∀ cell, engine.state.selected = some cell →
        engine.state.board.InBounds cell.1 cell.2 ∧ ∃ p, engine.state.board.pieceAt cell.1 cell.2 = some p :=
  selection_never_dangles duelBoard_accepted _ _

end Runs

end KungFuChess
