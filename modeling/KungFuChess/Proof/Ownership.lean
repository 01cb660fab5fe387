import KungFuChess.Model.Match
import KungFuChess.Proof.Pieces

/-!
# Who may move what

Both players act on one game with one selection. The permission check reads the colour of the piece on
the cell an action names, or on the selected cell, and the action then acts on the piece on that same
cell, so an allowed action touches the player's own pieces only.
-/

namespace KungFuChess

open Loops BoardModel

/-! ### The permission check -/

theorem descriptorFromToken_toToken (color : PieceColor) (kind : PieceKind) :
    ∃ d, descriptorFromToken (toToken color kind) = some d ∧ d.color = color := by
  cases color <;> cases kind <;> exact ⟨_, rfl, rfl⟩

section Permission

variable {s : GameState} {m : Match} {side : PieceColor} {row col : Nat}

theorem pieceColorAt_eq (h : GameInv s) (row col : Nat) :
    pieceColorAt s row col = .ok ((s.board.pieceAt row col).map Piece.color) := by
  unfold pieceColorAt GameState.isPiece
  by_cases hin : s.board.InBounds row col
  · have hbounds : s.isInBounds row col = true := isInBounds_iff.mpr hin
    simp only [hbounds, Bool.not_true, Bool.false_eq_true, if_false, isEmpty_eq h.located.rect hin,
      ok_bind, pure_eq_ok, Bool.not_not]
    cases hp : s.board.pieceAt row col with
    | none =>
        rw [h.located.pieceAt_eq_none_iff.mp hp]
        rfl
    | some p =>
        have htoken : s.tokenAt row col = toToken p.color p.kind := by
          simp only [GameState.tokenAt, BoardModel.tokenAt, hp]
        obtain ⟨d, hd, hcolor⟩ := descriptorFromToken_toToken p.color p.kind
        rw [(h.located.pieceAt_eq_some_iff.mp hp).1, htoken, hd]
        simp [hcolor]
  · have hbounds : s.isInBounds row col = false := by
      rw [← Bool.not_eq_true]
      exact fun hin' => hin (isInBounds_iff.mp hin')
    have hnone : s.board.pieceAt row col = none := by
      rw [h.located.pieceAt_eq_none_iff]
      cases hcell : s.board.cellId row col with
      | none => rfl
      | some id => exact absurd (inBounds_of_cellId h.located.rect hcell) hin
    simp [hbounds, hnone]

/-- The piece on the cell has the player's colour. -/
def ownsPieceAt (s : GameState) (side : PieceColor) (row col : Nat) : Bool :=
  (s.board.pieceAt row col).map Piece.color == some side

/-- The verdict of the permission check. -/
def allowed (side : PieceColor) (s : GameState) : GameAction → Bool
  | .clearSelection => true
  | .advanceClock _ => false
  | .select row col => ownsPieceAt s side row col
  | .jumpAt row col => ownsPieceAt s side row col
  | .moveSelected _ _ | .jumpSelected => s.selected.any fun cell => ownsPieceAt s side cell.1 cell.2

theorem isActionAllowed_eq (h : GameInv m.state) (side : PieceColor) (a : GameAction) :
    isActionAllowed side m a = .ok (allowed side m.state a) := by
  have howns : ∀ row col, (do return (← pieceColorAt m.state row col) == some side : Checked Bool)
      = .ok (ownsPieceAt m.state side row col) := by
    intro row col
    rw [pieceColorAt_eq h, ok_bind, pure_eq_ok, ownsPieceAt]
  cases a with
  | clearSelection => rfl
  | advanceClock ms => rfl
  | select row col => exact howns row col
  | jumpAt row col => exact howns row col
  | moveSelected toRow toCol =>
      simp only [isActionAllowed, allowed]
      cases m.state.selected with
      | none => rfl
      | some cell => exact howns cell.1 cell.2
  | jumpSelected =>
      simp only [isActionAllowed, allowed]
      cases m.state.selected with
      | none => rfl
      | some cell => exact howns cell.1 cell.2

theorem ownsPieceAt_color {p : Piece} (h : ownsPieceAt s side row col = true)
    (hp : s.board.pieceAt row col = some p) : p.color = side := by
  simpa [ownsPieceAt, hp] using h

end Permission

/-! ### What an allowed action leaves alone -/

/-- Nothing of the other colour has changed, nor the clock nor the result, and what has been started
belongs to `side`. -/
structure OnlyTouches (side : PieceColor) (s s' : GameState) : Prop where
  pieces : ∀ id p, p.color ≠ side →
    (s'.board.findPieceById id = some p ↔ s.board.findPieceById id = some p)
  cells : ∀ row col p, p.color ≠ side →
    (s'.board.pieceAt row col = some p ↔ s.board.pieceAt row col = some p)
  moves : s'.pendingMoves.filter (·.color ≠ side) = s.pendingMoves.filter (·.color ≠ side)
  jumps : s'.activeJumps.filter (·.color ≠ side) = s.activeJumps.filter (·.color ≠ side)
  rests : s'.activeRests = s.activeRests
  clock : s'.clockMs = s.clockMs
  gameOver : s'.isGameOver = s.isGameOver
  newMoves : ∀ move ∈ s'.pendingMoves, move ∉ s.pendingMoves → move.color = side
  newJumps : ∀ jump ∈ s'.activeJumps, jump ∉ s.activeJumps → jump.color = side

section Touch

variable {s s' : GameState} {side : PieceColor} {a : GameAction} {p : Piece}

theorem OnlyTouches.of_selection (s : GameState) (side : PieceColor) (selected : Option Cell) :
    OnlyTouches side s { s with selected } where
  pieces _ _ _ := Iff.rfl
  cells _ _ _ _ := Iff.rfl
  moves := rfl
  jumps := rfl
  rests := rfl
  clock := rfl
  gameOver := rfl
  newMoves _ hmove hnot := absurd hmove hnot
  newJumps _ hjump hnot := absurd hjump hnot

theorem findPieceById_lift_iff {flights : List Flight} {b : BoardModel} {row col id : Nat} {q : Piece}
    (hb : Located b flights) (hp : b.pieceAt row col = some p) (hq : q.color ≠ p.color) :
    (b.lift p row col).findPieceById id = some q ↔ b.findPieceById id = some q := by
  have hpfind := (hb.pieceAt_eq_some_iff.mp hp).2
  have hfind := findPieceById_setPiece (p := { p with state := .moving }) hpfind id
  rw [BoardModel.lift, findPieceById_setCell, hfind]
  split
  · rename_i hid
    refine iff_of_false ?_ ?_
    · intro h
      obtain ⟨⟩ := h
      exact hq rfl
    · rw [hid]
      intro hsame
      cases hpfind.symm.trans hsame
      exact hq rfl
  · exact Iff.rfl

theorem pieceAt_lift_iff {flights : List Flight} {b : BoardModel} {row col row' col' : Nat} {q : Piece}
    (hb : Located b flights) (hp : b.pieceAt row col = some p) (hq : q.color ≠ p.color) :
    (b.lift p row col).pieceAt row' col' = some q ↔ b.pieceAt row' col' = some q := by
  obtain ⟨hcell, hpfind⟩ := hb.pieceAt_eq_some_iff.mp hp
  have hin := inBounds_of_cellId hb.rect hcell
  have hrect : (b.lift p row col).Rect := rect_setCell _ _ _ _ (rect_setPiece b _ hb.rect)
  have hids : (b.lift p row col).IdsInPlace :=
    idsInPlace_setPiece hb.idsInPlace (p := { p with state := .moving }) hpfind
  rw [pieceAt_eq hrect, pieceAt_eq hb.rect, Option.bind_eq_some_iff, Option.bind_eq_some_iff]
  have hcell' : (b.lift p row col).cellId row' col'
      = if row' = row ∧ col' = col then none else b.cellId row' col' :=
    cellId_setCell (rect_setPiece b _ hb.rect) hin none row' col'
  rw [hcell']
  constructor
  · intro h
    obtain ⟨id, hid, hqfind⟩ := h
    split at hid
    · cases hid
    · exact ⟨id, hid, (findPieceById_lift_iff hb hp hq).mp hqfind⟩
  · intro h
    obtain ⟨id, hid, hqfind⟩ := h
    refine ⟨id, ?_, (findPieceById_lift_iff hb hp hq).mpr hqfind⟩
    rw [if_neg]
    · exact hid
    · intro h
      obtain ⟨rfl, rfl⟩ := h
      rw [hcell] at hid
      cases hid
      rw [hpfind] at hqfind
      cases hqfind
      exact hq rfl

theorem GameStep.onlyTouches (h : GameInv s) (hstep : GameStep s a s') (hallowed : allowed side s a = true) :
    OnlyTouches side s s' := by
  cases hstep with
  | quiet _ selected => exact .of_selection s side selected
  | @moveStarted p source target duration hselected hp hnew hin hpos =>
      have hcolor : p.color = side := by
        simp only [allowed, hselected, Option.any_some] at hallowed
        exact ownsPieceAt_color hallowed hp
      subst hcolor
      refine ⟨?_, ?_, ?_, rfl, rfl, rfl, rfl, ?_, ?_⟩
      · exact fun id q hq => findPieceById_lift_iff h.located hp hq
      · exact fun row col q hq => pieceAt_lift_iff h.located hp hq
      · simp [GameState.pendingMoves, GameState.withMove, RealTimeArbiter.requestMove,
          MoveScheduler.scheduleMove]
      · intro move hmove hnot
        rcases List.mem_append.mp hmove with hold | hmove
        · exact absurd hold hnot
        · rw [List.mem_singleton.mp hmove]
      · exact fun jump hjump hnot => absurd hjump hnot
  | @jumpStarted a p cell selected haction hp hnew =>
      have hcolor : p.color = side := by
        rcases haction with rfl | ⟨rfl, hselected⟩
        · exact ownsPieceAt_color hallowed hp
        · simp only [allowed, hselected, Option.any_some] at hallowed
          exact ownsPieceAt_color hallowed hp
      subst hcolor
      refine ⟨?_, ?_, rfl, ?_, rfl, rfl, rfl, ?_, ?_⟩
      · exact fun id q hq => findPieceById_lift_iff h.located hp hq
      · exact fun row col q hq => pieceAt_lift_iff h.located hp hq
      · simp [GameState.activeJumps, GameState.withJump, RealTimeArbiter.requestJump,
          MoveScheduler.scheduleJump]
      · exact fun move hmove hnot => absurd hmove hnot
      · intro jump hjump hnot
        rcases List.mem_append.mp hjump with hold | hjump
        · exact absurd hold hnot
        · rw [List.mem_singleton.mp hjump]
  | settled ms => cases hallowed

end Touch

/-! ### The loop over the inputs -/

section Inputs

variable {m m' : Match} {side : PieceColor} {a : GameAction} {input : RoomPlayerInput}
  {inputs polled rest : List RoomPlayerInput}

theorem submitAction_step (h : GameInv m.state) (a : GameAction) :
    ∃ m', m.submitAction a = .ok m' ∧ GameStep m.state a m'.state := by
  obtain ⟨s', hs', hstep⟩ := applyAction_step h a
  exact ⟨⟨s'⟩, by rw [Match.submitAction, hs', ok_bind, pure_eq_ok], hstep⟩

/-- One pass of the loop. -/
theorem applyRoomInputs_cons (h : GameInv m.state) (input : RoomPlayerInput)
    (inputs : List RoomPlayerInput) :
    applyRoomInputs m (input :: inputs) =
      if input.kind = .resign then .ok (m, some (opponentOf input.playerSide))
      else if allowed input.playerSide m.state input.action then
        m.submitAction input.action >>= fun m' => applyRoomInputs m' inputs
      else applyRoomInputs m inputs := by
  rw [applyRoomInputs, isActionAllowed_eq h, ok_bind]

theorem applyRoomInputs_inv (h : GameInv m.state) (inputs : List RoomPlayerInput) :
    ∃ m' winner, applyRoomInputs m inputs = .ok (m', winner) ∧ GameInv m'.state := by
  induction inputs generalizing m with
  | nil => exact ⟨m, none, rfl, h⟩
  | cons input inputs ih =>
      rw [applyRoomInputs_cons h]
      split
      · exact ⟨m, _, rfl, h⟩
      split
      · obtain ⟨mid, hmid, hstep⟩ := submitAction_step h input.action
        obtain ⟨m', winner, hm', hinv⟩ := ih (hstep.inv h)
        exact ⟨m', winner, by rw [hmid, ok_bind, hm'], hinv⟩
      · exact ih h

/-- A resignation ends the loop; otherwise the inputs that follow go to the match as it is then. -/
theorem applyRoomInputs_append (h : GameInv m.state) (polled rest : List RoomPlayerInput) :
    applyRoomInputs m (polled ++ rest) =
      applyRoomInputs m polled >>= fun done =>
        match done.2 with
        | some winner => .ok (done.1, some winner)
        | none => applyRoomInputs done.1 rest := by
  induction polled generalizing m with
  | nil => rfl
  | cons input polled ih =>
      rw [List.cons_append, applyRoomInputs_cons h, applyRoomInputs_cons h]
      split
      · rfl
      split
      · obtain ⟨mid, hmid, hstep⟩ := submitAction_step h input.action
        rw [hmid, ok_bind, ok_bind]
        exact ih (hstep.inv h)
      · exact ih h

/-- Where no one has won by resignation, every input was an action. -/
theorem applyRoomInputs_noResign (h : GameInv m.state) (hdone : applyRoomInputs m polled = .ok (m', none)) :
    ∀ input ∈ polled, input.kind = .action := by
  induction polled generalizing m with
  | nil => exact fun input hinput => absurd hinput List.not_mem_nil
  | cons first polled ih =>
      rw [applyRoomInputs_cons h] at hdone
      split at hdone
      · cases hdone
      rename_i haction
      have hfirst : first.kind = .action := by
        cases hkind : first.kind with
        | action => rfl
        | resign => exact absurd hkind haction
      have hrest : ∀ input ∈ polled, input.kind = .action := by
        split at hdone
        · obtain ⟨mid, hmid, hstep⟩ := submitAction_step h first.action
          rw [hmid, ok_bind] at hdone
          exact ih (hstep.inv h) hdone
        · exact ih h hdone
      intro input hinput
      rcases List.mem_cons.mp hinput with rfl | hinput
      · exact hfirst
      · exact hrest input hinput

theorem handle_inv (h : GameInv m.state) (e : RoomEvent) :
    ∃ m', m.handle e = .ok m' ∧ GameInv m'.state := by
  cases e with
  | tick ms =>
      refine ⟨⟨m.state.advance ms⟩, ?_, h.advance ms⟩
      rw [Match.handle, Match.tick, addClock_eq h, ok_bind, pure_eq_ok]
  | inputs polled =>
      obtain ⟨m', winner, hm', hinv⟩ := applyRoomInputs_inv h polled
      exact ⟨m', by rw [Match.handle, hm', ok_bind, pure_eq_ok], hinv⟩

theorem matchRun_inv (h : GameInv m.state) (events : List RoomEvent) :
    ∃ m', m.run events = .ok m' ∧ GameInv m'.state := by
  refine foldlM_consumes (fun _ m => GameInv m.state) ?_ events m h
  intro e _ m hm
  exact handle_inv hm e

theorem matchRun_append (m : Match) (events : List RoomEvent) (e : RoomEvent) :
    m.run (events ++ [e]) = m.run events >>= fun mid => mid.handle e := by
  rw [Match.run, List.foldlM_append]
  congr 1
  funext mid
  rw [List.foldlM_cons]
  cases mid.handle e <;> rfl

end Inputs

/-! ### Who started a flight -/

/-- What is in flight at the end of a run (`flying`) was put there by an action of `side`, allowed when it
was submitted. -/
def StartedBy (start : Match) (events : List RoomEvent) (side : PieceColor) (flying : Match → Prop) : Prop :=
  ∃ before polled input rest after mid next,
    events = before ++ .inputs (polled ++ input :: rest) :: after ∧
      start.run (before ++ [.inputs polled]) = .ok mid ∧ (∀ earlier ∈ polled, earlier.kind = .action) ∧
      input.kind = .action ∧ input.playerSide = side ∧
      isActionAllowed side mid input.action = .ok true ∧ mid.submitAction input.action = .ok next ∧
      ¬flying mid ∧ flying next

section Started

variable {start m m' : Match} {events : List RoomEvent} {polled : List RoomPlayerInput}
  {input : RoomPlayerInput} {side : PieceColor} {flying : Match → Prop}

theorem StartedBy.later (h : StartedBy start events side flying) (e : RoomEvent) :
    StartedBy start (events ++ [e]) side flying := by
  obtain ⟨before, polled, input, rest, after, mid, next, rfl, hspec⟩ := h
  exact ⟨before, polled, input, rest, after ++ [e], mid, next, by simp, hspec⟩

theorem StartedBy.more (h : StartedBy start (events ++ [.inputs polled]) side flying)
    (input : RoomPlayerInput) : StartedBy start (events ++ [.inputs (polled ++ [input])]) side flying := by
  obtain ⟨before, earlier, starter, rest, after, mid, next, hsplit, hspec⟩ := h
  rcases List.eq_nil_or_concat after with rfl | ⟨init, last, rfl⟩
  · have hlast := List.append_inj' hsplit rfl
    have hpolled : polled = earlier ++ starter :: rest := by
      have := List.cons.inj hlast.2
      exact RoomEvent.inputs.inj this.1
    exact ⟨before, earlier, starter, rest ++ [input], [], mid, next, by simp [hlast.1, hpolled], hspec⟩
  · have hsplit' : events ++ [RoomEvent.inputs polled]
        = (before ++ .inputs (earlier ++ starter :: rest) :: init) ++ [last] := by
      simpa using hsplit
    have hinit := (List.append_inj' hsplit' rfl).1
    exact ⟨before, earlier, starter, rest, init ++ [.inputs (polled ++ [input])], mid, next,
      by simp [hinit], hspec⟩

/-- A flight that no tick starts and that only its own side can start was started by that side. The
induction is on the events, and on the inputs of the last one. -/
theorem startedBy_of_flying (hinv : GameInv start.state) (hnew : ¬flying start)
    (htick : ∀ m ms, GameInv m.state → flying ⟨m.state.advance ms⟩ → flying m)
    (howner : ∀ m a by' m', GameInv m.state → GameStep m.state a m'.state →
      allowed by' m.state a = true → ¬flying m → flying m' → by' = side)
    (hrun : start.run events = .ok m) (hm : flying m) : StartedBy start events side flying := by
  induction events using List.reverseRecOn generalizing m with
  | nil =>
      cases hrun
      exact absurd hm hnew
  | append_singleton events e ih =>
      obtain ⟨mid, hmid, hmidInv⟩ := matchRun_inv hinv events
      rw [matchRun_append, hmid, ok_bind] at hrun
      cases e with
      | tick ms =>
          rw [Match.handle, Match.tick, addClock_eq hmidInv] at hrun
          cases hrun
          exact (ih hmid (htick mid ms hmidInv hm)).later _
      | inputs polled =>
          induction polled using List.reverseRecOn generalizing m with
          | nil =>
              cases hrun
              exact (ih hmid hm).later _
          | append_singleton polled input ihPolled =>
              obtain ⟨done, winner, hdone, hdoneInv⟩ := applyRoomInputs_inv hmidInv polled
              have hbefore : mid.handle (.inputs polled) = .ok done := by
                rw [Match.handle, hdone, ok_bind, pure_eq_ok]
              rw [Match.handle, applyRoomInputs_append hmidInv, hdone, ok_bind] at hrun
              cases winner with
              | some winner =>
                  cases hrun
                  exact (ihPolled hm hbefore).more input
              | none =>
                  dsimp only at hrun
                  rw [applyRoomInputs_cons hdoneInv] at hrun
                  split at hrun
                  · cases hrun
                    exact (ihPolled hm hbefore).more input
                  rename_i haction
                  split at hrun
                  · rename_i hallowed
                    obtain ⟨next, hnext, hstep⟩ := submitAction_step hdoneInv input.action
                    rw [hnext] at hrun
                    cases hrun
                    by_cases hflying : flying done
                    · exact (ihPolled hflying hbefore).more input
                    · have hside := howner done input.action input.playerSide next hdoneInv hstep hallowed
                        hflying hm
                      refine ⟨events, polled, input, [], [], done, next, rfl, ?_, ?_, ?_, hside, ?_, hnext,
                        hflying, hm⟩
                      · rw [matchRun_append, hmid, ok_bind, hbefore]
                      · exact applyRoomInputs_noResign hmidInv hdone
                      · cases hkind : input.kind with
                        | action => rfl
                        | resign => exact absurd hkind haction
                      · rw [isActionAllowed_eq hdoneInv, ← hside, hallowed]
                  · cases hrun
                    exact (ihPolled hm hbefore).more input

end Started

/-! ### Ownership -/

section Ownership

variable {board : BoardModel} {m : Match} {events : List RoomEvent}

/-- An allowed action touches the player's own side only, a refused one nothing, and in every run each
move and jump in flight was started by an input of its owner. -/
theorem actions_respect_ownership {m : Match} (hreach : Reachable m.state) (side : PieceColor)
    (a : GameAction) :
    (∃ verdict, isActionAllowed side m a = .ok verdict ∧
      (verdict = true → ∃ m', m.submitAction a = .ok m' ∧ OnlyTouches side m.state m'.state) ∧
      (verdict = false → ∀ inputs,
        applyRoomInputs m (⟨side, .action, a⟩ :: inputs) = applyRoomInputs m inputs)) ∧
    ∀ board events last, AcceptedBoard board → (Match.new board).run events = .ok last →
      (∀ move ∈ last.state.pendingMoves,
        StartedBy (Match.new board) events move.color fun m => move ∈ m.state.pendingMoves) ∧
      ∀ jump ∈ last.state.activeJumps,
        StartedBy (Match.new board) events jump.color fun m => jump ∈ m.state.activeJumps := by
  have hinv := hreach.inv
  refine ⟨⟨allowed side m.state a, isActionAllowed_eq hinv side a, fun hallowed => ?_, fun hrefused inputs => ?_⟩,
    fun board events last hboard hrun => ⟨fun move hmove => ?_, fun jump hjump => ?_⟩⟩
  · obtain ⟨m', hm', hstep⟩ := submitAction_step hinv a
    exact ⟨m', hm', hstep.onlyTouches hinv hallowed⟩
  · rw [applyRoomInputs_cons hinv, hrefused]
    rfl
  · refine startedBy_of_flying (m := last) (gameInv_new hboard) List.not_mem_nil ?_ ?_ hrun hmove
    · exact fun m ms _ hflying => (mem_pendingMoves_advance hflying).1
    · intro m a by' m' hm hstep hallowed hnot hflying
      exact ((hstep.onlyTouches hm hallowed).newMoves move hflying hnot).symm
  · refine startedBy_of_flying (m := last) (gameInv_new hboard) List.not_mem_nil ?_ ?_ hrun hjump
    · exact fun m ms _ hflying => (mem_activeJumps_advance.mp hflying).1
    · intro m a by' m' hm hstep hallowed hnot hflying
      exact ((hstep.onlyTouches hm hallowed).newJumps jump hflying hnot).symm

theorem actions_respect_ownership_duel :
    Reachable (Match.new duelBoard).state ∧
      ∃ verdict, isActionAllowed .white (Match.new duelBoard) (.jumpAt 0 0) = .ok verdict ∧
        (verdict = true → ∃ m', (Match.new duelBoard).submitAction (.jumpAt 0 0) = .ok m' ∧
          OnlyTouches .white (Match.new duelBoard).state m'.state) := by
  have hreach : Reachable (Match.new duelBoard).state := ⟨duelBoard, duelBoard_accepted, [], rfl⟩
  obtain ⟨⟨verdict, hverdict, htouches, -⟩, -⟩ := actions_respect_ownership hreach .white (.jumpAt 0 0)
  exact ⟨hreach, verdict, hverdict, htouches⟩

end Ownership

end KungFuChess
