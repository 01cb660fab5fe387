import KungFuChess.Proof.Ownership

/-!
# One selection for two players

Selecting a piece and moving it are two messages, and the selection between them is shared. Messages of
the opponent that are refused leave it alone; the first one that is allowed, a clear or a select of one
of the opponent's own pieces, takes it away, and the move that follows is refused.
-/

namespace KungFuChess

open Loops BoardModel

def GameAction.isSelectOrClear : GameAction → Bool
  | .select _ _ => true
  | .clearSelection => true
  | _ => false

/-- Messages of `side` that are selects, clears or refused, each judged on the match it meets. -/
def OnlySelects (side : PieceColor) (m : Match) : List GameAction → Prop
  | [] => True
  | a :: actions =>
      (a.isSelectOrClear = true ∨ isActionAllowed side m a = .ok false) ∧
        ∀ m', applyRoomInputs m [⟨side, .action, a⟩] = .ok (m', none) → OnlySelects side m' actions

/-- The selected cell, if there is one, holds a piece of the colour. -/
def SelectionOf (side : PieceColor) (s : GameState) : Prop :=
  ∀ cell, s.selected = some cell → ownsPieceAt s side cell.1 cell.2 = true

section Selection

variable {m : Match} {side : PieceColor} {a : GameAction}

/-- A select or clear changes the selection at most; an allowed one leaves it to its sender. -/
theorem submit_select (ha : a.isSelectOrClear = true) (m : Match) :
    ∃ selected, m.submitAction a = .ok ⟨{ m.state with selected }⟩ ∧
      ∀ side, allowed side m.state a = true → SelectionOf side { m.state with selected } := by
  cases a with
  | select row col =>
      simp only [Match.submitAction, GameState.applyAction, GameState.select]
      split
      · refine ⟨m.state.selected, rfl, fun side hallowed => ?_⟩
        rename_i hout
        have hnone : m.state.board.pieceAt row col = none := by
          have hbounds : m.state.board.isInBounds row col = false := by
            simpa [GameState.isInBounds] using hout
          simp [BoardModel.pieceAt, hbounds]
        simp [allowed, ownsPieceAt, hnone] at hallowed
      · refine ⟨some (row, col), rfl, fun side hallowed => ?_⟩
        intro cell h
        obtain ⟨⟩ := h
        exact hallowed
  | clearSelection =>
      exact ⟨none, rfl, fun side _ => by rintro cell ⟨⟩⟩
  | _ => cases ha

/-- While the selection is the opponent's, a move or a jump of the selected piece is refused. -/
theorem SelectionOf.refuses {s : GameState} (h : SelectionOf (opponentOf side) s) (toRow toCol : Nat) :
    allowed side s (.moveSelected toRow toCol) = false := by
  simp only [allowed]
  cases hselected : s.selected with
  | none => rfl
  | some cell =>
      have howner := h cell hselected
      simp only [ownsPieceAt, beq_iff_eq] at howner
      simp only [Option.any_some, ownsPieceAt, howner]
      cases side <;> rfl

/-- Selects and clears leave the board and the queues as they are, and once one of them has been allowed
the selection is its sender's. -/
theorem applyRoomInputs_selects (h : GameInv m.state) {theirs : List GameAction}
    (honly : OnlySelects side m theirs) :
    ∃ selected, applyRoomInputs m (theirs.map fun a => ⟨side, .action, a⟩)
        = .ok (⟨{ m.state with selected }⟩, none) ∧
      (SelectionOf side m.state ∨ (∃ a ∈ theirs, isActionAllowed side m a ≠ .ok false) →
        SelectionOf side { m.state with selected }) := by
  induction theirs generalizing m with
  | nil =>
      refine ⟨m.state.selected, rfl, ?_⟩
      intro h
      rcases h with hselection | ⟨a, ⟨⟩, -⟩
      exact hselection
  | cons a theirs ih =>
      obtain ⟨hkind, hnext⟩ := honly
      rw [isActionAllowed_eq h] at hkind
      have hpass : ∀ inputs, applyRoomInputs m (⟨side, .action, a⟩ :: inputs) =
          if allowed side m.state a then m.submitAction a >>= fun m' => applyRoomInputs m' inputs
          else applyRoomInputs m inputs := by
        intro inputs
        rw [applyRoomInputs_cons h, if_neg (by simp)]
      rw [List.map_cons, hpass]
      cases hallowed : allowed side m.state a with
      | false =>
          have hsame : applyRoomInputs m [⟨side, .action, a⟩] = .ok (m, none) := by
            rw [hpass, hallowed]
            rfl
          obtain ⟨selected, hrun, hselection⟩ := ih h (hnext m hsame)
          refine ⟨selected, hrun, fun hcases => hselection ?_⟩
          refine hcases.imp id ?_
          intro h
          obtain ⟨b, hb, hballowed⟩ := h
          rcases List.mem_cons.mp hb with rfl | hb
          · rw [isActionAllowed_eq h, hallowed] at hballowed
            exact absurd rfl hballowed
          · exact ⟨b, hb, hballowed⟩
      | true =>
          have hselect : a.isSelectOrClear = true := by
            refine hkind.resolve_right fun hfalse => ?_
            rw [hallowed] at hfalse
            cases hfalse
          obtain ⟨mine, hsubmit, howns⟩ := submit_select hselect m
          have hone : applyRoomInputs m [⟨side, .action, a⟩] = .ok (⟨{ m.state with selected := mine }⟩, none) := by
            rw [hpass, hallowed, if_pos rfl, hsubmit]
            rfl
          have hinv : GameInv { m.state with selected := mine } :=
            ⟨h.rules, h.located, h.ends, h.movesFlying, h.jumpsFlying⟩
          obtain ⟨selected, hrun, hselection⟩ := ih (m := ⟨{ m.state with selected := mine }⟩) hinv (hnext _ hone)
          refine ⟨selected, ?_, fun _ => hselection (.inl (howns side hallowed))⟩
          rw [if_pos rfl, hsubmit, ok_bind]
          exact hrun

theorem applyRoomInputs_refused (h : GameInv m.state) {theirs : List GameAction}
    (hrefused : ∀ a ∈ theirs, isActionAllowed side m a = .ok false) :
    applyRoomInputs m (theirs.map fun a => ⟨side, .action, a⟩) = .ok (m, none) := by
  induction theirs with
  | nil => rfl
  | cons a theirs ih =>
      have ha := hrefused a List.mem_cons_self
      rw [isActionAllowed_eq h, Except.ok.injEq] at ha
      rw [List.map_cons, applyRoomInputs_cons h, if_neg (by simp), ha]
      exact ih fun b hb => hrefused b (List.mem_cons_of_mem _ hb)

/-- One action of a player. -/
theorem applyRoomInputs_action (h : GameInv m.state) (side : PieceColor) (a : GameAction) :
    ∃ m', applyRoomInputs m [⟨side, .action, a⟩] = .ok (m', none) ∧
      (allowed side m.state a = false → m' = m) ∧
      (allowed side m.state a = true → m.submitAction a = .ok m') := by
  rw [applyRoomInputs_cons h, if_neg (by simp)]
  cases hallowed : allowed side m.state a with
  | false => exact ⟨m, rfl, fun _ => rfl, nofun⟩
  | true =>
      obtain ⟨m', hm', -⟩ := submitAction_step h a
      exact ⟨m', by rw [if_pos rfl, hm']; rfl, nofun, fun _ => hm'⟩

/-- A select and a move with messages of the opponent in between. If all of those are refused, it is as if
they had not been sent; if one of them is allowed, no move is started. -/
theorem select_then_move (hreach : Reachable m.state) (side : PieceColor) (row col toRow toCol : Nat)
    (selected : Match) (hselect : applyRoomInputs m [⟨side, .action, .select row col⟩] = .ok (selected, none))
    (theirs : List GameAction) (honly : OnlySelects (opponentOf side) selected theirs) :
    ∃ alone mixed,
      applyRoomInputs m [⟨side, .action, .select row col⟩, ⟨side, .action, .moveSelected toRow toCol⟩]
        = .ok (alone, none) ∧
      applyRoomInputs m (⟨side, .action, .select row col⟩ ::
          (theirs.map (fun a => ⟨opponentOf side, .action, a⟩)
            ++ [⟨side, .action, .moveSelected toRow toCol⟩])) = .ok (mixed, none) ∧
      ((∀ a ∈ theirs, isActionAllowed (opponentOf side) selected a = .ok false) → mixed = alone) ∧
      ((∃ a ∈ theirs, isActionAllowed (opponentOf side) selected a = .ok true) →
        mixed.state.pendingMoves = m.state.pendingMoves) := by
  have hinv := hreach.inv
  obtain ⟨cell, hcell⟩ : ∃ cell, selected = ⟨{ m.state with selected := cell }⟩ := by
    obtain ⟨m', hm', hrefused, hsubmit⟩ := applyRoomInputs_action hinv side (.select row col)
    cases hselect.symm.trans hm'
    cases hallowed : allowed side m.state (.select row col) with
    | false => exact ⟨m.state.selected, hrefused hallowed⟩
    | true =>
        obtain ⟨cell, hcell, -⟩ := submit_select (a := .select row col) rfl m
        exact ⟨cell, Except.ok.inj ((hsubmit hallowed).symm.trans hcell)⟩
  subst hcell
  have hafter : ∀ cell, GameInv { m.state with selected := cell } :=
    fun cell => ⟨hinv.rules, hinv.located, hinv.ends, hinv.movesFlying, hinv.jumpsFlying⟩
  have hrest : ∀ rest, applyRoomInputs m (⟨side, .action, .select row col⟩ :: rest)
      = applyRoomInputs ⟨{ m.state with selected := cell }⟩ rest := by
    intro rest
    have happend := applyRoomInputs_append hinv [⟨side, .action, .select row col⟩] rest
    rw [hselect, ok_bind] at happend
    exact happend
  obtain ⟨alone, halone, -⟩ := applyRoomInputs_action (m := ⟨{ m.state with selected := cell }⟩)
    (hafter cell) side (.moveSelected toRow toCol)
  obtain ⟨chosen, htheirs, howned⟩ := applyRoomInputs_selects (m := ⟨{ m.state with selected := cell }⟩)
    (hafter cell) honly
  obtain ⟨mixed, hmixed, hkept, -⟩ := applyRoomInputs_action (m := ⟨{ m.state with selected := chosen }⟩)
    (hafter chosen) side (.moveSelected toRow toCol)
  refine ⟨alone, mixed, (hrest _).trans halone, ?_, fun hrefused => ?_, ?_⟩
  · rw [hrest, applyRoomInputs_append (m := ⟨{ m.state with selected := cell }⟩) (hafter cell), htheirs,
      ok_bind]
    exact hmixed
  · have hsame := applyRoomInputs_refused (m := ⟨{ m.state with selected := cell }⟩) (hafter cell) hrefused
    rw [htheirs] at hsame
    have hchosen : (⟨{ m.state with selected := chosen }⟩ : Match) = ⟨{ m.state with selected := cell }⟩ :=
      congrArg Prod.fst (Except.ok.inj hsame)
    rw [hchosen] at hmixed
    exact congrArg Prod.fst (Except.ok.inj (hmixed.symm.trans halone))
  · intro h
    obtain ⟨a, ha, hallowed⟩ := h
    have howner := howned (.inr ⟨a, ha, by rw [hallowed]; simp⟩)
    rw [hkept (howner.refuses toRow toCol)]
    rfl

/-- White selects its rook and moves it. Black's attempt to select the rook in between is refused. -/
theorem select_then_move_duel :
    ∃ alone mixed,
      applyRoomInputs (Match.new duelBoard)
        [⟨.white, .action, .select 0 0⟩, ⟨.white, .action, .moveSelected 0 1⟩] = .ok (alone, none) ∧
      applyRoomInputs (Match.new duelBoard)
        [⟨.white, .action, .select 0 0⟩, ⟨.black, .action, .select 0 0⟩,
          ⟨.white, .action, .moveSelected 0 1⟩] = .ok (mixed, none) ∧ mixed = alone := by
  have hreach : Reachable (Match.new duelBoard).state := ⟨duelBoard, duelBoard_accepted, [], rfl⟩
  obtain ⟨alone, mixed, halone, hmixed, hsame, -⟩ := select_then_move hreach .white 0 0 0 1
    ⟨{ GameState.new duelBoard with selected := some (0, 0) }⟩ rfl [.select 0 0]
    ⟨.inl rfl, fun _ _ => trivial⟩
  refine ⟨alone, mixed, halone, hmixed, hsame ?_⟩
  intro a ha
  cases List.mem_singleton.mp ha
  rfl

/-- Black clears the selection in between, and White's rook stays where it is. -/
theorem select_then_move_cleared :
    ∃ selected alone mixed, Reachable (Match.new duelBoard).state ∧
      applyRoomInputs (Match.new duelBoard) [⟨.white, .action, .select 0 0⟩] = .ok (selected, none) ∧
      OnlySelects .black selected [.clearSelection] ∧
      applyRoomInputs (Match.new duelBoard)
        [⟨.white, .action, .select 0 0⟩, ⟨.white, .action, .moveSelected 0 1⟩] = .ok (alone, none) ∧
      applyRoomInputs (Match.new duelBoard)
        [⟨.white, .action, .select 0 0⟩, ⟨.black, .action, .clearSelection⟩,
          ⟨.white, .action, .moveSelected 0 1⟩] = .ok (mixed, none) ∧
      mixed.state.pendingMoves ≠ alone.state.pendingMoves := by
  have halone : (fun done => (done.1.state.pendingMoves.length, done.2)) <$> applyRoomInputs
      (Match.new duelBoard) [⟨.white, .action, .select 0 0⟩, ⟨.white, .action, .moveSelected 0 1⟩]
      = .ok (1, none) := by decide
  have hmixed : (fun done => (done.1.state.pendingMoves.length, done.2)) <$> applyRoomInputs
      (Match.new duelBoard) [⟨.white, .action, .select 0 0⟩, ⟨.black, .action, .clearSelection⟩,
        ⟨.white, .action, .moveSelected 0 1⟩] = .ok (0, none) := by decide
  obtain ⟨⟨alone, _⟩, halone, hcount⟩ := map_eq_ok.mp halone
  obtain ⟨⟨mixed, _⟩, hmixed, hcount'⟩ := map_eq_ok.mp hmixed
  obtain ⟨hone, rfl⟩ := Prod.mk.inj hcount
  obtain ⟨hzero, rfl⟩ := Prod.mk.inj hcount'
  refine ⟨⟨{ GameState.new duelBoard with selected := some (0, 0) }⟩, alone, mixed,
    ⟨duelBoard, duelBoard_accepted, [], rfl⟩, rfl, ⟨.inl rfl, fun _ _ => trivial⟩, halone, hmixed, ?_⟩
  intro hsame
  rw [hsame, hone] at hzero
  cases hzero

end Selection

end KungFuChess
