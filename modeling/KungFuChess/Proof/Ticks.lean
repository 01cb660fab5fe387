import Mathlib.Data.List.Find
import KungFuChess.Proof.Pieces

/-!
# Ticks

A settlement works off everything that is due at once, in the order of the requests and against the clock
at the end of the tick, so one long tick and two short ones need not agree. They do if nothing falls due
in the first part. They also do if no move falls due in the second part and no jump ends in it under a
move of the first: then only jumps are worked off in another order, and putting pieces back on different
cells commutes.
-/

namespace KungFuChess

open Loops BoardModel

/-! ### Boards with the same contents -/

theorem BoardModel.ext_of_lookup {b b' : BoardModel} (hrect : b.Rect) (hrect' : b'.Rect)
    (hrows : b'.rows = b.rows) (hcols : b'.cols = b.cols)
    (hcells : ∀ row col, b'.cellId row col = b.cellId row col)
    (hlength : b'.pieces.length = b.pieces.length)
    (hpieces : ∀ id, b'.findPieceById id = b.findPieceById id) : b' = b := by
  have hgrid : b'.cells = b.cells := by
    refine List.ext_getElem hrows fun row hrow hrow' => ?_
    have hlen : b'.cells[row].length = b.cells[row].length := by
      rw [hrect' _ (List.getElem_mem hrow), hrect _ (List.getElem_mem hrow'), hcols]
    refine List.ext_getElem hlen fun col hcol hcol' => ?_
    have hin' : b'.InBounds row col := ⟨hrow, by rw [← hrect' _ (List.getElem_mem hrow)]; exact hcol⟩
    have hin : b.InBounds row col := ⟨hrow', by rw [← hrect _ (List.getElem_mem hrow')]; exact hcol'⟩
    have hentry : b'.entryAt row col = b.entryAt row col := by
      rw [entryAt_of_inBounds hrect' hin', entryAt_of_inBounds hrect hin, hcells]
    simpa [entryAt, List.getElem?_eq_getElem hrow, List.getElem?_eq_getElem hrow',
      List.getElem?_eq_getElem hcol, List.getElem?_eq_getElem hcol'] using hentry
  have htable : b'.pieces = b.pieces := by
    refine List.ext_getElem hlength fun i hi hi' => ?_
    have hget : ∀ (c : BoardModel) (h : i < c.pieces.length), c.findPieceById (i + 1) = some c.pieces[i] :=
      fun c h => findPieceById_eq_some.mpr ⟨by omega, by simp [h]⟩
    have hsame := hpieces (i + 1)
    rw [hget b' hi, hget b hi'] at hsame
    exact Option.some.inj hsame
  cases b
  cases b'
  simp only at hgrid htable
  rw [hgrid, htable]

section PutBack

variable {b : BoardModel} {f g : Flight} {flights rest : List Flight}

theorem putBack_eq {p : Piece} (hp : b.findPieceById f.id = some p) :
    putBack b f = b.land { p with state := .idle } f.origin.1 f.origin.2 := by
  rw [putBack, pieceOf_eq hp]

theorem findPieceById_putBack {p : Piece} (h : Located b (f :: flights))
    (hp : b.findPieceById f.id = some p) (id : Nat) :
    (putBack b f).findPieceById id =
      if id = f.id then some { p with cell := positionOf f.origin.1 f.origin.2, state := .idle }
      else match b.pieceAt f.origin.1 f.origin.2 with
        | none => b.findPieceById id
        | some q => if id = q.id then some { q with state := .captured } else b.findPieceById id := by
  have hid : ({ p with state := .idle } : Piece).id = f.id := h.idsInPlace f.id p hp
  rw [putBack_eq hp, ← hid]
  exact h.findPieceById_land hid id

theorem cellId_putBack (h : Located b (f :: flights)) (row col : Nat) :
    (putBack b f).cellId row col = if (row, col) = f.origin then some f.id else b.cellId row col := by
  obtain ⟨p, hp, hid, -⟩ := h.findPieceById_flight
  have hcell := h.cellId_land (p := { p with state := .idle }) (h.originsIn f List.mem_cons_self) row col
  rw [putBack_eq hp, hcell, hid]
  simp only [Prod.ext_iff]

/-- A piece that comes back is idle on its cell. -/
theorem pieceAt_putBack (h : Located b (f :: flights)) :
    ∃ q, (putBack b f).pieceAt f.origin.1 f.origin.2 = some q ∧ q.id = f.id ∧ q.color = f.color ∧ q.state = .idle := by
  obtain ⟨q, hq, hid, hcolor, -⟩ := h.findPieceById_flight
  refine ⟨{ q with state := .idle, cell := positionOf f.origin.1 f.origin.2 }, ?_, hid, hcolor, rfl⟩
  have hland := h.pieceAt_land (p := { q with state := .idle }) hid rfl (h.originsIn _ List.mem_cons_self)
    f.origin.1 f.origin.2
  rw [putBack_eq hq, hland, if_pos ⟨rfl, rfl⟩]

theorem pieceAt_putBack_of_ne (h : Located b (f :: flights)) {cell : Cell} (hne : cell ≠ f.origin) :
    (putBack b f).pieceAt cell.1 cell.2 = b.pieceAt cell.1 cell.2 := by
  obtain ⟨p, hp, hid, -⟩ := h.findPieceById_flight
  have hpiece := h.pieceAt_land (p := { p with state := .idle }) hid rfl
    (h.originsIn f List.mem_cons_self) cell.1 cell.2
  rw [putBack_eq hp, hpiece, if_neg]
  exact fun hsame => hne (Prod.ext hsame.1 hsame.2)

/-- A flight that is still in the air is not changed by another one coming back. -/
theorem findPieceById_putBack_flight (h : Located b (f :: flights)) (hg : g ∈ flights) :
    (putBack b f).findPieceById g.id = b.findPieceById g.id := by
  obtain ⟨p, hp, -⟩ := h.findPieceById_flight
  have hne : g.id ≠ f.id := by
    intro heq
    exact (List.nodup_cons.mp h.idsNodup).1 (heq ▸ List.mem_map_of_mem hg)
  rw [findPieceById_putBack h hp, if_neg hne]
  cases hq : b.pieceAt f.origin.1 f.origin.2 with
  | none => rfl
  | some q => exact if_neg (h.ne_of_pieceAt (List.mem_cons_of_mem _ hg) hq)

/-- Pieces that come back to different cells may come back in either order. -/
theorem putBack_comm (h : Located b (f :: g :: rest)) :
    putBack (putBack b f) g = putBack (putBack b g) f := by
  have hswap : Located b (g :: f :: rest) := h.perm (List.Perm.swap g f rest)
  have hids : f.id ≠ g.id := by
    intro heq
    exact (List.nodup_cons.mp h.idsNodup).1 (by simp [heq])
  have hcells : f.origin ≠ g.origin := by
    intro heq
    exact (List.nodup_cons.mp h.originsNodup).1 (by simp [heq])
  have hf := putBack_located h
  have hg := putBack_located hswap
  obtain ⟨p, hp, -⟩ := h.findPieceById_flight
  obtain ⟨q, hq, -⟩ := hswap.findPieceById_flight
  have hq' := (findPieceById_putBack_flight h List.mem_cons_self).trans hq
  have hp' := (findPieceById_putBack_flight hswap List.mem_cons_self).trans hp
  refine BoardModel.ext_of_lookup (putBack_located hg).rect (putBack_located hf).rect ?_ ?_ ?_ ?_ ?_
  · simp [putBack]
  · simp [putBack]
  · intro row col
    rw [cellId_putBack hf, cellId_putBack h, cellId_putBack hg, cellId_putBack hswap]
    by_cases hrow : (row, col) = g.origin
    · rw [if_pos hrow, if_neg (fun heq => hcells (heq.symm.trans hrow)), if_pos hrow]
    · rw [if_neg hrow, if_neg hrow]
  · simp [putBack]
  · intro id
    rw [findPieceById_putBack hf hq', findPieceById_putBack hg hp', pieceAt_putBack_of_ne h (Ne.symm hcells),
      pieceAt_putBack_of_ne hswap hcells, findPieceById_putBack h hp, findPieceById_putBack hswap hq]
    -- the four ids involved are different: two in flight, two on different cells
    have hflights : ∀ {row col : Nat} {r : Piece}, b.pieceAt row col = some r → r.id ≠ f.id ∧ r.id ≠ g.id :=
      fun hr => ⟨Ne.symm (h.ne_of_pieceAt List.mem_cons_self hr),
        Ne.symm (h.ne_of_pieceAt (by simp) hr)⟩
    have hground : ∀ {r r' : Piece}, b.pieceAt f.origin.1 f.origin.2 = some r →
        b.pieceAt g.origin.1 g.origin.2 = some r' → r.id ≠ r'.id := by
      intro r r' hr hr' heq
      have hcell := (h.pieceAt_eq_some_iff.mp hr).1
      rw [heq] at hcell
      obtain ⟨hrow, hcol⟩ := h.cell_unique hcell (h.pieceAt_eq_some_iff.mp hr').1
      exact hcells (Prod.ext hrow hcol)
    cases hr : b.pieceAt f.origin.1 f.origin.2 <;> cases hr' : b.pieceAt g.origin.1 g.origin.2 <;> grind

theorem foldl_putBack_perm {ended ended' : List Flight} (hperm : ended.Perm ended') :
    ∀ b, Located b (ended ++ rest) → ended.foldl putBack b = ended'.foldl putBack b := by
  induction hperm with
  | nil => exact fun b _ => rfl
  | cons f _ ih => exact fun b hb => ih _ (putBack_located hb)
  | swap f g _ =>
      intro b hb
      rw [List.foldl_cons, List.foldl_cons, List.foldl_cons, List.foldl_cons, putBack_comm hb]
  | trans hperm _ ih ih' =>
      intro b hb
      exact (ih b hb).trans (ih' b (hb.perm (hperm.append_right rest)))

end PutBack

/-! ### Rests -/

section Rests

variable {rules : GameRules} {t t' : Int} {rests rests' : RestMap}

theorem find?_expireRests (t : Int) (rests : RestMap) (id : Nat) :
    (expireRests t rests).find? id = (rests.find? id).filter fun rest => !decide (t ≥ rest.endTimeMs) := by
  rw [expireRests, OrdMap.find?_filter]

/-- What has run out by an earlier time has run out. -/
theorem expireRests_expireRests (hle : t ≤ t') (rests : RestMap) :
    expireRests t' (expireRests t rests) = expireRests t' rests := by
  refine OrdMap.ext_find? fun id => ?_
  rw [find?_expireRests, find?_expireRests, find?_expireRests]
  cases rests.find? id with
  | none => rfl
  | some rest =>
      by_cases hend : t ≥ rest.endTimeMs
      · have hend' : t' ≥ rest.endTimeMs := by omega
        simp [Option.filter, hend, hend']
      · simp [Option.filter, hend]

/-- Two rest maps that show the same rests from `t` on. -/
def SameRests (t : Int) (rests rests' : RestMap) : Prop := expireRests t rests = expireRests t rests'

theorem SameRests.find? (h : SameRests t rests rests') (id : Nat) :
    (rests.find? id).filter (fun rest => !decide (t ≥ rest.endTimeMs))
      = (rests'.find? id).filter fun rest => !decide (t ≥ rest.endTimeMs) := by
  rw [← find?_expireRests, ← find?_expireRests, h]

theorem SameRests.insert (h : SameRests t rests rests') (id : Nat) (rest : ActiveRest) :
    SameRests t (rests.insert id rest) (rests'.insert id rest) := by
  refine OrdMap.ext_find? fun other => ?_
  rw [find?_expireRests, find?_expireRests, OrdMap.find?_insert, OrdMap.find?_insert]
  split
  · rfl
  · exact h.find? other

theorem SameRests.erase (h : SameRests t rests rests') (id : Nat) :
    SameRests t (rests.erase id) (rests'.erase id) := by
  refine OrdMap.ext_find? fun other => ?_
  rw [find?_expireRests, find?_expireRests, OrdMap.find?_erase, OrdMap.find?_erase]
  split
  · rfl
  · exact h.find? other

theorem SameRests.restsAfter (h : SameRests t rests rests') (e : SettleEvent) (arrivalTime : Int) :
    SameRests t (e.restsAfter rules arrivalTime rests) (e.restsAfter rules arrivalTime rests') := by
  cases e with
  | landed piece cell occupant =>
      cases occupant with
      | none => exact h.insert _ _
      | some q => exact (h.erase q.id).insert _ _
  | shotDown piece jump => exact h.erase _
  | putBack piece cell occupant => exact h

theorem SameRests.foldl_restJumper (rules : GameRules) (jumps : List JumpState)
    (h : SameRests t rests rests') :
    SameRests t (jumps.foldl (restJumper rules) rests) (jumps.foldl (restJumper rules) rests') := by
  induction jumps generalizing rests rests' with
  | nil => exact h
  | cons jump jumps ih => exact ih (h.insert _ _)

theorem restJumper_comm {jump jump' : JumpState} (hne : jump.pieceId ≠ jump'.pieceId) (rests : RestMap) :
    restJumper rules (restJumper rules rests jump) jump'
      = restJumper rules (restJumper rules rests jump') jump := by
  refine OrdMap.ext_find? fun id => ?_
  simp only [restJumper, scheduleRest, OrdMap.find?_insert]
  by_cases hid : id = jump.pieceId
  · rw [if_neg (fun heq => hne (hid.symm.trans heq)), if_pos hid, if_pos hid]
  · rw [if_neg hid, if_neg hid]

theorem foldl_restJumper_perm (rules : GameRules) {jumps jumps' : List JumpState} (hperm : jumps.Perm jumps')
    (hnodup : (jumps.map JumpState.pieceId).Nodup) (rests : RestMap) :
    jumps.foldl (restJumper rules) rests = jumps'.foldl (restJumper rules) rests := by
  refine hperm.foldl_eq' (fun jump hjump jump' hjump' rests => ?_) rests
  by_cases hsame : jump = jump'
  · rw [hsame]
  · refine restJumper_comm (fun hid => hsame ?_) rests
    exact List.inj_on_of_nodup_map hnodup hjump hjump' hid

end Rests

/-! ### Nothing falls due in the first part -/

/-- Equal but for rests that have run out by `t`. -/
structure SameButRests (t : Int) (x y : Settling) : Prop where
  board : x.board = y.board
  rests : SameRests t x.rests y.rests
  gameOver : x.gameOver = y.gameOver
  boardChanged : x.boardChanged = y.boardChanged

section Idle

variable {rules : GameRules} {t : Int} {s : GameState} {a b : Int}

theorem SameButRests.foldl_settleMove {clockMs : Int} {jumps : List JumpState} (moves : List PendingMove)
    {x y : Settling} (h : SameButRests t x y) :
    SameButRests t (moves.foldl (settleMove rules clockMs jumps) x)
      (moves.foldl (settleMove rules clockMs jumps) y) := by
  induction moves generalizing x y with
  | nil => exact h
  | cons move moves ih =>
      have hevent : dueEvent clockMs jumps x.board move = dueEvent clockMs jumps y.board move := by
        rw [h.board]
      refine ih ⟨?_, ?_, ?_, ?_⟩
      · simp only [settleMove, h.board]
      · simp only [settleMove, hevent]
        exact h.rests.restsAfter _ _
      · simp only [settleMove, hevent, h.gameOver]
      · simp only [settleMove, hevent, h.boardChanged]

/-- The clock, the queues and another rest map. -/
def withRests (arbiter : RealTimeArbiter) (rests : RestMap) : RealTimeArbiter :=
  { arbiter with scheduler := { arbiter.scheduler with activeRests := rests } }

/-- Rests are only ever written in a settlement, so those that have run out do not matter. -/
theorem settle_withRests {arbiter : RealTimeArbiter} {rests : RestMap}
    (h : SameRests arbiter.clockMs arbiter.scheduler.activeRests rests) (rules : GameRules)
    (board : BoardModel) (gameOver : Bool) :
    settle rules (withRests arbiter rests) board gameOver = settle rules arbiter board gameOver := by
  have hdue : SameButRests arbiter.clockMs (settleDue rules arbiter board gameOver)
      (settleDue rules (withRests arbiter rests) board gameOver) :=
    SameButRests.foldl_settleMove (dueMoves arbiter) (x := settleStart arbiter board gameOver)
      ⟨rfl, h, rfl, rfl⟩
  have hkept : keptMoves (settleDue rules (withRests arbiter rests) board gameOver) (flyingMoves arbiter)
      = keptMoves (settleDue rules arbiter board gameOver) (flyingMoves arbiter) := by
    simp only [keptMoves, hdue.board, hdue.boardChanged]
  have hcancelled : cancelledMoves (settleDue rules (withRests arbiter rests) board gameOver)
        (flyingMoves arbiter)
      = cancelledMoves (settleDue rules arbiter board gameOver) (flyingMoves arbiter) := by
    simp only [cancelledMoves, hdue.board, hdue.boardChanged]
  have hended : endedFlights rules (withRests arbiter rests) board gameOver
      = endedFlights rules arbiter board gameOver := by
    simp only [endedFlights]
    exact congrArg₂ (· ++ ·) (congrArg _ hcancelled) rfl
  have hrests : expireRests arbiter.clockMs ((endedJumps arbiter).foldl (restJumper rules)
        (settleDue rules arbiter board gameOver).rests)
      = expireRests arbiter.clockMs ((endedJumps arbiter).foldl (restJumper rules)
        (settleDue rules (withRests arbiter rests) board gameOver).rests) :=
    hdue.rests.foldl_restJumper rules (endedJumps arbiter)
  refine Prod.ext ?_ (Prod.ext ?_ hdue.gameOver.symm)
  · have harbiter : ∀ (kept : List PendingMove) (left : RestMap),
        kept = keptMoves (settleDue rules arbiter board gameOver) (flyingMoves arbiter) →
        left = expireRests arbiter.clockMs ((endedJumps arbiter).foldl (restJumper rules)
          (settleDue rules arbiter board gameOver).rests) →
        (⟨⟨kept, flyingJumps arbiter, left⟩, arbiter.clockMs⟩ : RealTimeArbiter)
          = settledArbiter rules arbiter board gameOver := by
      rintro kept left rfl rfl
      rfl
    exact harbiter _ _ hkept hrests.symm
  · show settledBoard rules (withRests arbiter rests) board gameOver = settledBoard rules arbiter board gameOver
    rw [settledBoard, settledBoard, hended, hdue.board]

theorem settle_eq_of_idle {arbiter : RealTimeArbiter} (rules : GameRules) (board : BoardModel)
    (gameOver : Bool) (hmoves : dueMoves arbiter = []) :
    settleDue rules arbiter board gameOver = settleStart arbiter board gameOver ∧
      endedFlights rules arbiter board gameOver = (endedJumps arbiter).map JumpState.flight ∧
      keptMoves (settleDue rules arbiter board gameOver) (flyingMoves arbiter) = flyingMoves arbiter := by
  have hdue : settleDue rules arbiter board gameOver = settleStart arbiter board gameOver := by
    rw [settleDue, hmoves, List.foldl_nil]
  refine ⟨hdue, ?_, ?_⟩
  · rw [endedFlights, hdue]
    rfl
  · rw [hdue]
    rfl

theorem dueMoves_eq_nil (arbiter : RealTimeArbiter)
    (h : ∀ move ∈ arbiter.scheduler.pendingMoves, arbiter.clockMs < move.arrivalTime) :
    dueMoves arbiter = [] ∧ flyingMoves arbiter = arbiter.scheduler.pendingMoves := by
  refine ⟨List.filter_eq_nil_iff.mpr ?_, List.filter_eq_self.mpr ?_⟩
  · intro move hmove
    simp [PendingMove.isDue, h move hmove]
  · intro move hmove
    simp [PendingMove.isDue, h move hmove]

theorem endedJumps_eq_nil (arbiter : RealTimeArbiter)
    (h : ∀ jump ∈ arbiter.scheduler.activeJumps, arbiter.clockMs < jump.arrivalTime) :
    endedJumps arbiter = [] ∧ flyingJumps arbiter = arbiter.scheduler.activeJumps := by
  refine ⟨List.filter_eq_nil_iff.mpr ?_, List.filter_eq_self.mpr ?_⟩
  · intro jump hjump
    simp [JumpState.isDue, h jump hjump]
  · intro jump hjump
    simp [JumpState.isDue, h jump hjump]

theorem advance_eq_settle (s : GameState) (ms : Int) :
    s.advance ms =
      { s with
        arbiter := (settle s.rules (s.advancedArbiter ms) s.board s.gameOver).1
        board := (settle s.rules (s.advancedArbiter ms) s.board s.gameOver).2.1
        gameOver := (settle s.rules (s.advancedArbiter ms) s.board s.gameOver).2.2 } := rfl

theorem advancedArbiter_add (s : GameState) (a b : Int) :
    s.advancedArbiter (a + b) = { s.advancedArbiter a with clockMs := s.arbiter.clockMs + a + b } := by
  simp only [GameState.advancedArbiter, Int.add_assoc]

/-- A tick in which nothing falls due only moves the clock and drops rests. -/
theorem advance_of_idle (hmoves : ∀ move ∈ s.pendingMoves, s.clockMs + a < move.arrivalTime)
    (hjumps : ∀ jump ∈ s.activeJumps, s.clockMs + a < jump.arrivalTime) :
    s.advance a =
      { s with arbiter := withRests (s.advancedArbiter a) (expireRests (s.clockMs + a) s.activeRests) } := by
  obtain ⟨hdue, hflying⟩ := dueMoves_eq_nil (s.advancedArbiter a) hmoves
  obtain ⟨hended, hairborne⟩ := endedJumps_eq_nil (s.advancedArbiter a) hjumps
  obtain ⟨hstart, hflights, -⟩ := settle_eq_of_idle s.rules s.board s.gameOver hdue
  have harbiter : settledArbiter s.rules (s.advancedArbiter a) s.board s.gameOver
      = withRests (s.advancedArbiter a) (expireRests (s.clockMs + a) s.activeRests) := by
    simp only [settledArbiter, hflying, hairborne, hended, List.foldl_nil, hstart]
    rfl
  have hboard : settledBoard s.rules (s.advancedArbiter a) s.board s.gameOver = s.board := by
    simp only [settledBoard, hflights, hended, List.map_nil, List.foldl_nil, hstart]
    rfl
  simp only [GameState.advance, harbiter, hboard, hstart]
  rfl

theorem advance_add_of_idle (hb : 0 ≤ b)
    (hmoves : ∀ move ∈ s.pendingMoves, s.clockMs + a < move.arrivalTime)
    (hjumps : ∀ jump ∈ s.activeJumps, s.clockMs + a < jump.arrivalTime) :
    (s.advance a).advance b = s.advance (a + b) := by
  have hrests : SameRests (s.advancedArbiter (a + b)).clockMs s.activeRests
      (expireRests (s.clockMs + a) s.activeRests) := by
    refine (expireRests_expireRests ?_ _).symm
    show s.arbiter.clockMs + a ≤ s.arbiter.clockMs + (a + b)
    omega
  have hsettle := settle_withRests hrests s.rules s.board s.gameOver
  rw [advance_of_idle hmoves hjumps, advance_eq_settle, advance_eq_settle, ← hsettle,
    advancedArbiter_add]
  rfl

end Idle

/-! ### No move falls due in the second part -/

section Moves

variable {rules : GameRules} {t t' : Int} {jumps : List JumpState} {flights : List Flight} {s : GameState}
  {a b : Int}

theorem capturingJump_congr {target : Cell} {color : PieceColor}
    (h : ∀ jump ∈ jumps, jump.cell = target → color ≠ jump.color →
      (t ≤ jump.arrivalTime ↔ t' ≤ jump.arrivalTime)) :
    capturingJump t jumps target color = capturingJump t' jumps target color := by
  refine List.find?_congr fun jump hjump => ?_
  by_cases hcell : jump.cell = target
  · by_cases hcolor : color = jump.color
    · simp only [hcolor, bne_self_eq_false, Bool.and_false]
    · rw [decide_eq_decide.mpr (h jump hjump hcell hcolor)]
  · simp only [beq_false_of_ne hcell, Bool.and_false, Bool.false_and]

/-- Due moves settle alike at two times between which no jump ends under one of them. -/
theorem foldl_settleMove_clock (hrules : rules.KeepsPieces) (moves : List PendingMove) (x : Settling)
    (hb : Located x.board (moves.map PendingMove.flight ++ flights))
    (hends : ∀ move ∈ moves, x.board.InBounds move.endPos.1 move.endPos.2)
    (hwindows : ∀ move ∈ moves, ∀ jump ∈ jumps, jump.cell = move.endPos → move.color ≠ jump.color →
      (t ≤ jump.arrivalTime ↔ t' ≤ jump.arrivalTime)) :
    moves.foldl (settleMove rules t jumps) x = moves.foldl (settleMove rules t' jumps) x := by
  induction moves generalizing x with
  | nil => rfl
  | cons move moves ih =>
      obtain ⟨p, hp, -, hcolor, -⟩ := hb.findPieceById_flight
      have hpiece : (x.board.pieceOf move.pieceId).color = move.color :=
        (congrArg Piece.color (pieceOf_eq hp)).trans hcolor
      have hcapture := capturingJump_congr (hwindows move List.mem_cons_self)
      have hevent : dueEvent t jumps x.board move = dueEvent t' jumps x.board move := by
        simp only [dueEvent, hpiece, hcapture]
      have hstep : settleMove rules t jumps x move = settleMove rules t' jumps x move := by
        simp only [settleMove, hevent]
      obtain ⟨hlocated, hends'⟩ := settleMove_located hrules t' jumps hb hends
      rw [List.foldl_cons, List.foldl_cons, hstep]
      exact ih _ hlocated hends' fun other hother => hwindows other (List.mem_cons_of_mem _ hother)

theorem dueMoves_eq_of_gap (hb : 0 ≤ b) (hgap : ∀ move ∈ s.pendingMoves,
      move.arrivalTime ≤ s.clockMs + a ∨ s.clockMs + a + b < move.arrivalTime) :
    dueMoves (s.advancedArbiter (a + b)) = dueMoves (s.advancedArbiter a) ∧
      flyingMoves (s.advancedArbiter (a + b)) = flyingMoves (s.advancedArbiter a) := by
  have hsame : ∀ move ∈ s.pendingMoves, move.isDue (s.advancedArbiter (a + b)).clockMs
      = move.isDue (s.advancedArbiter a).clockMs := by
    intro move hmove
    have hclock : (s.advancedArbiter (a + b)).clockMs = s.clockMs + a + b := (Int.add_assoc _ _ _).symm
    have hclock' : (s.advancedArbiter a).clockMs = s.clockMs + a := rfl
    have hcases := hgap move hmove
    simp only [PendingMove.isDue, hclock, hclock', Bool.not_eq_eq_eq_not, Bool.not_not, decide_eq_decide]
    omega
  constructor
  · exact List.filter_congr hsame
  · exact List.filter_congr fun move hmove => congrArg (!·) (hsame move hmove)

/-- The jumps that end in a tick, those of its first part first. -/
theorem endedJumps_perm (hb : 0 ≤ b) :
    (endedJumps (s.advancedArbiter (a + b))).Perm
      (endedJumps (s.advancedArbiter a)
        ++ (flyingJumps (s.advancedArbiter a)).filter (JumpState.isDue (s.clockMs + a + b))) ∧
      (flyingJumps (s.advancedArbiter a)).filter (fun jump => !jump.isDue (s.clockMs + a + b))
        = flyingJumps (s.advancedArbiter (a + b)) := by
  have hclock : (s.advancedArbiter (a + b)).clockMs = s.clockMs + a + b := (Int.add_assoc _ _ _).symm
  have hlater : ∀ jump : JumpState, jump.isDue (s.clockMs + a) = true →
      jump.isDue (s.clockMs + a + b) = true := by
    intro jump hdue
    simp only [JumpState.isDue, Bool.not_eq_true', decide_eq_false_iff_not] at hdue ⊢
    omega
  have hsplit := (List.filter_append_perm (JumpState.isDue (s.clockMs + a))
    (endedJumps (s.advancedArbiter (a + b)))).symm
  constructor
  · refine hsplit.trans (List.Perm.of_eq (congrArg₂ (· ++ ·) ?_ ?_))
    · simp only [endedJumps, hclock, List.filter_filter]
      refine List.filter_congr fun jump _ => ?_
      cases hdue : jump.isDue (s.clockMs + a) with
      | false => exact hdue.symm
      | true => exact (hlater jump hdue).trans hdue.symm
    · simp only [endedJumps, flyingJumps, hclock, List.filter_filter]
      refine List.filter_congr fun jump _ => ?_
      exact Bool.and_comm _ _
  · simp only [flyingJumps, hclock, List.filter_filter]
    refine List.filter_congr fun jump _ => ?_
    cases hdue : jump.isDue (s.clockMs + a + b) with
    | true => rfl
    | false =>
        cases hearly : jump.isDue (s.clockMs + a) with
        | false => exact congrArg (true && !·) hearly
        | true => rw [hlater jump hearly] at hdue; cases hdue

theorem settleDue_eq_of_gap (h : GameInv s) (hb : 0 ≤ b)
    (hgap : ∀ move ∈ s.pendingMoves,
      move.arrivalTime ≤ s.clockMs + a ∨ s.clockMs + a + b < move.arrivalTime)
    (hwindows : ∀ move ∈ s.pendingMoves, move.arrivalTime ≤ s.clockMs + a → ∀ jump ∈ s.activeJumps,
      jump.cell = move.endPos → jump.color ≠ move.color →
        jump.arrivalTime < s.clockMs + a ∨ s.clockMs + a + b ≤ jump.arrivalTime) :
    settleDue s.rules (s.advancedArbiter (a + b)) s.board s.gameOver
      = settleDue s.rules (s.advancedArbiter a) s.board s.gameOver := by
  have hclock : (s.advancedArbiter (a + b)).clockMs = s.clockMs + a + b := (Int.add_assoc _ _ _).symm
  have hperm := dueMoves_append_perm (s.advancedArbiter a)
  unfold settleDue
  rw [(dueMoves_eq_of_gap hb hgap).1, hclock]
  refine foldl_settleMove_clock (h.rules ▸ GameRules.standard_keepsPieces) (dueMoves (s.advancedArbiter a))
    (settleStart (s.advancedArbiter a) s.board s.gameOver) (h.located.perm hperm) ?_ ?_
  · intro move hmove
    exact h.ends move (List.mem_filter.mp hmove).1
  · intro move hmove jump hjump hcell hcolor
    obtain ⟨hpending, hdue⟩ := List.mem_filter.mp hmove
    have harrived : move.arrivalTime ≤ s.clockMs + a := by
      simp only [PendingMove.isDue, Bool.not_eq_true', decide_eq_false_iff_not] at hdue
      exact Int.not_lt.mp hdue
    have hwindow := hwindows move hpending harrived jump hjump hcell (Ne.symm hcolor)
    show s.clockMs + a + b ≤ jump.arrivalTime ↔ s.clockMs + a ≤ jump.arrivalTime
    omega

theorem advance_add_of_gap (h : GameInv s) (hb : 0 ≤ b)
    (hgap : ∀ move ∈ s.pendingMoves,
      move.arrivalTime ≤ s.clockMs + a ∨ s.clockMs + a + b < move.arrivalTime)
    (hwindows : ∀ move ∈ s.pendingMoves, move.arrivalTime ≤ s.clockMs + a → ∀ jump ∈ s.activeJumps,
      jump.cell = move.endPos → jump.color ≠ move.color →
        jump.arrivalTime < s.clockMs + a ∨ s.clockMs + a + b ≤ jump.arrivalTime) :
    (s.advance a).advance b = s.advance (a + b) := by
  have hdue := settleDue_eq_of_gap h hb hgap hwindows
  have hflying := (dueMoves_eq_of_gap hb hgap).2
  obtain ⟨hended, hairborne⟩ := endedJumps_perm (s := s) (a := a) hb
  -- the second tick only ends jumps
  obtain ⟨hnone, hkept⟩ := dueMoves_eq_nil ((s.advance a).advancedArbiter b) (by
    intro move hmove
    obtain ⟨hpending, hflight⟩ := mem_pendingMoves_advance hmove
    have hcases := hgap move hpending
    show s.clockMs + a + b < move.arrivalTime
    omega)
  obtain ⟨hstart, hflights, -⟩ := settle_eq_of_idle (s.advance a).rules (s.advance a).board
    (s.advance a).gameOver hnone
  have hboard : ((s.advance a).advance b).board = (s.advance (a + b)).board := by
    have hlocated := located_cancelled (h.rules ▸ GameRules.standard_keepsPieces) s.gameOver
      (show Located s.board (flightsOf (s.advancedArbiter (a + b)).scheduler.pendingMoves
        (s.advancedArbiter (a + b)).scheduler.activeJumps) from h.located) h.ends
    have hperm := foldl_putBack_perm (hended.map JumpState.flight) _ hlocated
    rw [List.map_append, List.foldl_append, hdue, hflying] at hperm
    show settledBoard _ _ _ _ = settledBoard _ _ _ _
    rw [settledBoard, hflights, hstart, settledBoard, endedFlights, List.foldl_append, hdue, hflying, hperm]
    show List.foldl putBack (settledBoard _ _ _ _) _ = _
    rw [settledBoard, endedFlights, List.foldl_append]
    rfl
  have hrests : ((s.advance a).advance b).activeRests = (s.advance (a + b)).activeRests := by
    have hnodup : ((endedJumps (s.advancedArbiter (a + b))).map JumpState.pieceId).Nodup := by
      have hids := h.located.idsNodup
      rw [flightsOf, List.map_append, List.map_map, List.map_map] at hids
      exact (List.nodup_append.mp hids).2.1.sublist (List.filter_sublist.map _)
    have hall := foldl_restJumper_perm s.rules hended hnodup
      (settleDue s.rules (s.advancedArbiter a) s.board s.gameOver).rests
    rw [List.foldl_append] at hall
    have hclock : (s.advancedArbiter (a + b)).clockMs = s.clockMs + a + b := (Int.add_assoc _ _ _).symm
    have hexpire := expireRests_expireRests (show s.clockMs + a ≤ s.clockMs + a + b by omega)
      ((endedJumps (s.advancedArbiter a)).foldl (restJumper s.rules)
        (settleDue s.rules (s.advancedArbiter a) s.board s.gameOver).rests)
    have hlater := SameRests.foldl_restJumper s.rules
      ((flyingJumps (s.advancedArbiter a)).filter (JumpState.isDue (s.clockMs + a + b))) hexpire
    show expireRests _ (List.foldl _ (settleDue _ _ _ _).rests _)
      = expireRests _ (List.foldl _ (settleDue _ _ _ _).rests _)
    rw [hstart, hdue, hclock, hall]
    exact hlater
  refine GameState.ext hboard rfl (RealTimeArbiter.ext (MoveScheduler.ext ?_ ?_ hrests) ?_) rfl ?_
  · show keptMoves (settleDue _ _ _ _) _ = keptMoves (settleDue _ _ _ _) _
    rw [hstart, hdue, hflying]
    exact hkept
  · exact hairborne
  · exact Int.add_assoc _ _ _
  · show (settleDue _ _ _ _).gameOver = (settleDue _ _ _ _).gameOver
    rw [hstart, hdue]
    rfl

end Moves

end KungFuChess
