import KungFuChess.Proof.Game

/-!
# The pieces along a game

Every piece is in exactly one place: on the grid, in one of the two queues, or captured. The table only
ever changes in three ways from one state to the next (a piece moves or lands, a piece is captured, a
pawn that lands on its last row becomes a queen), so ids and colours are fixed for a whole game.
-/

namespace KungFuChess

open Loops BoardModel

/-! ### What an event does to the table -/

namespace SettleEvent

/-- The piece that is on the event's cell when it happens. -/
def occupant : SettleEvent → Option Piece
  | landed _ _ occupant => occupant
  | shotDown _ _ => none
  | putBack _ _ occupant => occupant

/-- The piece of the event, after it. -/
def pieceAfter (rules : GameRules) (rows : Nat) : SettleEvent → Piece
  | landed piece cell _ => { rules.landing piece cell.1 rows with cell := positionOf cell.1 cell.2 }
  | shotDown piece _ => { piece with state := .captured }
  | putBack piece cell _ => { piece with cell := positionOf cell.1 cell.2, state := .idle }

end SettleEvent

section Event

variable {rules : GameRules} {b b' : BoardModel} {f : Flight} {flights left : List Flight}
  {e : SettleEvent} {events : List SettleEvent} {p q : Piece} {id : Nat}

theorem Fits.occupant_eq (h : Fits b f e) (hq : e.occupant = some q) :
    ∃ row col, b.pieceAt row col = some q := by
  cases h with
  | landed => exact ⟨_, _, hq⟩
  | shotDown => cases hq
  | putBack => exact ⟨_, _, hq⟩

/-- The piece an event captures on its cell stood there idle. -/
theorem Fits.occupant_idle (h : Fits b f e) (hb : Located b flights) (hq : e.occupant = some q) :
    b.findPieceById q.id = some q ∧ q.state = .idle := by
  obtain ⟨row, col, hpiece⟩ := h.occupant_eq hq
  exact ⟨(hb.pieceAt_eq_some_iff.mp hpiece).2, (hb.idle_of_pieceAt hpiece).1⟩

theorem Fits.findPieceById_boardAfter (hrules : rules.KeepsPieces) (hb : Located b (f :: left))
    (h : Fits b f e) (id : Nat) :
    (e.boardAfter rules b).findPieceById id =
      if id = f.id then some (e.pieceAfter rules b.rows)
      else match e.occupant with
        | none => b.findPieceById id
        | some q => if id = q.id then some { q with state := .captured } else b.findPieceById id := by
  have hid := hb.idsInPlace f.id _ h.piece_eq
  cases h with
  | @landed piece cell hfind htarget hin hcolor =>
      have hplaced : (rules.landing piece cell.1 b.rows).id = f.id :=
        (rules.landing_id hrules _ _ _).trans hid
      rw [← hplaced]
      exact hb.findPieceById_land hplaced id
  | @shotDown piece jump hfind hcolor =>
      have hpiece : piece.id = f.id := hid
      rw [← hpiece] at hfind ⊢
      exact findPieceById_setPiece (p := { piece with state := .captured }) hfind id
  | @putBack piece hfind =>
      have hplaced : ({ piece with state := .idle } : Piece).id = f.id := hid
      rw [← hplaced]
      exact hb.findPieceById_land hplaced id

/-! ### What a settlement does to a piece -/

def lastRow (color : PieceColor) (rows : Nat) : Nat :=
  match color with
  | .white => 0
  | .black => rows - 1

/-- What can become of a piece while `flights` are worked off. -/
structure Fate (rows : Nat) (flights : List Flight) (p p' : Piece) : Prop where
  color : p'.color = p.color
  grounded : p.id ∉ flights.map Flight.id → p' = p ∨ p' = { p with state := .captured }
  kind : p'.kind = p.kind ∨ p.kind = .pawn ∧ p'.kind = .queen ∧ ∃ f ∈ flights, f.id = p.id ∧
    ∃ cell, f.target = some cell ∧ cell.1 = lastRow p.color rows ∧ p'.cell = positionOf cell.1 cell.2

theorem promotePawnToQueen_cases (p : Piece) (row rows : Nat) :
    promotePawnToQueen p row rows = p ∨
      p.kind = .pawn ∧ row = lastRow p.color rows ∧
        promotePawnToQueen p row rows = { p with kind := .queen } := by
  unfold promotePawnToQueen
  split
  · exact .inl rfl
  rename_i hpawn
  rw [not_not] at hpawn
  dsimp only
  split
  · rename_i hwhite
    simp only [Piece.isWhite, Bool.and_eq_true, beq_iff_eq] at hwhite
    exact .inr ⟨hpawn, by rw [hwhite.1, lastRow]; exact hwhite.2, rfl⟩
  split
  · rename_i hblack
    simp only [Piece.isBlack, Bool.and_eq_true, beq_iff_eq] at hblack
    exact .inr ⟨hpawn, by rw [hblack.1, lastRow]; exact hblack.2, rfl⟩
  · exact .inl rfl

/-- The piece of an event keeps its colour; its kind changes only on its last row. -/
theorem Fits.pieceAfter_kind (h : Fits b f e) (rows : Nat) :
    (e.pieceAfter .standard rows).color = e.piece.color ∧
      ((e.pieceAfter .standard rows).kind = e.piece.kind ∨
        e.piece.kind = .pawn ∧ (e.pieceAfter .standard rows).kind = .queen ∧
          ∃ cell, f.target = some cell ∧ cell.1 = lastRow e.piece.color rows ∧
            (e.pieceAfter .standard rows).cell = positionOf cell.1 cell.2) := by
  cases h with
  | @landed piece cell hfind htarget hin hcolor =>
      have hlanding : GameRules.standard.landing piece cell.1 rows
          = { promotePawnToQueen piece cell.1 rows with state := .idle } := rfl
      simp only [SettleEvent.pieceAfter, SettleEvent.piece, hlanding]
      rcases promotePawnToQueen_cases piece cell.1 rows with hsame | ⟨hpawn, hrow, hqueen⟩
      · exact ⟨by rw [hsame], .inl (by rw [hsame])⟩
      · exact ⟨by rw [hqueen], .inr ⟨hpawn, by rw [hqueen], cell, htarget, hrow, rfl⟩⟩
  | shotDown => exact ⟨rfl, .inl rfl⟩
  | putBack => exact ⟨rfl, .inl rfl⟩

theorem Trace.fate (h : Trace .standard b flights events b' left) (hb : Located b flights)
    (hp : b.findPieceById id = some p) :
    ∃ p', b'.findPieceById id = some p' ∧ Fate b.rows flights p p' := by
  induction h generalizing p with
  | nil hperm => exact ⟨p, hp, rfl, fun _ => .inl rfl, .inl rfl⟩
  | @cons b b' f flights left left' e events hperm hfits hrest ih =>
      have hb := hb.perm hperm
      have hnodup := List.nodup_cons.mp hb.idsNodup
      have hid := hb.idsInPlace id p hp
      have hmem : ∀ g ∈ left, g ∈ flights := fun g hg => hperm.mem_iff.mpr (List.mem_cons_of_mem _ hg)
      have hfind := hfits.findPieceById_boardAfter GameRules.standard_keepsPieces hb id
      have hlocated := hfits.located GameRules.standard_keepsPieces hb
      have hrows := (hfits.rows_boardAfter .standard).1
      by_cases hmine : id = f.id
      · -- the piece of the event: it is not in flight any more
        rw [if_pos hmine] at hfind
        obtain ⟨p', hp', hfate⟩ := ih hlocated hfind
        have hpiece : e.piece = p := by
          have := hfits.piece_eq
          rw [← hmine, hp] at this
          exact (Option.some.inj this).symm
        have hafter : (e.pieceAfter .standard b.rows).id = id := hlocated.idsInPlace id _ hfind
        obtain ⟨hcolor, hkind⟩ := hfits.pieceAfter_kind b.rows
        rw [hpiece] at hcolor hkind
        have hgrounded := hfate.grounded (by rw [hafter, hmine]; exact hnodup.1)
        have hsame : p'.color = (e.pieceAfter .standard b.rows).color ∧
            p'.kind = (e.pieceAfter .standard b.rows).kind ∧
            p'.cell = (e.pieceAfter .standard b.rows).cell := by
          rcases hgrounded with rfl | rfl <;> exact ⟨rfl, rfl, rfl⟩
        refine ⟨p', hp', hsame.1.trans hcolor, fun hnot => ?_, ?_⟩
        · refine absurd ?_ hnot
          rw [hid, hmine]
          exact List.mem_map_of_mem (hperm.mem_iff.mpr List.mem_cons_self)
        · rw [hsame.2.1, hsame.2.2, hid]
          rcases hkind with hkind | ⟨hpawn, hqueen, cell, htarget, hrow, hcell⟩
          · exact .inl hkind
          · exact .inr ⟨hpawn, hqueen, f, hperm.mem_iff.mpr List.mem_cons_self, hmine.symm, cell,
              htarget, hrow, hcell⟩
      · rw [if_neg hmine] at hfind
        have hother : id ∉ flights.map Flight.id → id ∉ left.map Flight.id := by
          intro hnot hin
          obtain ⟨g, hg, hgid⟩ := List.mem_map.mp hin
          exact hnot (List.mem_map.mpr ⟨g, hmem g hg, hgid⟩)
        have hkept : (e.boardAfter .standard b).findPieceById id = some p →
            ∃ p', b'.findPieceById id = some p' ∧ Fate b.rows flights p p' := by
          intro hafter
          obtain ⟨p', hp', hfate⟩ := ih hlocated hafter
          refine ⟨p', hp', hfate.color, fun hnot => ?_, ?_⟩
          · rw [hid] at hnot
            exact hfate.grounded (by rw [hid]; exact hother hnot)
          · rcases hfate.kind with hkind | ⟨hpawn, hqueen, g, hg, hspec⟩
            · exact .inl hkind
            · rw [hrows] at hspec
              exact .inr ⟨hpawn, hqueen, g, hmem g hg, hspec⟩
        cases hq : e.occupant with
        | none =>
            rw [hq] at hfind
            exact hkept (hfind.trans hp)
        | some q =>
            rw [hq] at hfind
            by_cases hvictim : id = q.id
            · obtain ⟨hqfind, hqidle⟩ := hfits.occupant_idle hb hq
              rw [← hvictim, hp] at hqfind
              cases hqfind
              dsimp only at hfind
              rw [if_pos hvictim] at hfind
              obtain ⟨p', hp', hfate⟩ := ih hlocated hfind
              have hground : p.id ∉ left.map Flight.id := by
                intro hin
                have hmoving := (hlocated.moving id _ hfind).mpr (by rw [hvictim]; exact hin)
                cases hmoving
              have hsame : p' = { p with state := .captured } := by
                rcases hfate.grounded hground with h | h <;> exact h
              subst hsame
              exact ⟨_, hp', rfl, fun _ => .inr rfl, .inl rfl⟩
            · dsimp only at hfind
              rw [if_neg hvictim] at hfind
              exact hkept (hfind.trans hp)

end Event

/-! ### Where a piece is -/

/-- The entries of the two queues for an id. -/
def entriesOf (s : GameState) (id : Nat) : Nat :=
  s.pendingMoves.countP (·.pieceId == id) + s.activeJumps.countP (·.pieceId == id)

/-- The grid, the table and the queues agree on where every piece is. -/
structure PieceLocation (s : GameState) : Prop where
  oneCell : ∀ id row col row' col', s.board.cellId row col = some id →
    s.board.cellId row' col' = some id → row = row' ∧ col = col'
  inTable : ∀ id row col, s.board.cellId row col = some id → ∃ p, s.board.findPieceById id = some p
  onGrid : ∀ id p, s.board.findPieceById id = some p →
    ((∃ row col, s.board.cellId row col = some id) ↔ p.state = .idle)
  cell : ∀ id p row col, s.board.findPieceById id = some p → s.board.cellId row col = some id →
    p.cell = positionOf row col
  moving : ∀ id p, s.board.findPieceById id = some p →
    (p.state = .moving ↔ (∀ row col, s.board.cellId row col ≠ some id) ∧ entriesOf s id = 1)
  captured : ∀ id p, s.board.findPieceById id = some p → p.state = .captured →
    (∀ row col, s.board.cellId row col ≠ some id) ∧ entriesOf s id = 0

theorem entriesOf_eq (s : GameState) (id : Nat) :
    entriesOf s id = ((flightsOf s.pendingMoves s.activeJumps).map Flight.id).count id := by
  simp only [entriesOf, flightsOf, List.map_append, List.map_map, List.count, List.countP_append,
    List.countP_map]
  rfl

theorem GameInv.pieceLocation {s : GameState} (h : GameInv s) : PieceLocation s := by
  have hcount : ∀ id, entriesOf s id =
      if id ∈ (flightsOf s.pendingMoves s.activeJumps).map Flight.id then 1 else 0 := by
    intro id
    rw [entriesOf_eq, h.located.idsNodup.count]
  have hgrid : ∀ id p, s.board.findPieceById id = some p →
      ((∃ row col, s.board.cellId row col = some id) ↔ p.state = .idle) := by
    intro id p hp
    refine ⟨?_, h.located.idle id p hp⟩
    intro h
    obtain ⟨row, col, hcell⟩ := h
    obtain ⟨q, hq, hidle, -⟩ := h.located.onGrid row col id hcell
    rw [hp] at hq
    cases hq
    exact hidle
  refine ⟨?_, ?_, hgrid, ?_, ?_, ?_⟩
  · intro id row col row' col' hcell hcell'
    exact h.located.cell_unique hcell hcell'
  · intro id row col hcell
    obtain ⟨p, hp, -⟩ := h.located.onGrid row col id hcell
    exact ⟨p, hp⟩
  · intro id p row col hp hcell
    obtain ⟨q, hq, -, hpos⟩ := h.located.onGrid row col id hcell
    rw [hp] at hq
    cases hq
    exact hpos
  · intro id p hp
    have hmoving := h.located.moving id p hp
    constructor
    · intro hstate
      refine ⟨fun row col hcell => ?_, by rw [hcount, if_pos (hmoving.mp hstate)]⟩
      have hidle := (hgrid id p hp).mp ⟨row, col, hcell⟩
      rw [hstate] at hidle
      cases hidle
    · intro h
      obtain ⟨-, hone⟩ := h
      rw [hcount] at hone
      split at hone
      · rename_i hmem
        exact hmoving.mpr hmem
      · cases hone
  · intro id p hp hstate
    refine ⟨fun row col hcell => ?_, ?_⟩
    · have hidle := (hgrid id p hp).mp ⟨row, col, hcell⟩
      rw [hstate] at hidle
      cases hidle
    · rw [hcount, if_neg]
      intro hmem
      have hmoving := (h.located.moving id p hp).mpr hmem
      rw [hstate] at hmoving
      cases hmoving

/-! ### What an action does to a piece -/

/-- The ids and colours stay, a captured piece stays as it is, and the only change of kind is a pawn
becoming a queen where it lands. -/
structure PieceStep (s s' : GameState) : Prop where
  ids : ∀ id, (s'.board.findPieceById id).isSome = (s.board.findPieceById id).isSome
  color : ∀ id p p', s.board.findPieceById id = some p → s'.board.findPieceById id = some p' →
    p'.color = p.color
  captured : ∀ id p p', s.board.findPieceById id = some p → s'.board.findPieceById id = some p' →
    p.state = .captured → p' = p
  kind : ∀ id p p', s.board.findPieceById id = some p → s'.board.findPieceById id = some p' →
    p'.kind ≠ p.kind → p.kind = .pawn ∧ p'.kind = .queen ∧ ∃ move ∈ s.pendingMoves,
      move.pieceId = id ∧ move.endPos.1 = lastRow p.color s.rows ∧
        p'.cell = positionOf move.endPos.1 move.endPos.2

section Step

variable {s s' : GameState} {a : GameAction}

theorem mem_flightsOf_target {moves : List PendingMove} {jumps : List JumpState} {f : Flight} {cell : Cell}
    (hf : f ∈ flightsOf moves jumps) (htarget : f.target = some cell) :
    ∃ move ∈ moves, move.pieceId = f.id ∧ move.endPos = cell := by
  rcases List.mem_append.mp hf with hf | hf
  · obtain ⟨move, hmove, rfl⟩ := List.mem_map.mp hf
    exact ⟨move, hmove, rfl, Option.some.inj htarget⟩
  · obtain ⟨jump, -, rfl⟩ := List.mem_map.mp hf
    cases htarget

theorem GameInv.pieceStep_lift (h : GameInv s) {p : Piece} {row col : Nat}
    (hp : s.board.pieceAt row col = some p) (hboard : s'.board = s.board.lift p row col) :
    PieceStep s s' := by
  have hpfind := (h.located.pieceAt_eq_some_iff.mp hp).2
  have hidle := (h.located.idle_of_pieceAt hp).1
  have hfind : ∀ id, s'.board.findPieceById id
      = if id = p.id then some { p with state := .moving } else s.board.findPieceById id := by
    intro id
    rw [hboard]
    exact findPieceById_setPiece (p := { p with state := .moving }) hpfind id
  have hcases : ∀ id q q', s.board.findPieceById id = some q → s'.board.findPieceById id = some q' →
      q' = q ∨ q = p ∧ q' = { p with state := .moving } := by
    intro id q q' hq hq'
    rw [hfind] at hq'
    split at hq'
    · rename_i hid
      rw [hid, hpfind] at hq
      cases hq
      cases hq'
      exact .inr ⟨rfl, rfl⟩
    · rw [hq] at hq'
      cases hq'
      exact .inl rfl
  refine ⟨?_, ?_, ?_, ?_⟩
  · intro id
    rw [hfind]
    split
    · rename_i hid
      rw [hid, hpfind]
      rfl
    · rfl
  · intro id q q' hq hq'
    rcases hcases id q q' hq hq' with rfl | ⟨rfl, rfl⟩ <;> rfl
  · intro id q q' hq hq' hcaptured
    rcases hcases id q q' hq hq' with rfl | ⟨rfl, rfl⟩
    · rfl
    · rw [hidle] at hcaptured
      cases hcaptured
  · intro id q q' hq hq' hkind
    rcases hcases id q q' hq hq' with rfl | ⟨rfl, rfl⟩
    · exact absurd rfl hkind
    · exact absurd rfl hkind

theorem GameInv.pieceStep_advance (h : GameInv s) (ms : Int) : PieceStep s (s.advance ms) := by
  have htrace := h.trace ms
  have hfate : ∀ id p p', s.board.findPieceById id = some p →
      (s.advance ms).board.findPieceById id = some p' →
      Fate s.board.rows (flightsOf s.pendingMoves s.activeJumps) p p' := by
    intro id p p' hp hp'
    obtain ⟨q, hq, hfate⟩ := htrace.fate h.located hp
    rw [hp'] at hq
    cases hq
    exact hfate
  refine ⟨?_, ?_, ?_, ?_⟩
  · intro id
    rw [Bool.eq_iff_iff, findPieceById_isSome, findPieceById_isSome, htrace.pieces_length]
  · intro id p p' hp hp'
    exact (hfate id p p' hp hp').color
  · intro id p p' hp hp' hcaptured
    have hground : p.id ∉ (flightsOf s.pendingMoves s.activeJumps).map Flight.id := by
      rw [h.located.idsInPlace id p hp, ← h.located.moving id p hp, hcaptured]
      decide
    rcases (hfate id p p' hp hp').grounded hground with hsame | hsame
    · exact hsame
    · rw [hsame, ← hcaptured]
  · intro id p p' hp hp' hkind
    rcases (hfate id p p' hp hp').kind with hsame | ⟨hpawn, hqueen, f, hf, hid, cell, htarget, hrow, hcell⟩
    · exact absurd hsame hkind
    · obtain ⟨move, hmove, hpiece, rfl⟩ := mem_flightsOf_target hf htarget
      rw [hid, h.located.idsInPlace id p hp] at hpiece
      exact ⟨hpawn, hqueen, move, hmove, hpiece, hrow, hcell⟩

theorem GameStep.pieceStep (h : GameInv s) (hstep : GameStep s a s') : PieceStep s s' := by
  cases hstep with
  | quiet _ selected =>
      refine ⟨fun _ => rfl, ?_, ?_, ?_⟩
      all_goals
        intro id p p' hp hp'
        rw [show s.board.findPieceById id = some p' from hp'] at hp
        cases hp
      · rfl
      · exact fun _ => rfl
      · exact fun hkind => absurd rfl hkind
  | moveStarted _ hp _ _ _ => exact h.pieceStep_lift hp rfl
  | jumpStarted _ hp _ => exact h.pieceStep_lift hp rfl
  | settled ms => exact h.pieceStep_advance ms

end Step

/-- What holds of the table from one state of a game to any later one. -/
structure PieceHistory (s s' : GameState) : Prop where
  ids : ∀ id, (s'.board.findPieceById id).isSome = (s.board.findPieceById id).isSome
  piece : ∀ id p p', s.board.findPieceById id = some p → s'.board.findPieceById id = some p' →
    p'.color = p.color ∧ (p.state = .captured → p' = p) ∧
      (p'.kind = p.kind ∨ p.kind = .pawn ∧ p'.kind = .queen)

namespace PieceHistory

variable {s s' s'' : GameState}

theorem refl (s : GameState) : PieceHistory s s where
  ids _ := rfl
  piece id p p' hp hp' := by
    rw [hp] at hp'
    cases hp'
    exact ⟨rfl, fun _ => rfl, .inl rfl⟩

theorem of_step (h : PieceStep s s') : PieceHistory s s' where
  ids := h.ids
  piece id p p' hp hp' := by
    refine ⟨h.color id p p' hp hp', h.captured id p p' hp hp', ?_⟩
    by_cases hkind : p'.kind = p.kind
    · exact .inl hkind
    · obtain ⟨hpawn, hqueen, -⟩ := h.kind id p p' hp hp' hkind
      exact .inr ⟨hpawn, hqueen⟩

theorem trans (h : PieceHistory s s') (h' : PieceHistory s' s'') : PieceHistory s s'' where
  ids id := (h'.ids id).trans (h.ids id)
  piece id p p'' hp hp'' := by
    have hmid : (s'.board.findPieceById id).isSome = true := by rw [h.ids, hp]; rfl
    obtain ⟨p', hp'⟩ := Option.isSome_iff_exists.mp hmid
    obtain ⟨hcolor, hcaptured, hkind⟩ := h.piece id p p' hp hp'
    obtain ⟨hcolor', hcaptured', hkind'⟩ := h'.piece id p' p'' hp' hp''
    refine ⟨hcolor'.trans hcolor, fun hstate => ?_, ?_⟩
    · have hsame := hcaptured hstate
      rw [← hsame]
      exact hcaptured' (by rw [hsame, hstate])
    · rcases hkind with hkind | ⟨hpawn, hqueen⟩
      · rw [← hkind]
        exact hkind'
      · rcases hkind' with hkind' | ⟨hpawn', -⟩
        · exact .inr ⟨hpawn, hkind'.trans hqueen⟩
        · rw [hqueen] at hpawn'
          cases hpawn'

end PieceHistory

theorem runActions_pieceHistory {s : GameState} (h : GameInv s) (actions : List GameAction) :
    ∃ s', s.runActions actions = .ok s' ∧ GameInv s' ∧ PieceHistory s s' := by
  refine foldlM_consumes (fun _ s' => GameInv s' ∧ PieceHistory s s') ?_ actions s ⟨h, .refl s⟩
  intro a _ mid h
  obtain ⟨hmid, hhistory⟩ := h
  obtain ⟨s', hs', hstep⟩ := applyAction_step hmid a
  exact ⟨s', hs', hstep.inv hmid, hhistory.trans (.of_step (hstep.pieceStep hmid))⟩

/-- In every game every piece is in one place; an action changes a kind only where a pawn lands on its
last row, and no later action brings a piece back, adds one or changes its colour. -/
theorem runActions_pieceLocation {board : BoardModel} (hboard : AcceptedBoard board)
    (actions : List GameAction) :
    ∃ s, (GameState.new board).runActions actions = .ok s ∧ PieceLocation s ∧
      (∀ a, ∃ s', s.applyAction a = .ok s' ∧ PieceStep s s') ∧
      ∀ later, ∃ s', s.runActions later = .ok s' ∧ PieceHistory s s' := by
  obtain ⟨s, hs, hinv⟩ := runActions_inv (gameInv_new hboard) actions
  refine ⟨s, hs, hinv.pieceLocation, fun a => ?_, fun later => ?_⟩
  · obtain ⟨s', hs', hstep⟩ := applyAction_step hinv a
    exact ⟨s', hs', hstep.pieceStep hinv⟩
  · obtain ⟨s', hs', -, hhistory⟩ := runActions_pieceHistory hinv later
    exact ⟨s', hs', hhistory⟩

/-- A white rook beside a black king. -/
def duelBoard : BoardModel :=
  ⟨[[some 1, some 2], [none, none]],
    [⟨1, .white, .rook, ⟨0, 0⟩, .idle⟩, ⟨2, .black, .king, ⟨0, 1⟩, .idle⟩]⟩

theorem duelBoard_accepted : AcceptedBoard duelBoard :=
  ⟨["wR bK".toList, ". .".toList], ⟨[], []⟩, by decide⟩

theorem runActions_pieceLocation_duel :
    AcceptedBoard duelBoard ∧
      ∃ s, (GameState.new duelBoard).runActions [.select 0 0, .moveSelected 0 1, .advanceClock 1000] = .ok s ∧
        PieceLocation s ∧ (∀ a, ∃ s', s.applyAction a = .ok s' ∧ PieceStep s s') ∧
        ∀ later, ∃ s', s.runActions later = .ok s' ∧ PieceHistory s s' :=
  ⟨duelBoard_accepted, runActions_pieceLocation duelBoard_accepted _⟩

end KungFuChess
