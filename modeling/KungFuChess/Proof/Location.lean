import KungFuChess.Model.Realtime
import KungFuChess.Proof.Board

/-!
# Where the pieces are

The grid, the piece table and the two queues of the scheduler each record where a piece is. `Located`
says that they agree: the pieces on the grid are the idle ones, each on its own cell, and the pieces in
flight are those with an entry in a queue, each with one. The queues enter only through the list of
their flights, so one statement serves pending moves and jumps, and the middle of a settlement too.

Three changes of the board keep it: a piece leaves its cell, a piece in flight comes down on a cell
(taking whatever stands there), and a piece in flight is taken.
-/

namespace KungFuChess

open BoardModel

/-- What an entry of either queue says about its piece; a jump has no target. -/
structure Flight where
  id : Nat
  color : PieceColor
  kind : PieceKind
  origin : Cell
  target : Option Cell

def PendingMove.flight (move : PendingMove) : Flight :=
  ⟨move.pieceId, move.color, move.kind, move.startPos, some move.endPos⟩

def JumpState.flight (jump : JumpState) : Flight :=
  ⟨jump.pieceId, jump.color, jump.kind, jump.cell, none⟩

def flightsOf (moves : List PendingMove) (jumps : List JumpState) : List Flight :=
  moves.map PendingMove.flight ++ jumps.map JumpState.flight

structure Located (b : BoardModel) (flights : List Flight) : Prop where
  rect : b.Rect
  idsInPlace : b.IdsInPlace
  onGrid : ∀ row col id, b.cellId row col = some id →
    ∃ p, b.findPieceById id = some p ∧ p.state = .idle ∧ p.cell = positionOf row col
  idle : ∀ id p, b.findPieceById id = some p → p.state = .idle → ∃ row col, b.cellId row col = some id
  moving : ∀ id p, b.findPieceById id = some p → (p.state = .moving ↔ id ∈ flights.map Flight.id)
  flightPiece : ∀ f ∈ flights, ∃ p, b.findPieceById f.id = some p ∧ p.color = f.color ∧ p.kind = f.kind
  idsNodup : (flights.map Flight.id).Nodup
  originsNodup : (flights.map Flight.origin).Nodup
  originsIn : ∀ f ∈ flights, b.InBounds f.origin.1 f.origin.2

namespace Located

variable {b : BoardModel} {f : Flight} {flights : List Flight} {p q : Piece} {row col : Nat}

theorem perm (h : Located b flights) {others : List Flight} (hperm : flights.Perm others) :
    Located b others where
  rect := h.rect
  idsInPlace := h.idsInPlace
  onGrid := h.onGrid
  idle := h.idle
  moving id p hp := by
    rw [h.moving id p hp]
    exact (hperm.map Flight.id).mem_iff
  flightPiece f hf := h.flightPiece f (hperm.mem_iff.mpr hf)
  idsNodup := (hperm.map Flight.id).nodup_iff.mp h.idsNodup
  originsNodup := (hperm.map Flight.origin).nodup_iff.mp h.originsNodup
  originsIn f hf := h.originsIn f (hperm.mem_iff.mpr hf)

theorem pieceAt_eq_some_iff (h : Located b flights) :
    b.pieceAt row col = some q ↔ b.cellId row col = some q.id ∧ b.findPieceById q.id = some q := by
  rw [pieceAt_eq h.rect, Option.bind_eq_some_iff]
  constructor
  · intro h
    obtain ⟨id, hid, hq⟩ := h
    rw [← h.idsInPlace id q hq] at hid hq
    exact ⟨hid, hq⟩
  · intro h
    obtain ⟨hid, hq⟩ := h
    exact ⟨q.id, hid, hq⟩

theorem pieceAt_eq_none_iff (h : Located b flights) :
    b.pieceAt row col = none ↔ b.cellId row col = none := by
  rw [pieceAt_eq h.rect]
  cases hcell : b.cellId row col with
  | none => simp
  | some id =>
      obtain ⟨p, hp, _⟩ := h.onGrid row col id hcell
      simp [hp]

theorem idle_of_pieceAt (h : Located b flights) (hq : b.pieceAt row col = some q) :
    q.state = .idle ∧ q.cell = positionOf row col := by
  obtain ⟨hcell, hfind⟩ := h.pieceAt_eq_some_iff.mp hq
  obtain ⟨p, hp, hidle, hpos⟩ := h.onGrid row col q.id hcell
  rw [hfind] at hp
  cases hp
  exact ⟨hidle, hpos⟩

theorem cell_unique (h : Located b flights) {row' col' id : Nat}
    (hcell : b.cellId row col = some id) (hcell' : b.cellId row' col' = some id) :
    row = row' ∧ col = col' := by
  obtain ⟨p, hp, _, hpos⟩ := h.onGrid row col id hcell
  obtain ⟨p', hp', _, hpos'⟩ := h.onGrid row' col' id hcell'
  rw [hp] at hp'
  cases hp'
  exact positionOf_inj (hpos.symm.trans hpos')

/-- The piece of a flight is off the grid. -/
theorem cellId_ne_flight (h : Located b flights) (hf : f ∈ flights) :
    b.cellId row col ≠ some f.id := by
  intro hcell
  obtain ⟨p, hp, hidle, _⟩ := h.onGrid row col f.id hcell
  have hmoving := (h.moving f.id p hp).mpr (List.mem_map_of_mem hf)
  rw [hidle] at hmoving
  cases hmoving

theorem findPieceById_flight (h : Located b (f :: flights)) :
    ∃ p, b.findPieceById f.id = some p ∧ p.id = f.id ∧ p.color = f.color ∧ p.kind = f.kind
      ∧ p.state = .moving := by
  obtain ⟨p, hp, hcolor, hkind⟩ := h.flightPiece f List.mem_cons_self
  exact ⟨p, hp, h.idsInPlace f.id p hp, hcolor, hkind, (h.moving f.id p hp).mpr (by simp)⟩

/-- A piece leaves its cell for a flight from there. -/
theorem lift (h : Located b flights) (hp : b.pieceAt row col = some p)
    (hf : f = ⟨p.id, p.color, p.kind, (row, col), f.target⟩) (hnew : (row, col) ∉ flights.map Flight.origin) :
    Located (b.lift p row col) (f :: flights) := by
  obtain ⟨hcell, hfind⟩ := h.pieceAt_eq_some_iff.mp hp
  have hin := inBounds_of_cellId h.rect hcell
  have hidle := (h.idle_of_pieceAt hp).1
  have hfind' : ∀ id, (b.lift p row col).findPieceById id
      = if id = p.id then some { p with state := .moving } else b.findPieceById id :=
    fun id => findPieceById_setPiece (p := { p with state := .moving }) hfind id
  have hcell' : ∀ r c, (b.lift p row col).cellId r c
      = if r = row ∧ c = col then none else b.cellId r c :=
    fun r c => cellId_setCell (rect_setPiece b _ h.rect) hin none r c
  have hground : p.id ∉ flights.map Flight.id := by
    intro hmem
    have := (h.moving p.id p hfind).mpr hmem
    rw [hidle] at this
    cases this
  refine ⟨rect_setCell _ _ _ _ (rect_setPiece b _ h.rect), ?_, ?_, ?_, ?_, ?_, ?_, ?_, ?_⟩
  · exact idsInPlace_setPiece h.idsInPlace (p := { p with state := .moving }) hfind
  · intro r c id hid
    rw [hcell'] at hid
    split at hid
    · cases hid
    · rename_i hother
      obtain ⟨q, hq, hqidle, hqcell⟩ := h.onGrid r c id hid
      refine ⟨q, ?_, hqidle, hqcell⟩
      rw [hfind', if_neg]
      · exact hq
      · intro h
        obtain rfl := h
        exact hother (h.cell_unique hid hcell)
  · intro id q hq hqidle
    rw [hfind'] at hq
    split at hq
    · cases hq
      cases hqidle
    · rename_i hne
      obtain ⟨r, c, hid⟩ := h.idle id q hq hqidle
      refine ⟨r, c, ?_⟩
      rw [hcell', if_neg]
      · exact hid
      · intro h
        obtain ⟨rfl, rfl⟩ := h
        rw [hcell] at hid
        cases hid
        exact hne rfl
  · intro id q hq
    rw [hfind'] at hq
    rw [hf]
    split at hq
    · rename_i hid
      cases hq
      simp [hid]
    · rename_i hne
      rw [h.moving id q hq, List.map_cons, List.mem_cons, or_iff_right hne]
  · intro g hg
    rw [hf] at hg
    rcases List.mem_cons.mp hg with rfl | hg
    · exact ⟨{ p with state := .moving }, by rw [hfind', if_pos rfl], rfl, rfl⟩
    · obtain ⟨q, hq, hcolor, hkind⟩ := h.flightPiece g hg
      refine ⟨q, ?_, hcolor, hkind⟩
      rw [hfind', if_neg]
      · exact hq
      · intro heq
        exact hground (heq ▸ List.mem_map_of_mem hg)
  · rw [hf]
    exact List.nodup_cons.mpr ⟨hground, h.idsNodup⟩
  · rw [hf]
    exact List.nodup_cons.mpr ⟨hnew, h.originsNodup⟩
  · intro g hg
    rw [hf] at hg
    simp only [BoardModel.lift, InBounds, rows_setCell, cols_setCell, rows_setPiece, cols_setPiece]
    rcases List.mem_cons.mp hg with rfl | hg
    · exact hin
    · exact h.originsIn g hg

/-- Capturing the piece on a cell. -/
theorem evict (h : Located b flights) (row col : Nat) : Located (b.evict row col) flights := by
  unfold BoardModel.evict
  cases hq : b.pieceAt row col with
  | none => exact h
  | some q =>
      obtain ⟨hcell, hfind⟩ := h.pieceAt_eq_some_iff.mp hq
      have hin := inBounds_of_cellId h.rect hcell
      have hidle := (h.idle_of_pieceAt hq).1
      have hfind' := findPieceById_setPiece (p := { q with state := .captured }) hfind
      have hcell' := cellId_setCell (rect_setPiece b { q with state := .captured } h.rect) hin none
      refine ⟨rect_setCell _ _ _ _ (rect_setPiece b _ h.rect), ?_, ?_, ?_, ?_, ?_, h.idsNodup,
        h.originsNodup, ?_⟩
      · exact idsInPlace_setPiece h.idsInPlace (p := { q with state := .captured }) hfind
      · intro r c id hid
        rw [hcell'] at hid
        split at hid
        · cases hid
        · rename_i hother
          obtain ⟨p, hp, hpidle, hpcell⟩ := h.onGrid r c id hid
          refine ⟨p, ?_, hpidle, hpcell⟩
          rw [findPieceById_setCell, hfind', if_neg]
          · exact hp
          · intro h
            obtain rfl := h
            exact hother (h.cell_unique hid hcell)
      · intro id p hp hpidle
        rw [findPieceById_setCell, hfind'] at hp
        split at hp
        · cases hp
          cases hpidle
        · rename_i hne
          obtain ⟨r, c, hid⟩ := h.idle id p hp hpidle
          refine ⟨r, c, ?_⟩
          rw [hcell', if_neg]
          · exact hid
          · intro h
            obtain ⟨rfl, rfl⟩ := h
            rw [hcell] at hid
            cases hid
            exact hne rfl
      · intro id p hp
        rw [findPieceById_setCell, hfind'] at hp
        split at hp
        · rename_i hid
          cases hp
          rw [hid, ← h.moving q.id q hfind, hidle]
          simp
        · exact h.moving id p hp
      · intro g hg
        obtain ⟨p, hp, hcolor, hkind⟩ := h.flightPiece g hg
        refine ⟨p, ?_, hcolor, hkind⟩
        rw [findPieceById_setCell, hfind', if_neg]
        · exact hp
        · intro heq
          have hcell'' : b.cellId row col = some g.id := heq ▸ hcell
          exact h.cellId_ne_flight hg hcell''
      · intro g hg
        simp only [InBounds, rows_setCell, cols_setCell, rows_setPiece, cols_setPiece]
        exact h.originsIn g hg

/-- A piece in flight comes down on an empty cell, as the idle piece `p`. -/
theorem put (h : Located b (f :: flights)) (hid : p.id = f.id) (hidle : p.state = .idle)
    (hin : b.InBounds row col) (hempty : b.cellId row col = none) :
    Located (b.put p row col) flights := by
  obtain ⟨q, hq, -, -, -, hqmoving⟩ := h.findPieceById_flight
  rw [← hid] at hq
  have hfind' := findPieceById_setPiece (p := { p with cell := positionOf row col }) hq
  have hcell' := cellId_setCell (rect_setPiece b { p with cell := positionOf row col } h.rect) hin
    (some p.id)
  have hnotin : p.id ∉ flights.map Flight.id := by
    rw [hid]
    exact (List.nodup_cons.mp h.idsNodup).1
  unfold BoardModel.put
  refine ⟨rect_setCell _ _ _ _ (rect_setPiece b _ h.rect), ?_, ?_, ?_, ?_, ?_,
    (List.nodup_cons.mp h.idsNodup).2, (List.nodup_cons.mp h.originsNodup).2, ?_⟩
  · exact idsInPlace_setPiece h.idsInPlace (p := { p with cell := positionOf row col }) hq
  · intro r c id hrc
    rw [hcell'] at hrc
    split at hrc
    · rename_i hhere
      cases hrc
      exact ⟨{ p with cell := positionOf row col }, by rw [findPieceById_setCell, hfind', if_pos rfl],
        hidle, by rw [hhere.1, hhere.2]⟩
    · obtain ⟨r', hr', hridle, hrcell⟩ := h.onGrid r c id hrc
      refine ⟨r', ?_, hridle, hrcell⟩
      rw [findPieceById_setCell, hfind', if_neg]
      · exact hr'
      · intro h
        obtain rfl := h
        rw [hid] at hrc
        exact h.cellId_ne_flight List.mem_cons_self hrc
  · intro id r hr hridle
    rw [findPieceById_setCell, hfind'] at hr
    split at hr
    · rename_i heq
      exact ⟨row, col, by rw [hcell', if_pos ⟨rfl, rfl⟩, heq]⟩
    · obtain ⟨r', c', hcell⟩ := h.idle id r hr hridle
      refine ⟨r', c', ?_⟩
      rw [hcell', if_neg]
      · exact hcell
      · intro h
        obtain ⟨rfl, rfl⟩ := h
        rw [hempty] at hcell
        cases hcell
  · intro id r hr
    rw [findPieceById_setCell, hfind'] at hr
    split at hr
    · rename_i heq
      cases hr
      simp only [hidle, heq, hnotin, iff_false]
      decide
    · rename_i hne
      rw [h.moving id r hr, List.map_cons, List.mem_cons, or_iff_right]
      rw [← hid]
      exact hne
  · intro g hg
    obtain ⟨r, hr, hcolor, hkind⟩ := h.flightPiece g (List.mem_cons_of_mem _ hg)
    refine ⟨r, ?_, hcolor, hkind⟩
    rw [findPieceById_setCell, hfind', if_neg]
    · exact hr
    · intro heq
      exact hnotin (heq ▸ List.mem_map_of_mem hg)
  · intro g hg
    simp only [InBounds, rows_setCell, cols_setCell, rows_setPiece, cols_setPiece]
    exact h.originsIn g (List.mem_cons_of_mem _ hg)

theorem cellId_evict (h : Located b flights) (row' col' : Nat) :
    (b.evict row col).cellId row' col' =
      if row' = row ∧ col' = col then none else b.cellId row' col' := by
  unfold BoardModel.evict
  cases hq : b.pieceAt row col with
  | none =>
      by_cases hhere : row' = row ∧ col' = col
      · rw [if_pos hhere, hhere.1, hhere.2]
        exact h.pieceAt_eq_none_iff.mp hq
      · rw [if_neg hhere]
  | some q =>
      have hin := inBounds_of_cellId h.rect (h.pieceAt_eq_some_iff.mp hq).1
      exact cellId_setCell (rect_setPiece b _ h.rect) hin none row' col'

theorem findPieceById_evict (h : Located b flights) (id : Nat) :
    (b.evict row col).findPieceById id =
      match b.pieceAt row col with
      | none => b.findPieceById id
      | some q => if id = q.id then some { q with state := .captured } else b.findPieceById id := by
  unfold BoardModel.evict
  cases hq : b.pieceAt row col with
  | none => rfl
  | some q =>
      have hfind := (h.pieceAt_eq_some_iff.mp hq).2
      exact findPieceById_setPiece (p := { q with state := .captured }) hfind id

/-- The piece of a flight is not the one standing on a cell. -/
theorem ne_of_pieceAt (h : Located b flights) (hf : f ∈ flights) (hq : b.pieceAt row col = some q) :
    f.id ≠ q.id := by
  intro heq
  have hcell := (h.pieceAt_eq_some_iff.mp hq).1
  rw [← heq] at hcell
  exact h.cellId_ne_flight hf hcell

theorem pieceAt_any_flight (h : Located b flights) (hf : f ∈ flights) :
    (b.pieceAt row col).any (·.id == f.id) = false := by
  cases hq : b.pieceAt row col with
  | none => rfl
  | some q => simpa using Ne.symm (h.ne_of_pieceAt hf hq)

theorem findPieceById_evict_flight (h : Located b flights) (hf : f ∈ flights) :
    (b.evict row col).findPieceById f.id = b.findPieceById f.id := by
  rw [h.findPieceById_evict]
  cases hq : b.pieceAt row col with
  | none => rfl
  | some q => exact if_neg (h.ne_of_pieceAt hf hq)

/-- A piece in flight comes down on a cell, as the idle piece `p`. -/
theorem land (h : Located b (f :: flights)) (hid : p.id = f.id) (hidle : p.state = .idle)
    (hin : b.InBounds row col) : Located (b.land p row col) flights := by
  have hevict := h.evict row col
  refine hevict.put hid hidle ?_ ?_
  · exact (inBounds_evict row col).mpr hin
  · rw [h.cellId_evict, if_pos ⟨rfl, rfl⟩]

theorem cellId_land (h : Located b flights) (hin : b.InBounds row col) (row' col' : Nat) :
    (b.land p row col).cellId row' col' =
      if row' = row ∧ col' = col then some p.id else b.cellId row' col' := by
  have hin' : (b.evict row col).InBounds row col := (inBounds_evict row col).mpr hin
  have hcell := cellId_setCell (b := (b.evict row col).setPiece { p with cell := positionOf row col })
    (h.evict row col).rect hin' (some p.id) row' col'
  rw [BoardModel.land, BoardModel.put, hcell, cellId_setPiece, h.cellId_evict]
  split <;> rfl

/-- The piece table after a landing: the piece that came down, the piece it captured, and the rest as
they were. -/
theorem findPieceById_land (h : Located b (f :: flights)) (hid : p.id = f.id) (id : Nat) :
    (b.land p row col).findPieceById id =
      if id = p.id then some { p with cell := positionOf row col }
      else match b.pieceAt row col with
        | none => b.findPieceById id
        | some q => if id = q.id then some { q with state := .captured } else b.findPieceById id := by
  obtain ⟨q, hq, -⟩ := h.findPieceById_flight
  have hq' : (b.evict row col).findPieceById p.id = some q := by
    rw [hid, h.findPieceById_evict_flight List.mem_cons_self, hq]
  have hfind := findPieceById_setPiece (p := { p with cell := positionOf row col }) hq' id
  rw [BoardModel.land, BoardModel.put, findPieceById_setCell, hfind]
  split
  · rfl
  · exact h.findPieceById_evict id

/-- The grid after a landing. -/
theorem pieceAt_land (h : Located b (f :: flights)) (hid : p.id = f.id) (hidle : p.state = .idle)
    (hin : b.InBounds row col) (row' col' : Nat) :
    (b.land p row col).pieceAt row' col' =
      if row' = row ∧ col' = col then some { p with cell := positionOf row col }
      else b.pieceAt row' col' := by
  rw [pieceAt_eq (h.land hid hidle hin).rect, pieceAt_eq h.rect, h.cellId_land hin]
  split
  · rw [Option.bind_some, h.findPieceById_land hid, if_pos rfl]
  · rename_i hother
    cases hcell : b.cellId row' col' with
    | none => rfl
    | some id =>
        have hne : id ≠ p.id := by
          intro h
          obtain rfl := h
          rw [hid] at hcell
          exact h.cellId_ne_flight List.mem_cons_self hcell
        rw [Option.bind_some, Option.bind_some, h.findPieceById_land hid, if_neg hne]
        cases hq : b.pieceAt row col with
        | none => rfl
        | some q =>
            refine if_neg ?_
            intro h
            obtain rfl := h
            exact hother (h.cell_unique hcell (h.pieceAt_eq_some_iff.mp hq).1)

/-- A piece in flight is captured. -/
theorem fall (h : Located b (f :: flights)) (hp : b.findPieceById f.id = some p) :
    Located (b.setPiece { p with state := .captured }) flights := by
  have hid := h.idsInPlace f.id p hp
  rw [← hid] at hp
  have hfind' := findPieceById_setPiece (p := { p with state := .captured }) hp
  have hnotin : p.id ∉ flights.map Flight.id := by
    rw [hid]
    exact (List.nodup_cons.mp h.idsNodup).1
  refine ⟨h.rect, ?_, ?_, ?_, ?_, ?_, (List.nodup_cons.mp h.idsNodup).2,
    (List.nodup_cons.mp h.originsNodup).2, fun g hg => h.originsIn g (List.mem_cons_of_mem _ hg)⟩
  · exact idsInPlace_setPiece h.idsInPlace (p := { p with state := .captured }) hp
  · intro r c id hrc
    obtain ⟨q, hq, hqidle, hqcell⟩ := h.onGrid r c id hrc
    refine ⟨q, ?_, hqidle, hqcell⟩
    rw [hfind', if_neg]
    · exact hq
    · intro h
      obtain rfl := h
      have hrc' : b.cellId r c = some f.id := hid ▸ hrc
      exact h.cellId_ne_flight List.mem_cons_self hrc'
  · intro id q hq hqidle
    rw [hfind'] at hq
    split at hq
    · cases hq
      cases hqidle
    · exact h.idle id q hq hqidle
  · intro id q hq
    rw [hfind'] at hq
    split at hq
    · rename_i heq
      cases hq
      simp only [heq, hnotin, iff_false]
      decide
    · rename_i hne
      rw [h.moving id q hq, List.map_cons, List.mem_cons, or_iff_right]
      rw [← hid]
      exact hne
  · intro g hg
    obtain ⟨r, hr, hcolor, hkind⟩ := h.flightPiece g (List.mem_cons_of_mem _ hg)
    refine ⟨r, ?_, hcolor, hkind⟩
    rw [hfind', if_neg]
    · exact hr
    · intro heq
      exact hnotin (heq ▸ List.mem_map_of_mem hg)

end Located

end KungFuChess
