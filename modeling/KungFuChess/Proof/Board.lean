import KungFuChess.Lib.Loops
import KungFuChess.Model.Board

/-!
# What a board operation does

Every board operation of the source is a write to one grid cell, a write to one entry of the piece
table, or both. This module says what a read returns after either write, and turns each checked
operation into such writes on the cells and ids it is called with. Later modules use these equations
and never unfold the board.
-/

namespace KungFuChess

open Loops

@[simp] theorem toSize_toInt (n : Nat) : toSize (toInt n) = n := by
  simp [toSize, toInt]

theorem toInt_injective {m n : Nat} (h : toInt m = toInt n) : m = n := Int.ofNat_inj.mp h

theorem positionOf_inj {r c r' c' : Nat} (h : positionOf r c = positionOf r' c') : r = r' ∧ c = c' := by
  simp only [positionOf, Position.mk.injEq] at h
  exact ⟨toInt_injective h.1, toInt_injective h.2⟩

namespace BoardModel

variable {b : BoardModel}

/-- All rows are as long as the first. -/
def Rect (b : BoardModel) : Prop := ∀ row ∈ b.cells, row.length = b.cols

def InBounds (b : BoardModel) (row col : Nat) : Prop := row < b.rows ∧ col < b.cols

/-- The id of a table entry is its place in the table. -/
def IdsInPlace (b : BoardModel) : Prop := ∀ id p, b.findPieceById id = some p → p.id = id

theorem isInBounds_iff {row col : Nat} : b.isInBounds row col = true ↔ b.InBounds row col := by
  simp only [isInBounds, InBounds, Bool.and_eq_true, Bool.not_eq_true', List.isEmpty_eq_false_iff,
    decide_eq_true_eq]
  constructor
  · intro h
    obtain ⟨⟨_, hrow⟩, hcol⟩ := h
    exact ⟨hrow, hcol⟩
  · intro h
    obtain ⟨hrow, hcol⟩ := h
    exact ⟨⟨List.ne_nil_of_length_pos (Nat.zero_lt_of_lt hrow), hrow⟩, hcol⟩

theorem contains_toInt (row col : Nat) : b.contains (toInt row) (toInt col) = b.isInBounds row col := by
  have hrow : ¬toInt row < 0 := by simp [toInt]
  have hcol : ¬toInt col < 0 := by simp [toInt]
  simp only [contains, hrow, hcol, or_self, if_false, toSize_toInt]

theorem entryAt_of_inBounds (hrect : b.Rect) {row col : Nat} (h : b.InBounds row col) :
    b.entryAt row col = some (b.cellId row col) := by
  obtain ⟨hrow, hcol⟩ := h
  have hget : b.cells[row]? = some b.cells[row] := List.getElem?_eq_getElem hrow
  have hlen : col < b.cells[row].length := by
    rw [hrect _ (List.getElem_mem hrow)]
    exact hcol
  simp [cellId, entryAt, hget, List.getElem?_eq_getElem hlen]

/-- The grid has no entries but those of the cells. -/
theorem inBounds_of_entryAt (hrect : b.Rect) {row col : Nat} {entry : Option Nat}
    (h : b.entryAt row col = some entry) : b.InBounds row col := by
  obtain ⟨cells, hrow, hcol⟩ := Option.bind_eq_some_iff.mp h
  have hmem := List.mem_of_getElem? hrow
  obtain ⟨hlt, _⟩ := List.getElem?_eq_some_iff.mp hrow
  obtain ⟨hlt', _⟩ := List.getElem?_eq_some_iff.mp hcol
  rw [hrect _ hmem] at hlt'
  exact ⟨hlt, hlt'⟩

theorem inBounds_of_cellId (hrect : b.Rect) {row col : Nat} {id : Nat}
    (h : b.cellId row col = some id) : b.InBounds row col :=
  inBounds_of_entryAt hrect (Option.join_eq_some_iff.mp h)

theorem pieceAt_eq (hrect : b.Rect) (row col : Nat) :
    b.pieceAt row col = (b.cellId row col).bind b.findPieceById := by
  unfold pieceAt
  split
  · rfl
  · rename_i hout
    cases hcell : b.cellId row col with
    | none => rfl
    | some id => exact absurd (isInBounds_iff.mpr (inBounds_of_cellId hrect hcell)) hout

/-! ### Writes to the grid -/

section SetCell

variable (b) (row col : Nat) (id : Option Nat)

@[simp] theorem rows_setCell : (b.setCell row col id).rows = b.rows := by
  simp [rows, setCell]

@[simp] theorem pieces_setCell : (b.setCell row col id).pieces = b.pieces := rfl

@[simp] theorem findPieceById_setCell (n : Nat) :
    (b.setCell row col id).findPieceById n = b.findPieceById n := rfl

@[simp] theorem cols_setCell : (b.setCell row col id).cols = b.cols := by
  unfold cols setCell
  rcases hcells : b.cells with _ | ⟨first, rest⟩
  · simp
  · cases row <;> simp

theorem rect_setCell (hrect : b.Rect) : (b.setCell row col id).Rect := by
  intro cells hmem
  rw [cols_setCell]
  obtain ⟨i, hi⟩ := List.mem_iff_getElem?.mp hmem
  rw [show (b.setCell row col id).cells = b.cells.modify row (·.set col id) from rfl,
    List.getElem?_modify] at hi
  cases hget : b.cells[i]? with
  | none => simp [hget] at hi
  | some old =>
      have hlen := hrect old (List.mem_of_getElem? hget)
      rw [hget] at hi
      simp only [Option.map_eq_map, Option.map_some, Option.some.injEq] at hi
      rw [← hi]
      split
      · rw [List.length_set, hlen]
      · exact hlen

end SetCell

theorem cellId_setCell (hrect : b.Rect) {row col : Nat} (h : b.InBounds row col)
    (id : Option Nat) (row' col' : Nat) :
    (b.setCell row col id).cellId row' col' =
      if row' = row ∧ col' = col then id else b.cellId row' col' := by
  obtain ⟨hin, hcolIn⟩ := h
  have hlen : col < b.cells[row].length := by
    rw [hrect _ (List.getElem_mem hin)]
    exact hcolIn
  simp only [cellId, entryAt, setCell, List.getElem?_modify, Option.map_eq_map]
  by_cases hrow : row' = row
  · subst hrow
    rw [List.getElem?_eq_getElem hin]
    by_cases hcol : col' = col
    · subst hcol
      simp [hlen]
    · simp [hcol, Ne.symm hcol]
  · simp [hrow, Ne.symm hrow]

/-! ### Writes to the piece table -/

section SetPiece

variable (b) (p : Piece)

@[simp] theorem rows_setPiece : (b.setPiece p).rows = b.rows := rfl

@[simp] theorem cols_setPiece : (b.setPiece p).cols = b.cols := rfl

@[simp] theorem cellId_setPiece (row col : Nat) :
    (b.setPiece p).cellId row col = b.cellId row col := rfl

theorem rect_setPiece (hrect : b.Rect) : (b.setPiece p).Rect := hrect

end SetPiece

theorem findPieceById_eq_some {id : Nat} {p : Piece} :
    b.findPieceById id = some p ↔ id ≠ 0 ∧ b.pieces[id - 1]? = some p := by
  unfold findPieceById
  by_cases hid : id = 0
  · simp [hid, kInvalidId]
  · by_cases hlen : id > b.pieces.length
    · have hnone : b.pieces[id - 1]? = none := List.getElem?_eq_none (by omega)
      simp [hlen, hnone]
    · simp [hid, hlen, kInvalidId]

theorem findPieceById_isSome {id : Nat} :
    (b.findPieceById id).isSome = true ↔ id ≠ 0 ∧ id ≤ b.pieces.length := by
  rw [Option.isSome_iff_exists]
  constructor
  · intro h
    obtain ⟨p, hp⟩ := h
    obtain ⟨hid, hget⟩ := findPieceById_eq_some.mp hp
    obtain ⟨hlt, _⟩ := List.getElem?_eq_some_iff.mp hget
    exact ⟨hid, by omega⟩
  · intro h
    obtain ⟨hid, hle⟩ := h
    have hlt : id - 1 < b.pieces.length := by omega
    exact ⟨b.pieces[id - 1], findPieceById_eq_some.mpr ⟨hid, List.getElem?_eq_getElem hlt⟩⟩

theorem findPieceById_setPiece {p q : Piece} (hq : b.findPieceById p.id = some q) (id : Nat) :
    (b.setPiece p).findPieceById id = if id = p.id then some p else b.findPieceById id := by
  obtain ⟨hp, hget⟩ := findPieceById_eq_some.mp hq
  obtain ⟨hlt, _⟩ := List.getElem?_eq_some_iff.mp hget
  by_cases hid : id = p.id
  · subst hid
    rw [if_pos rfl]
    refine findPieceById_eq_some.mpr ⟨hp, ?_⟩
    simp [setPiece, hlt]
  · rw [if_neg hid]
    simp only [findPieceById, setPiece, List.length_set]
    split
    · rfl
    · rename_i hsome
      have hpos : id ≠ 0 := fun h => hsome (Or.inl h)
      rw [List.getElem?_set_ne (by omega)]

theorem setPiece_setPiece_of_id_eq (b : BoardModel) {p p' : Piece} (h : p.id = p'.id) :
    (b.setPiece p).setPiece p' = b.setPiece p' := by
  simp only [setPiece, h, List.set_set]

theorem setPiece_comm (b : BoardModel) {p q : Piece} (hp : p.id ≠ 0) (hq : q.id ≠ 0)
    (h : p.id ≠ q.id) : (b.setPiece p).setPiece q = (b.setPiece q).setPiece p := by
  simp only [setPiece, BoardModel.mk.injEq, true_and]
  exact List.set_comm _ _ (by omega)

theorem idsInPlace_setPiece (h : b.IdsInPlace) {p q : Piece} (hq : b.findPieceById p.id = some q) :
    (b.setPiece p).IdsInPlace := by
  intro id found hfound
  rw [findPieceById_setPiece hq] at hfound
  split at hfound
  · rename_i hid
    cases hfound
    exact hid.symm
  · exact h id found hfound

/-! ### The operations as writes -/

theorem isEmpty_eq (hrect : b.Rect) {row col : Nat} (h : b.InBounds row col) :
    b.isEmpty row col = .ok (b.cellId row col).isNone := by
  simp only [isEmpty, entryAt_of_inBounds hrect h]

theorem clearCell_eq (hrect : b.Rect) {row col : Nat} (h : b.InBounds row col) :
    b.clearCell row col = .ok (b.setCell row col none) := by
  simp only [clearCell, writeCell, entryAt_of_inBounds hrect h]

theorem getPiece_eq {id : Nat} {p : Piece} (h : b.findPieceById id = some p) :
    b.getPiece id = .ok p := by
  simp only [getPiece, h]

theorem setPieceState_eq (hids : b.IdsInPlace) {id : Nat} {p : Piece}
    (h : b.findPieceById id = some p) (state : PieceState) :
    b.setPieceState id state = .ok (b.setPiece { p with state }) := by
  simp only [setPieceState, getPiece_eq h, ok_bind, pure_eq_ok, setPiece, hids id p h]

/-- Put a piece of the table on a cell. -/
def put (b : BoardModel) (p : Piece) (row col : Nat) : BoardModel :=
  (b.setPiece { p with cell := positionOf row col }).setCell row col (some p.id)

/-- Capture the piece on a cell, if there is one. -/
def evict (b : BoardModel) (row col : Nat) : BoardModel :=
  match b.pieceAt row col with
  | none => b
  | some q => (b.setPiece { q with state := .captured }).setCell row col none

/-- A piece comes down on a cell and captures what stands there. -/
def land (b : BoardModel) (p : Piece) (row col : Nat) : BoardModel := (b.evict row col).put p row col

/-- Take a piece of the table off its cell and into flight. -/
def lift (b : BoardModel) (p : Piece) (row col : Nat) : BoardModel :=
  (b.setPiece { p with state := .moving }).setCell row col none

section Dimensions

variable (b) (p : Piece) (row col : Nat)

@[simp] theorem rows_evict : (b.evict row col).rows = b.rows := by
  unfold evict
  split <;> simp

@[simp] theorem cols_evict : (b.evict row col).cols = b.cols := by
  unfold evict
  split <;> simp

@[simp] theorem pieces_length_setPiece : (b.setPiece p).pieces.length = b.pieces.length :=
  List.length_set

@[simp] theorem pieces_length_evict : (b.evict row col).pieces.length = b.pieces.length := by
  unfold evict
  split <;> simp

@[simp] theorem pieces_length_land : (b.land p row col).pieces.length = b.pieces.length := by
  simp [land, put]

@[simp] theorem rows_land : (b.land p row col).rows = b.rows := by
  simp [land, put]

@[simp] theorem cols_land : (b.land p row col).cols = b.cols := by
  simp [land, put]

end Dimensions

theorem inBounds_evict (row col : Nat) {row' col' : Nat} :
    (b.evict row col).InBounds row' col' ↔ b.InBounds row' col' := by
  simp [InBounds]

theorem placePieceAt_eq (hrect : b.Rect) {p q : Piece} (hq : b.findPieceById p.id = some q)
    {row col : Nat} (h : b.InBounds row col) :
    b.placePieceAt row col p = .ok (b.put p row col) := by
  obtain ⟨hp, hget⟩ := findPieceById_eq_some.mp hq
  obtain ⟨hlt, _⟩ := List.getElem?_eq_some_iff.mp hget
  have hbad : ¬(p.id = kInvalidId ∨ p.id > b.pieces.length + 1) := by
    simp only [kInvalidId]
    omega
  have hnew : ¬p.id = b.pieces.length + 1 := by omega
  have hstore : b.storePiece { p with cell := positionOf row col }
      = .ok (b.setPiece { p with cell := positionOf row col }) := by
    simp only [storePiece, hbad, hnew, if_false]
  have hentry : (b.setPiece { p with cell := positionOf row col }).entryAt row col
      = some (b.cellId row col) := entryAt_of_inBounds hrect h
  simp only [placePieceAt, hstore, ok_bind, writeCell, hentry, put]

theorem placePiece_eq (hrect : b.Rect) {p q : Piece} (hq : b.findPieceById p.id = some q)
    {row col : Nat} (h : b.InBounds row col) :
    b.placePiece { p with cell := positionOf row col } = .ok (b.put p row col) := by
  simp only [placePiece, positionOf, toSize_toInt]
  exact placePieceAt_eq (p := { p with cell := positionOf row col }) hrect hq h

theorem removePieceAt_eq (hrect : b.Rect) (hids : b.IdsInPlace) {row col : Nat}
    {q : Piece} (h : b.pieceAt row col = some q) :
    b.removePieceAt row col = .ok (b.evict row col) := by
  have hevict : b.evict row col = (b.setPiece { q with state := .captured }).setCell row col none := by
    simp only [evict, h]
  rw [pieceAt_eq hrect, Option.bind_eq_some_iff] at h
  obtain ⟨id, hid, hq⟩ := h
  have hentry := entryAt_of_inBounds hrect (inBounds_of_cellId hrect hid)
  have hentry' : (b.setPiece { q with state := .captured }).entryAt row col = some (some id) := by
    rw [← hid]
    exact hentry
  rw [hid] at hentry
  simp only [removePieceAt, hentry, setPieceState_eq hids hq, ok_bind, writeCell, hentry', hevict]

end BoardModel

end KungFuChess
