import KungFuChess.Proof.Location
import Mathlib.Data.List.ReduceOption

/-!
# Boards read from text

`parse_board_rows` builds the grid cell by cell and hands out ids as it goes. `Laid` ties a board to
the tokens it was read from; the row under construction is the last row of both, so one step lemma
covers a token and its iteration a whole board. An accepted board is `Located`, with nothing in flight.
-/

namespace KungFuChess

open Loops BoardModel

def tokenAtCell (tokens : List (List Text)) (row col : Nat) : Option Text :=
  tokens[row]?.bind (·[col]?)

/-- The board shows the tokens, and nothing else is in the table. -/
structure Laid (tokens : List (List Text)) (b : BoardModel) : Prop where
  lengths : b.cells.map List.length = tokens.map List.length
  empty : ∀ row col token, tokenAtCell tokens row col = some token →
    descriptorFromToken token = none → b.cellId row col = none
  filled : ∀ row col token d, tokenAtCell tokens row col = some token →
    descriptorFromToken token = some d →
    ∃ id, b.cellId row col = some id ∧
      b.findPieceById id = some ⟨id, d.color, d.kind, positionOf row col, .idle⟩
  onGrid : ∀ id p, b.findPieceById id = some p → ∃ row col, b.cellId row col = some id

/-- The ids were handed out in the order of the cells. -/
structure LaidInOrder (tokens : List (List Text)) (b : BoardModel) : Prop extends Laid tokens b where
  inOrder : b.cells.flatten.reduceOption = List.range' 1 b.pieces.length

theorem lookup_append_row {α : Type} (rows : List (List α)) (last : List α) (x : α) (row col : Nat) :
    (rows ++ [last ++ [x]])[row]?.bind (·[col]?) =
      if row = rows.length ∧ col = last.length then some x
      else (rows ++ [last])[row]?.bind (·[col]?) := by
  rcases Nat.lt_trichotomy row rows.length with hlt | rfl | hgt
  · have hne : ¬(row = rows.length ∧ col = last.length) := by omega
    rw [if_neg hne, List.getElem?_append_left hlt, List.getElem?_append_left hlt]
  · rw [List.getElem?_concat_length, List.getElem?_concat_length, Option.bind_some, Option.bind_some]
    rcases Nat.lt_trichotomy col last.length with hcol | rfl | hcol
    · rw [List.getElem?_append_left hcol, if_neg (by omega)]
    · simp
    · have hnone : last[col]? = none := List.getElem?_eq_none (by omega)
      have hnone' : (last ++ [x])[col]? = none := List.getElem?_eq_none (by simp; omega)
      rw [hnone, hnone', if_neg (by omega)]
  · have hnone : (rows ++ [last])[row]? = none := List.getElem?_eq_none (by simp; omega)
    have hnone' : (rows ++ [last ++ [x]])[row]? = none := List.getElem?_eq_none (by simp; omega)
    rw [hnone, hnone', if_neg (by omega)]

namespace Laid

variable {tokens : List (List Text)} {b : BoardModel} {row col : Nat}

/-- A cell with an id on it was read from a token. -/
theorem token_of_cellId (h : Laid tokens b) {id : Nat} (hcell : b.cellId row col = some id) :
    ∃ token, tokenAtCell tokens row col = some token := by
  simp only [cellId, entryAt, Option.join_eq_some_iff, Option.bind_eq_some_iff] at hcell
  obtain ⟨cells, hrow, hcol⟩ := hcell
  have hlen : (b.cells.map List.length)[row]? = some cells.length := by
    rw [List.getElem?_map, hrow, Option.map_some]
  rw [h.lengths, List.getElem?_map, Option.map_eq_some_iff] at hlen
  obtain ⟨toks, htoks, hlen⟩ := hlen
  obtain ⟨hlt, _⟩ := List.getElem?_eq_some_iff.mp hcol
  rw [← hlen] at hlt
  exact ⟨toks[col], by simp [tokenAtCell, htoks, hlt]⟩

theorem piece_of_cellId (h : Laid tokens b) {id : Nat} (hcell : b.cellId row col = some id) :
    ∃ token d, tokenAtCell tokens row col = some token ∧ descriptorFromToken token = some d ∧
      b.findPieceById id = some ⟨id, d.color, d.kind, positionOf row col, .idle⟩ := by
  obtain ⟨token, htoken⟩ := h.token_of_cellId hcell
  cases hd : descriptorFromToken token with
  | none =>
      rw [h.empty row col token htoken hd] at hcell
      cases hcell
  | some d =>
      obtain ⟨id', hid, hfind⟩ := h.filled row col token d htoken hd
      rw [hcell] at hid
      cases hid
      exact ⟨token, d, htoken, hd, hfind⟩

theorem nil : Laid [] ⟨[], []⟩ where
  lengths := rfl
  empty _ _ _ h := by simp [tokenAtCell] at h
  filled _ _ _ _ h := by simp [tokenAtCell] at h
  onGrid id p h := by simp [findPieceById_eq_some] at h

/-- An empty row opens. -/
theorem openRow (h : Laid tokens b) : Laid (tokens ++ [[]]) ⟨b.cells ++ [[]], b.pieces⟩ := by
  have hsame : ∀ {α : Type} (rows : List (List α)) (row col : Nat),
      (rows ++ [[]])[row]?.bind (·[col]?) = rows[row]?.bind (·[col]?) := by
    intro α rows row col
    rcases Nat.lt_trichotomy row rows.length with hlt | rfl | hgt
    · rw [List.getElem?_append_left hlt]
    · simp
    · have hnone : rows[row]? = none := List.getElem?_eq_none (by omega)
      have hnone' : (rows ++ [[]])[row]? = none := List.getElem?_eq_none (by simp; omega)
      rw [hnone, hnone']
  have hcell : ∀ row col, (⟨b.cells ++ [[]], b.pieces⟩ : BoardModel).cellId row col
      = b.cellId row col := by
    intro row col
    simp only [cellId, entryAt, hsame]
  have htoken : ∀ row col, tokenAtCell (tokens ++ [[]]) row col = tokenAtCell tokens row col :=
    hsame tokens
  refine ⟨?_, ?_, ?_, ?_⟩
  · simp [h.lengths]
  · intro row col token ht hd
    rw [htoken] at ht
    rw [hcell]
    exact h.empty row col token ht hd
  · intro row col token d ht hd
    rw [htoken] at ht
    obtain ⟨id, hid, hfind⟩ := h.filled row col token d ht hd
    exact ⟨id, by rw [hcell, hid], hfind⟩
  · intro id p hp
    obtain ⟨row, col, hid⟩ := h.onGrid id p hp
    exact ⟨row, col, by rw [hcell, hid]⟩

end Laid

namespace Laid

variable {tokens : List (List Text)} {b : BoardModel} {width : Nat}

theorem rows_eq (h : Laid tokens b) : b.rows = tokens.length := by
  have hlengths := congrArg List.length h.lengths
  simpa [rows] using hlengths

theorem width_eq (h : Laid tokens b) (hwidth : ∀ toks ∈ tokens, toks.length = width) :
    ∀ cells ∈ b.cells, cells.length = width := by
  intro cells hcells
  have hmem : cells.length ∈ b.cells.map List.length := List.mem_map_of_mem hcells
  rw [h.lengths, List.mem_map] at hmem
  obtain ⟨toks, htoks, hlen⟩ := hmem
  rw [← hlen, hwidth toks htoks]

theorem cols_eq (h : Laid tokens b) (hwidth : ∀ toks ∈ tokens, toks.length = width) :
    b.cols = if tokens.isEmpty then 0 else width := by
  have hhead := congrArg List.head? h.lengths
  rw [List.head?_map, List.head?_map] at hhead
  rw [cols, hhead]
  cases tokens with
  | nil => rfl
  | cons toks rest => exact hwidth toks List.mem_cons_self

theorem rect (h : Laid tokens b) (hwidth : ∀ toks ∈ tokens, toks.length = width) : b.Rect := by
  intro cells hcells
  obtain ⟨first, rest, hfirst⟩ := List.exists_cons_of_ne_nil (List.ne_nil_of_mem hcells)
  have hall := h.width_eq hwidth
  have hcols : b.cols = first.length := by simp [cols, hfirst]
  rw [hcols, hall cells hcells, hall first (by simp [hfirst])]

theorem idle (h : Laid tokens b) {id : Nat} {p : Piece} (hp : b.findPieceById id = some p) :
    p.state = .idle := by
  obtain ⟨row, col, hcell⟩ := h.onGrid id p hp
  obtain ⟨token, d, -, -, hfind⟩ := h.piece_of_cellId hcell
  rw [hp] at hfind
  cases hfind
  rfl

theorem located (h : Laid tokens b) (hwidth : ∀ toks ∈ tokens, toks.length = width) : Located b [] where
  rect := h.rect hwidth
  idsInPlace id p hp := by
    obtain ⟨row, col, hcell⟩ := h.onGrid id p hp
    obtain ⟨token, d, -, -, hfind⟩ := h.piece_of_cellId hcell
    rw [hp] at hfind
    cases hfind
    rfl
  onGrid row col id hcell := by
    obtain ⟨token, d, -, -, hfind⟩ := h.piece_of_cellId hcell
    exact ⟨_, hfind, rfl, rfl⟩
  idle id p hp _ := h.onGrid id p hp
  moving id p hp := by
    rw [h.idle hp]
    simp
  flightPiece f hf := by cases hf
  idsNodup := List.nodup_nil
  originsNodup := List.nodup_nil
  originsIn f hf := by cases hf

end Laid

theorem LaidInOrder.nil : LaidInOrder [] ⟨[], []⟩ := ⟨.nil, rfl⟩

theorem LaidInOrder.openRow {tokens : List (List Text)} {b : BoardModel} (h : LaidInOrder tokens b) :
    LaidInOrder (tokens ++ [[]]) ⟨b.cells ++ [[]], b.pieces⟩ := by
  refine ⟨h.toLaid.openRow, ?_⟩
  simp only [List.flatten_append, List.flatten_singleton, List.append_nil]
  exact h.inOrder

/-! ### One token -/

theorem descriptorFromToken_of_isValidToken {token : Text} (hvalid : isValidToken token = true)
    (hfull : isEmptyToken token = false) : ∃ d, descriptorFromToken token = some d := by
  have hvalid' := hvalid
  simp only [isValidToken, hfull, Bool.false_or] at hvalid'
  split at hvalid'
  · rename_i color kind
    simp only [Bool.and_eq_true, Option.isSome_iff_exists] at hvalid'
    obtain ⟨⟨c, hc⟩, ⟨k, hk⟩⟩ := hvalid'
    exact ⟨⟨c, k⟩, by simp [descriptorFromToken, hfull, hvalid, hc, hk]⟩
  · cases hvalid'

/-- A token of a piece is the letters of its colour and kind. -/
theorem descriptorFromToken_eq_some {token : Text} {d : PieceDescriptor} (h : descriptorFromToken token = some d) :
    ∃ color kind, token = [color, kind] ∧ colorFromChar color = some d.color ∧ kindFromChar kind = some d.kind := by
  unfold descriptorFromToken at h
  split at h
  · cases h
  rename_i hfull
  split at h
  · cases h
  rename_i hvalid
  rw [Bool.not_eq_true] at hfull
  simp only [isValidToken, hfull, Bool.false_or, Bool.not_eq_true', Bool.not_eq_false] at hvalid
  split at hvalid
  · rename_i color kind
    obtain ⟨c, hc, h⟩ := Option.bind_eq_some_iff.mp h
    obtain ⟨k, hk, h⟩ := Option.bind_eq_some_iff.mp h
    cases h
    exact ⟨color, kind, rfl, hc, hk⟩
  · cases hvalid

theorem findPieceById_append (cells cells' : List (List (Option Nat))) (pieces : List Piece) (p : Piece)
    (id : Nat) :
    (⟨cells', pieces ++ [p]⟩ : BoardModel).findPieceById id =
      if id = pieces.length + 1 then some p else (⟨cells, pieces⟩ : BoardModel).findPieceById id := by
  split
  · rename_i hid
    subst hid
    exact findPieceById_eq_some.mpr ⟨by omega, by simp⟩
  · rename_i hid
    refine Option.ext fun q => ?_
    rw [findPieceById_eq_some, findPieceById_eq_some]
    refine and_congr_right fun hpos => ?_
    by_cases hlt : id - 1 < pieces.length
    · rw [List.getElem?_append_left hlt]
    · have hlong : (pieces ++ [p]).length ≤ id - 1 := by
        rw [List.length_append, List.length_singleton]
        omega
      rw [List.getElem?_eq_none hlong, List.getElem?_eq_none (Nat.le_of_not_lt hlt)]

section Token

variable {tokens : List (List Text)} {toks : List Text} {token : Text} {cells : List (List (Option Nat))}
  {cellRow : List (Option Nat)} {pieces : List Piece}

theorem Laid.last_length (h : Laid (tokens ++ [toks]) ⟨cells ++ [cellRow], pieces⟩) :
    tokens.length = cells.length ∧ toks.length = cellRow.length := by
  have hlengths := h.lengths
  simp only [List.map_append, List.map_cons, List.map_nil] at hlengths
  obtain ⟨hinit, hlast⟩ := List.append_inj' hlengths rfl
  have hcount := congrArg List.length hinit
  simp only [List.length_map] at hcount
  exact ⟨hcount.symm, (List.cons.inj hlast).1.symm⟩

theorem Laid.lengths_addCell (h : Laid (tokens ++ [toks]) ⟨cells ++ [cellRow], pieces⟩) (token : Text)
    (entry : Option Nat) :
    (cells ++ [cellRow ++ [entry]]).map List.length = (tokens ++ [toks ++ [token]]).map List.length := by
  have hlengths := h.lengths
  obtain ⟨hrow, hcol⟩ := h.last_length
  simp only [List.map_append, List.map_cons, List.map_nil, List.length_append,
    List.length_singleton] at hlengths ⊢
  rw [(List.append_inj' hlengths rfl).1, hcol]

/-- A further row of tokens is a further row of cells. -/
theorem Laid.length_snoc {tokens : List (List Text)} {toks : List Text} {b b' : BoardModel} (h : Laid tokens b)
    (h' : Laid (tokens ++ [toks]) b') : b'.cells.length = b.cells.length + 1 := by
  have hnew := congrArg List.length h'.lengths
  have hold := congrArg List.length h.lengths
  simp only [List.length_map, List.length_append, List.length_singleton] at hnew hold
  omega

theorem Laid.addCell (h : Laid (tokens ++ [toks]) ⟨cells ++ [cellRow], pieces⟩) (token : Text)
    (entry : Option Nat) (row col : Nat) :
    (⟨cells ++ [cellRow ++ [entry]], pieces⟩ : BoardModel).cellId row col =
        (if row = cells.length ∧ col = cellRow.length then entry
        else (⟨cells ++ [cellRow], pieces⟩ : BoardModel).cellId row col) ∧
      tokenAtCell (tokens ++ [toks ++ [token]]) row col =
        (if row = cells.length ∧ col = cellRow.length then some token
        else tokenAtCell (tokens ++ [toks]) row col) := by
  obtain ⟨hrow, hcol⟩ := h.last_length
  constructor
  · simp only [cellId, entryAt, lookup_append_row]
    split <;> rfl
  · rw [tokenAtCell, lookup_append_row, hrow, hcol]
    rfl

theorem Laid.empty_token (h : Laid (tokens ++ [toks]) ⟨cells ++ [cellRow], pieces⟩)
    (htoken : descriptorFromToken token = none) :
    Laid (tokens ++ [toks ++ [token]]) ⟨cells ++ [cellRow ++ [none]], pieces⟩ := by
  have hcell := fun row col => (h.addCell token none row col).1
  have htok := fun row col => (h.addCell token none row col).2
  refine ⟨?_, ?_, ?_, ?_⟩
  · exact h.lengths_addCell token _
  · intro row col other hother hd
    rw [hcell]
    rw [htok] at hother
    split
    · rfl
    · rename_i hold
      rw [if_neg hold] at hother
      exact h.empty row col other hother hd
  · intro row col other d hother hd
    rw [htok] at hother
    rw [hcell]
    split at hother
    · cases hother
      rw [htoken] at hd
      cases hd
    · rename_i hold
      rw [if_neg hold]
      exact h.filled row col other d hother hd
  · intro id p hp
    obtain ⟨row, col, hid⟩ := h.onGrid id p hp
    refine ⟨row, col, ?_⟩
    rw [hcell, if_neg]
    · exact hid
    · intro h
      obtain ⟨rfl, rfl⟩ := h
      simp [cellId, entryAt] at hid

theorem Laid.piece_token (h : Laid (tokens ++ [toks]) ⟨cells ++ [cellRow], pieces⟩)
    {d : PieceDescriptor} (htoken : descriptorFromToken token = some d) :
    Laid (tokens ++ [toks ++ [token]])
      ⟨cells ++ [cellRow ++ [some (pieces.length + 1)]],
        pieces ++ [⟨pieces.length + 1, d.color, d.kind, positionOf cells.length cellRow.length, .idle⟩]⟩ := by
  have hcell := fun row col => (h.addCell token (some (pieces.length + 1)) row col).1
  have htok := fun row col => (h.addCell token (some (pieces.length + 1)) row col).2
  have hfind := findPieceById_append (cells ++ [cellRow]) (cells ++ [cellRow ++ [some (pieces.length + 1)]])
    pieces ⟨pieces.length + 1, d.color, d.kind, positionOf cells.length cellRow.length, .idle⟩
  refine ⟨?_, ?_, ?_, ?_⟩
  · exact h.lengths_addCell token _
  · intro row col other hother hd
    refine (hcell row col).trans ?_
    rw [htok] at hother
    split at hother
    · cases hother
      rw [htoken] at hd
      cases hd
    · rename_i hold
      rw [if_neg hold]
      exact h.empty row col other hother hd
  · intro row col other d' hother hd
    rw [htok] at hother
    split at hother
    · rename_i hnew
      cases hother
      rw [htoken] at hd
      cases hd
      refine ⟨pieces.length + 1, (hcell row col).trans (if_pos hnew), ?_⟩
      rw [hfind, if_pos rfl, hnew.1, hnew.2]
    · rename_i hold
      obtain ⟨id, hid, hp⟩ := h.filled row col other d' hother hd
      refine ⟨id, (hcell row col).trans ((if_neg hold).trans hid), ?_⟩
      rw [hfind, if_neg]
      · exact hp
      · intro h
        obtain rfl := h
        have hlen := (findPieceById_eq_some.mp hp).2
        simp at hlen
  · intro id p hp
    rw [hfind] at hp
    split at hp
    · rename_i hid
      exact ⟨cells.length, cellRow.length, (hcell _ _).trans (by rw [if_pos ⟨rfl, rfl⟩, hid])⟩
    · obtain ⟨row, col, hid⟩ := h.onGrid id p hp
      refine ⟨row, col, (hcell row col).trans ?_⟩
      rw [if_neg]
      · exact hid
      · intro h
        obtain ⟨rfl, rfl⟩ := h
        simp [cellId, entryAt] at hid

theorem reduceOption_addCell (cells : List (List (Option Nat))) (cellRow : List (Option Nat)) (entry : Option Nat) :
    (cells ++ [cellRow ++ [entry]]).flatten.reduceOption =
      (cells ++ [cellRow]).flatten.reduceOption ++ entry.toList := by
  rw [List.flatten_append, List.flatten_append, List.flatten_singleton, List.flatten_singleton, ← List.append_assoc,
    List.reduceOption_append, List.reduceOption_singleton]

theorem LaidInOrder.inOrder_addCell_none (h : LaidInOrder (tokens ++ [toks]) ⟨cells ++ [cellRow], pieces⟩) :
    (cells ++ [cellRow ++ [none]]).flatten.reduceOption = List.range' 1 pieces.length := by
  rw [reduceOption_addCell, Option.toList_none, List.append_nil]
  exact h.inOrder

theorem LaidInOrder.inOrder_addCell_next (h : LaidInOrder (tokens ++ [toks]) ⟨cells ++ [cellRow], pieces⟩) {p : Piece} :
    (cells ++ [cellRow ++ [some (pieces.length + 1)]]).flatten.reduceOption =
      List.range' 1 (pieces ++ [p]).length := by
  rw [reduceOption_addCell, h.inOrder, List.length_append, List.length_singleton, List.range'_1_concat, Nat.add_comm 1]
  rfl

theorem appendToken_laid {board : BoardModel} {factory : PieceFactory}
    (h : LaidInOrder (tokens ++ [toks]) ⟨board.cells ++ [cellRow], board.pieces⟩)
    (hnext : factory.nextId = board.pieces.length + 1) (hvalid : isValidToken token = true) :
    ∃ board' factory' cellRow',
      appendToken board.cells.length (board, factory, cellRow) token = .ok (board', factory', cellRow') ∧
        board'.cells = board.cells ∧ factory'.nextId = board'.pieces.length + 1 ∧
        LaidInOrder (tokens ++ [toks ++ [token]]) ⟨board'.cells ++ [cellRow'], board'.pieces⟩ := by
  cases hempty : isEmptyToken token with
  | true =>
      have hnone : descriptorFromToken token = none := by simp [descriptorFromToken, hempty]
      exact ⟨board, factory, cellRow ++ [none], by simp [appendToken, hempty], rfl, hnext,
        ⟨h.toLaid.empty_token hnone, h.inOrder_addCell_none⟩⟩
  | false =>
      obtain ⟨d, hd⟩ := descriptorFromToken_of_isValidToken hvalid hempty
      let piece : Piece :=
        ⟨board.pieces.length + 1, d.color, d.kind, positionOf board.cells.length cellRow.length, .idle⟩
      have hstore : board.storePiece piece = .ok ⟨board.cells, board.pieces ++ [piece]⟩ := by
        simp [storePiece, piece, kInvalidId]
      refine ⟨⟨board.cells, board.pieces ++ [piece]⟩, ⟨board.pieces.length + 2⟩,
        cellRow ++ [some (board.pieces.length + 1)], ?_, rfl, by simp, ⟨h.toLaid.piece_token hd, h.inOrder_addCell_next⟩⟩
      simp only [appendToken, hempty, Bool.false_eq_true, if_false, hd, PieceFactory.create, hnext]
      rw [show (⟨board.pieces.length + 1, d.color, d.kind,
        positionOf board.cells.length cellRow.length, .idle⟩ : Piece) = piece from rfl, hstore]
      simp [piece]

/-- A row of valid tokens. -/
theorem appendTokenRow_laid {board : BoardModel} {factory : PieceFactory} (h : LaidInOrder tokens board)
    (hnext : factory.nextId = board.pieces.length + 1) (hvalid : ∀ token ∈ toks, isValidToken token = true) :
    ∃ board' factory', board.appendTokenRow toks board.cells.length factory = .ok (board', factory') ∧
      factory'.nextId = board'.pieces.length + 1 ∧ LaidInOrder (tokens ++ [toks]) board' := by
  obtain ⟨⟨board', factory', cellRow⟩, hloop, read, hread, hcells, hnext', hlaid⟩ :=
    foldlM_consumes (f := appendToken board.cells.length)
      (fun rest s => ∃ read, read ++ rest = toks ∧ s.1.cells = board.cells ∧
        s.2.1.nextId = s.1.pieces.length + 1 ∧
        LaidInOrder (tokens ++ [read]) ⟨s.1.cells ++ [s.2.2], s.1.pieces⟩)
      (by
        rintro token rest ⟨mid, factory, cellRow⟩ ⟨read, hread, hcells, hnext, hlaid⟩
        have hmem : token ∈ toks := by simp [← hread]
        obtain ⟨board', factory', cellRow', hstep, hcells', hnext', hlaid'⟩ :=
          appendToken_laid hlaid hnext (hvalid token hmem)
        rw [hcells] at hstep
        exact ⟨(board', factory', cellRow'), hstep, read ++ [token], by simp [← hread],
          hcells'.trans hcells, hnext', hlaid'⟩)
      toks (board, factory, []) ⟨[], rfl, rfl, hnext, h.openRow⟩
  rw [List.append_nil] at hread
  subst hread
  refine ⟨⟨board'.cells ++ [cellRow], board'.pieces⟩, factory', ?_, hnext', hlaid⟩
  simp only [appendTokenRow, hloop, ok_bind, pure_eq_ok]

end Token

/-! ### Whole boards -/

/-- What `parse_board_rows` asks of its lines. -/
def WellFormed (width : Nat) (lines : List Text) : Prop :=
  ∀ line ∈ lines, (splitRow line).length = width ∧ ∀ token ∈ splitRow line, isValidToken token = true

theorem WellFormed.width_eq {width : Nat} {lines : List Text} (h : WellFormed width lines) :
    ∀ toks ∈ lines.map splitRow, toks.length = width := by
  intro toks htoks
  obtain ⟨line, hline, rfl⟩ := List.mem_map.mp htoks
  exact (h line hline).1

section Lines

variable {tokens : List (List Text)} {lines : List Text} {parsed before b : BoardModel}
  {factory : PieceFactory} {expectedWidth width : Nat}

theorem parseRows_laid (expectedWidth : Nat) (lines : List Text) (h : LaidInOrder tokens parsed)
    (hnext : factory.nextId = parsed.pieces.length + 1) :
    ∃ r, parseRows expectedWidth parsed.cells.length parsed factory lines = .ok r ∧
      r ≠ .error .ok ∧
      ∀ b, r = .ok b → LaidInOrder (tokens ++ lines.map splitRow) b ∧
        ∃ width, width ≠ 0 ∧ (expectedWidth = 0 ∨ width = expectedWidth) ∧ WellFormed width lines := by
  induction lines generalizing tokens parsed factory expectedWidth with
  | nil =>
      refine ⟨.ok parsed, rfl, by simp, ?_⟩
      intro b h
      obtain ⟨⟩ := h
      refine ⟨by simpa using h, ?_⟩
      by_cases hzero : expectedWidth = 0
      · exact ⟨1, by decide, Or.inl hzero, by simp [WellFormed]⟩
      · exact ⟨expectedWidth, hzero, Or.inr rfl, by simp [WellFormed]⟩
  | cons line lines ih =>
      unfold parseRows
      dsimp only
      split
      · exact ⟨_, rfl, by simp, by rintro b ⟨⟩⟩
      split
      · exact ⟨_, rfl, by simp, by rintro b ⟨⟩⟩
      split
      · exact ⟨_, rfl, by simp, by rintro b ⟨⟩⟩
      rename_i hfirst hwidth hvalid
      simp only [Bool.not_eq_true', Bool.not_eq_false, List.all_eq_true] at hvalid
      obtain ⟨parsed', factory', hrow, hnext', hlaid⟩ := appendTokenRow_laid h hnext hvalid
      obtain ⟨r, hr, herror, hspec⟩ := ih (splitRow line).length hlaid hnext'
      have hindex := h.toLaid.length_snoc hlaid.toLaid
      rw [hrow, ok_bind]
      refine ⟨r, by rw [← hindex]; exact hr, herror, fun b hb => ?_⟩
      obtain ⟨hall, width, hpos, hsame, hrest⟩ := hspec b hb
      have hne : (splitRow line).length ≠ 0 := by omega
      have heq : width = (splitRow line).length := by omega
      refine ⟨by simpa using hall, width, hpos, by omega, ?_⟩
      intro other hother
      rcases List.mem_cons.mp hother with rfl | hother
      · exact ⟨heq.symm, hvalid⟩
      · exact hrest other hother

theorem parseRows_accepts (h : LaidInOrder tokens parsed) (hnext : factory.nextId = parsed.pieces.length + 1)
    (hwidth : width ≠ 0) (hexpected : expectedWidth = 0 ∨ expectedWidth = width)
    (hlines : WellFormed width lines) :
    ∃ b, parseRows expectedWidth parsed.cells.length parsed factory lines = .ok (.ok b) := by
  induction lines generalizing tokens parsed factory expectedWidth with
  | nil => exact ⟨parsed, rfl⟩
  | cons line lines ih =>
      obtain ⟨hlen, hvalid⟩ := hlines line List.mem_cons_self
      obtain ⟨parsed', factory', hrow, hnext', hlaid⟩ := appendTokenRow_laid h hnext hvalid
      have hindex := h.toLaid.length_snoc hlaid.toLaid
      obtain ⟨b, hb⟩ := ih hlaid hnext' (Or.inr hlen)
        fun other hother => hlines other (List.mem_cons_of_mem _ hother)
      refine ⟨b, ?_⟩
      have hall : (splitRow line).all isValidToken = true := List.all_eq_true.mpr hvalid
      unfold parseRows
      dsimp only
      rw [if_neg (by omega), if_neg (by omega), hall, if_neg (by simp), hrow, ok_bind, ← hindex]
      exact hb

theorem parseBoardRows_laid (h : parseBoardRows lines before = .ok (.ok, b)) :
    LaidInOrder (lines.map splitRow) b ∧ ∃ width, width ≠ 0 ∧ WellFormed width lines := by
  obtain ⟨r, hr, herror, hspec⟩ := parseRows_laid 0 lines LaidInOrder.nil (show ({} : PieceFactory).nextId = 1 from rfl)
  rw [List.length_nil] at hr
  rw [parseBoardRows, hr, ok_bind] at h
  cases r with
  | error error =>
      simp only [pure_eq_ok, Except.ok.injEq, Prod.mk.injEq] at h
      obtain ⟨rfl, -⟩ := h
      exact absurd rfl herror
  | ok parsed =>
      simp only [pure_eq_ok, Except.ok.injEq, Prod.mk.injEq, true_and] at h
      subst h
      obtain ⟨hlaid, width, hpos, -, hlines⟩ := hspec _ rfl
      exact ⟨hlaid, width, hpos, hlines⟩

theorem parseBoardRows_accepts (before : BoardModel) (hwidth : width ≠ 0) (hlines : WellFormed width lines) :
    ∃ b, parseBoardRows lines before = .ok (.ok, b) := by
  obtain ⟨b, hb⟩ := parseRows_accepts LaidInOrder.nil (show ({} : PieceFactory).nextId = 1 from rfl)
    hwidth (Or.inl rfl) hlines
  rw [List.length_nil] at hb
  refine ⟨b, ?_⟩
  rw [parseBoardRows, hb, ok_bind]
  rfl

end Lines

end KungFuChess
