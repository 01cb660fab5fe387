import KungFuChess.Proof.Parse
import KungFuChess.Proof.Snapshot
import KungFuChess.Model.Drivers

/-!
# Boards as text

A text is read as a board if it is a grid of tokens, and the board shows these tokens. What is written of a board is read
as a board that shows the same, whatever is left in its table.
-/

namespace KungFuChess

open Loops BoardModel

/-! ### Tokens -/

/-- A dot, or the letters of a colour and a kind. -/
def IsBoardToken (token : Text) : Prop :=
  token = ['.'] ∨ ∃ color ∈ ['w', 'b'], ∃ kind ∈ ['K', 'Q', 'R', 'B', 'N', 'P'], token = [color, kind]

section Tokens

variable {token : Text} {c : Char}

theorem isSome_colorFromChar_iff : (colorFromChar c).isSome = true ↔ c ∈ ['w', 'b'] := by
  unfold colorFromChar
  rw [List.mem_cons, List.mem_singleton]
  split
  · rename_i hwhite
    exact iff_of_true rfl (.inl hwhite)
  · rename_i hwhite
    split
    · rename_i hblack
      exact iff_of_true rfl (.inr hblack)
    · rename_i hblack
      exact iff_of_false Bool.false_ne_true fun h => h.elim hwhite hblack

theorem isSome_kindFromChar_iff : (kindFromChar c).isSome = true ↔ c ∈ ['K', 'Q', 'R', 'B', 'N', 'P'] := by
  have hletters : ['K', 'Q', 'R', 'B', 'N', 'P'] = kPieceKindMappings.map Prod.snd := rfl
  rw [hletters, kindFromChar, Option.isSome_map, List.find?_isSome, List.mem_map]
  simp only [beq_iff_eq]

theorem isValidToken_iff : isValidToken token = true ↔ IsBoardToken token := by
  unfold isValidToken IsBoardToken
  rw [Bool.or_eq_true, isEmptyToken, beq_iff_eq]
  refine or_congr_right ?_
  split
  · rename_i color kind
    rw [Bool.and_eq_true, isSome_colorFromChar_iff, isSome_kindFromChar_iff]
    constructor
    · intro h
      obtain ⟨hcolor, hkind⟩ := h
      exact ⟨color, hcolor, kind, hkind, rfl⟩
    · intro h
      obtain ⟨color, hcolor, kind, hkind, heq⟩ := h
      cases heq
      exact ⟨hcolor, hkind⟩
  · rename_i hshape
    refine iff_of_false Bool.false_ne_true ?_
    intro h
    obtain ⟨color, -, kind, -, heq⟩ := h
    exact hshape color kind heq

/-- The token of a piece is written as it was read. -/
theorem toToken_descriptor {d : PieceDescriptor} (h : descriptorFromToken token = some d) :
    toToken d.color d.kind = token := by
  obtain ⟨c, k, rfl, hc, hk⟩ := descriptorFromToken_eq_some h
  have hcolor : colorToChar d.color = c := by
    unfold colorFromChar at hc
    split at hc
    · rename_i hwhite
      rw [← Option.some.inj hc, hwhite]
      rfl
    · rw [Option.ite_none_right_eq_some] at hc
      rw [← Option.some.inj hc.2, hc.1]
      rfl
  have hkind : kindToChar d.kind = k := by
    obtain ⟨entry, hentry, hsame⟩ := Option.map_eq_some_iff.mp hk
    have hletters : ∀ entry ∈ kPieceKindMappings, kindToChar entry.1 = entry.2 := by decide
    rw [← hsame, hletters entry (List.mem_of_find?_eq_some hentry)]
    exact beq_iff_eq.mp (List.find?_eq_some_iff_append.mp hentry).1
  rw [toToken, hcolor, hkind]

theorem tokenAt_cases (b : BoardModel) (row col : Nat) :
    b.tokenAt row col = [kEmptyToken] ∨ ∃ color kind, b.tokenAt row col = toToken color kind := by
  unfold tokenAt
  split
  · exact .inl rfl
  · exact .inr ⟨_, _, rfl⟩

theorem isValidToken_tokenAt (b : BoardModel) (row col : Nat) : isValidToken (b.tokenAt row col) = true := by
  rcases tokenAt_cases b row col with h | ⟨color, kind, h⟩
  · rw [h]
    rfl
  · rw [h]
    cases color <;> cases kind <;> decide

theorem isWord_tokenAt (b : BoardModel) (row col : Nat) : IsWord (b.tokenAt row col) := by
  rcases tokenAt_cases b row col with h | ⟨color, kind, h⟩
  · rw [h]
    decide
  · rw [h]
    exact isWord_toToken color kind

end Tokens

/-! ### What is read -/

/-- The lines make a grid of tokens. -/
def IsBoardText (lines : List Text) : Prop :=
  lines = [] ∨ ∃ width, width ≠ 0 ∧
    ∀ line ∈ lines, (splitRow line).length = width ∧ ∀ token ∈ splitRow line, IsBoardToken token

/-- The board shows the tokens of the lines, and its pieces are numbered row by row. -/
structure ReadFrom (lines : List Text) (b : BoardModel) : Prop where
  grid : ∀ row col, b.isInBounds row col = true ↔ ∃ token, tokenAtCell (lines.map splitRow) row col = some token
  tokens : ∀ row col token, tokenAtCell (lines.map splitRow) row col = some token → b.tokenAt row col = token
  ids : b.cells.flatten.reduceOption = List.range' 1 b.pieces.length
  table : b.pieces.map Piece.id = List.range' 1 b.pieces.length
  places : ∀ row col p, b.pieceAt row col = some p → p.cell = positionOf row col

section Reading

variable {lines : List Text} {tokens : List (List Text)} {b before : BoardModel} {width row col : Nat}

theorem wellFormed_iff : WellFormed width lines ↔
    ∀ line ∈ lines, (splitRow line).length = width ∧ ∀ token ∈ splitRow line, IsBoardToken token := by
  simp only [WellFormed, isValidToken_iff]

theorem Laid.inBounds_iff (h : Laid tokens b) (hwidth : ∀ toks ∈ tokens, toks.length = width) :
    b.InBounds row col ↔ ∃ token, tokenAtCell tokens row col = some token := by
  have hcols : ∀ toks ∈ tokens, b.cols = toks.length := by
    intro toks htoks
    have hne : tokens.isEmpty = false := List.isEmpty_eq_false_iff.mpr (List.ne_nil_of_mem htoks)
    rw [h.cols_eq hwidth, hne, hwidth toks htoks]
    rfl
  simp only [tokenAtCell, Option.bind_eq_some_iff]
  constructor
  · intro h
    obtain ⟨hrow, hcol⟩ := h
    rw [h.rows_eq] at hrow
    have hmem := List.getElem_mem hrow
    rw [hcols _ hmem] at hcol
    exact ⟨_, _, List.getElem?_eq_getElem hrow, List.getElem?_eq_getElem hcol⟩
  · intro h
    obtain ⟨token, toks, hrow, hcol⟩ := h
    obtain ⟨hltRow, -⟩ := List.getElem?_eq_some_iff.mp hrow
    obtain ⟨hltCol, -⟩ := List.getElem?_eq_some_iff.mp hcol
    exact ⟨h.rows_eq ▸ hltRow, hcols toks (List.mem_of_getElem? hrow) ▸ hltCol⟩

theorem Laid.tokenAt (h : Laid tokens b) (hwidth : ∀ toks ∈ tokens, toks.length = width) {token : Text}
    (hvalid : isValidToken token = true) (htoken : tokenAtCell tokens row col = some token) :
    b.tokenAt row col = token := by
  rw [BoardModel.tokenAt, pieceAt_eq (h.rect hwidth)]
  cases hd : descriptorFromToken token with
  | none =>
      rw [h.empty row col token htoken hd]
      have hempty : isEmptyToken token = true := by
        by_contra hfull
        obtain ⟨d, hsome⟩ := descriptorFromToken_of_isValidToken hvalid (Bool.not_eq_true _ ▸ hfull)
        cases hd.symm.trans hsome
      exact (beq_iff_eq.mp hempty).symm
  | some d =>
      obtain ⟨id, hid, hfind⟩ := h.filled row col token d htoken hd
      rw [hid, Option.bind_some, hfind]
      exact toToken_descriptor hd

theorem mem_of_tokenAtCell {token : Text} (h : tokenAtCell tokens row col = some token) :
    ∃ toks ∈ tokens, token ∈ toks := by
  obtain ⟨toks, hrow, hcol⟩ := Option.bind_eq_some_iff.mp h
  exact ⟨toks, List.mem_of_getElem? hrow, List.mem_of_getElem? hcol⟩

theorem readFrom_of_parse (h : parseBoardRows lines before = .ok (.ok, b)) : ReadFrom lines b := by
  obtain ⟨⟨hlaid, hids⟩, width, -, hlines⟩ := parseBoardRows_laid h
  have hlocated := hlaid.located hlines.width_eq
  refine ⟨fun row col => ?_, fun row col token htoken => ?_, hids, ?_, fun row col p hp => ?_⟩
  · rw [isInBounds_iff, hlaid.inBounds_iff hlines.width_eq]
  · obtain ⟨toks, htoks, hmem⟩ := mem_of_tokenAtCell htoken
    obtain ⟨line, hline, rfl⟩ := List.mem_map.mp htoks
    exact hlaid.tokenAt hlines.width_eq ((hlines line hline).2 token hmem) htoken
  · refine List.ext_getElem (by simp) fun i hi _ => ?_
    rw [List.length_map] at hi
    have hfind : b.findPieceById (i + 1) = some b.pieces[i] :=
      findPieceById_eq_some.mpr ⟨Nat.succ_ne_zero i, List.getElem?_eq_getElem hi⟩
    rw [List.getElem_map, List.getElem_range', hlocated.idsInPlace _ _ hfind]
    omega
  · exact (hlocated.idle_of_pieceAt hp).2

/-- Whatever the lines, there is an answer, and the board is replaced only by one that was read. -/
theorem parseBoardRows_answers (lines : List Text) (before : BoardModel) :
    ∃ error b, parseBoardRows lines before = .ok (error, b) ∧ (error = .ok ↔ IsBoardText lines) ∧
      (error ≠ .ok → b = before) ∧ (error = .ok → ReadFrom lines b) := by
  obtain ⟨r, hr, herror, -⟩ := parseRows_laid 0 lines LaidInOrder.nil (show ({} : PieceFactory).nextId = 1 from rfl)
  rw [List.length_nil] at hr
  have hparse : ∃ error b, parseBoardRows lines before = .ok (error, b) ∧ (error ≠ .ok → b = before) := by
    rw [parseBoardRows, hr, ok_bind]
    cases r with
    | error error => exact ⟨error, before, rfl, fun _ => rfl⟩
    | ok parsed => exact ⟨.ok, parsed, rfl, fun hne => absurd rfl hne⟩
  obtain ⟨error, b, hparse, hbefore⟩ := hparse
  refine ⟨error, b, hparse, ?_, hbefore, ?_⟩
  · constructor
    · intro h
      obtain rfl := h
      obtain ⟨-, width, hwidth, hlines⟩ := parseBoardRows_laid hparse
      exact .inr ⟨width, hwidth, wellFormed_iff.mp hlines⟩
    · intro htext
      have haccepts : ∃ width, width ≠ 0 ∧ WellFormed width lines := by
        rcases htext with rfl | ⟨width, hwidth, hlines⟩
        · exact ⟨1, one_ne_zero, fun _ hmem => absurd hmem List.not_mem_nil⟩
        · exact ⟨width, hwidth, wellFormed_iff.mpr hlines⟩
      obtain ⟨width, hwidth, hlines⟩ := haccepts
      obtain ⟨b', hok⟩ := parseBoardRows_accepts before hwidth hlines
      cases hparse.symm.trans hok
      rfl
  · intro h
    obtain rfl := h
    exact readFrom_of_parse hparse

end Reading

/-! ### What is written -/

section Writing

variable (b : BoardModel)

/-- The tokens of a row. -/
def writtenTokens (row : Nat) : List Text := (List.range b.cols).map (b.tokenAt row)

theorem isWord_writtenTokens (row : Nat) : ∀ token ∈ writtenTokens b row, IsWord token := by
  intro token htoken
  obtain ⟨col, -, rfl⟩ := List.mem_map.mp htoken
  exact isWord_tokenAt b row col

theorem joinTokens_eq_intercalate (tokens : List Text) : joinTokens tokens = [' '].intercalate tokens := by
  induction tokens with
  | nil => rfl
  | cons token tokens ih =>
      cases tokens with
      | nil => exact List.intercalate_singleton.symm
      | cons next tokens =>
          rw [joinTokens, ih, List.intercalate_cons_cons, List.append_assoc]
          rfl

theorem splitOn_writeBoard (hrows : 0 < b.rows) :
    (writeBoard b).splitOn '\n' = (List.range b.rows).map fun row => joinTokens (writtenTokens b row) := by
  have hlines : writeBoard b =
      ['\n'].intercalate ((List.range b.rows).map fun row => joinTokens (writtenTokens b row)) := by
    simp only [writeBoard, writtenTokens, joinTokens_eq_intercalate]
  rw [hlines]
  refine List.splitOn_intercalate '\n' ?_ ?_
  · intro line hline hbreak
    obtain ⟨row, -, rfl⟩ := List.mem_map.mp hline
    exact (noBreak_of_isWord (isWord_writtenTokens b row) _ hbreak).2 rfl
  · intro hnil
    rw [List.map_eq_nil_iff, List.range_eq_nil] at hnil
    omega

theorem splitRow_writeBoard (hrows : 0 < b.rows) :
    ((writeBoard b).splitOn '\n').map splitRow = (List.range b.rows).map (writtenTokens b) := by
  rw [splitOn_writeBoard b hrows, List.map_map]
  exact List.map_congr_left fun row _ => splitTokens_joinTokens _ (isWord_writtenTokens b row)

theorem isBoardText_writeBoard (hrows : 0 < b.rows) (hcols : 0 < b.cols) : IsBoardText ((writeBoard b).splitOn '\n') := by
  refine .inr ⟨b.cols, hcols.ne', fun line hline => ?_⟩
  have hmem : splitRow line ∈ ((writeBoard b).splitOn '\n').map splitRow := List.mem_map_of_mem hline
  rw [splitRow_writeBoard b hrows] at hmem
  obtain ⟨row, -, hrow⟩ := List.mem_map.mp hmem
  rw [← hrow]
  refine ⟨by simp [writtenTokens], fun token htoken => ?_⟩
  obtain ⟨col, -, rfl⟩ := List.mem_map.mp htoken
  exact isValidToken_iff.mp (isValidToken_tokenAt b row col)

theorem tokenAtCell_writeBoard (hrows : 0 < b.rows) {row col : Nat} {token : Text} :
    tokenAtCell (((writeBoard b).splitOn '\n').map splitRow) row col = some token ↔
      (row < b.rows ∧ col < b.cols) ∧ b.tokenAt row col = token := by
  rw [splitRow_writeBoard b hrows, tokenAtCell, List.getElem?_map]
  by_cases hrow : row < b.rows
  · rw [List.getElem?_range hrow, Option.map_some, Option.bind_some, writtenTokens, List.getElem?_map]
    by_cases hcol : col < b.cols
    · rw [List.getElem?_range hcol, Option.map_some, Option.some.injEq]
      simp [hrow, hcol]
    · rw [List.getElem?_eq_none (by simpa using hcol)]
      simp [hcol]
  · rw [List.getElem?_eq_none (by simpa using hrow)]
    simp [hrow]

end Writing

/-! ### Boards and their texts -/

theorem equals_iff {b b' : BoardModel} : b.equals b' = true ↔
    b.rows = b'.rows ∧ b.cols = b'.cols ∧ ∀ row < b.rows, ∀ col < b.cols, b.tokenAt row col = b'.tokenAt row col := by
  unfold equals
  split
  · rename_i hsize
    refine iff_of_false Bool.false_ne_true fun h => ?_
    exact hsize.elim (absurd h.1) (absurd h.2.1)
  · rename_i hsize
    rw [not_or, not_not, not_not] at hsize
    simp only [List.all_eq_true, List.mem_range, beq_iff_eq, hsize, true_and]

/-- A board in bounds of which are the same cells has as many rows and columns. -/
theorem size_eq_of_inBounds {b : BoardModel} {rows cols : Nat} (hrows : 0 < rows) (hcols : 0 < cols)
    (h : ∀ row col, b.InBounds row col ↔ row < rows ∧ col < cols) : b.rows = rows ∧ b.cols = cols := by
  have hbounds : ∀ row col, row < b.rows ∧ col < b.cols ↔ row < rows ∧ col < cols := h
  have horigin := (hbounds 0 0).mpr ⟨hrows, hcols⟩
  constructor
  · refine Nat.le_antisymm (Nat.le_of_not_lt fun hlt => ?_) (Nat.le_of_not_lt fun hlt => ?_)
    · exact Nat.lt_irrefl _ ((hbounds rows 0).mp ⟨hlt, horigin.2⟩).1
    · exact Nat.lt_irrefl _ ((hbounds b.rows 0).mpr ⟨hlt, hcols⟩).1
  · refine Nat.le_antisymm (Nat.le_of_not_lt fun hlt => ?_) (Nat.le_of_not_lt fun hlt => ?_)
    · exact Nat.lt_irrefl _ ((hbounds 0 cols).mp ⟨horigin.1, hlt⟩).2
    · exact Nat.lt_irrefl _ ((hbounds 0 b.cols).mpr ⟨hrows, hlt⟩).2

/-- Lines are read as a board if they are a grid of tokens, and else leave the board as it was. A board that is written is
read as its equal. -/
theorem board_text_round_trip :
    (∀ lines before, ∃ error b, parseBoardRows lines before = .ok (error, b) ∧ (error = .ok ↔ IsBoardText lines) ∧
      (error ≠ .ok → b = before) ∧ (error = .ok → ReadFrom lines b)) ∧
    ∀ b : BoardModel, 0 < b.rows → 0 < b.cols → ∀ before, ∃ b',
      parseBoardRows ((writeBoard b).splitOn '\n') before = .ok (.ok, b') ∧ b'.equals b = true := by
  refine ⟨parseBoardRows_answers, fun b hrows hcols before => ?_⟩
  obtain ⟨error, b', hparse, htext, -, hread⟩ := parseBoardRows_answers ((writeBoard b).splitOn '\n') before
  obtain rfl := htext.mpr (isBoardText_writeBoard b hrows hcols)
  have hread := hread rfl
  refine ⟨b', hparse, ?_⟩
  have hgrid : ∀ row col, b'.InBounds row col ↔ row < b.rows ∧ col < b.cols := by
    intro row col
    rw [← isInBounds_iff, hread.grid]
    simp only [tokenAtCell_writeBoard b hrows, exists_and_left, exists_eq', and_true]
  obtain ⟨hrows', hcols'⟩ := size_eq_of_inBounds hrows hcols hgrid
  refine equals_iff.mpr ⟨hrows', hcols', fun row hrow col hcol => ?_⟩
  rw [hrows'] at hrow
  rw [hcols'] at hcol
  exact hread.tokens row col _ ((tokenAtCell_writeBoard b hrows).mpr ⟨⟨hrow, hcol⟩, rfl⟩)

/-- A rook that has been taken, and a king that stands. -/
theorem board_text_round_trip_taken :
    ∃ b', parseBoardRows (["wK .".toList] : List Text) ⟨[], []⟩ = .ok (.ok, b') ∧
      b'.equals ⟨[[some 2, none]], [⟨1, .black, .rook, ⟨0, 0⟩, .captured⟩, ⟨2, .white, .king, ⟨0, 0⟩, .idle⟩]⟩ = true := by
  have hlines : (writeBoard ⟨[[some 2, none]],
      [⟨1, .black, .rook, ⟨0, 0⟩, .captured⟩, ⟨2, .white, .king, ⟨0, 0⟩, .idle⟩]⟩).splitOn '\n' = ["wK .".toList] := by
    decide
  rw [← hlines]
  exact board_text_round_trip.2 _ (by decide) (by decide) _

end KungFuChess
