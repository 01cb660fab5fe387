import Mathlib.Data.Finset.Card
import Mathlib.Order.Interval.Finset.Nat
import KungFuChess.Proof.Mirror
import KungFuChess.Proof.Parse

/-!
# The text of a mirrored board

The lines of a board from last to first, with the colour letters swapped, are the lines of a board too,
and the two boards are mirror images. The new name of a piece is the id that the second reading gives to
the piece on the opposite cell.
-/

namespace KungFuChess

open Loops BoardModel

def swapColorChar (c : Char) : Char :=
  if c = kWhiteColor then kBlackColor else if c = kBlackColor then kWhiteColor else c

def mirrorToken (token : Text) : Text := token.map swapColorChar

def mirrorLines (lines : List Text) : List Text := lines.reverse.map mirrorToken

/-! ### Tokens -/

theorem swapColorChar_cases (c : Char) :
    c = 'w' ∧ swapColorChar c = 'b' ∨ c = 'b' ∧ swapColorChar c = 'w' ∨
      c ≠ 'w' ∧ c ≠ 'b' ∧ swapColorChar c = c := by
  by_cases hwhite : c = 'w'
  · exact .inl ⟨hwhite, by rw [hwhite]; rfl⟩
  · by_cases hblack : c = 'b'
    · exact .inr (.inl ⟨hblack, by rw [hblack]; rfl⟩)
    · refine .inr (.inr ⟨hwhite, hblack, ?_⟩)
      rw [swapColorChar, kWhiteColor, kBlackColor, if_neg hwhite, if_neg hblack]

theorem swapColorChar_swapColorChar (c : Char) : swapColorChar (swapColorChar c) = c := by
  rcases swapColorChar_cases c with ⟨rfl, -⟩ | ⟨rfl, -⟩ | ⟨-, -, hsame⟩
  · rfl
  · rfl
  · rw [hsame, hsame]

theorem mirrorToken_mirrorToken (token : Text) : mirrorToken (mirrorToken token) = token := by
  rw [mirrorToken, mirrorToken, List.map_map]
  refine (List.map_congr_left fun c _ => ?_).trans token.map_id
  exact swapColorChar_swapColorChar c

theorem isSpace_swapColorChar (c : Char) : isSpace (swapColorChar c) = isSpace c := by
  rcases swapColorChar_cases c with ⟨rfl, -⟩ | ⟨rfl, -⟩ | ⟨-, -, hsame⟩
  · rfl
  · rfl
  · rw [hsame]

theorem colorFromChar_swapColorChar (c : Char) :
    colorFromChar (swapColorChar c) = (colorFromChar c).map PieceColor.swap := by
  rcases swapColorChar_cases c with ⟨rfl, -⟩ | ⟨rfl, -⟩ | ⟨hwhite, hblack, hsame⟩
  · rfl
  · rfl
  · rw [hsame, colorFromChar, kWhiteColor, kBlackColor, if_neg hwhite, if_neg hblack]
    rfl

theorem kindFromChar_swapColorChar (c : Char) : kindFromChar (swapColorChar c) = kindFromChar c := by
  rcases swapColorChar_cases c with ⟨rfl, -⟩ | ⟨rfl, -⟩ | ⟨-, -, hsame⟩
  · rfl
  · rfl
  · rw [hsame]

theorem isEmptyToken_mirrorToken (token : Text) : isEmptyToken (mirrorToken token) = isEmptyToken token := by
  have hdot : mirrorToken [kEmptyToken] = [kEmptyToken] := rfl
  rw [Bool.eq_iff_iff, isEmptyToken, isEmptyToken, beq_iff_eq, beq_iff_eq]
  constructor
  · intro heq
    rw [← mirrorToken_mirrorToken token, heq, hdot]
  · intro heq
    rw [heq, hdot]

theorem isValidToken_mirrorToken (token : Text) : isValidToken (mirrorToken token) = isValidToken token := by
  unfold isValidToken
  rw [isEmptyToken_mirrorToken]
  match token with
  | [] => rfl
  | [_] => rfl
  | [color, kind] =>
      simp only [mirrorToken, List.map_cons, List.map_nil, colorFromChar_swapColorChar,
        kindFromChar_swapColorChar, Option.isSome_map]
  | _ :: _ :: _ :: _ => rfl

def mirrorDescriptor (d : PieceDescriptor) : PieceDescriptor := ⟨d.color.swap, d.kind⟩

theorem descriptorFromToken_mirrorToken (token : Text) :
    descriptorFromToken (mirrorToken token) = (descriptorFromToken token).map mirrorDescriptor := by
  unfold descriptorFromToken
  rw [isEmptyToken_mirrorToken, isValidToken_mirrorToken]
  split
  · rfl
  split
  · rfl
  match token with
  | [] => rfl
  | [_] => rfl
  | color :: kind :: rest =>
      simp only [mirrorToken, List.map_cons, colorFromChar_swapColorChar, kindFromChar_swapColorChar]
      cases colorFromChar color with
      | none => rfl
      | some color =>
          cases kindFromChar kind with
          | none => rfl
          | some kind => rfl

/-! ### Lines -/

theorem splitFrom_map (current line : Text) :
    splitFrom (mirrorToken current) (mirrorToken line) = (splitFrom current line).map mirrorToken := by
  induction line generalizing current with
  | nil => cases current <;> rfl
  | cons c line ih =>
      have hempty : (mirrorToken current).isEmpty = current.isEmpty := by cases current <;> rfl
      have hnil := ih []
      have hlonger := ih (current ++ [c])
      simp only [mirrorToken, List.map_append, List.map_cons, List.map_nil] at hempty hnil hlonger ⊢
      simp only [splitFrom, isSpace_swapColorChar, hempty, hnil, hlonger]
      split
      · split
        · rfl
        · rfl
      · rfl

theorem splitRow_mirrorToken (line : Text) : splitRow (mirrorToken line) = (splitRow line).map mirrorToken :=
  splitFrom_map [] line

theorem wellFormed_mirrorLines {width : Nat} {lines : List Text} (h : WellFormed width lines) :
    WellFormed width (mirrorLines lines) := by
  intro line' hline'
  obtain ⟨line, hline, rfl⟩ := List.mem_map.mp hline'
  obtain ⟨hwidth, hvalid⟩ := h line (List.mem_reverse.mp hline)
  rw [splitRow_mirrorToken]
  refine ⟨by rw [List.length_map, hwidth], fun token' htoken' => ?_⟩
  obtain ⟨token, htoken, rfl⟩ := List.mem_map.mp htoken'
  rw [isValidToken_mirrorToken]
  exact hvalid token htoken

/-- The tokens of opposite cells. -/
def OppositeTokens (rows : Nat) (tokens tokens' : List (List Text)) : Prop :=
  ∀ row col, tokenAtCell tokens' (mirrorRow rows row) col = (tokenAtCell tokens row col).map mirrorToken

theorem oppositeTokens_mirrorLines (lines : List Text) :
    OppositeTokens lines.length (lines.map splitRow) ((mirrorLines lines).map splitRow) := by
  intro row col
  have htokens : (mirrorLines lines).map splitRow = (lines.map splitRow).reverse.map (List.map mirrorToken) := by
    simp only [mirrorLines, List.map_map, List.map_reverse]
    refine congrArg List.reverse (List.map_congr_left fun line _ => ?_)
    exact splitRow_mirrorToken line
  rw [htokens, tokenAtCell, tokenAtCell, List.getElem?_map]
  by_cases hrow : row < lines.length
  · have hlt : row < (lines.map splitRow).length := by rwa [List.length_map]
    have hflip : (lines.map splitRow).reverse[mirrorRow lines.length row]? = (lines.map splitRow)[row]? := by
      rw [mirrorRow, if_pos hrow, List.getElem?_reverse (by rw [List.length_map]; omega), List.length_map]
      exact congrArg (fun i => (lines.map splitRow)[i]?) (by omega)
    rw [hflip]
    cases (lines.map splitRow)[row]? with
    | none => rfl
    | some toks => simp only [Option.map_some, Option.bind_some, List.getElem?_map]
  · have hnone : (lines.map splitRow)[row]? = none := List.getElem?_eq_none (by rw [List.length_map]; omega)
    have hnone' : (lines.map splitRow).reverse[row]? = none :=
      List.getElem?_eq_none (by rw [List.length_reverse, List.length_map]; omega)
    rw [mirrorRow, if_neg hrow, hnone, hnone']
    rfl

theorem OppositeTokens.symm {rows : Nat} {tokens tokens' : List (List Text)}
    (h : OppositeTokens rows tokens tokens') : OppositeTokens rows tokens' tokens := by
  intro row col
  have hrow := h (mirrorRow rows row) col
  rw [mirrorRow_mirrorRow] at hrow
  rw [hrow, Option.map_map]
  cases tokenAtCell tokens (mirrorRow rows row) col with
  | none => rfl
  | some token => exact congrArg some (mirrorToken_mirrorToken token).symm

/-! ### Boards -/

/-- The id on the opposite cell of the other board; ids that are not on the board stay. -/
def oppositeId (rows : Nat) (b b' : BoardModel) (id : Nat) : Nat :=
  match b.findPieceById id with
  | none => id
  | some p => (b'.cellId (mirrorRow rows (toSize p.cell.row)) (toSize p.cell.col)).getD id

section Boards

variable {rows width : Nat} {tokens tokens' : List (List Text)} {b b' : BoardModel}

/-- Opposite cells hold a piece and its mirror image. -/
theorem OppositeTokens.piece (h : OppositeTokens rows tokens tokens') (hlaid : Laid tokens b)
    (hlaid' : Laid tokens' b') {row col id : Nat} (hcell : b.cellId row col = some id) :
    b'.cellId (mirrorRow rows row) col = some (oppositeId rows b b' id) ∧
      ∃ d : PieceDescriptor,
        b.findPieceById id = some ⟨id, d.color, d.kind, positionOf row col, .idle⟩ ∧
        b'.findPieceById (oppositeId rows b b' id)
          = some ⟨oppositeId rows b b' id, d.color.swap, d.kind,
              positionOf (mirrorRow rows row) col, .idle⟩ := by
  obtain ⟨token, d, htoken, hd, hfind⟩ := hlaid.piece_of_cellId hcell
  have htoken' := h row col
  rw [htoken, Option.map_some] at htoken'
  have hd' := descriptorFromToken_mirrorToken token
  rw [hd, Option.map_some] at hd'
  obtain ⟨id', hcell', hfind'⟩ := hlaid'.filled _ _ _ _ htoken' hd'
  have hid : oppositeId rows b b' id = id' := by
    simp only [oppositeId, hfind, positionOf, toSize_toInt, hcell', Option.getD_some]
  rw [hid]
  exact ⟨hcell', d, hfind, hfind'⟩

theorem OppositeTokens.cellId (h : OppositeTokens rows tokens tokens') (hlaid : Laid tokens b)
    (hlaid' : Laid tokens' b') (row col : Nat) :
    b'.cellId (mirrorRow rows row) col = (b.cellId row col).map (oppositeId rows b b') := by
  cases hcell : b.cellId row col with
  | some id => exact (h.piece hlaid hlaid' hcell).1
  | none =>
      cases hcell' : b'.cellId (mirrorRow rows row) col with
      | none => rfl
      | some id' =>
          have hback := (h.symm.piece hlaid' hlaid hcell').1
          rw [mirrorRow_mirrorRow, hcell] at hback
          cases hback

theorem oppositeId_inj (h : OppositeTokens rows tokens tokens') (hlaid : Laid tokens b)
    (hlaid' : Laid tokens' b') (hb' : Located b' []) {id other : Nat}
    (hid : (b.findPieceById id).isSome = true) (hother : (b.findPieceById other).isSome = true)
    (heq : oppositeId rows b b' id = oppositeId rows b b' other) : id = other := by
  obtain ⟨p, hp⟩ := Option.isSome_iff_exists.mp hid
  obtain ⟨q, hq⟩ := Option.isSome_iff_exists.mp hother
  obtain ⟨row, col, hcell⟩ := hlaid.onGrid id p hp
  obtain ⟨row', col', hcell'⟩ := hlaid.onGrid other q hq
  have himage := (h.piece hlaid hlaid' hcell).1
  rw [heq] at himage
  obtain ⟨hrow, hcol⟩ := hb'.cell_unique himage (h.piece hlaid hlaid' hcell').1
  have hsame : row = row' := by rw [← mirrorRow_mirrorRow rows row, hrow, mirrorRow_mirrorRow]
  rw [hsame, hcol, hcell'] at hcell
  exact (Option.some.inj hcell).symm

theorem isSome_oppositeId (h : OppositeTokens rows tokens tokens') (hlaid : Laid tokens b)
    (hlaid' : Laid tokens' b') {id : Nat} (hid : (b.findPieceById id).isSome = true) :
    (b'.findPieceById (oppositeId rows b b' id)).isSome = true := by
  obtain ⟨p, hp⟩ := Option.isSome_iff_exists.mp hid
  obtain ⟨row, col, hcell⟩ := hlaid.onGrid id p hp
  obtain ⟨-, d, -, hfind⟩ := h.piece hlaid hlaid' hcell
  rw [hfind]
  rfl

theorem pieces_length_le (h : OppositeTokens rows tokens tokens') (hlaid : Laid tokens b)
    (hlaid' : Laid tokens' b') (hb' : Located b' []) : b.pieces.length ≤ b'.pieces.length := by
  have hmem : ∀ (c : BoardModel) (id : Nat),
      id ∈ Finset.Icc 1 c.pieces.length ↔ (c.findPieceById id).isSome = true := by
    intro c id
    rw [findPieceById_isSome, Finset.mem_Icc]
    omega
  have hcard := Finset.card_le_card_of_injOn (s := Finset.Icc 1 b.pieces.length)
    (t := Finset.Icc 1 b'.pieces.length) (oppositeId rows b b')
    (fun id hid => (hmem b' _).mpr (isSome_oppositeId h hlaid hlaid' ((hmem b id).mp hid)))
    (fun id hid other hother heq => oppositeId_inj h hlaid hlaid' hb' ((hmem b id).mp hid)
      ((hmem b other).mp hother) heq)
  simpa using hcard

/-- The two readings use the same ids. -/
theorem isSome_findPieceById_eq (h : OppositeTokens rows tokens tokens') (hlaid : Laid tokens b)
    (hlaid' : Laid tokens' b') (hb : Located b []) (hb' : Located b' []) (id : Nat) :
    (b'.findPieceById id).isSome = (b.findPieceById id).isSome := by
  have hlength := le_antisymm (pieces_length_le h hlaid hlaid' hb')
    (pieces_length_le h.symm hlaid' hlaid hb)
  rw [Bool.eq_iff_iff, findPieceById_isSome, findPieceById_isSome, hlength]

theorem oppositeId_of_none {id : Nat} (hnone : (b.findPieceById id).isSome = false) :
    oppositeId rows b b' id = id := by
  rw [Option.isSome_eq_false_iff, Option.isNone_iff_eq_none] at hnone
  simp only [oppositeId, hnone]

theorem oppositeId_bijective (h : OppositeTokens rows tokens tokens') (hlaid : Laid tokens b)
    (hlaid' : Laid tokens' b') (hb : Located b []) (hb' : Located b' []) :
    Function.Bijective (oppositeId rows b b') := by
  have hsame := isSome_findPieceById_eq h hlaid hlaid' hb hb'
  constructor
  · intro id other heq
    cases hid : (b.findPieceById id).isSome <;> cases hother : (b.findPieceById other).isSome
    · rwa [oppositeId_of_none hid, oppositeId_of_none hother] at heq
    · have hin := isSome_oppositeId h hlaid hlaid' hother
      rw [← heq, oppositeId_of_none hid, hsame, hid] at hin
      cases hin
    · have hin := isSome_oppositeId h hlaid hlaid' hid
      rw [heq, oppositeId_of_none hother, hsame, hother] at hin
      cases hin
    · exact oppositeId_inj h hlaid hlaid' hb' hid hother heq
  · intro id'
    cases hid' : (b'.findPieceById id').isSome with
    | false => exact ⟨id', oppositeId_of_none ((hsame id').symm.trans hid')⟩
    | true =>
        obtain ⟨p', hp'⟩ := Option.isSome_iff_exists.mp hid'
        obtain ⟨row, col, hcell'⟩ := hlaid'.onGrid id' p' hp'
        have hback := h.symm.piece hlaid' hlaid hcell'
        refine ⟨oppositeId rows b' b id', ?_⟩
        have hthere := (h.piece hlaid hlaid' hback.1).1
        rw [mirrorRow_mirrorRow, hcell'] at hthere
        exact (Option.some.inj hthere).symm

/-- The mirror that turns one board into the other. -/
theorem exists_mirror (h : OppositeTokens b.rows tokens tokens') (hlaid : Laid tokens b)
    (hlaid' : Laid tokens' b') (hb : Located b []) (hb' : Located b' []) (hrows : b'.rows = b.rows)
    (hcols : b'.cols = b.cols) : ∃ M : Mirror, M.rows = b.rows ∧ M.Boards b b' := by
  have hinvalid : (b.findPieceById kInvalidId).isSome = false := rfl
  refine ⟨⟨b.rows, oppositeId b.rows b b', oppositeId_bijective h hlaid hlaid' hb hb',
    oppositeId_of_none hinvalid⟩, rfl, hb.rect, hb'.rect, rfl, hrows, hcols, h.cellId hlaid hlaid', ?_⟩
  intro id
  cases hid : b.findPieceById id with
  | none =>
      have hnone : (b.findPieceById id).isSome = false := by rw [hid]; rfl
      have hnone' := (isSome_findPieceById_eq h hlaid hlaid' hb hb' id).trans hnone
      show b'.findPieceById (oppositeId b.rows b b' id) = none
      rw [oppositeId_of_none hnone]
      exact Option.not_isSome_iff_eq_none.mp (by rw [hnone']; decide)
  | some p =>
      obtain ⟨row, col, hcell⟩ := hlaid.onGrid id p hid
      obtain ⟨-, d, hfind, hfind'⟩ := h.piece hlaid hlaid' hcell
      rw [hid] at hfind
      cases hfind
      rw [hfind']
      simp only [Option.map_some, Mirror.piece, Mirror.position_positionOf, Mirror.row]

/-- The mirrored text is a board, and the mirror image of the board. -/
theorem parseBoardRows_mirrorLines {lines : List Text} {before : BoardModel}
    (hparse : parseBoardRows lines before = .ok (.ok, b)) (before' : BoardModel) :
    ∃ b', parseBoardRows (mirrorLines lines) before' = .ok (.ok, b') ∧
      ∃ M : Mirror, M.rows = b.rows ∧ M.Boards b b' := by
  obtain ⟨⟨hlaid, -⟩, width, hpos, hlines⟩ := parseBoardRows_laid hparse
  have hlines' := wellFormed_mirrorLines hlines
  obtain ⟨b', hparse'⟩ := parseBoardRows_accepts before' hpos hlines'
  obtain ⟨⟨hlaid', -⟩, -⟩ := parseBoardRows_laid hparse'
  have hlength : (mirrorLines lines).length = lines.length := by simp [mirrorLines]
  have hrows : b.rows = lines.length := by rw [hlaid.rows_eq, List.length_map]
  have hrows' : b'.rows = lines.length := by rw [hlaid'.rows_eq, List.length_map, hlength]
  have hcols : b'.cols = b.cols := by
    rw [hlaid.cols_eq hlines.width_eq, hlaid'.cols_eq hlines'.width_eq]
    cases lines with
    | nil => rfl
    | cons line lines => simp [mirrorLines]
  have hopposite := oppositeTokens_mirrorLines lines
  rw [← hrows] at hopposite
  exact ⟨b', hparse', exists_mirror hopposite hlaid hlaid' (hlaid.located hlines.width_eq)
    (hlaid'.located hlines'.width_eq) (hrows'.trans hrows.symm) hcols⟩

end Boards

end KungFuChess
