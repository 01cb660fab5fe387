import KungFuChess.Proof.Pieces

/-!
# The winner

`winning_color` looks for the kings on the grid, and a king in flight is not there. On a board with one
king of each colour, once one of them has been captured the answer is the colour of the other exactly
while that king stands on the grid; while it moves or jumps, nobody has won.
-/

namespace KungFuChess

open Loops BoardModel

def kingsOf (b : BoardModel) (color : PieceColor) : List Piece :=
  b.pieces.filter fun p => p.color == color && p.kind == .king

/-! ### The scan of the grid -/

theorem toToken_eq_king {color : PieceColor} {p : Piece} :
    toToken p.color p.kind = toToken color .king ↔ p.color = color ∧ p.kind = .king := by
  cases p.color <;> cases p.kind <;> cases color <;> decide

theorem scan_eq {whiteKing blackKing : Text} (hne : whiteKing ≠ blackKing) (tokens : List Text)
    (white black : Bool) :
    tokens.foldl (fun (found : Bool × Bool) token =>
        if token == whiteKing then (true, found.2)
        else if token == blackKing then (found.1, true)
        else (found.1, found.2)) (white, black)
      = (white || tokens.contains whiteKing, black || tokens.contains blackKing) := by
  induction tokens generalizing white black with
  | nil => simp
  | cons token tokens ih =>
      have hstep : (if token == whiteKing then (true, black)
          else if token == blackKing then (white, true) else (white, black))
          = (white || whiteKing == token, black || blackKing == token) := by
        by_cases hwhite : token = whiteKing
        · simp [hwhite, Ne.symm hne]
        · by_cases hblack : token = blackKing
          · simp [hblack, hne, Ne.symm hne]
          · simp [hwhite, hblack, Ne.symm hwhite, Ne.symm hblack]
      rw [List.foldl_cons, hstep, ih, List.contains_cons, List.contains_cons, Bool.or_assoc,
        Bool.or_assoc]

section Grid

variable {s : GameState} {color : PieceColor}

/-- A king of a colour that stands on the grid. -/
def KingOnGrid (s : GameState) (color : PieceColor) : Prop :=
  ∃ id p, s.board.findPieceById id = some p ∧ p.color = color ∧ p.kind = .king ∧ p.state = .idle

theorem kingOnGrid_iff (h : GameInv s) (color : PieceColor) :
    s.gridTokens.contains (toToken color .king) = true ↔ KingOnGrid s color := by
  rw [List.contains_iff_mem]
  simp only [GameState.gridTokens, List.mem_flatMap, List.mem_map, List.mem_range, GameState.tokenAt,
    BoardModel.tokenAt]
  constructor
  · intro h
    obtain ⟨row, -, col, -, htoken⟩ := h
    cases hp : s.board.pieceAt row col with
    | none =>
        rw [hp] at htoken
        exact absurd (congrArg List.length htoken) (by simp [toToken])
    | some p =>
        rw [hp] at htoken
        obtain ⟨hcolor, hkind⟩ := toToken_eq_king.mp htoken
        exact ⟨p.id, p, (h.located.pieceAt_eq_some_iff.mp hp).2, hcolor, hkind,
          (h.located.idle_of_pieceAt hp).1⟩
  · intro h
    obtain ⟨id, p, hp, hcolor, hkind, hidle⟩ := h
    obtain ⟨row, col, hcell⟩ := h.located.idle id p hp hidle
    obtain ⟨hrow, hcol⟩ := inBounds_of_cellId h.located.rect hcell
    refine ⟨row, hrow, col, hcol, ?_⟩
    have hid := h.located.idsInPlace id p hp
    rw [h.located.pieceAt_eq_some_iff.mpr ⟨by rw [hid, hcell], by rw [hid, hp]⟩]
    exact toToken_eq_king.mpr ⟨hcolor, hkind⟩

/-- The winner is the colour whose king alone stands on the grid. -/
theorem winningColor_eq_some_iff (h : GameInv s) (hover : s.isGameOver = true) :
    s.winningColor = some color ↔ KingOnGrid s color ∧ ∀ other, other ≠ color → ¬KingOnGrid s other := by
  have hwhite := kingOnGrid_iff h .white
  have hblack := kingOnGrid_iff h .black
  have hover' : s.gameOver = true := hover
  have hwinner : s.winningColor =
      if s.gridTokens.contains (toToken .white .king) && !s.gridTokens.contains (toToken .black .king)
        then some .white
      else if s.gridTokens.contains (toToken .black .king) && !s.gridTokens.contains (toToken .white .king)
        then some .black
      else none := by
    simp only [GameState.winningColor, hover', Bool.not_true, Bool.false_eq_true, if_false]
    rw [scan_eq (by decide), Bool.false_or, Bool.false_or]
  have hothers : ∀ opponent : PieceColor, opponent ≠ color →
      ((∀ other, other ≠ color → ¬KingOnGrid s other) ↔ ¬KingOnGrid s opponent) := by
    intro opponent hopponent
    refine ⟨fun hall => hall opponent hopponent, fun hno other hne => ?_⟩
    cases color <;> cases opponent <;> cases other <;> simp_all
  rw [hwinner]
  cases color with
  | white =>
      rw [hothers .black (by decide)]
      cases hw : s.gridTokens.contains (toToken .white .king) <;>
        cases hb : s.gridTokens.contains (toToken .black .king) <;> simp_all
  | black =>
      rw [hothers .white (by decide)]
      cases hw : s.gridTokens.contains (toToken .white .king) <;>
        cases hb : s.gridTokens.contains (toToken .black .king) <;> simp_all

end Grid

/-! ### The winner once a king has been captured -/

section Kings

variable {board : BoardModel} {actions : List GameAction} {s : GameState} {color : PieceColor}
  {id id' : Nat} {p p' : Piece}

theorem kingsOf_unique (hids : board.IdsInPlace) (hone : (kingsOf board color).length = 1)
    (hp : board.findPieceById id = some p) (hcolor : p.color = color) (hking : p.kind = .king)
    (hp' : board.findPieceById id' = some p') (hcolor' : p'.color = color) (hking' : p'.kind = .king) :
    id = id' := by
  obtain ⟨king, hkings⟩ := List.length_eq_one_iff.mp hone
  have hmem : ∀ {id : Nat} {p : Piece}, board.findPieceById id = some p → p.color = color →
      p.kind = .king → p = king := by
    intro id p hp hcolor hking
    have hin : p ∈ kingsOf board color :=
      List.mem_filter.mpr ⟨List.mem_of_getElem? (findPieceById_eq_some.mp hp).2, by simp [hcolor, hking]⟩
    rw [hkings] at hin
    exact List.mem_singleton.mp hin
  rw [← hids id p hp, ← hids id' p' hp', hmem hp hcolor hking, hmem hp' hcolor' hking']

/-- Along a game the kings stay who they are. -/
theorem king_unique (hboard : AcceptedBoard board) (hone : (kingsOf board color).length = 1)
    (hrun : (GameState.new board).runActions actions = .ok s)
    (hp : s.board.findPieceById id = some p) (hcolor : p.color = color) (hking : p.kind = .king)
    (hp' : s.board.findPieceById id' = some p') (hcolor' : p'.color = color) (hking' : p'.kind = .king) :
    id = id' := by
  obtain ⟨s', hs', hinv, hhistory⟩ := runActions_pieceHistory (gameInv_new hboard) actions
  rw [hrun] at hs'
  cases hs'
  have hstart : ∀ {id : Nat} {p : Piece}, s.board.findPieceById id = some p → p.color = color →
      p.kind = .king → ∃ q, board.findPieceById id = some q ∧ q.color = color ∧ q.kind = .king := by
    intro id p hp hcolor hking
    have hknown := hhistory.ids id
    rw [hp] at hknown
    obtain ⟨q, hq⟩ := Option.isSome_iff_exists.mp hknown.symm
    obtain ⟨hsame, -, hkind⟩ := hhistory.piece id q p hq hp
    refine ⟨q, hq, hsame.symm.trans hcolor, ?_⟩
    rcases hkind with hkind | ⟨-, hqueen⟩
    · rw [← hkind, hking]
    · rw [hking] at hqueen
      cases hqueen
  obtain ⟨q, hq, hqcolor, hqking⟩ := hstart hp hcolor hking
  obtain ⟨q', hq', hqcolor', hqking'⟩ := hstart hp' hcolor' hking'
  exact kingsOf_unique (gameInv_new hboard).located.idsInPlace hone hq hqcolor hqking hq' hqcolor' hqking'

/-- Once one of the two kings has been captured, the winner is the colour of the other exactly while that
king is on the grid. -/
theorem winningColor_iff_idle (hboard : AcceptedBoard board)
    (hkings : ∀ color, (kingsOf board color).length = 1)
    (hrun : (GameState.new board).runActions actions = .ok s) (hover : s.isGameOver = true)
    {lost kept : Nat} {fallen king : Piece} (hne : lost ≠ kept)
    (hlost : s.board.findPieceById lost = some fallen) (hfallen : fallen.kind = .king)
    (hcaptured : fallen.state = .captured) (hkept : s.board.findPieceById kept = some king)
    (hking : king.kind = .king) :
    s.winningColor = some king.color ↔ king.state = .idle := by
  obtain ⟨s', hs', hinv⟩ := runActions_inv (gameInv_new hboard) actions
  rw [hrun] at hs'
  cases hs'
  have hcolor : fallen.color ≠ king.color := by
    intro heq
    exact hne (king_unique hboard (hkings king.color) hrun hlost heq hfallen hkept rfl hking)
  rw [winningColor_eq_some_iff hinv hover]
  constructor
  · intro h
    obtain ⟨⟨id, q, hq, hqcolor, hqking, hidle⟩, -⟩ := h
    have hid := king_unique hboard (hkings king.color) hrun hq hqcolor hqking hkept rfl hking
    rw [hid, hkept] at hq
    cases hq
    exact hidle
  · intro hidle
    refine ⟨⟨kept, king, hkept, rfl, hking, hidle⟩, ?_⟩
    intro other hother h
    obtain ⟨id, q, hq, hqcolor, hqking, hqidle⟩ := h
    have hsame : fallen.color = other := by
      cases hf : fallen.color <;> cases hk : king.color <;> cases other <;> simp_all
    have hid := king_unique hboard (hkings other) hrun hq hqcolor hqking hlost hsame hfallen
    rw [hid, hlost] at hq
    cases hq
    rw [hcaptured] at hqidle
    cases hqidle

/-- Both kings and a white rook. -/
def kingsBoard : BoardModel :=
  ⟨[[some 1, none, some 2], [some 3, none, none]],
    [⟨1, .white, .rook, ⟨0, 0⟩, .idle⟩, ⟨2, .black, .king, ⟨0, 2⟩, .idle⟩,
      ⟨3, .white, .king, ⟨1, 0⟩, .idle⟩]⟩

theorem kingsBoard_accepted : AcceptedBoard kingsBoard :=
  ⟨["wR . bK".toList, "wK . .".toList], ⟨[], []⟩, by decide⟩

theorem kingsBoard_kings (color : PieceColor) : (kingsOf kingsBoard color).length = 1 := by
  cases color <;> decide

theorem winningColor_iff_idle_kings :
    ∃ s, (GameState.new kingsBoard).runActions [.select 0 0, .moveSelected 0 2, .advanceClock 1000] = .ok s ∧
      (s.winningColor = some .white ↔ PieceState.idle = .idle) := by
  have hrun : (fun s => (s.isGameOver, s.board.findPieceById 2, s.board.findPieceById 3)) <$>
      (GameState.new kingsBoard).runActions [.select 0 0, .moveSelected 0 2, .advanceClock 1000]
      = .ok (true, some ⟨2, .black, .king, ⟨0, 2⟩, .captured⟩,
          some ⟨3, .white, .king, ⟨1, 0⟩, .idle⟩) := by decide
  obtain ⟨s, hs, hshown⟩ := map_eq_ok.mp hrun
  simp only [Prod.mk.injEq] at hshown
  obtain ⟨hover, hlost, hkept⟩ := hshown
  exact ⟨s, hs, winningColor_iff_idle kingsBoard_accepted kingsBoard_kings hs hover (by decide) hlost rfl
    rfl hkept rfl⟩

/-- The white king is moving when the black king falls. -/
theorem winningColor_none_in_flight :
    AcceptedBoard kingsBoard ∧ (∀ color, (kingsOf kingsBoard color).length = 1) ∧
      ∃ s, (GameState.new kingsBoard).runActions [.select 0 0, .moveSelected 0 2, .advanceClock 500,
          .select 1 0, .moveSelected 1 1, .advanceClock 500] = .ok s ∧
        s.isGameOver = true ∧
        s.board.findPieceById 2 = some ⟨2, .black, .king, ⟨0, 2⟩, .captured⟩ ∧
        s.board.findPieceById 3 = some ⟨3, .white, .king, ⟨1, 0⟩, .moving⟩ ∧
        s.winningColor ≠ some .white := by
  refine ⟨kingsBoard_accepted, kingsBoard_kings, ?_⟩
  have hrun : (fun s => (s.isGameOver, s.board.findPieceById 2, s.board.findPieceById 3, s.winningColor)) <$>
      (GameState.new kingsBoard).runActions [.select 0 0, .moveSelected 0 2, .advanceClock 500,
        .select 1 0, .moveSelected 1 1, .advanceClock 500]
      = .ok (true, some ⟨2, .black, .king, ⟨0, 2⟩, .captured⟩,
          some ⟨3, .white, .king, ⟨1, 0⟩, .moving⟩, none) := by decide
  obtain ⟨s, hs, hshown⟩ := map_eq_ok.mp hrun
  simp only [Prod.mk.injEq] at hshown
  obtain ⟨hover, hlost, hkept, hwinner⟩ := hshown
  exact ⟨s, hs, hover, hlost, hkept, by rw [hwinner]; decide⟩

end Kings

end KungFuChess
