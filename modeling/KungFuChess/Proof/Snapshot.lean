import KungFuChess.Proof.Rules
import KungFuChess.Model.Snapshot
import Mathlib.Data.List.TakeWhile

/-!
# Snapshots are read as they were written

Every line of a snapshot is a list of words joined by single spaces, and `snapshotLines` is the whole
text as a list of such lists. The writer prints these lines; the reader splits the text into them again
and then takes them one by one, the header first, then the rows of the board, then the three sections of
animations.
-/

namespace KungFuChess

open Loops

/-! ### Lines and words -/

/-- A word of a line. -/
def IsWord (token : Text) : Prop := token ≠ [] ∧ ∀ c ∈ token, isSpace c = false

/-- The words of a line with single spaces between them. -/
def joinTokens : List Text → Text
  | [] => []
  | [token] => token
  | token :: next :: tokens => token ++ ' ' :: joinTokens (next :: tokens)

/-- The text of lines of words. -/
def linesText (lines : List (List Text)) : Text := lines.flatMap fun tokens => joinTokens tokens ++ ['\n']

theorem linesText_append (lines lines' : List (List Text)) :
    linesText (lines ++ lines') = linesText lines ++ linesText lines' := List.flatMap_append

instance (token : Text) : Decidable (IsWord token) :=
  @instDecidableAnd _ _ inferInstance (List.decidableBAll _ token)

theorem splitLinesFrom_line {line : Text} (hline : ∀ c ∈ line, c ≠ '\r' ∧ c ≠ '\n') (current rest : Text) :
    splitLinesFrom current (line ++ '\n' :: rest) = (current ++ line) :: splitLinesFrom [] rest := by
  induction line generalizing current with
  | nil => simp [splitLinesFrom]
  | cons c line ih =>
      obtain ⟨hreturn, hnewline⟩ := hline c List.mem_cons_self
      rw [List.cons_append, splitLinesFrom, if_neg hreturn, if_neg hnewline,
        ih fun c hc => hline c (List.mem_cons_of_mem _ hc), List.append_assoc, List.singleton_append]

theorem splitLines_flatMap (lines : List Text) (hlines : ∀ line ∈ lines, ∀ c ∈ line, c ≠ '\r' ∧ c ≠ '\n') :
    splitLines (lines.flatMap (· ++ ['\n'])) = lines := by
  induction lines with
  | nil => rfl
  | cons line lines ih =>
      rw [List.flatMap_cons, List.append_assoc, splitLines, List.singleton_append,
        splitLinesFrom_line (hlines line List.mem_cons_self), List.nil_append]
      exact congrArg (line :: ·) (ih fun line hline => hlines line (List.mem_cons_of_mem _ hline))

theorem splitFrom_word {token : Text} (htoken : ∀ c ∈ token, isSpace c = false) (current rest : Text) :
    splitFrom current (token ++ rest) = splitFrom (current ++ token) rest := by
  induction token generalizing current with
  | nil => simp
  | cons c token ih =>
      have hc := htoken c List.mem_cons_self
      rw [List.cons_append, splitFrom, hc, if_neg (by decide),
        ih fun c hc => htoken c (List.mem_cons_of_mem _ hc), List.append_assoc, List.singleton_append]

theorem splitTokens_joinTokens (tokens : List Text) (htokens : ∀ token ∈ tokens, IsWord token) :
    splitTokens (joinTokens tokens) = tokens := by
  induction tokens with
  | nil => rfl
  | cons token tokens ih =>
      obtain ⟨hne, hword⟩ := htokens token List.mem_cons_self
      have hrest := ih fun token htoken => htokens token (List.mem_cons_of_mem _ htoken)
      cases tokens with
      | nil =>
          have hsplit := splitFrom_word hword [] []
          rw [List.append_nil, List.nil_append] at hsplit
          rw [joinTokens, splitTokens, hsplit, splitFrom, List.isEmpty_eq_false_iff.mpr hne]
          rfl
      | cons next tokens =>
          rw [joinTokens, splitTokens, splitFrom_word hword, List.nil_append, splitFrom, if_pos (by decide),
            List.isEmpty_eq_false_iff.mpr hne, if_neg (by decide)]
          exact congrArg (token :: ·) hrest

theorem noBreak_of_isWord {tokens : List Text} (htokens : ∀ token ∈ tokens, IsWord token) :
    ∀ c ∈ joinTokens tokens, c ≠ '\r' ∧ c ≠ '\n' := by
  have hchar : ∀ {c : Char}, isSpace c = false → c ≠ '\r' ∧ c ≠ '\n' := by
    intro c hc
    constructor
    · intro h
      obtain rfl := h
      cases hc
    · intro h
      obtain rfl := h
      cases hc
  induction tokens with
  | nil => exact fun c hc => absurd hc List.not_mem_nil
  | cons token tokens ih =>
      have hword := (htokens token List.mem_cons_self).2
      have hrest := ih fun token htoken => htokens token (List.mem_cons_of_mem _ htoken)
      intro c hc
      cases tokens with
      | nil => exact hchar (hword c hc)
      | cons next tokens =>
          rcases List.mem_append.mp hc with hin | hin
          · exact hchar (hword c hin)
          rcases List.mem_cons.mp hin with rfl | hin
          · decide
          · exact hrest c hin

/-- What is written line by line is split into the same lines of words. -/
theorem splitLines_linesText (lines : List (List Text))
    (hlines : ∀ tokens ∈ lines, ∀ token ∈ tokens, IsWord token) :
    splitLines (linesText lines) = lines.map joinTokens := by
  have hsplit := splitLines_flatMap (lines.map joinTokens) (by
    intro line hline
    obtain ⟨tokens, htokens, rfl⟩ := List.mem_map.mp hline
    exact noBreak_of_isWord (hlines tokens htokens))
  rwa [List.flatMap_map] at hsplit

/-! ### Numbers -/

theorem le_ofDigitChars (digits : Text) (value : Nat) : value ≤ Nat.ofDigitChars 10 digits value := by
  induction digits generalizing value with
  | nil => simp
  | cons c digits ih =>
      rw [Nat.ofDigitChars_cons]
      have hnext := ih (10 * value + (c.toNat - '0'.toNat))
      omega

/-- The value of the digits that a token starts with. -/
def leadingValue (token : Text) : Nat := Nat.ofDigitChars 10 (token.takeWhile Char.isDigit) 0

/-- The digits that a token starts with can be read without an overflow. -/
def fitsInt64 (token : Text) : Bool := decide (leadingValue token < 2 ^ 63)

def isNumber (token : Text) : Bool := !token.isEmpty && token.all Char.isDigit

theorem parseDigits_eq (token : Text) {value : Nat} (hvalue : value < 2 ^ 63) :
    parseDigits value token =
      if Nat.ofDigitChars 10 (token.takeWhile Char.isDigit) value < 2 ^ 63 then
        .ok (if token.all Char.isDigit then some (Nat.ofDigitChars 10 (token.takeWhile Char.isDigit) value)
          else none)
      else .error .signedOverflow := by
  induction token generalizing value with
  | nil =>
      rw [List.takeWhile_nil, Nat.ofDigitChars_nil, if_pos hvalue]
      rfl
  | cons c token ih =>
      by_cases hdigit : c.isDigit = true
      · have hstep := le_ofDigitChars (token.takeWhile Char.isDigit) (10 * value + (c.toNat - '0'.toNat))
        have hnext : value * 10 + (c.toNat - '0'.toNat) = 10 * value + (c.toNat - '0'.toNat) := by omega
        rw [parseDigits, List.takeWhile_cons_of_pos hdigit, Nat.ofDigitChars_cons, List.all_cons, hdigit]
        dsimp only
        rw [Bool.true_and, if_neg (by decide), hnext]
        split
        · rw [if_neg (by omega)]
        · rename_i hfits
          exact ih (by omega)
      · rw [parseDigits, List.takeWhile_cons_of_neg hdigit, Nat.ofDigitChars_nil, if_pos hvalue]
        simp [hdigit]

/-- `parse_int64` stops at the first character that is not a digit, unless the digits before it have
overflowed already. -/
theorem parseInt64_eq (token : Text) :
    parseInt64 token =
      if fitsInt64 token then .ok (if isNumber token then some (leadingValue token) else none)
      else .error .signedOverflow := by
  cases token with
  | nil => rfl
  | cons c token =>
      have hparse := parseDigits_eq (c :: token) (show 0 < 2 ^ 63 by decide)
      simp only [fitsInt64, isNumber, decide_eq_true_eq]
      exact hparse

theorem isDigit_of_mem_decimal {n : Nat} {c : Char} (hc : c ∈ decimal n) : c.isDigit = true :=
  Nat.isDigit_of_mem_toDigits (by decide) (by decide) hc

theorem notMem_decimal {c : Char} (hdigit : c.isDigit = false) (n : Nat) : c ∉ decimal n := by
  intro hc
  rw [isDigit_of_mem_decimal hc] at hdigit
  cases hdigit

theorem isSpace_of_isDigit {c : Char} (hc : c.isDigit = true) : isSpace c = false := by
  by_contra hspace
  simp only [isSpace, Bool.not_eq_false, Bool.or_eq_true, decide_eq_true_eq] at hspace
  rcases hspace with ((((rfl | rfl) | rfl) | rfl) | rfl) | rfl <;> cases hc

theorem isWord_decimal (n : Nat) : IsWord (decimal n) :=
  ⟨Nat.toDigits_ne_nil, fun _ hc => isSpace_of_isDigit (isDigit_of_mem_decimal hc)⟩

theorem parseInt64_decimal {n : Nat} (hfits : n < 2 ^ 63) : parseInt64 (decimal n) = .ok (some n) := by
  have hvalue : leadingValue (decimal n) = n := by
    rw [leadingValue, List.takeWhile_eq_self_iff.mpr fun c hc => isDigit_of_mem_decimal hc]
    exact Nat.ofDigitChars_ten_toDigits
  have hnumber : isNumber (decimal n) = true := by
    rw [isNumber, List.isEmpty_eq_false_iff.mpr (isWord_decimal n).1,
      List.all_eq_true.mpr fun c hc => isDigit_of_mem_decimal hc]
    rfl
  rw [parseInt64_eq, fitsInt64, hvalue, hnumber, decide_eq_true hfits]
  rfl

theorem parsePieceId_decimal (id : UInt32) : parsePieceId (decimal id.toNat) = .ok (some id) := by
  have hfits : id.toNat < 2 ^ 63 := Nat.lt_trans id.toNat_lt (by decide)
  rw [parsePieceId, parseInt64_decimal hfits, ok_bind]
  simp

/-! ### The lines of a view -/

section View

variable {F : Type} (floats : FloatText F) {view : BoardViewModel F}

def moveTokens (move : ActiveMoveSnapshot F) : List Text :=
  ["move".toList, "piece_id".toList, decimal move.pieceId.toNat, "piece".toList,
    toToken move.color move.kind, "from".toList, decimal move.fromRow, decimal move.fromCol, "to".toList,
    decimal move.toRow, decimal move.toCol, "progress".toList, floats.print move.progress]

def jumpTokens (jump : ActiveJumpSnapshot F) : List Text :=
  ["jump".toList, "piece_id".toList, decimal jump.pieceId.toNat, "piece".toList,
    toToken jump.color jump.kind, "row".toList, decimal jump.row, decimal jump.col, "progress".toList,
    floats.print jump.progress]

def restTokens (rest : ActiveRestSnapshot F) : List Text :=
  ["rest".toList, "piece_id".toList, decimal rest.pieceId.toNat, "row".toList, decimal rest.row,
    decimal rest.col, "kind".toList, restKindToken rest.kind, "progress".toList,
    floats.print rest.progress]

def headerTokens (view : BoardViewModel F) : List (List Text) :=
  [["clock_ms".toList, signedDecimal view.clockMs],
    ["game_over".toList, if view.gameOver then "true".toList else "false".toList],
    ["height".toList, decimal view.height], ["width".toList, decimal view.width]]
  ++ (match view.selection with
    | some (row, col) => [["selection".toList, decimal row, decimal col]]
    | none => [])

def rowTokens (view : BoardViewModel F) (row : Nat) : List Text :=
  (List.range view.width).map fun col => writeCellToken (boardViewCellAt view row col)

def animationTokens (animations : AnimationSnapshot F) : List (List Text) :=
  [["animations".toList], ["moves".toList]] ++ animations.moves.map (moveTokens floats)
    ++ [["jumps".toList]] ++ animations.jumps.map (jumpTokens floats)
    ++ [["rests".toList]] ++ animations.rests.map (restTokens floats)

def snapshotLines (view : BoardViewModel F) : List (List Text) :=
  [["snapshot".toList]] ++ headerTokens view ++ [["cells".toList]]
    ++ (List.range view.height).map (rowTokens view) ++ animationTokens floats view.animations

/-! ### The writer prints these lines -/

theorem joinTokens_concat {tokens : List Text} (hne : tokens ≠ []) (token : Text) :
    joinTokens (tokens ++ [token]) = joinTokens tokens ++ ' ' :: token := by
  induction tokens with
  | nil => exact absurd rfl hne
  | cons first tokens ih =>
      cases tokens with
      | nil => rfl
      | cons next tokens =>
          have hrest := ih (List.cons_ne_nil next tokens)
          simp only [List.cons_append] at hrest ⊢
          rw [joinTokens, joinTokens, hrest, List.append_assoc, List.cons_append]

theorem joinTokens_map_range (cell : Nat → Text) (width : Nat) :
    (List.range width).flatMap (fun col => (if col > 0 then [' '] else []) ++ cell col)
      = joinTokens ((List.range width).map cell) := by
  induction width with
  | zero => rfl
  | succ width ih =>
      rw [List.range_succ, List.flatMap_append, ih, List.map_append, List.flatMap_singleton]
      cases width with
      | zero => rfl
      | succ width =>
          rw [List.map_singleton, joinTokens_concat (by simp), if_pos (Nat.succ_pos width)]
          rfl

theorem writeCells_eq (hheight : 1 ≤ view.height) :
    writeCells view ++ ['\n'] = linesText ((List.range view.height).map (rowTokens view)) := by
  obtain ⟨height, hheight⟩ : ∃ height, view.height = height + 1 := ⟨view.height - 1, by omega⟩
  have hrow : ∀ row, writeRow view row = joinTokens (rowTokens view row) :=
    fun row => joinTokens_map_range _ view.width
  simp only [writeCells, linesText, hheight, List.flatMap_map, List.range_succ, List.flatMap_append,
    List.flatMap_singleton, hrow]
  have hinit : (List.range height).flatMap (fun row =>
        joinTokens (rowTokens view row) ++ if row + 1 < height + 1 then ['\n'] else [])
      = (List.range height).flatMap fun row => joinTokens (rowTokens view row) ++ ['\n'] := by
    refine List.flatMap_congr fun row hrow => ?_
    rw [if_pos (Nat.succ_lt_succ (List.mem_range.mp hrow))]
  rw [hinit, if_neg (by omega), List.append_nil, List.append_assoc]

theorem writeMoveSnapshot_eq (move : ActiveMoveSnapshot F) :
    writeMoveSnapshot floats move = joinTokens (moveTokens floats move) ++ ['\n'] := by
  have hmove : "move piece_id ".toList = "move".toList ++ ' ' :: "piece_id".toList ++ [' '] := by decide
  have hpiece : " piece ".toList = ' ' :: "piece".toList ++ [' '] := by decide
  have hfrom : " from ".toList = ' ' :: "from".toList ++ [' '] := by decide
  have hto : " to ".toList = ' ' :: "to".toList ++ [' '] := by decide
  have hprogress : " progress ".toList = ' ' :: "progress".toList ++ [' '] := by decide
  unfold writeMoveSnapshot moveTokens
  simp only [hmove, hpiece, hfrom, hto, hprogress]
  simp only [joinTokens, List.append_assoc, List.cons_append, List.nil_append]

theorem writeJumpSnapshot_eq (jump : ActiveJumpSnapshot F) :
    writeJumpSnapshot floats jump = joinTokens (jumpTokens floats jump) ++ ['\n'] := by
  have hjump : "jump piece_id ".toList = "jump".toList ++ ' ' :: "piece_id".toList ++ [' '] := by decide
  have hpiece : " piece ".toList = ' ' :: "piece".toList ++ [' '] := by decide
  have hrow : " row ".toList = ' ' :: "row".toList ++ [' '] := by decide
  have hprogress : " progress ".toList = ' ' :: "progress".toList ++ [' '] := by decide
  unfold writeJumpSnapshot jumpTokens
  simp only [hjump, hpiece, hrow, hprogress]
  simp only [joinTokens, List.append_assoc, List.cons_append, List.nil_append]

theorem writeRestSnapshot_eq (rest : ActiveRestSnapshot F) :
    writeRestSnapshot floats rest = joinTokens (restTokens floats rest) ++ ['\n'] := by
  have hrest : "rest piece_id ".toList = "rest".toList ++ ' ' :: "piece_id".toList ++ [' '] := by decide
  have hrow : " row ".toList = ' ' :: "row".toList ++ [' '] := by decide
  have hkind : " kind ".toList = ' ' :: "kind".toList ++ [' '] := by decide
  have hprogress : " progress ".toList = ' ' :: "progress".toList ++ [' '] := by decide
  unfold writeRestSnapshot restTokens
  simp only [hrest, hrow, hkind, hprogress]
  simp only [joinTokens, List.append_assoc, List.cons_append, List.nil_append]

theorem linesText_map {α : Type} (tokensOf : α → List Text) (write : α → Text)
    (hwrite : ∀ x, write x = joinTokens (tokensOf x) ++ ['\n']) (items : List α) :
    linesText (items.map tokensOf) = items.flatMap write := by
  rw [linesText, List.flatMap_map, funext hwrite]

theorem linesText_header (view : BoardViewModel F) :
    linesText (headerTokens view)
      = "clock_ms ".toList ++ signedDecimal view.clockMs ++ ['\n']
        ++ "game_over ".toList ++ (if view.gameOver then "true".toList else "false".toList) ++ ['\n']
        ++ "height ".toList ++ decimal view.height ++ ['\n']
        ++ "width ".toList ++ decimal view.width ++ ['\n']
        ++ writeSelection view.selection := by
  have hclock : "clock_ms ".toList = "clock_ms".toList ++ [' '] := by decide
  have hover : "game_over ".toList = "game_over".toList ++ [' '] := by decide
  have hheight : "height ".toList = "height".toList ++ [' '] := by decide
  have hwidth : "width ".toList = "width".toList ++ [' '] := by decide
  have hselection : "selection ".toList = "selection".toList ++ [' '] := by decide
  unfold headerTokens writeSelection
  simp only [hclock, hover, hheight, hwidth, hselection]
  cases view.selection with
  | none =>
      simp only [linesText, joinTokens, List.flatMap_cons, List.flatMap_nil, List.append_assoc,
        List.cons_append, List.nil_append, List.append_nil]
  | some cell =>
      simp only [linesText, joinTokens, List.flatMap_cons, List.flatMap_nil, List.append_assoc,
        List.cons_append, List.nil_append, List.append_nil]

theorem writeSnapshot_eq (hheight : 1 ≤ view.height) :
    writeSnapshot floats view = linesText (snapshotLines floats view) := by
  have hsnapshot : "snapshot\n".toList = linesText [["snapshot".toList]] := by decide
  have hcells : "cells\n".toList = linesText [["cells".toList]] := by decide
  have hanimations : "\nanimations\nmoves\n".toList
      = ['\n'] ++ linesText [["animations".toList], ["moves".toList]] := by decide
  have hjumps : "jumps\n".toList = linesText [["jumps".toList]] := by decide
  have hrests : "rests\n".toList = linesText [["rests".toList]] := by decide
  have hheader := linesText_header view
  have hrows := writeCells_eq hheight
  unfold writeSnapshot snapshotLines animationTokens
  simp only [hsnapshot, hcells, hanimations, hjumps, hrests]
  simp only [linesText_append, linesText_map _ _ (writeMoveSnapshot_eq floats),
    linesText_map _ _ (writeJumpSnapshot_eq floats), linesText_map _ _ (writeRestSnapshot_eq floats)]
  rw [hheader, ← hrows]
  simp only [List.append_assoc]

/-! ### The views that can be sent -/

/-- The token of a value is a word, and `strtof` reads the value back from all of it. -/
def FloatText.RoundTrips (value : F) : Prop :=
  IsWord (floats.print value) ∧
    floats.strtof (floats.print value) = (value, (floats.print value).length)

/-- A view of a board that a vector can hold, with numbers that `parse_int64` can read. -/
structure BoardViewModel.Sendable (view : BoardViewModel F) : Prop where
  height : 1 ≤ view.height
  width : 1 ≤ view.width
  cells : view.cells.length = view.height * view.width
  storable : view.cells.length ≤ kMaxCells
  clock : 0 ≤ view.clockMs ∧ view.clockMs < 2 ^ 63
  selection : ∀ row col, view.selection = some (row, col) → row < 2 ^ 63 ∧ col < 2 ^ 63
  moves : ∀ move ∈ view.animations.moves, move.fromRow < 2 ^ 63 ∧ move.fromCol < 2 ^ 63 ∧
    move.toRow < 2 ^ 63 ∧ move.toCol < 2 ^ 63 ∧ floats.RoundTrips move.progress
  jumps : ∀ jump ∈ view.animations.jumps, jump.row < 2 ^ 63 ∧ jump.col < 2 ^ 63 ∧
    floats.RoundTrips jump.progress
  rests : ∀ rest ∈ view.animations.rests, rest.row < 2 ^ 63 ∧ rest.col < 2 ^ 63 ∧
    floats.RoundTrips rest.progress

/-- No piece of the view has the kind that only counts the kinds. -/
structure BoardViewModel.Playable (view : BoardViewModel F) : Prop where
  cells : ∀ cell ∈ view.cells, ∀ piece, cell.piece = some piece → piece.kind ≠ .count
  moves : ∀ move ∈ view.animations.moves, move.kind ≠ .count
  jumps : ∀ jump ∈ view.animations.jumps, jump.kind ≠ .count

/-! ### Words -/

theorem isWord_toToken (color : PieceColor) (kind : PieceKind) : IsWord (toToken color kind) := by
  cases color <;> cases kind <;> decide

theorem isWord_writeCellToken (cell : CellView) : IsWord (writeCellToken cell) := by
  unfold writeCellToken
  split
  · exact isWord_toToken _ _
  · decide

theorem isWord_restKindToken (kind : RestKind) : IsWord (restKindToken kind) := by
  cases kind <;> decide

theorem descriptorFromToken_playable (color : PieceColor) {kind : PieceKind} (hkind : kind ≠ .count) :
    descriptorFromToken (toToken color kind) = some ⟨color, kind⟩ := by
  cases kind
  case count => exact absurd rfl hkind
  all_goals cases color <;> decide

theorem parseCellToken_write {cell : CellView}
    (hkind : ∀ piece, cell.piece = some piece → piece.kind ≠ .count) :
    parseCellToken (writeCellToken cell) = some cell := by
  obtain ⟨piece⟩ := cell
  cases piece with
  | none => decide
  | some piece =>
      have hvalid : isValidToken (toToken piece.color piece.kind) = true := by
        cases piece.color <;> cases piece.kind <;> decide
      simp only [writeCellToken, parseCellToken, hvalid, descriptorFromToken_playable _ (hkind piece rfl)]
      rfl

theorem parseFloat_print {value : F} (h : floats.RoundTrips value) :
    parseFloat floats (floats.print value) = some value := by
  simp only [parseFloat, List.isEmpty_eq_false_iff.mpr h.1.1, h.2]
  simp

/-! ### The header -/

theorem isWord_labelled {label : Text} (hlabel : IsWord label) (n : Nat) : ∀ token ∈ [label, decimal n], IsWord token := by
  simp only [List.forall_mem_cons, List.not_mem_nil, false_imp_iff, implies_true, and_true]
  exact ⟨hlabel, isWord_decimal n⟩

-- The equations are made here, once, and not by all the lemmas below that ask for them at a time.
section

attribute [local simp] readHeader

end

theorem readHeader_clockMs (view : BoardViewModel F) (lines : List Text) {n : Nat} (hfits : n < 2 ^ 63) :
    readHeader view (joinTokens ["clock_ms".toList, decimal n] :: lines)
      = readHeader { view with clockMs := n } lines := by
  rw [readHeader, splitTokens_joinTokens _ (isWord_labelled (by decide) n)]
  dsimp only
  rw [if_neg (by decide), if_pos rfl, parseInt64_decimal hfits, ok_bind]

theorem readHeader_gameOver (view : BoardViewModel F) (lines : List Text) (gameOver : Bool) :
    readHeader view
        (joinTokens ["game_over".toList, if gameOver then "true".toList else "false".toList] :: lines)
      = readHeader { view with gameOver } lines := by
  have hwords : ∀ token ∈ ["game_over".toList, if gameOver then "true".toList else "false".toList],
      IsWord token := by
    cases gameOver <;> decide
  have hbool : parseBool (if gameOver then "true".toList else "false".toList) = some gameOver := by
    cases gameOver <;> decide
  rw [readHeader, splitTokens_joinTokens _ hwords]
  dsimp only
  rw [if_neg (by decide), if_neg (by decide), if_pos rfl, hbool]

theorem readHeader_height (view : BoardViewModel F) (lines : List Text) {n : Nat} (hfits : n < 2 ^ 63) :
    readHeader view (joinTokens ["height".toList, decimal n] :: lines)
      = readHeader { view with height := n } lines := by
  rw [readHeader, splitTokens_joinTokens _ (isWord_labelled (by decide) n)]
  dsimp only
  rw [if_neg (by decide), if_neg (by decide), if_neg (by decide), if_pos rfl, parseNonNegativeSize,
    parseInt64_decimal hfits, ok_bind]

theorem readHeader_width (view : BoardViewModel F) (lines : List Text) {n : Nat} (hfits : n < 2 ^ 63) :
    readHeader view (joinTokens ["width".toList, decimal n] :: lines)
      = readHeader { view with width := n } lines := by
  rw [readHeader, splitTokens_joinTokens _ (isWord_labelled (by decide) n)]
  dsimp only
  rw [if_neg (by decide), if_neg (by decide), if_neg (by decide), if_neg (by decide), if_pos rfl,
    parseNonNegativeSize, parseInt64_decimal hfits, ok_bind]

theorem readHeader_selection (view : BoardViewModel F) (lines : List Text) {row col : Nat}
    (hrow : row < 2 ^ 63) (hcol : col < 2 ^ 63) :
    readHeader view (joinTokens ["selection".toList, decimal row, decimal col] :: lines)
      = readHeader { view with selection := some (row, col) } lines := by
  have hwords : ∀ token ∈ ["selection".toList, decimal row, decimal col], IsWord token := by
    simp only [List.forall_mem_cons, List.not_mem_nil, false_imp_iff, implies_true, and_true]
    exact ⟨by decide, isWord_decimal row, isWord_decimal col⟩
  rw [readHeader, splitTokens_joinTokens _ hwords]
  dsimp only
  rw [if_neg (by decide), if_neg (by decide), if_neg (by decide), if_neg (by decide), if_neg (by decide),
    if_pos rfl, parseNonNegativeSize, parseInt64_decimal hrow, ok_bind, parseNonNegativeSize,
    parseInt64_decimal hcol, ok_bind]

theorem readHeader_cells (view : BoardViewModel F) (lines : List Text) :
    readHeader view (joinTokens ["cells".toList] :: lines) = .ok (some (view, lines)) := by
  rw [readHeader, splitTokens_joinTokens _ (by decide)]
  dsimp only
  rw [if_pos rfl]
  rfl

/-- The board of the view, before its cells are read. -/
def BoardViewModel.header (view : BoardViewModel F) : BoardViewModel F :=
  { view with cells := [], animations := {} }

theorem readHeader_view (hview : view.Sendable floats) (lines : List Text) :
    readHeader {} ((headerTokens view ++ [["cells".toList]]).map joinTokens ++ lines)
      = .ok (some (view.header, lines)) := by
  have hbound : view.height * view.width < 2 ^ 63 := by
    have hstorable := hview.storable
    rw [hview.cells, kMaxCells] at hstorable
    omega
  have hheight : view.height < 2 ^ 63 :=
    Nat.lt_of_le_of_lt (Nat.le_mul_of_pos_right _ hview.width) hbound
  have hwidth : view.width < 2 ^ 63 :=
    Nat.lt_of_le_of_lt (Nat.le_mul_of_pos_left _ hview.height) hbound
  have hclock : signedDecimal view.clockMs = decimal view.clockMs.natAbs :=
    if_neg (Int.not_lt.mpr hview.clock.1)
  have hclockFits : view.clockMs.natAbs < 2 ^ 63 := by
    have hclock := hview.clock
    omega
  have hclockMs : (view.clockMs.natAbs : Int) = view.clockMs := by
    have hclock := hview.clock
    omega
  unfold headerTokens
  rw [hclock]
  cases hselection : view.selection with
  | none =>
      simp only [List.cons_append, List.nil_append, List.append_nil, List.map_cons, List.map_nil]
      rw [readHeader_clockMs _ _ hclockFits, readHeader_gameOver, readHeader_height _ _ hheight,
        readHeader_width _ _ hwidth, readHeader_cells, hclockMs, BoardViewModel.header, hselection]
  | some cell =>
      obtain ⟨hrow, hcol⟩ := hview.selection cell.1 cell.2 hselection
      simp only [List.cons_append, List.nil_append, List.map_cons, List.map_nil]
      rw [readHeader_clockMs _ _ hclockFits, readHeader_gameOver, readHeader_height _ _ hheight,
        readHeader_width _ _ hwidth, readHeader_selection _ _ hrow hcol, readHeader_cells, hclockMs,
        BoardViewModel.header, hselection]

/-! ### The rows -/

theorem mapM_parseCellToken (row : List CellView)
    (hkinds : ∀ cell ∈ row, ∀ piece, cell.piece = some piece → piece.kind ≠ .count) :
    (row.map writeCellToken).mapM parseCellToken = some row := by
  induction row with
  | nil => rfl
  | cons cell row ih =>
      rw [List.map_cons, List.mapM_cons, parseCellToken_write (hkinds cell List.mem_cons_self),
        ih fun cell hcell => hkinds cell (List.mem_cons_of_mem _ hcell)]
      rfl

theorem readRows_lines (width : Nat) (rows : List (List CellView))
    (hwidth : ∀ row ∈ rows, row.length = width)
    (hkinds : ∀ row ∈ rows, ∀ cell ∈ row, ∀ piece, cell.piece = some piece → piece.kind ≠ .count)
    (lines : List Text) (cells : List CellView) :
    readRows width rows.length (rows.map (fun row => joinTokens (row.map writeCellToken)) ++ lines) cells
      = some (cells ++ rows.flatten, lines) := by
  induction rows generalizing cells with
  | nil => rw [List.flatten_nil, List.append_nil]; rfl
  | cons row rows ih =>
      have hwords : ∀ token ∈ row.map writeCellToken, IsWord token := by
        intro token htoken
        obtain ⟨cell, -, rfl⟩ := List.mem_map.mp htoken
        exact isWord_writeCellToken cell
      have hlength := hwidth row List.mem_cons_self
      rw [List.length_cons, List.map_cons, List.cons_append, readRows, splitTokens_joinTokens _ hwords]
      rw [if_neg (by rw [List.length_map, hlength]; exact fun hne => hne rfl),
        mapM_parseCellToken row (hkinds row List.mem_cons_self)]
      dsimp only
      rw [ih (fun row hrow => hwidth row (List.mem_cons_of_mem _ hrow))
        (fun row hrow => hkinds row (List.mem_cons_of_mem _ hrow)), List.append_assoc, List.flatten_cons]

/-- A list cut into rows. -/
theorem flatMap_rows {α : Type} (default : α) (height width : Nat) (xs : List α)
    (hlength : xs.length = height * width) :
    (List.range height).flatMap (fun row =>
      (List.range width).map fun col => (xs[row * width + col]?).getD default) = xs := by
  induction height generalizing xs with
  | zero =>
      rw [Nat.zero_mul, List.length_eq_zero_iff] at hlength
      rw [hlength]
      rfl
  | succ height ih =>
      have hfirst : (List.range width).map (fun col => (xs[0 * width + col]?).getD default)
          = xs.take width := by
        have hle : width ≤ xs.length := by
          rw [hlength, Nat.succ_mul]
          omega
        refine List.ext_getElem (by simp [hle]) fun col hcol hcol' => ?_
        have hlt : col < xs.length := by
          rw [List.length_map, List.length_range] at hcol
          omega
        simp [hlt]
      have hrest := ih (xs.drop width) (by rw [List.length_drop, hlength, Nat.succ_mul]; omega)
      have hshift : ∀ row col, (xs.drop width)[row * width + col]? = xs[row.succ * width + col]? := by
        intro row col
        rw [List.getElem?_drop, Nat.succ_mul]
        exact congrArg (fun i => xs[i]?) (by omega)
      simp only [hshift] at hrest
      rw [List.range_succ_eq_map, List.flatMap_cons, hfirst, List.flatMap_map, hrest, List.take_append_drop]

theorem rows_flatten (hview : view.Sendable floats) :
    ((List.range view.height).map fun row => (List.range view.width).map (boardViewCellAt view row)).flatten
      = view.cells := by
  rw [← List.flatMap_def]
  refine (List.flatMap_congr fun row hrow => ?_).trans
    (flatMap_rows {} view.height view.width view.cells hview.cells)
  refine List.map_congr_left fun col hcol => ?_
  have hrow' := List.mem_range.mp hrow
  have hcol' := List.mem_range.mp hcol
  rw [boardViewCellAt, if_neg (by omega), boardViewCellIndex]

theorem readRows_view (hview : view.Sendable floats) (hplayable : view.Playable) (lines : List Text) :
    readRows view.width view.height
        (((List.range view.height).map (rowTokens view)).map joinTokens ++ lines) []
      = some (view.cells, lines) := by
  have hread := readRows_lines view.width
    ((List.range view.height).map fun row => (List.range view.width).map (boardViewCellAt view row))
    ?_ ?_ lines []
  · rw [rows_flatten floats hview, List.length_map, List.length_range, List.map_map, List.nil_append] at hread
    rw [← hread, List.map_map]
    refine congrArg (fun rows => readRows view.width view.height (rows ++ lines) []) ?_
    refine List.map_congr_left fun row _ => ?_
    simp only [Function.comp_apply, rowTokens, List.map_map]
    rfl
  · intro row hrow
    obtain ⟨index, -, rfl⟩ := List.mem_map.mp hrow
    rw [List.length_map, List.length_range]
  · intro row hrow cell hcell
    refine hplayable.cells cell ?_
    rw [← rows_flatten floats hview]
    exact List.mem_flatten.mpr ⟨row, hrow, hcell⟩

/-! ### The sections -/

theorem isWord_moveTokens {move : ActiveMoveSnapshot F} (h : floats.RoundTrips move.progress) :
    ∀ token ∈ moveTokens floats move, IsWord token := by
  simp only [moveTokens, List.forall_mem_cons, List.not_mem_nil, false_imp_iff, implies_true, and_true]
  exact ⟨by decide, by decide, isWord_decimal _, by decide, isWord_toToken _ _, by decide, isWord_decimal _,
    isWord_decimal _, by decide, isWord_decimal _, isWord_decimal _, by decide, h.1⟩

theorem isWord_jumpTokens {jump : ActiveJumpSnapshot F} (h : floats.RoundTrips jump.progress) :
    ∀ token ∈ jumpTokens floats jump, IsWord token := by
  simp only [jumpTokens, List.forall_mem_cons, List.not_mem_nil, false_imp_iff, implies_true, and_true]
  exact ⟨by decide, by decide, isWord_decimal _, by decide, isWord_toToken _ _, by decide, isWord_decimal _,
    isWord_decimal _, by decide, h.1⟩

theorem isWord_restTokens {rest : ActiveRestSnapshot F} (h : floats.RoundTrips rest.progress) :
    ∀ token ∈ restTokens floats rest, IsWord token := by
  simp only [restTokens, List.forall_mem_cons, List.not_mem_nil, false_imp_iff, implies_true, and_true]
  exact ⟨by decide, by decide, isWord_decimal _, by decide, isWord_decimal _, isWord_decimal _, by decide,
    isWord_restKindToken _, by decide, h.1⟩

theorem parseMoveLine_tokens {move : ActiveMoveSnapshot F} (hkind : move.kind ≠ .count)
    (hfits : move.fromRow < 2 ^ 63 ∧ move.fromCol < 2 ^ 63 ∧ move.toRow < 2 ^ 63 ∧ move.toCol < 2 ^ 63 ∧
      floats.RoundTrips move.progress) :
    parseMoveLine floats (moveTokens floats move) = .ok (some move) := by
  obtain ⟨hfromRow, hfromCol, htoRow, htoCol, hprogress⟩ := hfits
  unfold moveTokens parseMoveLine parseNonNegativeSize
  dsimp only
  rw [if_neg (by decide), parsePieceId_decimal, ok_bind, parseInt64_decimal hfromRow, ok_bind,
    parseInt64_decimal hfromCol, ok_bind, parseInt64_decimal htoRow, ok_bind, parseInt64_decimal htoCol,
    ok_bind, descriptorFromToken_playable _ hkind, parseFloat_print floats hprogress]
  rfl

theorem parseJumpLine_tokens {jump : ActiveJumpSnapshot F} (hkind : jump.kind ≠ .count)
    (hfits : jump.row < 2 ^ 63 ∧ jump.col < 2 ^ 63 ∧ floats.RoundTrips jump.progress) :
    parseJumpLine floats (jumpTokens floats jump) = .ok (some jump) := by
  obtain ⟨hrow, hcol, hprogress⟩ := hfits
  unfold jumpTokens parseJumpLine parseNonNegativeSize
  dsimp only
  rw [if_neg (by decide), parsePieceId_decimal, ok_bind, parseInt64_decimal hrow, ok_bind,
    parseInt64_decimal hcol, ok_bind, descriptorFromToken_playable _ hkind, parseFloat_print floats hprogress]
  rfl

theorem parseRestLine_tokens {rest : ActiveRestSnapshot F}
    (hfits : rest.row < 2 ^ 63 ∧ rest.col < 2 ^ 63 ∧ floats.RoundTrips rest.progress) :
    parseRestLine floats (restTokens floats rest) = .ok (some rest) := by
  obtain ⟨hrow, hcol, hprogress⟩ := hfits
  have hkind : parseRestKind (restKindToken rest.kind) = some rest.kind := by
    cases rest.kind <;> decide
  unfold restTokens parseRestLine parseNonNegativeSize
  dsimp only
  rw [if_neg (by decide), parsePieceId_decimal, ok_bind, parseInt64_decimal hrow, ok_bind,
    parseInt64_decimal hcol, ok_bind, hkind, parseFloat_print floats hprogress]
  rfl

/-- The line of an item is read as the item. -/
structure LineReads {S : Type} (parseLine : List Text → Reading (Option S)) (tokens : List Text)
    (item : S) : Prop where
  words : ∀ token ∈ tokens, IsWord token
  long : 2 ≤ tokens.length
  parse : parseLine tokens = .ok (some item)

section Sections

variable {S : Type} {sectionName nextSectionName : Text} {parseLine : List Text → Reading (Option S)}
  {tokensOf : S → List Text} {items : List S}

theorem parseSectionLines_lines (nextSectionName : Text)
    (hitems : ∀ item ∈ items, LineReads parseLine (tokensOf item) item) (destination : List S) (lines : List Text) :
    parseSectionLines nextSectionName parseLine destination ((items.map tokensOf).map joinTokens ++ lines)
      = parseSectionLines nextSectionName parseLine (destination ++ items) lines := by
  induction items generalizing destination with
  | nil => rw [List.append_nil]; rfl
  | cons item items ih =>
      obtain ⟨hwords, hlong, hparse⟩ := hitems item List.mem_cons_self
      have hsome : (tokensOf item).isEmpty = false := by
        rw [List.isEmpty_eq_false_iff]
        exact List.ne_nil_of_length_pos (by omega)
      have hmarker : isSectionMarker (tokensOf item) nextSectionName = false := by
        rw [isSectionMarker, beq_eq_false_iff_ne]
        intro heq
        rw [heq, List.length_singleton] at hlong
        omega
      rw [List.map_cons, List.map_cons, List.cons_append, parseSectionLines, splitTokens_joinTokens _ hwords,
        hsome, hmarker, Bool.and_false, hparse, ok_bind]
      simp only [Bool.false_eq_true, if_false]
      rw [ih fun item hitem => hitems item (List.mem_cons_of_mem _ hitem), List.append_assoc,
        List.singleton_append]

theorem parseAnimationSection_marker (hname : IsWord sectionName) (lines : List Text) :
    parseAnimationSection sectionName nextSectionName parseLine (joinTokens [sectionName] :: lines)
      = parseSectionLines nextSectionName parseLine [] lines := by
  have hwords : ∀ token ∈ [sectionName], IsWord token := by simpa using hname
  rw [parseAnimationSection, splitTokens_joinTokens _ hwords]
  simp [isSectionMarker]

/-- A section is read up to the marker of the next one. -/
theorem parseAnimationSection_next (hname : IsWord sectionName) (hnext : IsWord nextSectionName)
    (hitems : ∀ item ∈ items, LineReads parseLine (tokensOf item) item) (lines : List Text) :
    parseAnimationSection sectionName nextSectionName parseLine
        (joinTokens [sectionName] :: ((items.map tokensOf).map joinTokens ++ joinTokens [nextSectionName] :: lines))
      = .ok (some (items, joinTokens [nextSectionName] :: lines)) := by
  have hwords : ∀ token ∈ [nextSectionName], IsWord token := by simpa using hnext
  have hsome : nextSectionName.isEmpty = false := List.isEmpty_eq_false_iff.mpr hnext.1
  rw [parseAnimationSection_marker hname, parseSectionLines_lines _ hitems, List.nil_append, parseSectionLines,
    splitTokens_joinTokens _ hwords]
  simp [isSectionMarker, hsome]

/-- The last section is read to the end. -/
theorem parseAnimationSection_last (hname : IsWord sectionName)
    (hitems : ∀ item ∈ items, LineReads parseLine (tokensOf item) item) :
    parseAnimationSection sectionName [] parseLine
        (joinTokens [sectionName] :: (items.map tokensOf).map joinTokens)
      = .ok (some (items, [])) := by
  have hlines := parseSectionLines_lines [] hitems [] []
  rw [List.append_nil, List.nil_append] at hlines
  rw [parseAnimationSection_marker hname, hlines, parseSectionLines]
  rfl

end Sections

theorem parseAnimations_view (hview : view.Sendable floats) (hplayable : view.Playable) :
    parseAnimations floats ((animationTokens floats view.animations).map joinTokens)
      = .ok (some view.animations) := by
  have hmoves : ∀ move ∈ view.animations.moves,
      LineReads (parseMoveLine floats) (moveTokens floats move) move := fun move hmove =>
    ⟨isWord_moveTokens floats (hview.moves move hmove).2.2.2.2, by simp [moveTokens],
      parseMoveLine_tokens floats (hplayable.moves move hmove) (hview.moves move hmove)⟩
  have hjumps : ∀ jump ∈ view.animations.jumps,
      LineReads (parseJumpLine floats) (jumpTokens floats jump) jump := fun jump hjump =>
    ⟨isWord_jumpTokens floats (hview.jumps jump hjump).2.2, by simp [jumpTokens],
      parseJumpLine_tokens floats (hplayable.jumps jump hjump) (hview.jumps jump hjump)⟩
  have hrests : ∀ rest ∈ view.animations.rests,
      LineReads (parseRestLine floats) (restTokens floats rest) rest := fun rest hrest =>
    ⟨isWord_restTokens floats (hview.rests rest hrest).2.2, by simp [restTokens],
      parseRestLine_tokens floats (hview.rests rest hrest)⟩
  have hmarker : isSectionMarker (splitTokens (joinTokens ["animations".toList])) "animations".toList
      = true := by decide
  unfold animationTokens
  simp only [List.map_append, List.map_cons, List.append_assoc, List.cons_append, List.nil_append]
  rw [parseAnimations, hmarker, parseAnimationSection_next (by decide) (by decide) hmoves, ok_bind]
  dsimp only
  rw [parseAnimationSection_next (by decide) (by decide) hjumps, ok_bind]
  dsimp only
  rw [parseAnimationSection_last (by decide) hrests, ok_bind]
  rfl

/-! ### Whole snapshots -/

theorem isWord_snapshotLines (hview : view.Sendable floats) :
    ∀ tokens ∈ snapshotLines floats view, ∀ token ∈ tokens, IsWord token := by
  have hclock : IsWord (signedDecimal view.clockMs) := by
    rw [signedDecimal, if_neg (Int.not_lt.mpr hview.clock.1)]
    exact isWord_decimal _
  have hover : IsWord (if view.gameOver then "true".toList else "false".toList) := by
    cases view.gameOver <;> decide
  have hheader : ∀ tokens ∈ headerTokens view, ∀ token ∈ tokens, IsWord token := by
    unfold headerTokens
    cases view.selection with
    | none =>
        simp only [List.append_nil, List.forall_mem_cons, List.not_mem_nil, false_imp_iff, implies_true,
          and_true]
        exact ⟨⟨by decide, hclock⟩, ⟨by decide, hover⟩, ⟨by decide, isWord_decimal _⟩, by decide,
          isWord_decimal _⟩
    | some cell =>
        simp only [List.cons_append, List.nil_append, List.forall_mem_cons, List.not_mem_nil, false_imp_iff,
          implies_true, and_true]
        exact ⟨⟨by decide, hclock⟩, ⟨by decide, hover⟩, ⟨by decide, isWord_decimal _⟩,
          ⟨by decide, isWord_decimal _⟩, by decide, isWord_decimal _, isWord_decimal _⟩
  have hrows : ∀ tokens ∈ (List.range view.height).map (rowTokens view), ∀ token ∈ tokens, IsWord token := by
    intro tokens htokens token htoken
    obtain ⟨row, -, rfl⟩ := List.mem_map.mp htokens
    obtain ⟨col, -, rfl⟩ := List.mem_map.mp htoken
    exact isWord_writeCellToken _
  have hmoves : ∀ tokens ∈ view.animations.moves.map (moveTokens floats), ∀ token ∈ tokens,
      IsWord token := by
    intro tokens htokens
    obtain ⟨move, hmove, rfl⟩ := List.mem_map.mp htokens
    exact isWord_moveTokens floats (hview.moves move hmove).2.2.2.2
  have hjumps : ∀ tokens ∈ view.animations.jumps.map (jumpTokens floats), ∀ token ∈ tokens,
      IsWord token := by
    intro tokens htokens
    obtain ⟨jump, hjump, rfl⟩ := List.mem_map.mp htokens
    exact isWord_jumpTokens floats (hview.jumps jump hjump).2.2
  have hrests : ∀ tokens ∈ view.animations.rests.map (restTokens floats), ∀ token ∈ tokens,
      IsWord token := by
    intro tokens htokens
    obtain ⟨rest, hrest, rfl⟩ := List.mem_map.mp htokens
    exact isWord_restTokens floats (hview.rests rest hrest).2.2
  unfold snapshotLines animationTokens
  simp only [List.forall_mem_append]
  exact ⟨⟨⟨⟨by decide, hheader⟩, by decide⟩, hrows⟩, ⟨⟨⟨⟨by decide, hmoves⟩, by decide⟩, hjumps⟩, by decide⟩,
    hrests⟩

/-- The reader gives back the view that was written. -/
theorem readSnapshot_writeSnapshot (hview : view.Sendable floats) (hplayable : view.Playable) :
    readSnapshot floats (writeSnapshot floats view) = .ok (some view) := by
  have hlines : splitLines (writeSnapshot floats view)
      = "snapshot".toList :: ((headerTokens view ++ [["cells".toList]]).map joinTokens
        ++ (((List.range view.height).map (rowTokens view)).map joinTokens
          ++ (animationTokens floats view.animations).map joinTokens)) := by
    rw [writeSnapshot_eq floats hview.height, splitLines_linesText _ (isWord_snapshotLines floats hview)]
    unfold snapshotLines
    simp only [List.map_append, List.map_cons, List.append_assoc, List.cons_append, List.nil_append]
    rfl
  have hreserve : reserveCells (cellCount view.header) = .ok () := by
    have hstorable := hview.storable
    rw [hview.cells] at hstorable
    have hsmall : cellCount view.header ≤ kMaxCells := (Nat.mod_le _ _).trans hstorable
    rw [reserveCells, if_neg (Nat.not_lt.mpr hsmall)]
  have hrows := readRows_view floats hview hplayable ((animationTokens floats view.animations).map joinTokens)
  have hanimations := parseAnimations_view floats hview hplayable
  have hheader : readUpToCells (writeSnapshot floats view) = .ok (some (view.header,
      ((List.range view.height).map (rowTokens view)).map joinTokens
        ++ (animationTokens floats view.animations).map joinTokens)) := by
    rw [readUpToCells, hlines]
    dsimp only
    rw [if_neg (fun hne => hne rfl), readHeader_view floats hview]
  rw [readSnapshot, hheader, ok_bind]
  dsimp only
  rw [hreserve, ok_bind, show view.header.width = view.width from rfl,
    show view.header.height = view.height from rfl, hrows]
  dsimp only
  rw [hanimations, if_neg (by simp [animationTokens]), ok_bind]
  rfl

end View

/-! ### Progress in millionths -/

/-- Progress values as numbers of millionths, read digit by digit. -/
def millionths : FloatText Nat where
  print value := decimal (value / 1000000) ++ '.' :: (decimal (1000000 + value % 1000000)).tail
  strtof token :=
    let whole := token.takeWhile Char.isDigit
    match token.drop whole.length with
    | '.' :: rest =>
        let decimals := rest.takeWhile Char.isDigit
        (Nat.ofDigitChars 10 (whole ++ (decimals ++ "000000".toList).take 6) 0,
          whole.length + 1 + decimals.length)
    | _ => (1000000 * Nat.ofDigitChars 10 whole 0, whole.length)

/-- The rook of the duel on its way to the king, which has been selected. -/
def duelView : BoardViewModel Nat where
  height := 2
  width := 2
  clockMs := 500
  selection := some (0, 1)
  cells := [{}, ⟨some ⟨.king, .black⟩⟩, {}, {}]
  animations := { moves := [⟨1, .rook, .white, 0, 0, 0, 1, 500000⟩], rests := [⟨2, 0, 1, .long, 125000⟩] }

theorem readSnapshot_writeSnapshot_duel :
    duelView.Sendable millionths ∧ duelView.Playable ∧
      readSnapshot millionths (writeSnapshot millionths duelView) = .ok (some duelView) := by
  have hview : duelView.Sendable millionths := by
    refine ⟨by decide, by decide, by decide, by decide, by decide, ?_, ?_, ?_, ?_⟩
    · intro row col hselection
      cases hselection
      decide
    · intro move hmove
      cases List.mem_singleton.mp hmove
      exact ⟨by decide, by decide, by decide, by decide, by decide, by decide⟩
    · intro jump hjump
      cases hjump
    · intro rest hrest
      cases List.mem_singleton.mp hrest
      exact ⟨by decide, by decide, by decide, by decide⟩
  have hplayable : duelView.Playable := by
    refine ⟨by decide, by decide, by decide⟩
  exact ⟨hview, hplayable, readSnapshot_writeSnapshot millionths hview hplayable⟩

/-- The kind that counts the kinds is written as a pawn. -/
theorem readSnapshot_writeSnapshot_count :
    ¬∀ view : BoardViewModel Nat, view.Sendable millionths →
      readSnapshot millionths (writeSnapshot millionths view) = .ok (some view) := by
  intro hall
  have hview : ({ height := 1, width := 1, cells := [⟨some ⟨.count, .white⟩⟩] } :
      BoardViewModel Nat).Sendable millionths := by
    refine ⟨by decide, by decide, by decide, by decide, by decide, ?_, ?_, ?_, ?_⟩
    · intro row col hselection
      cases hselection
    · intro move hmove
      cases hmove
    · intro jump hjump
      cases hjump
    · intro rest hrest
      cases hrest
  have hread : readSnapshot millionths (writeSnapshot millionths
        { height := 1, width := 1, cells := [⟨some ⟨.count, .white⟩⟩] })
      = .ok (some { height := 1, width := 1, cells := [⟨some ⟨.pawn, .white⟩⟩] }) := by decide
  rw [hall _ hview] at hread
  cases hread

end KungFuChess
