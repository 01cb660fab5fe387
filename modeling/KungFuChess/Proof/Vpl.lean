import KungFuChess.Proof.BoardText
import KungFuChess.Proof.Commands
import KungFuChess.Proof.NetworkInput
import KungFuChess.Proof.Stillness
import KungFuChess.Model.Vpl

/-!
# What the program prints

A line of the input belongs to the section whose header came last before it. The program answers every input: with an
error if the lines of the board are not one, and else with the boards of one game, one for each command that prints it.
What it has printed can be given to it as the board, and it prints the same.
-/

namespace KungFuChess

open Loops BoardModel

/-! ### Lines -/

section Lines

variable {line rest : Text} {lines : List (List Text)}

theorem getLinesFrom_line (hline : ∀ c ∈ line, c ≠ '\n') (current : Text) :
    getLinesFrom current (line ++ '\n' :: rest) = (current ++ line) :: getLinesFrom [] rest := by
  induction line generalizing current with
  | nil => rw [List.nil_append, List.append_nil, getLinesFrom, if_pos rfl]
  | cons c line ih =>
      obtain ⟨hc, hline⟩ := List.forall_mem_cons.mp hline
      rw [List.cons_append, getLinesFrom, if_neg hc, ih hline, List.append_assoc, List.singleton_append]

theorem getLines_linesText (hlines : ∀ tokens ∈ lines, ∀ token ∈ tokens, IsWord token) :
    getLines (linesText lines) = lines.map joinTokens := by
  induction lines with
  | nil => rfl
  | cons tokens lines ih =>
      obtain ⟨htokens, hlines⟩ := List.forall_mem_cons.mp hlines
      have hbreak : ∀ c ∈ joinTokens tokens, c ≠ '\n' := fun c hc => (noBreak_of_isWord htokens c hc).2
      rw [getLines, linesText, List.flatMap_cons, List.append_assoc, List.singleton_append, getLinesFrom_line hbreak,
        List.nil_append, List.map_cons]
      exact congrArg (joinTokens tokens :: ·) (ih hlines)

/-- A line of words has nothing at its ends to be trimmed. -/
theorem trimLine_joinTokens {tokens : List Text} (htokens : ∀ token ∈ tokens, IsWord token) :
    trimLine (joinTokens tokens) = joinTokens tokens := by
  have hplain : ∀ c, isSpace c = false → isTrimmed c = false := by
    intro c hc
    unfold isSpace at hc
    unfold isTrimmed
    simp only [Bool.or_eq_false_iff] at hc ⊢
    obtain ⟨⟨⟨⟨⟨hspace, htab⟩, hbreak⟩, -⟩, -⟩, hreturn⟩ := hc
    exact ⟨⟨⟨hspace, htab⟩, hreturn⟩, hbreak⟩
  cases tokens with
  | nil => rfl
  | cons token tokens =>
      obtain ⟨htoken, htokens⟩ := List.forall_mem_cons.mp htokens
      have hnone : Lexing.Blanks isTrimmed [] := fun _ hc => absurd hc List.not_mem_nil
      have hline : Lexing.trim isTrimmed ([] ++ (token ++ spaced tokens) ++ []) = token ++ spaced tokens :=
        Lexing.trim_append hnone hnone (fun c hc => hplain c (Lexing.head?_word htoken c hc))
          fun c hc => hplain c ((parted_spaced tokens).getLast? htoken htokens c hc)
      rw [List.append_nil] at hline
      rw [joinTokens_cons]
      exact hline

end Lines

/-! ### Sections -/

/-- The section that a line opens. -/
def headerOf (line : Text) : Option VplSection :=
  if trimLine line = kBoardSectionHeader then some .board
  else if trimLine line = kCommandsSectionHeader then some .commands
  else none

/-- The section that goes on after these lines: that of the last header. -/
def sectionAfter (lines : List Text) : VplSection := (lines.filterMap headerOf).getLast?.getD .none

/-- The lines that are no headers, with the section as it is before each. -/
def labelled (lines : List Text) : List (VplSection × Text) :=
  (List.range lines.length).filterMap fun i =>
    lines[i]?.bind fun line => if headerOf line = none then some (sectionAfter (lines.take i), line) else none

/-- The lines of a section. -/
def linesOf (inSection : VplSection) (lines : List Text) : List Text :=
  ((labelled lines).filter fun labelled => labelled.1 = inSection).map (·.2)

section Sections

variable {reader : VplReader} {line : Text} {lines : List Text}

theorem read_of_header {inSection : VplSection} (h : headerOf line = some inSection) :
    reader.read line = { reader with inSection } := by
  unfold headerOf at h
  unfold VplReader.read
  dsimp only
  split at h
  · rename_i hboard
    rw [if_pos hboard, ← Option.some.inj h]
  split at h
  · rename_i hboard hcommands
    rw [if_neg hboard, if_pos hcommands, ← Option.some.inj h]
  · cases h

theorem read_of_line (h : headerOf line = none) :
    reader.read line =
      { reader with
        boardLines := reader.boardLines ++ if reader.inSection = .board then [line] else []
        commands := reader.commands ++ if reader.inSection = .commands ∧ line ≠ [] then [line] else [] } := by
  unfold headerOf at h
  unfold VplReader.read
  dsimp only
  split at h
  · cases h
  rename_i hboard
  split at h
  · cases h
  rename_i hcommands
  rw [if_neg hboard, if_neg hcommands]
  obtain ⟨inSection, boardLines, commands⟩ := reader
  cases inSection with
  | none => simp
  | board => simp
  | commands => cases line <;> simp

theorem sectionAfter_concat (lines : List Text) (line : Text) :
    sectionAfter (lines ++ [line]) = (headerOf line).getD (sectionAfter lines) := by
  unfold sectionAfter
  rw [List.filterMap_append]
  cases hheader : headerOf line with
  | none => rw [List.filterMap_cons_none hheader, List.filterMap_nil, List.append_nil, Option.getD_none]
  | some inSection =>
      rw [List.filterMap_cons_some hheader, List.filterMap_nil, List.getLast?_append, List.getLast?_singleton]
      rfl

theorem labelled_concat (lines : List Text) (line : Text) :
    labelled (lines ++ [line]) =
      labelled lines ++ if headerOf line = none then [(sectionAfter lines, line)] else [] := by
  unfold labelled
  rw [List.length_append, List.length_singleton, List.range_succ, List.filterMap_append]
  congr 1
  · apply List.filterMap_congr
    intro i hi
    have hlt := List.mem_range.mp hi
    rw [List.getElem?_append_left hlt, List.take_append_of_le_length hlt.le]
  · rw [List.filterMap_cons, List.getElem?_concat_length, Option.bind_some, List.take_left, List.filterMap_nil]
    by_cases hline : headerOf line = none
    · rw [if_pos hline, if_pos hline]
    · rw [if_neg hline, if_neg hline]

theorem linesOf_concat (inSection : VplSection) (lines : List Text) (line : Text) :
    linesOf inSection (lines ++ [line]) = linesOf inSection lines ++
      if headerOf line = none ∧ sectionAfter lines = inSection then [line] else [] := by
  unfold linesOf
  rw [labelled_concat, List.filter_append, List.map_append]
  congr 1
  by_cases hline : headerOf line = none
  · by_cases hsection : sectionAfter lines = inSection
    · simp [hline, hsection]
    · simp [hline, hsection]
  · simp [hline]

/-- What the loop of `read_vpl_input` has collected. -/
theorem foldl_read (lines : List Text) :
    lines.foldl VplReader.read {} =
      ⟨sectionAfter lines, linesOf .board lines, (linesOf .commands lines).filter (· ≠ [])⟩ := by
  induction lines using List.reverseRecOn with
  | nil => rfl
  | append_singleton lines line ih =>
      rw [List.foldl_append, ih, List.foldl_cons, List.foldl_nil, sectionAfter_concat, linesOf_concat, linesOf_concat]
      cases hheader : headerOf line with
      | some inSection =>
          rw [read_of_header hheader]
          simp
      | none =>
          rw [read_of_line hheader]
          simp only [VplReader.mk.injEq, Option.getD_none, true_and, List.filter_append, List.append_cancel_left_eq]
          by_cases hcommands : sectionAfter lines = .commands
          · cases line <;> simp [hcommands]
          · simp [hcommands]

end Sections

/-! ### Boards as they are printed -/

section Printing

variable {s s' : GameState} {command : Text} {commands printed : List Text} {states : List GameState}

/-- The game goes from one state to the other. -/
def PlaysTo (s s' : GameState) : Prop := ∃ actions, s.runActions actions = .ok s'

theorem PlaysTo.trans {s'' : GameState} (h : PlaysTo s s') (h' : PlaysTo s' s'') : PlaysTo s s'' := by
  obtain ⟨actions, hrun⟩ := h
  obtain ⟨more, hmore⟩ := h'
  refine ⟨actions ++ more, ?_⟩
  rw [runActions_append, hrun]
  exact hmore

theorem Commanded.playsTo (hcommanded : Commanded s s') (h : GameInv s) : PlaysTo s s' := by
  cases hcommanded with
  | nothing => exact ⟨[], rfl⟩
  | @selected cell p hp =>
      refine ⟨[.select cell.1 cell.2], ?_⟩
      rw [runActions_singleton, GameState.applyAction, select_eq h hp]
  | dropped actions hrun => exact ⟨actions, hrun⟩
  | ticked ms =>
      refine ⟨[.advanceClock ms], ?_⟩
      rw [runActions_singleton, GameState.applyAction, addClock_eq h]

/-- Only one command prints. -/
theorem execute_silent {handler : GameInputHandler} {line : Text} (hcommand : command ≠ kPrintBoardCommand)
    (h : handler.execute s command = .ok (line, s')) : line = [] := by
  unfold GameInputHandler.execute at h
  have hbind : ∀ x : Checked GameState, (do return (([] : Text), ← x)) = (.ok (line, s') : Checked _) →
      line = [] := by
    intro x hx
    obtain ⟨_, -, hx⟩ := bind_eq_ok.mp hx
    cases hx
    rfl
  split at h
  · cases h
    rfl
  split at h
  · split at h
    · cases h
      rfl
    split at h
    · cases h
      rfl
    · exact hbind _ h
  split at h
  · split at h
    · cases h
      rfl
    split at h
    · cases h
      rfl
    · exact hbind _ h
  split at h
  · split at h
    · cases h
      rfl
    · exact hbind _ h
  · rw [if_neg fun hverb => hcommand hverb.2] at h
    cases h
    rfl

/-- The boards of these states, one after the other. -/
def printedBoards (states : List GameState) : Text := states.flatMap fun s => writeBoard s.board ++ ['\n']

theorem IsChain.of_playsTo (h : PlaysTo s s') (hchain : (s' :: states).IsChain PlaysTo) :
    (s :: states).IsChain PlaysTo := by
  cases states with
  | nil => exact .singleton s
  | cons next states =>
      obtain ⟨hnext, hrest⟩ := List.isChain_cons_cons.mp hchain
      exact List.isChain_cons_cons.mpr ⟨h.trans hnext, hrest⟩

/-- The commands print the boards of one game, in its order. -/
theorem executeAll_prints {engine : GameEngine} (hreach : Reachable engine.state) :
    ∃ states engine', engine.executeAll commands = .ok (printedBoards states, engine') ∧
      states.length = commands.count kPrintBoardCommand ∧ (engine.state :: states).IsChain PlaysTo := by
  induction commands generalizing engine with
  | nil => exact ⟨[], engine, rfl, rfl, .singleton _⟩
  | cons command commands ih =>
      by_cases hprint : command = kPrintBoardCommand
      · obtain ⟨states, engine', hrun, hlength, hchain⟩ := @ih engine hreach
        refine ⟨engine.state :: states, engine', ?_, ?_, List.isChain_cons_cons.mpr ⟨⟨[], rfl⟩, hchain⟩⟩
        · rw [GameEngine.executeAll, GameEngine.execute, hprint, hreach.execute_print]
          simp only [ok_bind, pure_eq_ok, hrun]
          rfl
        · rw [hprint, List.count_cons_self, List.length_cons, hlength]
      · obtain ⟨line, s', hs', hcommanded⟩ := execute_commanded engine.processor hreach command
        obtain rfl := execute_silent hprint hs'
        obtain ⟨states, engine', hrun, hlength, hchain⟩ :=
          @ih { engine with state := s' } (hcommanded.reachable hreach)
        refine ⟨states, engine', ?_, ?_, IsChain.of_playsTo (hcommanded.playsTo hreach.inv) hchain⟩
        · rw [GameEngine.executeAll, GameEngine.execute, hs']
          simp only [ok_bind, pure_eq_ok, hrun, List.nil_append]
        · rw [List.count_cons_of_ne hprint, hlength]

/-- Each state of the chain is one of the game. -/
theorem playsTo_of_isChain (hchain : (s :: states).IsChain PlaysTo) : ∀ s' ∈ states, PlaysTo s s' := by
  induction states generalizing s with
  | nil => exact fun _ h => absurd h List.not_mem_nil
  | cons next states ih =>
      obtain ⟨hnext, hrest⟩ := List.isChain_cons_cons.mp hchain
      intro s' hs'
      rcases List.mem_cons.mp hs' with rfl | hs'
      · exact hnext
      · exact hnext.trans (ih hrest s' hs')

end Printing

/-! ### Boards that are read again -/

section Again

variable {b : BoardModel}

theorem writeBoard_eq_linesText (hrows : 0 < b.rows) :
    writeBoard b ++ ['\n'] = linesText ((List.range b.rows).map (writtenTokens b)) := by
  have hlines : writeBoard b =
      ['\n'].intercalate ((List.range b.rows).map fun row => joinTokens (writtenTokens b row)) := by
    simp only [writeBoard, writtenTokens, joinTokens_eq_intercalate]
  have hends : ∀ line (lines : List Text), ['\n'].intercalate (line :: lines) ++ ['\n'] =
      (line :: lines).flatMap (· ++ ['\n']) := by
    intro line lines
    induction lines generalizing line with
    | nil => rw [List.intercalate_singleton, List.flatMap_singleton]
    | cons next lines ih =>
        rw [List.intercalate_cons_cons, List.append_assoc, ih]
        simp only [List.flatMap_cons, List.append_assoc]
  rw [hlines, linesText, List.flatMap_map]
  cases hrange : List.range b.rows with
  | nil => exact absurd (List.range_eq_nil.mp hrange) hrows.ne'
  | cons row rest =>
      rw [List.map_cons, hends, ← List.map_cons (f := fun row => joinTokens (writtenTokens b row)), List.flatMap_map]

/-- A line of board tokens is no header. -/
theorem headerOf_writtenTokens (row : Nat) : headerOf (joinTokens (writtenTokens b row)) = none := by
  have hwords := isWord_writtenTokens b row
  have hother : ∀ word : Text, splitRow word = [word] → isValidToken word = false →
      trimLine (joinTokens (writtenTokens b row)) ≠ word := by
    intro word hword hinvalid heq
    rw [trimLine_joinTokens hwords] at heq
    have htokens : writtenTokens b row = [word] := by
      rw [← hword, ← heq]
      exact (splitTokens_joinTokens _ hwords).symm
    obtain ⟨col, -, hcol⟩ := List.mem_map.mp (htokens ▸ List.mem_singleton_self word : word ∈ writtenTokens b row)
    rw [← hcol, isValidToken_tokenAt] at hinvalid
    cases hinvalid
  unfold headerOf
  rw [if_neg (hother kBoardSectionHeader (by decide) (by decide)),
    if_neg (hother kCommandsSectionHeader (by decide) (by decide))]

/-- The input that gives a board to the program and has it printed. -/
def echo (b : BoardModel) : Text :=
  kBoardSectionHeader ++ ['\n'] ++ (writeBoard b ++ ['\n']) ++ kCommandsSectionHeader ++ ['\n'] ++
    kPrintBoardCommand ++ ['\n']

theorem getLines_echo (hrows : 0 < b.rows) :
    getLines (echo b) = kBoardSectionHeader :: (List.range b.rows).map (fun row => joinTokens (writtenTokens b row)) ++
      [kCommandsSectionHeader, kPrintBoardCommand] := by
  have htext : echo b = linesText ([kBoardSectionHeader] :: (List.range b.rows).map (writtenTokens b) ++
      [[kCommandsSectionHeader], ["print".toList, "board".toList]]) := by
    rw [linesText_append, echo, writeBoard_eq_linesText hrows]
    simp only [linesText, List.flatMap_cons, List.append_assoc]
    rfl
  have hwords : ∀ tokens ∈ [kBoardSectionHeader] :: (List.range b.rows).map (writtenTokens b) ++
      [[kCommandsSectionHeader], ["print".toList, "board".toList]], ∀ token ∈ tokens, IsWord token := by
    intro tokens htokens
    rcases List.mem_append.mp htokens with htokens | htokens
    · rcases List.mem_cons.mp htokens with rfl | htokens
      · decide
      · obtain ⟨row, -, rfl⟩ := List.mem_map.mp htokens
        exact isWord_writtenTokens b row
    · have hlast : ∀ tokens ∈ [[kCommandsSectionHeader], ["print".toList, "board".toList]],
          ∀ token ∈ tokens, IsWord token := by
        decide
      exact hlast tokens htokens
  rw [htext, getLines_linesText hwords, List.map_append, List.map_cons, List.map_map]
  rfl

theorem foldl_read_boardLines {reader : VplReader} (hsection : reader.inSection = .board) {lines : List Text}
    (hlines : ∀ line ∈ lines, headerOf line = none) :
    lines.foldl VplReader.read reader = { reader with boardLines := reader.boardLines ++ lines } := by
  induction lines generalizing reader with
  | nil => rw [List.foldl_nil, List.append_nil]
  | cons line lines ih =>
      obtain ⟨hline, hlines⟩ := List.forall_mem_cons.mp hlines
      have hread : reader.read line = { reader with boardLines := reader.boardLines ++ [line] } := by
        rw [read_of_line hline]
        simp [hsection]
      have hrest := @ih { reader with boardLines := reader.boardLines ++ [line] } hsection hlines
      rw [List.foldl_cons, hread, hrest, List.append_assoc, List.singleton_append]

/-- What has been printed is a board that prints the same. -/
theorem writeBoard_congr {b' : BoardModel} (hrows : b'.rows = b.rows) (hcols : b'.cols = b.cols)
    (htokens : ∀ row < b.rows, ∀ col < b.cols, b'.tokenAt row col = b.tokenAt row col) :
    writeBoard b' = writeBoard b := by
  unfold writeBoard
  rw [hrows, hcols]
  congr 1
  apply List.map_congr_left
  intro row hrow
  congr 1
  apply List.map_congr_left
  intro col hcol
  exact htokens row (List.mem_range.mp hrow) col (List.mem_range.mp hcol)

/-- The lines of a board that is written are read as one that is written the same. -/
theorem parseBoardRows_writeBoard (hrows : 0 < b.rows) (hcols : 0 < b.cols) (before : BoardModel) : ∃ b',
    parseBoardRows ((writeBoard b).splitOn '\n') before = .ok (.ok, b') ∧ writeBoard b' = writeBoard b := by
  obtain ⟨error, b', hparse, htext, -, hread⟩ := parseBoardRows_answers ((writeBoard b).splitOn '\n') before
  obtain rfl := htext.mpr (isBoardText_writeBoard b hrows hcols)
  have hread := hread rfl
  have hgrid : ∀ row col, b'.InBounds row col ↔ row < b.rows ∧ col < b.cols := by
    intro row col
    rw [← isInBounds_iff, hread.grid]
    simp only [tokenAtCell_writeBoard b hrows, exists_and_left, exists_eq', and_true]
  obtain ⟨hrows', hcols'⟩ := size_eq_of_inBounds hrows hcols hgrid
  refine ⟨b', hparse, writeBoard_congr hrows' hcols' fun row hrow col hcol => ?_⟩
  exact hread.tokens row col _ ((tokenAtCell_writeBoard b hrows).mpr ⟨⟨hrow, hcol⟩, rfl⟩)

theorem vplMain_echo (hrows : 0 < b.rows) (hcols : 0 < b.cols) : vplMain (echo b) = .ok (writeBoard b ++ ['\n']) := by
  obtain ⟨b', hparse, hwrite⟩ := parseBoardRows_writeBoard hrows hcols ⟨[], []⟩
  have hboard : headerOf kBoardSectionHeader = some .board := by decide
  have hcommands : headerOf kCommandsSectionHeader = some .commands := by decide
  have hprint : headerOf kPrintBoardCommand = none := by decide
  have hrows' : ∀ line ∈ (writeBoard b).splitOn '\n', headerOf line = none := by
    intro line hline
    rw [splitOn_writeBoard b hrows] at hline
    obtain ⟨row, -, rfl⟩ := List.mem_map.mp hline
    exact headerOf_writtenTokens row
  have hlines : (kBoardSectionHeader :: (writeBoard b).splitOn '\n').foldl VplReader.read {} =
      ⟨.board, (writeBoard b).splitOn '\n', []⟩ := by
    rw [List.foldl_cons, read_of_header hboard]
    exact @foldl_read_boardLines { inSection := .board } rfl _ hrows'
  have hreader : (getLines (echo b)).foldl VplReader.read {} =
      ⟨.commands, (writeBoard b).splitOn '\n', [kPrintBoardCommand]⟩ := by
    have hboards : getLines (echo b) = kBoardSectionHeader :: (writeBoard b).splitOn '\n' ++
        [kCommandsSectionHeader, kPrintBoardCommand] := by
      rw [getLines_echo hrows, splitOn_writeBoard b hrows]
    have hne : kPrintBoardCommand ≠ [] := by decide
    rw [hboards, List.foldl_append, hlines, List.foldl_cons, read_of_header hcommands, List.foldl_cons,
      read_of_line hprint, List.foldl_nil, if_neg VplSection.noConfusion, if_pos ⟨rfl, hne⟩, List.append_nil,
      List.nil_append]
  have haccepted : AcceptedBoard b' := ⟨_, _, hparse⟩
  have hreach : Reachable (GameEngine.new b').state := reachable_new haccepted
  rw [vplMain, readVplInput, hreader]
  simp only [hparse, ok_bind, pure_eq_ok]
  rw [if_neg (by simp), GameEngine.executeAll, GameEngine.execute, hreach.execute_print]
  simp only [ok_bind, pure_eq_ok, GameEngine.executeAll, List.append_nil]
  exact congrArg (fun text => Except.ok (text ++ ['\n'])) hwrite

end Again

/-! ### The program -/

/-- A rook is on its way to the king when the board is printed first. -/
example :
    vplMain "Board:\nwR . bK\nCommands:\nclick 50 50\nclick 250 50\nprint board\nwait 2000\nprint board\n".toList =
      .ok ". . bK\n. . wR\n".toList := by
  decide +kernel

end KungFuChess
