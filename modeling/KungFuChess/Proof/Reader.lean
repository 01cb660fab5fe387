import KungFuChess.Proof.Snapshot

/-!
# When the reader returns

The reader meets no check on the size of a number, and it reserves the cells of a board before it has seen
a row of it. Here the lines of a snapshot are given as formats, which say which words of a line are read as
numbers and when the reader goes on to the next line. The numbers it reads and the height and the width it
finds are then properties of the text, and they decide whether the reader returns and what it reserves.
-/

namespace KungFuChess

open Loops

/-! ### Formats of lines -/

/-- A place in a line. -/
inductive Field where
  | word (expected : Text)
  | number
  | checked (accepts : Text → Bool)

def Field.reads : Field → Text → Bool
  | .word expected, token => decide (token = expected)
  | .number, token => isNumber token
  | .checked accepts, token => accepts token

/-- The places of a line. -/
abbrev Format := List Field

namespace Format

/-- As many words as places, and the fixed words where they belong. This much is looked at before any
number is read. -/
def labelled : Format → List Text → Bool
  | [], [] => true
  | .word expected :: format, token :: tokens => decide (token = expected) && labelled format tokens
  | _ :: format, _ :: tokens => labelled format tokens
  | _, _ => false

def numberTokens : Format → List Text → List Text
  | .number :: format, token :: tokens => token :: numberTokens format tokens
  | _ :: format, _ :: tokens => numberTokens format tokens
  | _, _ => []

/-- The words of a line that are read as numbers. -/
def numbers (format : Format) (tokens : List Text) : List Text :=
  if format.labelled tokens then format.numberTokens tokens else []

/-- The line is read. -/
def reads : Format → List Text → Bool
  | [], [] => true
  | field :: format, token :: tokens => field.reads token && reads format tokens
  | _, _ => false

-- The equations of these are made here, once, and not by all the lemmas below that ask for them at a time.
section

attribute [local simp] labelled numberTokens numbers reads Field.reads

end

theorem labelled_nil {tokens : List Text} : labelled [] tokens = true ↔ [] = tokens := by
  cases tokens <;> simp [labelled]

theorem labelled_word {expected : Text} {format : Format} {tokens : List Text} :
    labelled (.word expected :: format) tokens = true ↔
      ∃ rest, expected :: rest = tokens ∧ labelled format rest = true := by
  cases tokens with
  | nil => simp [labelled]
  | cons token tokens =>
      simp only [labelled, Bool.and_eq_true, decide_eq_true_eq, List.cons.injEq]
      constructor
      · intro h
        obtain ⟨rfl, hrest⟩ := h
        exact ⟨tokens, ⟨rfl, rfl⟩, hrest⟩
      · intro h
        obtain ⟨rest, ⟨rfl, rfl⟩, hrest⟩ := h
        exact ⟨rfl, hrest⟩

theorem labelled_number {format : Format} {tokens : List Text} :
    labelled (.number :: format) tokens = true ↔
      ∃ token rest, token :: rest = tokens ∧ labelled format rest = true := by
  cases tokens <;> simp [labelled]

theorem labelled_checked {accepts : Text → Bool} {format : Format} {tokens : List Text} :
    labelled (.checked accepts :: format) tokens = true ↔
      ∃ token rest, token :: rest = tokens ∧ labelled format rest = true := by
  cases tokens <;> simp [labelled]

theorem length_of_labelled {format : Format} {tokens : List Text} (hlabelled : format.labelled tokens = true) :
    tokens.length = format.length := by
  induction format generalizing tokens with
  | nil => rw [← labelled_nil.mp hlabelled, List.length_nil, List.length_nil]
  | cons field format ih =>
      have hrest : ∃ token rest, token :: rest = tokens ∧ labelled format rest = true := by
        cases field with
        | word expected => exact ⟨expected, labelled_word.mp hlabelled⟩
        | number => exact labelled_number.mp hlabelled
        | checked accepts => exact labelled_checked.mp hlabelled
      obtain ⟨token, rest, rfl, hrest⟩ := hrest
      rw [List.length_cons, List.length_cons, ih hrest]

theorem labelled_of_reads {format : Format} {tokens : List Text} (hreads : format.reads tokens = true) :
    format.labelled tokens = true := by
  induction format generalizing tokens with
  | nil =>
      cases tokens with
      | nil => rfl
      | cons token tokens => cases hreads
  | cons field format ih =>
      cases tokens with
      | nil => cases hreads
      | cons token tokens =>
          simp only [reads, Bool.and_eq_true] at hreads
          have hrest := ih hreads.2
          cases field with
          | word expected =>
              simp only [labelled, hrest, Bool.and_true]
              exact hreads.1
          | number => exact hrest
          | checked accepts => exact hrest

theorem reads_of_not_labelled {format : Format} {tokens : List Text}
    (hlabelled : ¬format.labelled tokens = true) : format.reads tokens = false := by
  rw [← Bool.not_eq_true]
  exact fun hreads => hlabelled (labelled_of_reads hreads)

theorem numbers_of_not_labelled {format : Format} {tokens : List Text}
    (hlabelled : ¬format.labelled tokens = true) : format.numbers tokens = [] := if_neg hlabelled

theorem numbers_word (expected : Text) (format : Format) (tokens : List Text) :
    numbers (.word expected :: format) (expected :: tokens) = numbers format tokens := by
  simp only [numbers, labelled, numberTokens, decide_true, Bool.true_and]

theorem numbers_other {key expected : Text} (hkey : key ≠ expected) (format : Format) (tokens : List Text) :
    numbers (.word expected :: format) (key :: tokens) = [] := by
  simp only [numbers, labelled, decide_eq_false hkey, Bool.false_and, Bool.false_eq_true, if_false]

theorem reads_word (expected : Text) (format : Format) (tokens : List Text) :
    reads (.word expected :: format) (expected :: tokens) = reads format tokens := by
  simp only [reads, Field.reads, decide_true, Bool.true_and]

theorem reads_other {key expected : Text} (hkey : key ≠ expected) (format : Format) (tokens : List Text) :
    reads (.word expected :: format) (key :: tokens) = false := by
  simp only [reads, Field.reads, decide_eq_false hkey, Bool.false_and]

theorem numbers_nil (format : Format) : format.numbers [] = [] := by
  rw [numbers]
  split
  · cases format with
    | nil => rfl
    | cons field format => cases field <;> rfl
  · rfl

end Format

/-- The parser of a line reads the lines of a format, and fails only when a number is too large. -/
def LineFormat {S : Type} (format : Format) (parseLine : List Text → Reading (Option S)) : Prop :=
  ∀ tokens, (parseLine tokens).map Option.isSome =
    if (format.numbers tokens).all fitsInt64 then .ok (format.reads tokens) else .error .signedOverflow

/-- A line without the words of the format is not read, and no number of it is. -/
theorem LineFormat.of_labelled {S : Type} {format : Format} {parseLine : List Text → Reading (Option S)}
    (hother : ∀ tokens, ¬format.labelled tokens = true → parseLine tokens = .ok none)
    (hlabelled : ∀ tokens, format.labelled tokens = true → (parseLine tokens).map Option.isSome =
      if (format.numberTokens tokens).all fitsInt64 then .ok (format.reads tokens)
      else .error .signedOverflow) :
    LineFormat format parseLine := by
  intro tokens
  by_cases h : format.labelled tokens = true
  · rw [hlabelled tokens h, Format.numbers, if_pos h]
  · rw [hother tokens h, Format.numbers_of_not_labelled h, Format.reads_of_not_labelled h]
    rfl

/-- Either the numbers fit and there is a result, or the reading stops. -/
theorem reading_cases {α β : Type} {reading : Reading α} {f : α → β} {fits : Bool} {value : β}
    (h : reading.map f = if fits then .ok value else .error .signedOverflow) :
    (fits = true ∧ ∃ result, reading = .ok result ∧ f result = value) ∨
      (fits = false ∧ reading = .error .signedOverflow) := by
  cases fits with
  | true =>
      cases reading with
      | ok result => exact .inl ⟨rfl, result, rfl, Except.ok.inj h⟩
      | error fault => cases h
  | false =>
      cases reading with
      | ok result => cases h
      | error fault => exact .inr ⟨rfl, by cases h; rfl⟩

section Animations

variable {F : Type} (floats : FloatText F)

def moveFormat : Format :=
  [.word "move".toList, .word "piece_id".toList, .number, .word "piece".toList,
    .checked fun token => (descriptorFromToken token).isSome, .word "from".toList, .number, .number,
    .word "to".toList, .number, .number, .word "progress".toList,
    .checked fun token => (parseFloat floats token).isSome]

def jumpFormat : Format :=
  [.word "jump".toList, .word "piece_id".toList, .number, .word "piece".toList,
    .checked fun token => (descriptorFromToken token).isSome, .word "row".toList, .number, .number,
    .word "progress".toList, .checked fun token => (parseFloat floats token).isSome]

def restFormat : Format :=
  [.word "rest".toList, .word "piece_id".toList, .number, .word "row".toList, .number, .number,
    .word "kind".toList, .checked fun token => (parseRestKind token).isSome, .word "progress".toList,
    .checked fun token => (parseFloat floats token).isSome]

/-- A number is read before anything that comes after it. -/
theorem parseInt64_bind_map {S : Type} {token : Text} {next : Option Nat → Reading (Option S)} {fits read : Bool}
    (hnext : (next (if isNumber token then some (leadingValue token) else none)).map Option.isSome =
      if fits then .ok read else .error .signedOverflow) :
    (parseInt64 token >>= next).map Option.isSome =
      if fitsInt64 token && fits then .ok read else .error .signedOverflow := by
  rw [parseInt64_eq]
  by_cases hfits : fitsInt64 token = true
  · rw [if_pos hfits, ok_bind, hnext, hfits, Bool.true_and]
  · rw [if_neg hfits, if_neg (by simp [hfits])]
    rfl

theorem lineFormat_move : LineFormat (moveFormat floats) (parseMoveLine floats) := by
  apply LineFormat.of_labelled
  · intro tokens hlabelled
    unfold parseMoveLine
    split
    · split
      · rfl
      · rename_i hwords
        simp only [not_or, not_not] at hwords
        obtain ⟨rfl, rfl, rfl, rfl, rfl, rfl⟩ := hwords
        exact absurd (by simp [moveFormat, Format.labelled]) hlabelled
    · rfl
  · intro tokens hlabelled
    unfold moveFormat at hlabelled
    simp only [Format.labelled_word, Format.labelled_number, Format.labelled_checked, Format.labelled_nil,
      ↓existsAndEq, and_true] at hlabelled
    obtain ⟨id, piece, fromRow, fromCol, toRow, toCol, progress, rfl⟩ := hlabelled
    unfold moveFormat parseMoveLine parsePieceId parseNonNegativeSize
    simp only [Format.numberTokens, Format.reads, Field.reads, decide_true, Bool.true_and,
      List.all_cons, List.all_nil, bind_assoc, pure_bind]
    rw [if_neg (by decide)]
    refine parseInt64_bind_map (parseInt64_bind_map (parseInt64_bind_map (parseInt64_bind_map
      (parseInt64_bind_map ?_))))
    cases isNumber id
    · rfl
    cases descriptorFromToken piece
    · rfl
    cases isNumber fromRow
    · rfl
    cases isNumber fromCol
    · rfl
    cases isNumber toRow
    · rfl
    cases isNumber toCol
    · rfl
    cases parseFloat floats progress <;> rfl

theorem lineFormat_jump : LineFormat (jumpFormat floats) (parseJumpLine floats) := by
  apply LineFormat.of_labelled
  · intro tokens hlabelled
    unfold parseJumpLine
    split
    · split
      · rfl
      · rename_i hwords
        simp only [not_or, not_not] at hwords
        obtain ⟨rfl, rfl, rfl, rfl, rfl⟩ := hwords
        exact absurd (by simp [jumpFormat, Format.labelled]) hlabelled
    · rfl
  · intro tokens hlabelled
    unfold jumpFormat at hlabelled
    simp only [Format.labelled_word, Format.labelled_number, Format.labelled_checked, Format.labelled_nil,
      ↓existsAndEq, and_true] at hlabelled
    obtain ⟨id, piece, row, col, progress, rfl⟩ := hlabelled
    unfold jumpFormat parseJumpLine parsePieceId parseNonNegativeSize
    simp only [Format.numberTokens, Format.reads, Field.reads, decide_true, Bool.true_and, List.all_cons,
      List.all_nil, bind_assoc, pure_bind]
    rw [if_neg (by decide)]
    refine parseInt64_bind_map (parseInt64_bind_map (parseInt64_bind_map ?_))
    cases isNumber id
    · rfl
    cases descriptorFromToken piece
    · rfl
    cases isNumber row
    · rfl
    cases isNumber col
    · rfl
    cases parseFloat floats progress <;> rfl

theorem lineFormat_rest : LineFormat (restFormat floats) (parseRestLine floats) := by
  apply LineFormat.of_labelled
  · intro tokens hlabelled
    unfold parseRestLine
    split
    · split
      · rfl
      · rename_i hwords
        simp only [not_or, not_not] at hwords
        obtain ⟨rfl, rfl, rfl, rfl, rfl⟩ := hwords
        exact absurd (by simp [restFormat, Format.labelled]) hlabelled
    · rfl
  · intro tokens hlabelled
    unfold restFormat at hlabelled
    simp only [Format.labelled_word, Format.labelled_number, Format.labelled_checked, Format.labelled_nil,
      ↓existsAndEq, and_true] at hlabelled
    obtain ⟨id, row, col, kind, progress, rfl⟩ := hlabelled
    unfold restFormat parseRestLine parsePieceId parseNonNegativeSize
    simp only [Format.numberTokens, Format.reads, Field.reads, decide_true, Bool.true_and, List.all_cons,
      List.all_nil, bind_assoc, pure_bind]
    rw [if_neg (by decide)]
    refine parseInt64_bind_map (parseInt64_bind_map (parseInt64_bind_map ?_))
    cases isNumber id
    · rfl
    cases isNumber row
    · rfl
    cases isNumber col
    · rfl
    cases parseRestKind kind
    · rfl
    cases parseFloat floats progress <;> rfl

end Animations

/-! ### Parts of a snapshot -/

/-- The lines that are read with one of the formats, blank lines between them. -/
def goesOn (formats : List Format) (line : Text) : Bool :=
  (splitTokens line).isEmpty || formats.any (·.reads (splitTokens line))

def lineNumbers (formats : List Format) (line : Text) : List Text :=
  formats.flatMap (·.numbers (splitTokens line))

/-- The numbers of a part, with those of the line that ends it. -/
def partNumbers (formats : List Format) : List Text → List Text
  | [] => []
  | line :: lines =>
      lineNumbers formats line ++ if goesOn formats line then partNumbers formats lines else []

/-- The lines from the end of a part on. -/
def linesAfter (formats : List Format) (lines : List Text) : List Text := lines.dropWhile (goesOn formats)

def afterMarker (marker : Text) : List Text → Option (List Text)
  | [] => none
  | line :: lines => if isSectionMarker (splitTokens line) marker then some lines else none

section Sections

variable {S : Type} {format : Format} {sectionName nextSectionName : Text}
  {parseLine : List Text → Reading (Option S)}

/-- Where a section ends well. -/
def sectionEnd (nextSectionName : Text) (lines : List Text) : Option (List Text) :=
  if nextSectionName.isEmpty then (if lines.isEmpty then some [] else none)
  else (afterMarker nextSectionName lines).map fun _ => lines

theorem sectionEnd_marker {line : Text} (lines : List Text)
    (hmarker : (!nextSectionName.isEmpty && isSectionMarker (splitTokens line) nextSectionName) = true) :
    sectionEnd nextSectionName (line :: lines) = some (line :: lines) := by
  obtain ⟨hname, hmarker⟩ := Bool.and_eq_true_iff.mp hmarker
  rw [sectionEnd, if_neg (by simpa using hname), afterMarker, if_pos hmarker, Option.map_some]

theorem sectionEnd_other {line : Text} (lines : List Text)
    (hmarker : ¬(!nextSectionName.isEmpty && isSectionMarker (splitTokens line) nextSectionName) = true) :
    sectionEnd nextSectionName (line :: lines) = none := by
  rw [sectionEnd]
  split
  · rfl
  · rename_i hname
    rw [afterMarker, if_neg fun h => hmarker (by rw [h, Bool.and_true]; simpa using hname), Option.map_none]

theorem parseSectionLines_eq (hparse : LineFormat format parseLine) (hformat : format.length ≠ 1)
    (destination : List S) (lines : List Text) :
    (parseSectionLines nextSectionName parseLine destination lines).map (Option.map Prod.snd) =
      if (partNumbers [format] lines).all fitsInt64 then
        .ok (sectionEnd nextSectionName (linesAfter [format] lines))
      else .error .signedOverflow := by
  induction lines generalizing destination with
  | nil =>
      rw [parseSectionLines, partNumbers, linesAfter, List.dropWhile_nil, sectionEnd]
      cases nextSectionName <;> rfl
  | cons line lines ih =>
      rw [partNumbers, linesAfter, List.dropWhile_cons]
      have hnumbers : lineNumbers [format] line = format.numbers (splitTokens line) :=
        List.flatMap_singleton _ _
      have hgoesOn : goesOn [format] line
          = ((splitTokens line).isEmpty || format.reads (splitTokens line)) := by
        rw [goesOn, List.any_cons, List.any_nil, Bool.or_false]
      by_cases hblank : splitTokens line = []
      · rw [hblank, List.isEmpty_nil, Bool.true_or] at hgoesOn
        rw [hblank, Format.numbers_nil] at hnumbers
        rw [parseSectionLines, hblank, hnumbers, hgoesOn]
        exact ih destination
      · have hsome : (splitTokens line).isEmpty = false := List.isEmpty_eq_false_iff.mpr hblank
        rw [hsome, Bool.false_or] at hgoesOn
        rw [parseSectionLines, hsome, hnumbers, hgoesOn]
        rw [if_neg Bool.false_ne_true]
        by_cases hmarker : (!nextSectionName.isEmpty && isSectionMarker (splitTokens line) nextSectionName) = true
        · -- The marker is a line of one word, which the format does not have.
          have hlabelled : ¬format.labelled (splitTokens line) = true := by
            intro hlabelled
            have hlength := Format.length_of_labelled hlabelled
            rw [eq_of_beq (Bool.and_eq_true_iff.mp hmarker).2] at hlength
            exact hformat hlength.symm
          rw [if_pos hmarker, Format.numbers_of_not_labelled hlabelled, Format.reads_of_not_labelled hlabelled]
          simp [sectionEnd_marker lines hmarker, Except.map]
        · rw [if_neg hmarker]
          rcases reading_cases (hparse (splitTokens line)) with ⟨hfits, parsed, hparsed, hreads⟩ | ⟨hfits, hparsed⟩
          · rw [hparsed, ok_bind, List.all_append, hfits, Bool.true_and, ← hreads]
            cases parsed with
            | none => simp [sectionEnd_other lines hmarker, Except.map, pure, Except.pure]
            | some item => exact ih _
          · rw [hparsed, List.all_append, hfits]
            rfl

/-- The lines after a marker, if it is there. -/
def sectionLines (marker : Text) (lines : List Text) : List Text := (afterMarker marker lines).getD []

theorem parseAnimationSection_eq (sectionName nextSectionName : Text) (hparse : LineFormat format parseLine)
    (hformat : format.length ≠ 1) (lines : List Text) :
    (parseAnimationSection sectionName nextSectionName parseLine lines).map (Option.map Prod.snd) =
      if (partNumbers [format] (sectionLines sectionName lines)).all fitsInt64 then
        .ok ((afterMarker sectionName lines).bind fun lines =>
          sectionEnd nextSectionName (linesAfter [format] lines))
      else .error .signedOverflow := by
  rw [sectionLines]
  cases lines with
  | nil => rfl
  | cons line lines =>
      rw [parseAnimationSection, afterMarker]
      by_cases hmarker : isSectionMarker (splitTokens line) sectionName = true
      · rw [hmarker, if_pos rfl]
        exact parseSectionLines_eq hparse hformat [] lines
      · rw [Bool.eq_false_iff.mpr hmarker]
        rfl

/-- A section that another one follows: a number of it is too large, or it is not followed by the marker
of the other one, or the reader stands at this marker. -/
theorem parseAnimationSection_cases (sectionName : Text) (hparse : LineFormat format parseLine)
    (hformat : format.length ≠ 1) (hnext : nextSectionName.isEmpty = false) (lines : List Text) :
    ((partNumbers [format] (sectionLines sectionName lines)).all fitsInt64 = false ∧
        parseAnimationSection sectionName nextSectionName parseLine lines = .error .signedOverflow) ∨
      ((partNumbers [format] (sectionLines sectionName lines)).all fitsInt64 = true ∧
        ((parseAnimationSection sectionName nextSectionName parseLine lines = .ok none ∧
            sectionLines nextSectionName (linesAfter [format] (sectionLines sectionName lines)) = []) ∨
          ∃ items, parseAnimationSection sectionName nextSectionName parseLine lines
            = .ok (some (items, linesAfter [format] (sectionLines sectionName lines))))) := by
  have hsection := parseAnimationSection_eq sectionName nextSectionName hparse hformat lines
  rcases reading_cases hsection with ⟨hfits, result, hresult, hend⟩ | herror
  · refine .inr ⟨hfits, ?_⟩
    rw [hresult]
    simp only [sectionLines]
    cases hmarker : afterMarker sectionName lines with
    | none =>
        rw [hmarker, Option.bind_none, Option.map_eq_none_iff] at hend
        exact .inl ⟨by rw [hend], rfl⟩
    | some body =>
        rw [hmarker, Option.bind_some, sectionEnd, hnext, if_neg Bool.false_ne_true] at hend
        rw [Option.getD_some]
        cases hfollows : afterMarker nextSectionName (linesAfter [format] body) with
        | none =>
            rw [hfollows, Option.map_none, Option.map_eq_none_iff] at hend
            exact .inl ⟨by rw [hend], rfl⟩
        | some rest =>
            rw [hfollows, Option.map_some, Option.map_eq_some_iff] at hend
            obtain ⟨⟨items, rest⟩, rfl, rfl⟩ := hend
            exact .inr ⟨items, rfl⟩
  · exact .inl herror

end Sections

section Snapshots

variable {F : Type} (floats : FloatText F)

def moveLines (lines : List Text) : List Text :=
  sectionLines "moves".toList (sectionLines "animations".toList lines)

def jumpLines (lines : List Text) : List Text :=
  sectionLines "jumps".toList (linesAfter [moveFormat floats] (moveLines lines))

def restLines (lines : List Text) : List Text :=
  sectionLines "rests".toList (linesAfter [jumpFormat floats] (jumpLines floats lines))

def animationNumbers (lines : List Text) : List Text :=
  partNumbers [moveFormat floats] (moveLines lines) ++ partNumbers [jumpFormat floats] (jumpLines floats lines)
    ++ partNumbers [restFormat floats] (restLines floats lines)

theorem animationNumbers_of_moveLines {lines : List Text} (hmoves : moveLines lines = []) :
    animationNumbers floats lines = [] := by
  have hjumps : jumpLines floats lines = [] := by
    rw [jumpLines, hmoves]
    rfl
  have hrests : restLines floats lines = [] := by
    rw [restLines, hjumps]
    rfl
  rw [animationNumbers, hmoves, hjumps, hrests]
  rfl

theorem parseAnimations_eq (lines : List Text) :
    (parseAnimations floats lines).map (fun _ => ()) =
      if (animationNumbers floats lines).all fitsInt64 then .ok () else .error .signedOverflow := by
  cases lines with
  | nil =>
      rw [animationNumbers_of_moveLines floats rfl]
      rfl
  | cons line lines =>
      by_cases hmarker : isSectionMarker (splitTokens line) "animations".toList = true
      case neg =>
        have hlines : sectionLines "animations".toList (line :: lines) = [] := by
          rw [sectionLines, afterMarker, if_neg hmarker]
          rfl
        have hmoves : moveLines (line :: lines) = [] := by
          rw [moveLines, hlines]
          rfl
        rw [parseAnimations, Bool.eq_false_iff.mpr hmarker, animationNumbers_of_moveLines floats hmoves]
        rfl
      have hlines : sectionLines "animations".toList (line :: lines) = lines := by
        rw [sectionLines, afterMarker, if_pos hmarker]
        rfl
      rw [parseAnimations, hmarker, animationNumbers, restLines, jumpLines, moveLines, hlines,
        List.all_append, List.all_append, if_neg (by decide)]
      rcases parseAnimationSection_cases "moves".toList (lineFormat_move floats) (by simp [moveFormat])
          (show "jumps".toList.isEmpty = false by decide) lines with
        ⟨hfits, hmoves⟩ | ⟨hfits, ⟨hmoves, hjumps⟩ | ⟨moves, hmoves⟩⟩
      · rw [hmoves, hfits]
        rfl
      · rw [hmoves, hfits, hjumps]
        rfl
      rw [hmoves, hfits, ok_bind]
      dsimp only
      rcases parseAnimationSection_cases "jumps".toList (lineFormat_jump floats) (by simp [jumpFormat])
          (show "rests".toList.isEmpty = false by decide)
          (linesAfter [moveFormat floats] (sectionLines "moves".toList lines)) with
        ⟨hfits, hjumps⟩ | ⟨hfits, ⟨hjumps, hrests⟩ | ⟨jumps, hjumps⟩⟩
      · rw [hjumps, hfits]
        rfl
      · rw [hjumps, hfits, hrests]
        rfl
      rw [hjumps, hfits, ok_bind]
      dsimp only
      rcases reading_cases (parseAnimationSection_eq "rests".toList [] (lineFormat_rest floats)
          (by simp [restFormat]) (linesAfter [jumpFormat floats] (sectionLines "jumps".toList
            (linesAfter [moveFormat floats] (sectionLines "moves".toList lines))))) with
        ⟨hfits, rests, hrests, -⟩ | ⟨hfits, hrests⟩
      · rw [hrests, hfits]
        cases rests <;> rfl
      · rw [hrests, hfits]
        rfl

/-! ### The header -/

def headerFormats : List Format :=
  [[.word "clock_ms".toList, .number], [.word "game_over".toList, .checked fun token => (parseBool token).isSome],
    [.word "height".toList, .number], [.word "width".toList, .number],
    [.word "selection".toList, .number, .number]]

/-- The value of a field of the header after a line. -/
def fieldAfter (key : Text) (value : Nat) (line : Text) : Nat :=
  match splitTokens line with
  | [word, token] => if word = key then leadingValue token else value
  | _ => value

/-- The value of a field where the header ends: the last one wins. -/
def headerField (key : Text) (value : Nat) (lines : List Text) : Nat :=
  (lines.takeWhile (goesOn headerFormats)).foldl (fieldAfter key) value

theorem headerFormats_word {word : Text} {format : Format} (hformat : .word word :: format ∈ headerFormats)
    (arguments : List Text) :
    headerFormats.flatMap (·.numbers (word :: arguments)) = format.numbers arguments ∧
      headerFormats.any (·.reads (word :: arguments)) = format.reads arguments := by
  unfold headerFormats at hformat
  simp only [List.mem_cons, List.not_mem_nil, or_false, List.cons.injEq, Field.word.injEq] at hformat
  rw [headerFormats]
  simp only [List.flatMap_cons, List.flatMap_nil, List.any_cons, List.any_nil]
  rcases hformat with ⟨rfl, rfl⟩ | ⟨rfl, rfl⟩ | ⟨rfl, rfl⟩ | ⟨rfl, rfl⟩ | ⟨rfl, rfl⟩
  all_goals
    simp (disch := decide) only [Format.numbers_word, Format.numbers_other, Format.reads_word,
      Format.reads_other, List.nil_append, List.append_nil, Bool.or_false, Bool.false_or, and_self]

theorem headerFormats_other {key : Text} (hclock : key ≠ "clock_ms".toList) (hover : key ≠ "game_over".toList)
    (hheight : key ≠ "height".toList) (hwidth : key ≠ "width".toList)
    (hselection : key ≠ "selection".toList) (arguments : List Text) :
    headerFormats.flatMap (·.numbers (key :: arguments)) = [] ∧
      headerFormats.any (·.reads (key :: arguments)) = false := by
  rw [headerFormats]
  simp only [List.flatMap_cons, List.flatMap_nil, List.any_cons, List.any_nil, Format.numbers_other hclock,
    Format.numbers_other hover, Format.numbers_other hheight, Format.numbers_other hwidth,
    Format.numbers_other hselection, Format.reads_other hclock, Format.reads_other hover,
    Format.reads_other hheight, Format.reads_other hwidth, Format.reads_other hselection, List.append_nil,
    Bool.or_false, and_self]

/-- What the header loop does with a line: it stops at a number that is too large, goes on with the next
line, or leaves the loop. -/
def HeaderStep (view : BoardViewModel F) (line : Text) (lines : List Text) : Prop :=
  ∃ next : BoardViewModel F, next.height = fieldAfter "height".toList view.height line ∧
    next.width = fieldAfter "width".toList view.width line ∧
    readHeader view (line :: lines) =
      if (lineNumbers headerFormats line).all fitsInt64 then
        if goesOn headerFormats line then readHeader next lines
        else .ok ((afterMarker "cells".toList (line :: lines)).map fun lines => (view, lines))
      else .error .signedOverflow

variable {view : BoardViewModel F} {line : Text} {lines : List Text} {word : Text} {arguments : List Text}

theorem afterMarker_other {marker : Text} (htokens : splitTokens line = word :: arguments)
    (hword : word ≠ marker) : afterMarker marker (line :: lines) = none := by
  rw [afterMarker, htokens, isSectionMarker, if_neg]
  simp [hword]

theorem headerStep_of_word {format : Format} (next : BoardViewModel F)
    (htokens : splitTokens line = word :: arguments) (hformat : .word word :: format ∈ headerFormats)
    (hheight : next.height = fieldAfter "height".toList view.height line)
    (hwidth : next.width = fieldAfter "width".toList view.width line)
    (hread : readHeader view (line :: lines) =
      if (format.numbers arguments).all fitsInt64 then
        if format.reads arguments then readHeader next lines else .ok none
      else .error .signedOverflow) :
    HeaderStep view line lines := by
  obtain ⟨hnumbers, hreads⟩ := headerFormats_word hformat arguments
  have hcells : word ≠ "cells".toList := by
    intro h
    obtain rfl := h
    revert hformat
    simp [headerFormats]
  refine ⟨next, hheight, hwidth, ?_⟩
  rw [hread, lineNumbers, goesOn, htokens, hnumbers, hreads, afterMarker_other htokens hcells]
  rfl

theorem headerStep_none {format : Format} (htokens : splitTokens line = word :: arguments)
    (hformat : .word word :: format ∈ headerFormats) (hlabelled : ¬format.labelled arguments = true)
    (hheight : fieldAfter "height".toList view.height line = view.height)
    (hwidth : fieldAfter "width".toList view.width line = view.width)
    (hread : readHeader view (line :: lines) = .ok none) : HeaderStep view line lines := by
  refine headerStep_of_word view htokens hformat hheight.symm hwidth.symm ?_
  rw [hread, Format.numbers_of_not_labelled hlabelled, Format.reads_of_not_labelled hlabelled]
  rfl

/-- The arguments of a field that is a number. -/
def readNumberField {S : Type} (arguments : List Text) (next : Nat → Reading (Option S)) : Reading (Option S) :=
  match arguments with
  | [token] => do
      match ← parseInt64 token with
      | none => return none
      | some value => next value
  | _ => .ok none

theorem fieldAfter_other {key : Text} (htokens : splitTokens line = word :: arguments) (hword : word ≠ key)
    (value : Nat) : fieldAfter key value line = value := by
  rw [fieldAfter, htokens]
  split
  · rename_i heq
    cases heq
    exact if_neg hword
  · rfl

theorem fieldAfter_length (key : Text) (htokens : splitTokens line = word :: arguments)
    (hlength : arguments.length ≠ 1) (value : Nat) : fieldAfter key value line = value := by
  rw [fieldAfter, htokens]
  split
  · rename_i heq
    cases heq
    exact absurd rfl hlength
  · rfl

theorem fieldAfter_word {token : Text} (htokens : splitTokens line = [word, token]) (value : Nat) :
    fieldAfter word value line = leadingValue token := by
  rw [fieldAfter, htokens]
  exact if_pos rfl

theorem headerStep_number {next : Nat → BoardViewModel F} (htokens : splitTokens line = word :: arguments)
    (hformat : [.word word, .number] ∈ headerFormats)
    (hheight : ∀ token, arguments = [token] →
      (next (leadingValue token)).height = fieldAfter "height".toList view.height line)
    (hwidth : ∀ token, arguments = [token] →
      (next (leadingValue token)).width = fieldAfter "width".toList view.width line)
    (hread : readHeader view (line :: lines) =
      readNumberField arguments fun value => readHeader (next value) lines) :
    HeaderStep view line lines := by
  by_cases hlength : arguments.length = 1
  · obtain ⟨token, rfl⟩ := List.length_eq_one_iff.mp hlength
    refine headerStep_of_word _ htokens hformat (hheight token rfl) (hwidth token rfl) ?_
    rw [hread, readNumberField, parseInt64_eq]
    simp only [Format.numbers, Format.labelled, Format.numberTokens, Format.reads, Field.reads, if_true,
      List.all_cons, List.all_nil, Bool.and_true]
    cases fitsInt64 token with
    | false => rfl
    | true => cases isNumber token <;> rfl
  · have hlabelled : ¬Format.labelled [.number] arguments = true :=
      fun h => hlength (Format.length_of_labelled h)
    refine headerStep_none htokens hformat hlabelled (fieldAfter_length _ htokens hlength _)
      (fieldAfter_length _ htokens hlength _) (hread.trans ?_)
    unfold readNumberField
    split
    · exact absurd rfl hlength
    · rfl

theorem headerStep_clockMs (htokens : splitTokens line = "clock_ms".toList :: arguments) :
    HeaderStep view line lines := by
  have hread : readHeader view (line :: lines) =
      readNumberField arguments fun clockMs => readHeader { view with clockMs } lines := by
    rw [readHeader, htokens]
    dsimp only
    rw [if_neg (by decide), if_pos rfl]
    rfl
  exact headerStep_number htokens (by simp [headerFormats]) (fun _ _ => (fieldAfter_other htokens (by decide) _).symm)
    (fun _ _ => (fieldAfter_other htokens (by decide) _).symm) hread

theorem headerStep_height (htokens : splitTokens line = "height".toList :: arguments) :
    HeaderStep view line lines := by
  have hread : readHeader view (line :: lines) =
      readNumberField arguments fun height => readHeader { view with height } lines := by
    rw [readHeader, htokens]
    dsimp only
    rw [if_neg (by decide), if_neg (by decide), if_neg (by decide), if_pos rfl]
    rfl
  refine headerStep_number htokens (by simp [headerFormats]) (fun token harguments => ?_)
    (fun _ _ => (fieldAfter_other htokens (by decide) _).symm) hread
  subst harguments
  exact (fieldAfter_word htokens _).symm

theorem headerStep_width (htokens : splitTokens line = "width".toList :: arguments) :
    HeaderStep view line lines := by
  have hread : readHeader view (line :: lines) =
      readNumberField arguments fun width => readHeader { view with width } lines := by
    rw [readHeader, htokens]
    dsimp only
    rw [if_neg (by decide), if_neg (by decide), if_neg (by decide), if_neg (by decide), if_pos rfl]
    rfl
  refine headerStep_number htokens (by simp [headerFormats])
    (fun _ _ => (fieldAfter_other htokens (by decide) _).symm) (fun token harguments => ?_) hread
  subst harguments
  exact (fieldAfter_word htokens _).symm

theorem headerStep_gameOver (htokens : splitTokens line = "game_over".toList :: arguments) :
    HeaderStep view line lines := by
  have hformat : [.word "game_over".toList, .checked fun token => (parseBool token).isSome]
      ∈ headerFormats := by simp [headerFormats]
  have hheight : fieldAfter "height".toList view.height line = view.height :=
    fieldAfter_other htokens (by decide) _
  have hwidth : fieldAfter "width".toList view.width line = view.width :=
    fieldAfter_other htokens (by decide) _
  by_cases hlength : arguments.length = 1
  · obtain ⟨token, rfl⟩ := List.length_eq_one_iff.mp hlength
    cases hbool : parseBool token with
    | none =>
        refine headerStep_of_word view htokens hformat hheight.symm hwidth.symm ?_
        rw [readHeader, htokens]
        dsimp only
        rw [if_neg (by decide), if_neg (by decide), if_pos rfl, hbool]
        simp [Format.numbers, Format.labelled, Format.numberTokens, Format.reads, Field.reads, hbool]
    | some gameOver =>
        refine headerStep_of_word { view with gameOver } htokens hformat hheight.symm hwidth.symm ?_
        rw [readHeader, htokens]
        dsimp only
        rw [if_neg (by decide), if_neg (by decide), if_pos rfl, hbool]
        simp [Format.numbers, Format.labelled, Format.numberTokens, Format.reads, Field.reads, hbool]
  · refine headerStep_none htokens hformat (fun h => hlength (Format.length_of_labelled h)) hheight hwidth ?_
    rw [readHeader, htokens]
    dsimp only
    rw [if_neg (by decide), if_neg (by decide), if_pos rfl]
    split
    · exact absurd rfl hlength
    · rfl

theorem headerStep_selection (htokens : splitTokens line = "selection".toList :: arguments) :
    HeaderStep view line lines := by
  have hformat : [.word "selection".toList, .number, .number] ∈ headerFormats := by simp [headerFormats]
  have hheight : fieldAfter "height".toList view.height line = view.height :=
    fieldAfter_other htokens (by decide) _
  have hwidth : fieldAfter "width".toList view.width line = view.width :=
    fieldAfter_other htokens (by decide) _
  by_cases hlength : arguments.length = 2
  · obtain ⟨row, col, rfl⟩ := List.length_eq_two.mp hlength
    refine headerStep_of_word { view with selection := some (leadingValue row, leadingValue col) } htokens
      hformat hheight.symm hwidth.symm ?_
    rw [readHeader, htokens]
    dsimp only
    rw [if_neg (by decide), if_neg (by decide), if_neg (by decide), if_neg (by decide), if_neg (by decide),
      if_pos rfl, parseNonNegativeSize, parseInt64_eq, parseNonNegativeSize, parseInt64_eq]
    simp only [Format.numbers, Format.labelled, Format.numberTokens, Format.reads, Field.reads, if_true,
      List.all_cons, List.all_nil, Bool.and_true]
    cases fitsInt64 row with
    | false => rfl
    | true =>
        cases fitsInt64 col with
        | false => rfl
        | true =>
            cases isNumber row with
            | false => rfl
            | true => cases isNumber col <;> rfl
  · refine headerStep_none htokens hformat (fun h => hlength (Format.length_of_labelled h)) hheight hwidth ?_
    rw [readHeader, htokens]
    dsimp only
    rw [if_neg (by decide), if_neg (by decide), if_neg (by decide), if_neg (by decide), if_neg (by decide),
      if_pos rfl]
    split
    · exact absurd rfl hlength
    · rfl

theorem readHeader_cons (view : BoardViewModel F) (line : Text) (lines : List Text) :
    HeaderStep view line lines := by
  cases htokens : splitTokens line with
  | nil =>
      refine ⟨view, ?_, ?_, ?_⟩
      · rw [fieldAfter, htokens]
      · rw [fieldAfter, htokens]
      · rw [readHeader, lineNumbers, goesOn, htokens]
        rfl
  | cons key arguments =>
      by_cases hclock : key = "clock_ms".toList
      · exact headerStep_clockMs (hclock ▸ htokens)
      by_cases hover : key = "game_over".toList
      · exact headerStep_gameOver (hover ▸ htokens)
      by_cases hheight : key = "height".toList
      · exact headerStep_height (hheight ▸ htokens)
      by_cases hwidth : key = "width".toList
      · exact headerStep_width (hwidth ▸ htokens)
      by_cases hselection : key = "selection".toList
      · exact headerStep_selection (hselection ▸ htokens)
      obtain ⟨hnumbers, hreads⟩ := headerFormats_other hclock hover hheight hwidth hselection arguments
      refine ⟨view, (fieldAfter_other htokens hheight _).symm, (fieldAfter_other htokens hwidth _).symm, ?_⟩
      rw [readHeader, lineNumbers, goesOn, htokens, hnumbers, hreads]
      dsimp only
      rw [if_neg hclock, if_neg hover, if_neg hheight, if_neg hwidth, if_neg hselection]
      by_cases hcells : key = "cells".toList
      · rw [afterMarker, htokens]
        subst hcells
        cases arguments <;> rfl
      · rw [if_neg hcells, afterMarker_other htokens hcells]
        rfl

theorem readHeader_eq (view : BoardViewModel F) (lines : List Text) :
    (readHeader view lines).map (Option.map fun result => (result.1.height, result.1.width, result.2)) =
      if (partNumbers headerFormats lines).all fitsInt64 then
        .ok ((afterMarker "cells".toList (linesAfter headerFormats lines)).map fun body =>
          (headerField "height".toList view.height lines, headerField "width".toList view.width lines, body))
      else .error .signedOverflow := by
  induction lines generalizing view with
  | nil => rfl
  | cons line lines ih =>
      obtain ⟨next, hheight, hwidth, hread⟩ := readHeader_cons view line lines
      rw [hread, partNumbers, linesAfter, List.dropWhile_cons, headerField, headerField,
        List.takeWhile_cons, List.all_append]
      cases hfits : (lineNumbers headerFormats line).all fitsInt64 with
      | false => rfl
      | true =>
          cases hgoesOn : goesOn headerFormats line with
          | true =>
              simp only [if_true, Bool.true_and]
              rw [ih next, hheight, hwidth]
              rfl
          | false =>
              simp only [Bool.false_eq_true, if_false, if_true, List.all_nil, Bool.and_true]
              cases afterMarker "cells".toList (line :: lines) <;> rfl

/-! ### The rows -/

/-- The rows of the board are there, and every token of them is one. -/
def rowsFit (height width : Nat) (lines : List Text) : Bool :=
  decide (height ≤ lines.length) && (lines.take height).all fun line =>
    decide ((splitTokens line).length = width) && (splitTokens line).all isValidToken

theorem isSome_parseCellToken (token : Text) : (parseCellToken token).isSome = isValidToken token := by
  rw [parseCellToken]
  cases isValidToken token with
  | false => rfl
  | true => cases descriptorFromToken token <;> rfl

theorem mapM_parseCellToken_eq (tokens : List Text) :
    (tokens.mapM parseCellToken).map List.length =
      if tokens.all isValidToken then some tokens.length else none := by
  induction tokens with
  | nil => rfl
  | cons token tokens ih =>
      rw [List.mapM_cons, List.all_cons, ← isSome_parseCellToken]
      cases parseCellToken token with
      | none => rfl
      | some cell =>
          cases hrow : tokens.mapM parseCellToken with
          | none =>
              rw [hrow] at ih
              cases hvalid : tokens.all isValidToken with
              | false => rfl
              | true =>
                  rw [hvalid] at ih
                  cases ih
          | some row =>
              rw [hrow] at ih
              cases hvalid : tokens.all isValidToken with
              | false =>
                  rw [hvalid] at ih
                  cases ih
              | true =>
                  rw [hvalid] at ih
                  exact congrArg some (congrArg (· + 1) (Option.some.inj ih))

theorem rowsFit_succ (height width : Nat) (line : Text) (lines : List Text) :
    rowsFit (height + 1) width (line :: lines) =
      (decide ((splitTokens line).length = width) && ((splitTokens line).all isValidToken &&
        rowsFit height width lines)) := by
  simp only [rowsFit, List.take_succ_cons, List.all_cons, List.length_cons, Nat.add_le_add_iff_right]
  cases decide (height ≤ lines.length) with
  | true => simp only [Bool.true_and, Bool.and_assoc]
  | false => simp only [Bool.false_and, Bool.and_false]

theorem readRows_eq (width rows : Nat) (lines : List Text) (cells : List CellView) :
    (readRows width rows lines cells).map (fun result => (result.1.length, result.2)) =
      if rowsFit rows width lines then some (cells.length + rows * width, lines.drop rows) else none := by
  induction rows generalizing lines cells with
  | zero => simp [readRows, rowsFit]
  | succ rows ih =>
      cases lines with
      | nil => rfl
      | cons line lines =>
          have hrow := mapM_parseCellToken_eq (splitTokens line)
          rw [readRows, rowsFit_succ]
          by_cases hlength : (splitTokens line).length = width
          · rw [if_neg (not_not.mpr hlength), decide_eq_true hlength, Bool.true_and]
            cases hvalid : (splitTokens line).all isValidToken with
            | false =>
                rw [hvalid, if_neg Bool.false_ne_true, Option.map_eq_none_iff] at hrow
                rw [hrow]
                rfl
            | true =>
                rw [hvalid, if_pos rfl, Option.map_eq_some_iff] at hrow
                obtain ⟨row, hrow, hcells⟩ := hrow
                rw [hrow, Bool.true_and, List.drop_succ_cons]
                dsimp only
                rw [ih, List.length_append, hcells, hlength, Nat.succ_mul, Nat.add_assoc, Nat.add_comm width]
          · rw [if_pos hlength, decide_eq_false hlength]
            rfl

/-! ### Whole texts -/

/-- The lines after the first one, which has to be the word of the format. -/
def headerLines (text : Text) : List Text :=
  match splitLines text with
  | [] => []
  | first :: lines => if first = "snapshot".toList then lines else []

/-- The lines after the `cells` marker, if the reader gets there. -/
def bodyLines (text : Text) : Option (List Text) :=
  afterMarker "cells".toList (linesAfter headerFormats (headerLines text))

def textHeight (text : Text) : Nat := headerField "height".toList 0 (headerLines text)

def textWidth (text : Text) : Nat := headerField "width".toList 0 (headerLines text)

def tokenCount (text : Text) : Nat := ((splitLines text).flatMap splitTokens).length

/-- Every word of the text that is read as a number. -/
def numbersRead (text : Text) : List Text :=
  partNumbers headerFormats (headerLines text) ++
    match bodyLines text with
    | none => []
    | some body =>
        if rowsFit (textHeight text) (textWidth text) body then
          animationNumbers floats (body.drop (textHeight text))
        else []

theorem readUpToCells_eq (text : Text) :
    (readUpToCells text : Reading (Option (BoardViewModel F × List Text))).map
        (Option.map fun result => (result.1.height, result.1.width, result.2)) =
      if (partNumbers headerFormats (headerLines text)).all fitsInt64 then
        .ok ((bodyLines text).map fun body => (textHeight text, textWidth text, body))
      else .error .signedOverflow := by
  rw [readUpToCells, bodyLines, textHeight, textWidth]
  cases hsplit : splitLines text with
  | nil =>
      have hlines : headerLines text = [] := by rw [headerLines, hsplit]
      rw [hlines]
      rfl
  | cons first lines =>
      dsimp only
      by_cases hfirst : first = "snapshot".toList
      · have hlines : headerLines text = lines := by
          rw [headerLines, hsplit]
          exact if_pos hfirst
        rw [if_neg (not_not.mpr hfirst), hlines]
        exact readHeader_eq {} lines
      · have hlines : headerLines text = [] := by
          rw [headerLines, hsplit]
          exact if_neg hfirst
        rw [if_pos hfirst, hlines]
        rfl

/-- The reader returns, and a view that it returns has all its cells. -/
def ReturnsCells (text : Text) : Prop :=
  ∃ result, readSnapshot floats text = .ok result ∧
    ∀ view, result = some view → view.cells.length = view.height * view.width

theorem cellCount_eq (hstorable : view.height * view.width ≤ kMaxCells) :
    cellCount view = view.height * view.width :=
  Nat.mod_eq_of_lt (Nat.lt_of_le_of_lt hstorable (by decide))

theorem animationNumbers_nil : animationNumbers floats [] = [] := animationNumbers_of_moveLines floats rfl

/-- From the `cells` marker on, only a number of the animations can stop the reader. -/
theorem returnsCells_iff {text : Text} {body : List Text}
    (hheader : readUpToCells text = .ok (some (view, body)))
    (hstorable : view.height * view.width ≤ kMaxCells) :
    ReturnsCells floats text ↔
      (rowsFit view.height view.width body = true →
        (animationNumbers floats (body.drop view.height)).all fitsInt64 = true) := by
  have hreserve : reserveCells (cellCount view) = .ok () := by
    rw [reserveCells, cellCount_eq hstorable, if_neg (Nat.not_lt.mpr hstorable)]
  have hrows := readRows_eq view.width view.height body []
  rw [ReturnsCells, readSnapshot, hheader, ok_bind]
  dsimp only
  rw [hreserve, ok_bind]
  cases hfit : rowsFit view.height view.width body with
  | false =>
      rw [hfit, if_neg Bool.false_ne_true, Option.map_eq_none_iff] at hrows
      rw [hrows]
      exact ⟨fun _ h => absurd h Bool.false_ne_true, fun _ => ⟨none, rfl, fun view h => by cases h⟩⟩
  | true =>
      rw [hfit, if_pos rfl, Option.map_eq_some_iff] at hrows
      obtain ⟨⟨cells, lines⟩, hrows, hresult⟩ := hrows
      obtain ⟨hcells, rfl⟩ := Prod.mk.inj hresult
      rw [List.length_nil, Nat.zero_add] at hcells
      rw [hrows]
      dsimp only
      cases hempty : (body.drop view.height).isEmpty with
      | true =>
          rw [List.isEmpty_iff.mp hempty, animationNumbers_nil]
          exact ⟨fun _ _ => rfl, fun _ => ⟨_, rfl, fun read hread => by cases hread; exact hcells⟩⟩
      | false =>
          rcases reading_cases (parseAnimations_eq floats (body.drop view.height)) with
            ⟨hfits, animations, hanimations, -⟩ | ⟨hfits, hanimations⟩
          · rw [hanimations, hfits]
            refine ⟨fun _ _ => rfl, fun _ => ?_⟩
            cases animations with
            | none => exact ⟨none, rfl, fun read hread => by cases hread⟩
            | some animations => exact ⟨_, rfl, fun read hread => by cases hread; exact hcells⟩
          · rw [hanimations, hfits]
            constructor
            · intro h
              obtain ⟨result, hresult, -⟩ := h
              cases hresult
            · exact fun h => absurd (h rfl) Bool.false_ne_true

/-- A board that a vector cannot hold is not read. -/
theorem not_returnsCells {text : Text} {body : List Text}
    (hheader : readUpToCells text = .ok (some (view, body))) (hlarge : kMaxCells < cellCount view) :
    ¬ReturnsCells floats text := by
  intro h
  obtain ⟨result, hresult, -⟩ := h
  rw [readSnapshot, hheader, ok_bind] at hresult
  dsimp only at hresult
  rw [reserveCells, if_pos hlarge] at hresult
  cases hresult

/-- The reader returns, and what it reserves is the size of the board and no more than the text has
tokens. -/
def ReadsSafely (text : Text) : Prop :=
  ReturnsCells floats text ∧
    ∀ (view : BoardViewModel F) (lines : List Text), readUpToCells text = .ok (some (view, lines)) →
      view.height * view.width < 2 ^ 64 ∧ cellCount view ≤ tokenCount text

/-- The numbers that are read are below `2 ^ 63`, and a board has no more cells than the text has tokens
and than a vector can hold. -/
def Bounded (text : Text) : Prop :=
  (∀ token ∈ numbersRead floats text, leadingValue token < 2 ^ 63) ∧
    ((bodyLines text).isSome = true → textHeight text * textWidth text ≤ min (tokenCount text) kMaxCells)

theorem numbersRead_fit (text : Text) :
    (∀ token ∈ numbersRead floats text, leadingValue token < 2 ^ 63) ↔
      (numbersRead floats text).all fitsInt64 = true := by
  simp only [List.all_eq_true, fitsInt64, decide_eq_true_eq]

/-- The text of a board that is too large to be read. -/
theorem not_readsSafely_of_size {text : Text} {body : List Text}
    (hheader : readUpToCells text = .ok (some (view, body)))
    (hsize : ¬view.height * view.width ≤ min (tokenCount text) kMaxCells) : ¬ReadsSafely floats text := by
  intro h
  obtain ⟨hreturns, hreserve⟩ := h
  obtain ⟨hproduct, htokens⟩ := hreserve view body hheader
  have hcount : cellCount view = view.height * view.width := Nat.mod_eq_of_lt hproduct
  refine not_returnsCells floats hheader ?_ hreturns
  rw [hcount] at htokens ⊢
  omega

theorem readsSafely_iff_of_size {text : Text} {body : List Text}
    (hheader : readUpToCells text = .ok (some (view, body)))
    (hsize : view.height * view.width ≤ min (tokenCount text) kMaxCells) :
    ReadsSafely floats text ↔
      (rowsFit view.height view.width body = true →
        (animationNumbers floats (body.drop view.height)).all fitsInt64 = true) := by
  obtain ⟨htokens, hstorable⟩ := Nat.le_min.mp hsize
  rw [ReadsSafely, returnsCells_iff floats hheader hstorable, and_iff_left]
  intro other lines hother
  rw [hheader] at hother
  cases hother
  rw [cellCount_eq hstorable]
  exact ⟨Nat.lt_of_le_of_lt hstorable (by decide), htokens⟩

/-- The reader is safe on a text exactly when the text is bounded. -/
theorem readsSafely_iff (text : Text) : ReadsSafely floats text ↔ Bounded floats text := by
  have hup : (readUpToCells text : Reading (Option (BoardViewModel F × List Text))).map _ = _ :=
    readUpToCells_eq text
  rw [Bounded, numbersRead_fit, numbersRead, List.all_append]
  rcases reading_cases hup with ⟨hfits, result, hheader, hresult⟩ | ⟨hfits, hheader⟩
  · rw [hfits, Bool.true_and]
    cases hbody : bodyLines text with
    | none =>
        -- The reader gives up in the header.
        rw [hbody, Option.map_none, Option.map_eq_none_iff] at hresult
        subst hresult
        have hreturns : ReturnsCells floats text := by
          rw [ReturnsCells, readSnapshot, hheader]
          exact ⟨none, rfl, fun view h => by cases h⟩
        refine ⟨fun _ => ⟨rfl, fun h => by cases h⟩, fun _ => ⟨hreturns, fun view lines h => ?_⟩⟩
        rw [hheader] at h
        cases h
    | some body =>
        rw [hbody, Option.map_some, Option.map_eq_some_iff] at hresult
        obtain ⟨⟨view, lines⟩, rfl, hview⟩ := hresult
        simp only [Prod.mk.injEq] at hview
        obtain ⟨hheight, hwidth, rfl⟩ := hview
        dsimp only
        rw [← hheight, ← hwidth]
        by_cases hsize : view.height * view.width ≤ min (tokenCount text) kMaxCells
        · rw [readsSafely_iff_of_size floats hheader hsize, and_iff_left fun _ => hsize]
          cases rowsFit view.height view.width lines with
          | false => exact ⟨fun _ => rfl, fun _ h => absurd h Bool.false_ne_true⟩
          | true => exact ⟨fun h => h rfl, fun h _ => h⟩
        · exact ⟨fun h => absurd h (not_readsSafely_of_size floats hheader hsize),
            fun h => absurd (h.2 rfl) hsize⟩
  · have hunsafe : ¬ReadsSafely floats text := by
      intro h
      obtain ⟨⟨result, hresult, -⟩, -⟩ := h
      rw [readSnapshot, hheader] at hresult
      cases hresult
    rw [hfits]
    exact ⟨fun h => absurd h hunsafe, fun h => by cases h.1⟩

end Snapshots

/-- Two sizes that fit, of a board that no vector holds. -/
theorem not_readsSafely_large :
    ¬ReadsSafely millionths "snapshot\nheight 4000000000\nwidth 4000000000\ncells\n".toList := by
  intro h
  obtain ⟨⟨result, hresult, -⟩, -⟩ := h
  have hread : readSnapshot millionths "snapshot\nheight 4000000000\nwidth 4000000000\ncells\n".toList
      = .error .lengthError := by decide
  rw [hread] at hresult
  cases hresult

end KungFuChess
