import KungFuChess.Proof.NetworkInput

/-!
# The grammar of game messages

What a message says is a matter of its words alone. The parsers take it the same way, but for the value of a numeral,
which they keep only up to the size of the type.
-/

namespace KungFuChess

/-! ### The grammar -/

/-- Digits, and the number they write. -/
structure IsNumeral (digits : Text) (n : Nat) : Prop where
  ne_nil : digits ≠ []
  digit : ∀ c ∈ digits, c.isDigit = true
  value : Nat.ofDigitChars 10 digits 0 = n

/-- The type holds the number. -/
def FitsSize (digits : Text) (n : Nat) : Prop := IsNumeral digits n ∧ n < 2 ^ 64

def MessageLine (message : Text) (command : String) (arguments : List Text) : Prop :=
  Lexing.Line isSpace isTokenEnd message command.toList arguments

/-- The commands for a cell. -/
def cellCommands : List (String × (Nat → Nat → GameAction)) :=
  [("select", .select), ("move", .moveSelected), ("jump", .jumpAt)]

section

variable (reads : Text → Nat → Prop) (message : Text)

/-- The action that a message stands for, by what its numerals are read as. -/
inductive Says : GameAction → Prop
  | clear : MessageLine message "clear" [] → Says .clearSelection
  | cell {command action row col r c} : (command, action) ∈ cellCommands → MessageLine message command [row, col] →
      reads row r → reads col c → Says (action r c)

inductive SaysJoin : Nat → Prop
  | join {roomId r} : MessageLine message "join_game" [roomId] → reads roomId r → SaysJoin r

end

/-- A command with as many numerals as it takes, of which one is too large for the type. -/
def Oversized (message : Text) : Prop :=
  ∃ command arguments, MessageLine message command arguments ∧
    (command ∈ cellCommands.map Prod.fst ∧ arguments.length = 2 ∨ command = "join_game" ∧ arguments.length = 1) ∧
    (∀ digits ∈ arguments, ∃ n, IsNumeral digits n) ∧ ∃ digits ∈ arguments, ∃ n, IsNumeral digits n ∧ 2 ^ 64 ≤ n

/-! ### Numerals -/

/-- What the parsers read a numeral as. -/
def Wraps (digits : Text) (n : Nat) : Prop := ∃ v, IsNumeral digits v ∧ v % 2 ^ 64 = n

section Numerals

variable {digits : Text} {n : Nat}

theorem IsNumeral.isWord (h : IsNumeral digits n) : IsWord digits :=
  ⟨h.ne_nil, fun c hc => isSpace_of_isDigit (h.digit c hc)⟩

theorem Wraps.numeral (h : Wraps digits n) : ∃ v, IsNumeral digits v := by
  obtain ⟨v, hnumeral, -⟩ := h
  exact ⟨v, hnumeral⟩

theorem Wraps.isWord (h : Wraps digits n) : IsWord digits := by
  obtain ⟨v, hnumeral⟩ := h.numeral
  exact hnumeral.isWord

theorem parseNonNegativeInt_eq_some_iff : parseNonNegativeInt digits = some n ↔ Wraps digits n := by
  have hvalue := foldl_digits digits 0
  rw [Nat.zero_mod] at hvalue
  unfold parseNonNegativeInt Wraps
  rw [hvalue]
  constructor
  · intro h
    split at h
    · cases h
    · rename_i hdigits
      simp only [Bool.or_eq_true, List.isEmpty_iff, Bool.not_eq_true', not_or, Bool.not_eq_false,
        List.all_eq_true] at hdigits
      exact ⟨_, ⟨hdigits.1, hdigits.2, rfl⟩, Option.some.inj h⟩
  · intro h
    obtain ⟨v, ⟨hne, hdigit, rfl⟩, rfl⟩ := h
    have hall : digits.all Char.isDigit = true := List.all_eq_true.mpr hdigit
    rw [hall, List.isEmpty_eq_false_iff.mpr hne]
    rfl

theorem wraps_of_fits (h : FitsSize digits n) : Wraps digits n := ⟨n, h.1, Nat.mod_eq_of_lt h.2⟩

end Numerals

/-! ### Lines -/

/-- The words that the parsers take off a message, one by one. -/
def Words (message : Text) (words : List Text) : Prop := Lexing.Reads isSpace isTokenEnd (trim message) words

theorem forall_mem_pair {P : Text → Prop} {row col : Text} (hrow : P row) (hcol : P col) : ∀ word ∈ [row, col], P word :=
  List.forall_mem_cons.mpr ⟨hrow, List.forall_mem_singleton.mpr hcol⟩

section Lines

variable {message : Text} {command command' : String} {arguments arguments' : List Text}

theorem messageLine_iff (hcommand : IsWord command.toList) (harguments : ∀ word ∈ arguments, IsWord word) :
    MessageLine message command arguments ↔ Words message (command.toList :: arguments) :=
  (Lexing.reads_trim_iff isSpace_of_isTokenEnd hcommand harguments).symm

theorem isWord_cellCommand {action : Nat → Nat → GameAction} (h : (command, action) ∈ cellCommands) :
    IsWord command.toList := by
  have hall : ∀ command ∈ cellCommands.map Prod.fst, IsWord command.toList := by decide
  exact hall command (List.mem_map_of_mem h)

theorem MessageLine.unique (h : MessageLine message command arguments) (h' : MessageLine message command' arguments')
    (hwords : ∀ word ∈ command.toList :: arguments, IsWord word)
    (hwords' : ∀ word ∈ command'.toList :: arguments', IsWord word) : command = command' ∧ arguments = arguments' := by
  obtain ⟨hcommand, harguments⟩ := Lexing.Line.unique isSpace_of_isTokenEnd h h' hwords hwords'
  exact ⟨String.toList_inj.mp hcommand, harguments⟩

end Lines

/-! ### The parsers -/

section Parsers

variable {message : Text} {a : GameAction} {r : Nat}

theorem parseJoinGameMessage_iff_words : parseJoinGameMessage message = some r ↔
    ∃ roomId, Words message ["join_game".toList, roomId] ∧ parseNonNegativeInt roomId = some r := by
  unfold parseJoinGameMessage
  simp only [nextToken_eq, Words, Lexing.reads_cons_iff, Lexing.reads_nil_iff, Option.bind_eq_bind,
    Option.bind_eq_some_iff, Prod.exists, Option.ite_none_left_eq_some, ne_eq, not_not, Bool.not_eq_true,
    Option.isSome_eq_false_iff, Option.isNone_iff_eq_none, Option.some.injEq]
  constructor
  · intro h
    obtain ⟨command, rest, hcommand, rfl, roomId, rest', hroomId, r, hr, hend, rfl⟩ := h
    exact ⟨roomId, ⟨rest, hcommand, rest', hroomId, hend⟩, hr⟩
  · intro h
    obtain ⟨roomId, ⟨rest, hcommand, rest', hroomId, hend⟩, hr⟩ := h
    exact ⟨_, rest, hcommand, rfl, roomId, rest', hroomId, r, hr, hend, rfl⟩

theorem parseMessage_iff_words : parseMessage message = some a ↔
    (Words message ["clear".toList] ∧ a = .clearSelection) ∨
      ∃ command action row col r c, (command, action) ∈ cellCommands ∧ Words message [command.toList, row, col] ∧
        parseNonNegativeInt row = some r ∧ parseNonNegativeInt col = some c ∧ a = action r c := by
  unfold parseMessage
  simp only [nextToken_eq, Words, Lexing.reads_cons_iff, Lexing.reads_nil_iff, Option.bind_eq_bind,
    Option.bind_eq_some_iff, Prod.exists]
  constructor
  · intro h
    obtain ⟨command, rest, hcommand, h⟩ := h
    split at h
    · rename_i hclear
      subst hclear
      simp only [Option.ite_none_left_eq_some, Bool.not_eq_true,
        Option.isSome_eq_false_iff, Option.isNone_iff_eq_none, Option.some.injEq] at h
      exact .inl ⟨⟨rest, hcommand, h.1⟩, h.2.symm⟩
    · rw [Option.ite_none_right_eq_some] at h
      obtain ⟨hcell, h⟩ := h
      simp only [Option.bind_eq_some_iff, Prod.exists, Option.ite_none_left_eq_some, Bool.not_eq_true,
        Option.isSome_eq_false_iff, Option.isNone_iff_eq_none] at h
      obtain ⟨row, rest₁, hrow, col, rest₂, hcol, hend, r, hr, c, hc, h⟩ := h
      refine .inr ?_
      rcases hcell with rfl | rfl | rfl <;> obtain rfl := Option.some.inj h
      · exact ⟨"select", .select, row, col, r, c, .head _, ⟨rest, hcommand, rest₁, hrow, rest₂, hcol, hend⟩, hr, hc, rfl⟩
      · exact ⟨"move", .moveSelected, row, col, r, c, .tail _ (.head _),
          ⟨rest, hcommand, rest₁, hrow, rest₂, hcol, hend⟩, hr, hc, rfl⟩
      · exact ⟨"jump", .jumpAt, row, col, r, c, .tail _ (.tail _ (.head _)),
          ⟨rest, hcommand, rest₁, hrow, rest₂, hcol, hend⟩, hr, hc, rfl⟩
  · intro h
    rcases h with ⟨⟨rest, hcommand, hend⟩, rfl⟩ | ⟨command, action, row, col, r, c, hmem, hwords, hr, hc, rfl⟩
    · exact ⟨_, rest, hcommand, by rw [if_pos rfl, hend]; rfl⟩
    · obtain ⟨rest, hcommand, rest₁, hrow, rest₂, hcol, hend⟩ := hwords
      refine ⟨_, rest, hcommand, ?_⟩
      simp only [hrow, hcol, hend, hr, hc, Option.bind_some, Option.isSome_none, Bool.false_eq_true, if_false]
      simp only [cellCommands, List.mem_cons, Prod.mk.injEq, List.not_mem_nil, or_false] at hmem
      rcases hmem with ⟨rfl, rfl⟩ | ⟨rfl, rfl⟩ | ⟨rfl, rfl⟩ <;> rfl

theorem parseJoinGameMessage_eq_some_iff : parseJoinGameMessage message = some r ↔ SaysJoin Wraps message r := by
  have hjoin : IsWord "join_game".toList := by decide
  rw [parseJoinGameMessage_iff_words]
  constructor
  · intro h
    obtain ⟨roomId, hwords, hr⟩ := h
    have hwraps := parseNonNegativeInt_eq_some_iff.mp hr
    exact .join ((messageLine_iff hjoin (List.forall_mem_singleton.mpr hwraps.isWord)).mpr hwords) hwraps
  · intro h
    obtain ⟨hline, hwraps⟩ := h
    have hwords := (messageLine_iff hjoin (List.forall_mem_singleton.mpr hwraps.isWord)).mp hline
    exact ⟨_, hwords, parseNonNegativeInt_eq_some_iff.mpr hwraps⟩

theorem parseMessage_eq_some_iff : parseMessage message = some a ↔ Says Wraps message a := by
  have hclear : IsWord "clear".toList := by decide
  have hnone : ∀ word ∈ ([] : List Text), IsWord word := fun _ hmem => absurd hmem List.not_mem_nil
  rw [parseMessage_iff_words]
  constructor
  · intro h
    rcases h with ⟨hwords, rfl⟩ | ⟨command, action, row, col, r, c, hmem, hwords, hr, hc, rfl⟩
    · exact .clear ((messageLine_iff hclear hnone).mpr hwords)
    · have hrow := parseNonNegativeInt_eq_some_iff.mp hr
      have hcol := parseNonNegativeInt_eq_some_iff.mp hc
      have harguments := forall_mem_pair hrow.isWord hcol.isWord
      exact .cell hmem ((messageLine_iff (isWord_cellCommand hmem) harguments).mpr hwords) hrow hcol
  · intro h
    cases h with
    | clear hline => exact .inl ⟨(messageLine_iff hclear hnone).mp hline, rfl⟩
    | cell hmem hline hrow hcol =>
        have harguments := forall_mem_pair hrow.isWord hcol.isWord
        exact .inr ⟨_, _, _, _, _, _, hmem, (messageLine_iff (isWord_cellCommand hmem) harguments).mp hline,
          parseNonNegativeInt_eq_some_iff.mpr hrow, parseNonNegativeInt_eq_some_iff.mpr hcol, rfl⟩

end Parsers

/-! ### Numerals that the type does not hold -/

section Sizes

variable {message digits : Text}

theorem IsNumeral.unique {n n' : Nat} (h : IsNumeral digits n) (h' : IsNumeral digits n') : n = n' :=
  h.value.symm.trans h'.value

/-- In a message without oversized numerals every numeral fits. -/
theorem fits_of_not_oversized (h : ¬Oversized message) {command : String} {arguments : List Text}
    (hline : MessageLine message command arguments)
    (htakes : command ∈ cellCommands.map Prod.fst ∧ arguments.length = 2 ∨ command = "join_game" ∧ arguments.length = 1)
    (hnumerals : ∀ digits ∈ arguments, ∃ n, IsNumeral digits n) :
    ∀ digits ∈ arguments, ∀ n, Wraps digits n → FitsSize digits n := by
  intro digits hmem n hwraps
  obtain ⟨v, hnumeral, rfl⟩ := hwraps
  have hsmall : v < 2 ^ 64 := Nat.lt_of_not_le fun hlarge =>
    h ⟨command, arguments, hline, htakes, hnumerals, digits, hmem, v, hnumeral, hlarge⟩
  rw [Nat.mod_eq_of_lt hsmall]
  exact ⟨hnumeral, hsmall⟩

theorem says_wraps_iff (h : ¬Oversized message) (a : GameAction) : Says Wraps message a ↔ Says FitsSize message a := by
  constructor
  · intro haction
    cases haction with
    | clear hline => exact .clear hline
    | @cell _ _ row col _ _ hmem hline hrow hcol =>
        have hnumerals : ∀ digits ∈ [row, col], ∃ n, IsNumeral digits n := forall_mem_pair hrow.numeral hcol.numeral
        have hfits := fits_of_not_oversized h hline (.inl ⟨List.mem_map_of_mem hmem, rfl⟩) hnumerals
        exact .cell hmem hline (hfits row (.head _) _ hrow) (hfits col (.tail _ (.head _)) _ hcol)
  · intro haction
    cases haction with
    | clear hline => exact .clear hline
    | cell hmem hline hrow hcol => exact .cell hmem hline (wraps_of_fits hrow) (wraps_of_fits hcol)

theorem saysJoin_wraps_iff (h : ¬Oversized message) (r : Nat) : SaysJoin Wraps message r ↔ SaysJoin FitsSize message r := by
  constructor
  · intro h
    obtain @⟨roomId, _, hline, hwraps⟩ := h
    have hnumerals : ∀ digits ∈ [roomId], ∃ n, IsNumeral digits n := List.forall_mem_singleton.mpr hwraps.numeral
    exact .join hline (fits_of_not_oversized h hline (.inr ⟨rfl, rfl⟩) hnumerals roomId (.head _) _ hwraps)
  · intro h
    obtain ⟨hline, hfits⟩ := h
    exact .join hline (wraps_of_fits hfits)

/-- The grammar has a message for the action only if both numerals fit. -/
theorem Says.fits {command : String} {action : Nat → Nat → GameAction} {row col : Text} {r c : Nat}
    (h : Says FitsSize message (action r c)) (hcell : (command, action) ∈ cellCommands)
    (hline : MessageLine message command [row, col]) (hrow : IsWord row) (hcol : IsWord col) :
    ∀ digits ∈ [row, col], ∃ n, FitsSize digits n := by
  have hwords : ∀ word ∈ command.toList :: [row, col], IsWord word :=
    List.forall_mem_cons.mpr ⟨isWord_cellCommand hcell, forall_mem_pair hrow hcol⟩
  generalize action r c = a at h
  cases h with
  | clear hline' =>
      obtain ⟨-, hnone⟩ := hline.unique hline' hwords (by decide)
      cases hnone
  | cell hcell' hline' hrow' hcol' =>
      have hwords' := List.forall_mem_cons.mpr
        ⟨isWord_cellCommand hcell', forall_mem_pair hrow'.1.isWord hcol'.1.isWord⟩
      obtain ⟨-, hsame⟩ := hline.unique hline' hwords hwords'
      cases hsame
      exact forall_mem_pair ⟨_, hrow'⟩ ⟨_, hcol'⟩

theorem SaysJoin.fits {roomId : Text} {r : Nat} (h : SaysJoin FitsSize message r)
    (hline : MessageLine message "join_game" [roomId]) (hroomId : IsWord roomId) :
    ∀ digits ∈ [roomId], ∃ n, FitsSize digits n := by
  have hjoin : IsWord "join_game".toList := by decide
  obtain ⟨hline', hfits⟩ := h
  obtain ⟨-, hsame⟩ := hline.unique hline' (forall_mem_pair hjoin hroomId)
    (forall_mem_pair hjoin hfits.1.isWord)
  cases hsame
  exact List.forall_mem_singleton.mpr ⟨_, hfits⟩

end Sizes

/-! ### The parsers and the grammar -/

/-- The parsers take for an action, or for a request to join, what the grammar does, unless a numeral is too large for
the type: its value wraps around, where the grammar has none. -/
theorem messages_follow_grammar_iff (message : Text) :
    ((∀ a, parseMessage message = some a ↔ Says FitsSize message a) ∧
      ∀ r, parseJoinGameMessage message = some r ↔ SaysJoin FitsSize message r) ↔ ¬Oversized message := by
  constructor
  · rintro ⟨haction, hjoins⟩ ⟨command, arguments, hline, htakes, hnumerals, digits, hmem, n, hnumeral, hlarge⟩
    -- the numeral that is too large would fit
    suffices hfits : ∀ digits ∈ arguments, ∃ v, FitsSize digits v by
      obtain ⟨v, hv, hsmall⟩ := hfits digits hmem
      obtain rfl := hv.unique hnumeral
      exact Nat.not_lt.mpr hlarge hsmall
    rcases htakes with ⟨hcommand, hlength⟩ | ⟨rfl, hlength⟩
    · obtain ⟨row, col, rfl⟩ := List.length_eq_two.mp hlength
      obtain ⟨⟨_, action⟩, hcell, rfl⟩ := List.mem_map.mp hcommand
      obtain ⟨r, hr⟩ := hnumerals row (.head _)
      obtain ⟨c, hc⟩ := hnumerals col (.tail _ (.head _))
      have hsaid := (haction _).mp (parseMessage_eq_some_iff.mpr (.cell hcell hline ⟨r, hr, rfl⟩ ⟨c, hc, rfl⟩))
      exact hsaid.fits hcell hline hr.isWord hc.isWord
    · obtain ⟨roomId, rfl⟩ := List.length_eq_one_iff.mp hlength
      obtain ⟨r, hr⟩ := hnumerals roomId (.head _)
      have hsaid := (hjoins _).mp (parseJoinGameMessage_eq_some_iff.mpr (.join hline ⟨r, hr, rfl⟩))
      exact hsaid.fits hline hr.isWord
  · intro h
    refine ⟨fun a => ?_, fun r => ?_⟩
    · exact parseMessage_eq_some_iff.trans (says_wraps_iff h a)
    · exact parseJoinGameMessage_eq_some_iff.trans (saysJoin_wraps_iff h r)

/-- A row of `2 ^ 64` is read as the first. -/
theorem not_messages_follow_grammar :
    ¬∀ message, (∀ a, parseMessage message = some a ↔ Says FitsSize message a) ∧
      ∀ r, parseJoinGameMessage message = some r ↔ SaysJoin FitsSize message r := by
  intro hclaim
  have hread : parseMessage "select 18446744073709551616 0".toList = some (.select 0 0) := by decide
  have hline : MessageLine "select 18446744073709551616 0".toList "select" ["18446744073709551616".toList, "0".toList] := by
    have hgap : Lexing.IsGap isSpace isTokenEnd [' '] := ⟨⟨' ', rfl, rfl⟩, by decide⟩
    refine ⟨[], " 18446744073709551616 0".toList, [], rfl, by decide, by decide, ?_⟩
    exact .cons hgap (.cons hgap .nil)
  have hsaid := ((hclaim _).1 _).mp hread
  obtain ⟨n, hnumeral, hsmall⟩ := hsaid.fits (.head _) hline (by decide) (by decide) _ (.head _)
  obtain rfl := hnumeral.value
  exact absurd hsmall (by decide)

end KungFuChess
