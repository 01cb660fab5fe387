import KungFuChess.Lib.Lexing
import KungFuChess.Proof.Snapshot
import KungFuChess.Model.NetworkInput

/-!
# What a client says is understood

Every text of a client is a line of words joined by single spaces, which the server takes off one by one. The first
word tells the five parsers apart, whatever the others are.
-/

namespace KungFuChess

/-! ### Taking words off a line -/

/-- What follows a word of a line: every further word after a space. -/
def spaced (tokens : List Text) : Text := tokens.flatMap (' ' :: ·)

theorem joinTokens_cons (token : Text) (tokens : List Text) : joinTokens (token :: tokens) = token ++ spaced tokens := by
  induction tokens generalizing token with
  | nil => exact (List.append_nil token).symm
  | cons next tokens ih =>
      rw [joinTokens, ih]
      rfl

theorem isSpace_of_isTokenEnd (c : Char) (h : isTokenEnd c = true) : isSpace c = true := by
  simp only [isTokenEnd, Bool.or_eq_true, decide_eq_true_eq] at h
  rcases h with ((rfl | rfl) | rfl) | rfl <;> rfl

theorem nextToken_eq (message : Text) : nextToken message = Lexing.next isSpace isTokenEnd message := by
  unfold nextToken Lexing.next
  cases message.dropWhile isSpace <;> rfl

section Words

variable {token : Text} {tokens : List Text}

theorem parted_spaced (tokens : List Text) : Lexing.Parted isSpace isTokenEnd tokens (spaced tokens) := by
  have hgap : Lexing.IsGap isSpace isTokenEnd [' '] := ⟨⟨' ', rfl, rfl⟩, by decide⟩
  induction tokens with
  | nil => exact .nil
  | cons token tokens ih => exact .cons hgap ih

/-- The first word is taken off, up to the space after it. -/
theorem nextToken_word (htoken : IsWord token) (tokens : List Text) :
    nextToken (token ++ spaced tokens) = some (token, spaced tokens) := by
  have hgap : Lexing.Blanks isSpace [] := by decide
  rw [nextToken_eq]
  exact Lexing.next_append isSpace_of_isTokenEnd hgap htoken (parted_spaced tokens).head

@[simp] theorem nextToken_spaced_nil : nextToken (spaced []) = none := rfl

theorem nextToken_spaced (htoken : IsWord token) (tokens : List Text) :
    nextToken (spaced (token :: tokens)) = some (token, spaced tokens) := by
  have hgap : Lexing.Blanks isSpace [' '] := by decide
  rw [nextToken_eq]
  exact Lexing.next_append isSpace_of_isTokenEnd hgap htoken (parted_spaced tokens).head

/-- A line of words has no space at its ends. -/
@[simp] theorem trim_joinTokens (htokens : ∀ token ∈ tokens, IsWord token) :
    trim (joinTokens tokens) = joinTokens tokens := by
  cases tokens with
  | nil => rfl
  | cons token tokens =>
      obtain ⟨htoken, htokens⟩ := List.forall_mem_cons.mp htokens
      have hnone : Lexing.Blanks isSpace [] := by decide
      have hline : Lexing.trim isSpace ([] ++ (token ++ spaced tokens) ++ []) = token ++ spaced tokens :=
        Lexing.trim_append hnone hnone (Lexing.head?_word htoken)
          ((parted_spaced tokens).getLast? htoken htokens)
      rw [List.append_nil] at hline
      rw [joinTokens_cons]
      exact hline

end Words

/-! ### Numbers -/

theorem foldl_digits (digits : Text) (value : Nat) :
    digits.foldl (fun value ch => (value * 10 + (ch.toNat - '0'.toNat)) % 2 ^ 64) (value % 2 ^ 64) =
      Nat.ofDigitChars 10 digits value % 2 ^ 64 := by
  induction digits generalizing value with
  | nil => rfl
  | cons c digits ih =>
      rw [List.foldl_cons, Nat.ofDigitChars_cons, ← ih, Nat.mul_comm 10 value, Nat.add_mod, Nat.mod_mul_mod,
        ← Nat.add_mod]

theorem parseNonNegativeInt_decimal (n : Size) : parseNonNegativeInt (decimal n) = some n.val := by
  have hdigits : (decimal n).all Char.isDigit = true := List.all_eq_true.mpr fun c hc => isDigit_of_mem_decimal hc
  have hvalue := foldl_digits (decimal n) 0
  rw [Nat.zero_mod, show Nat.ofDigitChars 10 (decimal n) 0 = n.val from Nat.ofDigitChars_ten_toDigits,
    Nat.mod_eq_of_lt n.isLt] at hvalue
  rw [parseNonNegativeInt, List.isEmpty_eq_false_iff.mpr (isWord_decimal n).1, hdigits]
  exact congrArg some hvalue

/-! ### The five parsers on a line of words -/

section Parsers

variable {command : Text} {arguments : List Text}

theorem nextToken_line (hcommand : IsWord command) (harguments : ∀ token ∈ arguments, IsWord token) :
    nextToken (trim (joinTokens (command :: arguments))) = some (command, spaced arguments) := by
  rw [trim_joinTokens (List.forall_mem_cons.mpr ⟨hcommand, harguments⟩), joinTokens_cons, nextToken_word hcommand]

theorem parseCommand_line (word : Text) (hcommand : IsWord command) (harguments : ∀ token ∈ arguments, IsWord token) :
    parseCommand word (joinTokens (command :: arguments)) = (command == word && arguments.isEmpty) := by
  unfold parseCommand
  rw [nextToken_line hcommand harguments]
  cases arguments with
  | nil => rfl
  | cons token tokens =>
      dsimp only
      rw [nextToken_spaced (harguments token List.mem_cons_self)]
      rfl

theorem parseJoinGameMessage_other (hcommand : IsWord command) (harguments : ∀ token ∈ arguments, IsWord token)
    (hne : command ≠ "join_game".toList) : parseJoinGameMessage (joinTokens (command :: arguments)) = none := by
  unfold parseJoinGameMessage
  rw [nextToken_line hcommand harguments]
  exact if_pos hne

theorem parseLoginMessage_other (hcommand : IsWord command) (harguments : ∀ token ∈ arguments, IsWord token)
    (hne : command ≠ "login".toList) : parseLoginMessage (joinTokens (command :: arguments)) = none := by
  unfold parseLoginMessage
  rw [nextToken_line hcommand harguments]
  exact if_pos hne

theorem parseMessage_other (hcommand : IsWord command) (harguments : ∀ token ∈ arguments, IsWord token)
    (hne : command ∉ ["clear".toList, "select".toList, "move".toList, "jump".toList]) :
    parseMessage (joinTokens (command :: arguments)) = none := by
  simp only [List.mem_cons, List.not_mem_nil, or_false, not_or] at hne
  obtain ⟨hclear, hselect, hmove, hjump⟩ := hne
  unfold parseMessage
  rw [nextToken_line hcommand harguments]
  exact (if_neg hclear).trans (if_neg (by rintro (h | h | h) <;> contradiction))

theorem parseMessage_cell (row col : Size) (hcommand : command ∈ ["select".toList, "move".toList, "jump".toList]) :
    parseMessage (joinTokens [command, decimal row, decimal col]) =
      if command = "select".toList then some (.select row col)
      else if command = "move".toList then some (.moveSelected row col)
      else some (.jumpAt row col) := by
  have hwords : ∀ token ∈ [decimal row.val, decimal col.val], IsWord token := by
    simp only [List.forall_mem_cons, List.not_mem_nil, false_imp_iff, forall_true_iff, and_true]
    exact ⟨isWord_decimal row, isWord_decimal col⟩
  have hword : IsWord command ∧ command ≠ "clear".toList := by
    simp only [List.mem_cons, List.not_mem_nil, or_false] at hcommand
    rcases hcommand with rfl | rfl | rfl <;> decide
  have hcases : command = "select".toList ∨ command = "move".toList ∨ command = "jump".toList := by
    simpa only [List.mem_cons, List.not_mem_nil, or_false] using hcommand
  unfold parseMessage
  rw [nextToken_line hword.1 hwords]
  simp only [Option.bind_eq_bind, Option.bind_some, if_neg hword.2, if_pos hcases,
    nextToken_spaced (isWord_decimal _), nextToken_spaced_nil, Option.isSome_none, Bool.false_eq_true, if_false,
    parseNonNegativeInt_decimal]

end Parsers

/-! ### Requests -/

/-- A name that can be sent, and a password that may be missing. -/
structure Credentials where
  username : Text
  password : Text
  isWord_username : IsWord username
  noSpace_password : ∀ c ∈ password, isSpace c = false

/-- What a client can ask for. -/
inductive ClientRequest where
  | select (row col : Size)
  | move (row col : Size)
  | jump (row col : Size)
  | clear
  | play
  | resign
  | joinGame (roomId : Size)
  | login (credentials : Credentials)

namespace ClientRequest

open NetworkInputHandler

/-- What the client sends. -/
def text : ClientRequest → Text
  | select row col => sendSelect row col
  | move row col => sendMove row col
  | jump row col => sendJump row col
  | clear => sendClear
  | play => sendPlay
  | resign => sendResign
  | joinGame roomId => sendJoinGame roomId
  | login credentials => sendLogin credentials.username credentials.password

/-- The words of the text. -/
def words : ClientRequest → List Text
  | select row col => ["select".toList, decimal row, decimal col]
  | move row col => ["move".toList, decimal row, decimal col]
  | jump row col => ["jump".toList, decimal row, decimal col]
  | clear => ["clear".toList]
  | play => ["play".toList]
  | resign => ["resign".toList]
  | joinGame roomId => ["join_game".toList, decimal roomId]
  | login credentials =>
      if credentials.password.isEmpty then ["login".toList, credentials.username]
      else ["login".toList, credentials.username, credentials.password]

theorem text_cell (command row col : Text) :
    command ++ [' '] ++ row ++ [' '] ++ col = joinTokens [command, row, col] := by
  simp only [joinTokens, List.append_assoc, List.cons_append, List.nil_append]

theorem text_argument (command argument : Text) : command ++ [' '] ++ argument = joinTokens [command, argument] := by
  simp only [joinTokens, List.append_assoc, List.singleton_append]

theorem text_eq (request : ClientRequest) : request.text = joinTokens request.words := by
  cases request with
  | select row col => exact text_cell "select".toList _ _
  | move row col => exact text_cell "move".toList _ _
  | jump row col => exact text_cell "jump".toList _ _
  | clear => rfl
  | play => rfl
  | resign => rfl
  | joinGame roomId => exact text_argument "join_game".toList _
  | login credentials =>
      rw [words, text, sendLogin]
      split
      · exact text_argument "login".toList _
      · exact text_cell "login".toList _ _

end ClientRequest

/-- What the five parsers make of a text. -/
@[ext]
structure Understood where
  message : Option GameAction := none
  play : Bool := false
  resign : Bool := false
  joinGame : Option Nat := none
  login : Option LoginRequest := none
deriving DecidableEq

def understand (message : Text) : Understood where
  message := parseMessage message
  play := parsePlayMessage message
  resign := parseResignMessage message
  joinGame := parseJoinGameMessage message
  login := parseLoginMessage message

/-- What is meant: one parser accepts the text with the values that were sent, and the others reject it. -/
def ClientRequest.meaning : ClientRequest → Understood
  | select row col => { message := some (.select row col) }
  | move row col => { message := some (.moveSelected row col) }
  | jump row col => { message := some (.jumpAt row col) }
  | clear => { message := some .clearSelection }
  | play => { play := true }
  | resign => { resign := true }
  | joinGame roomId => { joinGame := some roomId }
  | login credentials => { login := some ⟨credentials.username, credentials.password⟩ }

theorem understand_cell {command : Text} (row col : Size)
    (hcommand : command ∈ ["select".toList, "move".toList, "jump".toList]) :
    understand (joinTokens [command, decimal row, decimal col]) =
      { message := if command = "select".toList then some (.select row col)
          else if command = "move".toList then some (.moveSelected row col) else some (.jumpAt row col) } := by
  have hwords : ∀ token ∈ [decimal row.val, decimal col.val], IsWord token := by
    simp only [List.forall_mem_cons, List.not_mem_nil, false_imp_iff, forall_true_iff, and_true]
    exact ⟨isWord_decimal row, isWord_decimal col⟩
  have hmessage := parseMessage_cell row col hcommand
  simp only [List.mem_cons, List.not_mem_nil, or_false] at hcommand
  have hword : IsWord command ∧ command ≠ "join_game".toList ∧ command ≠ "login".toList := by
    rcases hcommand with rfl | rfl | rfl <;> decide
  obtain ⟨hword, hjoin, hlogin⟩ := hword
  refine Understood.ext hmessage ?_ ?_ (parseJoinGameMessage_other hword hwords hjoin)
    (parseLoginMessage_other hword hwords hlogin)
  · exact (parseCommand_line _ hword hwords).trans (Bool.and_false _)
  · exact (parseCommand_line _ hword hwords).trans (Bool.and_false _)

theorem understand_login (credentials : Credentials) :
    understand (joinTokens (ClientRequest.login credentials).words) = (ClientRequest.login credentials).meaning := by
  obtain ⟨username, password, huser, hpassword⟩ := credentials
  have hcommand : IsWord "login".toList := by decide
  have hline : ∀ arguments, (∀ token ∈ arguments, IsWord token) → arguments ≠ [] →
      understand (joinTokens ("login".toList :: arguments)) =
        { login := parseLoginMessage (joinTokens ("login".toList :: arguments)) } := by
    intro arguments harguments hne
    refine Understood.ext (parseMessage_other hcommand harguments (by decide)) ?_ ?_
      (parseJoinGameMessage_other hcommand harguments (by decide)) rfl
    · exact (parseCommand_line _ hcommand harguments).trans (Bool.false_and _)
    · exact (parseCommand_line _ hcommand harguments).trans (Bool.false_and _)
  unfold ClientRequest.words ClientRequest.meaning
  dsimp only
  cases password with
  | nil =>
      have harguments : ∀ token ∈ [username], IsWord token := List.forall_mem_singleton.mpr huser
      rw [if_pos List.isEmpty_nil, hline _ harguments (List.cons_ne_nil _ _)]
      unfold parseLoginMessage
      rw [nextToken_line hcommand harguments]
      simp only [Option.bind_eq_bind, Option.bind_some, ne_eq, not_true_eq_false, if_false, nextToken_spaced huser,
        nextToken_spaced_nil]
  | cons c rest =>
      have hword : IsWord (c :: rest) := ⟨List.cons_ne_nil _ _, hpassword⟩
      have harguments : ∀ token ∈ [username, c :: rest], IsWord token :=
        List.forall_mem_cons.mpr ⟨huser, List.forall_mem_singleton.mpr hword⟩
      rw [if_neg (by exact Bool.false_ne_true), hline _ harguments (List.cons_ne_nil _ _)]
      unfold parseLoginMessage
      rw [nextToken_line hcommand harguments]
      simp only [Option.bind_eq_bind, Option.bind_some, ne_eq, not_true_eq_false, if_false, nextToken_spaced huser,
        nextToken_spaced hword, nextToken_spaced_nil, Option.isSome_none, Bool.false_eq_true]

theorem understand_joinGame (roomId : Size) :
    understand (joinTokens ["join_game".toList, decimal roomId]) = { joinGame := some roomId.val } := by
  have hcommand : IsWord "join_game".toList := by decide
  have harguments : ∀ token ∈ [decimal roomId.val], IsWord token :=
    List.forall_mem_singleton.mpr (isWord_decimal roomId)
  refine Understood.ext (parseMessage_other hcommand harguments (by decide)) ?_ ?_ ?_
    (parseLoginMessage_other hcommand harguments (by decide))
  · exact (parseCommand_line _ hcommand harguments).trans (Bool.false_and _)
  · exact (parseCommand_line _ hcommand harguments).trans (Bool.false_and _)
  · show parseJoinGameMessage _ = _
    unfold parseJoinGameMessage
    rw [nextToken_line hcommand harguments]
    simp only [Option.bind_eq_bind, Option.bind_some, ne_eq, not_true_eq_false, if_false,
      nextToken_spaced (isWord_decimal _), nextToken_spaced_nil, Option.isSome_none, Bool.false_eq_true,
      parseNonNegativeInt_decimal]

/-- The server understands every request as it is meant, and in no other way. -/
theorem requests_are_understood (request : ClientRequest) : understand request.text = request.meaning := by
  rw [request.text_eq]
  cases request with
  | select row col => exact understand_cell row col (by decide)
  | move row col => exact understand_cell row col (by decide)
  | jump row col => exact understand_cell row col (by decide)
  | clear => decide
  | play => decide
  | resign => decide
  | joinGame roomId => exact understand_joinGame roomId
  | login credentials => exact understand_login credentials

end KungFuChess
