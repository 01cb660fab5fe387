import KungFuChess.Model.Snapshot
import KungFuChess.Model.Match

/-!
# Messages

What a client may say to the server, as `server/game_message_parser.cpp` reads it, and what the server
answers. An answer is kept as a value; `ServerMessage.text` is the text that goes over the wire.
-/

namespace KungFuChess

/-! ### Tokens -/

/-- A token ends at one of these; a vertical tab or form feed is skipped before a token only. -/
def isTokenEnd (c : Char) : Bool := c = ' ' || c = '\t' || c = '\r' || c = '\n'

/-- The next token and what follows it. -/
def nextToken (message : Text) : Option (Text × Text) :=
  match message.dropWhile isSpace with
  | [] => none
  | c :: rest =>
      let message := c :: rest
      some (message.takeWhile fun c => !isTokenEnd c, message.dropWhile fun c => !isTokenEnd c)

/-- The loops at the start of every parser. -/
def trim (message : Text) : Text :=
  ((message.dropWhile isSpace).reverse.dropWhile isSpace).reverse

/-- The value wraps around with the type, `std::size_t`. -/
def parseNonNegativeInt (token : Text) : Option Nat :=
  if token.isEmpty || !token.all Char.isDigit then none
  else some (token.foldl (fun value ch => (value * 10 + (ch.toNat - '0'.toNat)) % 2 ^ 64) 0)

/-! ### Parsers -/

/-- A message that is one word alone. -/
def parseCommand (word message : Text) : Bool :=
  match nextToken (trim message) with
  | none => false
  | some (command, rest) => command == word && (nextToken rest).isNone

def parsePlayMessage (message : Text) : Bool := parseCommand "play".toList message

def parseResignMessage (message : Text) : Bool := parseCommand "resign".toList message

def parseJoinGameMessage (message : Text) : Option Nat := do
  let (command, rest) ← nextToken (trim message)
  if command ≠ "join_game".toList then none
  else
    let (roomIdToken, rest) ← nextToken rest
    let roomId ← parseNonNegativeInt roomIdToken
    if (nextToken rest).isSome then none else some roomId

structure LoginRequest where
  username : Text
  password : Text
deriving DecidableEq, Repr

def parseLoginMessage (message : Text) : Option LoginRequest := do
  let (command, rest) ← nextToken (trim message)
  if command ≠ "login".toList then none
  else
    let (username, rest) ← nextToken rest
    match nextToken rest with
    | none => some ⟨username, []⟩
    | some (password, rest) => if (nextToken rest).isSome then none else some ⟨username, password⟩

def parseMessage (message : Text) : Option GameAction := do
  let (command, rest) ← nextToken (trim message)
  if command = "clear".toList then
    if (nextToken rest).isSome then none else some .clearSelection
  else if command = "select".toList ∨ command = "move".toList ∨ command = "jump".toList then
    let (row, rest) ← nextToken rest
    let (col, rest) ← nextToken rest
    if (nextToken rest).isSome then none
    else
      let row ← parseNonNegativeInt row
      let col ← parseNonNegativeInt col
      if command = "select".toList then some (.select row col)
      else if command = "move".toList then some (.moveSelected row col)
      else some (.jumpAt row col)
  else none

/-! ### Answers -/

inductive LoginFailure where
  | alreadyConnected
  | invalidUsername
  | missingPassword
  | invalidPassword
  | usernameTaken
  | createFailed
deriving DecidableEq, Repr

inductive JoinFailure where
  | roomNotFound
  | notAuthenticated
  | roomNotReady
  | notAPlayer
deriving DecidableEq, Repr

inductive FinishReason where
  | kingCapture
  | resign
  | disconnect
deriving DecidableEq, Repr

inductive ServerMessage where
  | loginOk (rating : Int)
  | loginFailed (reason : LoginFailure)
  | searching
  | searchFailed
  | searchTimeout
  | matchFound (side : PieceColor)
  | gameStart (side : PieceColor)
  | gameRedirect (endpoint : Text) (roomId : Nat) (side : PieceColor)
  | joinOk (side : PieceColor)
  | joinFailed (reason : JoinFailure)
  | snapshot (text : Text)
  | gameResult (won : Bool) (reason : FinishReason) (rating : Int)
deriving DecidableEq, Repr

def LoginFailure.text : LoginFailure → Text
  | .alreadyConnected => "already_connected".toList
  | .invalidUsername => "invalid_username".toList
  | .missingPassword => "missing_password".toList
  | .invalidPassword => "invalid_password".toList
  | .usernameTaken => "username_taken".toList
  | .createFailed => "create_failed".toList

def JoinFailure.text : JoinFailure → Text
  | .roomNotFound => "room_not_found".toList
  | .notAuthenticated => "not_authenticated".toList
  | .roomNotReady => "room_not_ready".toList
  | .notAPlayer => "not_a_player".toList

def finishReasonToken : FinishReason → Text
  | .kingCapture => "checkmate".toList
  | .resign => "resign".toList
  | .disconnect => "opponent_disconnect".toList

def sideToken : PieceColor → Text
  | .white => "white".toList
  | .black => "black".toList

def ServerMessage.text : ServerMessage → Text
  | .loginOk rating => "login_ok ".toList ++ signedDecimal rating
  | .loginFailed reason => "login_failed ".toList ++ reason.text
  | .searching => "searching".toList
  | .searchFailed => "search_failed".toList
  | .searchTimeout => "search_timeout".toList
  | .matchFound side => "match_found ".toList ++ sideToken side
  | .gameStart side => "game_start ".toList ++ sideToken side
  | .gameRedirect endpoint roomId side =>
      "game_redirect ".toList ++ endpoint ++ [' '] ++ decimal roomId ++ [' '] ++ sideToken side
  | .joinOk side => "join_ok ".toList ++ sideToken side
  | .joinFailed reason => "join_failed ".toList ++ reason.text
  | .snapshot text => text
  | .gameResult won reason rating =>
      "game_result ".toList ++ (if won then "win".toList else "loss".toList) ++ [' ']
        ++ finishReasonToken reason ++ [' '] ++ signedDecimal rating ++ ['\n']

end KungFuChess
