import KungFuChess.Model.Message
import KungFuChess.Model.Redis

/-!
# What a client reads

The readers under `network/` for the answer to a login, for the messages of matchmaking, for the message that sends a
client to the server of its game and for the message that ends the game, and the address that the client dials,
`network/websocket_endpoint.cpp`.
-/

namespace KungFuChess

/-- The line up to the first line break, without its carriage returns. -/
def firstLine : Text → Text
  | [] => []
  | ch :: rest =>
      if ch = '\r' then firstLine rest
      else if ch = '\n' then []
      else ch :: firstLine rest

/-! ### Logins -/

inductive LoginResultStatus where
  | ok
  | failed
deriving DecidableEq, Repr

structure LoginResult where
  status : LoginResultStatus
  rating : Int
  failureReason : Text
deriving DecidableEq, Repr

def readLoginMessage (text : Text) : Option LoginResult :=
  match splitTokens (firstLine text) with
  | command :: argument :: arguments =>
      if command = "login_ok".toList then (stoi argument).map fun rating => ⟨.ok, rating, []⟩
      else if command = "login_failed".toList then some ⟨.failed, 0, [' '].intercalate (argument :: arguments)⟩
      else none
  | _ => none

/-! ### Matchmaking -/

inductive MatchmakingState where
  | idle
  | searching
  | matchedWhite
  | matchedBlack
  | gameStartingWhite
  | gameStartingBlack
  | playing
  | timeout
deriving DecidableEq, Repr

/-- The words after the side are not looked at, nor those after a message of one word. -/
def readMatchmakingMessage (text : Text) : Option MatchmakingState :=
  match splitTokens (firstLine text) with
  | [] => none
  | command :: arguments =>
      let side := arguments.head?
      if command = "searching".toList then some .searching
      else if command = "search_timeout".toList then some .timeout
      else if command = "match_found".toList ∧ side = some "white".toList then some .matchedWhite
      else if command = "match_found".toList ∧ side = some "black".toList then some .matchedBlack
      else if command = "game_start".toList ∧ side = some "white".toList then some .gameStartingWhite
      else if command = "game_start".toList ∧ side = some "black".toList then some .gameStartingBlack
      else none

/-! ### Redirects -/

structure GameRedirectInfo where
  endpoint : Text
  roomId : Nat
  side : PieceColor
deriving DecidableEq, Repr

def parseSideToken (token : Text) : Option PieceColor :=
  if token = "white".toList then some .white
  else if token = "black".toList then some .black
  else none

/-- A room id is as wide as `std::size_t`, and wraps around like it. -/
def parseRoomIdToken (token : Text) : Option Nat := parseNonNegativeInt token

def readGameRedirectMessage (text : Text) : Option GameRedirectInfo :=
  match splitTokens (firstLine text) with
  | [command, endpoint, roomId, side] =>
      if command ≠ "game_redirect".toList then none
      else do
        let side ← parseSideToken side
        let roomId ← parseRoomIdToken roomId
        if endpoint.isEmpty then none else some ⟨endpoint, roomId, side⟩
  | _ => none

/-! ### Results -/

structure GameResult where
  won : Bool
  reason : Text
  rating : Int
deriving DecidableEq, Repr

def readGameResultMessage (text : Text) : Option GameResult :=
  match splitTokens (firstLine text) with
  | [command, outcome, reason, rating] =>
      if command ≠ "game_result".toList then none
      else if outcome = "win".toList then (stoi rating).map fun rating => ⟨true, reason, rating⟩
      else if outcome ≠ "loss".toList then none
      else (stoi rating).map fun rating => ⟨false, reason, rating⟩
  | _ => none

/-! ### Endpoints -/

structure WebSocketEndpoint where
  host : Text
  port : Nat
deriving DecidableEq, Repr

/-- `rfind`: where the character is last. -/
def rfind (text : Text) (ch : Char) : Option Nat := (text.reverse.idxOf? ch).map fun i => text.length - 1 - i

def stripScheme (endpoint : Text) : Text :=
  if "ws://".toList.isPrefixOf endpoint then endpoint.drop 5
  else if "wss://".toList.isPrefixOf endpoint then endpoint.drop 6
  else endpoint

/-- The loop over the port, `portValue` being a `std::uint32_t`. -/
def parsePort (portValue : Nat) : Text → Option Nat
  | [] => some portValue
  | ch :: rest =>
      if !ch.isDigit then none
      else
        let portValue := (portValue * 10 + (ch.toNat - '0'.toNat)) % 2 ^ 32
        if portValue > 65535 then none else parsePort portValue rest

def parseWebSocketEndpoint (endpoint : Text) : Option WebSocketEndpoint :=
  let endpoint := stripScheme endpoint
  if endpoint.isEmpty then none
  else do
    let colon ← rfind endpoint ':'
    if colon = 0 ∨ colon + 1 ≥ endpoint.length then none
    else
      let portValue ← parsePort 0 (endpoint.drop (colon + 1))
      if portValue = 0 then none else some ⟨endpoint.take colon, portValue⟩

end KungFuChess
