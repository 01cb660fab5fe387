import KungFuChess.Model.Message

/-!
# Connections and sessions

`server/client_connection.cpp` and `server/player_session.h`.

A connection is what the two ends have said to each other and how the link between them stands. The
program learns of a change of the link only when it uses the connection: `isOpen` is its own flag.

A `ClientConnection` lives in the list of the WebSocket server and its session points to it; both lists
gain and lose their elements together, so the connection is kept in its session. `prune_sessions` reads
the flag of a connection just after `prune_disconnected` has erased it: the flag it had is what the
model reads there.
-/

namespace KungFuChess

abbrev PlayerId := Nat
abbrev UserId := Nat
abbrev RoomId := Nat

/-! ### Connections -/

inductive PlayerSessionState where
  | connected
  | searching
  | playing
deriving DecidableEq, Repr

inductive FrameContent where
  | text (message : Text)
  -- a WebSocket close frame
  | close
deriving DecidableEq, Repr

structure Frame where
  content : FrameContent
  -- the state of the session when the frame came in; no handler reads it
  arrivedIn : PlayerSessionState
deriving DecidableEq, Repr

inductive Link where
  | up
  -- the peer has gone; what it sent before can still be read
  | ended
  -- writing fails
  | unwritable
  -- every use of the socket fails
  | failed
deriving DecidableEq, Repr

/-- Who reads a message. -/
inductive Reader where
  | lobby
  | join
  | input
deriving DecidableEq, Repr

structure ClientConnection where
  isOpen : Bool := true
  link : Link := .up
  pending : List Frame := []
  sent : List ServerMessage := []
  -- who called `try_read` last; no handler reads it
  lastReader : Option Reader := none
deriving DecidableEq, Repr

namespace ClientConnection

variable (connection : ClientConnection)

def close : ClientConnection := { connection with isOpen := false }

/-- The connection after `detect_peer_disconnect`, whose result is the negation of its flag. -/
def detectPeerDisconnect : ClientConnection :=
  if !connection.isOpen then connection
  else match connection.link with
    | .failed => connection.close
    | .ended => if connection.pending.isEmpty then connection.close else connection
    | .up | .unwritable => connection

def tryRead (reader : Reader) : Option Text × ClientConnection :=
  if !connection.isOpen then (none, connection)
  else
    let connection := { connection with lastReader := some reader }
    if connection.link = .failed then (none, connection.close)
    else match connection.pending with
      | [] => (none, connection.detectPeerDisconnect)
      | ⟨.text message, _⟩ :: pending => (some message, { connection with pending })
      | ⟨.close, _⟩ :: pending => (none, { connection with pending }.close)

/-- The write of `try_send` and of `send_message`. -/
def write (message : ServerMessage) : ClientConnection :=
  match connection.link with
  | .failed | .unwritable => connection.close
  | .up | .ended => { connection with sent := connection.sent ++ [message] }

def trySend (message : ServerMessage) : ClientConnection :=
  let connection := connection.detectPeerDisconnect
  if !connection.isOpen then connection else connection.write message

/-- Writes without looking at the link first; where the write goes through, the connection counts as
open. -/
def sendMessage (message : ServerMessage) : ClientConnection :=
  { connection with isOpen := true }.write message

end ClientConnection

/-! ### Sessions -/

/-- `static_cast<UserId>` of an `int`. -/
def userIdOfInt (id : Int) : UserId := (id % 2 ^ 64).toNat

/-- `static_cast<int>` of a `UserId`. -/
def intOfUserId (userId : UserId) : Int := (userId : Int).bmod (2 ^ 32)

structure Player where
  id : Int
  username : Text
  rating : Int
deriving DecidableEq, Repr

/-- `user_id_` and `player_profile_`, which are assigned together. -/
structure SessionUser where
  userId : UserId
  profile : Player
deriving DecidableEq, Repr

/-- What a session says of its player. -/
structure SessionData where
  id : PlayerId
  state : PlayerSessionState := .connected
  user : Option SessionUser := none
  side : Option PieceColor := none
  roomId : Option RoomId := none
deriving DecidableEq, Repr

structure PlayerSession extends SessionData where
  connection : ClientConnection := {}
deriving DecidableEq, Repr

namespace SessionData

variable (session : SessionData)

def hasUser : Bool := session.user.isSome

def hasRoom : Bool := session.roomId.isSome

def username : Option Text := session.user.map (·.profile.username)

def userId : Option UserId := session.user.map (·.userId)

/-- `rating()`; it is asked for only where the session has a user. -/
def rating : Int := (session.user.map (·.profile.rating)).getD 0

def assignUser (userId : UserId) (username : Text) (rating : Int) : SessionData :=
  { session with user := some ⟨userId, ⟨intOfUserId userId, username, rating⟩⟩ }

def requestPlay : SessionData :=
  if session.state = .connected ∧ session.hasUser then { session with state := .searching } else session

def cancelSearch : SessionData :=
  if session.state = .searching then { session with state := .connected } else session

def setPlaying : SessionData := { session with state := .playing }

def setSide (side : PieceColor) : SessionData := { session with side := some side }

def clearSide : SessionData := { session with side := none }

def assignRoom (roomId : RoomId) : SessionData := { session with roomId := some roomId }

def clearRoom : SessionData := { session with roomId := none }

end SessionData

end KungFuChess
