import Mathlib.Data.Finset.Basic
import KungFuChess.Model.Room

/-!
# The server

The state that the handlers of `server/` share, and the parts of it that belong to none of them: the
client plane (`session/client_session_manager.cpp`, `network/session_message_sink.cpp`) and the game host
(`game/local_game_host.cpp`).

A pointer to a session is the session's id. Ids come from a counter that only goes up, and a pointer to
a session that has been erased is an id that no session has.

Times are in nanoseconds, as `steady_clock` counts them. Heartbeats and metrics, which no handler reads,
are left out.
-/

namespace KungFuChess

structure ServerConfig where
  maxClients : Nat
  maxRatingDifference : Int
  queueTimeoutMs : Int
  defaultBoard : BoardModel
  serverId : Text
  endpoint : Text
  hasher : PasswordHasher
  -- `RatingService::calculate`
  calculate : Int → Int → RatingChange
  -- `write_snapshot` of the view of a match
  generateSnapshot : Match → Text
  -- the order in which the hash table of the rooms is walked
  roomOrder : List RoomId → List RoomId
  roomOrder_perm : ∀ roomIds, (roomOrder roomIds).Perm roomIds

structure WaitingEntry where
  session : PlayerId
  enqueueTime : Nat
deriving DecidableEq, Repr

/-- What the server has done to the outside, in order. No handler reads it. -/
inductive JournalEntry where
  | matched (white black : PlayerId) (roomId : RoomId)
  | roomCreated (roomId : RoomId) (time : Nat)
  | ratingUpdated (userId : UserId) (rating : Int)
  | gameFinished (gameId winnerId : Int)
  | gameFinishedWithoutWinner (gameId : Int)
  | finishNotified (white black : PlayerId) (winner : PieceColor) (reason : FinishReason)
deriving DecidableEq, Repr

structure Server where
  sessions : List PlayerSession := []
  nextSessionId : PlayerId := 0
  -- clients that wait to be accepted
  backlog : Nat := 0
  onlineUsernames : Finset Text := ∅
  waiting : List WaitingEntry := []
  rooms : RoomManager := {}
  users : UserRepository := {}
  games : GameRepository := {}
  store : RuntimeStore := {}
  now : Nat := 0
  lastTick : Nat := 0
  journal : List JournalEntry := []

namespace Server

variable (config : ServerConfig) (server : Server)

def findSession (id : PlayerId) : Option PlayerSession := server.sessions.find? fun session => session.id == id

def modifySession (id : PlayerId) (f : PlayerSession → PlayerSession) : Server :=
  { server with
    sessions := server.sessions.map fun session => if session.id = id then f session else session }

def modifyData (id : PlayerId) (f : SessionData → SessionData) : Server :=
  server.modifySession id fun session => { session with toSessionData := f session.toSessionData }

def modifyConnection (id : PlayerId) (f : ClientConnection → ClientConnection) : Server :=
  server.modifySession id fun session => { session with connection := f session.connection }

def modifyRoom (roomId : RoomId) (f : Room → Room) : Server :=
  { server with rooms := server.rooms.modifyRoom roomId f }

def note (entry : JournalEntry) : Server := { server with journal := server.journal ++ [entry] }

/-! ### Connections -/

def tryRead (reader : Reader) (id : PlayerId) : Option Text × Server :=
  match server.findSession id with
  | none => (none, server)
  | some session =>
      let (message, connection) := session.connection.tryRead reader
      (message, server.modifyConnection id fun _ => connection)

def send (id : PlayerId) (message : ServerMessage) : Server :=
  server.modifyConnection id (·.trySend message)

def sendMessage (id : PlayerId) (message : ServerMessage) : Server :=
  server.modifyConnection id (·.sendMessage message)

def probe (id : PlayerId) : Server := server.modifyConnection id (·.detectPeerDisconnect)

def isPlayerConnected (id : PlayerId) : Bool := (server.findSession id).any (·.connection.isOpen)

/-! ### `ClientSessionManager` -/

/-- The clients of the backlog are those whose handshake succeeds; one that fails throws, and nothing catches it. -/
def acceptNewClients : Server :=
  if server.sessions.length ≥ config.maxClients then server
  else match server.backlog with
    | 0 => server
    | backlog + 1 =>
        { server with
          backlog
          sessions := server.sessions ++ [{ id := server.nextSessionId }]
          nextSessionId := server.nextSessionId + 1 }

def pruneDisconnected : Server :=
  { server with
    sessions := server.sessions.map fun session =>
      { session with connection := session.connection.detectPeerDisconnect } }

def registerSession (username : Text) : Server :=
  if username.isEmpty ∨ username ∈ server.onlineUsernames then server
  else { server with onlineUsernames := insert username server.onlineUsernames }

def unregisterSession (username : Text) : Server :=
  { server with onlineUsernames := server.onlineUsernames.erase username }

/-- `MatchmakingQueue::remove`. -/
def removeWaiting (id : PlayerId) : Server :=
  { server with waiting := server.waiting.filter fun entry => entry.session ≠ id }

/-- `on_session_disconnected` of the monolith. A game server on its own has no such handler; none of
its sessions searches. -/
def onSessionDisconnected (session : PlayerSession) : Server :=
  if session.state = .searching then server.removeWaiting session.id else server

/-- One round of the loop of `prune_sessions`. -/
def pruneSession (id : PlayerId) : Server :=
  match server.findSession id with
  | none => server
  | some session =>
      if session.connection.isOpen then server
      else
        let server :=
          match session.username with
          | some username => server.unregisterSession username
          | none => server
        let server := server.onSessionDisconnected session
        { server with sessions := server.sessions.filter fun session => session.id ≠ id }

/-! ### `LocalGameHost` -/

structure GameCreationRequest where
  whiteUserId : UserId
  blackUserId : UserId
  dbGameId : Option Int
deriving DecidableEq, Repr

def findSessionByUserId (userId : UserId) : Option PlayerSession :=
  server.sessions.find? fun session => session.userId == some userId

/-- The session a player is bound to when the room is made: 0 stands for none. -/
def playerIdOf (userId : UserId) : PlayerId := ((server.findSessionByUserId userId).map (·.id)).getD 0

def createRoom (request : GameCreationRequest) : RoomId × Server :=
  let white : GamePlayer := ⟨request.whiteUserId, .white, server.playerIdOf request.whiteUserId⟩
  let black : GamePlayer := ⟨request.blackUserId, .black, server.playerIdOf request.blackUserId⟩
  let (roomId, rooms) := server.rooms.createRoom config.defaultBoard
  let rooms := rooms.modifyRoom roomId (·.activate white black)
  let rooms :=
    match request.dbGameId with
    | some gameId => rooms.modifyRoom roomId (·.setDbGameId gameId)
    | none => rooms
  (roomId, { server with rooms }.note (.roomCreated roomId server.now))

/-- `GameAllocationHandler::allocate`: how a game server is asked for a room. -/
def allocate (request : GameCreationRequest) : Server :=
  let (roomId, server) := server.createRoom config request
  { server with
    store := server.store.registerRoom roomId request.whiteUserId request.blackUserId config.serverId
      config.endpoint }

end Server

end KungFuChess
