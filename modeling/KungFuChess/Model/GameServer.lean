import KungFuChess.Lib.Programs
import KungFuChess.Model.Runtime

/-!
# Ticks

`gateway_server.cpp`, `game_server_runtime.cpp` and `game_server.cpp` as programs over the rounds of the
handlers. Between two operations the network and the clock may do anything: clients knock, frames arrive,
links fail, time passes. An operation takes at most one frame off a connection, so every order in which
frames can arrive and be read is there.

The same runtime serves in two places. In the monolith, `GameServer`, the gateway keeps the connections
and the runtime does not; a game server on its own keeps them itself.
-/

namespace KungFuChess

/-! ### What can happen -/

inductive NetEvent where
  -- a client asks to be accepted
  | connect
  | deliver (id : PlayerId) (content : FrameContent)
  | setLink (id : PlayerId) (link : Link)
  -- nanoseconds pass
  | pass (duration : Nat)
deriving DecidableEq, Repr

namespace Server

def occur (server : Server) : NetEvent → Server
  | .connect => { server with backlog := server.backlog + 1 }
  | .deliver id content =>
      server.modifySession id fun session =>
        { session with
          connection.pending := session.connection.pending ++ [⟨content, session.state⟩] }
  | .setLink id link => server.modifyConnection id ({ · with link })
  | .pass duration => { server with now := server.now + duration }

end Server

/-! ### What the server can do -/

inductive ServerOp where
  | acceptNewClients
  | lobby (id : PlayerId)
  | processTimeouts
  | pruneDisconnected
  | prune (id : PlayerId)
  | join (id : PlayerId)
  | allocate (request : Server.GameCreationRequest)
  | readClock
  | probeRoom (roomId : RoomId)
  | tickRoom (roomId : RoomId) (elapsed : Int)
  | playRoomInputs (roomId : RoomId)
  | finish (roomId : RoomId) (winner : Option PieceColor) (reason : FinishReason)
  | removeInactiveRooms
deriving DecidableEq, Repr

abbrev ServerOp.Result : ServerOp → Type
  | .readClock => Nat
  | .playRoomInputs _ => Option PieceColor
  | _ => Unit

namespace Server

variable (config : ServerConfig) (server : Server)

def apply : (op : ServerOp) → Except ServerFault (op.Result × Server)
  | .acceptNewClients => .ok ((), server.acceptNewClients config)
  | .lobby id => .ok ((), server.lobbyRound config id)
  | .processTimeouts => .ok ((), server.processTimeouts config)
  | .pruneDisconnected => .ok ((), server.pruneDisconnected)
  | .prune id => .ok ((), server.pruneSession id)
  | .join id => .ok ((), server.joinRound id)
  | .allocate request => .ok ((), server.allocate config request)
  | .readClock => .ok (server.now, server)
  | .probeRoom roomId => .ok ((), server.probeRoom roomId)
  | .tickRoom roomId elapsed => (server.tickRoom config roomId elapsed).map ((), ·)
  | .playRoomInputs roomId => server.playRoomInputs roomId
  | .finish roomId winner reason => (server.finish config roomId winner reason).map ((), ·)
  | .removeInactiveRooms => .ok ((), { server with rooms := server.rooms.removeInactiveRooms })

/-- `RoomManager::active_rooms`. -/
def activeRooms : List RoomId :=
  config.roomOrder ((server.rooms.rooms.filter (·.active)).map (·.id))

end Server

/-- A server that has just been started, on databases that are there already. -/
def Server.boot (users : UserRepository) (games : GameRepository) (now : Nat) : Server :=
  { users, games, now, lastTick := now }

abbrev serverMachine (config : ServerConfig) : Machine where
  State := Server
  Event := NetEvent
  Op := ServerOp
  Fault := ServerFault
  Result := ServerOp.Result
  occur := fun event server => server.occur event
  apply := fun op server => server.apply config op

abbrev ServerProg (config : ServerConfig) := Machine.Prog (serverMachine config)

abbrev ServerWorld (config : ServerConfig) := Machine.World (serverMachine config)

/-! ### Ticks -/

section Ticks

variable (config : ServerConfig)

def perform (op : ServerOp) : ServerProg config op.Result := Machine.Prog.perform (M := serverMachine config) op

def look {α : Type} (f : Server → α) : ServerProg config α := Machine.Prog.read (M := serverMachine config) f

def sessionIds (server : Server) : List PlayerId := server.sessions.map (·.id)

def processLobby : ServerProg config Unit := do
  (← look config sessionIds).forM fun id => perform config (.lobby id)

def pruneSessions : ServerProg config Unit := do
  perform config .pruneDisconnected
  (← look config sessionIds).forM fun id => perform config (.prune id)

def processJoins : ServerProg config Unit := do
  (← look config sessionIds).forM fun id => perform config (.join id)

/-- `GatewayServer::tick_once` in the monolith. -/
def gatewayTick : ServerProg config Unit := do
  perform config .acceptNewClients
  processLobby config
  perform config .processTimeouts
  pruneSessions config

/-- The end of a round of `ActiveRoomProcessor::process`. -/
def finishIfOver (roomId : RoomId) : ServerProg config Unit := do
  match ← look config (·.rooms.findRoom roomId) with
  | none => pure ()
  | some room =>
      if room.isGameOver then perform config (.finish roomId room.game.state.winningColor .kingCapture)
      else pure ()

def playInputs (roomId : RoomId) : ServerProg config Unit := do
  match ← look config (·.rooms.findRoom roomId) with
  | none => pure ()
  | some room =>
      if room.active && !room.isGameOver then
        match ← perform config (.playRoomInputs roomId) with
        | some winner => perform config (.finish roomId (some winner) .resign)
        | none => pure ()
      else pure ()

/-- A room whose players are both there. -/
def playRoom (room : Room) (elapsed : Int) : ServerProg config Unit := do
  if elapsed ≥ kTargetFrameMs ∧ !room.isGameOver then
    perform config (.tickRoom room.id elapsed)
  playInputs config room.id
  finishIfOver config room.id

/-- One round of the loop of `ActiveRoomProcessor::process`. -/
def processRoom (elapsed : Int) (roomId : RoomId) : ServerProg config Unit := do
  match ← look config (·.rooms.findRoom roomId) with
  | none => pure ()
  | some room =>
      if room.whitePlayer.isNone || room.blackPlayer.isNone then pure ()
      else do
        perform config (.probeRoom roomId)
        if ← look config (·.bothRoomPlayersDisconnected room) then
          perform config (.finish roomId none .disconnect)
        else
          match ← look config (·.disconnectedPlayerColor room) with
          | some disconnected => perform config (.finish roomId (some (opponentOf disconnected)) .disconnect)
          | none => playRoom config room elapsed

/-- `duration_cast<milliseconds>` of the time since the last tick. -/
def elapsedMs (now lastTick : Nat) : Int := ((now : Int) - lastTick).tdiv (10 ^ 6)

/-- `GameServerRuntime::tick_once`. -/
def runtimeTick (managesConnections : Bool) : ServerProg config Unit := do
  if managesConnections then perform config .acceptNewClients
  processJoins config
  let now ← perform config .readClock
  let elapsed := elapsedMs now (← look config (·.lastTick))
  (← look config (·.activeRooms config)).forM (processRoom config elapsed)
  perform config .removeInactiveRooms
  if managesConnections then pruneSessions config

/-- `GameServer::tick_once`. -/
def gameServerTick : ServerProg config Unit := do
  gatewayTick config
  runtimeTick config false

/-- A turn of one of the loops, or a call that comes in between two turns. -/
inductive ServerCall where
  | gatewayTick
  | runtimeTick (managesConnections : Bool)
  | gameServerTick
  | allocate (request : Server.GameCreationRequest)
  | finishRoom (roomId : RoomId) (winner : Option PieceColor) (reason : FinishReason)
deriving DecidableEq, Repr

def ServerCall.prog : ServerCall → ServerProg config Unit
  | .gatewayTick => KungFuChess.gatewayTick config
  | .runtimeTick managesConnections => KungFuChess.runtimeTick config managesConnections
  | .gameServerTick => KungFuChess.gameServerTick config
  | .allocate request => perform config (.allocate request)
  | .finishRoom roomId winner reason => perform config (.finish roomId winner reason)

def serve (calls : List ServerCall) : ServerProg config Unit := calls.forM (ServerCall.prog config)

end Ticks

end KungFuChess
