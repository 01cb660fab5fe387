import KungFuChess.Model.GameServer
import KungFuChess.Model.Matchmaker

/-!
# The gateway and the matchmaker

The gateway on its own keeps the sessions, and the matchmaker the queues. The lobby handler of the gateway
joins through `MatchmakingHttpClient` and waits for the answer; a session that is pruned while it searches is
taken out through `GatewayMatchmakingDisconnectHandler`. The matchmaker executes one request at a time
(`MatchmakingHttpServer`) and posts what it has to say, which `GatewayNotificationHandler` is given on a thread
of its own, also while the lobby waits.

A request is executed at any time after it has been sent, and the requests in any order. The answer may never
come, and a client that has stopped waiting does not take its request back. What the matchmaker throws reaches
the client as no answer. A notification may be lost, and `GatewayNotifierHttpClient` does not send it again.
-/

namespace KungFuChess

/-! ### `LobbyMessageHandler` with the remote client -/

/-- What the matchmaker decodes: the fields are separated by bars and the region is the last that is read. -/
def MatchRequest.onWire (request : MatchRequest) : MatchRequest :=
  { request with region := request.region.takeWhile fun c => c != '|' }

namespace Server

variable (config : ServerConfig) (region : Text) (server : Server)

/-- A session with a user sends `play`, as far as the call of `join`. -/
def askToPlay (id : PlayerId) : Option MatchRequest × Server :=
  let server := server.modifyData id (·.requestPlay)
  match server.findSession id with
  | some session =>
      if session.state = .searching then
        (some ⟨id, session.userId.getD 0, session.rating, region⟩, server)
      else (none, server)
  | none => (none, server)

/-- One round of the loop of `LobbyMessageHandler::process`, as far as the call of `join`. -/
def lobbyRoundRemote (id : PlayerId) : Option MatchRequest × Server :=
  match server.findSession id with
  | none => (none, server)
  | some session =>
      if session.state = .playing ∨ !session.connection.isOpen then (none, server)
      else match server.tryRead .lobby id with
        | (none, server) => (none, server)
        | (some message, server) =>
            if session.state = .searching then (none, server)
            else if !session.hasUser then
              match parseLoginMessage message with
              | some request => (none, server.login config session.id request)
              | none => (none, server)
            else if parsePlayMessage message then server.askToPlay region session.id
            else (none, server)

/-- The rest of the round, once `join` has returned. -/
def joinReturned (id : PlayerId) (response : Option MatchResponse) : Server :=
  match response with
  | some ⟨.queued, _⟩ => server.send id .searching
  | some ⟨.error, _⟩ | none => (server.modifyData id (·.cancelSearch)).send id .searchFailed

/-! ### `GatewayMatchmakingDisconnectHandler` -/

/-- Whether pruning the session makes the gateway send `leave`. -/
def leavesSearch (id : PlayerId) : Bool :=
  (server.findSession id).any fun session => !session.connection.isOpen && session.state = .searching

end Server

/-! ### `GatewayNotificationHandler` -/

namespace GatewayNotificationHandler

variable (server : Server)

def notifyMatchFound (notification : MatchNotification) : Server :=
  let white := notification.whitePlayerId
  let black := notification.blackPlayerId
  match server.findSession white, server.findSession black with
  | some _, some _ =>
      let server := server.takeSides white black
      let server := (server.modifyData white (·.assignRoom notification.roomId)).modifyData black
        (·.assignRoom notification.roomId)
      let server := server.notifyMatchCreated white black
      (server.send white (.gameRedirect notification.endpoint notification.roomId .white)).send black
        (.gameRedirect notification.endpoint notification.roomId .black)
  | _, _ => server

def notifySearchTimeout (playerId : PlayerId) : Server :=
  (server.modifyData playerId (·.cancelSearch)).send playerId .searchTimeout

def handle : GatewayNotice → Server
  | .matchFound notification => notifyMatchFound server notification
  | .searchTimeout playerId => notifySearchTimeout server playerId

end GatewayNotificationHandler

/-! ### Both of them -/

/-- A request that the matchmaker has not executed yet. -/
inductive GatewayRequest where
  -- the lobby handler may have stopped waiting
  | join (request : MatchRequest) (awaited : Bool)
  | leave (playerId : PlayerId) (region : Text)
deriving DecidableEq, Repr

/-- The call of `join` that the lobby handler waits for. -/
structure JoinCall where
  session : PlayerId
  -- what has come of the request at the matchmaker
  outcome : Option (Except AllocationFailure MatchResponse) := none

structure GatewaySystem where
  gateway : Server
  matchmaker : RemoteMatchmakingService
  requests : List GatewayRequest := []
  call : Option JoinCall := none
  notices : List GatewayNotice := []

inductive GatewayStep where
  -- what happens to the gateway's clients
  | net (event : NetEvent)
  -- the loop of the gateway
  | accept
  | lobby (id : PlayerId)
  | pruneDisconnected
  | prune (id : PlayerId)
  -- the call of `join` returns with the answer, or without one; the request may have got through all the same
  | joinReturns
  | joinFails (arrives : Bool)
  -- the matchmaker
  | execute (index : Nat) (allocateGame : Allocator) (now : Int)
  | processQueue (now : Int) (region : Text)
  -- the listener of the gateway, which may not be reached
  | deliver (index : Nat)
  | lose (index : Nat)

def GatewayRequest.isAwaited : GatewayRequest → Bool
  | .join _ awaited => awaited
  | .leave _ _ => false

/-- Nobody waits for the answer any more. -/
def GatewayRequest.abandon : GatewayRequest → GatewayRequest
  | .join request _ => .join request false
  | .leave playerId region => .leave playerId region

namespace GatewaySystem

variable (config : ServerConfig) (region : Text) (s : GatewaySystem)

/-- Everybody has just been started. -/
def boot (users : UserRepository) (games : GameRepository) (now : Nat) (settings : MatchmakingConfig)
    (gatewayServerId : Text) : GatewaySystem where
  gateway := Server.boot users games now
  matchmaker := .new {} games settings gatewayServerId

/-- The loop goes on unless it waits for an answer. -/
def whenFree (next : GatewaySystem) : GatewaySystem := if s.call.isSome then s else next

/-- A call at the matchmaker, and what it posts. -/
def serve (matchmaker : RemoteMatchmakingService) : GatewaySystem :=
  { s with matchmaker, notices := s.notices ++ matchmaker.sent.drop s.matchmaker.sent.length }

def execute (index : Nat) (allocateGame : Allocator) (now : Int) : GatewaySystem :=
  match s.requests[index]? with
  | none => s
  | some (.leave playerId region) =>
      { s.serve (s.matchmaker.leaveQueue playerId region) with requests := s.requests.eraseIdx index }
  | some (.join request awaited) =>
      let (outcome, matchmaker) := s.matchmaker.enterQueue allocateGame now request
      { s.serve matchmaker with
        requests := s.requests.eraseIdx index
        call := if awaited then s.call.map ({ · with outcome := some outcome }) else s.call }

def step : GatewayStep → GatewaySystem
  | .net event => { s with gateway := s.gateway.occur event }
  | .accept => s.whenFree { s with gateway := s.gateway.acceptNewClients config }
  | .lobby id => s.whenFree (match s.gateway.lobbyRoundRemote config region id with
      | (none, gateway) => { s with gateway }
      | (some request, gateway) =>
          { s with
            gateway
            requests := s.requests ++ [.join request.onWire true]
            call := some { session := request.playerId } })
  | .pruneDisconnected => s.whenFree { s with gateway := s.gateway.pruneDisconnected }
  | .prune id => s.whenFree { s with
      gateway := s.gateway.pruneSession id
      requests := if s.gateway.leavesSearch id then
          s.requests ++ [.leave id (region.takeWhile fun c => c != '|')]
        else s.requests }
  | .joinReturns => match s.call with
      | some ⟨session, some (.ok response)⟩ =>
          { s with gateway := s.gateway.joinReturned session (some response), call := none }
      | _ => s
  | .joinFails arrives => match s.call with
      | none => s
      | some call =>
          { s with
            gateway := s.gateway.joinReturned call.session none
            requests := if arrives then s.requests.map (·.abandon)
              else s.requests.filter fun request => !request.isAwaited
            call := none }
  | .execute index allocateGame now => s.execute index allocateGame now
  | .processQueue now region => s.serve (s.matchmaker.processQueue now region)
  | .deliver index => match s.notices[index]? with
      | none => s
      | some notice =>
          { s with
            gateway := GatewayNotificationHandler.handle s.gateway notice
            notices := s.notices.eraseIdx index }
  | .lose index => { s with notices := s.notices.eraseIdx index }

def run (steps : List GatewayStep) : GatewaySystem := steps.foldl (step config region) s

end GatewaySystem

end KungFuChess
