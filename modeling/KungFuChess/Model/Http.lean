import KungFuChess.Model.Codec
import KungFuChess.Model.Fleet
import KungFuChess.Model.Gateway

/-!
# Requests between the services

The services call one another by HTTP: `MatchmakingHttpClient` and `MatchmakingHttpServer`, `GatewayNotifierHttpClient`
and `GatewayNotificationListener`, `GameAllocationHttpClient` and `GameCreationListener`. A request is what its reader
looks at: the verb, the target, the service token if there is one, and the body. How it is framed is left to the
library that both sides use.
-/

namespace KungFuChess

inductive HttpVerb where
  | get
  | post
  | other
deriving DecidableEq, Repr

inductive HttpStatus where
  | ok
  | badRequest
  | unauthorized
  | notFound
  | methodNotAllowed
deriving DecidableEq, Repr

structure HttpRequest where
  verb : HttpVerb
  target : Text
  -- `X-KFC-Service-Token`
  serviceToken : Option Text := none
  body : Text
deriving DecidableEq, Repr

structure HttpResponse where
  status : HttpStatus
  body : Text
deriving DecidableEq, Repr

def HttpResponse.badRequest : HttpResponse := ⟨.badRequest, "Bad Request".toList⟩

def HttpResponse.unauthorized : HttpResponse := ⟨.unauthorized, "Unauthorized".toList⟩

def HttpResponse.notFound : HttpResponse := ⟨.notFound, "Not Found".toList⟩

def HttpResponse.methodNotAllowed : HttpResponse := ⟨.methodNotAllowed, "Method Not Allowed".toList⟩

/-! ### Endpoints -/

structure ParsedEndpoint where
  host : Text
  port : Text
  target : Text
deriving DecidableEq, Repr

def httpScheme : Text := "http://".toList

/-- `parse_endpoint`. An endpoint with a path of its own keeps it, whatever path is asked for. -/
def parseEndpoint (endpoint path : Text) : Option ParsedEndpoint :=
  if !httpScheme.isPrefixOf endpoint then none
  else
    let remainder := endpoint.drop httpScheme.length
    let hostPort := remainder.takeWhile (· ≠ '/')
    let rest := remainder.dropWhile (· ≠ '/')
    let target := if rest.isEmpty then path else rest
    match hostPort.dropWhile (· ≠ ':') with
    | [] => some ⟨hostPort, "80".toList, target⟩
    | _ :: port => some ⟨hostPort.takeWhile (· ≠ ':'), port, target⟩

/-- What `post_text` writes. -/
def postText (endpoint path body : Text) : Option HttpRequest :=
  (parseEndpoint endpoint path).map fun parsed => { verb := .post, target := parsed.target, body }

/-- What `post_text` makes of the response. -/
def HttpResponse.text (response : HttpResponse) : Option Text :=
  if response.status = .ok then some response.body else none

/-! ### The matchmaker -/

def joinPath : Text := "/matchmaking/join".toList

def leavePath : Text := "/matchmaking/leave".toList

namespace MatchmakingHttpClient

/-- The request of `join`. -/
def join (endpoint : Text) (request : MatchRequest) : Option HttpRequest :=
  postText endpoint joinPath (encodeMatchRequest request)

/-- What `join` returns for a response. -/
def joined (response : HttpResponse) : Option MatchResponse := response.text.bind decodeMatchResponse

def leave (endpoint : Text) (playerId : PlayerId) (region : Text) : Option HttpRequest :=
  postText endpoint leavePath (encodeMatchRequest ⟨playerId, 0, 0, region⟩)

end MatchmakingHttpClient

/-- `MatchmakingHttpServer::handle_connection`. What `enter_queue` throws closes the connection without a response. -/
def MatchmakingHttpServer.handle (service : RemoteMatchmakingService) (allocateGame : Allocator) (now : Int)
    (request : HttpRequest) : Option HttpResponse × RemoteMatchmakingService :=
  if request.verb ≠ .post then (some .methodNotAllowed, service)
  else if request.target = joinPath then
    match decodeMatchRequest request.body with
    | none => (some .badRequest, service)
    | some decoded =>
        match service.enterQueue allocateGame now decoded with
        | (.ok response, service) => (some ⟨.ok, encodeMatchResponse response⟩, service)
        | (.error _, service) => (none, service)
  else if request.target = leavePath then
    match decodeMatchRequest request.body with
    | none => (some .badRequest, service)
    | some decoded =>
        (some ⟨.ok, encodeMatchResponse ⟨.queued, "left".toList⟩⟩, service.leaveQueue decoded.playerId decoded.region)
  else (some .notFound, service)

/-! ### The gateway -/

def notifyMatchPath : Text := "/gateway/notify/match".toList

def notifyTimeoutPath : Text := "/gateway/notify/timeout".toList

/-- `GatewayNotifierHttpClient`. -/
def GatewayNotifierHttpClient.notify (endpoint : Text) : GatewayNotice → Option HttpRequest
  | .matchFound notification => postText endpoint notifyMatchPath (encodeMatchNotification notification)
  | .searchTimeout playerId => postText endpoint notifyTimeoutPath (encodeTimeoutNotification playerId)

/-- `GatewayNotificationListener::handle_connection`. -/
def GatewayNotificationListener.handle (server : Server) (request : HttpRequest) : HttpResponse × Server :=
  if request.verb ≠ .post then (.methodNotAllowed, server)
  else if request.target = notifyMatchPath then
    match decodeMatchNotification request.body with
    | none => (.badRequest, server)
    | some notification => (⟨.ok, "OK".toList⟩, GatewayNotificationHandler.notifyMatchFound server notification)
  else if request.target = notifyTimeoutPath then
    match decodeTimeoutNotification request.body with
    | none => (.badRequest, server)
    | some playerId => (⟨.ok, "OK".toList⟩, GatewayNotificationHandler.notifySearchTimeout server playerId)
  else (.notFound, server)

/-! ### Game servers -/

def allocatePath : Text := "/allocate".toList

/-- `GameAllocationHttpClient`: the request is written with the token if there is one. -/
def GameAllocationHttpClient.allocate (serviceToken endpoint : Text) (request : Server.GameCreationRequest) :
    Option HttpRequest :=
  (postText endpoint allocatePath (encodeGameCreationRequest request)).map fun posted =>
    { posted with serviceToken := if serviceToken.isEmpty then none else some serviceToken }

/-- What `allocate` returns for a response. -/
def GameAllocationHttpClient.allocated (response : HttpResponse) : Option GameCreationResponse :=
  response.text.bind decodeGameCreationResponse

def serviceTokenIsValid (request : HttpRequest) (expectedServiceToken : Text) : Bool :=
  if expectedServiceToken.isEmpty then true
  else match request.serviceToken with
    | none => false
    | some token => token = expectedServiceToken

/-- `GameCreationListener::handle_connection`, as far as the call of `allocate`. -/
def GameCreationListener.accept (expectedServiceToken : Text) (request : HttpRequest) :
    Except HttpResponse Server.GameCreationRequest :=
  if request.verb ≠ .post ∨ request.target ≠ allocatePath then .error .notFound
  else if !serviceTokenIsValid request expectedServiceToken then .error .unauthorized
  else match decodeGameCreationRequest request.body with
    | some decoded => .ok decoded
    | none => .error .badRequest

namespace Fleet

variable (fleet : Fleet)

/-- `GameAllocationHandler::allocate` on the server behind an endpoint: the response. -/
def allocateAt (host : GameHost) (request : Server.GameCreationRequest) : GameCreationResponse :=
  ⟨((fleet.serverOf host).createRoom host.config request).1, host.config.serverId,
    if host.config.endpoint.isEmpty then none else some host.config.endpoint⟩

/-- `GameAllocationHttpClient::allocate` with `GameCreationListener` at the other end. The servers expect the tokens
of `expected`. -/
def postHttp (expected : Text → Text) (serviceToken : Text) (request : Server.GameCreationRequest) (attempt : Attempt) :
    Option GameCreationResponse × List FleetStep :=
  let endpoint := attempt.candidate.allocationEndpoint
  match GameAllocationHttpClient.allocate serviceToken endpoint request with
  | none => (none, [])
  | some posted =>
      match fleet.hosts endpoint, attempt.delivery with
      | none, _ | some _, .requestLost => (none, [])
      | some host, delivery =>
          match GameCreationListener.accept (expected endpoint) posted with
          | .error _ => (none, [])
          | .ok decoded =>
              let response : HttpResponse := ⟨.ok, encodeGameCreationResponse (fleet.allocateAt host decoded)⟩
              (if delivery = .delivered then GameAllocationHttpClient.allocated response else none,
                [⟨endpoint, .inr (.allocate decoded)⟩])

/-- The loop of `RemoteGameAllocator::allocate_game`, with what goes on before each request. -/
def tryCandidatesHttp (expected : Text → Text) (serviceToken : Text) (request : Server.GameCreationRequest) :
    Nat → List Attempt → List (List FleetStep) → Fleet →
      Option (GameServerRecord × GameCreationResponse) × List FleetStep
  | 0, _, _, _ | _, [], _, _ => (none, [])
  | retries + 1, attempt :: attempts, meanwhile, fleet =>
      let before := meanwhile.headD []
      match (fleet.run before).postHttp expected serviceToken request attempt with
      | (some response, tried) => (some (attempt.candidate, response), before ++ tried)
      | (none, tried) =>
          let (answer, steps) :=
            tryCandidatesHttp expected serviceToken request retries attempts meanwhile.tail (fleet.run (before ++ tried))
          (answer, before ++ tried ++ steps)

/-- `RemoteGameAllocator::allocate_game` with `GameAllocationHttpClient`. -/
def allocateGameHttp (expected : Text → Text) (serviceToken : Text) (request : Server.GameCreationRequest)
    (maxRetryCount : Nat) (attempts : List Attempt) (meanwhile : List (List FleetStep)) :
    Except AllocationFailure (GameServerRecord × GameCreationResponse) × List FleetStep :=
  if attempts.isEmpty then (.error .noServers, [])
  else match tryCandidatesHttp expected serviceToken request maxRetryCount attempts meanwhile fleet with
    | (none, steps) => (.error .allFailed, steps)
    | (some (candidate, result), steps) =>
        let result :=
          if result.gameServerId.isEmpty then { result with gameServerId := candidate.serverId } else result
        let result :=
          if (result.endpoint.getD []).isEmpty then { result with endpoint := some candidate.endpoint } else result
        (.ok (candidate, result), steps)

end Fleet

/-! ### The gateway and the matchmaker over HTTP -/

structure WireRequest where
  request : HttpRequest
  -- the lobby handler waits for the response
  awaited : Bool
deriving DecidableEq, Repr

/-- The call of `join` that the lobby handler waits for. -/
structure WireCall where
  session : PlayerId
  -- what the listener has done: a response, or the connection is closed without one
  answer : Option (Option HttpResponse) := none
deriving DecidableEq, Repr

/-- `GatewaySystem` with requests and responses as they are sent. -/
structure WireSystem where
  gateway : Server
  matchmaker : RemoteMatchmakingService
  requests : List WireRequest := []
  call : Option WireCall := none
  notices : List HttpRequest := []

structure WireConfig where
  server : ServerConfig
  region : Text
  -- where the gateway sends its requests, and the matchmaker its notices
  matchmakerEndpoint : Text
  notificationEndpoint : Text

namespace WireSystem

variable (config : WireConfig) (w : WireSystem)

def boot (users : UserRepository) (games : GameRepository) (now : Nat) (settings : MatchmakingConfig)
    (gatewayServerId : Text) : WireSystem where
  gateway := Server.boot users games now
  matchmaker := .new {} games settings gatewayServerId

def whenFree (next : WireSystem) : WireSystem := if w.call.isSome then w else next

/-- What the matchmaker posts goes out. -/
def serve (matchmaker : RemoteMatchmakingService) : WireSystem :=
  { w with
    matchmaker
    notices := w.notices ++ (matchmaker.sent.drop w.matchmaker.sent.length).filterMap
      (GatewayNotifierHttpClient.notify config.notificationEndpoint) }

def execute (index : Nat) (allocateGame : Allocator) (now : Int) : WireSystem :=
  match w.requests[index]? with
  | none => w
  | some posted =>
      let (answer, matchmaker) := MatchmakingHttpServer.handle w.matchmaker allocateGame now posted.request
      { w.serve config matchmaker with
        requests := w.requests.eraseIdx index
        call := if posted.awaited then w.call.map ({ · with answer := some answer }) else w.call }

/-- A call of `join` that cannot be sent returns without an answer. -/
def step : GatewayStep → WireSystem
  | .net event => { w with gateway := w.gateway.occur event }
  | .accept => w.whenFree { w with gateway := w.gateway.acceptNewClients config.server }
  | .lobby id => w.whenFree (match w.gateway.lobbyRoundRemote config.server config.region id with
      | (none, gateway) => { w with gateway }
      | (some request, gateway) =>
          match MatchmakingHttpClient.join config.matchmakerEndpoint request with
          | none => { w with gateway := gateway.joinReturned request.playerId none }
          | some posted =>
              { w with
                gateway
                requests := w.requests ++ [⟨posted, true⟩]
                call := some { session := request.playerId } })
  | .pruneDisconnected => w.whenFree { w with gateway := w.gateway.pruneDisconnected }
  | .prune id => w.whenFree { w with
      gateway := w.gateway.pruneSession id
      requests := if w.gateway.leavesSearch id then
          w.requests ++ (MatchmakingHttpClient.leave config.matchmakerEndpoint id config.region).toList.map (⟨·, false⟩)
        else w.requests }
  | .joinReturns => match w.call with
      | some ⟨session, some (some response)⟩ =>
          { w with gateway := w.gateway.joinReturned session (MatchmakingHttpClient.joined response), call := none }
      | _ => w
  | .joinFails arrives => match w.call with
      | none => w
      | some call =>
          { w with
            gateway := w.gateway.joinReturned call.session none
            requests := if arrives then w.requests.map ({ · with awaited := false })
              else w.requests.filter fun posted => !posted.awaited
            call := none }
  | .execute index allocateGame now => w.execute config index allocateGame now
  | .processQueue now region => w.serve config (w.matchmaker.processQueue now region)
  | .deliver index => match w.notices[index]? with
      | none => w
      | some posted =>
          { w with
            gateway := (GatewayNotificationListener.handle w.gateway posted).2
            notices := w.notices.eraseIdx index }
  | .lose index => { w with notices := w.notices.eraseIdx index }

def run (steps : List GatewayStep) : WireSystem := steps.foldl (step config) w

end WireSystem

end KungFuChess
