import KungFuChess.Model.Server

/-!
# The lobby

The handlers of a session that is not in a game: `lobby/lobby_message_handler.cpp`, the matchmaking queue
of the monolith (`matchmaking/matchmaking_queue.cpp`, `matchmaking_service.cpp`), the client that joins it
(`matchmaking/local_matchmaking_join_client.cpp`) and `match/match_lifecycle_handler.cpp`.
-/

namespace KungFuChess

namespace Server

variable (config : ServerConfig) (server : Server)

/-! ### Logging in -/

def bindAuthenticatedUser (id : PlayerId) (player : Player) : Server :=
  server.modifyData id (·.assignUser (userIdOfInt player.id) player.username player.rating)

/-- A session without a user sends a login. -/
def login (id : PlayerId) (request : LoginRequest) : Server :=
  if request.username ∈ server.onlineUsernames then server.send id (.loginFailed .alreadyConnected)
  else match authenticate config.hasher server.users request with
    | (.error reason, users) => { server with users }.send id (.loginFailed reason)
    | (.ok player, users) =>
        let server := { server with users }.bindAuthenticatedUser id player
        (server.registerSession player.username).send id (.loginOk player.rating)

/-! ### `MatchmakingQueue` -/

def isEligible (session : PlayerSession) : Bool := session.hasUser && session.connection.isOpen

def areCompatible (a b : PlayerSession) : Bool :=
  decide (((a.rating - b.rating).natAbs : Int) ≤ config.maxRatingDifference)

/-- Whether a session may be paired with an entry of the queue. -/
def canPair (session : PlayerSession) (entry : WaitingEntry) : Bool :=
  (server.findSession entry.session).any fun waiting =>
    isEligible waiting && areCompatible config session waiting

/-- The pair, white first, or the session waits. -/
def enqueue (session : PlayerSession) : Option (PlayerId × PlayerId) × Server :=
  if !isEligible session then (none, server)
  else match server.waiting.find? (server.canPair config session) with
    | some entry =>
        (some (entry.session, session.id),
          { server with waiting := server.waiting.eraseP (server.canPair config session) })
    | none => (none, { server with waiting := server.waiting ++ [⟨session.id, server.now⟩] })

def hasTimedOut (entry : WaitingEntry) : Bool :=
  (server.findSession entry.session).any isEligible
    && decide (config.queueTimeoutMs * 10 ^ 6 ≤ (server.now : Int) - entry.enqueueTime)

def checkTimeouts : List PlayerId × Server :=
  ((server.waiting.filter (server.hasTimedOut config)).map (·.session),
    { server with waiting := server.waiting.filter fun entry => !server.hasTimedOut config entry })

/-! ### `MatchLifecycleHandler` -/

/-- `resolve_routing`: the host answers with its own endpoint, unless it has none. -/
def resolveEndpoint (userId : UserId) : Text :=
  if !config.endpoint.isEmpty then config.endpoint
  else ((server.store.findPlayerLocation userId).map (·.endpoint)).getD []

def sendGameRedirects (white black : PlayerId) (whiteUserId : UserId) (roomId : RoomId) : Server :=
  let endpoint := server.resolveEndpoint config whiteUserId
  (server.send white (.gameRedirect endpoint roomId .white)).send black (.gameRedirect endpoint roomId .black)

def takeSides (white black : PlayerId) : Server :=
  let server := (server.modifyData white (·.setPlaying)).modifyData black (·.setPlaying)
  (server.modifyData white (·.setSide .white)).modifyData black (·.setSide .black)

def userOf (id : PlayerId) : Option SessionUser := (server.findSession id).bind (·.user)

/-- What `create_match` does once it has a room. -/
def enterRoom (white black : PlayerId) (whiteUser blackUser : SessionUser) (roomId : RoomId) : Server :=
  let server := (server.modifyData white (·.assignRoom roomId)).modifyData black (·.assignRoom roomId)
  let endpoint := server.resolveEndpoint config whiteUser.userId
  let store := server.store.registerRoom roomId (userIdOfInt whiteUser.profile.id)
    (userIdOfInt blackUser.profile.id) config.serverId endpoint
  ({ server with store }.sendGameRedirects config white black whiteUser.userId roomId).note
    (.matched white black roomId)

/-- Both sessions come out of the queue, so both have a user. -/
def createMatch (white black : PlayerId) : Server :=
  let server := server.takeSides white black
  match server.userOf white, server.userOf black with
  | some whiteUser, some blackUser =>
      let (dbGameId, games) := server.games.createGame whiteUser.profile.id blackUser.profile.id
      let (roomId, server) :=
        { server with games }.createRoom config ⟨whiteUser.userId, blackUser.userId, dbGameId⟩
      server.enterRoom config white black whiteUser blackUser roomId
  | _, _ => server

def notifyMatchCreated (white black : PlayerId) : Server :=
  let server := (server.send white (.matchFound .white)).send black (.matchFound .black)
  (server.send white (.gameStart .white)).send black (.gameStart .black)

def notifySearchTimeout (id : PlayerId) : Server :=
  (server.send id .searchTimeout).modifyData id (·.cancelSearch)

def processTimeouts : Server :=
  let (timedOut, server) := server.checkTimeouts config
  timedOut.foldl notifySearchTimeout server

/-! ### `LobbyMessageHandler` -/

/-- `LocalMatchmakingJoinClient::join`; `false` is the status `Error`. -/
def joinMatchmaking (id : PlayerId) : Bool × Server :=
  match server.findSession id with
  | none => (false, server)
  | some session =>
      match server.enqueue config session with
      | (some (white, black), server) =>
          (true, (server.createMatch config white black).notifyMatchCreated white black)
      | (none, server) => (true, server)

/-- A session with a user sends `play`. -/
def play (id : PlayerId) : Server :=
  let server := server.modifyData id (·.requestPlay)
  if (server.findSession id).any fun session => session.state = .searching then
    match server.joinMatchmaking config id with
    | (true, server) => server.send id .searching
    | (false, server) => (server.modifyData id (·.cancelSearch)).send id .searchFailed
  else server

/-- What the handler does with a message of a session that does not play. -/
def handleLobbyMessage (session : PlayerSession) (message : Text) : Server :=
  if session.state = .searching then server
  else if !session.hasUser then
    match parseLoginMessage message with
    | some request => server.login config session.id request
    | none => server
  else if parsePlayMessage message then server.play config session.id
  else server

/-- One round of the loop of `LobbyMessageHandler::process`. -/
def lobbyRound (id : PlayerId) : Server :=
  match server.findSession id with
  | none => server
  | some session =>
      if session.state = .playing ∨ !session.connection.isOpen then server
      else match server.tryRead .lobby id with
        | (none, server) => server
        | (some message, server) => server.handleLobbyMessage config session message

end Server

end KungFuChess
