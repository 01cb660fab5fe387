import Mathlib.Data.Char
import Mathlib.Data.List.Lex
import KungFuChess.Model.Server

/-!
# The matchmaker

`matchmaking/player_matchmaking_queue.cpp` and `matchmaking/remote_matchmaking_service.cpp`: the service that
pairs players by region and asks a game server for a room, with the allocator of
`server/game/remote_game_allocator.cpp` and the queues of the in-memory runtime store.

Ratings are subtracted as integers, which is what `int` does as long as the difference fits. The clock is
read by the caller. What is sent to the gateway is kept in `sent`, in order. Metrics and log lines are left
out.
-/

namespace KungFuChess

/-! ### The queues of the runtime store -/

structure QueuedPlayer where
  playerId : PlayerId
  userId : UserId
  elo : Int
  enqueueEpochSeconds : Int
deriving DecidableEq, Repr

/-- What a server said of itself in its last heartbeat. -/
structure GameServerEntry where
  endpoint : Text
  allocationEndpoint : Text
  region : Text
  activeRooms : Nat := 0
  status : Text
  lastHeartbeat : Int := 0
deriving DecidableEq, Repr

structure InMemoryRuntimeStore extends RuntimeStore where
  matchmakingQueues : OrdMap Text (List QueuedPlayer) := .empty
  gameServers : OrdMap Text GameServerEntry := .empty

namespace InMemoryRuntimeStore

variable (store : InMemoryRuntimeStore)

def setMatchmakingQueue (region : Text) (queue : List QueuedPlayer) : InMemoryRuntimeStore :=
  { store with matchmakingQueues := store.matchmakingQueues.insert region queue }

def listMatchmakingQueue (region : Text) : List QueuedPlayer := (store.matchmakingQueues.find? region).getD []

end InMemoryRuntimeStore

/-! ### `PlayerMatchmakingQueue` -/

structure MatchmakingConfig where
  maxRatingDifference : Int := 100
  -- in seconds
  queueTimeout : Int := 60
deriving DecidableEq, Repr

structure PlayerMatchmakingQueue where
  region : Text
  maxRatingDifference : Int
  queueTimeoutMs : Int
  waiting : List QueuedPlayer
deriving DecidableEq, Repr

namespace PlayerMatchmakingQueue

def withWaiting (region : Text) (config : MatchmakingConfig) (waiting : List QueuedPlayer) : PlayerMatchmakingQueue :=
  ⟨region, config.maxRatingDifference, config.queueTimeout * 1000, waiting⟩

/-- The queue of a region as the store has it. -/
def new (store : InMemoryRuntimeStore) (region : Text) (config : MatchmakingConfig) : PlayerMatchmakingQueue :=
  withWaiting region config (store.listMatchmakingQueue region)

variable (queue : PlayerMatchmakingQueue) (store : InMemoryRuntimeStore)

def persistQueue : InMemoryRuntimeStore := store.setMatchmakingQueue queue.region queue.waiting

def areCompatible (a b : QueuedPlayer) : Bool := decide (((a.elo - b.elo).natAbs : Int) ≤ queue.maxRatingDifference)

def remove (playerId : PlayerId) : PlayerMatchmakingQueue × InMemoryRuntimeStore :=
  let queue := { queue with waiting := queue.waiting.filter fun entry => entry.playerId ≠ playerId }
  (queue, queue.persistQueue store)

/-- White is the one who has waited. -/
def tryPair (incoming : QueuedPlayer) :
    Option (QueuedPlayer × QueuedPlayer) × PlayerMatchmakingQueue × InMemoryRuntimeStore :=
  match queue.waiting.find? (queue.areCompatible incoming) with
  | some white =>
      let queue := { queue with waiting := queue.waiting.eraseP (queue.areCompatible incoming) }
      (some (white, incoming), queue, queue.persistQueue store)
  | none => (none, queue, store)

def enqueue (player : QueuedPlayer) : PlayerMatchmakingQueue × InMemoryRuntimeStore :=
  let queue := { queue with waiting := queue.waiting ++ [player] }
  (queue, queue.persistQueue store)

def isTimedOut (now : Int) (entry : QueuedPlayer) : Bool :=
  decide (now - entry.enqueueEpochSeconds ≥ queue.queueTimeoutMs.tdiv 1000)

def checkTimeouts (now : Int) : List PlayerId × PlayerMatchmakingQueue × InMemoryRuntimeStore :=
  let timedOut := (queue.waiting.filter (queue.isTimedOut now)).map (·.playerId)
  let queue := { queue with waiting := queue.waiting.filter fun entry => !queue.isTimedOut now entry }
  (timedOut, queue, if timedOut.isEmpty then store else queue.persistQueue store)

end PlayerMatchmakingQueue

/-! ### Allocation -/

structure GameCreationResponse where
  roomId : RoomId
  gameServerId : Text
  endpoint : Option Text
deriving DecidableEq, Repr

/-- What `allocate_game` throws. -/
inductive AllocationFailure where
  | noServers
  | allFailed
deriving DecidableEq, Repr

abbrev Allocator := Server.GameCreationRequest → Except AllocationFailure GameCreationResponse

/-- A server that the registry lists; the allocator looks at the first three. -/
structure GameServerRecord where
  serverId : Text
  endpoint : Text
  allocationEndpoint : Text
  region : Text := []
  activeRooms : Nat := 0
  status : Text := []
  lastHeartbeat : Int := 0
deriving DecidableEq, Repr

/-- One request after the other, until a server answers or the attempts are used up. The answer of a server is
a parameter: `none` is a failure. -/
def tryServers (allocate : Text → Server.GameCreationRequest → Option GameCreationResponse)
    (request : Server.GameCreationRequest) : Nat → List GameServerRecord → Except AllocationFailure GameCreationResponse
  | 0, _ | _, [] => .error .allFailed
  | attempts + 1, server :: candidates =>
      match allocate server.allocationEndpoint request with
      | none => tryServers allocate request attempts candidates
      | some result =>
          let result :=
            if result.gameServerId.isEmpty then { result with gameServerId := server.serverId } else result
          .ok (if (result.endpoint.getD []).isEmpty then { result with endpoint := some server.endpoint } else result)

/-- `RemoteGameAllocator::allocate_game`. -/
def remoteAllocator (candidates : List GameServerRecord) (maxRetryCount : Nat)
    (allocate : Text → Server.GameCreationRequest → Option GameCreationResponse) : Allocator := fun request =>
  if candidates.isEmpty then .error .noServers else tryServers allocate request maxRetryCount candidates

/-! ### `RemoteMatchmakingService` -/

structure MatchRequest where
  playerId : PlayerId
  userId : UserId
  elo : Int
  region : Text
deriving DecidableEq, Repr

inductive MatchJoinStatus where
  | queued
  | error
deriving DecidableEq, Repr

structure MatchResponse where
  status : MatchJoinStatus
  message : Text
deriving DecidableEq, Repr

structure MatchNotification where
  whitePlayerId : PlayerId
  whiteUserId : UserId
  blackPlayerId : PlayerId
  blackUserId : UserId
  roomId : RoomId
  serverId : Text
  endpoint : Text
deriving DecidableEq, Repr

/-- What the gateway is told. -/
inductive GatewayNotice where
  | matchFound (notification : MatchNotification)
  | searchTimeout (playerId : PlayerId)
deriving DecidableEq, Repr

def defaultRegion : Text := "local".toList

/-- The region of a queue is the key it is found under and its settings are those of the service, so of
`default_queue_` and `region_queues_` only those who wait are kept. -/
structure RemoteMatchmakingService where
  store : InMemoryRuntimeStore
  games : GameRepository
  config : MatchmakingConfig
  gatewayServerId : Text
  defaultQueue : List QueuedPlayer
  regionQueues : OrdMap Text (List QueuedPlayer) := .empty
  sent : List GatewayNotice := []

namespace RemoteMatchmakingService

def new (store : InMemoryRuntimeStore) (games : GameRepository) (config : MatchmakingConfig)
    (gatewayServerId : Text) : RemoteMatchmakingService where
  store := store
  games := games
  config := config
  gatewayServerId := gatewayServerId
  defaultQueue := (PlayerMatchmakingQueue.new store defaultRegion config).waiting

variable (service : RemoteMatchmakingService)

/-- The queue of a region is made when it is first asked for. -/
def queueFor (region : Text) : PlayerMatchmakingQueue × RemoteMatchmakingService :=
  if region = defaultRegion then (.withWaiting region service.config service.defaultQueue, service)
  else match service.regionQueues.find? region with
    | some waiting => (.withWaiting region service.config waiting, service)
    | none =>
        let queue := PlayerMatchmakingQueue.new service.store region service.config
        (queue, { service with regionQueues := service.regionQueues.insert region queue.waiting })

def putQueue (region : Text) (queue : PlayerMatchmakingQueue) : RemoteMatchmakingService :=
  if region = defaultRegion then { service with defaultQueue := queue.waiting }
  else { service with regionQueues := service.regionQueues.insert region queue.waiting }

/-- A call of one of the queue's functions through the reference that `queue_for` returns. -/
def onQueue {α : Type} (region : Text)
    (f : PlayerMatchmakingQueue → InMemoryRuntimeStore → α × PlayerMatchmakingQueue × InMemoryRuntimeStore) :
    α × RemoteMatchmakingService :=
  let (queue, service) := service.queueFor region
  let (result, queue, store) := f queue service.store
  (result, { service.putQueue region queue with store })

def notify (notice : GatewayNotice) : RemoteMatchmakingService := { service with sent := service.sent ++ [notice] }

/-- The game is in the repository before a room is asked for. -/
def finalizeMatch (allocateGame : Allocator) (white black : QueuedPlayer) :
    Except AllocationFailure Unit × RemoteMatchmakingService :=
  let (dbGameId, games) := service.games.createGame (intOfUserId white.userId) (intOfUserId black.userId)
  let service := { service with games }
  match allocateGame ⟨white.userId, black.userId, dbGameId⟩ with
  | .error failure => (.error failure, service)
  | .ok response =>
      let routingServerId :=
        if response.gameServerId.isEmpty then service.gatewayServerId else response.gameServerId
      let endpoint := response.endpoint.getD []
      let store := { service.store with
        toRuntimeStore := service.store.registerRoom response.roomId white.userId black.userId routingServerId endpoint }
      (.ok (), { service with store }.notify (.matchFound
        ⟨white.playerId, white.userId, black.playerId, black.userId, response.roomId, routingServerId, endpoint⟩))

/-- What is thrown leaves the service as it is at that point. -/
def enterQueue (allocateGame : Allocator) (now : Int) (request : MatchRequest) :
    Except AllocationFailure MatchResponse × RemoteMatchmakingService :=
  let region := if request.region.isEmpty then defaultRegion else request.region
  let incoming : QueuedPlayer := ⟨request.playerId, request.userId, request.elo, now⟩
  let ((), service) := service.onQueue region fun queue store => ((), queue.remove store request.playerId)
  let (pair, service) := service.onQueue region fun queue store => queue.tryPair store incoming
  match pair with
  | some (white, black) =>
      match service.finalizeMatch allocateGame white black with
      | (.error failure, service) => (.error failure, service)
      | (.ok (), service) => (.ok ⟨.queued, "matched".toList⟩, service)
  | none =>
      let ((), service) := service.onQueue region fun queue store => ((), queue.enqueue store incoming)
      (.ok ⟨.queued, "queued".toList⟩, service)

def leaveQueue (playerId : PlayerId) (region : Text) : RemoteMatchmakingService :=
  (service.onQueue region fun queue store => ((), queue.remove store playerId)).2

def processQueue (now : Int) (region : Text) : RemoteMatchmakingService :=
  let (timedOut, service) := service.onQueue region fun queue store => queue.checkTimeouts store now
  timedOut.foldl (fun service playerId => service.notify (.searchTimeout playerId)) service

end RemoteMatchmakingService

/-- A request to the matchmaker. -/
inductive QueueCall where
  | enterQueue (allocateGame : Allocator) (now : Int) (request : MatchRequest)
  | leaveQueue (playerId : PlayerId) (region : Text)
  | processQueue (now : Int) (region : Text)

namespace RemoteMatchmakingService

variable (service : RemoteMatchmakingService)

def handle : QueueCall → RemoteMatchmakingService
  | .enterQueue allocateGame now request => (service.enterQueue allocateGame now request).2
  | .leaveQueue playerId region => service.leaveQueue playerId region
  | .processQueue now region => service.processQueue now region

def run (calls : List QueueCall) : RemoteMatchmakingService := calls.foldl handle service

end RemoteMatchmakingService

/-- A call, or the service comes up again with the queues that the store has. -/
inductive ServiceEvent where
  | call (call : QueueCall)
  | restart

namespace RemoteMatchmakingService

variable (service : RemoteMatchmakingService)

def restart : RemoteMatchmakingService :=
  { new service.store service.games service.config service.gatewayServerId with sent := service.sent }

def happen : ServiceEvent → RemoteMatchmakingService
  | .call call => service.handle call
  | .restart => service.restart

end RemoteMatchmakingService

end KungFuChess
