import Mathlib.Logic.Function.Basic
import KungFuChess.Model.GameServer
import KungFuChess.Model.Matchmaker

/-!
# Several game servers

Where `RemoteGameAllocator` (`server/game/remote_game_allocator.cpp`) looks for a room: the game servers, which
share the databases and the runtime store, and the requests that `GameAllocationHttpClient` sends to their
allocation endpoints. A request may be lost on its way, and so may the answer to it. The client sees no
difference, nor does it see one between these and an answer it cannot read.

A server may do something before each request, and so may the network.
-/

namespace KungFuChess

structure GameHost where
  config : ServerConfig
  server : Server

/-- The servers are known by their allocation endpoints. -/
structure Fleet where
  hosts : Text → Option GameHost
  users : UserRepository := {}
  games : GameRepository := {}
  store : RuntimeStore := {}

/-- Something that happens to one of the servers, or that it does. -/
structure FleetStep where
  endpoint : Text
  what : NetEvent ⊕ ServerOp
deriving DecidableEq

/-- An operation that throws has no result. -/
def Server.act (server : Server) (config : ServerConfig) : NetEvent ⊕ ServerOp → Option Server
  | .inl event => some (server.occur event)
  | .inr op => (server.apply config op).toOption.map (·.2)

/-- What becomes of a request to a server. -/
inductive Delivery where
  | requestLost
  -- the server has done what it was asked for
  | responseLost
  | delivered
deriving DecidableEq, Repr

structure Attempt where
  candidate : GameServerRecord
  delivery : Delivery
deriving DecidableEq, Repr

namespace Fleet

/-- Servers that have just been started. -/
def boot (configs : Text → Option ServerConfig) (users : UserRepository) (games : GameRepository)
    (store : RuntimeStore) : Fleet where
  hosts := fun endpoint => (configs endpoint).map fun config => ⟨config, Server.boot users games 0⟩
  users := users
  games := games
  store := store

variable (fleet : Fleet)

/-- A server with what all of them share. -/
def serverOf (host : GameHost) : Server :=
  { host.server with users := fleet.users, games := fleet.games, store := fleet.store }

def step (step : FleetStep) : Fleet :=
  match fleet.hosts step.endpoint with
  | none => fleet
  | some host =>
      match (fleet.serverOf host).act host.config step.what with
      | none => fleet
      | some server =>
          { hosts := Function.update fleet.hosts step.endpoint (some { host with server })
            users := server.users
            games := server.games
            store := server.store }

def run (steps : List FleetStep) : Fleet := steps.foldl Fleet.step fleet

/-! ### `RemoteGameAllocator` -/

/-- `GameAllocationHttpClient::allocate` with `GameAllocationHandler::allocate` at the other end: the answer that
comes back, and what the server did. Where no server listens, the request is lost. -/
def post (request : Server.GameCreationRequest) (attempt : Attempt) : Option GameCreationResponse × List FleetStep :=
  let endpoint := attempt.candidate.allocationEndpoint
  match fleet.hosts endpoint, attempt.delivery with
  | none, _ | some _, .requestLost => (none, [])
  | some _, .responseLost => (none, [⟨endpoint, .inr (.allocate request)⟩])
  | some host, .delivered =>
      let (roomId, _) := (fleet.serverOf host).createRoom host.config request
      let response : GameCreationResponse :=
        ⟨roomId, host.config.serverId, if host.config.endpoint.isEmpty then none else some host.config.endpoint⟩
      (some response, [⟨endpoint, .inr (.allocate request)⟩])

/-- The loop over the candidates: who answered and what, and everything that was done. What goes on before each
request is the first of `meanwhile`. -/
def tryCandidates (request : Server.GameCreationRequest) :
    Nat → List Attempt → List (List FleetStep) → Fleet →
      Option (GameServerRecord × GameCreationResponse) × List FleetStep
  | 0, _, _, _ | _, [], _, _ => (none, [])
  | retries + 1, attempt :: attempts, meanwhile, fleet =>
      let before := meanwhile.headD []
      match (fleet.run before).post request attempt with
      | (some response, tried) => (some (attempt.candidate, response), before ++ tried)
      | (none, tried) =>
          let (answer, steps) :=
            tryCandidates request retries attempts meanwhile.tail (fleet.run (before ++ tried))
          (answer, before ++ tried ++ steps)

/-- `RemoteGameAllocator::allocate_game`. The candidate that answered is returned with its answer. -/
def allocateGame (request : Server.GameCreationRequest) (maxRetryCount : Nat) (attempts : List Attempt)
    (meanwhile : List (List FleetStep)) :
    Except AllocationFailure (GameServerRecord × GameCreationResponse) × List FleetStep :=
  if attempts.isEmpty then (.error .noServers, [])
  else match tryCandidates request maxRetryCount attempts meanwhile fleet with
    | (none, steps) => (.error .allFailed, steps)
    | (some (candidate, result), steps) =>
        let result :=
          if result.gameServerId.isEmpty then { result with gameServerId := candidate.serverId } else result
        let result :=
          if (result.endpoint.getD []).isEmpty then { result with endpoint := some candidate.endpoint } else result
        (.ok (candidate, result), steps)

end Fleet

end KungFuChess
