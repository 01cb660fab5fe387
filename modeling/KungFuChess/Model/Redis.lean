import KungFuChess.Model.Matchmaker

/-!
# The runtime stores

`app/in_memory_runtime_store.cpp` and `app/redis_runtime_store.cpp`: where players are, which game servers have
reported and who waits, kept in typed maps or as text under keys of a Redis server.

Redis is a finite map of texts, and connected. The order in which `SCAN` returns keys is a parameter. The clock is
read by the caller. A number that is too large for its C++ type is left to the caller as well; what `std::stoull`
and the others throw is `none`.
-/

namespace KungFuChess

/-- What a server reports, as far as a store keeps it. -/
structure ServerMetrics where
  activeRooms : Nat := 0
  connectedSessions : Nat := 0
  matchmakingQueue : Nat := 0
  endpoint : Text := []
  allocationEndpoint : Text := []
deriving DecidableEq, Repr

def healthy : Text := "healthy".toList

/-! ### `InMemoryRuntimeStore` -/

def GameServerEntry.record (serverId : Text) (entry : GameServerEntry) : GameServerRecord :=
  ⟨serverId, entry.endpoint, entry.allocationEndpoint, entry.region, entry.activeRooms, entry.status,
    entry.lastHeartbeat⟩

namespace InMemoryRuntimeStore

variable (store : InMemoryRuntimeStore)

def publishServerHeartbeat (now : Int) (serverId region : Text) (metrics : ServerMetrics) : InMemoryRuntimeStore :=
  let entry : GameServerEntry :=
    ⟨metrics.endpoint, metrics.allocationEndpoint, region, metrics.activeRooms, healthy, now⟩
  { store with gameServers := store.gameServers.insert serverId entry }

def deregisterServer (serverId : Text) : InMemoryRuntimeStore :=
  { store with gameServers := store.gameServers.erase serverId }

def listGameServers : List GameServerRecord :=
  store.gameServers.entries.map fun (serverId, entry) => entry.record serverId

def getGameServer (serverId : Text) : Option GameServerRecord :=
  (store.gameServers.find? serverId).map (·.record serverId)

end InMemoryRuntimeStore

/-! ### Numbers in a text -/

/-- The sign and the digits that a text starts with, after white space. -/
def readNumber (text : Text) : Option (Bool × Nat) :=
  let text := text.dropWhile isSpace
  let (negative, text) := match text with
    | '-' :: rest => (true, rest)
    | '+' :: rest => (false, rest)
    | _ => (false, text)
  let digits := text.takeWhile Char.isDigit
  if digits.isEmpty then none else some (negative, Nat.ofDigitChars 10 digits 0)

/-- A minus sign wraps the value around. -/
def stoull (text : Text) : Option Nat :=
  match readNumber text with
  | none => none
  | some (negative, value) =>
      if value ≥ 2 ^ 64 then none else some (if negative then (2 ^ 64 - value) % 2 ^ 64 else value)

/-- A signed number of the given width. -/
def readSigned (width : Nat) (text : Text) : Option Int :=
  match readNumber text with
  | none => none
  | some (negative, value) =>
      let value : Int := if negative then -value else value
      if -2 ^ (width - 1) ≤ value ∧ value < 2 ^ (width - 1) then some value else none

def stoi (text : Text) : Option Int := readSigned 32 text

def stoll (text : Text) : Option Int := readSigned 64 text

/-! ### Keys and values -/

def roomKey (roomId : RoomId) : Text := "room:".toList ++ decimal roomId

def playerKey (playerId : UserId) : Text := "player:".toList ++ decimal playerId

def gameserverPrefix : Text := "gameserver:".toList

def gameserverKey (serverId : Text) : Text := gameserverPrefix ++ serverId

def queueKey (region : Text) : Text := "queue:".toList ++ region

/-- The text between two bars, the first of them being number 0. -/
def fieldAt (value : Text) : Nat → Option Text
  | 0 => some (value.takeWhile (· ≠ '|'))
  | index + 1 =>
      match value.dropWhile (· ≠ '|') with
      | [] => none
      | _ :: rest => fieldAt rest index

def encodeQueueEntry (player : QueuedPlayer) : Text :=
  decimal player.playerId ++ ['|'] ++ decimal player.userId ++ ['|'] ++ signedDecimal player.elo ++ ['|']
    ++ signedDecimal player.enqueueEpochSeconds

def decodeQueueEntry (value : Text) : Option QueuedPlayer := do
  let playerId ← fieldAt value 0
  let userId ← fieldAt value 1
  let elo ← fieldAt value 2
  let timestamp ← fieldAt value 3
  return ⟨← stoull playerId, ← stoull userId, ← stoi elo, ← stoll timestamp⟩

def encodeQueueValue (queue : List QueuedPlayer) : Text :=
  queue.zipIdx.flatMap fun (player, i) => (if i > 0 then ['\n'] else []) ++ encodeQueueEntry player

/-- `line` is what has been read of a line; what comes after the last line break counts if there is anything. -/
def queueLinesFrom (line : Text) : Text → List Text
  | [] => if line.isEmpty then [] else [line]
  | ch :: rest => if ch = '\n' then line :: queueLinesFrom [] rest else queueLinesFrom (line ++ [ch]) rest

def decodeQueueValue (value : Text) : List QueuedPlayer := (queueLinesFrom [] value).filterMap decodeQueueEntry

def encodePlayerLocationValue (roomId : RoomId) (serverId endpoint : Text) : Text :=
  decimal roomId ++ ['|'] ++ serverId ++ ['|'] ++ endpoint

/-- The endpoint is all that follows the second bar. -/
def parsePlayerLocationValue (value : Text) : Option GameServerLocation :=
  match value.dropWhile (· ≠ '|') with
  | [] => none
  | _ :: afterFirst =>
      match afterFirst.dropWhile (· ≠ '|') with
      | [] => none
      | _ :: endpoint =>
          (stoull (value.takeWhile (· ≠ '|'))).map fun roomId =>
            ⟨afterFirst.takeWhile (· ≠ '|'), endpoint, roomId⟩

def parseGameserverRecord (serverId value : Text) : Option GameServerRecord := do
  let region ← fieldAt value 0
  let activeRooms ← fieldAt value 1
  let endpoint ← fieldAt value 4
  return {
    serverId
    endpoint
    allocationEndpoint := (fieldAt value 5).getD []
    region
    activeRooms := (stoull activeRooms).getD 0
    status := (fieldAt value 6).getD healthy
    lastHeartbeat := ((fieldAt value 7).bind stoll).getD 0 }

def encodeGameserverHeartbeat (now : Int) (region : Text) (metrics : ServerMetrics) : Text :=
  region ++ ['|'] ++ decimal metrics.activeRooms ++ ['|'] ++ decimal metrics.connectedSessions ++ ['|']
    ++ decimal metrics.matchmakingQueue ++ ['|'] ++ metrics.endpoint ++ ['|'] ++ metrics.allocationEndpoint
    ++ "|healthy|".toList ++ signedDecimal now

/-! ### `RedisRuntimeStore` -/

structure RedisRuntimeStore where
  keys : OrdMap Text Text := .empty

namespace RedisRuntimeStore

variable (store : RedisRuntimeStore)

def setKey (key value : Text) : RedisRuntimeStore := { store with keys := store.keys.insert key value }

def deleteKey (key : Text) : RedisRuntimeStore := { store with keys := store.keys.erase key }

def getKey (key : Text) : Option Text := store.keys.find? key

/-- The keys that start with the text, in the order that `scan` gives them. -/
def scanKeys (scan : List Text → List Text) (start : Text) : List Text :=
  scan ((store.keys.entries.map Prod.fst).filter start.isPrefixOf)

def registerRoom (roomId : RoomId) (white black : UserId) (serverId endpoint : Text) : RedisRuntimeStore :=
  let playerLocation := encodePlayerLocationValue roomId serverId endpoint
  ((store.setKey (roomKey roomId) serverId).setKey (playerKey white) playerLocation).setKey (playerKey black)
    playerLocation

def unregisterRoom (roomId : RoomId) (white black : UserId) : RedisRuntimeStore :=
  ((store.deleteKey (roomKey roomId)).deleteKey (playerKey white)).deleteKey (playerKey black)

def publishServerHeartbeat (now : Int) (serverId region : Text) (metrics : ServerMetrics) : RedisRuntimeStore :=
  store.setKey (gameserverKey serverId) (encodeGameserverHeartbeat now region metrics)

def deregisterServer (serverId : Text) : RedisRuntimeStore := store.deleteKey (gameserverKey serverId)

def findPlayerLocation (userId : UserId) : Option GameServerLocation :=
  (store.getKey (playerKey userId)).bind parsePlayerLocationValue

/-- The record of the server that a key is for. -/
def recordAt (key : Text) : Option GameServerRecord :=
  if key.length ≤ gameserverPrefix.length then none
  else (store.getKey key).bind (parseGameserverRecord (key.drop gameserverPrefix.length))

def listGameServers (scan : List Text → List Text) : List GameServerRecord :=
  (store.scanKeys scan gameserverPrefix).filterMap store.recordAt

def getGameServer (serverId : Text) : Option GameServerRecord :=
  (store.getKey (gameserverKey serverId)).bind (parseGameserverRecord serverId)

def setMatchmakingQueue (region : Text) (queue : List QueuedPlayer) : RedisRuntimeStore :=
  store.setKey (queueKey region) (encodeQueueValue queue)

def listMatchmakingQueue (region : Text) : List QueuedPlayer :=
  ((store.getKey (queueKey region)).map decodeQueueValue).getD []

end RedisRuntimeStore

/-! ### Calls -/

/-- A call that changes a store, with what the clock says. -/
inductive StoreCall where
  | registerRoom (roomId : RoomId) (white black : UserId) (serverId endpoint : Text)
  | unregisterRoom (roomId : RoomId) (white black : UserId)
  | publishServerHeartbeat (now : Int) (serverId region : Text) (metrics : ServerMetrics)
  | deregisterServer (serverId : Text)
  | setMatchmakingQueue (region : Text) (queue : List QueuedPlayer)
deriving DecidableEq, Repr

def InMemoryRuntimeStore.handle (store : InMemoryRuntimeStore) : StoreCall → InMemoryRuntimeStore
  | .registerRoom roomId white black serverId endpoint =>
      { store with toRuntimeStore := store.registerRoom roomId white black serverId endpoint }
  | .unregisterRoom _ white black => { store with toRuntimeStore := store.unregisterRoom white black }
  | .publishServerHeartbeat now serverId region metrics => store.publishServerHeartbeat now serverId region metrics
  | .deregisterServer serverId => store.deregisterServer serverId
  | .setMatchmakingQueue region queue => store.setMatchmakingQueue region queue

def RedisRuntimeStore.handle (store : RedisRuntimeStore) : StoreCall → RedisRuntimeStore
  | .registerRoom roomId white black serverId endpoint => store.registerRoom roomId white black serverId endpoint
  | .unregisterRoom roomId white black => store.unregisterRoom roomId white black
  | .publishServerHeartbeat now serverId region metrics => store.publishServerHeartbeat now serverId region metrics
  | .deregisterServer serverId => store.deregisterServer serverId
  | .setMatchmakingQueue region queue => store.setMatchmakingQueue region queue

end KungFuChess
