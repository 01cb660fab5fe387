import KungFuChess.Model.Matchmaker

/-!
# Configuration

`app/config_loader.cpp` and the structures it fills, `app/*_config.h`. `unsigned long` and `std::size_t` have 64 bits.
An environment gives the values of the variables that are set.
-/

namespace KungFuChess.App

/-! ### The configuration and its defaults -/

def kDefaultMaxClients : Nat := 8

structure ServerConfig where
  port : Nat := 8765
  gamePort : Nat := 8766
  healthPort : Nat := 8080
  gameHealthPort : Nat := 8081
  gameInternalPort : Nat := 8767
  matchmakerPort : Nat := 8770
  matchmakerHealthPort : Nat := 8772
  gatewayInternalPort : Nat := 8771
  bindAddress : Text := "127.0.0.1".toList
  serverId : Text := "local".toList
  gatewayServerId : Text := "gateway-local".toList
  region : Text := "local".toList
  endpoint : Text := []
  allocationEndpoint : Text := []
  matchmakerEndpoint : Text := "http://127.0.0.1:8770".toList
  gatewayNotificationEndpoint : Text := "http://127.0.0.1:8771".toList
  maxClients : Nat := kDefaultMaxClients
  gameMaxClients : Nat := kDefaultMaxClients
deriving DecidableEq, Repr

inductive DatabaseBackend
  | sqlite
  | postgreSQL
deriving DecidableEq, Repr

structure DatabaseConfig where
  backend : DatabaseBackend := .sqlite
  path : Text := "kfc.db".toList
  host : Text := "localhost".toList
  port : Int := 5432
  database : Text := "kfc".toList
  username : Text := []
  password : Text := []
deriving DecidableEq, Repr

structure RedisConfig where
  enabled : Bool := false
  host : Text := "127.0.0.1".toList
  port : Int := 6379
  password : Text := []
  database : Int := 0
  -- in seconds; no variable sets it
  heartbeatInterval : Int := 1
deriving DecidableEq, Repr

structure LoggingConfig where
  diagnosticsEnabled : Bool := true
deriving DecidableEq, Repr

structure AllocationConfig where
  internalServiceToken : Text := []
  -- in milliseconds
  allocationTimeout : Int := 1000
  allocationRetryCount : Nat := 3
  -- in seconds
  gameServerTtl : Int := 10
deriving DecidableEq, Repr

structure AppConfig where
  server : ServerConfig := {}
  database : DatabaseConfig := {}
  redis : RedisConfig := {}
  matchmaking : MatchmakingConfig := {}
  logging : LoggingConfig := {}
  allocation : AllocationConfig := {}
deriving DecidableEq, Repr

def makeDefaultConfig : AppConfig := {}

/-! ### Reading a variable -/

abbrev Environment := String → Option Text

/-- An empty variable counts as one that is not set. -/
def readEnvironment (env : Environment) (name : String) : Option Text :=
  match env name with
  | none => none
  | some value => if value.isEmpty then none else some value

/-- The first of two variables that is set. -/
def readEither (env : Environment) (name other : String) : Option Text :=
  match readEnvironment env name with
  | some value => some value
  | none => readEnvironment env other

/-- The loop of `parse_unsigned`. A sum that is less than the one before it has wrapped around. -/
def parseUnsignedFrom (result : Nat) : Text → Option Nat
  | [] => some result
  | c :: rest =>
      if c < '0' ∨ c > '9' then none
      else
        let next := (result * 10 + (c.toNat - '0'.toNat)) % 2 ^ 64
        if next < result then none else parseUnsignedFrom next rest

def parseUnsigned (value : Text) : Option Nat := if value.isEmpty then none else parseUnsignedFrom 0 value

def lower (c : Char) : Char := if 'A' ≤ c ∧ c ≤ 'Z' then Char.ofNat (c.toNat - 'A'.toNat + 'a'.toNat) else c

def equalsIgnoreCase (lhs rhs : Text) : Bool :=
  if lhs.length ≠ rhs.length then false else (lhs.zip rhs).all fun (l, r) => lower l = lower r

def parseDatabaseBackend (value : Text) : Option DatabaseBackend :=
  if equalsIgnoreCase value "sqlite".toList then some .sqlite
  else if equalsIgnoreCase value "postgres".toList then some .postgreSQL
  else none

def parseBool (value : Text) : Option Bool :=
  if equalsIgnoreCase value "true".toList || equalsIgnoreCase value "1".toList || equalsIgnoreCase value "yes".toList ||
      equalsIgnoreCase value "on".toList then some true
  else if equalsIgnoreCase value "false".toList || equalsIgnoreCase value "0".toList ||
      equalsIgnoreCase value "no".toList || equalsIgnoreCase value "off".toList then some false
  else none

/-! ### Overriding a field -/

/-- A field keeps its value where the variable is not set or cannot be read. -/
def override {α : Type} (value : Option Text) (parse : Text → Option α) (field : α) : α :=
  match value with
  | none => field
  | some text => (parse text).getD field

/-- A number that passes the check of its field is cast to the field's type. -/
def overrideNumber {α : Type} (value : Option Text) (accepts : Nat → Bool) (cast : Nat → α) (field : α) : α :=
  override value (fun text =>
    match parseUnsigned text with
    | none => none
    | some number => if accepts number then some (cast number) else none) field

def isPort (number : Nat) : Bool := 1 ≤ number ∧ number ≤ 65535

def isPositive (number : Nat) : Bool := 0 < number

def toUnsignedShort (number : Nat) : Nat := number % 2 ^ 16

def toSize (number : Nat) : Nat := number % 2 ^ 64

def toInt (number : Nat) : Int := (number : Int).bmod (2 ^ 32)

/-- The count of a `std::chrono` duration. -/
def toDuration (number : Nat) : Int := (number : Int).bmod (2 ^ 64)

section

variable (env : Environment)

def overrideText (name : String) (field : Text) : Text := override (readEnvironment env name) some field

def overridePort (name : String) (field : Nat) : Nat :=
  overrideNumber (readEnvironment env name) isPort toUnsignedShort field

def overrideCount (name : String) (field : Nat) : Nat :=
  overrideNumber (readEnvironment env name) isPositive toSize field

def overrideDuration (name : String) (field : Int) : Int :=
  overrideNumber (readEnvironment env name) isPositive toDuration field

def overrideServerConfig (server : ServerConfig) : ServerConfig :=
  { server with
    port := overridePort env "KFC_PORT" server.port
    bindAddress := overrideText env "KFC_BIND_ADDRESS" server.bindAddress
    maxClients := overrideCount env "KFC_MAX_CLIENTS" server.maxClients
    healthPort := overridePort env "KFC_HEALTH_PORT" server.healthPort
    serverId := overrideText env "KFC_SERVER_ID" server.serverId
    region := overrideText env "KFC_REGION" server.region
    endpoint := overrideText env "KFC_GAME_ENDPOINT" server.endpoint
    allocationEndpoint := overrideText env "KFC_ALLOCATION_ENDPOINT" server.allocationEndpoint
    gamePort := overridePort env "KFC_GAME_PORT" server.gamePort
    gameHealthPort := overridePort env "KFC_GAME_HEALTH_PORT" server.gameHealthPort
    gameInternalPort := overridePort env "KFC_GAME_INTERNAL_PORT" server.gameInternalPort
    gatewayServerId := overrideText env "KFC_GATEWAY_SERVER_ID" server.gatewayServerId
    gameMaxClients := overrideCount env "KFC_GAME_MAX_CLIENTS" server.gameMaxClients
    matchmakerPort := overridePort env "KFC_MATCHMAKER_PORT" server.matchmakerPort
    matchmakerHealthPort := overridePort env "KFC_MATCHMAKER_HEALTH_PORT" server.matchmakerHealthPort
    gatewayInternalPort := overridePort env "KFC_GATEWAY_INTERNAL_PORT" server.gatewayInternalPort
    matchmakerEndpoint := overrideText env "KFC_MATCHMAKER_ENDPOINT" server.matchmakerEndpoint
    gatewayNotificationEndpoint :=
      overrideText env "KFC_GATEWAY_NOTIFICATION_ENDPOINT" server.gatewayNotificationEndpoint }

def overrideDatabaseConfig (database : DatabaseConfig) : DatabaseConfig :=
  { backend := override (readEither env "KFC_DATABASE_TYPE" "KFC_DB_BACKEND") parseDatabaseBackend database.backend
    path := overrideText env "KFC_DB_PATH" database.path
    host := override (readEither env "KFC_POSTGRES_HOST" "KFC_DB_HOST") some database.host
    port := overrideNumber (readEither env "KFC_POSTGRES_PORT" "KFC_DB_PORT") isPort toInt database.port
    database := override (readEither env "KFC_POSTGRES_DB" "KFC_DB_NAME") some database.database
    username := override (readEither env "KFC_POSTGRES_USER" "KFC_DB_USER") some database.username
    password := override (readEither env "KFC_POSTGRES_PASSWORD" "KFC_DB_PASSWORD") some database.password }

def overrideMatchmakingConfig (matchmaking : MatchmakingConfig) : MatchmakingConfig :=
  { maxRatingDifference :=
      overrideNumber (readEnvironment env "KFC_MATCH_MAX_RATING_DIFF") isPositive toInt matchmaking.maxRatingDifference
    queueTimeout := overrideDuration env "KFC_MATCH_QUEUE_TIMEOUT_SEC" matchmaking.queueTimeout }

def overrideLoggingConfig (logging : LoggingConfig) : LoggingConfig :=
  { diagnosticsEnabled := override (readEnvironment env "KFC_DIAGNOSTICS") parseBool logging.diagnosticsEnabled }

/-- The number of the database is not checked. -/
def overrideRedisConfig (redis : RedisConfig) : RedisConfig :=
  { redis with
    enabled := override (readEnvironment env "KFC_REDIS_ENABLED") parseBool redis.enabled
    host := overrideText env "KFC_REDIS_HOST" redis.host
    port := overrideNumber (readEnvironment env "KFC_REDIS_PORT") isPort toInt redis.port
    password := overrideText env "KFC_REDIS_PASSWORD" redis.password
    database := overrideNumber (readEnvironment env "KFC_REDIS_DATABASE") (fun _ => true) toInt redis.database }

def overrideAllocationConfig (allocation : AllocationConfig) : AllocationConfig :=
  { internalServiceToken := overrideText env "KFC_INTERNAL_SERVICE_TOKEN" allocation.internalServiceToken
    allocationTimeout := overrideDuration env "KFC_ALLOCATION_TIMEOUT_MS" allocation.allocationTimeout
    allocationRetryCount := overrideCount env "KFC_ALLOCATION_RETRY_COUNT" allocation.allocationRetryCount
    gameServerTtl := overrideDuration env "KFC_GAME_SERVER_TTL_SECONDS" allocation.gameServerTtl }

def loadConfigFromEnvironment : AppConfig :=
  let config := makeDefaultConfig
  { server := overrideServerConfig env config.server
    database := overrideDatabaseConfig env config.database
    matchmaking := overrideMatchmakingConfig env config.matchmaking
    logging := overrideLoggingConfig env config.logging
    redis := overrideRedisConfig env config.redis
    allocation := overrideAllocationConfig env config.allocation }

end

end KungFuChess.App
