import KungFuChess.Lib.OrdMap
import KungFuChess.Model.Session

/-!
# Repositories

The two tables behind the server as the SQLite repositories use them (`database/player_repository.cpp`,
`database/game_repository.cpp`), the authentication over the first, and the player locations of the
runtime store.

A text is bound to a statement as a C string, so the database sees it up to its first NUL. Without a
connection every statement fails.

The password functions and the rating formula, which is computed in floating point, are parameters.
-/

namespace KungFuChess

/-! ### Players -/

structure UserRow where
  id : Int
  username : Text
  rating : Int
  passwordHash : Text
deriving DecidableEq, Repr

structure UserRepository where
  rows : List UserRow := []
  nextId : Int := 1
  connected : Bool := true
deriving DecidableEq, Repr

/-- The part of a text that `c_str()` shows. -/
def cString (text : Text) : Text := text.takeWhile fun c => c != '\x00'

namespace UserRepository

variable (repository : UserRepository)

/-- The username is declared unique. -/
def findCredentialsByUsername (username : Text) : Option UserRow :=
  if !repository.connected then none
  else repository.rows.find? fun row => row.username == cString username

def findProfileById (userId : UserId) : Option Player :=
  if !repository.connected then none
  else (repository.rows.find? fun row => row.id == intOfUserId userId).map fun row =>
    ⟨row.id, row.username, row.rating⟩

/-- The player returned carries the name that was asked for, not the one that was stored. -/
def createUserWithPassword (username : Text) (rating : Int) (passwordHash : Text) :
    Option Player × UserRepository :=
  if !repository.connected then (none, repository)
  else if repository.rows.any fun row => row.username == cString username then (none, repository)
  else
    (some ⟨repository.nextId, username, rating⟩,
      { repository with
        rows := repository.rows ++ [⟨repository.nextId, cString username, rating, cString passwordHash⟩]
        nextId := repository.nextId + 1 })

def updateRating (userId : UserId) (rating : Int) : UserRepository :=
  if !repository.connected then repository
  else { repository with
    rows := repository.rows.map fun row => if row.id = intOfUserId userId then { row with rating } else row }

end UserRepository

/-! ### Authentication -/

structure PasswordHasher where
  -- the hash of a password; the salt is drawn anew for every row
  hashPassword : Int → Text → Text
  verifyPassword : Text → Text → Bool

/-- `AuthenticationService::authenticate`. -/
def authenticate (hasher : PasswordHasher) (users : UserRepository) (request : LoginRequest) :
    Except LoginFailure Player × UserRepository :=
  if request.username.isEmpty then (.error .invalidUsername, users)
  else if request.password.isEmpty then (.error .missingPassword, users)
  else match users.findCredentialsByUsername request.username with
    | some existing =>
        if existing.passwordHash.isEmpty then (.error .invalidPassword, users)
        else if !hasher.verifyPassword request.password existing.passwordHash then
          (.error .invalidPassword, users)
        else (.ok ⟨existing.id, existing.username, existing.rating⟩, users)
    | none =>
        match users.createUserWithPassword request.username 1000
            (hasher.hashPassword users.nextId request.password) with
        | (some created, users) => (.ok created, users)
        | (none, users) =>
            match users.findCredentialsByUsername request.username with
            | some _ => (.error .usernameTaken, users)
            | none => (.error .createFailed, users)

structure RatingChange where
  winnerNewRating : Int
  loserNewRating : Int
deriving DecidableEq, Repr

/-! ### Games -/

structure GameRow where
  id : Int
  whitePlayerId : Int
  blackPlayerId : Int
  active : Bool
  winnerId : Option Int
deriving DecidableEq, Repr

structure GameRepository where
  rows : List GameRow := []
  nextId : Int := 1
  connected : Bool := true
deriving DecidableEq, Repr

namespace GameRepository

variable (repository : GameRepository)

def createGame (whitePlayerId blackPlayerId : Int) : Option Int × GameRepository :=
  if !repository.connected then (none, repository)
  else
    (some repository.nextId,
      { repository with
        rows := repository.rows ++ [⟨repository.nextId, whitePlayerId, blackPlayerId, true, none⟩]
        nextId := repository.nextId + 1 })

/-- `UPDATE games SET status = 'finished', winner_id = ? WHERE id = ?`. -/
def close (gameId : Int) (winnerId : Option Int) : GameRepository :=
  if !repository.connected then repository
  else { repository with
    rows := repository.rows.map fun row =>
      if row.id = gameId then { row with active := false, winnerId } else row }

def finishGame (gameId winnerPlayerId : Int) : GameRepository :=
  repository.close gameId (some winnerPlayerId)

def finishGameWithoutWinner (gameId : Int) : GameRepository := repository.close gameId none

end GameRepository

/-! ### Player locations -/

structure GameServerLocation where
  serverId : Text
  endpoint : Text
  roomId : RoomId
deriving DecidableEq, Repr

/-- `player_locations_` of the in-memory runtime store. -/
structure RuntimeStore where
  playerLocations : OrdMap UserId GameServerLocation := .empty

namespace RuntimeStore

variable (store : RuntimeStore)

def registerRoom (roomId : RoomId) (white black : UserId) (serverId endpoint : Text) : RuntimeStore :=
  let entry : GameServerLocation := ⟨serverId, endpoint, roomId⟩
  { store with playerLocations := (store.playerLocations.insert white entry).insert black entry }

def unregisterRoom (white black : UserId) : RuntimeStore :=
  { store with playerLocations := (store.playerLocations.erase white).erase black }

def findPlayerLocation (userId : UserId) : Option GameServerLocation := store.playerLocations.find? userId

end RuntimeStore

end KungFuChess
