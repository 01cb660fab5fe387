import KungFuChess.Model.Repository

/-!
# Rooms

`server/room/`: a room is a match between two players, who are known by their user and by the session
they play through. Rooms get their ids from a counter, so no two rooms ever share one.
-/

namespace KungFuChess

structure GamePlayer where
  userId : UserId
  side : PieceColor
  playerId : PlayerId
deriving DecidableEq, Repr

structure Room where
  id : RoomId
  defaultBoard : BoardModel
  game : Match := Match.new defaultBoard
  active : Bool := false
  whitePlayer : Option GamePlayer := none
  blackPlayer : Option GamePlayer := none
  dbGameId : Option Int := none

namespace Room

variable (room : Room)

def activate (white black : GamePlayer) : Room :=
  { room with whitePlayer := some white, blackPlayer := some black, active := true }

def setDbGameId (id : Int) : Room := { room with dbGameId := some id }

def reset : Room :=
  { room with
    active := false
    whitePlayer := none
    blackPlayer := none
    dbGameId := none
    game := Match.new room.defaultBoard }

def isGameOver : Bool := room.game.isGameOver

def clockMs : Int := room.game.state.clockMs

def playerOf : PieceColor → Option GamePlayer
  | .white => room.whitePlayer
  | .black => room.blackPlayer

def containsPlayer (userId : UserId) : Bool :=
  room.whitePlayer.any (·.userId == userId) || room.blackPlayer.any (·.userId == userId)

end Room

structure RoomManager where
  rooms : List Room := []
  nextId : RoomId := 1

namespace RoomManager

variable (manager : RoomManager)

def createRoom (board : BoardModel) : RoomId × RoomManager :=
  (manager.nextId, ⟨manager.rooms ++ [{ id := manager.nextId, defaultBoard := board }], manager.nextId + 1⟩)

def findRoom (roomId : RoomId) : Option Room := manager.rooms.find? fun room => room.id == roomId

/-- A change made through the pointer that `find_room` returns. -/
def modifyRoom (roomId : RoomId) (f : Room → Room) : RoomManager :=
  { manager with rooms := manager.rooms.map fun room => if room.id = roomId then f room else room }

def removeInactiveRooms : RoomManager := { manager with rooms := manager.rooms.filter (·.active) }

end RoomManager

end KungFuChess
