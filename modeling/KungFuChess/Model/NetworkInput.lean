import KungFuChess.Model.Message

/-!
# What a client says

The texts that `network/network_input_handler.cpp` gives to the connection.
-/

namespace KungFuChess

/-- A value of `std::size_t` or of `RoomId`. -/
abbrev Size := Fin (2 ^ 64)

namespace NetworkInputHandler

def sendLogin (username password : Text) : Text :=
  if password.isEmpty then "login ".toList ++ username
  else "login ".toList ++ username ++ " ".toList ++ password

def sendPlay : Text := "play".toList

def sendJoinGame (roomId : Size) : Text := "join_game ".toList ++ decimal roomId

def sendSelect (row col : Size) : Text := "select ".toList ++ decimal row ++ [' '] ++ decimal col

def sendMove (row col : Size) : Text := "move ".toList ++ decimal row ++ [' '] ++ decimal col

def sendJump (row col : Size) : Text := "jump ".toList ++ decimal row ++ [' '] ++ decimal col

def sendClear : Text := "clear".toList

def sendResign : Text := "resign".toList

end NetworkInputHandler

end KungFuChess
