import KungFuChess.Model.Message
import KungFuChess.Model.Redis

/-!
# Messages between the services

`matchmaking/protocol/matchmaking_codec.cpp` and `server/game/protocol/game_creation_codec.cpp`: what the gateway,
the matchmaker and the game servers send one another, as fields with a bar between any two. A number is read by
`std::stoull`, by `std::stoi` or by a loop over its digits.
-/

namespace KungFuChess

/-- `parse_integral` over `PlayerId` or `UserId`, which are as wide as `std::size_t`. -/
def parseIntegral (token : Text) : Option Nat := parseNonNegativeInt token

def parseUserId (token : Text) : Option UserId := parseNonNegativeInt token

/-! ### Matchmaking -/

def encodeMatchRequest (request : MatchRequest) : Text :=
  decimal request.playerId ++ ['|'] ++ decimal request.userId ++ ['|'] ++ signedDecimal request.elo ++ ['|']
    ++ request.region

def decodeMatchRequest (body : Text) : Option MatchRequest := do
  let playerId ← fieldAt body 0
  let userId ← fieldAt body 1
  let elo ← fieldAt body 2
  let region ← fieldAt body 3
  return ⟨← parseIntegral playerId, ← parseIntegral userId, ← stoi elo, region⟩

def encodeMatchResponse (response : MatchResponse) : Text :=
  (if response.status = .queued then "queued".toList else "error".toList) ++ ['|'] ++ response.message

/-- A response without a message has the empty one. -/
def decodeMatchResponse (body : Text) : Option MatchResponse := do
  let status ← fieldAt body 0
  let status : MatchJoinStatus ←
    if status = "queued".toList then some .queued else if status = "error".toList then some .error else none
  return ⟨status, (fieldAt body 1).getD []⟩

def encodeMatchNotification (notification : MatchNotification) : Text :=
  decimal notification.whitePlayerId ++ ['|'] ++ decimal notification.whiteUserId ++ ['|']
    ++ decimal notification.blackPlayerId ++ ['|'] ++ decimal notification.blackUserId ++ ['|']
    ++ decimal notification.roomId ++ ['|'] ++ notification.serverId ++ ['|'] ++ notification.endpoint

def decodeMatchNotification (body : Text) : Option MatchNotification := do
  let whitePlayerId ← fieldAt body 0
  let whiteUserId ← fieldAt body 1
  let blackPlayerId ← fieldAt body 2
  let blackUserId ← fieldAt body 3
  let roomId ← fieldAt body 4
  let serverId ← fieldAt body 5
  let endpoint ← fieldAt body 6
  return ⟨← stoull whitePlayerId, ← stoull whiteUserId, ← stoull blackPlayerId, ← stoull blackUserId,
    ← stoull roomId, serverId, endpoint⟩

def timeoutWord : Text := "timeout".toList

def encodeTimeoutNotification (playerId : PlayerId) : Text := timeoutWord ++ ['|'] ++ decimal playerId

def decodeTimeoutNotification (body : Text) : Option PlayerId := do
  let kind ← fieldAt body 0
  let playerId ← fieldAt body 1
  if kind = timeoutWord then parseIntegral playerId else none

/-! ### Game creation -/

/-- A game without a row in the database has an empty third field. -/
def encodeGameCreationRequest (request : Server.GameCreationRequest) : Text :=
  decimal request.whiteUserId ++ ['|'] ++ decimal request.blackUserId ++ ['|']
    ++ (request.dbGameId.map signedDecimal).getD []

def decodeGameCreationRequest (body : Text) : Option Server.GameCreationRequest := do
  let white ← fieldAt body 0
  let black ← fieldAt body 1
  let whiteUserId ← parseUserId white
  let blackUserId ← parseUserId black
  let dbGameId := (fieldAt body 2).getD []
  if dbGameId.isEmpty then return ⟨whiteUserId, blackUserId, none⟩
  else return ⟨whiteUserId, blackUserId, some (← stoi dbGameId)⟩

def encodeGameCreationResponse (response : GameCreationResponse) : Text :=
  decimal response.roomId ++ ['|'] ++ response.gameServerId ++ ['|'] ++ response.endpoint.getD []

def decodeGameCreationResponse (body : Text) : Option GameCreationResponse := do
  let roomIdToken ← fieldAt body 0
  let serverId ← fieldAt body 1
  let roomId ← stoull roomIdToken
  let endpoint := (fieldAt body 2).getD []
  return ⟨roomId, serverId, if endpoint.isEmpty then none else some endpoint⟩

end KungFuChess
