import KungFuChess.Model.Lobby

/-!
# The game server runtime

The handlers of a session that is in a game: `game/game_join_handler.cpp`,
`network/game_input_dispatcher.cpp`, `room/active_room_processor.cpp`, and the way a game ends,
`game_result/game_result_handler.cpp` with `gateway/local_game_completion_gateway.cpp`.

`ActiveRoomProcessor::process` is cut where it uses the network or calls the finish callback; the parts
are put together again in `Model.GameServer`.
-/

namespace KungFuChess

/-- What stops the server short of a result. -/
inductive ServerFault where
  | game (fault : Fault)
  -- `player()` of a session that has no user
  | noProfile
deriving DecidableEq, Repr

def kTargetFrameMs : Int := 16

namespace Server

variable (config : ServerConfig) (server : Server)

/-! ### `GameJoinHandler` -/

def joinRoom (id : PlayerId) (roomId : RoomId) (side : PieceColor) : Server :=
  (server.modifyData id fun session => ((session.assignRoom roomId).setPlaying).setSide side).send id
    (.joinOk side)

def handleJoinGame (session : PlayerSession) (roomId : RoomId) : Server :=
  let fail (reason : JoinFailure) : Server := server.send session.id (.joinFailed reason)
  match server.rooms.findRoom roomId with
  | none => fail .roomNotFound
  | some room =>
      if !room.active then fail .roomNotFound
      else match session.userId with
        | none => fail .notAuthenticated
        | some userId =>
            match room.whitePlayer, room.blackPlayer with
            | some white, some black =>
                if white.userId = userId then server.joinRoom session.id roomId .white
                else if black.userId = userId then server.joinRoom session.id roomId .black
                else fail .notAPlayer
            | _, _ => fail .roomNotReady

/-- One round of the loop of `GameJoinHandler::process`. A message that is no `join_game` is dropped. -/
def joinRound (id : PlayerId) : Server :=
  match server.findSession id with
  | none => server
  | some session =>
      if !session.connection.isOpen ∨ session.hasRoom then server
      else match server.tryRead .join id with
        | (none, server) => server
        | (some message, server) =>
            match parseJoinGameMessage message with
            | none => server
            | some roomId => server.handleJoinGame session roomId

/-! ### `GameInputDispatcher` -/

def probeRoom (roomId : RoomId) : Server :=
  match server.rooms.findRoom roomId with
  | none => server
  | some room =>
      let probePlayer (server : Server) (player : Option GamePlayer) : Server :=
        match player with
        | some player => server.probe player.playerId
        | none => server
      probePlayer (probePlayer server room.whitePlayer) room.blackPlayer

def disconnectedPlayerColor (room : Room) : Option PieceColor :=
  match room.whitePlayer, room.blackPlayer with
  | some white, some black =>
      match server.isPlayerConnected white.playerId, server.isPlayerConnected black.playerId with
      | true, true => none
      | false, true => some .white
      | true, false => some .black
      | false, false => none
  | _, _ => none

def bothRoomPlayersDisconnected (room : Room) : Bool :=
  match room.whitePlayer, room.blackPlayer with
  | some white, some black =>
      !server.isPlayerConnected white.playerId && !server.isPlayerConnected black.playerId
  | _, _ => true

def readPlayerInput (room : Room) (player : GamePlayer) (message : Text) : List RoomPlayerInput :=
  if parseResignMessage message then
    if room.containsPlayer player.userId then [⟨player.side, .resign, .select 0 0⟩] else []
  else match parseMessage message with
    | some action => [⟨player.side, .action, action⟩]
    | none => []

def pollPlayerInput (room : Room) (player : GamePlayer) : List RoomPlayerInput × Server :=
  match server.findSession player.playerId with
  | none => ([], server)
  | some session =>
      if session.state ≠ .playing ∨ !session.hasRoom then ([], server)
      else match server.tryRead .input player.playerId with
        | (none, server) => ([], server)
        | (some message, server) => (readPlayerInput room player message, server)

def pollRoomInputs (room : Room) : List RoomPlayerInput × Server :=
  match room.whitePlayer, room.blackPlayer with
  | some white, some black =>
      let (fromWhite, server) := server.pollPlayerInput room white
      let (fromBlack, server) := server.pollPlayerInput room black
      (fromWhite ++ fromBlack, server)
  | some white, none => server.pollPlayerInput room white
  | none, some black => server.pollPlayerInput room black
  | none, none => ([], server)

/-! ### `ActiveRoomProcessor` -/

def sendSnapshot (player : Option GamePlayer) (snapshot : Text) : Server :=
  match player with
  | some player =>
      if server.isPlayerConnected player.playerId then server.send player.playerId (.snapshot snapshot)
      else server
  | none => server

/-- The room's clock goes on and its players get to see the board. -/
def tickRoom (roomId : RoomId) (elapsed : Int) : Except ServerFault Server :=
  match server.rooms.findRoom roomId with
  | none => .ok server
  | some room => do
      let game ← (room.game.tick elapsed).mapError .game
      let server := server.modifyRoom roomId ({ · with game })
      let snapshot := config.generateSnapshot game
      let server := (server.sendSnapshot room.whitePlayer snapshot).sendSnapshot room.blackPlayer snapshot
      return { server with lastTick := server.now }

/-- `apply_room_inputs` over what `poll_room_inputs` returns: the winner if one of the players resigned,
for whom the finish callback is called next. -/
def playRoomInputs (roomId : RoomId) : Except ServerFault (Option PieceColor × Server) :=
  match server.rooms.findRoom roomId with
  | none => .ok (none, server)
  | some room => do
      let (inputs, server) := server.pollRoomInputs room
      let (game, winner) ← (applyRoomInputs room.game inputs).mapError .game
      return (winner, server.modifyRoom roomId ({ · with game }))

/-! ### `GameResultHandler` -/

def updateRatingsForResult (winner loser : GamePlayer) (gameId : Int) : Option RatingChange × Server :=
  match server.users.findProfileById winner.userId, server.users.findProfileById loser.userId with
  | some winnerProfile, some loserProfile =>
      let change := config.calculate winnerProfile.rating loserProfile.rating
      let users := server.users.updateRating winner.userId change.winnerNewRating
      let users := users.updateRating loser.userId change.loserNewRating
      let games := server.games.finishGame gameId (intOfUserId winner.userId)
      let server := { server with users, games }
      let server := server.note (.ratingUpdated winner.userId change.winnerNewRating)
      let server := server.note (.ratingUpdated loser.userId change.loserNewRating)
      (some change, server.note (.gameFinished gameId (intOfUserId winner.userId)))
  | _, _ => (none, server)

def notifyGameFinished (white black : PlayerId) (winner : PieceColor) (reason : FinishReason)
    (change : RatingChange) : Server :=
  let whiteWon := winner = .white
  let notify (server : Server) (id : PlayerId) (won : Bool) : Server :=
    if server.isPlayerConnected id then
      server.sendMessage id
        (.gameResult won reason (if won then change.winnerNewRating else change.loserNewRating))
    else server
  (notify (notify server white whiteWon) black (!whiteWon)).note (.finishNotified white black winner reason)

/-- What is known of a player once the game is over; no profile means that the user is not found. -/
structure FinishedPlayerState where
  playerId : PlayerId
  userId : UserId
  profile : Option Player

def buildFinishedPlayerState (player : GamePlayer) : FinishedPlayerState :=
  ⟨player.playerId, player.userId, server.users.findProfileById player.userId⟩

/-- What becomes of the session of a player. -/
def FinishedPlayerState.release (player : FinishedPlayerState) (session : SessionData) : SessionData :=
  let session := session.clearSide.clearRoom
  match player.profile with
  | some profile => session.assignUser player.userId profile.username profile.rating
  | none => session

def cleanupFinishedPlayer (player : FinishedPlayerState) : Except ServerFault Server :=
  match server.findSession player.playerId with
  | none => .ok server
  | some session =>
      let server := server.modifyData player.playerId player.release
      match (player.release session.toSessionData).username with
      | some username => .ok (server.unregisterSession username)
      | none => .error .noProfile

def cleanupFinishedRoom (roomId : RoomId) (white black : GamePlayer) : Except ServerFault Server := do
  let whiteState := server.buildFinishedPlayerState white
  let blackState := server.buildFinishedPlayerState black
  let server := { server with store := server.store.unregisterRoom white.userId black.userId }
  let server := server.modifyRoom roomId (·.reset)
  (← server.cleanupFinishedPlayer whiteState).cleanupFinishedPlayer blackState

/-- Ratings and the database game. -/
def recordResult (room : Room) (white black : GamePlayer) (winner : Option PieceColor)
    (reason : FinishReason) : Option RatingChange × Server :=
  match room.dbGameId, winner with
  | none, _ => (none, server)
  | some gameId, some .white => server.updateRatingsForResult config white black gameId
  | some gameId, some .black => server.updateRatingsForResult config black white gameId
  | some gameId, none =>
      if reason = .disconnect then
        (none, { server with games := server.games.finishGameWithoutWinner gameId }.note
          (.gameFinishedWithoutWinner gameId))
      else (none, server)

def finish (roomId : RoomId) (winner : Option PieceColor) (reason : FinishReason) :
    Except ServerFault Server :=
  match server.rooms.findRoom roomId with
  | none => .ok server
  | some room =>
      match room.whitePlayer, room.blackPlayer with
      | some white, some black =>
          let (change, server) := server.recordResult config room white black winner reason
          let server :=
            match winner, change with
            | some color, some change =>
                server.notifyGameFinished white.playerId black.playerId color reason change
            | _, _ => server
          server.cleanupFinishedRoom roomId white black
      | _, _ => .ok server

end Server

end KungFuChess
