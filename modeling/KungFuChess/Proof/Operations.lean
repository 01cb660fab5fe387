import KungFuChess.Lib.Loops
import KungFuChess.Proof.Server

/-!
# The operations, one by one

What each operation other than a round of the lobby does to a server, connections apart. From this, what
no operation can break: ids are given out once.
-/

namespace KungFuChess

namespace Server

open Loops

variable {config : ServerConfig} {s s' : Server} {id : PlayerId} {roomId : RoomId}

/-! ### The sessions as a whole -/

theorem bare_mapData (s : Server) (f : SessionData → SessionData) : (s.mapData f).bare = s.bare.mapData f := by
  unfold mapData bare
  simp only [List.map_map]
  rfl

theorem mapData_mapData (s : Server) (f g : SessionData → SessionData) :
    (s.mapData f).mapData g = s.mapData (g ∘ f) := by
  unfold mapData
  simp only [List.map_map]
  rfl

theorem mapData_id (s : Server) {f : SessionData → SessionData} (h : ∀ x ∈ s.data, f x = x) : s.mapData f = s := by
  unfold mapData
  have hmap : (s.sessions.map fun x => { x with toSessionData := f x.toSessionData }) = s.sessions := by
    conv_rhs => rw [← List.map_id s.sessions]
    apply List.map_congr_left
    intro x hx
    rw [h x.toSessionData (List.mem_map_of_mem hx)]
    rfl
  rw [hmap]

theorem pruneDisconnected_bare (s : Server) : s.pruneDisconnected.bare = s.bare := by
  unfold pruneDisconnected bare
  simp only [List.map_map]
  rfl

theorem occur_bare (s : Server) (event : NetEvent) :
    (s.occur event).bare = bare { s with backlog := (s.occur event).backlog, now := (s.occur event).now } := by
  cases event with
  | connect => rfl
  | pass duration => rfl
  | setLink id link => exact bare_modifyConnection s id _
  | deliver id content =>
      apply bare_ext
      · unfold occur modifySession data
        simp only [List.map_map]
        apply List.map_congr_left
        intro x _
        simp only [Function.comp_apply]
        split
        · rfl
        · rfl
      · rfl

/-! ### Timeouts -/

/-- The sessions whose search has timed out no longer search. -/
def cancelSearches (ids : List PlayerId) (x : SessionData) : SessionData :=
  if x.id ∈ ids then x.cancelSearch else x

theorem foldl_notifySearchTimeout_bare (ids : List PlayerId) (s : Server) :
    (ids.foldl notifySearchTimeout s).bare = (s.mapData (cancelSearches ids)).bare := by
  induction ids generalizing s with
  | nil =>
      rw [mapData_id]
      · rfl
      · intro x _
        rfl
  | cons id ids ih =>
      rw [List.foldl_cons, ih, bare_mapData]
      have hnotify : (s.notifySearchTimeout id).bare = s.bare.modifyData id (·.cancelSearch) := by
        rw [notifySearchTimeout, bare_modifyData, bare_send]
      rw [hnotify, modifyData_eq_mapData, mapData_mapData, bare_mapData]
      congr 1
      funext x
      simp only [Function.comp_apply, cancelSearches, List.mem_cons]
      by_cases hid : x.id = id
      · have hidem : x.cancelSearch.cancelSearch = x.cancelSearch := by
          unfold SessionData.cancelSearch
          split
          · rfl
          · rfl
        by_cases hmem : id ∈ ids
        · simp [hid, hmem, hidem]
        · simp [hid, hmem]
      · simp [hid]

/-- The server after the timeouts, connections apart. -/
def timedOut (config : ServerConfig) (s : Server) : Server :=
  { s.mapData (cancelSearches (s.checkTimeouts config).1) with
    waiting := (s.checkTimeouts config).2.waiting }

theorem data_timedOut (config : ServerConfig) (s : Server) :
    (timedOut config s).data = s.data.map (cancelSearches (s.checkTimeouts config).1) := data_mapData s _

@[simp] theorem cancelSearches_id (ids : List PlayerId) (x : SessionData) : (cancelSearches ids x).id = x.id := by
  unfold cancelSearches
  split
  · exact x.cancelSearch_id
  · rfl

@[simp] theorem cancelSearches_user (ids : List PlayerId) (x : SessionData) :
    (cancelSearches ids x).user = x.user := by
  unfold cancelSearches
  split
  · exact x.cancelSearch_user
  · rfl

theorem processTimeouts_bare (config : ServerConfig) (s : Server) :
    (s.processTimeouts config).bare = (timedOut config s).bare := by
  unfold processTimeouts
  rw [foldl_notifySearchTimeout_bare]
  rfl

/-! ### Coming and going -/

/-- The server with one session more. -/
def accepted (s : Server) (backlog : Nat) : Server :=
  { s with
    backlog
    sessions := s.sessions ++ [{ id := s.nextSessionId }]
    nextSessionId := s.nextSessionId + 1 }

theorem data_accepted (s : Server) (backlog : Nat) :
    (s.accepted backlog).data = s.data ++ [{ id := s.nextSessionId }] := List.map_append

theorem acceptNewClients_cases (config : ServerConfig) (s : Server) :
    s.acceptNewClients config = s ∨ s.sessions.length < config.maxClients ∧ 0 < s.backlog ∧
      ∃ backlog, s.acceptNewClients config = s.accepted backlog := by
  unfold acceptNewClients
  split
  · exact .inl rfl
  · rename_i hfull
    split
    · exact .inl rfl
    · rename_i backlog hbacklog
      exact .inr ⟨by omega, by omega, backlog, rfl⟩

/-- The server without a session whose connection is closed. -/
def pruned (s : Server) (x : SessionData) : Server :=
  { s with
    onlineUsernames := match x.username with
      | some username => s.onlineUsernames.erase username
      | none => s.onlineUsernames
    waiting := if x.state = .searching then s.waiting.filter fun entry => entry.session ≠ x.id else s.waiting
    sessions := s.sessions.filter fun session => session.id ≠ x.id }

theorem pruneSession_cases (s : Server) (id : PlayerId) :
    s.pruneSession id = s ∨ ∃ x ∈ s.data, x.id = id ∧ s.pruneSession id = s.pruned x := by
  unfold pruneSession
  cases hx : s.findSession id with
  | none => exact .inl rfl
  | some x =>
      obtain ⟨hmem, hid⟩ := data_of_findSession hx
      dsimp only
      split
      · exact .inl rfl
      · refine .inr ⟨x.toSessionData, hmem, hid, ?_⟩
        unfold pruned onSessionDisconnected removeWaiting unregisterSession
        rw [hid]
        cases x.username with
        | none =>
            dsimp only
            split
            · rfl
            · rfl
        | some username =>
            dsimp only
            split
            · rfl
            · rfl

theorem data_pruned (s : Server) (x : SessionData) : (s.pruned x).data = s.data.filter fun y => y.id ≠ x.id := by
  unfold pruned data
  rw [List.filter_map]
  rfl

/-! ### Joining -/

/-- A player of an active room. -/
structure PlaysIn (s : Server) (roomId : RoomId) (side : PieceColor) (room : Room) (player : GamePlayer) :
    Prop where
  find : s.rooms.findRoom roomId = some room
  active : room.active = true
  found : room.playerOf side = some player

theorem PlaysIn.containsPlayer {side : PieceColor} {room : Room} {player : GamePlayer}
    (h : PlaysIn s roomId side room player) : room.containsPlayer player.userId = true := by
  have hfound := h.found
  unfold Room.containsPlayer
  cases side with
  | white =>
      rw [Room.playerOf] at hfound
      simp [hfound]
  | black =>
      rw [Room.playerOf] at hfound
      simp [hfound]

theorem joinRoom_bare (s : Server) (id : PlayerId) (roomId : RoomId) (side : PieceColor) :
    (s.joinRoom id roomId side).bare = (s.modifyData id (playSide roomId side)).bare := by
  unfold joinRoom
  rw [bare_send]
  rfl

theorem handleJoinGame_bare (s : Server) (x : PlayerSession) (roomId : RoomId) :
    (s.handleJoinGame x roomId).bare = s.bare ∨ ∃ side room player, PlaysIn s roomId side room player ∧
      x.userId = some player.userId ∧
      (s.handleJoinGame x roomId).bare = (s.modifyData x.id (playSide roomId side)).bare := by
  unfold handleJoinGame
  cases hroom : s.rooms.findRoom roomId with
  | none => exact .inl (bare_send ..)
  | some room =>
      dsimp only
      split
      · exact .inl (bare_send ..)
      · rename_i hactive
        rw [Bool.not_eq_true', Bool.not_eq_false] at hactive
        cases huser : x.userId with
        | none => exact .inl (bare_send ..)
        | some userId =>
            dsimp only
            split
            · rename_i white black hwhite hblack
              split
              · rename_i heq
                exact .inr ⟨.white, room, white, ⟨hroom, hactive, hwhite⟩, by rw [heq], joinRoom_bare ..⟩
              · split
                · rename_i heq
                  exact .inr ⟨.black, room, black, ⟨hroom, hactive, hblack⟩, by rw [heq], joinRoom_bare ..⟩
                · exact .inl (bare_send ..)
            · exact .inl (bare_send ..)

/-- A session without a room asks for a room in which its user plays. -/
structure MayJoin (s : Server) (x : SessionData) (roomId : RoomId) (side : PieceColor) : Prop where
  mem : x ∈ s.data
  noRoom : x.roomId = none
  asks : ∃ message, (s.tryRead .join x.id).1 = some message ∧ parseJoinGameMessage message = some roomId
  plays : ∃ room player, PlaysIn s roomId side room player ∧ x.userId = some player.userId

theorem joinRound_step (s : Server) (id : PlayerId) :
    (s.joinRound id).bare = s.bare ∨ ∃ x roomId side, x.id = id ∧ MayJoin s x roomId side ∧
      (s.joinRound id).bare = (s.modifyData id (playSide roomId side)).bare := by
  unfold joinRound
  cases hx : s.findSession id with
  | none => exact .inl rfl
  | some x =>
      obtain ⟨hmem, hid⟩ := data_of_findSession hx
      dsimp only
      split
      · exact .inl rfl
      · rename_i hpolled
        rw [not_or] at hpolled
        have hroom : x.roomId = none := by simpa [SessionData.hasRoom] using hpolled.2
        obtain ⟨answer, t, hread⟩ : ∃ answer t, s.tryRead .join id = (answer, t) := ⟨_, _, rfl⟩
        have hbare : t.bare = s.bare := by simpa [hread] using bare_tryRead s .join id
        rw [hread]
        cases answer with
        | none => exact .inl hbare
        | some message =>
            dsimp only
            cases hparse : parseJoinGameMessage message with
            | none => exact .inl hbare
            | some roomId =>
                rcases handleJoinGame_bare t x roomId with hidle | ⟨side, room, player, hplays, huser, hjoin⟩
                · exact .inl (hidle.trans hbare)
                · have hfind := hplays.find
                  rw [eq_of_bare hbare] at hfind
                  refine .inr ⟨x.toSessionData, roomId, side, hid, ⟨hmem, hroom, ⟨message, ?_, hparse⟩,
                    room, player, ⟨hfind, hplays.active, hplays.found⟩, huser⟩, ?_⟩
                  · rw [hid, hread]
                  · rw [hjoin, bare_modifyData, bare_modifyData, hbare, hid]

/-! ### Rooms -/

theorem probeRoom_bare (s : Server) (roomId : RoomId) : (s.probeRoom roomId).bare = s.bare := by
  unfold probeRoom
  cases s.rooms.findRoom roomId with
  | none => rfl
  | some room =>
      dsimp only
      cases room.whitePlayer with
      | none => cases room.blackPlayer <;> simp
      | some white => cases room.blackPlayer <;> simp

theorem sendSnapshot_bare (s : Server) (player : Option GamePlayer) (snapshot : Text) :
    (s.sendSnapshot player snapshot).bare = s.bare := by
  unfold sendSnapshot
  cases player with
  | none => rfl
  | some player =>
      dsimp only
      split
      · exact bare_send ..
      · rfl

theorem pollPlayerInput_bare (s : Server) (room : Room) (player : GamePlayer) :
    (s.pollPlayerInput room player).2.bare = s.bare := by
  unfold pollPlayerInput
  cases s.findSession player.playerId with
  | none => rfl
  | some session =>
      dsimp only
      split
      · rfl
      · obtain ⟨answer, t, hread⟩ : ∃ answer t, s.tryRead .input player.playerId = (answer, t) := ⟨_, _, rfl⟩
        have hbare : t.bare = s.bare := by simpa [hread] using bare_tryRead s .input player.playerId
        rw [hread]
        cases answer with
        | none => exact hbare
        | some message => exact hbare

theorem pollRoomInputs_bare (s : Server) (room : Room) : (s.pollRoomInputs room).2.bare = s.bare := by
  unfold pollRoomInputs
  split
  · exact (pollPlayerInput_bare ..).trans (pollPlayerInput_bare ..)
  · exact pollPlayerInput_bare ..
  · exact pollPlayerInput_bare ..
  · rfl

theorem mapError_eq_ok {ε ε' α : Type} {f : ε → ε'} {x : Except ε α} {a : α} :
    x.mapError f = .ok a ↔ x = .ok a := by
  cases x with
  | error e => simp [Except.mapError]
  | ok b => simp [Except.mapError]

theorem tickRoom_ok {elapsed : Int} (h : s.tickRoom config roomId elapsed = .ok s') :
    s' = s ∨ ∃ room game, s.rooms.findRoom roomId = some room ∧ room.game.tick elapsed = .ok game ∧
      s'.bare = bare { s with rooms := s.rooms.modifyRoom roomId ({ · with game }), lastTick := s.now } := by
  unfold tickRoom at h
  cases hroom : s.rooms.findRoom roomId with
  | none =>
      rw [hroom] at h
      cases h
      exact .inl rfl
  | some room =>
      rw [hroom] at h
      obtain ⟨game, hgame, hrest⟩ := bind_eq_ok.mp h
      cases hrest
      refine .inr ⟨room, game, rfl, mapError_eq_ok.mp hgame, ?_⟩
      have hticked : ∀ t : Server, bare { t with lastTick := t.now } = { t.bare with lastTick := t.bare.now } := by
        intro t
        rfl
      rw [hticked, sendSnapshot_bare, sendSnapshot_bare]
      rfl

theorem playRoomInputs_ok {winner : Option PieceColor} (h : s.playRoomInputs roomId = .ok (winner, s')) :
    winner = none ∧ s' = s ∨ ∃ room game, s.rooms.findRoom roomId = some room ∧
      applyRoomInputs room.game (s.pollRoomInputs room).1 = .ok (game, winner) ∧
      s'.bare = bare { s with rooms := s.rooms.modifyRoom roomId ({ · with game }) } := by
  unfold playRoomInputs at h
  cases hroom : s.rooms.findRoom roomId with
  | none =>
      rw [hroom] at h
      cases h
      exact .inl ⟨rfl, rfl⟩
  | some room =>
      rw [hroom] at h
      obtain ⟨⟨game, resigned⟩, hgame, hrest⟩ := bind_eq_ok.mp h
      cases hrest
      refine .inr ⟨room, game, rfl, mapError_eq_ok.mp hgame, ?_⟩
      change (s.pollRoomInputs room).2.bare.modifyRoom roomId ({ · with game }) = _
      rw [pollRoomInputs_bare]
      rfl

/-! ### The end of a game -/

/-- What a session says after one of the players has been let go. -/
def FinishedPlayerState.leave (player : FinishedPlayerState) (x : SessionData) : SessionData :=
  if x.id = player.playerId then player.release x else x

@[simp] theorem FinishedPlayerState.leave_id (player : FinishedPlayerState) (x : SessionData) :
    (player.leave x).id = x.id := by
  unfold FinishedPlayerState.leave FinishedPlayerState.release
  split
  · cases player.profile with
    | none => rfl
    | some profile => rfl
  · rfl

@[simp] theorem FinishedPlayerState.leave_state (player : FinishedPlayerState) (x : SessionData) :
    (player.leave x).state = x.state := by
  unfold FinishedPlayerState.leave FinishedPlayerState.release
  split
  · cases player.profile with
    | none => rfl
    | some profile => rfl
  · rfl

@[simp] theorem FinishedPlayerState.leave_roomId (player : FinishedPlayerState) (x : SessionData) :
    (player.leave x).roomId = if x.id = player.playerId then none else x.roomId := by
  unfold FinishedPlayerState.leave FinishedPlayerState.release
  split
  · cases player.profile with
    | none => rfl
    | some profile => rfl
  · rfl

theorem FinishedPlayerState.leave_of_ne {player : FinishedPlayerState} {x : SessionData}
    (h : x.id ≠ player.playerId) : player.leave x = x := if_neg h

/-- The guard of `finish`. -/
structure Ends (s : Server) (roomId : RoomId) (room : Room) (white black : GamePlayer) : Prop where
  find : s.rooms.findRoom roomId = some room
  white : room.whitePlayer = some white
  black : room.blackPlayer = some black

/-- What a finish adds to the journal. -/
def resultEntries (config : ServerConfig) (s : Server) (room : Room) (white black : GamePlayer)
    (winner : Option PieceColor) (reason : FinishReason) : List JournalEntry :=
  let rated (color : PieceColor) (winner loser : GamePlayer) (gameId : Int) : List JournalEntry :=
    match s.users.findProfileById winner.userId, s.users.findProfileById loser.userId with
    | some winnerProfile, some loserProfile =>
        let change := config.calculate winnerProfile.rating loserProfile.rating
        [.ratingUpdated winner.userId change.winnerNewRating, .ratingUpdated loser.userId change.loserNewRating,
          .gameFinished gameId (intOfUserId winner.userId),
          .finishNotified white.playerId black.playerId color reason]
    | _, _ => []
  match room.dbGameId, winner with
  | none, _ => []
  | some gameId, some .white => rated .white white black gameId
  | some gameId, some .black => rated .black black white gameId
  | some gameId, none => if reason = .disconnect then [.gameFinishedWithoutWinner gameId] else []

/-- The server after a game has ended, connections apart. -/
def finished (config : ServerConfig) (s : Server) (roomId : RoomId) (room : Room) (white black : GamePlayer)
    (winner : Option PieceColor) (reason : FinishReason) (online : Finset Text) : Server :=
  let recorded := (s.recordResult config room white black winner reason).2
  { s.mapData ((recorded.buildFinishedPlayerState black).leave ∘
      (recorded.buildFinishedPlayerState white).leave) with
    onlineUsernames := online
    rooms := s.rooms.modifyRoom roomId (·.reset)
    users := recorded.users
    games := recorded.games
    store := s.store.unregisterRoom white.userId black.userId
    journal := s.journal ++ resultEntries config s room white black winner reason }

theorem data_finished (s : Server) (roomId : RoomId) (room : Room) (white black : GamePlayer)
    (winner : Option PieceColor) (reason : FinishReason) (online : Finset Text) :
    (finished config s roomId room white black winner reason online).data = s.data.map
      (((s.recordResult config room white black winner reason).2.buildFinishedPlayerState black).leave ∘
        ((s.recordResult config room white black winner reason).2.buildFinishedPlayerState white).leave) :=
  data_mapData s _

theorem findSession_none (h : s.findSession id = none) : ∀ x ∈ s.data, x.id ≠ id := by
  intro x hx heq
  obtain ⟨session, hsession, rfl⟩ := List.mem_map.mp hx
  have hnone := List.find?_eq_none.mp h session hsession
  simp [heq] at hnone

theorem findSession_eq_none (h : ∀ x ∈ s.data, x.id ≠ id) : s.findSession id = none := by
  apply List.find?_eq_none.mpr
  intro session hsession
  simpa using h session.toSessionData (List.mem_map_of_mem hsession)

theorem cleanupFinishedPlayer_ok {player : FinishedPlayerState} (h : s.cleanupFinishedPlayer player = .ok s') :
    ∃ online, s'.bare = bare { s.mapData player.leave with onlineUsernames := online } ∧
      (s.findSession player.playerId = none → online = s.onlineUsernames) := by
  unfold cleanupFinishedPlayer at h
  cases hfind : s.findSession player.playerId with
  | none =>
      rw [hfind] at h
      cases h
      refine ⟨s.onlineUsernames, ?_, fun _ => rfl⟩
      rw [mapData_id]
      intro x hx
      exact if_neg (findSession_none hfind x hx)
  | some session =>
      rw [hfind] at h
      dsimp only at h
      split at h
      · rename_i username _
        cases h
        refine ⟨s.onlineUsernames.erase username, ?_, by simp⟩
        rw [modifyData_eq_mapData]
        rfl
      · cases h

theorem notifyGameFinished_bare (s : Server) (white black : PlayerId) (winner : PieceColor)
    (reason : FinishReason) (change : RatingChange) :
    (s.notifyGameFinished white black winner reason change).bare =
      (s.note (.finishNotified white black winner reason)).bare := by
  have hnotify : ∀ (t : Server) id message,
      (if t.isPlayerConnected id then t.sendMessage id message else t).bare = t.bare := by
    intro t id message
    split
    · exact bare_sendMessage ..
    · rfl
  have hnote : ∀ (t : Server) entry, (t.note entry).bare = t.bare.note entry := by
    intro t entry
    rfl
  unfold notifyGameFinished
  rw [hnote, hnotify, hnotify, hnote]

theorem cleanupFinishedRoom_ok {white black : GamePlayer} (h : s.cleanupFinishedRoom roomId white black = .ok s') :
    ∃ online, s'.bare = bare
      { s.mapData ((s.buildFinishedPlayerState black).leave ∘ (s.buildFinishedPlayerState white).leave) with
        onlineUsernames := online
        rooms := s.rooms.modifyRoom roomId (·.reset)
        store := s.store.unregisterRoom white.userId black.userId } ∧
      (s.findSession white.playerId = none → s.findSession black.playerId = none → online = s.onlineUsernames) := by
  unfold cleanupFinishedRoom at h
  obtain ⟨t, hwhite, hblack⟩ := bind_eq_ok.mp h
  obtain ⟨online, ht, hsame⟩ := cleanupFinishedPlayer_ok hwhite
  obtain ⟨online', hs', hsame'⟩ := cleanupFinishedPlayer_ok hblack
  refine ⟨online', ?_, ?_⟩
  · apply bare_ext
    · rw [data_eq_of_bare hs']
      change (t.mapData _).data = (s.mapData _).data
      rw [data_mapData, data_mapData, ← List.map_map]
      congr 1
      exact (data_eq_of_bare ht).trans (data_mapData s _)
    · rw [eq_of_bare hs', eq_of_bare ht]
      rfl
  · intro hwnone hbnone
    have honline : t.onlineUsernames = s.onlineUsernames := by
      rw [eq_of_bare ht]
      exact hsame hwnone
    rw [← honline]
    apply hsame'
    have hfind : t.data = s.data := by
      rw [data_eq_of_bare ht]
      change (s.mapData (s.buildFinishedPlayerState white).leave).data = s.data
      rw [mapData_id]
      exact fun x hx => if_neg (findSession_none hwnone x hx)
    exact findSession_eq_none fun x hx => findSession_none hbnone x (hfind ▸ hx)

/-- `finish` as far as the ratings, the database game and the notification. -/
def recordAndNotify (config : ServerConfig) (s : Server) (room : Room) (white black : GamePlayer)
    (winner : Option PieceColor) (reason : FinishReason) : Server :=
  let (change, recorded) := s.recordResult config room white black winner reason
  match winner, change with
  | some color, some change => recorded.notifyGameFinished white.playerId black.playerId color reason change
  | _, _ => recorded

theorem recordAndNotify_bare (config : ServerConfig) (s : Server) (room : Room) (white black : GamePlayer)
    (winner : Option PieceColor) (reason : FinishReason) :
    (recordAndNotify config s room white black winner reason).bare = bare
      { s with
        users := (s.recordResult config room white black winner reason).2.users
        games := (s.recordResult config room white black winner reason).2.games
        journal := s.journal ++ resultEntries config s room white black winner reason } := by
  unfold recordAndNotify recordResult resultEntries
  cases hgame : room.dbGameId with
  | none => cases winner <;> simp
  | some gameId =>
      match winner with
      | none =>
          by_cases hreason : reason = .disconnect
          · simp [hreason, note]
          · simp [hreason]
      | some .white =>
          simp only [updateRatingsForResult]
          cases s.users.findProfileById white.userId with
          | none => simp
          | some whiteProfile =>
              cases s.users.findProfileById black.userId with
              | none => simp
              | some blackProfile =>
                  dsimp only
                  rw [notifyGameFinished_bare]
                  simp [note]
      | some .black =>
          simp only [updateRatingsForResult]
          cases s.users.findProfileById black.userId with
          | none => simp
          | some blackProfile =>
              cases s.users.findProfileById white.userId with
              | none => simp
              | some whiteProfile =>
                  dsimp only
                  rw [notifyGameFinished_bare]
                  simp [note]

theorem finish_ok {winner : Option PieceColor} {reason : FinishReason}
    (h : s.finish config roomId winner reason = .ok s') :
    s' = s ∧ (∀ room white black, ¬Ends s roomId room white black) ∨
      ∃ room white black online, Ends s roomId room white black ∧
        s'.bare = (finished config s roomId room white black winner reason online).bare ∧
        (s.findSession white.playerId = none → s.findSession black.playerId = none → online = s.onlineUsernames) := by
  unfold finish at h
  cases hroom : s.rooms.findRoom roomId with
  | none =>
      rw [hroom] at h
      cases h
      refine .inl ⟨rfl, ?_⟩
      intro room white black h
      obtain ⟨hfind, -, -⟩ := h
      rw [hroom] at hfind
      cases hfind
  | some room =>
      rw [hroom] at h
      dsimp only at h
      split at h
      · rename_i white black hwhite hblack
        right
        obtain ⟨online, hs', honline⟩ : ∃ online, _ :=
          cleanupFinishedRoom_ok (s := recordAndNotify config s room white black winner reason) h
        have hbare := recordAndNotify_bare config s room white black winner reason
        have hdata : (recordAndNotify config s room white black winner reason).data = s.data :=
          (data_eq_of_bare hbare).trans rfl
        have hstate : ∀ player, (recordAndNotify config s room white black winner reason).buildFinishedPlayerState player =
            (s.recordResult config room white black winner reason).2.buildFinishedPlayerState player := by
          intro player
          rw [buildFinishedPlayerState, eq_of_bare hbare, buildFinishedPlayerState]
        refine ⟨room, white, black, online, ⟨hroom, hwhite, hblack⟩, ?_, ?_⟩
        · rw [hs', hstate, hstate]
          apply bare_ext
          · change (Server.mapData _ _).data = (Server.mapData _ _).data
            rw [data_mapData, data_mapData, hdata]
          · rw [eq_of_bare hbare]
            rfl
        · intro hwnone hbnone
          rw [honline, eq_of_bare hbare]
          · exact findSession_eq_none fun x hx => findSession_none hwnone x (hdata ▸ hx)
          · exact findSession_eq_none fun x hx => findSession_none hbnone x (hdata ▸ hx)
      · rename_i hguard
        cases h
        refine .inl ⟨rfl, ?_⟩
        intro room' white black h
        obtain ⟨hfind, hwhite, hblack⟩ := h
        rw [hroom] at hfind
        cases hfind
        exact hguard white black hwhite hblack

/-! ### All of them -/

/-- The server with one room more. -/
def allocated (config : ServerConfig) (s : Server) (request : GameCreationRequest) (store : RuntimeStore) : Server :=
  { s with
    rooms := ⟨s.rooms.rooms ++ [freshRoom config s request], s.rooms.nextId + 1⟩
    store
    journal := s.journal ++ [.roomCreated s.rooms.nextId s.now] }

/-- What one operation can do, connections apart. -/
inductive OpStep (config : ServerConfig) (s : Server) : ServerOp → Server → Prop where
  | idle {op : ServerOp} (quiet : ∀ roomId winner reason, op = .finish roomId winner reason →
      ∀ room white black, ¬Ends s roomId room white black) (unasked : ∀ request, op ≠ .allocate request) :
      OpStep config s op s
  | accept (backlog : Nat) (free : s.sessions.length < config.maxClients) (knocks : 0 < s.backlog) :
      OpStep config s .acceptNewClients (s.accepted backlog)
  | lobby {id : PlayerId} {t : Server} (step : LobbyStep config s id t) : OpStep config s (.lobby id) t
  | timeouts : OpStep config s .processTimeouts (timedOut config s)
  | prune {x : SessionData} (mem : x ∈ s.data) : OpStep config s (.prune x.id) (s.pruned x)
  | join {x : SessionData} {roomId : RoomId} {side : PieceColor} (may : MayJoin s x roomId side) :
      OpStep config s (.join x.id) (s.modifyData x.id (playSide roomId side))
  | allocate (request : GameCreationRequest) (store : RuntimeStore) :
      OpStep config s (.allocate request) (allocated config s request store)
  | tick {roomId : RoomId} {elapsed : Int} {room : Room} {game : Match} (find : s.rooms.findRoom roomId = some room)
      (ticked : room.game.tick elapsed = .ok game) :
      OpStep config s (.tickRoom roomId elapsed)
        { s with rooms := s.rooms.modifyRoom roomId ({ · with game }), lastTick := s.now }
  | inputs {roomId : RoomId} {room : Room} {winner : Option PieceColor} {game : Match}
      (find : s.rooms.findRoom roomId = some room)
      (played : applyRoomInputs room.game (s.pollRoomInputs room).1 = .ok (game, winner)) :
      OpStep config s (.playRoomInputs roomId) { s with rooms := s.rooms.modifyRoom roomId ({ · with game }) }
  | finish {roomId : RoomId} {winner : Option PieceColor} {reason : FinishReason} {room : Room}
      {white black : GamePlayer} {online : Finset Text} (ends : Ends s roomId room white black)
      (absent : s.findSession white.playerId = none → s.findSession black.playerId = none →
        online = s.onlineUsernames) :
      OpStep config s (.finish roomId winner reason)
        (finished config s roomId room white black winner reason online)
  | removeInactive : OpStep config s .removeInactiveRooms { s with rooms := s.rooms.removeInactiveRooms }

theorem apply_step (hfree : s.NextRoomFree) {op : ServerOp} {r : op.Result} (h : s.apply config op = .ok (r, s')) :
    ∃ t, OpStep config s op t ∧ s'.bare = t.bare := by
  cases op with
  | acceptNewClients =>
      cases h
      rcases acceptNewClients_cases config s with hidle | ⟨hfree, hknocks, backlog, haccept⟩
      · exact ⟨s, .idle (by simp) (by simp), by rw [hidle]⟩
      · exact ⟨_, .accept backlog hfree hknocks, by rw [haccept]⟩
  | lobby id =>
      cases h
      obtain ⟨t, hstep, hbare⟩ := lobbyRound_step config hfree id
      exact ⟨t, .lobby hstep, hbare⟩
  | processTimeouts =>
      cases h
      exact ⟨_, .timeouts, processTimeouts_bare config s⟩
  | pruneDisconnected =>
      cases h
      exact ⟨s, .idle (by simp) (by simp), pruneDisconnected_bare s⟩
  | prune id =>
      cases h
      rcases pruneSession_cases s id with hidle | ⟨x, hmem, rfl, hprune⟩
      · exact ⟨s, .idle (by simp) (by simp), by rw [hidle]⟩
      · exact ⟨_, .prune hmem, by rw [hprune]⟩
  | join id =>
      cases h
      rcases joinRound_step s id with hidle | ⟨x, roomId, side, rfl, hmay, hjoin⟩
      · exact ⟨s, .idle (by simp) (by simp), hidle⟩
      · exact ⟨_, .join hmay, hjoin⟩
  | allocate request =>
      cases h
      refine ⟨_, .allocate request (s.allocate config request).store, ?_⟩
      unfold Server.allocate
      rw [createRoom_eq hfree]
      rfl
  | readClock =>
      cases h
      exact ⟨s, .idle (by simp) (by simp), rfl⟩
  | probeRoom roomId =>
      cases h
      exact ⟨s, .idle (by simp) (by simp), probeRoom_bare s roomId⟩
  | tickRoom roomId elapsed =>
      obtain ⟨t, ht, heq⟩ := map_eq_ok.mp h
      cases heq
      rcases tickRoom_ok ht with rfl | ⟨room, game, hfind, hticked, hbare⟩
      · exact ⟨_, .idle (by simp) (by simp), rfl⟩
      · exact ⟨_, .tick hfind hticked, hbare⟩
  | playRoomInputs roomId =>
      rcases playRoomInputs_ok h with ⟨-, rfl⟩ | ⟨room, game, hfind, hplayed, hbare⟩
      · exact ⟨_, .idle (by simp) (by simp), rfl⟩
      · exact ⟨_, .inputs hfind hplayed, hbare⟩
  | finish roomId winner reason =>
      obtain ⟨t, ht, heq⟩ := map_eq_ok.mp h
      cases heq
      rcases finish_ok ht with ⟨rfl, hguard⟩ | ⟨room, white, black, online, hends, hbare, honline⟩
      · refine ⟨_, .idle ?_ (by simp), rfl⟩
        intro roomId' winner' reason' h
        obtain ⟨⟩ := h
        exact hguard
      · exact ⟨_, .finish hends honline, hbare⟩
  | removeInactiveRooms =>
      cases h
      exact ⟨_, .removeInactive, rfl⟩

end Server

end KungFuChess
