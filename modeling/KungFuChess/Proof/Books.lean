import KungFuChess.Proof.Endings

/-!
# The books of the games

A match opens a game in the database and puts it on the room, and the end of the room's game closes it. So the table
of games tells what has happened: it has a row for every match, and a row says that a game is over when a result has
been recorded for it, which happens once. A game that is not over is being played in one room, or its room was finished
without a result that is recorded.
-/

namespace KungFuChess

open Machine

/-! ### The table -/

namespace GameRepository

variable (repository : GameRepository)

theorem close_connected (gameId : Int) (winnerId : Option Int) :
    (repository.close gameId winnerId).connected = repository.connected := by
  unfold close
  split
  · rfl
  · rfl

theorem close_nextId (gameId : Int) (winnerId : Option Int) :
    (repository.close gameId winnerId).nextId = repository.nextId := by
  unfold close
  split
  · rfl
  · rfl

theorem createGame_connected (hconnected : repository.connected = true) (white black : Int) :
    repository.createGame white black = (some repository.nextId,
      { rows := repository.rows ++ [⟨repository.nextId, white, black, true, none⟩]
        nextId := repository.nextId + 1
        connected := true }) := by
  unfold createGame
  rw [hconnected]
  rfl

theorem createGame_unconnected (hconnected : repository.connected = false) (white black : Int) :
    repository.createGame white black = (none, repository) := by
  unfold createGame
  rw [hconnected]
  rfl

/-- The row of a game after one is closed. -/
def closeRow (gameId : Int) (winnerId : Option Int) (row : GameRow) : GameRow :=
  if row.id = gameId then { row with active := false, winnerId } else row

@[simp] theorem closeRow_id (gameId : Int) (winnerId : Option Int) (row : GameRow) :
    (closeRow gameId winnerId row).id = row.id := by
  unfold closeRow
  split
  · rfl
  · rfl

theorem closeRow_of_ne {gameId : Int} {row : GameRow} (h : row.id ≠ gameId) (winnerId : Option Int) :
    closeRow gameId winnerId row = row := if_neg h

theorem close_rows (hconnected : repository.connected = true) (gameId : Int) (winnerId : Option Int) :
    (repository.close gameId winnerId).rows = repository.rows.map (closeRow gameId winnerId) := by
  unfold close
  rw [hconnected]
  rfl

end GameRepository

/-! ### Games in play -/

/-- A game that a room is playing, with the players as the table of games has them. -/
structure GameInPlay where
  room : RoomId
  id : Int
  white : Int
  black : Int
deriving DecidableEq, Repr

/-- The row that a match opens. -/
def GameInPlay.row (game : GameInPlay) : GameRow := ⟨game.id, game.white, game.black, true, none⟩

def Room.inPlay (room : Room) : Option GameInPlay :=
  match room.dbGameId, room.whitePlayer, room.blackPlayer with
  | some id, some white, some black => some ⟨room.id, id, intOfUserId white.userId, intOfUserId black.userId⟩
  | _, _, _ => none

theorem Room.inPlay_room {room : Room} {game : GameInPlay} (h : room.inPlay = some game) : game.room = room.id := by
  unfold Room.inPlay at h
  split at h
  · cases h
    rfl
  · cases h

/-- What a journal entry writes into the row of a game that is over: the id of the game and the winner. -/
def closing : JournalEntry → Option (Int × Option Int)
  | .gameFinished gameId winnerId => some (gameId, some winnerId)
  | .gameFinishedWithoutWinner gameId => some (gameId, none)
  | _ => none

def isMatched : JournalEntry → Bool
  | .matched .. => true
  | _ => false

/-- The winner by the colour. -/
def winnerIdOf (game : GameInPlay) : Option PieceColor → Option Int
  | some .white => some game.white
  | some .black => some game.black
  | none => none

namespace Server

variable {config : ServerConfig} {s s' t : Server} {roomId : RoomId}

def gamesInPlay (s : Server) : List GameInPlay := s.rooms.rooms.filterMap Room.inPlay

def closedGames (s : Server) : List (Int × Option Int) := s.journal.filterMap closing

/-- A room plays one game. -/
theorem Wf.eq_of_room (h : Wf s) {game game' : GameInPlay} (hgame : game ∈ s.gamesInPlay)
    (hgame' : game' ∈ s.gamesInPlay) (hroom : game.room = game'.room) : game = game' := by
  obtain ⟨room, hmem, hplay⟩ := List.mem_filterMap.mp hgame
  obtain ⟨room', hmem', hplay'⟩ := List.mem_filterMap.mp hgame'
  have hid : room.id = room'.id := by rw [← Room.inPlay_room hplay, ← Room.inPlay_room hplay', hroom]
  rw [List.inj_on_of_nodup_map h.rooms hmem hmem' hid, hplay'] at hplay
  exact (Option.some.inj hplay).symm

/-- A change of the rooms that is none to the games leaves the games in play. -/
theorem filterMap_modifyRoom (manager : RoomManager) (roomId : RoomId) {f : Room → Room}
    (hf : ∀ room ∈ manager.rooms, room.id = roomId → (f room).inPlay = room.inPlay) :
    (manager.modifyRoom roomId f).rooms.filterMap Room.inPlay = manager.rooms.filterMap Room.inPlay := by
  unfold RoomManager.modifyRoom
  rw [List.filterMap_map]
  apply List.filterMap_congr
  intro room hroom
  rw [Function.comp_apply]
  split
  · rename_i hid
    exact hf room hroom hid
  · rfl

/-- A room that is reset plays no game any more. -/
theorem gamesInPlay_reset (manager : RoomManager) (roomId : RoomId) :
    (manager.modifyRoom roomId (·.reset)).rooms.filterMap Room.inPlay =
      (manager.rooms.filterMap Room.inPlay).filter fun game => game.room ≠ roomId := by
  unfold RoomManager.modifyRoom
  rw [List.filterMap_map]
  induction manager.rooms with
  | nil => rfl
  | cons room rooms ih =>
      rw [List.filterMap_cons, List.filterMap_cons, Function.comp_apply, ih]
      by_cases hid : room.id = roomId
      · rw [if_pos hid]
        change List.filter _ (List.filterMap Room.inPlay rooms) = _
        cases hplay : room.inPlay with
        | none => rfl
        | some game =>
            have hroom : game.room = roomId := (Room.inPlay_room hplay).trans hid
            dsimp only
            rw [List.filter_cons_of_neg (by simpa using hroom)]
      · rw [if_neg hid]
        cases hplay : room.inPlay with
        | none => rfl
        | some game =>
            have hroom : game.room ≠ roomId := fun heq => hid ((Room.inPlay_room hplay).symm.trans heq)
            dsimp only
            rw [List.filter_cons_of_pos (by simpa using hroom)]

theorem gamesInPlay_removeInactive (hwf : Wf s) :
    s.rooms.removeInactiveRooms.rooms.filterMap Room.inPlay = s.gamesInPlay := by
  unfold RoomManager.removeInactiveRooms gamesInPlay
  rw [List.filterMap_filter]
  apply List.filterMap_congr
  intro room hroom
  cases hactive : room.active with
  | true => rfl
  | false =>
      cases hplay : room.inPlay with
      | none => rfl
      | some game =>
          unfold Room.inPlay at hplay
          split at hplay
          · rename_i white black _ hwhite _
            rw [hwf.manned room hroom .white white hwhite] at hactive
            cases hactive
          · cases hplay

/-! ### What a step does to the books -/

/-- The profile of a session is that of its user. -/
structure Filed (s : Server) : Prop where
  profile : ∀ x ∈ s.data, ∀ user, x.user = some user → user.profile.id = intOfUserId user.userId

/-- The end of a room's game without a result that is recorded. -/
def Abandons (gameId : Int) (x : Server × (NetEvent ⊕ ServerOp)) : Prop :=
  ∃ roomId winner reason, x.2 = .inr (.finish roomId winner reason) ∧ ∃ room white black,
    Ends x.1 roomId room white black ∧ room.dbGameId = some gameId ∧ ¬Recordable x.1 white black winner reason

/-- What an operation does to the games, the rooms that play them and the journal. -/
inductive BookStep (s : Server) (op : ServerOp) (t : Server) : Prop where
  | same (games : t.games = s.games) (inPlay : t.gamesInPlay = s.gamesInPlay) (closed : t.closedGames = s.closedGames)
      (matched : t.journal.countP isMatched = s.journal.countP isMatched)
  | opens (white black : Int) (games : t.games = (s.games.createGame white black).2)
      (inPlay : t.gamesInPlay = s.gamesInPlay ++
        (s.games.createGame white black).1.toList.map fun id => ⟨s.rooms.nextId, id, white, black⟩)
      (closed : t.closedGames = s.closedGames) (matched : t.journal.countP isMatched = s.journal.countP isMatched + 1)
  | closes (game : GameInPlay) (winner : Option PieceColor) (mem : game ∈ s.gamesInPlay)
      (games : t.games = s.games.close game.id (winnerIdOf game winner))
      (inPlay : t.gamesInPlay = s.gamesInPlay.filter fun other => other.room ≠ game.room)
      (closed : t.closedGames = s.closedGames ++ [(game.id, winnerIdOf game winner)])
      (matched : t.journal.countP isMatched = s.journal.countP isMatched)
  | abandons (game : GameInPlay) (mem : game ∈ s.gamesInPlay) (left : Abandons game.id (s, .inr op))
      (games : t.games = s.games) (inPlay : t.gamesInPlay = s.gamesInPlay.filter fun other => other.room ≠ game.room)
      (closed : t.closedGames = s.closedGames) (matched : t.journal.countP isMatched = s.journal.countP isMatched)

/-- What is written about the result of a game, and what the journal says of it. -/
theorem recordResult_books {room : Room} {white black : GamePlayer} {gameId : Int} (hgame : room.dbGameId = some gameId)
    (winner : Option PieceColor) (reason : FinishReason) :
    let winnerId := winnerIdOf ⟨room.id, gameId, intOfUserId white.userId, intOfUserId black.userId⟩ winner
    let games := (s.recordResult config room white black winner reason).2.games
    let entries := resultEntries config s room white black winner reason
    (games = s.games.close gameId winnerId ∧ entries.filterMap closing = [(gameId, winnerId)]) ∨
    (¬Recordable s white black winner reason ∧ games = s.games ∧ entries.filterMap closing = []) := by
  unfold recordResult resultEntries Recordable
  rw [hgame]
  match winner with
  | none =>
      dsimp only [winnerIdOf]
      split
      · exact .inl ⟨rfl, rfl⟩
      · rename_i hreason
        exact .inr ⟨hreason, rfl, rfl⟩
  | some .white =>
      dsimp only [winnerIdOf, updateRatingsForResult]
      cases s.users.findProfileById white.userId with
      | none => exact .inr ⟨by simp, rfl, rfl⟩
      | some whiteProfile =>
          cases s.users.findProfileById black.userId with
          | none => exact .inr ⟨by simp, rfl, rfl⟩
          | some blackProfile => exact .inl ⟨rfl, rfl⟩
  | some .black =>
      dsimp only [winnerIdOf, updateRatingsForResult]
      cases s.users.findProfileById white.userId with
      | none =>
          cases s.users.findProfileById black.userId with
          | none => exact .inr ⟨by simp, rfl, rfl⟩
          | some blackProfile => exact .inr ⟨by simp, rfl, rfl⟩
      | some whiteProfile =>
          cases s.users.findProfileById black.userId with
          | none => exact .inr ⟨by simp, rfl, rfl⟩
          | some blackProfile => exact .inl ⟨rfl, rfl⟩

theorem recordResult_none {room : Room} (hgame : room.dbGameId = none) (white black : GamePlayer)
    (winner : Option PieceColor) (reason : FinishReason) :
    (s.recordResult config room white black winner reason).2.games = s.games ∧
      resultEntries config s room white black winner reason = [] := by
  unfold recordResult resultEntries
  rw [hgame]
  exact ⟨rfl, rfl⟩

theorem OneResult.countP_isMatched {entries : List JournalEntry} (h : OneResult entries) :
    entries.countP isMatched = 0 := by
  cases h with
  | none => rfl
  | noWinner => rfl
  | winner => rfl

/-- The games in play stay when a room changes in its match only. -/
theorem gamesInPlay_game (roomId : RoomId) (game : Match) :
    (s.rooms.modifyRoom roomId ({ · with game })).rooms.filterMap Room.inPlay = s.gamesInPlay :=
  filterMap_modifyRoom s.rooms roomId fun _ _ _ => rfl

theorem Wf.bookStep (hwf : Wf s) (hfiled : Filed s) {op : ServerOp} (hstep : OpStep config s op t)
    (hunasked : ∀ request, op ≠ .allocate request) : BookStep s op t := by
  cases hstep with
  | idle _ _ => exact .same rfl rfl rfl rfl
  | accept _ _ _ => exact .same rfl rfl rfl rfl
  | lobby hlobby =>
      cases hlobby with
      | idle => exact .same rfl rfl rfl rfl
      | login _ _ _ _ _ _ _ _ =>
          rw [loggedIn, registerSession_eq]
          exact .same rfl rfl rfl rfl
      | wait _ _ => exact .same rfl rfl rfl rfl
      | @pair x y before after entry whiteUser blackUser asks hid waits chosen partner hpartner white black =>
          have hwhite := hfiled.profile y partner whiteUser white
          have hblack := hfiled.profile x asks.mem blackUser black
          refine .opens (intOfUserId whiteUser.userId) (intOfUserId blackUser.userId) ?_ ?_ ?_ ?_
          · rw [← hwhite, ← hblack]
            rfl
          · rw [← hwhite, ← hblack]
            refine (List.filterMap_append).trans ?_
            congr 1
            change List.filterMap Room.inPlay [freshRoom config _ ⟨_, _, (s.games.createGame _ _).1⟩] = _
            cases (s.games.createGame whiteUser.profile.id blackUser.profile.id).1 with
            | none => rfl
            | some id => rw [hwhite, hblack]; rfl
          · change List.filterMap closing (s.journal ++ [_] ++ [_]) = _
            rw [List.append_assoc, List.filterMap_append]
            exact List.append_nil _
          · change List.countP isMatched (s.journal ++ [_] ++ [_]) = _
            rw [List.append_assoc, List.countP_append]
            rfl
  | timeouts => exact .same rfl rfl rfl rfl
  | prune _ => exact .same rfl rfl rfl rfl
  | join _ => exact .same rfl rfl rfl rfl
  | allocate request _ => exact absurd rfl (hunasked request)
  | tick _ _ => exact .same rfl (gamesInPlay_game ..) rfl rfl
  | inputs _ _ => exact .same rfl (gamesInPlay_game ..) rfl rfl
  | removeInactive => exact .same rfl (gamesInPlay_removeInactive hwf) rfl rfl
  | @finish roomId winner reason room white black online hends _ =>
      obtain ⟨hroom, rfl⟩ := findRoom_some hends.find
      have hmatched : (s.journal ++ resultEntries config s room white black winner reason).countP isMatched =
          s.journal.countP isMatched := by
        rw [List.countP_append, (oneResult_resultEntries ..).countP_isMatched, Nat.add_zero]
      have hreset := gamesInPlay_reset s.rooms room.id
      cases hgame : room.dbGameId with
      | none =>
          have hidle : room.inPlay = none := by
            unfold Room.inPlay
            rw [hgame]
          obtain ⟨hgames, hentries⟩ := @recordResult_none config s room hgame white black winner reason
          refine .same hgames ?_ ?_ hmatched
          · refine filterMap_modifyRoom s.rooms room.id fun other hother hid => ?_
            rw [List.inj_on_of_nodup_map hwf.rooms hother hroom hid, hidle]
            rfl
          · change (s.journal ++ _).filterMap closing = _
            rw [hentries, List.append_nil]
            rfl
      | some gameId =>
          have hplay : room.inPlay =
              some ⟨room.id, gameId, intOfUserId white.userId, intOfUserId black.userId⟩ := by
            unfold Room.inPlay
            rw [hgame, hends.white, hends.black]
          have hmem := List.mem_filterMap.mpr ⟨room, hroom, hplay⟩
          have hclosedGames : closedGames (finished config s room.id room white black winner reason online) =
              s.closedGames ++ (resultEntries config s room white black winner reason).filterMap closing :=
            List.filterMap_append
          rcases @recordResult_books config s room white black gameId hgame winner reason with ⟨hgames, hentries⟩ |
            ⟨hunrecorded, hgames, hentries⟩
          · exact .closes _ winner hmem hgames hreset (by rw [hclosedGames, hentries]) hmatched
          · refine .abandons _ hmem ⟨room.id, winner, reason, rfl, room, white, black, hends, hgame, hunrecorded⟩
              hgames hreset ?_ hmatched
            rw [hclosedGames, hentries, List.append_nil]

/-! ### Profiles -/

theorem Filed.of_map (h : Filed s) {f : SessionData → SessionData} (hdata : t.data = s.data.map f)
    (huser : ∀ x user, (f x).user = some user → x.user = some user ∨ user.profile.id = intOfUserId user.userId) :
    Filed t := by
  refine ⟨fun y hy user hyuser => ?_⟩
  rw [hdata] at hy
  obtain ⟨x, hx, rfl⟩ := List.mem_map.mp hy
  rcases huser x user hyuser with hold | hnew
  · exact h.profile x hx user hold
  · exact hnew

theorem profile_assignUser {x : SessionData} {userId : UserId} {username : Text} {rating : Int} {user : SessionUser}
    (h : (x.assignUser userId username rating).user = some user) : user.profile.id = intOfUserId user.userId := by
  have heq : (⟨userId, ⟨intOfUserId userId, username, rating⟩⟩ : SessionUser) = user := Option.some.inj h
  rw [← heq]

theorem leave_user (player : FinishedPlayerState) (x : SessionData) (user : SessionUser)
    (h : (player.leave x).user = some user) : x.user = some user ∨ user.profile.id = intOfUserId user.userId := by
  unfold FinishedPlayerState.leave FinishedPlayerState.release at h
  split at h
  · dsimp only at h
    split at h
    · exact .inr (profile_assignUser h)
    · exact .inl h
  · exact .inl h

theorem Filed.searching (h : Filed s) (id : PlayerId) (waiting : List WaitingEntry) : Filed (s.searching id waiting) := by
  refine h.of_map (data_searching ..) fun x user huser => .inl ?_
  split at huser
  · exact x.requestPlay_user.symm.trans huser
  · exact huser

theorem Filed.lobbyStep {id : PlayerId} (h : Filed s) (hstep : LobbyStep config s id t) : Filed t := by
  cases hstep with
  | idle => exact h
  | login _ _ _ _ _ _ _ _ =>
      refine h.of_map (data_loggedIn ..) fun x user huser => ?_
      split at huser
      · exact .inr (profile_assignUser huser)
      · exact .inl huser
  | wait _ _ => exact h.searching ..
  | pair _ _ _ _ _ _ _ =>
      refine (h.searching ..).of_map (data_matched ..) fun x user huser => .inl ?_
      rwa [taken_user] at huser

theorem Filed.step (h : Filed s) {op : ServerOp} (hstep : OpStep config s op t) : Filed t := by
  cases hstep with
  | idle _ _ => exact h
  | accept backlog _ _ =>
      refine ⟨fun y hy user huser => ?_⟩
      rw [data_accepted] at hy
      rcases List.mem_append.mp hy with hold | hnew
      · exact h.profile y hold user huser
      · rw [List.mem_singleton.mp hnew] at huser
        cases huser
  | lobby hlobby => exact h.lobbyStep hlobby
  | timeouts =>
      refine h.of_map (data_timedOut ..) fun x user huser => .inl ?_
      rwa [cancelSearches_user] at huser
  | @prune x _ =>
      refine ⟨fun y hy user huser => ?_⟩
      rw [data_pruned] at hy
      exact h.profile y (List.mem_of_mem_filter hy) user huser
  | @join x roomId side _ =>
      refine h.of_map (data_modifyData ..) fun z user huser => .inl ?_
      split at huser
      · exact huser
      · exact huser
  | allocate _ _ => exact ⟨h.profile⟩
  | tick _ _ => exact ⟨h.profile⟩
  | inputs _ _ => exact ⟨h.profile⟩
  | finish _ _ =>
      refine h.of_map (data_finished ..) fun x user huser => ?_
      rcases leave_user _ _ user huser with hwhite | hnew
      · exact leave_user _ x user hwhite
      · exact .inr hnew
  | removeInactive => exact ⟨h.profile⟩

/-! ### The books -/

/-- The rows are those of the games that have been opened since the start, and what they say of each is what the journal
and the rooms say. -/
structure Books (games : GameRepository) (rows : List GameRow) (s : Server) (history : History) : Prop where
  connected : s.games.connected = games.connected
  table : s.games.rows = games.rows ++ rows
  nextId : s.games.nextId = games.nextId + rows.length
  ids : rows.map (·.id) = (List.range rows.length).map fun n : ℕ => games.nextId + n
  opened : rows.length = if games.connected then s.journal.countP isMatched else 0
  once : (s.closedGames.map (·.1)).Nodup
  closed : ∀ c ∈ s.closedGames, ∃ row ∈ rows, row.active = false ∧ (row.id, row.winnerId) = c
  ended : ∀ row ∈ rows, row.active = false → (row.id, row.winnerId) ∈ s.closedGames ∧
    (row.winnerId = none ∨ row.winnerId = some row.whitePlayerId ∨ row.winnerId = some row.blackPlayerId)
  standing : ∀ row ∈ rows, row.active = true → row.winnerId = none ∧
    ((∃ game ∈ s.gamesInPlay, game.row = row) ∨ ∃ x ∈ history, Abandons row.id x)
  inPlay : ∀ game ∈ s.gamesInPlay, game.row ∈ rows
  apart : (s.gamesInPlay.map (·.id)).Nodup

namespace Books

variable {games : GameRepository} {rows : List GameRow} {history : History}

theorem boot (users : UserRepository) (games : GameRepository) (now : Nat) :
    Books games [] (boot users games now) [] where
  connected := rfl
  table := (List.append_nil _).symm
  nextId := (Int.add_zero _).symm
  ids := rfl
  opened := by split <;> rfl
  once := List.nodup_nil
  closed := fun _ h => absurd h List.not_mem_nil
  ended := fun _ h => absurd h List.not_mem_nil
  standing := fun _ h => absurd h List.not_mem_nil
  inPlay := fun _ h => absurd h List.not_mem_nil
  apart := List.nodup_nil

/-- A step that writes nothing into the books. -/
theorem same (h : Books games rows s history) (hgames : t.games = s.games) (hplay : t.gamesInPlay = s.gamesInPlay)
    (hclosed : t.closedGames = s.closedGames)
    (hopened : rows.length = if games.connected then t.journal.countP isMatched else 0)
    (more : History) : Books games rows t (history ++ more) where
  connected := hgames ▸ h.connected
  table := hgames ▸ h.table
  nextId := hgames ▸ h.nextId
  ids := h.ids
  opened := hopened
  once := hclosed ▸ h.once
  closed := hclosed ▸ h.closed
  ended := hclosed ▸ h.ended
  standing := by
    intro row hrow hactive
    obtain ⟨hwinner, hstate⟩ := h.standing row hrow hactive
    refine ⟨hwinner, hstate.imp (fun hplayed => hplay ▸ hplayed) fun hleft => ?_⟩
    obtain ⟨x, hx, hleft⟩ := hleft
    exact ⟨x, List.mem_append_left _ hx, hleft⟩
  inPlay := hplay ▸ h.inPlay
  apart := hplay ▸ h.apart

theorem rows_nodup (h : Books games rows s history) : (rows.map (·.id)).Nodup := by
  rw [h.ids]
  refine List.nodup_range.map fun n m heq => ?_
  exact Int.ofNat_inj.mp (Int.add_left_cancel heq)

/-- The games of the run have new ids. -/
theorem id_bounds (h : Books games rows s history) {row : GameRow} (hrow : row ∈ rows) :
    games.nextId ≤ row.id ∧ row.id < s.games.nextId := by
  have hid : row.id ∈ rows.map (·.id) := List.mem_map_of_mem hrow
  rw [h.ids] at hid
  obtain ⟨n, hn, heq⟩ := List.mem_map.mp hid
  have hlt := List.mem_range.mp hn
  rw [h.nextId]
  omega

/-- A game that is in play has not been closed. -/
theorem notMem_closedGames (h : Books games rows s history) {game : GameInPlay} (hgame : game ∈ s.gamesInPlay) :
    game.id ∉ s.closedGames.map (·.1) := by
  intro hmem
  obtain ⟨c, hc, hid⟩ := List.mem_map.mp hmem
  obtain ⟨row, hrow, hover, rfl⟩ := h.closed c hc
  rw [List.inj_on_of_nodup_map h.rows_nodup hrow (h.inPlay game hgame) hid] at hover
  cases hover

theorem opens (h : Books games rows s history) (white black : Int) (hgames : t.games = (s.games.createGame white black).2)
    (hplay : t.gamesInPlay = s.gamesInPlay ++
      (s.games.createGame white black).1.toList.map fun id => ⟨s.rooms.nextId, id, white, black⟩)
    (hclosed : t.closedGames = s.closedGames) (hmatched : t.journal.countP isMatched = s.journal.countP isMatched + 1)
    (more : History) : ∃ rows', Books games rows' t (history ++ more) := by
  have hopened := h.opened
  cases hconnected : games.connected with
  | false =>
      rw [GameRepository.createGame_unconnected _ (h.connected.trans hconnected)] at hgames hplay
      rw [hconnected] at hopened
      exact ⟨rows, h.same hgames (hplay.trans (List.append_nil _)) hclosed (by rw [hconnected]; exact hopened) more⟩
  | true =>
      rw [GameRepository.createGame_connected _ (h.connected.trans hconnected)] at hgames hplay
      rw [hconnected] at hopened
      let game : GameInPlay := ⟨s.rooms.nextId, s.games.nextId, white, black⟩
      have hold : ∀ row ∈ rows, row.id ≠ game.id := fun row hrow => (h.id_bounds hrow).2.ne
      refine ⟨rows ++ [game.row], ?_⟩
      constructor
      · rw [hgames, hconnected]
      · rw [hgames]
        change s.games.rows ++ [game.row] = _
        rw [h.table, List.append_assoc]
      · rw [hgames, List.length_append]
        change s.games.nextId + 1 = _
        rw [h.nextId]
        push_cast
        exact Int.add_assoc _ _ _
      · rw [List.map_append, h.ids, List.length_append, List.length_singleton, List.range_succ, List.map_append]
        change _ ++ [s.games.nextId] = _
        rw [h.nextId]
        rfl
      · rw [hconnected, hmatched, List.length_append, hopened]
        rfl
      · rw [hclosed]
        exact h.once
      · intro c hc
        rw [hclosed] at hc
        obtain ⟨row, hrow, hover⟩ := h.closed c hc
        exact ⟨row, List.mem_append_left _ hrow, hover⟩
      · intro row hrow hover
        rw [hclosed]
        rcases List.mem_append.mp hrow with hrow | hrow
        · exact h.ended row hrow hover
        · rw [List.mem_singleton.mp hrow] at hover
          cases hover
      · intro row hrow hactive
        rw [hplay]
        rcases List.mem_append.mp hrow with hrow | hrow
        · obtain ⟨hwinner, hstate⟩ := h.standing row hrow hactive
          refine ⟨hwinner, hstate.imp ?_ ?_⟩
          · intro hplayed
            obtain ⟨other, hother, heq⟩ := hplayed
            exact ⟨other, List.mem_append_left _ hother, heq⟩
          · intro hleft
            obtain ⟨x, hx, hleft⟩ := hleft
            exact ⟨x, List.mem_append_left _ hx, hleft⟩
        · rw [List.mem_singleton.mp hrow]
          exact ⟨rfl, .inl ⟨game, List.mem_append_right _ List.mem_cons_self, rfl⟩⟩
      · intro other hother
        rw [hplay] at hother
        rcases List.mem_append.mp hother with hother | hother
        · exact List.mem_append_left _ (h.inPlay other hother)
        · rw [List.mem_singleton.mp hother]
          exact List.mem_append_right _ List.mem_cons_self
      · rw [hplay, List.map_append]
        refine List.Nodup.append h.apart (List.nodup_singleton _) ?_
        apply List.disjoint_singleton.mpr
        intro hmem
        obtain ⟨other, hother, heq⟩ := List.mem_map.mp hmem
        exact hold _ (h.inPlay other hother) heq

theorem eq_of_id (h : Books games rows s history) {row row' : GameRow} (hrow : row ∈ rows) (hrow' : row' ∈ rows)
    (hid : row.id = row'.id) : row = row' := List.inj_on_of_nodup_map h.rows_nodup hrow hrow' hid

/-- There is a database, since it has a row for the game. -/
theorem connected_of_mem (h : Books games rows s history) {row : GameRow} (hrow : row ∈ rows) :
    games.connected = true := by
  cases hconnected : games.connected with
  | true => rfl
  | false =>
      have hopened := h.opened
      rw [hconnected] at hopened
      rw [List.length_eq_zero_iff.mp hopened] at hrow
      exact absurd hrow List.not_mem_nil

/-- A game that is played in another room is another game. -/
theorem id_ne (h : Books games rows s history) {game other : GameInPlay} (hgame : game ∈ s.gamesInPlay)
    (hother : other ∈ s.gamesInPlay) (hroom : other.room ≠ game.room) : other.id ≠ game.id := by
  intro hid
  rw [List.inj_on_of_nodup_map h.apart hother hgame hid] at hroom
  exact hroom rfl

theorem mem_others {game other : GameInPlay} :
    other ∈ s.gamesInPlay.filter (fun other => other.room ≠ game.room) ↔
      other ∈ s.gamesInPlay ∧ other.room ≠ game.room := by
  rw [List.mem_filter, decide_eq_true_iff]

theorem closes (h : Books games rows s history) (hwf : Wf s) (hfresh : ∀ row ∈ games.rows, row.id < games.nextId)
    {game : GameInPlay} (hgame : game ∈ s.gamesInPlay) (winner : Option PieceColor)
    (hgames : t.games = s.games.close game.id (winnerIdOf game winner))
    (hplay : t.gamesInPlay = s.gamesInPlay.filter fun other => other.room ≠ game.room)
    (hclosed : t.closedGames = s.closedGames ++ [(game.id, winnerIdOf game winner)])
    (hmatched : t.journal.countP isMatched = s.journal.countP isMatched) (more : History) :
    Books games (rows.map (GameRepository.closeRow game.id (winnerIdOf game winner))) t (history ++ more) := by
  have hrow := h.inPlay game hgame
  have hconnected := h.connected.trans (h.connected_of_mem hrow)
  have hothers : ∀ row, row.id ≠ game.id → GameRepository.closeRow game.id (winnerIdOf game winner) row = row :=
    fun row hid => GameRepository.closeRow_of_ne hid _
  have hself : GameRepository.closeRow game.id (winnerIdOf game winner) game.row =
      { game.row with active := false, winnerId := winnerIdOf game winner } := if_pos rfl
  constructor
  · rw [hgames, GameRepository.close_connected]
    exact h.connected
  · rw [hgames, GameRepository.close_rows _ hconnected, h.table, List.map_append]
    congr 1
    conv_rhs => rw [← List.map_id games.rows]
    apply List.map_congr_left
    intro row hold
    exact hothers row ((hfresh row hold).trans_le (h.id_bounds hrow).1).ne
  · rw [hgames, GameRepository.close_nextId, List.length_map]
    exact h.nextId
  · rw [List.map_map, List.length_map, ← h.ids]
    apply List.map_congr_left
    intro row _
    exact GameRepository.closeRow_id ..
  · rw [List.length_map, hmatched]
    exact h.opened
  · rw [hclosed, List.map_append]
    refine List.Nodup.append h.once (List.nodup_singleton _) ?_
    apply List.disjoint_singleton.mpr
    exact h.notMem_closedGames hgame
  · intro c hc
    rw [hclosed] at hc
    rcases List.mem_append.mp hc with hold | hnew
    · obtain ⟨row, hmem, hover, rfl⟩ := h.closed c hold
      have hid : row.id ≠ game.id := fun hid =>
        h.notMem_closedGames hgame (List.mem_map.mpr ⟨_, hold, hid⟩)
      refine ⟨_, List.mem_map_of_mem hmem, ?_⟩
      rw [hothers row hid]
      exact ⟨hover, rfl⟩
    · rw [List.mem_singleton.mp hnew]
      refine ⟨_, List.mem_map_of_mem hrow, ?_⟩
      rw [hself]
      exact ⟨rfl, rfl⟩
  · intro row hmem hover
    rw [hclosed]
    obtain ⟨old, hold, rfl⟩ := List.mem_map.mp hmem
    by_cases hid : old.id = game.id
    · rw [h.eq_of_id hold hrow hid, hself]
      refine ⟨List.mem_append_right _ List.mem_cons_self, ?_⟩
      match winner with
      | none => exact .inl rfl
      | some .white => exact .inr (.inl rfl)
      | some .black => exact .inr (.inr rfl)
    · rw [hothers old hid] at hover ⊢
      obtain ⟨hclosing, hwinner⟩ := h.ended old hold hover
      exact ⟨List.mem_append_left _ hclosing, hwinner⟩
  · intro row hmem hactive
    obtain ⟨old, hold, rfl⟩ := List.mem_map.mp hmem
    by_cases hid : old.id = game.id
    · rw [h.eq_of_id hold hrow hid, hself] at hactive
      cases hactive
    · rw [hothers old hid] at hactive ⊢
      obtain ⟨hwinner, hstate⟩ := h.standing old hold hactive
      refine ⟨hwinner, hstate.imp ?_ ?_⟩
      · intro hplayed
        obtain ⟨other, hother, rfl⟩ := hplayed
        rw [hplay]
        refine ⟨other, mem_others.mpr ⟨hother, fun hroom => ?_⟩, rfl⟩
        exact hid (congrArg GameInPlay.id (hwf.eq_of_room hother hgame hroom))
      · intro hleft
        obtain ⟨x, hx, hleft⟩ := hleft
        exact ⟨x, List.mem_append_left _ hx, hleft⟩
  · intro other hother
    rw [hplay] at hother
    obtain ⟨hother, hroom⟩ := mem_others.mp hother
    exact List.mem_map.mpr ⟨_, h.inPlay other hother, hothers _ (h.id_ne hgame hother hroom)⟩
  · rw [hplay]
    exact h.apart.sublist (List.filter_sublist.map _)

theorem abandons (h : Books games rows s history) {game : GameInPlay} (hgame : game ∈ s.gamesInPlay) {op : ServerOp}
    (hleft : Abandons game.id (s, .inr op)) (hgames : t.games = s.games)
    (hplay : t.gamesInPlay = s.gamesInPlay.filter fun other => other.room ≠ game.room)
    (hclosed : t.closedGames = s.closedGames) (hmatched : t.journal.countP isMatched = s.journal.countP isMatched)
    (hwf : Wf s) : Books games rows t (history ++ [(s, .inr op)]) where
  connected := hgames ▸ h.connected
  table := hgames ▸ h.table
  nextId := hgames ▸ h.nextId
  ids := h.ids
  opened := hmatched ▸ h.opened
  once := hclosed ▸ h.once
  closed := hclosed ▸ h.closed
  ended := hclosed ▸ h.ended
  standing := by
    intro row hrow hactive
    obtain ⟨hwinner, hstate⟩ := h.standing row hrow hactive
    refine ⟨hwinner, ?_⟩
    rcases hstate with ⟨other, hother, rfl⟩ | ⟨x, hx, hold⟩
    · by_cases hroom : other.room = game.room
      · rw [hwf.eq_of_room hother hgame hroom]
        exact .inr ⟨_, List.mem_append_right _ List.mem_cons_self, hleft⟩
      · rw [hplay]
        exact .inl ⟨other, mem_others.mpr ⟨hother, hroom⟩, rfl⟩
    · exact .inr ⟨x, List.mem_append_left _ hx, hold⟩
  inPlay := by
    intro other hother
    rw [hplay] at hother
    exact h.inPlay other (mem_others.mp hother).1
  apart := by
    rw [hplay]
    exact h.apart.sublist (List.filter_sublist.map _)

theorem step (h : Books games rows s history) (hwf : Wf s) (hfresh : ∀ row ∈ games.rows, row.id < games.nextId)
    {op : ServerOp} (hstep : BookStep s op t) : ∃ rows', Books games rows' t (history ++ [(s, .inr op)]) := by
  cases hstep with
  | same hgames hplay hclosed hmatched =>
      exact ⟨rows, h.same hgames hplay hclosed (by rw [hmatched]; exact h.opened) _⟩
  | opens white black hgames hplay hclosed hmatched => exact h.opens white black hgames hplay hclosed hmatched _
  | closes game winner hgame hgames hplay hclosed hmatched =>
      exact ⟨_, h.closes hwf hfresh hgame winner hgames hplay hclosed hmatched _⟩
  | abandons game hgame hleft hgames hplay hclosed hmatched =>
      exact ⟨rows, h.abandons hgame hleft hgames hplay hclosed hmatched hwf⟩

theorem congr (h : Books games rows s history) (hgames : t.games = s.games) (hrooms : t.rooms = s.rooms)
    (hjournal : t.journal = s.journal) (more : History) : Books games rows t (history ++ more) := by
  refine h.same hgames ?_ ?_ ?_ more
  · unfold gamesInPlay
    rw [hrooms]
  · unfold closedGames
    rw [hjournal]
  · rw [hjournal]
    exact h.opened

end Books

/-- A room is asked for from outside. -/
def isAllocation : NetEvent ⊕ ServerOp → Bool
  | .inr (.allocate _) => true
  | _ => false

/-- In every run of a server that opens the games of its rooms itself, the table of games has a new row for every match,
and those of before stay as they are. A row is closed once, by the one result that is recorded for its game, and names
nobody or one of the two players as the winner. A game that is not closed is being played in one room, or its room has
been finished without a result that is recorded. -/
theorem books_tell_the_games {users : UserRepository} {games : GameRepository} {now : Nat} {script : List (List NetEvent)}
    {w : ServerWorld config} (hfresh : ∀ row ∈ games.rows, row.id < games.nextId)
    (hleads : Leads { state := boot users games now, script } w) (hown : ∀ x ∈ w.history, isAllocation x.2 = false) :
    ∃ rows, Books games rows w.state w.history := by
  have hstart : Filed (boot users games now) ∧ ∃ rows, Books games rows (boot users games now) [] :=
    ⟨⟨fun _ h => absurd h List.not_mem_nil⟩, [], .boot users games now⟩
  refine (invariant (P := fun s history => Filed s ∧ ∃ rows, Books games rows s history)
    (C := fun _ op => isAllocation op = false) ?_ ?_ ?_ hleads (.boot users games now) hstart hown).2.2
  · intro s s' history hbare h
    obtain ⟨hfiled, rows, hbooks⟩ := h
    have hrest := eq_of_bare hbare
    refine ⟨⟨by rw [data_eq_of_bare hbare]; exact hfiled.profile⟩, rows, ?_⟩
    rw [← List.append_nil history]
    exact hbooks.congr (by rw [hrest]) (by rw [hrest]) (by rw [hrest]) []
  · intro s history backlog now event h
    obtain ⟨hfiled, rows, hbooks⟩ := h
    exact ⟨⟨hfiled.profile⟩, rows, hbooks.congr (t := { s with backlog, now }) rfl rfl rfl _⟩
  · intro s history op t hwf h hown hstep
    obtain ⟨hfiled, rows, hbooks⟩ := h
    refine ⟨hfiled.step hstep, hbooks.step hwf hfresh (hwf.bookStep hfiled hstep fun request heq => ?_)⟩
    rw [heq] at hown
    cases hown

/-- Both players resign in one tick, and the game is black's. -/
theorem books_tell_the_games_resigned :
    ∃ w, Leads (sampleWorld (untilGame ++ [[say 0 "resign", say 1 "resign"]])) w ∧
      w.state.games.rows = [⟨1, 1, 2, false, some 2⟩] ∧ w.state.closedGames = [(1, some 2)] ∧
      ∃ rows, Books {} rows w.state w.history := by
  have hrun : (serve sampleConfig (List.replicate 5 .gameServerTick)).reaches
      (sampleWorld (untilGame ++ [[say 0 "resign", say 1 "resign"]]))
      (fun _ w => decide ((∀ x ∈ w.history, isAllocation x.2 = false) ∧
        w.state.games.rows = [⟨1, 1, 2, false, some 2⟩] ∧ w.state.closedGames = [(1, some 2)])) = true := by
    decide +kernel
  obtain ⟨_, w, hrun, hw⟩ := Prog.reaches_eq_true hrun
  obtain ⟨hown, hrows, hclosedGames⟩ := of_decide_eq_true hw
  have hleads := Leads.of_run hrun
  exact ⟨w, hleads, hrows, hclosedGames, books_tell_the_games (fun _ h => absurd h List.not_mem_nil) hleads hown⟩

end Server

end KungFuChess
