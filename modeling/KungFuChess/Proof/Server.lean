import KungFuChess.Model.GameServer

/-!
# What an operation does to a server

Most of what a handler does is talk: it reads from connections and writes to them. `bare` forgets the
connections, and what is left of each operation is said here once.
-/

namespace KungFuChess

/-! ### Connections -/

namespace ClientConnection

variable {c : ClientConnection} {reader : Reader} {message : Text}

/-- A message is read off an open connection, which stays open. -/
theorem tryRead_eq_some (h : (c.tryRead reader).1 = some message) :
    c.isOpen = true ∧ ∃ arrivedIn rest, c.pending = ⟨.text message, arrivedIn⟩ :: rest ∧
      (c.tryRead reader).2 = { c with pending := rest, lastReader := some reader } := by
  obtain ⟨isOpen, link, pending, sent, lastReader⟩ := c
  unfold tryRead at h ⊢
  cases isOpen with
  | false => simp at h
  | true =>
      by_cases hlink : link = .failed
      · simp [hlink] at h
      · match pending with
        | [] => simp [hlink] at h
        | ⟨.close, _⟩ :: _ => simp [hlink] at h
        | ⟨.text m, arrivedIn⟩ :: rest =>
            simp only [hlink, Bool.not_true, Bool.false_eq_true, if_false, Option.some.injEq] at h ⊢
            exact ⟨trivial, arrivedIn, rest, by rw [h], rfl⟩

end ClientConnection

namespace SessionData

variable (x : SessionData)

@[simp] theorem requestPlay_id : x.requestPlay.id = x.id := by
  unfold requestPlay
  split
  · rfl
  · rfl

@[simp] theorem requestPlay_user : x.requestPlay.user = x.user := by
  unfold requestPlay
  split
  · rfl
  · rfl

@[simp] theorem cancelSearch_id : x.cancelSearch.id = x.id := by
  unfold cancelSearch
  split
  · rfl
  · rfl

@[simp] theorem cancelSearch_user : x.cancelSearch.user = x.user := by
  unfold cancelSearch
  split
  · rfl
  · rfl

@[simp] theorem username_assignUser (userId : UserId) (username : Text) (rating : Int) :
    (x.assignUser userId username rating).username = some username := rfl

end SessionData

/-! ### Forgetting the connections -/

def PlayerSession.bare (x : PlayerSession) : PlayerSession := { x with connection := {} }

namespace Server

variable {config : ServerConfig} {s s' : Server} {id : PlayerId}

/-- What the sessions say of their players. -/
def data (s : Server) : List SessionData := s.sessions.map (·.toSessionData)

/-- A server without its connections. -/
def bare (s : Server) : Server := { s with sessions := s.sessions.map PlayerSession.bare }

@[simp] theorem data_bare (s : Server) : s.bare.data = s.data := by
  unfold data bare
  rw [List.map_map]
  rfl

theorem data_eq_of_bare (h : s'.bare = s.bare) : s'.data = s.data := by
  rw [← data_bare s', h, data_bare]

/-- A server without its connections is what the sessions say, and the rest. -/
theorem bare_ext (hdata : s'.data = s.data) (hrest : { s' with sessions := [] } = { s with sessions := [] }) :
    s'.bare = s.bare := by
  have hsessions : ∀ t : Server, t.sessions.map PlayerSession.bare =
      t.data.map fun x => { toSessionData := x } := by
    intro t
    unfold data
    rw [List.map_map]
    rfl
  unfold bare
  rw [hsessions, hsessions, hdata]
  injection hrest
  simp only [*]

/-- Servers that are the same without their connections differ in their session lists only. -/
theorem eq_of_bare (h : s'.bare = s.bare) : s' = { s with sessions := s'.sessions } := by
  obtain ⟨sessions, nextSessionId, backlog, onlineUsernames, waiting, rooms, users, games, store, now,
    lastTick, journal⟩ := s
  obtain ⟨sessions', nextSessionId', backlog', onlineUsernames', waiting', rooms', users', games', store', now',
    lastTick', journal'⟩ := s'
  simp only [bare, Server.mk.injEq] at h
  obtain ⟨-, rfl, rfl, rfl, rfl, rfl, rfl, rfl, rfl, rfl, rfl, rfl⟩ := h
  rfl

@[simp] theorem bare_modifyConnection (s : Server) (id : PlayerId)
    (f : ClientConnection → ClientConnection) : (s.modifyConnection id f).bare = s.bare := by
  unfold modifyConnection modifySession bare
  simp only [List.map_map]
  congr 1
  apply List.map_congr_left
  intro x _
  simp only [Function.comp_apply]
  split
  · rfl
  · rfl

@[simp] theorem data_modifyConnection (s : Server) (id : PlayerId)
    (f : ClientConnection → ClientConnection) : (s.modifyConnection id f).data = s.data :=
  data_eq_of_bare (bare_modifyConnection s id f)

@[simp] theorem bare_send (s : Server) (id : PlayerId) (message : ServerMessage) :
    (s.send id message).bare = s.bare := bare_modifyConnection s id _

@[simp] theorem bare_sendMessage (s : Server) (id : PlayerId) (message : ServerMessage) :
    (s.sendMessage id message).bare = s.bare := bare_modifyConnection s id _

@[simp] theorem bare_probe (s : Server) (id : PlayerId) : (s.probe id).bare = s.bare :=
  bare_modifyConnection s id _

@[simp] theorem bare_tryRead (s : Server) (reader : Reader) (id : PlayerId) :
    (s.tryRead reader id).2.bare = s.bare := by
  unfold tryRead
  split
  · rfl
  · exact bare_modifyConnection s id _

@[simp] theorem bare_modifyData (s : Server) (id : PlayerId) (f : SessionData → SessionData) :
    (s.modifyData id f).bare = s.bare.modifyData id f := by
  unfold modifyData modifySession bare
  simp only [List.map_map]
  congr 1
  apply List.map_congr_left
  intro x _
  by_cases hx : x.id = id
  · simp [hx, PlayerSession.bare]
  · simp [hx, PlayerSession.bare]

/-- A change of what every session says. -/
def mapData (s : Server) (f : SessionData → SessionData) : Server :=
  { s with sessions := s.sessions.map fun x => { x with toSessionData := f x.toSessionData } }

@[simp] theorem data_mapData (s : Server) (f : SessionData → SessionData) : (s.mapData f).data = s.data.map f := by
  unfold mapData data
  simp only [List.map_map]
  rfl

theorem modifyData_eq_mapData (s : Server) (id : PlayerId) (f : SessionData → SessionData) :
    s.modifyData id f = s.mapData fun x => if x.id = id then f x else x := by
  unfold modifyData modifySession mapData
  congr 1
  apply List.map_congr_left
  intro x _
  by_cases hx : x.id = id
  · simp [hx]
  · simp [hx]

theorem data_modifyData (s : Server) (id : PlayerId) (f : SessionData → SessionData) :
    (s.modifyData id f).data = s.data.map fun x => if x.id = id then f x else x := by
  rw [modifyData_eq_mapData, data_mapData]

/-! ### Looking sessions up -/

theorem findSession_some {x : PlayerSession} (h : s.findSession id = some x) :
    x ∈ s.sessions ∧ x.id = id := by
  refine ⟨List.mem_of_find?_eq_some h, ?_⟩
  simpa using List.find?_some h

theorem data_of_findSession {x : PlayerSession} (h : s.findSession id = some x) :
    x.toSessionData ∈ s.data ∧ x.id = id :=
  ⟨List.mem_map_of_mem (findSession_some h).1, (findSession_some h).2⟩

/-- The session that a lookup finds, after a change that keeps the ids. -/
theorem findSession_modifySession (s : Server) (id other : PlayerId) {f : PlayerSession → PlayerSession}
    (hid : ∀ x, (f x).id = x.id) :
    (s.modifySession id f).findSession other =
      (s.findSession other).map fun x => if x.id = id then f x else x := by
  unfold modifySession findSession
  rw [List.find?_map]
  congr 2
  funext x
  simp only [Function.comp_apply]
  split
  · rw [hid]
  · rfl

theorem findSession_modifyData (s : Server) (id other : PlayerId) {f : SessionData → SessionData}
    (hid : ∀ x, (f x).id = x.id) :
    (s.modifyData id f).findSession other = (s.findSession other).map fun x =>
      if x.id = id then { x with toSessionData := f x.toSessionData } else x :=
  findSession_modifySession s id other fun x => hid x.toSessionData

theorem findSession_modifyConnection (s : Server) (id other : PlayerId)
    (f : ClientConnection → ClientConnection) :
    (s.modifyConnection id f).findSession other = (s.findSession other).map fun x =>
      if x.id = id then { x with connection := f x.connection } else x :=
  findSession_modifySession s id other fun _ => rfl

/-- Reading a message changes one connection. -/
theorem tryRead_eq_some {reader : Reader} {message : Text} {x : PlayerSession}
    (hx : s.findSession id = some x) (h : (s.tryRead reader id).1 = some message) :
    (x.connection.tryRead reader).1 = some message ∧
      (s.tryRead reader id).2 = s.modifyConnection id fun _ => (x.connection.tryRead reader).2 := by
  unfold tryRead at h ⊢
  rw [hx] at h ⊢
  exact ⟨h, rfl⟩

/-! ### Making a room -/

/-- The session of a user is found among what the sessions say. -/
theorem playerIdOf_eq (s : Server) (userId : UserId) :
    s.playerIdOf userId = ((s.data.find? fun x => x.userId == some userId).map (·.id)).getD 0 := by
  unfold playerIdOf findSessionByUserId data
  rw [List.find?_map, Option.map_map]
  rfl

/-- The room that `create_room` adds. -/
def freshRoom (config : ServerConfig) (s : Server) (request : GameCreationRequest) : Room :=
  { id := s.rooms.nextId
    defaultBoard := config.defaultBoard
    active := true
    whitePlayer := some ⟨request.whiteUserId, .white, s.playerIdOf request.whiteUserId⟩
    blackPlayer := some ⟨request.blackUserId, .black, s.playerIdOf request.blackUserId⟩
    dbGameId := request.dbGameId }

/-- No room has the id that the next one gets. -/
def NextRoomFree (s : Server) : Prop := ∀ room ∈ s.rooms.rooms, room.id ≠ s.rooms.nextId

theorem createRoom_eq (hfree : s.NextRoomFree) (request : GameCreationRequest) :
    s.createRoom config request = (s.rooms.nextId,
      { s with
        rooms := ⟨s.rooms.rooms ++ [freshRoom config s request], s.rooms.nextId + 1⟩
        journal := s.journal ++ [.roomCreated s.rooms.nextId s.now] }) := by
  have hold : ∀ f : Room → Room,
      (s.rooms.rooms.map fun room => if room.id = s.rooms.nextId then f room else room) = s.rooms.rooms := by
    intro f
    conv_rhs => rw [← List.map_id s.rooms.rooms]
    apply List.map_congr_left
    intro room hroom
    rw [if_neg (hfree room hroom), id_eq]
  obtain ⟨whiteUserId, blackUserId, dbGameId⟩ := request
  unfold createRoom RoomManager.createRoom note
  cases dbGameId with
  | none => simp [RoomManager.modifyRoom, hold, freshRoom, Room.activate]
  | some gameId => simp [RoomManager.modifyRoom, hold, freshRoom, Room.activate, Room.setDbGameId]

/-! ### Making a match -/

/-- A session that takes a side in a room. -/
def playSide (roomId : RoomId) (side : PieceColor) (x : SessionData) : SessionData :=
  { x with state := .playing, side := some side, roomId := some roomId }

/-- What the two sessions of a match say. -/
def taken (white black : PlayerId) (roomId : RoomId) (x : SessionData) : SessionData :=
  if x.id = black then playSide roomId .black x
  else if x.id = white then playSide roomId .white x
  else x

@[simp] theorem taken_id (white black : PlayerId) (roomId : RoomId) (x : SessionData) :
    (taken white black roomId x).id = x.id := by
  unfold taken
  split
  · rfl
  · split
    · rfl
    · rfl

theorem taken_state {white black : PlayerId} {roomId : RoomId} {x : SessionData} :
    (taken white black roomId x).state = .searching ↔ x.id ≠ black ∧ x.id ≠ white ∧ x.state = .searching := by
  unfold taken playSide
  rcases eq_or_ne x.id black with rfl | hblack
  · simp
  · rcases eq_or_ne x.id white with rfl | hwhite
    · simp [hblack]
    · simp [hblack, hwhite]

@[simp] theorem taken_user (white black : PlayerId) (roomId : RoomId) (x : SessionData) :
    (taken white black roomId x).user = x.user := by
  unfold taken
  split
  · rfl
  · split
    · rfl
    · rfl

/-- The server after a match between two sessions has been made, connections apart. -/
def matched (config : ServerConfig) (s : Server) (white black : PlayerId) (whiteUser blackUser : SessionUser) :
    Server :=
  let game := s.games.createGame whiteUser.profile.id blackUser.profile.id
  let roomId := s.rooms.nextId
  { s.mapData (taken white black roomId) with
    rooms := ⟨s.rooms.rooms ++ [freshRoom config s ⟨whiteUser.userId, blackUser.userId, game.1⟩], roomId + 1⟩
    games := game.2
    store := s.store.registerRoom roomId (userIdOfInt whiteUser.profile.id) (userIdOfInt blackUser.profile.id)
      config.serverId (s.resolveEndpoint config whiteUser.userId)
    journal := s.journal ++ [.roomCreated roomId s.now] ++ [.matched white black roomId] }

theorem data_matched (s : Server) (white black : PlayerId) (whiteUser blackUser : SessionUser) :
    (matched config s white black whiteUser blackUser).data = s.data.map (taken white black s.rooms.nextId) :=
  data_mapData s (taken white black s.rooms.nextId)

theorem userOf_modifyData (s : Server) (id other : PlayerId) {f : SessionData → SessionData}
    (hid : ∀ x, (f x).id = x.id) (huser : ∀ x, (f x).user = x.user) :
    (s.modifyData id f).userOf other = s.userOf other := by
  unfold userOf
  rw [findSession_modifyData s id other hid]
  cases s.findSession other with
  | none => rfl
  | some x =>
      by_cases hx : x.id = id
      · simp [hx, huser]
      · simp [hx]

theorem data_of_userOf {user : SessionUser} (h : s.userOf id = some user) :
    ∃ x ∈ s.data, x.id = id ∧ x.user = some user := by
  obtain ⟨x, hx, huser⟩ := Option.bind_eq_some_iff.mp h
  exact ⟨x.toSessionData, (data_of_findSession hx).1, (data_of_findSession hx).2, huser⟩

theorem userOf_takeSides (s : Server) (white black id : PlayerId) :
    (s.takeSides white black).userOf id = s.userOf id := by
  unfold takeSides
  rw [userOf_modifyData _ black id (f := (·.setSide .black)) (fun _ => rfl) (fun _ => rfl),
    userOf_modifyData _ white id (f := (·.setSide .white)) (fun _ => rfl) (fun _ => rfl),
    userOf_modifyData _ black id (f := (·.setPlaying)) (fun _ => rfl) (fun _ => rfl),
    userOf_modifyData _ white id (f := (·.setPlaying)) (fun _ => rfl) (fun _ => rfl)]

theorem playerIdOf_modifyData (s : Server) (id : PlayerId) (userId : UserId) {f : SessionData → SessionData}
    (hid : ∀ x, (f x).id = x.id) (huser : ∀ x, (f x).user = x.user) :
    (s.modifyData id f).playerIdOf userId = s.playerIdOf userId := by
  have hmap : ∀ x : SessionData, (if x.id = id then f x else x).userId = x.userId := by
    intro x
    split
    · rw [SessionData.userId, huser, SessionData.userId]
    · rfl
  rw [playerIdOf_eq, playerIdOf_eq, data_modifyData, List.find?_map, Option.map_map]
  congr 2
  · funext x
    simp only [Function.comp_apply]
    split
    · exact hid x
    · rfl
  · congr 1
    funext x
    simp only [Function.comp_apply, hmap]

theorem playerIdOf_takeSides (s : Server) (white black : PlayerId) (userId : UserId) :
    (s.takeSides white black).playerIdOf userId = s.playerIdOf userId := by
  unfold takeSides
  rw [playerIdOf_modifyData _ black userId (f := (·.setSide .black)) (fun _ => rfl) (fun _ => rfl),
    playerIdOf_modifyData _ white userId (f := (·.setSide .white)) (fun _ => rfl) (fun _ => rfl),
    playerIdOf_modifyData _ black userId (f := (·.setPlaying)) (fun _ => rfl) (fun _ => rfl),
    playerIdOf_modifyData _ white userId (f := (·.setPlaying)) (fun _ => rfl) (fun _ => rfl)]

theorem data_takeSides (s : Server) (white black : PlayerId) :
    (s.takeSides white black).data = s.data.map fun x =>
      if x.id = black then { x with state := .playing, side := some .black }
      else if x.id = white then { x with state := .playing, side := some .white }
      else x := by
  unfold takeSides
  rw [data_modifyData, data_modifyData, data_modifyData, data_modifyData]
  simp only [List.map_map]
  apply List.map_congr_left
  intro x _
  rcases eq_or_ne x.id white with rfl | hwhite
  · rcases eq_or_ne x.id black with rfl | hblack
    · simp [SessionData.setPlaying, SessionData.setSide]
    · simp [hblack, SessionData.setPlaying, SessionData.setSide]
  · rcases eq_or_ne x.id black with rfl | hblack
    · simp [hwhite, SessionData.setPlaying, SessionData.setSide]
    · simp [hwhite, hblack]

theorem data_enterRoom (s : Server) (white black : PlayerId) (whiteUser blackUser : SessionUser)
    (roomId : RoomId) :
    (s.enterRoom config white black whiteUser blackUser roomId).data =
      ((s.modifyData white (·.assignRoom roomId)).modifyData black (·.assignRoom roomId)).data := by
  have hsend : ∀ (t : Server) (id : PlayerId) (message : ServerMessage), (t.send id message).data = t.data :=
    fun t id message => data_modifyConnection t id _
  unfold enterRoom sendGameRedirects
  change data (send _ _ _) = _
  rw [hsend, hsend]
  rfl

/-- The two sessions of a match get their sides, and then the room. -/
theorem map_takeSides (s : Server) (white black : PlayerId) (roomId : RoomId) :
    (((s.takeSides white black).modifyData white (·.assignRoom roomId)).modifyData black (·.assignRoom roomId)).data =
      s.data.map (taken white black roomId) := by
  rw [data_modifyData, data_modifyData, data_takeSides]
  simp only [List.map_map]
  apply List.map_congr_left
  intro x _
  rcases eq_or_ne x.id black with rfl | hblack
  · rcases eq_or_ne x.id white with rfl | hwhite
    · simp [taken, playSide, SessionData.assignRoom]
    · simp [taken, playSide, SessionData.assignRoom, hwhite]
  · rcases eq_or_ne x.id white with rfl | hwhite
    · simp [taken, playSide, SessionData.assignRoom, hblack]
    · simp [taken, hwhite, hblack]

theorem createMatch_bare {white black : PlayerId} {whiteUser blackUser : SessionUser}
    (hfree : s.NextRoomFree) (hwhite : s.userOf white = some whiteUser)
    (hblack : s.userOf black = some blackUser) :
    (s.createMatch config white black).bare = (matched config s white black whiteUser blackUser).bare := by
  have hroom : ∀ request games, freshRoom config { s.takeSides white black with games } request =
      freshRoom config s request := by
    intro request games
    change freshRoom config (s.takeSides white black) request = _
    unfold freshRoom
    rw [playerIdOf_takeSides, playerIdOf_takeSides]
    rfl
  unfold createMatch
  simp only [userOf_takeSides, hwhite, hblack]
  rw [createRoom_eq (s := { s.takeSides white black with games := _ }) hfree, hroom]
  apply bare_ext
  · rw [data_enterRoom, data_matched]
    exact map_takeSides s white black s.rooms.nextId
  · rfl

theorem playerIdOf_congr (h : s'.data = s.data) (userId : UserId) :
    s'.playerIdOf userId = s.playerIdOf userId := by
  rw [playerIdOf_eq, playerIdOf_eq, h]

theorem matched_congr {white black : PlayerId} {whiteUser blackUser : SessionUser} (h : s'.bare = s.bare) :
    (matched config s' white black whiteUser blackUser).bare =
      (matched config s white black whiteUser blackUser).bare := by
  have hdata := data_eq_of_bare h
  have hplayer := playerIdOf_congr hdata
  rw [eq_of_bare h] at hdata hplayer ⊢
  apply bare_ext
  · rw [data_matched, data_matched, hdata]
  · unfold matched freshRoom
    simp only [hplayer]
    rfl

/-! ### The lobby -/

theorem authenticate_error {hasher : PasswordHasher} {users users' : UserRepository} {request : LoginRequest}
    {reason : LoginFailure} (h : authenticate hasher users request = (.error reason, users')) :
    users' = users := by
  have hcreate : ∀ name rating hash after, users.createUserWithPassword name rating hash = (none, after) →
      after = users := by
    intro name rating hash after hnone
    unfold UserRepository.createUserWithPassword at hnone
    split at hnone
    · exact (Prod.mk.inj hnone).2.symm
    · split at hnone
      · exact (Prod.mk.inj hnone).2.symm
      · cases (Prod.mk.inj hnone).1
  unfold authenticate at h
  split at h
  · exact (Prod.mk.inj h).2.symm
  · split at h
    · exact (Prod.mk.inj h).2.symm
    · split at h
      · split at h
        · exact (Prod.mk.inj h).2.symm
        · split at h
          · exact (Prod.mk.inj h).2.symm
          · cases (Prod.mk.inj h).1
      · split at h
        · cases (Prod.mk.inj h).1
        · rename_i after hnone
          have hafter := hcreate _ _ _ _ hnone
          split at h
          · exact (Prod.mk.inj h).2.symm.trans hafter
          · exact (Prod.mk.inj h).2.symm.trans hafter

/-- The server after a login, connections apart. -/
def loggedIn (s : Server) (id : PlayerId) (player : Player) (users : UserRepository) : Server :=
  ({ s with users }.bindAuthenticatedUser id player).registerSession player.username

theorem login_bare (config : ServerConfig) (s : Server) (id : PlayerId) (request : LoginRequest) :
    (s.login config id request).bare = s.bare ∨
      ∃ player users, request.username ∉ s.onlineUsernames ∧
        authenticate config.hasher s.users request = (.ok player, users) ∧
        (s.login config id request).bare = (s.loggedIn id player users).bare := by
  unfold login
  split
  · exact .inl (bare_send ..)
  · rename_i hoffline
    split
    · rename_i reason users hauth
      rw [authenticate_error hauth]
      exact .inl (bare_send ..)
    · rename_i player users hauth
      exact .inr ⟨player, users, hoffline, hauth, bare_send ..⟩

/-- Whom the queue pairs a session with depends on who has a user and an open connection. -/
theorem canPair_congr {x y : PlayerSession} (huser : x.user = y.user)
    (hfind : ∀ id, (s'.findSession id).map (fun z => (z.user, z.connection.isOpen)) =
      (s.findSession id).map (fun z => (z.user, z.connection.isOpen))) :
    s'.canPair config x = s.canPair config y := by
  have hrating : x.rating = y.rating := by rw [SessionData.rating, huser, SessionData.rating]
  funext entry
  specialize hfind entry.session
  unfold canPair
  cases hs' : s'.findSession entry.session with
  | none =>
      rw [hs', Option.map_none, eq_comm, Option.map_eq_none_iff] at hfind
      rw [hfind]
      rfl
  | some z' =>
      rw [hs', Option.map_some, eq_comm, Option.map_eq_some_iff] at hfind
      obtain ⟨z, hz, hsame⟩ := hfind
      obtain ⟨huser', hopen⟩ := Prod.mk.inj hsame
      have hrating' : z.rating = z'.rating := by rw [SessionData.rating, huser', SessionData.rating]
      rw [hz, Option.any_some, Option.any_some, isEligible, isEligible, areCompatible, areCompatible, hrating,
        hrating', SessionData.hasUser, SessionData.hasUser, huser', hopen]

/-- An eligible session waits at the end of the queue or is paired with an entry of it. -/
theorem enqueue_cases (config : ServerConfig) {x : PlayerSession} (hx : isEligible x = true) :
    s.enqueue config x = (none, { s with waiting := s.waiting ++ [⟨x.id, s.now⟩] }) ∨
      ∃ before entry after y, s.waiting = before ++ entry :: after ∧
        s.waiting.find? (s.canPair config x) = some entry ∧
        s.findSession entry.session = some y ∧ isEligible y = true ∧
        s.enqueue config x = (some (entry.session, x.id), { s with waiting := before ++ after }) := by
  unfold enqueue
  rw [hx]
  cases hfind : s.waiting.find? (s.canPair config x) with
  | none => exact .inl rfl
  | some entry =>
      right
      obtain ⟨hpair, before, after, hwaiting, hbefore⟩ := List.find?_eq_some_iff_append.mp hfind
      have herase : s.waiting.eraseP (s.canPair config x) = before ++ after := by
        rw [hwaiting, List.eraseP_append_right, List.eraseP_cons_of_pos hpair]
        intro e he
        simpa using hbefore e he
      unfold canPair at hpair
      cases hy : s.findSession entry.session with
      | none => simp [hy] at hpair
      | some y =>
          rw [hy, Option.any_some, Bool.and_eq_true] at hpair
          exact ⟨before, entry, after, y, hwaiting, rfl, hy, hpair.1, by simp [herase]⟩

/-- The server after a session has begun to search, connections apart. -/
def searching (s : Server) (id : PlayerId) (waiting : List WaitingEntry) : Server :=
  { s.modifyData id (·.requestPlay) with waiting }

theorem data_searching (s : Server) (id : PlayerId) (waiting : List WaitingEntry) :
    (s.searching id waiting).data = s.data.map fun x => if x.id = id then x.requestPlay else x :=
  data_modifyData s id (·.requestPlay)

theorem searching_congr {waiting : List WaitingEntry} (h : s'.bare = s.bare) :
    (s'.searching id waiting).bare = (s.searching id waiting).bare := by
  have hbare : ∀ t : Server, (t.searching id waiting).bare = { t.bare.modifyData id (·.requestPlay) with waiting } := by
    intro t
    rw [← bare_modifyData]
    rfl
  rw [hbare, hbare, h]

theorem play_bare (config : ServerConfig) {x : PlayerSession} (hfree : s.NextRoomFree) (hx : s.findSession id = some x)
    {user : SessionUser} (hconnected : x.state = .connected) (huser : x.user = some user)
    (hopen : x.connection.isOpen = true) :
    (s.play config id).bare = (s.searching id (s.waiting ++ [⟨id, s.now⟩])).bare ∨
      ∃ before entry after y whiteUser, s.waiting = before ++ entry :: after ∧
        s.waiting.find? (s.canPair config x) = some entry ∧ y ∈ s.data ∧ y.id = entry.session ∧
        y.user = some whiteUser ∧
        (s.play config id).bare =
          (matched config (s.searching id (before ++ after)) entry.session id whiteUser user).bare := by
  have hid := (findSession_some hx).2
  let x' : PlayerSession := { x with state := .searching }
  have hx' : (s.modifyData id (·.requestPlay)).findSession id = some x' := by
    rw [findSession_modifyData s id id SessionData.requestPlay_id, hx]
    simp [hid, SessionData.requestPlay, hconnected, SessionData.hasUser, huser, x']
  have helig : isEligible x' = true := by
    simp [isEligible, SessionData.hasUser, x', huser, hopen]
  have hwaits : ∀ server, enqueue config (s.modifyData id (·.requestPlay)) x' = (none, server) →
      (s.play config id).bare = server.bare := by
    intro server hanswer
    unfold play joinMatchmaking
    simp only [hx', hanswer]
    simp [x']
  have hpairs : ∀ white black server, enqueue config (s.modifyData id (·.requestPlay)) x' = (some (white, black), server) →
      (s.play config id).bare = (server.createMatch config white black).bare := by
    intro white black server hanswer
    unfold play joinMatchmaking
    simp only [hx', hanswer]
    simp [x', notifyMatchCreated]
  have hcan : (s.modifyData id (·.requestPlay)).canPair config x' = s.canPair config x := by
    apply canPair_congr rfl
    intro other
    rw [findSession_modifyData s id other SessionData.requestPlay_id, Option.map_map]
    congr 1
    funext z
    simp only [Function.comp_apply]
    split
    · simp
    · rfl
  rcases enqueue_cases (s := s.modifyData id (·.requestPlay)) config helig with
    hwait | ⟨before, entry, after, y, hwaiting, hchosen, hy, hyelig, hpair⟩
  · left
    rw [hwaits _ hwait]
    change Server.bare { s.modifyData id (·.requestPlay) with waiting := s.waiting ++ [⟨x.id, s.now⟩] } = _
    rw [hid]
    rfl
  · right
    obtain ⟨whiteUser, hwhiteUser⟩ : ∃ user, y.user = some user :=
      Option.isSome_iff_exists.mp (Bool.and_eq_true_iff.mp hyelig).1
    have hwhite : (s.modifyData id (·.requestPlay)).userOf entry.session = some whiteUser := by
      rw [userOf, hy, Option.bind_some, hwhiteUser]
    have hblack : (s.modifyData id (·.requestPlay)).userOf x.id = some user := by
      rw [hid, userOf, hx', Option.bind_some]
      exact huser
    have hpartner := hwhite
    rw [userOf_modifyData s id _ SessionData.requestPlay_id SessionData.requestPlay_user] at hpartner
    obtain ⟨y', hy', hid', huser'⟩ := data_of_userOf hpartner
    rw [hcan] at hchosen
    refine ⟨before, entry, after, y', whiteUser, hwaiting, hchosen, hy', hid', huser', ?_⟩
    rw [hpairs _ _ _ hpair]
    refine (createMatch_bare (s := { s.modifyData id (·.requestPlay) with waiting := before ++ after }) hfree
      hwhite hblack).trans ?_
    rw [hid]
    rfl

/-- A session that is logged in and asks for a game. -/
structure AsksToPlay (s : Server) (x : SessionData) : Prop where
  mem : x ∈ s.data
  connected : x.state = .connected
  hasUser : x.user.isSome

/-- The entry of the queue with which the lobby is about to pair a session. -/
def nextPartner (config : ServerConfig) (s : Server) (id : PlayerId) : Option WaitingEntry := do
  let session ← s.findSession id
  guard (session.state = .connected ∧ session.hasUser)
  guard (parsePlayMessage (← (s.tryRead .lobby id).1))
  s.waiting.find? (s.canPair config session)

/-- What one round of the lobby can do, connections apart. -/
inductive LobbyStep (config : ServerConfig) (s : Server) (id : PlayerId) : Server → Prop where
  | idle : LobbyStep config s id s
  | login {x : SessionData} {message : Text} {request : LoginRequest} {player : Player}
      {users : UserRepository} (mem : x ∈ s.data) (hid : x.id = id) (connected : x.state = .connected)
      (noUser : x.user = none) (read : (s.tryRead .lobby id).1 = some message)
      (parsed : parseLoginMessage message = some request)
      (offline : request.username ∉ s.onlineUsernames)
      (accepted : authenticate config.hasher s.users request = (.ok player, users)) :
      LobbyStep config s id (s.loggedIn id player users)
  | wait {x : SessionData} (asks : AsksToPlay s x) (hid : x.id = id) :
      LobbyStep config s id (s.searching id (s.waiting ++ [⟨id, s.now⟩]))
  | pair {x y : SessionData} {before after : List WaitingEntry} {entry : WaitingEntry}
      {whiteUser blackUser : SessionUser} (asks : AsksToPlay s x) (hid : x.id = id)
      (waits : s.waiting = before ++ entry :: after) (chosen : nextPartner config s id = some entry)
      (partner : y ∈ s.data) (hpartner : y.id = entry.session) (white : y.user = some whiteUser)
      (black : x.user = some blackUser) :
      LobbyStep config s id
        (matched config (s.searching id (before ++ after)) entry.session id whiteUser blackUser)

theorem registerSession_eq (s : Server) (username : Text) :
    s.registerSession username = { s with
      onlineUsernames :=
        if username.isEmpty ∨ username ∈ s.onlineUsernames then s.onlineUsernames
        else insert username s.onlineUsernames } := by
  unfold registerSession
  split
  · rfl
  · rfl

theorem data_loggedIn (s : Server) (id : PlayerId) (player : Player) (users : UserRepository) :
    (s.loggedIn id player users).data = s.data.map fun x =>
      if x.id = id then x.assignUser (userIdOfInt player.id) player.username player.rating else x := by
  unfold loggedIn
  rw [registerSession_eq]
  exact data_modifyData { s with users } id (·.assignUser (userIdOfInt player.id) player.username player.rating)

theorem loggedIn_congr {player : Player} {users : UserRepository} (h : s'.bare = s.bare) :
    (s'.loggedIn id player users).bare = (s.loggedIn id player users).bare := by
  apply bare_ext
  · rw [data_loggedIn, data_loggedIn, data_eq_of_bare h]
  · rw [eq_of_bare h, loggedIn, loggedIn, registerSession_eq, registerSession_eq]
    rfl

theorem handleLobbyMessage_step {message : Text} {x : PlayerSession} {t : Server} (hfree : s.NextRoomFree)
    (hx : x.toSessionData ∈ s.data) (hid : x.id = id) (hplaying : x.state ≠ .playing)
    (hfind : s.findSession id = some x) (hread : (s.tryRead .lobby id).1 = some message)
    (hbare : t.bare = s.bare) {x' : PlayerSession} (hx' : t.findSession id = some x')
    (hsame : x'.toSessionData = x.toSessionData) (hopen : x'.connection.isOpen = true)
    (hcan : t.canPair config x' = s.canPair config x) :
    ∃ u, LobbyStep config s id u ∧ (t.handleLobbyMessage config x message).bare = u.bare := by
  have ht := eq_of_bare hbare
  unfold handleLobbyMessage
  split
  · exact ⟨s, .idle, hbare⟩
  · rename_i hsearching
    have hconnected : x.state = .connected := by
      cases hstate : x.state with
      | connected => rfl
      | searching => exact absurd hstate hsearching
      | playing => exact absurd hstate hplaying
    split
    · rename_i hnone
      have huser : x.user = none := by simpa [SessionData.hasUser] using hnone
      cases hparse : parseLoginMessage message with
      | none => exact ⟨s, .idle, hbare⟩
      | some request =>
          rw [hid]
          rcases login_bare config t id request with hidle | ⟨player, users, hoff, hauth, hlogin⟩
          · exact ⟨s, .idle, hidle.trans hbare⟩
          · rw [ht] at hoff hauth
            exact ⟨_, .login hx hid hconnected huser hread hparse hoff hauth,
              hlogin.trans (loggedIn_congr hbare)⟩
    · rename_i hsome
      have huser : x.user.isSome := by
        rw [SessionData.hasUser, Bool.not_eq_true', Bool.not_eq_false] at hsome
        exact hsome
      have hasks : AsksToPlay s x.toSessionData := ⟨hx, hconnected, huser⟩
      split
      · rename_i hplay
        rw [hid]
        have hstate' : x'.state = .connected := by rw [hsame, hconnected]
        obtain ⟨user, hblack⟩ := Option.isSome_iff_exists.mp huser
        have huser' : x'.user = some user := by rw [hsame, hblack]
        have hfree' : t.NextRoomFree := by
          rw [ht]
          exact hfree
        have hwaiting : t.waiting = s.waiting := by rw [ht]
        have hnow : t.now = s.now := by rw [ht]
        rcases play_bare config hfree' hx' hstate' huser' hopen with
          hwait | ⟨before, entry, after, y, whiteUser, hsplit, hentry, hy, hyid, hwhite, hpair⟩
        · refine ⟨_, .wait hasks hid, hwait.trans ?_⟩
          rw [hwaiting, hnow]
          exact searching_congr hbare
        · rw [hwaiting] at hsplit
          rw [hwaiting, hcan] at hentry
          rw [data_eq_of_bare hbare] at hy
          have hchosen : nextPartner config s id = some entry := by
            simp [nextPartner, hfind, hconnected, SessionData.hasUser, hblack, hread, hplay, hentry]
          exact ⟨_, .pair hasks hid hsplit hchosen hy hyid hwhite hblack,
            hpair.trans (matched_congr (searching_congr hbare))⟩
      · exact ⟨s, .idle, hbare⟩

theorem lobbyRound_step (config : ServerConfig) (hfree : s.NextRoomFree) (id : PlayerId) :
    ∃ t, LobbyStep config s id t ∧ (s.lobbyRound config id).bare = t.bare := by
  unfold lobbyRound
  cases hx : s.findSession id with
  | none => exact ⟨s, .idle, rfl⟩
  | some x =>
      obtain ⟨hmem, hid⟩ := data_of_findSession hx
      dsimp only
      split
      · exact ⟨s, .idle, rfl⟩
      · rename_i hlobby
        rw [not_or] at hlobby
        have hbare := bare_tryRead s .lobby id
        obtain ⟨answer, t, hread⟩ : ∃ answer t, s.tryRead .lobby id = (answer, t) := ⟨_, _, rfl⟩
        rw [hread] at hbare ⊢
        cases answer with
        | none => exact ⟨s, .idle, hbare⟩
        | some message =>
            have hsome : (s.tryRead .lobby id).1 = some message := by rw [hread]
            obtain ⟨hconnection, ht⟩ := tryRead_eq_some hx hsome
            obtain ⟨hopen, arrivedIn, rest, -, hafter⟩ := ClientConnection.tryRead_eq_some hconnection
            replace ht : t = s.modifyConnection id fun _ => (x.connection.tryRead .lobby).2 := by
              rw [← ht, hread]
            have hx' : t.findSession id = some { x with connection := (x.connection.tryRead .lobby).2 } := by
              rw [ht, findSession_modifyConnection, hx, Option.map_some, if_pos hid]
            have hopen' : (x.connection.tryRead .lobby).2.isOpen = x.connection.isOpen := by rw [hafter]
            refine handleLobbyMessage_step hfree hmem hid hlobby.1 hx hsome hbare hx' rfl (hopen'.trans hopen) ?_
            apply canPair_congr rfl
            intro other
            rw [ht, findSession_modifyConnection]
            cases hother : s.findSession other with
            | none => rfl
            | some z =>
                by_cases hz : z.id = id
                · have hzx : z = x := by
                    rw [← (findSession_some hother).2, hz, hx] at hother
                    exact (Option.some.inj hother).symm
                  simp [hid, hzx, hopen']
                · simp [hz]

end Server

end KungFuChess
