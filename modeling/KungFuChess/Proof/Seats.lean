import KungFuChess.Proof.Waiting

/-!
# Who sits where

That a session plays on a side of a room is written down twice: the session names the room and the side,
and the room names the session. Making a match writes both. `create_room` on its own writes the room
only, and takes the session 0 for a user who has none; joining writes the session only. So the two agree
until a room is made for a user who is not searching, or somebody joins.
-/

namespace KungFuChess

open Machine

namespace Server

variable {config : ServerConfig} {s s' t : Server} {id : PlayerId} {roomId : RoomId} {side : PieceColor}

/-- A room and a session say the same about each other. -/
structure SeatAgrees (room : Room) (x : SessionData) : Prop where
  seat : ∀ side, x.roomId = some room.id ∧ x.side = some side ↔
    ∃ player, room.playerOf side = some player ∧ player.playerId = x.id
  user : ∀ side player, room.playerOf side = some player → player.playerId = x.id →
    x.userId = some player.userId

def SeatsAgree (s : Server) : Prop :=
  ∀ room ∈ s.rooms.rooms, room.active = true → ∀ x ∈ s.data, SeatAgrees room x

/-! ### When they agree -/

/-- No user of this session has a session before it. -/
def FirstOfUser (s : Server) (id : PlayerId) : Prop := ∀ user ∈ s.userOf id, s.playerIdOf user.userId = id

/-- A step after which rooms and sessions still agree. -/
def KeepsSeats (config : ServerConfig) (s : Server) : NetEvent ⊕ ServerOp → Prop
  -- a client does not get the id that stands for no session while a room uses it
  | .inr .acceptNewClients => s.sessions.length < config.maxClients → 0 < s.backlog →
      ∀ room ∈ s.rooms.rooms, room.active = true → ∀ side, ∀ player ∈ room.playerOf side,
        player.playerId ≠ s.nextSessionId
  -- sessions that are paired are the ones that `create_room` finds
  | .inr (.lobby id) => ∀ entry ∈ nextPartner config s id, FirstOfUser s entry.session ∧ FirstOfUser s id
  -- nobody joins a room as one of its players
  | .inr (.join id) => ∀ x ∈ s.findSession id, x.hasRoom = false → ∀ message ∈ (s.tryRead .join id).1,
      ∀ roomId ∈ parseJoinGameMessage message, ∀ room ∈ s.rooms.findRoom roomId, room.active = true →
      ∀ userId ∈ x.userId, room.containsPlayer userId = false
  -- a room is made for two users without a session, and there is no session 0
  | .inr (.allocate request) => s.findSession (s.playerIdOf request.whiteUserId) = none ∧
      s.findSession (s.playerIdOf request.blackUserId) = none
  | _ => True

instance {p : PieceColor → Prop} [DecidablePred p] : Decidable (∀ side, p side) :=
  decidable_of_iff (p .white ∧ p .black) ⟨fun h side => by cases side <;> simp [h], fun h => ⟨h _, h _⟩⟩

instance (s : Server) (id : PlayerId) : Decidable (FirstOfUser s id) :=
  inferInstanceAs (Decidable (∀ user ∈ s.userOf id, _))

instance (config : ServerConfig) (s : Server) : (x : NetEvent ⊕ ServerOp) → Decidable (KeepsSeats config s x)
  | .inr .acceptNewClients =>
      inferInstanceAs (Decidable (_ → _ → ∀ room ∈ s.rooms.rooms, room.active = true → ∀ side,
        ∀ player ∈ room.playerOf side, _))
  | .inr (.lobby id) => inferInstanceAs (Decidable (∀ entry ∈ nextPartner config s id, _ ∧ _))
  | .inr (.join id) =>
      inferInstanceAs (Decidable (∀ x ∈ s.findSession id, _ → ∀ message ∈ (s.tryRead .join id).1,
        ∀ roomId ∈ parseJoinGameMessage message, ∀ room ∈ s.rooms.findRoom roomId, _ → ∀ userId ∈ x.userId, _))
  | .inr (.allocate _) => inferInstanceAs (Decidable (_ ∧ _))
  | .inl _ | .inr .processTimeouts | .inr .pruneDisconnected | .inr (.prune _) | .inr .readClock
  | .inr (.probeRoom _) | .inr (.tickRoom _ _) | .inr (.playRoomInputs _) | .inr (.finish _ _ _)
  | .inr .removeInactiveRooms => isTrue trivial

/-! ### One room and one session -/

/-- A session after a change that leaves it in its seat. The user of a session without a room does not
matter. -/
structure SameSeat (x y : SessionData) : Prop where
  id : y.id = x.id
  side : y.side = x.side
  room : y.roomId = x.roomId
  state : x.state = .playing → y.state = .playing
  user : x.roomId ≠ none → y.userId = x.userId

theorem SameSeat.refl (x : SessionData) : SameSeat x x := ⟨rfl, rfl, rfl, fun h => h, fun _ => rfl⟩

theorem SameSeat.requestPlay (x : SessionData) : SameSeat x x.requestPlay := by
  unfold SessionData.requestPlay
  split
  · rename_i hconnected
    exact ⟨rfl, rfl, rfl, fun hplaying => by simp [hplaying] at hconnected, fun _ => rfl⟩
  · exact .refl x

theorem SameSeat.cancelSearch (x : SessionData) : SameSeat x x.cancelSearch := by
  unfold SessionData.cancelSearch
  split
  · rename_i hsearching
    exact ⟨rfl, rfl, rfl, fun hplaying => by simp [hplaying] at hsearching, fun _ => rfl⟩
  · exact .refl x

namespace SeatAgrees

variable {room room' : Room} {x y : SessionData}

theorem of_room (h : SeatAgrees room x) (hid : room'.id = room.id)
    (hplayers : ∀ side, room'.playerOf side = room.playerOf side) : SeatAgrees room' x := by
  refine ⟨?_, ?_⟩
  · intro side
    rw [hid, hplayers]
    exact h.seat side
  · intro side player
    rw [hplayers]
    exact h.user side player

/-- A session that is not in the room is none of its players. -/
theorem not_player (h : SeatAgrees room x) (hroom : x.roomId ≠ some room.id) {player : GamePlayer}
    (hplayer : room.playerOf side = some player) : player.playerId ≠ x.id := by
  intro hid
  exact hroom ((h.seat side).mpr ⟨player, hplayer, hid⟩).1

theorem elsewhere (hroom : x.roomId ≠ some room.id)
    (hplayers : ∀ side player, room.playerOf side = some player → player.playerId ≠ x.id) : SeatAgrees room x := by
  refine ⟨?_, ?_⟩
  · intro side
    refine iff_of_false (fun h => hroom h.1) ?_
    intro h
    obtain ⟨player, hplayer, hid⟩ := h
    exact hplayers side player hplayer hid
  · intro side player hplayer hid
    exact absurd hid (hplayers side player hplayer)

/-- A session that leaves for another room, or that was in none, agrees as before. -/
theorem of_elsewhere (h : SeatAgrees room x) (hid : y.id = x.id) (hroom : x.roomId ≠ some room.id)
    (hroom' : y.roomId ≠ some room.id) : SeatAgrees room y := by
  apply elsewhere hroom'
  intro side player hplayer
  rw [hid]
  exact h.not_player hroom hplayer

theorem of_session (h : SeatAgrees room x) (hsame : SameSeat x y) : SeatAgrees room y := by
  refine ⟨?_, ?_⟩
  · intro side
    rw [hsame.id, hsame.side, hsame.room]
    exact h.seat side
  · intro side player hplayer hid
    rw [hsame.id] at hid
    have hseat := (h.seat side).mpr ⟨player, hplayer, hid⟩
    rw [hsame.user (by rw [hseat.1]; simp)]
    exact h.user side player hplayer hid

/-- A session that sits on one side of the room and not on the other. -/
theorem sits {player : GamePlayer} (hplayer : room.playerOf side = some player) (hid : player.playerId = x.id)
    (hother : ∀ other, room.playerOf (opponentOf side) = some other → other.playerId ≠ x.id)
    (hroom : x.roomId = some room.id) (hside : x.side = some side) (huser : x.userId = some player.userId) :
    SeatAgrees room x := by
  have hsides : ∀ other, other = side ∨ other = opponentOf side ∧ side ≠ other := by
    intro other
    cases other <;> cases side <;> simp [opponentOf]
  refine ⟨?_, ?_⟩
  · intro other
    rcases hsides other with rfl | ⟨rfl, hne⟩
    · exact iff_of_true ⟨hroom, hside⟩ ⟨player, hplayer, hid⟩
    · refine iff_of_false ?_ ?_
      · intro h
        obtain ⟨-, hsame⟩ := h
        rw [hside] at hsame
        exact hne (Option.some.inj hsame)
      · intro h
        obtain ⟨player', hplayer', hid'⟩ := h
        exact hother player' hplayer' hid'
  · intro other player' hplayer' hid'
    rcases hsides other with rfl | ⟨rfl, -⟩
    · rw [hplayer] at hplayer'
      cases hplayer'
      exact huser
    · exact absurd hid' (hother player' hplayer')

end SeatAgrees

/-! ### All of them -/

/-- What a state has to satisfy for the next step to keep the agreement. -/
structure Seats (s : Server) : Prop where
  queued : Queued s
  playing : ∀ x ∈ s.data, ∀ roomId, x.roomId = some roomId → x.state = .playing ∧ roomId < s.rooms.nextId
  agree : SeatsAgree s

namespace Seats

theorem noRoom (h : Seats s) {x : SessionData} (hx : x ∈ s.data) (hstate : x.state ≠ .playing) : x.roomId = none := by
  cases hroom : x.roomId with
  | none => rfl
  | some roomId => exact absurd (h.playing x hx roomId hroom).1 hstate

/-- The sessions stay in their seats and the rooms keep their players. -/
theorem of_map (h : Seats s) (hqueued : Queued t) {f : SessionData → SessionData} (hdata : t.data = s.data.map f)
    (hsame : ∀ x ∈ s.data, SameSeat x (f x)) (hnext : t.rooms.nextId = s.rooms.nextId)
    (hrooms : ∀ room ∈ t.rooms.rooms, ∃ old ∈ s.rooms.rooms, room.id = old.id ∧ room.active = old.active ∧
      ∀ side, room.playerOf side = old.playerOf side) : Seats t := by
  refine ⟨hqueued, ?_, ?_⟩
  · intro y hy roomId hroom
    rw [hdata] at hy
    obtain ⟨x, hx, rfl⟩ := List.mem_map.mp hy
    rw [(hsame x hx).room] at hroom
    obtain ⟨hplaying, hold⟩ := h.playing x hx roomId hroom
    exact ⟨(hsame x hx).state hplaying, hnext ▸ hold⟩
  · intro room hmem hroomActive y hy
    obtain ⟨old, hold, hroomId, hactive, hplayers⟩ := hrooms room hmem
    rw [hdata] at hy
    obtain ⟨x, hx, rfl⟩ := List.mem_map.mp hy
    exact ((h.agree old hold (hactive ▸ hroomActive) x hx).of_session (hsame x hx)).of_room hroomId hplayers

/-- The sessions stay as they are and the rooms keep their players. -/
theorem of_rooms (h : Seats s) (hqueued : Queued t) (hdata : t.data = s.data) (hnext : t.rooms.nextId = s.rooms.nextId)
    (hrooms : ∀ room ∈ t.rooms.rooms, ∃ old ∈ s.rooms.rooms, room.id = old.id ∧ room.active = old.active ∧
      ∀ side, room.playerOf side = old.playerOf side) : Seats t :=
  h.of_map hqueued (hdata.trans (List.map_id' _).symm) (fun x _ => .refl x) hnext hrooms

theorem accept (h : Seats s) {backlog : Nat} (hqueued : Queued (s.accepted backlog))
    (hfree : ∀ room ∈ s.rooms.rooms, room.active = true → ∀ side, ∀ player ∈ room.playerOf side,
      player.playerId ≠ s.nextSessionId) : Seats (s.accepted backlog) := by
  refine ⟨hqueued, ?_, ?_⟩
  · intro x hx roomId hroom
    rw [data_accepted, List.mem_append, List.mem_singleton] at hx
    rcases hx with hx | rfl
    · exact h.playing x hx roomId hroom
    · cases hroom
  · intro room hmem hactive x hx
    rw [data_accepted, List.mem_append, List.mem_singleton] at hx
    rcases hx with hx | rfl
    · exact h.agree room hmem hactive x hx
    · exact .elsewhere (by simp) fun side player hplayer => hfree room hmem hactive side player hplayer

theorem pruned (h : Seats s) {x : SessionData} (hqueued : Queued (s.pruned x)) : Seats (s.pruned x) := by
  have hsub : (s.pruned x).data ⊆ s.data := by
    rw [data_pruned]
    exact List.filter_subset_self _
  exact ⟨hqueued, fun y hy => h.playing y (hsub hy),
    fun room hmem hactive y hy => h.agree room hmem hactive y (hsub hy)⟩

theorem allocated (h : Seats s) {request : GameCreationRequest} {store : RuntimeStore}
    (hqueued : Queued (allocated config s request store))
    (hwhite : s.findSession (s.playerIdOf request.whiteUserId) = none)
    (hblack : s.findSession (s.playerIdOf request.blackUserId) = none) :
    Seats (allocated config s request store) := by
  have hrooms : (Server.allocated config s request store).rooms.rooms = s.rooms.rooms ++ [freshRoom config s request] := rfl
  refine ⟨hqueued, ?_, ?_⟩
  · intro x hx roomId hroom
    obtain ⟨hplaying, hold⟩ := h.playing x hx roomId hroom
    exact ⟨hplaying, Nat.lt_succ_of_lt hold⟩
  · intro room hmem hactive x hx
    rw [hrooms, List.mem_append, List.mem_singleton] at hmem
    rcases hmem with hold | rfl
    · exact h.agree room hold hactive x hx
    · apply SeatAgrees.elsewhere
      · intro hroom
        exact (h.playing x hx _ hroom).2.ne rfl
      · intro side player hplayer hid
        cases side with
        | white =>
            cases hplayer
            exact findSession_none hwhite x hx hid.symm
        | black =>
            cases hplayer
            exact findSession_none hblack x hx hid.symm

theorem finished (h : Seats s) (hwf : Wf s) {room : Room} {white black : GamePlayer} {winner : Option PieceColor}
    {reason : FinishReason} {online : Finset Text} (hends : Ends s roomId room white black)
    (hqueued : Queued (finished config s roomId room white black winner reason online)) :
    Seats (finished config s roomId room white black winner reason online) := by
  obtain ⟨hroom, rfl⟩ := findRoom_some hends.find
  have hactive := hwf.manned room hroom .white white hends.white
  -- a player who is still there sits in the room that ends
  have hplayer : ∀ x ∈ s.data, x.id = white.playerId ∨ x.id = black.playerId → x.roomId = some room.id := by
    intro x hx hid
    have hagree := h.agree room hroom hactive x hx
    rcases hid with hid | hid
    · exact ((hagree.seat .white).mpr ⟨white, hends.white, hid.symm⟩).1
    · exact ((hagree.seat .black).mpr ⟨black, hends.black, hid.symm⟩).1
  -- and leaves it, while the others stay as they are
  have hleave : ∀ y ∈ (Server.finished config s room.id room white black winner reason online).data,
      ∃ x ∈ s.data, y.id = x.id ∧ (y = x ∨ y.roomId = none ∧ x.roomId = some room.id) := by
    intro y hy
    rw [data_finished] at hy
    obtain ⟨x, hx, rfl⟩ := List.mem_map.mp hy
    refine ⟨x, hx, by simp, ?_⟩
    rw [Function.comp_apply]
    by_cases hwhite : x.id = white.playerId
    · right
      refine ⟨?_, hplayer x hx (.inl hwhite)⟩
      simp [buildFinishedPlayerState, hwhite]
    · rw [FinishedPlayerState.leave_of_ne (x := x) hwhite]
      by_cases hblack : x.id = black.playerId
      · right
        refine ⟨?_, hplayer x hx (.inr hblack)⟩
        simp [buildFinishedPlayerState, hblack]
      · exact .inl (FinishedPlayerState.leave_of_ne (x := x) hblack)
  refine ⟨hqueued, ?_, ?_⟩
  · intro y hy roomId hyroom
    obtain ⟨x, hx, -, rfl | ⟨hnone, -⟩⟩ := hleave y hy
    · exact h.playing y hx roomId hyroom
    · rw [hnone] at hyroom
      cases hyroom
  · intro room' hmem hactive' y hy
    obtain ⟨old, hold, rfl⟩ := mem_modifyRoom hmem
    split at hactive'
    · cases hactive'
    · rename_i hne
      rw [if_neg hne]
      obtain ⟨x, hx, hid, rfl | ⟨hnone, hthere⟩⟩ := hleave y hy
      · exact h.agree old hold hactive' y hx
      · apply (h.agree old hold hactive' x hx).of_elsewhere hid
        · rw [hthere]
          intro hsame
          exact hne (Option.some.inj hsame).symm
        · rw [hnone]
          simp

theorem mem_matched (hwf : Wf s) {x y : SessionData} (hasks : AsksToPlay s x) (hy : y ∈ s.data) (hne : y.id ≠ x.id)
    {waiting : List WaitingEntry} {whiteUser blackUser : SessionUser} {z : SessionData}
    (hz : z ∈ (matched config (s.searching x.id waiting) y.id x.id whiteUser blackUser).data) :
    z = playSide s.rooms.nextId .white y ∨ z = playSide s.rooms.nextId .black x ∨
      z ∈ s.data ∧ z.id ≠ y.id ∧ z.id ≠ x.id := by
  rw [data_matched, data_searching, List.map_map] at hz
  obtain ⟨old, hold, rfl⟩ := List.mem_map.mp hz
  rw [Function.comp_apply]
  rcases eq_or_ne old.id x.id with hx | hx
  · right
    left
    rw [hwf.eq_of_id hold hasks.mem hx, if_pos rfl]
    simp only [taken, SessionData.requestPlay_id, if_true]
    rw [SessionData.requestPlay, if_pos ⟨hasks.connected, hasks.hasUser⟩]
    rfl
  · rcases eq_or_ne old.id y.id with hyid | hyid
    · left
      rw [hwf.eq_of_id hold hy hyid, if_neg hne]
      simp only [taken, hne, if_false, if_true]
      rfl
    · right
      right
      rw [if_neg hx]
      simp only [taken, hx, hyid, if_false]
      exact ⟨hold, hyid, hx⟩

theorem pair (h : Seats s) (hwf : Wf s) {x y : SessionData} {waiting : List WaitingEntry}
    {whiteUser blackUser : SessionUser} (hasks : AsksToPlay s x) (hy : y ∈ s.data) (hsearching : y.state = .searching)
    (hwhite : y.user = some whiteUser) (hblack : x.user = some blackUser) (hfirst : FirstOfUser s y.id ∧ FirstOfUser s x.id)
    (hqueued : Queued (matched config (s.searching x.id waiting) y.id x.id whiteUser blackUser)) :
    Seats (matched config (s.searching x.id waiting) y.id x.id whiteUser blackUser) := by
  have hne : y.id ≠ x.id := by
    intro hsame
    rw [hwf.eq_of_id hy hasks.mem hsame, hasks.connected] at hsearching
    cases hsearching
  have hplayerId : ∀ userId, (s.searching x.id waiting).playerIdOf userId = s.playerIdOf userId := by
    intro userId
    exact playerIdOf_modifyData s x.id userId SessionData.requestPlay_id SessionData.requestPlay_user
  have hwhiteId : (s.searching x.id waiting).playerIdOf whiteUser.userId = y.id := by
    rw [hplayerId]
    apply hfirst.1
    rw [hwf.userOf hy]
    exact hwhite
  have hblackId : (s.searching x.id waiting).playerIdOf blackUser.userId = x.id := by
    rw [hplayerId]
    apply hfirst.2
    rw [hwf.userOf hasks.mem]
    exact hblack
  have hrooms : (matched config (s.searching x.id waiting) y.id x.id whiteUser blackUser).rooms.rooms =
      s.rooms.rooms ++ [freshRoom config (s.searching x.id waiting) _] := rfl
  refine ⟨hqueued, ?_, ?_⟩
  · intro z hz roomId hroom
    rcases mem_matched hwf hasks hy hne hz with rfl | rfl | ⟨hold, -, -⟩
    · cases hroom
      exact ⟨rfl, Nat.lt_succ_self _⟩
    · cases hroom
      exact ⟨rfl, Nat.lt_succ_self _⟩
    · obtain ⟨hplaying, hlt⟩ := h.playing z hold roomId hroom
      exact ⟨hplaying, Nat.lt_succ_of_lt hlt⟩
  · intro room hmem hactive z hz
    rw [hrooms, List.mem_append, List.mem_singleton] at hmem
    rcases hmem with hmem | rfl
    · -- neither of the two was in a room before
      have hmoved : ∀ old ∈ s.data, old.state ≠ .playing → ∀ side, SeatAgrees room (playSide s.rooms.nextId side old) := by
        intro old hold hstate side
        refine (h.agree room hmem hactive old hold).of_elsewhere rfl ?_ ?_
        · rw [h.noRoom hold hstate]
          simp
        · intro hsame
          exact hwf.nextRoomFree room hmem (Option.some.inj hsame).symm
      rcases mem_matched hwf hasks hy hne hz with rfl | rfl | ⟨hold, -, -⟩
      · exact hmoved y hy (by simp [hsearching]) .white
      · exact hmoved x hasks.mem (by simp [hasks.connected]) .black
      · exact h.agree room hmem hactive z hold
    · -- the new room names the two
      rcases mem_matched hwf hasks hy hne hz with rfl | rfl | ⟨hold, hzy, hzx⟩
      · refine .sits (show Room.playerOf _ .white = _ from rfl) hwhiteId ?_ rfl rfl ?_
        · intro player h
          obtain ⟨⟩ := h
          intro hid
          exact hne (hid.symm.trans hblackId)
        · simp [SessionData.userId, playSide, hwhite]
      · refine .sits (show Room.playerOf _ .black = _ from rfl) hblackId ?_ rfl rfl ?_
        · intro player h
          obtain ⟨⟩ := h
          intro hid
          exact hne (hwhiteId.symm.trans hid)
        · simp [SessionData.userId, playSide, hblack]
      · apply SeatAgrees.elsewhere
        · intro hroom
          exact (h.playing z hold _ hroom).2.ne rfl
        · rintro (_ | _) player ⟨⟩ hid
          · exact hzy (hid.symm.trans hwhiteId)
          · exact hzx (hid.symm.trans hblackId)

theorem lobbyStep (h : Seats s) (hwf : Wf s) (hkeeps : KeepsSeats config s (.inr (.lobby id)))
    (hstep : LobbyStep config s id t) : Seats t := by
  have hqueued := h.queued.lobbyStep hwf hstep
  have hrooms : ∀ room ∈ s.rooms.rooms, ∃ old ∈ s.rooms.rooms, room.id = old.id ∧ room.active = old.active ∧
      ∀ side, room.playerOf side = old.playerOf side := fun room hmem => ⟨room, hmem, rfl, rfl, fun _ => rfl⟩
  cases hstep with
  | idle => exact h
  | @login x _ _ player users hmem hid hconnected _ _ _ _ _ =>
      have hsame : (s.loggedIn id player users).rooms = s.rooms := by
        rw [loggedIn, registerSession_eq]
        rfl
      refine h.of_map hqueued (data_loggedIn ..) ?_ (by rw [hsame]) (by rw [hsame]; exact hrooms)
      intro y hy
      split
      · rename_i hyid
        have hnone : y.roomId = none := by
          rw [hwf.eq_of_id hy hmem (hyid.trans hid.symm)]
          exact h.noRoom hmem (by simp [hconnected])
        exact ⟨rfl, rfl, rfl, fun hplaying => hplaying, fun hroom => absurd hnone hroom⟩
      · exact .refl y
  | wait _ _ =>
      refine h.of_map hqueued (data_searching ..) ?_ rfl hrooms
      intro y _
      split
      · exact SameSeat.requestPlay y
      · exact .refl y
  | @pair x y _ _ entry _ _ hasks hid hwaits hchosen hpartner hyid hwhite hblack =>
      subst hid
      have hsearching : s.IsSearching entry.session := by
        rw [← h.queued.exact, Server.queued, hwaits]
        exact List.mem_map_of_mem (List.mem_append_right _ List.mem_cons_self)
      rw [← hyid, hwf.isSearching_iff hpartner] at hsearching
      have hfirst := hkeeps entry hchosen
      rw [← hyid] at hfirst hqueued ⊢
      exact h.pair hwf hasks hpartner hsearching hwhite hblack hfirst hqueued

theorem step (h : Seats s) (hwf : Wf s) {op : ServerOp} (hkeeps : KeepsSeats config s (.inr op))
    (hstep : OpStep config s op t) : Seats t := by
  have hnoJoin : ∀ x roomId side, op = .join x.id → ¬MayJoin s x roomId side := by
    intro x roomId side h
    obtain rfl := h
    intro hmay
    obtain ⟨message, hread, hparse⟩ := hmay.asks
    obtain ⟨room, player, hplays, huser⟩ := hmay.plays
    obtain ⟨session, hsession, rfl⟩ := List.mem_map.mp hmay.mem
    have hnot := hkeeps session (hwf.findSession hsession) (by simp [SessionData.hasRoom, hmay.noRoom]) message hread
      roomId hparse room hplays.find hplays.active player.userId huser
    rw [hplays.containsPlayer] at hnot
    cases hnot
  have hqueued : Queued t := h.queued.step hwf hstep fun x roomId side hop hmay =>
    absurd hmay (hnoJoin x roomId side hop)
  have hgame : ∀ roomId game, ∀ room ∈ (s.rooms.modifyRoom roomId ({ · with game })).rooms,
      ∃ old ∈ s.rooms.rooms, room.id = old.id ∧ room.active = old.active ∧
        ∀ side, room.playerOf side = old.playerOf side := by
    intro roomId game room hroom
    obtain ⟨old, hold, rfl⟩ := mem_modifyRoom hroom
    refine ⟨old, hold, ?_⟩
    split
    · exact ⟨rfl, rfl, fun side => by cases side <;> rfl⟩
    · exact ⟨rfl, rfl, fun _ => rfl⟩
  cases hstep with
  | idle _ => exact h
  | accept backlog hfree hknocks => exact h.accept hqueued (hkeeps hfree hknocks)
  | lobby hlobby => exact h.lobbyStep hwf hkeeps hlobby
  | timeouts =>
      refine h.of_map hqueued (data_timedOut ..) ?_ rfl fun room hmem => ⟨room, hmem, rfl, rfl, fun _ => rfl⟩
      intro x _
      unfold cancelSearches
      split
      · exact SameSeat.cancelSearch x
      · exact .refl x
  | prune _ => exact h.pruned hqueued
  | @join x roomId side hmay => exact absurd hmay (hnoJoin x roomId side rfl)
  | allocate request store => exact h.allocated hqueued hkeeps.1 hkeeps.2
  | tick _ _ => exact h.of_rooms hqueued rfl rfl (hgame _ _)
  | inputs _ _ => exact h.of_rooms hqueued rfl rfl (hgame _ _)
  | finish hends _ => exact h.finished hwf hends hqueued
  | removeInactive =>
      exact h.of_rooms hqueued rfl rfl fun room hmem =>
        ⟨room, List.mem_of_mem_filter hmem, rfl, rfl, fun _ => rfl⟩

end Seats

/-- In every run whose steps keep the seats, rooms and sessions agree in every state reached. -/
theorem seats_agree_of_run {users : UserRepository} {games : GameRepository} {now : Nat}
    {script : List (List NetEvent)} {w : ServerWorld config}
    (hleads : Leads { state := boot users games now, script } w)
    (hkeeps : ∀ x ∈ w.history, KeepsSeats config x.1 x.2) : SeatsAgree w.state := by
  have hstart : Seats (boot users games now) :=
    ⟨⟨List.nodup_nil, by simp [boot, queued, IsSearching, data]⟩, by simp [boot, data],
      by simp [SeatsAgree, boot]⟩
  refine (invariant (P := fun s _ => Seats s) ?_ ?_ ?_ hleads (.boot users games now) hstart hkeeps).2.agree
  · intro s s' _ hbare h
    have hrest := eq_of_bare hbare
    refine h.of_rooms (h.queued.of_bare hbare) (data_eq_of_bare hbare) (by rw [hrest]) ?_
    rw [hrest]
    exact fun room hmem => ⟨room, hmem, rfl, rfl, fun _ => rfl⟩
  · intro s _ backlog now _ h
    exact h.of_rooms (h.queued.congr rfl fun _ => Iff.rfl) rfl rfl fun room hmem =>
      ⟨room, hmem, rfl, rfl, fun _ => rfl⟩
  · intro s _ op t hs h hkeeps hstep
    exact h.step hs hkeeps hstep

/-- Two clients are matched. -/
theorem seats_agree_of_run_matched :
    ∃ w, Leads (sampleWorld untilGame) w ∧ (∃ room ∈ w.state.rooms.rooms, room.active = true) ∧ SeatsAgree w.state := by
  have hrun : (serve sampleConfig (List.replicate 4 .gameServerTick)).reaches (sampleWorld untilGame)
      (fun _ w => decide ((∃ room ∈ w.state.rooms.rooms, room.active = true) ∧
        ∀ x ∈ w.history, KeepsSeats sampleConfig x.1 x.2)) = true := by
    decide +kernel
  obtain ⟨_, w, hrun, hw⟩ := Prog.reaches_eq_true hrun
  obtain ⟨hactive, hkeeps⟩ := of_decide_eq_true hw
  exact ⟨w, Leads.of_run hrun, hactive, seats_agree_of_run (Leads.of_run hrun) hkeeps⟩

/-- A game server is asked for a room for two users it has not seen, and has a client: the room names the
client on both sides. -/
theorem not_seats_agree_after_allocation : ∃ w, Leads (sampleWorld [[.connect]]) w ∧ ¬SeatsAgree w.state := by
  have hrun : (serve sampleConfig [.runtimeTick true, .allocate ⟨7, 8, some 1⟩]).reaches (sampleWorld [[.connect]])
      (fun _ w => decide (∃ room ∈ w.state.rooms.rooms, room.active = true ∧ ∃ x ∈ w.state.sessions,
        x.roomId ≠ some room.id ∧ room.playerOf .white = some ⟨7, .white, x.id⟩)) = true := by
    decide +kernel
  obtain ⟨_, w, hrun, hw⟩ := Prog.reaches_eq_true hrun
  obtain ⟨room, hroom, hactive, x, hx, helsewhere, hplayer⟩ := of_decide_eq_true hw
  refine ⟨w, Leads.of_run hrun, ?_⟩
  intro hagree
  exact (hagree room hroom hactive x.toSessionData (List.mem_map_of_mem hx)).not_player helsewhere hplayer rfl

end Server

end KungFuChess
