import KungFuChess.Proof.RoomGames

/-!
# What stops the server

Nothing that a player does stops the server: the matches of the rooms are games by the rules, on which no operation
fails. What is left is the profile of a session without a user, asked for when a game is over. The monolith never gets
there, since it makes rooms for sessions that have logged in, and a session keeps its user for as long as it lasts.
-/

namespace KungFuChess

open Machine Loops

namespace Server

variable {config : ServerConfig} {s s' t : Server} {roomId : RoomId}

/-! ### Games -/

/-- The rooms are those of the server's board, and their games go by the rules. -/
def Playing (config : ServerConfig) (s : Server) : Prop :=
  ∀ room ∈ s.rooms.rooms, room.defaultBoard = config.defaultBoard ∧ Reachable room.game.state

theorem Playing.apply (h : Playing config s) (hwf : Wf s) (hboard : AcceptedBoard config.defaultBoard) {op : ServerOp}
    {r : op.Result} (happly : s.apply config op = .ok (r, s')) : Playing config s' := by
  have hnew : Reachable (Match.new config.defaultBoard).state := reachable_new hboard
  intro room hroom
  rcases (hwf.roomsGoOn happly).rooms room hroom with ⟨old, hold⟩ | hfresh
  · obtain ⟨hsame, hreach⟩ := h old hold.mem
    refine ⟨hold.board.trans hsame, ?_⟩
    cases hrestarts : restarts room.id (s, .inr op) with
    | true =>
        rw [hold.restart hrestarts, hold.board, hsame]
        exact hnew
    | false =>
        cases hevent : roomEvent room.id (s, .inr op) with
        | none =>
            rw [hold.still hrestarts hevent]
            exact hreach
        | some e => exact handle_reachable hreach (hold.event hrestarts e hevent)
  · rw [hfresh.board, hfresh.game]
    exact ⟨rfl, hnew⟩

/-- A room can always be ticked. -/
theorem Playing.tickRoom_ok (h : Playing config s) (roomId : RoomId) (elapsed : Int) :
    ∃ s', s.tickRoom config roomId elapsed = .ok s' := by
  cases hroom : s.rooms.findRoom roomId with
  | none => exact ⟨s, by rw [tickRoom, hroom]⟩
  | some room =>
      have hclock := addClock_eq (h room (findRoom_some hroom).1).2.inv elapsed
      have hticked : room.game.tick elapsed = .ok ⟨room.game.state.advance elapsed⟩ := by
        rw [Match.tick, hclock, ok_bind, pure_eq_ok]
      exact ⟨_, by rw [tickRoom, hroom]; dsimp only; rw [hticked]; rfl⟩

/-- The inputs of a room can always be played. -/
theorem Playing.playRoomInputs_ok (h : Playing config s) (roomId : RoomId) :
    ∃ winner s', s.playRoomInputs roomId = .ok (winner, s') := by
  cases hroom : s.rooms.findRoom roomId with
  | none => exact ⟨none, s, by rw [playRoomInputs, hroom]⟩
  | some room =>
      obtain ⟨game, winner, hplayed, -⟩ :=
        applyRoomInputs_inv (h room (findRoom_some hroom).1).2.inv (s.pollRoomInputs room).1
      exact ⟨winner, _, by rw [playRoomInputs, hroom]; dsimp only; rw [hplayed]; rfl⟩

/-! ### Profiles -/

/-- A player can be let go: his session, if it is there, has a user. -/
def CanLeave (s : Server) (player : GamePlayer) : Prop :=
  ∀ x ∈ s.data, x.id = player.playerId → x.hasUser = true

theorem FinishedPlayerState.release_hasUser (player : FinishedPlayerState) {x : SessionData} (h : x.hasUser = true) :
    (player.release x).hasUser = true := by
  unfold FinishedPlayerState.release
  cases player.profile with
  | some profile => rfl
  | none => exact h

theorem FinishedPlayerState.leave_hasUser (player : FinishedPlayerState) {x : SessionData} (h : x.hasUser = true) :
    (player.leave x).hasUser = true := by
  unfold FinishedPlayerState.leave
  split
  · exact player.release_hasUser h
  · exact h

theorem cleanupFinishedPlayer_fault {player : FinishedPlayerState} {fault : ServerFault}
    (h : s.cleanupFinishedPlayer player = .error fault) : fault = .noProfile ∧
      ∃ x ∈ s.data, x.id = player.playerId ∧ x.hasUser = false := by
  unfold cleanupFinishedPlayer at h
  cases hfind : s.findSession player.playerId with
  | none =>
      rw [hfind] at h
      cases h
  | some session =>
      rw [hfind] at h
      dsimp only at h
      split at h
      · cases h
      · rename_i hname
        cases h
        obtain ⟨hmem, hid⟩ := data_of_findSession hfind
        refine ⟨rfl, session.toSessionData, hmem, hid, ?_⟩
        rw [← Bool.not_eq_true]
        intro huser
        obtain ⟨user, huser⟩ := Option.isSome_iff_exists.mp (player.release_hasUser huser)
        rw [SessionData.username, huser] at hname
        cases hname

theorem cleanupFinishedRoom_fault {white black : GamePlayer} {fault : ServerFault}
    (h : s.cleanupFinishedRoom roomId white black = .error fault) :
    fault = .noProfile ∧ ¬(CanLeave s white ∧ CanLeave s black) := by
  unfold cleanupFinishedRoom at h
  rcases bind_eq_error.mp h with hwhite | ⟨released, hwhite, hblack⟩
  · obtain ⟨rfl, x, hx, hid, hno⟩ := cleanupFinishedPlayer_fault hwhite
    refine ⟨rfl, fun hleave => ?_⟩
    have hyes := hleave.1 x hx hid
    rw [hno] at hyes
    cases hyes
  · obtain ⟨rfl, x, hx, hid, hno⟩ := cleanupFinishedPlayer_fault hblack
    refine ⟨rfl, fun hleave => ?_⟩
    obtain ⟨online, hbare, -⟩ := cleanupFinishedPlayer_ok hwhite
    rw [data_eq_of_bare hbare] at hx
    change x ∈ (s.mapData (s.buildFinishedPlayerState white).leave).data at hx
    rw [data_mapData] at hx
    obtain ⟨y, hy, rfl⟩ := List.mem_map.mp hx
    rw [FinishedPlayerState.leave_id] at hid
    have hyes := FinishedPlayerState.leave_hasUser (s.buildFinishedPlayerState white) (hleave.2 y hy hid)
    rw [hno] at hyes
    cases hyes

/-- The only fault of a finish, and where it comes from. -/
theorem finish_fault {winner : Option PieceColor} {reason : FinishReason} {fault : ServerFault}
    (h : s.finish config roomId winner reason = .error fault) : fault = .noProfile ∧
      ∃ room white black, Ends s roomId room white black ∧ ¬(CanLeave s white ∧ CanLeave s black) := by
  unfold finish at h
  cases hroom : s.rooms.findRoom roomId with
  | none =>
      rw [hroom] at h
      cases h
  | some room =>
      rw [hroom] at h
      dsimp only at h
      split at h
      · rename_i white black hwhite hblack
        have hdata : (recordAndNotify config s room white black winner reason).data = s.data :=
          (data_eq_of_bare (recordAndNotify_bare config s room white black winner reason)).trans rfl
        obtain ⟨hfault, hleave⟩ :=
          cleanupFinishedRoom_fault (s := recordAndNotify config s room white black winner reason) h
        unfold CanLeave at hleave
        rw [hdata] at hleave
        exact ⟨hfault, room, white, black, ⟨hroom, hwhite, hblack⟩, hleave⟩
      · cases h

/-- No operation fails but for the profile of a player of a room. -/
theorem Playing.fault (h : Playing config s) {op : ServerOp} {fault : ServerFault}
    (happly : s.apply config op = .error fault) : fault = .noProfile ∧ ∃ room ∈ s.rooms.rooms, ∃ white black,
      room.whitePlayer = some white ∧ room.blackPlayer = some black ∧ ¬(CanLeave s white ∧ CanLeave s black) := by
  cases op with
  | tickRoom roomId elapsed =>
      obtain ⟨s', hs'⟩ := h.tickRoom_ok roomId elapsed
      change (s.tickRoom config roomId elapsed).map _ = _ at happly
      rw [hs'] at happly
      cases happly
  | playRoomInputs roomId =>
      obtain ⟨winner, s', hs'⟩ := h.playRoomInputs_ok roomId
      cases hs'.symm.trans happly
  | finish roomId winner reason =>
      change (s.finish config roomId winner reason).map _ = _ at happly
      cases hfinish : s.finish config roomId winner reason with
      | ok s' =>
          rw [hfinish] at happly
          cases happly
      | error fault' =>
          rw [hfinish] at happly
          cases happly
          obtain ⟨hfault, room, white, black, hends, hstuck⟩ := finish_fault hfinish
          exact ⟨hfault, room, (findRoom_some hends.find).1, white, black, hends.white, hends.black, hstuck⟩
  | acceptNewClients => cases happly
  | lobby id => cases happly
  | processTimeouts => cases happly
  | pruneDisconnected => cases happly
  | prune id => cases happly
  | join id => cases happly
  | allocate request => cases happly
  | readClock => cases happly
  | probeRoom id => cases happly
  | removeInactiveRooms => cases happly

/-! ### The monolith -/

/-- The players of the rooms are sessions that have logged in, as long as they are there. -/
def PlayersKnown (s : Server) : Prop :=
  ∀ room ∈ s.rooms.rooms, ∀ side player, room.playerOf side = some player →
    player.playerId < s.nextSessionId ∧ CanLeave s player

/-- Rooms get no new players, and sessions keep their users. -/
theorem PlayersKnown.of_old (h : PlayersKnown s) (hnext : s.nextSessionId ≤ t.nextSessionId)
    (hrooms : ∀ room ∈ t.rooms.rooms, ∀ side player, room.playerOf side = some player →
      ∃ old ∈ s.rooms.rooms, old.playerOf side = some player)
    (hdata : ∀ x ∈ t.data, x.id < s.nextSessionId → ∃ y ∈ s.data, y.id = x.id ∧ (y.hasUser = true → x.hasUser = true)) :
    PlayersKnown t := by
  intro room hroom side player hplayer
  obtain ⟨old, hold, hplayer⟩ := hrooms room hroom side player hplayer
  obtain ⟨hlt, hleave⟩ := h old hold side player hplayer
  refine ⟨Nat.lt_of_lt_of_le hlt hnext, fun x hx hid => ?_⟩
  obtain ⟨y, hy, hyid, huser⟩ := hdata x hx (hid ▸ hlt)
  exact huser (hleave y hy (hyid.trans hid))

theorem PlayersKnown.of_map (h : PlayersKnown s) (hnext : t.nextSessionId = s.nextSessionId)
    (hrooms : ∀ room ∈ t.rooms.rooms, ∀ side player, room.playerOf side = some player →
      ∃ old ∈ s.rooms.rooms, old.playerOf side = some player)
    {f : SessionData → SessionData} (hdata : t.data = s.data.map f) (hid : ∀ x, (f x).id = x.id)
    (huser : ∀ x, x.hasUser = true → (f x).hasUser = true) : PlayersKnown t := by
  refine h.of_old hnext.ge hrooms fun x hx _ => ?_
  rw [hdata] at hx
  obtain ⟨y, hy, rfl⟩ := List.mem_map.mp hx
  exact ⟨y, hy, (hid y).symm, huser y⟩

theorem PlayersKnown.of_rooms (h : PlayersKnown s) (hnext : t.nextSessionId = s.nextSessionId)
    (hrooms : ∀ room ∈ t.rooms.rooms, ∀ side player, room.playerOf side = some player →
      ∃ old ∈ s.rooms.rooms, old.playerOf side = some player) (hdata : t.data = s.data) : PlayersKnown t := by
  refine h.of_old hnext.ge hrooms fun x hx _ => ?_
  rw [hdata] at hx
  exact ⟨x, hx, rfl, fun huser => huser⟩

/-- The session that a room binds to a user who is there. -/
theorem playerIdOf_known (hwf : Wf s) {x : SessionData} (hx : x ∈ s.data) {user : SessionUser}
    (huser : x.user = some user) :
    s.playerIdOf user.userId < s.nextSessionId ∧ ∀ y ∈ s.data, y.id = s.playerIdOf user.userId → y.hasUser = true := by
  rw [playerIdOf_eq]
  cases hfind : s.data.find? fun x => x.userId == some user.userId with
  | none =>
      have hnone := List.find?_eq_none.mp hfind x hx
      rw [SessionData.userId, huser] at hnone
      exact absurd (beq_self_eq_true _) hnone
  | some z =>
      have hz := List.mem_of_find?_eq_some hfind
      refine ⟨hwf.oldSessions _ (mem_sessionIds hz), fun y hy hid => ?_⟩
      rw [hwf.eq_of_id hy hz hid]
      have hfound := List.find?_some hfind
      cases hzuser : z.user with
      | none =>
          rw [SessionData.userId, hzuser] at hfound
          cases hfound
      | some _ =>
          rw [SessionData.hasUser, hzuser]
          rfl

theorem PlayersKnown.searching (h : PlayersKnown s) (id : PlayerId) (waiting : List WaitingEntry) :
    PlayersKnown (s.searching id waiting) := by
  refine h.of_map rfl (fun room hroom _ _ hplayer => ⟨room, hroom, hplayer⟩) (data_searching s id waiting) ?_ ?_
  · intro x
    split
    · exact x.requestPlay_id
    · rfl
  · intro x huser
    split
    · rw [SessionData.hasUser, x.requestPlay_user]
      exact huser
    · exact huser

theorem hasUser_taken (white black : PlayerId) (roomId : RoomId) (x : SessionData) :
    (taken white black roomId x).hasUser = x.hasUser := by
  unfold taken playSide
  split
  · rfl
  · split
    · rfl
    · rfl

/-- A match is made between sessions that are there. -/
theorem PlayersKnown.matched (h : PlayersKnown s) (hwf : Wf s) {white black : PlayerId} {x y : SessionData}
    (hx : x ∈ s.data) (hy : y ∈ s.data) {whiteUser blackUser : SessionUser} (hwhite : y.user = some whiteUser)
    (hblack : x.user = some blackUser) : PlayersKnown (matched config s white black whiteUser blackUser) := by
  have hdata : (Server.matched config s white black whiteUser blackUser).data =
      s.data.map (taken white black s.rooms.nextId) := data_matched s white black whiteUser blackUser
  have hleave : ∀ player : GamePlayer, (∀ z ∈ s.data, z.id = player.playerId → z.hasUser = true) →
      CanLeave (Server.matched config s white black whiteUser blackUser) player := by
    intro player hknown z hz hid
    rw [hdata] at hz
    obtain ⟨w, hw, rfl⟩ := List.mem_map.mp hz
    rw [hasUser_taken]
    exact hknown w hw ((taken_id ..).symm.trans hid)
  intro room hroom side player hplayer
  rcases List.mem_append.mp hroom with hold | hnew
  · obtain ⟨hlt, hknown⟩ := h room hold side player hplayer
    exact ⟨hlt, hleave player hknown⟩
  · rw [List.mem_singleton.mp hnew] at hplayer
    cases side with
    | white =>
        cases hplayer
        obtain ⟨hlt, hknown⟩ := playerIdOf_known hwf hy hwhite
        exact ⟨hlt, hleave _ hknown⟩
    | black =>
        cases hplayer
        obtain ⟨hlt, hknown⟩ := playerIdOf_known hwf hx hblack
        exact ⟨hlt, hleave _ hknown⟩

theorem PlayersKnown.lobbyStep {id : PlayerId} (h : PlayersKnown s) (hwf : Wf s) (hstep : LobbyStep config s id t) :
    PlayersKnown t := by
  cases hstep with
  | idle => exact h
  | @login x message request player users _ _ _ _ _ _ _ _ =>
      have hdata := data_loggedIn s id player users
      have hsame : (s.loggedIn id player users).rooms = s.rooms ∧
          (s.loggedIn id player users).nextSessionId = s.nextSessionId := by
        rw [loggedIn, registerSession_eq]
        exact ⟨rfl, rfl⟩
      refine h.of_map hsame.2 ?_ hdata ?_ ?_
      · rw [hsame.1]
        exact fun room hroom _ _ hplayer => ⟨room, hroom, hplayer⟩
      · intro x
        split
        · rfl
        · rfl
      · intro x huser
        split
        · rfl
        · exact huser
  | wait _ _ => exact h.searching _ _
  | @pair x y before after entry whiteUser blackUser asks hid waits chosen partner hpartner white black =>
      have hsearching := data_searching s id (before ++ after)
      have hmem : ∀ z ∈ s.data, ∃ z' ∈ (s.searching id (before ++ after)).data, z'.user = z.user := by
        intro z hz
        rw [hsearching]
        refine ⟨_, List.mem_map_of_mem hz, ?_⟩
        split
        · exact z.requestPlay_user
        · rfl
      obtain ⟨x', hx', hxuser⟩ := hmem x asks.mem
      obtain ⟨y', hy', hyuser⟩ := hmem y partner
      have hwf' : Wf (s.searching id (before ++ after)) := by
        refine hwf.of_sessions (sessionIds_map hsearching ?_) rfl rfl
        intro z
        split
        · exact z.requestPlay_id
        · rfl
      exact (h.searching id _).matched hwf' hx' hy' (hyuser.trans white) (hxuser.trans black)

/-- Only a request from outside makes a room for players who are not there. -/
theorem PlayersKnown.step (h : PlayersKnown s) (hwf : Wf s) {op : ServerOp} (hop : ∀ request, op ≠ .allocate request)
    (hstep : OpStep config s op t) : PlayersKnown t := by
  have hsame : ∀ room ∈ s.rooms.rooms, ∀ side player, room.playerOf side = some player →
      ∃ old ∈ s.rooms.rooms, old.playerOf side = some player := fun room hroom _ _ hplayer => ⟨room, hroom, hplayer⟩
  have hmodify : ∀ roomId (f : Room → Room), (∀ room side player, (f room).playerOf side = some player →
      room.playerOf side = some player) → ∀ room ∈ (s.rooms.modifyRoom roomId f).rooms, ∀ side player,
      room.playerOf side = some player → ∃ old ∈ s.rooms.rooms, old.playerOf side = some player := by
    intro roomId f hf room hroom side player hplayer
    obtain ⟨old, hold, rfl⟩ := mem_modifyRoom hroom
    refine ⟨old, hold, ?_⟩
    split at hplayer
    · exact hf old side player hplayer
    · exact hplayer
  have hplayed : ∀ (game : Match) (room : Room) side player,
      ({ room with game } : Room).playerOf side = some player → room.playerOf side = some player := by
    intro game room side player hplayer
    cases side <;> exact hplayer
  cases hstep with
  | idle _ _ => exact h
  | accept backlog _ _ =>
      refine h.of_old (Nat.le_succ _) hsame fun x hx hlt => ?_
      rw [data_accepted] at hx
      rcases List.mem_append.mp hx with hold | hnew
      · exact ⟨x, hold, rfl, fun huser => huser⟩
      · rw [List.mem_singleton.mp hnew] at hlt
        exact absurd hlt (Nat.lt_irrefl _)
  | lobby hlobby => exact h.lobbyStep hwf hlobby
  | timeouts =>
      refine h.of_map rfl hsame (data_timedOut config s) (cancelSearches_id _) fun x huser => ?_
      rw [SessionData.hasUser, cancelSearches_user]
      exact huser
  | @prune x _ =>
      refine h.of_old le_rfl hsame fun y hy _ => ?_
      rw [data_pruned] at hy
      exact ⟨y, List.mem_of_mem_filter hy, rfl, fun huser => huser⟩
  | @join x roomId side _ =>
      refine h.of_map rfl hsame (data_modifyData s x.id (playSide roomId side)) ?_ ?_
      · intro y
        split
        · rfl
        · rfl
      · intro y huser
        split
        · exact huser
        · exact huser
  | allocate request _ => exact absurd rfl (hop request)
  | tick _ _ => exact h.of_rooms rfl (hmodify _ _ (hplayed _)) rfl
  | inputs _ _ => exact h.of_rooms rfl (hmodify _ _ (hplayed _)) rfl
  | @finish roomId winner reason room white black online _ _ =>
      refine h.of_map rfl (hmodify roomId (·.reset) ?_) (data_finished s roomId room white black winner reason online) ?_ ?_
      · intro room side player hplayer
        cases side <;> cases hplayer
      · intro x
        rw [Function.comp_apply, FinishedPlayerState.leave_id, FinishedPlayerState.leave_id]
      · intro x huser
        exact FinishedPlayerState.leave_hasUser _ (FinishedPlayerState.leave_hasUser _ huser)
  | removeInactive =>
      exact h.of_rooms rfl (fun room hroom _ _ hplayer => ⟨room, List.mem_of_mem_filter hroom, hplayer⟩) rfl

theorem PlayersKnown.of_bare (h : PlayersKnown s) (hbare : s'.bare = s.bare) : PlayersKnown s' := by
  have hrest := eq_of_bare hbare
  refine h.of_rooms (by rw [hrest]) ?_ (data_eq_of_bare hbare)
  rw [hrest]
  exact fun room hroom _ _ hplayer => ⟨room, hroom, hplayer⟩

/-! ### Runs -/

section Turns

variable {C D : Server → NetEvent ⊕ ServerOp → Prop} {I : Server → Prop}

/-- What the runtime asks for. The lobby and its timeouts are the gateway's, and a room is asked for from outside. -/
def OfRuntime : ServerOp → Prop
  | .lobby _ | .processTimeouts | .allocate _ => False
  | _ => True

theorem runtimeTick_keeps (managesConnections : Bool) (hstable : Stable C I)
    (hkeeps : ∀ op, OfRuntime op → Keeps config C D I op) (h : I s) :
    (runtimeTick config managesConnections).wp C D (fun _ s' => I s') s := by
  refine runtimeTick_wp (J := fun _ _ => I) hstable (fun _ => hkeeps _ trivial) (fun _ => hkeeps _ trivial) ?_ ?_
    (fun _ _ h => h) (hkeeps _ trivial) (fun _ => hkeeps _ trivial) (fun _ _ => hkeeps _ trivial) h
  · exact fun s h => ⟨(hkeeps .readClock trivial s h).1, fun _ => h⟩
  · intro elapsed roomId rest s h
    exact processRoom_keeps hstable (hkeeps _ trivial) (hkeeps _ trivial) (hkeeps _ trivial)
      (fun _ _ => hkeeps _ trivial) h

/-- What everything keeps but a request for a room, a turn of the gateway keeps. -/
theorem gatewayTick_keeps (hstable : Stable C I)
    (hkeeps : ∀ op, (∀ request, op ≠ .allocate request) → Keeps config C D I op) (h : I s) :
    (gatewayTick config).wp C D (fun _ s' => I s') s :=
  gatewayTick_wp hstable (hkeeps _ (by simp)) (fun _ => hkeeps _ (by simp)) (hkeeps _ (by simp)) (hkeeps _ (by simp))
    (fun _ => hkeeps _ (by simp)) h

end Turns

/-- If the operation fails, it is with such a fault. -/
def FailsOnlyWith (config : ServerConfig) (K : ServerFault → Prop) (s : Server) : NetEvent ⊕ ServerOp → Prop
  | .inl _ => True
  | .inr op => ∀ fault, s.apply config op = .error fault → K fault

/-- The invariant of every run. -/
def Sound (config : ServerConfig) (s : Server) : Prop := Wf s ∧ Playing config s

theorem Sound.boot (config : ServerConfig) (users : UserRepository) (games : GameRepository) (now : Nat) :
    Sound config (boot users games now) := ⟨.boot users games now, fun _ hroom => absurd hroom List.not_mem_nil⟩

theorem Sound.occur (h : Sound config s) (event : NetEvent) : Sound config (s.occur event) := by
  obtain ⟨hwf, hplaying⟩ := h
  refine ⟨hwf.occur event, ?_⟩
  rw [Playing, occur_rooms]
  exact hplaying

theorem Sound.keeps (hboard : AcceptedBoard config.defaultBoard) (op : ServerOp) :
    Keeps config (fun _ _ => True) (FailsOnlyWith config (· = .noProfile)) (Sound config) op := by
  intro s h
  obtain ⟨hwf, hplaying⟩ := h
  refine ⟨fun fault happly => (hplaying.fault happly).1, fun r s' _ happly => ?_⟩
  exact ⟨hwf.apply happly, hplaying.apply hwf hboard happly⟩

theorem serve_sound (hboard : AcceptedBoard config.defaultBoard) (calls : List ServerCall) (h : Sound config s) :
    (serve config calls).wp (fun _ _ => True) (FailsOnlyWith config (· = .noProfile)) (fun _ s' => Sound config s') s := by
  have hstable : Stable (fun _ _ => True) (Sound config) := fun _ event h _ => h.occur event
  exact serve_wp hstable (fun _ h => gatewayTick_keeps hstable (fun op _ => Sound.keeps hboard op) h)
    (fun managesConnections _ h => runtimeTick_keeps managesConnections hstable (fun op _ => Sound.keeps hboard op) h)
    (fun _ => Sound.keeps hboard _) (fun _ _ _ => Sound.keeps hboard _) calls h

/-- The invariant of the runs of the monolith. -/
def Monolith (config : ServerConfig) (s : Server) : Prop := Sound config s ∧ PlayersKnown s

theorem Monolith.occur (h : Monolith config s) (event : NetEvent) : Monolith config (s.occur event) := by
  obtain ⟨hsound, hknown⟩ := h
  refine ⟨hsound.occur event, PlayersKnown.of_bare ?_ (occur_bare s event)⟩
  exact hknown.of_rooms rfl (fun room hroom _ _ hplayer => ⟨room, hroom, hplayer⟩) rfl

theorem Monolith.keeps (hboard : AcceptedBoard config.defaultBoard) (op : ServerOp)
    (hop : ∀ request, op ≠ .allocate request) :
    Keeps config (fun _ _ => True) (FailsOnlyWith config fun _ => False) (Monolith config) op := by
  intro s h
  obtain ⟨⟨hwf, hplaying⟩, hknown⟩ := h
  refine ⟨fun fault happly => ?_, fun r s' _ happly => ?_⟩
  · obtain ⟨-, room, hroom, white, black, hwhite, hblack, hstuck⟩ := hplaying.fault happly
    exact hstuck ⟨(hknown room hroom .white white hwhite).2, (hknown room hroom .black black hblack).2⟩
  · obtain ⟨t, hstep, hsame⟩ := apply_step hwf.nextRoomFree happly
    exact ⟨⟨hwf.apply happly, hplaying.apply hwf hboard happly⟩, (hknown.step hwf hop hstep).of_bare hsame⟩

theorem serve_monolith (hboard : AcceptedBoard config.defaultBoard) (turns : Nat) (h : Monolith config s) :
    (serve config (List.replicate turns .gameServerTick)).wp (fun _ _ => True) (FailsOnlyWith config fun _ => False)
      (fun _ s' => Monolith config s') s := by
  have hstable : Stable (fun _ _ => True) (Monolith config) := fun _ event h _ => h.occur event
  have hruntime : ∀ op, OfRuntime op →
      Keeps config (fun _ _ => True) (FailsOnlyWith config fun _ => False) (Monolith config) op := by
    intro op hop
    refine Monolith.keeps hboard op fun request hrequest => ?_
    rwa [hrequest] at hop
  refine Prog.wp_mono (forM_wp (J := fun rest s => Monolith config s ∧ ∀ call ∈ rest, call = ServerCall.gameServerTick) ?_
    ⟨h, fun _ => List.eq_of_mem_replicate⟩) fun _ _ h => h.1
  intro call rest s h
  obtain ⟨hmonolith, hcalls⟩ := h
  obtain rfl := hcalls call List.mem_cons_self
  refine Prog.wp_bind (Prog.wp_mono (gatewayTick_keeps hstable (Monolith.keeps hboard) hmonolith) fun _ s h => ?_)
  refine Prog.wp_mono (runtimeTick_keeps false hstable hruntime h) fun _ s h => ?_
  exact ⟨h, fun call hcall => hcalls call (List.mem_cons_of_mem _ hcall)⟩

end Server

end KungFuChess
