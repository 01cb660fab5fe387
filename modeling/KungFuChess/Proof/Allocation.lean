import KungFuChess.Proof.Endings

/-!
# Rooms that wait for their players

A game server on its own is asked for a room before either player has connected, and no message that it reads
gives a session a user. So both players of a room are bound to the id 0, and whether they are there is asked of
whoever has that id. As long as a client holds it every room waits; without one, the next tick finishes every
room as if both players had been there and gone.
-/

namespace KungFuChess

open Machine Loops

/-! ### Games that nobody plays -/

/-- Nothing moves, and nothing has been decided. -/
structure Match.Untouched (m : Match) : Prop where
  moves : m.state.pendingMoves = []
  jumps : m.state.activeJumps = []
  going : m.isGameOver = false

namespace Match.Untouched

theorem new (board : BoardModel) : (Match.new board).Untouched := ⟨rfl, rfl, rfl⟩

/-- Time changes nothing but the clock and the rests. -/
theorem tick {m m' : Match} {ms : Int} (h : m.Untouched) (hm : m.tick ms = .ok m') : m'.Untouched := by
  obtain ⟨state, hstate, hrest⟩ := bind_eq_ok.mp hm
  cases hrest
  obtain ⟨⟨arbiter, board, gameOver⟩, hsettled, hrest⟩ := bind_eq_ok.mp hstate
  cases hrest
  obtain ⟨hmoves, hjumps, hgoing⟩ := h
  unfold GameState.pendingMoves at hmoves
  unfold GameState.activeJumps at hjumps
  unfold RealTimeArbiter.updateTime RealTimeArbiter.settlePendingMoves at hsettled
  simp only [hmoves, hjumps, MoveScheduler.forEachPendingDue, MoveScheduler.expireJumps, Loops.drain] at hsettled
  cases hsettled
  exact ⟨rfl, rfl, hgoing⟩

end Match.Untouched

namespace Server

variable {config : ServerConfig} {s s' t : Server} {roomId : RoomId}

/-! ### The session with the id 0 -/

/-- A session has the id 0, and a look at its link leaves it open. -/
def ZeroStays (s : Server) : Prop := (s.findSession 0).any (·.connection.detectPeerDisconnect.isOpen)

/-- A room is looked at only while a session with the id 0 is there. -/
def KeepsZero (s : Server) : NetEvent ⊕ ServerOp → Prop
  | .inr (.probeRoom _) => s.ZeroStays
  | _ => True

instance (s : Server) : DecidablePred (KeepsZero s)
  | .inr (.probeRoom _) => inferInstanceAs (Decidable ((s.findSession 0).any _ = true))
  | .inl _ | .inr .acceptNewClients | .inr (.lobby _) | .inr .processTimeouts | .inr .pruneDisconnected
  | .inr (.prune _) | .inr (.join _) | .inr (.allocate _) | .inr .readClock | .inr (.tickRoom _ _)
  | .inr (.playRoomInputs _) | .inr (.finish _ _ _) | .inr .removeInactiveRooms => isTrue trivial

theorem isOpen_of_detectPeerDisconnect {connection : ClientConnection}
    (h : connection.detectPeerDisconnect.isOpen = true) :
    connection.detectPeerDisconnect = connection ∧ connection.isOpen = true := by
  unfold ClientConnection.detectPeerDisconnect at h ⊢
  by_cases hopen : connection.isOpen = true
  · simp only [hopen, Bool.not_true, Bool.false_eq_true, if_false] at h ⊢
    cases hlink : connection.link with
    | up => simp
    | unwritable => simp
    | failed => simp [hlink, ClientConnection.close] at h
    | ended =>
        rw [hlink] at h
        dsimp only at h ⊢
        by_cases hempty : connection.pending.isEmpty = true
        · simp [hempty, ClientConnection.close] at h
        · simp [hempty]
  · simp [hopen] at h

theorem ZeroStays.isPlayerConnected (h : s.ZeroStays) : s.isPlayerConnected 0 = true := by
  obtain ⟨x, hx, hstays⟩ := (Option.any_eq_true _ _).mp h
  exact (Option.any_eq_true _ _).mpr ⟨x, hx, (isOpen_of_detectPeerDisconnect hstays).2⟩

theorem ZeroStays.probe (h : s.ZeroStays) (id : PlayerId) : (s.probe id).ZeroStays := by
  obtain ⟨x, hx, hstays⟩ := (Option.any_eq_true _ _).mp h
  unfold ZeroStays Server.probe
  rw [findSession_modifyConnection, hx, Option.map_some]
  refine (Option.any_eq_true _ _).mpr ⟨_, rfl, ?_⟩
  split
  · rw [(isOpen_of_detectPeerDisconnect hstays).1]
    exact hstays
  · exact hstays

theorem ZeroStays.probeRoom (h : s.ZeroStays) (roomId : RoomId) : (s.probeRoom roomId).ZeroStays := by
  unfold Server.probeRoom
  cases s.rooms.findRoom roomId with
  | none => exact h
  | some room =>
      dsimp only
      cases room.whitePlayer with
      | none =>
          cases room.blackPlayer with
          | none => exact h
          | some black => exact h.probe _
      | some white =>
          cases room.blackPlayer with
          | none => exact h.probe _
          | some black => exact (h.probe _).probe _

/-! ### A server without users -/

/-- A room that has been made for two users who are not there. -/
structure Waits (room : Room) : Prop where
  active : room.active = true
  players : ∀ side, ∃ userId, room.playerOf side = some ⟨userId, side, 0⟩
  game : room.game.Untouched

/-- Nobody has logged in, nobody plays, and every room waits. -/
structure Unattended (s : Server) : Prop where
  wf : Wf s
  users : ∀ x ∈ s.data, x.user = none
  states : ∀ x ∈ s.data, x.state ≠ .playing
  rooms : ∀ room ∈ s.rooms.rooms, Waits room

/-- What a game server on its own does, short of finishing a room. -/
def Alone : ServerOp → Prop
  | .lobby _ | .processTimeouts | .finish _ _ _ => False
  | _ => True

theorem Waits.withGame {room : Room} (h : Waits room) {game : Match} (hgame : game.Untouched) :
    Waits { room with game } := by
  refine ⟨h.active, ?_, hgame⟩
  intro side
  obtain ⟨userId, hplayer⟩ := h.players side
  cases side <;> exact ⟨userId, hplayer⟩

namespace Unattended

theorem congr (h : Unattended s) (hbare : s'.bare = s.bare) : Unattended s' := by
  have hdata := data_eq_of_bare hbare
  refine ⟨h.wf.congr hbare, by rw [hdata]; exact h.users, by rw [hdata]; exact h.states, ?_⟩
  rw [eq_of_bare hbare]
  exact h.rooms

theorem occur (h : Unattended s) (event : NetEvent) : Unattended (s.occur event) := by
  refine Unattended.congr ?_ (occur_bare s event)
  exact ⟨⟨h.wf.sessions, h.wf.oldSessions, h.wf.rooms, h.wf.oldRooms, h.wf.manned⟩, h.users, h.states, h.rooms⟩

/-- A user without a session is bound to the id 0. -/
theorem playerIdOf (h : Unattended s) (userId : UserId) : s.playerIdOf userId = 0 := by
  rw [playerIdOf_eq, List.find?_eq_none.mpr]
  · rfl
  · intro x hx
    rw [SessionData.userId, h.users x hx]
    simp

/-- Nobody plays, so nothing is read. -/
theorem pollPlayerInput (h : Unattended s) (room : Room) (player : GamePlayer) :
    s.pollPlayerInput room player = ([], s) := by
  unfold Server.pollPlayerInput
  cases hx : s.findSession player.playerId with
  | none => rfl
  | some x =>
      dsimp only
      rw [if_pos (Or.inl (h.states x.toSessionData (data_of_findSession hx).1))]

theorem pollRoomInputs (h : Unattended s) (room : Room) : s.pollRoomInputs room = ([], s) := by
  unfold Server.pollRoomInputs
  cases room.whitePlayer with
  | none =>
      cases room.blackPlayer with
      | none => rfl
      | some black => exact h.pollPlayerInput room black
  | some white =>
      cases room.blackPlayer with
      | none => exact h.pollPlayerInput room white
      | some black =>
          dsimp only
          rw [h.pollPlayerInput room white, h.pollPlayerInput room black]
          rfl

/-- One of the rooms gets a game, in which nothing has happened either. -/
theorem withGame (h : Unattended s) {game : Match} (hgame : game.Untouched) :
    ∀ room ∈ (s.rooms.modifyRoom roomId ({ · with game })).rooms, Waits room := by
  intro room hroom
  obtain ⟨old, hold, rfl⟩ := mem_modifyRoom hroom
  split
  · exact (h.rooms old hold).withGame hgame
  · exact h.rooms old hold

theorem step (h : Unattended s) {op : ServerOp} (hop : Alone op) (hstep : OpStep config s op t) : Unattended t := by
  have hwf := h.wf.step hstep
  cases hstep with
  | idle _ => exact h
  | accept backlog _ _ =>
      refine ⟨hwf, ?_, ?_, h.rooms⟩
      · rw [data_accepted]
        intro x hx
        rcases List.mem_append.mp hx with hx | hx
        · exact h.users x hx
        · rw [List.mem_singleton.mp hx]
      · rw [data_accepted]
        intro x hx
        rcases List.mem_append.mp hx with hx | hx
        · exact h.states x hx
        · rw [List.mem_singleton.mp hx]
          simp
  | prune _ =>
      refine ⟨hwf, ?_, ?_, h.rooms⟩
      · rw [data_pruned]
        exact fun x hx => h.users x (List.mem_of_mem_filter hx)
      · rw [data_pruned]
        exact fun x hx => h.states x (List.mem_of_mem_filter hx)
  | join hmay =>
      obtain ⟨room, player, -, huser⟩ := hmay.plays
      rw [SessionData.userId, h.users _ hmay.mem] at huser
      cases huser
  | allocate request store =>
      refine ⟨hwf, h.users, h.states, ?_⟩
      intro room hroom
      rcases List.mem_append.mp hroom with hroom | hroom
      · exact h.rooms room hroom
      · rw [List.mem_singleton.mp hroom]
        refine ⟨rfl, ?_, .new _⟩
        intro side
        cases side with
        | white => exact ⟨request.whiteUserId, by rw [← h.playerIdOf request.whiteUserId]; rfl⟩
        | black => exact ⟨request.blackUserId, by rw [← h.playerIdOf request.blackUserId]; rfl⟩
  | tick hfind hticked =>
      obtain ⟨hroom, -⟩ := findRoom_some hfind
      exact ⟨hwf, h.users, h.states, h.withGame ((h.rooms _ hroom).game.tick hticked)⟩
  | inputs hfind hplayed =>
      obtain ⟨hroom, -⟩ := findRoom_some hfind
      rw [h.pollRoomInputs] at hplayed
      cases hplayed
      exact ⟨hwf, h.users, h.states, h.withGame (h.rooms _ hroom).game⟩
  | removeInactive => exact ⟨hwf, h.users, h.states, fun room hroom => h.rooms room (List.mem_of_mem_filter hroom)⟩
  | lobby _ => exact hop.elim
  | timeouts => exact hop.elim
  | finish _ _ => exact hop.elim

end Unattended

/-! ### Ticks of a game server on its own -/

/-- What a game server on its own is asked for. -/
def DoesAlone (_ : Server) : NetEvent ⊕ ServerOp → Prop
  | .inr op => Alone op
  | .inl _ => True

theorem stable_unattended : Stable KeepsZero Unattended := fun _ event h _ => h.occur event

theorem keeps_unattended {op : ServerOp} (hop : Alone op) : Keeps config KeepsZero DoesAlone Unattended op := by
  intro s h
  refine ⟨hop, fun r s' _ happly => ?_⟩
  obtain ⟨t, hstep, hsame⟩ := apply_step h.wf.nextRoomFree happly
  exact (h.step hop hstep).congr hsame

/-- Nobody resigns in a room whose players are not there. -/
theorem playInputs_unattended (h : Unattended s) :
    (playInputs config roomId).wp KeepsZero DoesAlone (fun _ s' => Unattended s') s := by
  refine playInputs_wp h fun _ _ _ => ?_
  refine perform_wp stable_unattended ?_ h
  intro s h
  refine ⟨trivial, fun winner s' hcond happly => ⟨?_, ?_⟩⟩
  · have hkeeps : Keeps config KeepsZero DoesAlone Unattended (.playRoomInputs roomId) := keeps_unattended trivial
    exact (hkeeps s h).2 winner s' hcond happly
  · intro color h
    obtain rfl := h
    rcases playRoomInputs_ok happly with ⟨hnone, -⟩ | ⟨room, game, -, hplayed, -⟩
    · cases hnone
    · rw [h.pollRoomInputs] at hplayed
      cases hplayed

theorem finishIfOver_unattended (h : Unattended s) :
    (finishIfOver config roomId).wp KeepsZero DoesAlone (fun _ s' => Unattended s') s := by
  refine finishIfOver_wp h fun room hroom hover => ?_
  have hgoing := (h.rooms room (findRoom_some hroom).1).game.going
  rw [Room.isGameOver, hgoing] at hover
  cases hover

/-- With a session that has the id 0, no player counts as disconnected. -/
theorem Waits.connected {room : Room} (h : Waits room) (hzero : s.ZeroStays) :
    s.bothRoomPlayersDisconnected room = false ∧ s.disconnectedPlayerColor room = none := by
  obtain ⟨white, hwhite⟩ := h.players .white
  obtain ⟨black, hblack⟩ := h.players .black
  simp only [Room.playerOf] at hwhite hblack
  simp [bothRoomPlayersDisconnected, disconnectedPlayerColor, hwhite, hblack, hzero.isPlayerConnected]

theorem processRoom_unattended (elapsed : Int) (h : Unattended s) :
    (processRoom config elapsed roomId).wp KeepsZero DoesAlone (fun _ s' => Unattended s') s := by
  refine processRoom_wp (J := Unattended) (P := fun s => Unattended s ∧ s.ZeroStays) stable_unattended
    (fun _ h => h) ?_ ?_ ?_ ?_ h
  · intro s h
    exact ⟨trivial, fun hzero => ⟨h.congr (probeRoom_bare s roomId), hzero.probeRoom roomId⟩⟩
  · intro s room hroom h
    obtain ⟨h, hzero⟩ := h
    intro hboth
    rw [((h.rooms room (findRoom_some hroom).1).connected hzero).1] at hboth
    cases hboth
  · intro s room color hroom h
    obtain ⟨h, hzero⟩ := h
    intro hcolor
    rw [((h.rooms room (findRoom_some hroom).1).connected hzero).2] at hcolor
    cases hcolor
  · rintro s room - - ⟨h, -⟩
    exact playRoom_wp h (fun _ => perform_wp stable_unattended (keeps_unattended trivial) h)
      (fun _ h => playInputs_unattended h) (fun _ h => finishIfOver_unattended h)

/-- A turn of a game server on its own, or a request for a room. -/
def Dedicated : ServerCall → Prop
  | .runtimeTick managesConnections => managesConnections = true
  | .allocate _ => True
  | _ => False

theorem serve_unattended {calls : List ServerCall} (hcalls : ∀ call ∈ calls, Dedicated call) (h : Unattended s) :
    (serve config calls).wp KeepsZero DoesAlone (fun _ s' => Unattended s') s := by
  have hrest := forM_wp (C := KeepsZero) (D := DoesAlone)
    (J := fun rest s => Unattended s ∧ ∀ call ∈ rest, Dedicated call) (f := ServerCall.prog config) ?_ ⟨h, hcalls⟩
  · exact Prog.wp_mono hrest fun _ _ h => h.1
  intro call rest s h
  obtain ⟨h, hcalls⟩ := h
  refine Prog.wp_mono (Q := fun _ s' => Unattended s') ?_ fun _ _ h => ⟨h, fun call hcall => hcalls call (.tail _ hcall)⟩
  have hcall := hcalls call List.mem_cons_self
  cases call with
  | runtimeTick managesConnections =>
      exact runtimeTick_wp (J := fun _ _ => Unattended) stable_unattended (fun _ => keeps_unattended trivial)
        (fun _ => keeps_unattended trivial) (fun _ h => ⟨trivial, fun _ => h⟩)
        (fun elapsed _ _ _ h => processRoom_unattended elapsed h) (fun _ _ h => h) (keeps_unattended trivial)
        (fun _ => keeps_unattended trivial) (fun _ _ => keeps_unattended trivial) h
  | allocate request => exact perform_wp stable_unattended (keeps_unattended trivial) h
  | gatewayTick => exact hcall.elim
  | gameServerTick => exact hcall.elim
  | finishRoom _ _ _ => exact hcall.elim

/-! ### Runs -/

/-- The room that a request has made is there and active, with its players and its database game. -/
def StillWaits (made : Server) (request : GameCreationRequest) (s : Server) : Prop :=
  ∃ room ∈ s.rooms.rooms, room.id = made.rooms.nextId ∧ room.active = true ∧
    room.whitePlayer = some ⟨request.whiteUserId, .white, made.playerIdOf request.whiteUserId⟩ ∧
    room.blackPlayer = some ⟨request.blackUserId, .black, made.playerIdOf request.blackUserId⟩ ∧
    room.dbGameId = request.dbGameId

variable {made : Server} {request : GameCreationRequest}

theorem stillWaits_allocated (config : ServerConfig) (s : Server) (request : GameCreationRequest) (store : RuntimeStore) :
    StillWaits s request (allocated config s request store) :=
  ⟨freshRoom config s request, List.mem_append_right _ List.mem_cons_self, rfl, rfl, rfl, rfl, rfl⟩

theorem StillWaits.of_mem (h : StillWaits made request s)
    (hrooms : ∀ room ∈ s.rooms.rooms, room.active = true → room ∈ t.rooms.rooms) : StillWaits made request t := by
  obtain ⟨room, hroom, hid, hactive, hrest⟩ := h
  exact ⟨room, hrooms room hroom hactive, hid, hactive, hrest⟩

theorem StillWaits.withGame (h : StillWaits made request s) {game : Match}
    (hrooms : t.rooms = s.rooms.modifyRoom roomId ({ · with game })) : StillWaits made request t := by
  obtain ⟨room, hroom, hid, hactive, hwhite, hblack, hgame⟩ := h
  refine ⟨if room.id = roomId then { room with game } else room, ?_, ?_⟩
  · rw [hrooms]
    exact List.mem_map_of_mem hroom
  · split
    · exact ⟨hid, hactive, hwhite, hblack, hgame⟩
    · exact ⟨hid, hactive, hwhite, hblack, hgame⟩

theorem StillWaits.step (h : StillWaits made request s) {op : ServerOp} (hop : Alone op)
    (hstep : OpStep config s op t) : StillWaits made request t := by
  cases hstep with
  | idle _ => exact h
  | accept _ _ _ => exact h
  | prune _ => exact h
  | join _ => exact h
  | allocate _ _ => exact h.of_mem fun room hroom _ => List.mem_append_left _ hroom
  | tick _ _ => exact h.withGame rfl
  | inputs _ _ => exact h.withGame rfl
  | removeInactive => exact h.of_mem fun room hroom hactive => List.mem_filter.mpr ⟨hroom, hactive⟩
  | lobby _ => exact hop.elim
  | timeouts => exact hop.elim
  | finish _ _ => exact hop.elim

theorem games_step {op : ServerOp} (hop : Alone op) (hstep : OpStep config s op t) : t.games = s.games := by
  cases hstep with
  | lobby _ => exact hop.elim
  | timeouts => exact hop.elim
  | finish _ _ => exact hop.elim
  | _ => rfl

/-- What a run keeps of the rooms that it makes. -/
structure AllWait (games : GameRepository) (s : Server) (history : History) : Prop where
  games : s.games = games ∧ ∀ x ∈ history, x.1.games = games
  now : ∀ x ∈ history, ∀ request, x.2 = .inr (.allocate request) → StillWaits x.1 request s
  later : history.Pairwise fun x y => ∀ request, x.2 = .inr (.allocate request) → StillWaits x.1 request y.1

theorem AllWait.after {games : GameRepository} {history : History} (h : AllWait games s history)
    {x : NetEvent ⊕ ServerOp} (hgames : t.games = s.games)
    (hnow : ∀ made request, StillWaits made request s → StillWaits made request t)
    (hmade : ∀ request, x = .inr (.allocate request) → StillWaits s request t) :
    AllWait games t (history ++ [(s, x)]) := by
  refine ⟨⟨hgames.trans h.games.1, ?_⟩, ?_, ?_⟩
  · intro y hy
    rcases List.mem_append.mp hy with hy | hy
    · exact h.games.2 y hy
    · rw [List.mem_singleton.mp hy]
      exact h.games.1
  · intro y hy request hrequest
    rcases List.mem_append.mp hy with hy | hy
    · exact hnow _ _ (h.now y hy request hrequest)
    · rw [List.mem_singleton.mp hy] at hrequest ⊢
      exact hmade request hrequest
  · rw [List.pairwise_append]
    refine ⟨h.later, List.pairwise_singleton _ _, ?_⟩
    intro y hy z hz request hrequest
    rw [List.mem_singleton.mp hz]
    exact h.now y hy request hrequest

/-- In every run of a game server on its own, if a client holds the id 0 whenever a room is looked at, then no
room is finished, no database game is closed, and every room that was made waits for its players from then on. -/
theorem rooms_wait_of_run {calls : List ServerCall} (hcalls : ∀ call ∈ calls, Dedicated call) {users : UserRepository}
    {games : GameRepository} {now : Nat} {script : List (List NetEvent)} {w : ServerWorld config}
    (hrun : (serve config calls).run { state := boot users games now, script } = .ok ((), w))
    (hzero : ∀ x ∈ w.history, KeepsZero x.1 x.2) :
    (∀ x ∈ w.history, ∀ roomId winner reason, x.2 ≠ .inr (.finish roomId winner reason)) ∧
    AllWait games w.state w.history := by
  have hstart : Unattended (boot users games now) :=
    ⟨.boot users games now, by simp [boot, data], by simp [boot, data], by simp [boot]⟩
  obtain ⟨-, hhistory⟩ := Prog.run_of_wp (serve_unattended hcalls hstart) hrun hzero
  have halone : ∀ x ∈ w.history, DoesAlone x.1 x.2 := by
    intro x hx
    rcases hhistory x hx with hx | ⟨event, hevent⟩ | halone
    · cases hx
    · rw [hevent]
      trivial
    · exact halone
  refine ⟨?_, ?_⟩
  · intro x hx roomId winner reason hfinish
    have hop := halone x hx
    rw [hfinish] at hop
    exact hop
  refine (invariant (P := AllWait games) (C := DoesAlone) ?_ ?_ ?_ (Leads.of_run hrun) (.boot users games now)
    ⟨⟨rfl, by simp⟩, by simp, List.Pairwise.nil⟩ halone).2
  · intro s s' history hbare h
    rw [eq_of_bare hbare]
    exact ⟨h.games, h.now, h.later⟩
  · intro s history backlog now event h
    exact h.after rfl (fun _ _ h => h) (by simp)
  · intro s history op t _ h halone hstep
    refine h.after (games_step halone hstep) (fun made request h => h.step halone hstep) ?_
    intro request hrequest
    cases hrequest
    cases hstep with
    | allocate request store => exact stillWaits_allocated ..
    | idle _ hunasked => exact absurd rfl (hunasked request)

/-- A client who has nothing to do with the game is the first to connect, and the room waits for three turns. -/
theorem rooms_wait_of_run_stranger :
    ∃ w, (serve sampleConfig (.runtimeTick true :: .allocate ⟨7, 8, some 1⟩ :: List.replicate 3 (.runtimeTick true))).run
        (sampleWorld [[.connect]]) = .ok ((), w) ∧
      (∃ x ∈ w.history, x.2 = .inr (.allocate ⟨7, 8, some 1⟩)) ∧ w.state.rooms.rooms.length = 1 ∧
      AllWait {} w.state w.history := by
  have hrun : (serve sampleConfig (.runtimeTick true :: .allocate ⟨7, 8, some 1⟩ ::
        List.replicate 3 (.runtimeTick true))).reaches (sampleWorld [[.connect]])
      (fun _ w => decide ((∃ x ∈ w.history, x.2 = .inr (.allocate ⟨7, 8, some 1⟩)) ∧
        w.state.rooms.rooms.length = 1 ∧ ∀ x ∈ w.history, KeepsZero x.1 x.2)) = true := by
    decide +kernel
  obtain ⟨_, w, hrun, hw⟩ := Prog.reaches_eq_true hrun
  obtain ⟨hasked, hroom, hzero⟩ := of_decide_eq_true hw
  have hcalls : ∀ call ∈ ServerCall.runtimeTick true :: .allocate ⟨7, 8, some 1⟩ ::
      List.replicate 3 (.runtimeTick true), Dedicated call := by
    simp [Dedicated]
  exact ⟨w, hrun, hasked, hroom, (rooms_wait_of_run hcalls hrun hzero).2⟩

/-- Nobody has connected: the first turn after the allocation finishes the room and closes its game. -/
theorem not_room_waits_without_sessions :
    ∃ w, (serve sampleConfig [.allocate ⟨7, 8, some 1⟩, .runtimeTick true]).run (sampleWorld []) = .ok ((), w) ∧
      (∃ x ∈ w.history, x.2 = .inr (.finish 1 none .disconnect) ∧ ∃ room ∈ x.1.rooms.findRoom 1,
        room.active = true ∧ room.whitePlayer = some ⟨7, .white, 0⟩ ∧ room.blackPlayer = some ⟨8, .black, 0⟩) ∧
      (∀ x ∈ w.history, x.1.sessions = []) ∧ w.state.rooms.rooms.length = 0 ∧
      w.state.journal.countP (closes 1) = 1 := by
  have hrun : (serve sampleConfig [.allocate ⟨7, 8, some 1⟩, .runtimeTick true]).reaches (sampleWorld [])
      (fun _ w => decide ((∃ x ∈ w.history, x.2 = .inr (.finish 1 none .disconnect) ∧
        ∃ room ∈ x.1.rooms.findRoom 1, room.active = true ∧ room.whitePlayer = some ⟨7, .white, 0⟩ ∧
          room.blackPlayer = some ⟨8, .black, 0⟩) ∧
        (∀ x ∈ w.history, x.1.sessions = []) ∧ w.state.rooms.rooms.length = 0 ∧
        w.state.journal.countP (closes 1) = 1)) = true := by
    decide +kernel
  obtain ⟨_, w, hrun, hw⟩ := Prog.reaches_eq_true hrun
  exact ⟨w, hrun, of_decide_eq_true hw⟩

end Server

end KungFuChess
