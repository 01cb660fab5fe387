import KungFuChess.Proof.Saying

/-!
# Strangers

A session becomes somebody by a login alone, and a login is read in the lobby. To everybody else the server says
nothing but that a room cannot be joined. A client that is redirected to the server of its game opens a new connection
there and sends `join_game` over it, so on that server it is a stranger: such a server has no lobby.
-/

namespace KungFuChess

open Machine Loops

namespace Server

variable {config : ServerConfig} {s s' t : Server} {id other : PlayerId} {roomId : RoomId}

/-! ### Who plays in a room -/

/-- Nobody plays in the room through a session with this id. -/
def Without (id : PlayerId) (room : Room) : Prop :=
  ∀ side player, room.playerOf side = some player → player.playerId ≠ id

/-- The session that a room binds a user to: it has a user, or it is the one that stands for none. -/
theorem playerIdOf_cases (s : Server) (userId : UserId) :
    (∃ x ∈ s.data, x.id = s.playerIdOf userId ∧ x.userId = some userId) ∨
      s.playerIdOf userId = 0 ∧ ∀ x ∈ s.data, x.userId ≠ some userId := by
  rw [playerIdOf_eq]
  cases hfind : s.data.find? fun x => x.userId == some userId with
  | none => exact .inr ⟨rfl, fun x hx huser => List.find?_eq_none.mp hfind x hx (beq_iff_eq.mpr huser)⟩
  | some x =>
      have hfound := List.find?_some hfind
      exact .inl ⟨x, List.mem_of_find?_eq_some hfind, rfl, eq_of_beq hfound⟩

/-- A step binds nobody to a room but the sessions of users; those of a match are there. -/
theorem OpStep.players {op : ServerOp} (hstep : OpStep config s op t) : ∀ room ∈ t.rooms.rooms,
    ∀ side player, room.playerOf side = some player →
      (∃ old ∈ s.rooms.rooms, old.playerOf side = some player) ∨
        ∃ userId, player.playerId = s.playerIdOf userId ∧
          ((∃ request, op = .allocate request) ∨ ∃ x ∈ s.data, x.userId = some userId) := by
  have hsame : t.rooms.rooms ⊆ s.rooms.rooms → ∀ room ∈ t.rooms.rooms, ∀ side player,
      room.playerOf side = some player → (∃ old ∈ s.rooms.rooms, old.playerOf side = some player) ∨
        ∃ userId, player.playerId = s.playerIdOf userId ∧
          ((∃ request, op = .allocate request) ∨ ∃ x ∈ s.data, x.userId = some userId) :=
    fun hsubset room hroom _ _ hplayer => .inl ⟨room, hsubset hroom, hplayer⟩
  have hmodify : ∀ roomId (f : Room → Room), (∀ room side player, (f room).playerOf side = some player →
      room.playerOf side = some player) → ∀ room ∈ (s.rooms.modifyRoom roomId f).rooms, ∀ side player,
      room.playerOf side = some player → ∃ old ∈ s.rooms.rooms, old.playerOf side = some player := by
    intro roomId f hf room hroom side player hplayer
    obtain ⟨old, hold, rfl⟩ := mem_modifyRoom hroom
    refine ⟨old, hold, ?_⟩
    split at hplayer
    · exact hf old side player hplayer
    · exact hplayer
  have hplayed : ∀ (game : Match) (room : Room) side player,
      ({ room with game } : Room).playerOf side = some player → room.playerOf side = some player := by
    intro game room side player hplayer
    cases side <;> exact hplayer
  cases hstep with
  | idle _ _ => exact hsame fun _ h => h
  | accept _ _ _ => exact hsame fun _ h => h
  | @lobby id t hlobby =>
      cases hlobby with
      | idle => exact hsame fun _ h => h
      | @login x message request player users _ _ _ _ _ _ _ _ =>
          refine hsame fun room hroom => ?_
          rwa [loggedIn, registerSession_eq] at hroom
      | wait _ _ => exact hsame fun _ h => h
      | @pair x y before after entry whiteUser blackUser asks hid waits chosen partner hpartner white black =>
          intro room hroom side player hplayer
          have hplayerId : ∀ userId, (s.searching id (before ++ after)).playerIdOf userId = s.playerIdOf userId :=
            fun userId => playerIdOf_modifyData s id userId SessionData.requestPlay_id SessionData.requestPlay_user
          rcases List.mem_append.mp hroom with hold | hnew
          · exact .inl ⟨room, hold, hplayer⟩
          · rw [List.mem_singleton.mp hnew] at hplayer
            cases side with
            | white =>
                cases hplayer
                exact .inr ⟨_, hplayerId _, .inr ⟨y, partner, by rw [SessionData.userId, white]; rfl⟩⟩
            | black =>
                cases hplayer
                exact .inr ⟨_, hplayerId _, .inr ⟨x, asks.mem, by rw [SessionData.userId, black]; rfl⟩⟩
  | timeouts => exact hsame fun _ h => h
  | prune _ => exact hsame fun _ h => h
  | join _ => exact hsame fun _ h => h
  | allocate request _ =>
      intro room hroom side player hplayer
      rcases List.mem_append.mp hroom with hold | hnew
      · exact .inl ⟨room, hold, hplayer⟩
      · rw [List.mem_singleton.mp hnew] at hplayer
        cases side with
        | white =>
            cases hplayer
            exact .inr ⟨_, rfl, .inl ⟨request, rfl⟩⟩
        | black =>
            cases hplayer
            exact .inr ⟨_, rfl, .inl ⟨request, rfl⟩⟩
  | tick _ _ => exact fun room hroom side player hplayer => .inl (hmodify _ _ (hplayed _) room hroom side player hplayer)
  | inputs _ _ => exact fun room hroom side player hplayer => .inl (hmodify _ _ (hplayed _) room hroom side player hplayer)
  | @finish roomId winner reason room white black online _ _ =>
      intro room hroom side player hplayer
      refine .inl (hmodify roomId (·.reset) ?_ room hroom side player hplayer)
      intro room side player hplayer
      cases side <;> cases hplayer
  | removeInactive => exact hsame fun _ h => List.mem_of_mem_filter h

/-! ### Strangers -/

/-- The session plays nowhere and is nobody, and its client has been told so if it has been told anything. -/
structure LeftOut (x : PlayerSession) : Prop where
  state : x.state = .connected
  user : x.user = none
  side : x.side = none
  roomId : x.roomId = none
  told : ∀ message ∈ x.connection.sent, message = .joinFailed .roomNotFound ∨ message = .joinFailed .notAuthenticated

/-- A session that is left out, where every message that has come in is such a message. -/
structure Outside (P : Text → Prop) (x : PlayerSession) : Prop extends LeftOut x where
  said : ∀ frame ∈ x.connection.pending, ∀ message, frame.content = .text message → P message

/-- The session with this id is outside, and no room is played through it. -/
structure Strange (P : Text → Prop) (id : PlayerId) (s : Server) : Prop where
  sessions : ∀ x ∈ s.sessions, x.id = id → Outside P x
  rooms : ∀ room ∈ s.rooms.rooms, Without id room

/-- The client says nothing but such messages, which no lobby reads that takes one of them for a login; and no room is
asked for from outside through the session that stands for none. -/
def Hushed (P : Text → Prop) (id : PlayerId) (_ : Server) : NetEvent ⊕ ServerOp → Prop
  | .inl (.deliver other (.text message)) => other = id → P message
  | .inr (.lobby other) => other = id → ∀ message, P message → parseLoginMessage message = none
  | .inr (.allocate _) => id ≠ 0
  | _ => True

variable {P : Text → Prop} {x y : PlayerSession}

/-- What an operation leaves of a session that is left out. -/
theorem Outside.upto {touches : PlayerId → Prop} {tells : PlayerId → ServerMessage → Prop} (h : Outside P x)
    (hsame : Upto touches tells x y) (htouches : ¬touches x.id)
    (htells : ∀ message, tells x.id message →
      message = .joinFailed .roomNotFound ∨ message = .joinFailed .notAuthenticated) :
    Outside P y := by
  obtain ⟨-, hdata, hpending, said, hsent, hsaid⟩ := hsame
  have hdata := hdata htouches
  refine ⟨⟨?_, ?_, ?_, ?_, ?_⟩, fun frame hframe => h.said frame (hpending hframe)⟩
  · rw [hdata]
    exact h.state
  · rw [hdata]
    exact h.user
  · rw [hdata]
    exact h.side
  · rw [hdata]
    exact h.roomId
  · intro message hmessage
    rw [hsent] at hmessage
    exact (List.mem_append.mp hmessage).elim (h.told message) fun hnew => htells message (hsaid message hnew)

theorem Outside.fresh (P : Text → Prop) (id : PlayerId) : Outside P { id } := by
  have hnone : ∀ {α : Type} {Q : α → Prop}, ∀ a ∈ ([] : List α), Q a := fun a h => absurd h List.not_mem_nil
  exact ⟨⟨rfl, rfl, rfl, rfl, hnone⟩, hnone⟩

namespace Strange

/-- The session is nobody's. -/
theorem nobody (h : Strange P id s) : s.userOf id = none := by
  unfold userOf
  cases hfind : s.findSession id with
  | none => rfl
  | some x =>
      obtain ⟨hmem, hid⟩ := findSession_some hfind
      exact (h.sessions x hmem hid).user

theorem not_user (h : Strange P id s) : ¬(s.userOf id).isSome := by
  rw [h.nobody]
  exact Bool.false_ne_true

/-- Nothing is read from it in the lobby that is a login. -/
theorem not_login (h : Strange P id s) (hhushed : Hushed P id s (.inr (.lobby id))) {message : Text}
    {request : LoginRequest} (hread : (s.tryRead .lobby id).1 = some message) :
    parseLoginMessage message ≠ some request := by
  obtain ⟨x, hfind⟩ : ∃ x, s.findSession id = some x := by
    cases hfind : s.findSession id with
    | none =>
        rw [Server.tryRead, hfind] at hread
        cases hread
    | some x => exact ⟨x, rfl⟩
  obtain ⟨hmem, hid⟩ := findSession_some hfind
  obtain ⟨hmessage, -⟩ := Server.tryRead_eq_some hfind hread
  obtain ⟨-, arrivedIn, rest, hpending, -⟩ := ClientConnection.tryRead_eq_some hmessage
  have hsaid : P message :=
    (h.sessions x hmem hid).said ⟨.text message, arrivedIn⟩ (by rw [hpending]; exact List.mem_cons_self) message rfl
  rw [hhushed rfl message hsaid]
  exact fun hparse => by cases hparse

theorem not_seated (h : Strange P id s) {room : Room} {side : PieceColor} {player : GamePlayer}
    (hroom : s.rooms.findRoom roomId = some room) (hplayer : room.playerOf side = some player) : player.playerId ≠ id :=
  h.rooms room (findRoom_some hroom).1 side player hplayer

theorem not_touched (h : Strange P id s) {op : ServerOp} (hhushed : Hushed P id s (.inr op)) : ¬Touches s op id := by
  intro htouches
  cases htouches with
  | login read parsed => exact h.not_login hhushed read parsed
  | user user => exact h.not_user user
  | leave find seated => exact h.not_seated find seated rfl

/-- It is told nothing but that a room cannot be joined. -/
theorem told (h : Strange P id s) {op : ServerOp} (hhushed : Hushed P id s (.inr op)) {message : ServerMessage}
    (hspoken : Says config s op id message) :
    message = .joinFailed .roomNotFound ∨ message = .joinFailed .notAuthenticated := by
  cases hspoken with
  | login read parsed nobody answers => exact absurd parsed (h.not_login hhushed read)
  | search read parsed user answers => exact absurd user h.not_user
  | white read parsed waits user announces => exact absurd user h.not_user
  | black read parsed user announces => exact absurd user h.not_user
  | timeout waits late => exact absurd (userOf_isSome_of_eligible (Bool.and_eq_true_iff.mp late).1) h.not_user
  | joined read parsed asks find active seated same =>
      rw [h.nobody] at asks
      cases asks
  | refused read parsed nobody => exact (nobody h.nobody).imp (congrArg _) (congrArg _)
  | snapshot find ticked seated => exact absurd rfl (h.not_seated find seated)
  | result ends rated seated => exact absurd rfl (h.not_seated ends.find seated)

theorem outside_apply (h : Strange P id s) (hwf : Wf s) {op : ServerOp} (hhushed : Hushed P id s (.inr op)) {r : op.Result}
    (happly : s.apply config op = .ok (r, s')) : ∀ y ∈ s'.sessions, y.id = id → Outside P y := by
  intro y hy hid
  rcases hwf.apply_speaks happly y hy with ⟨x, hx, hxy⟩ | rfl
  · obtain rfl : x.id = id := hxy.id.symm.trans hid
    exact (h.sessions x hx rfl).upto hxy (h.not_touched hhushed) fun message => h.told hhushed
  · exact .fresh P _

theorem rooms_apply (h : Strange P id s) (hwf : Wf s) {op : ServerOp} (hhushed : Hushed P id s (.inr op)) {r : op.Result}
    (happly : s.apply config op = .ok (r, s')) : ∀ room ∈ s'.rooms.rooms, Without id room := by
  obtain ⟨t, hstep, hsame⟩ := apply_step hwf.nextRoomFree happly
  have hbare : ∀ t : Server, t.bare.rooms = t.rooms := fun _ => rfl
  intro room hroom side player hplayer
  rw [← hbare, hsame, hbare] at hroom
  rcases hstep.players room hroom side player hplayer with ⟨old, hold, hplayer⟩ | ⟨userId, hbound, hasked⟩
  · exact h.rooms old hold side player hplayer
  · rw [hbound]
    rcases playerIdOf_cases s userId with ⟨x, hx, hidx, huser⟩ | ⟨hzero, hnobody⟩
    · rw [← hidx]
      intro hid
      obtain ⟨y, hy, rfl⟩ := List.mem_map.mp hx
      rw [SessionData.userId, (h.sessions y hy hid).user] at huser
      cases huser
    · rw [hzero]
      rcases hasked with ⟨request, rfl⟩ | ⟨x, hx, huser⟩
      · exact hhushed.symm
      · exact absurd huser (hnobody x hx)

theorem occur (h : Strange P id s) {event : NetEvent} (hhushed : Hushed P id s (.inl event)) :
    Strange P id (s.occur event) := by
  refine ⟨?_, by rw [occur_rooms]; exact h.rooms⟩
  cases event with
  | connect => exact h.sessions
  | pass duration => exact h.sessions
  | setLink other link =>
      intro y hy hid
      obtain ⟨x, hx, rfl⟩ := List.mem_map.mp hy
      split at hid
      · rename_i hother
        obtain ⟨⟨hstate, huser, hside, hroomId, htold⟩, hsaid⟩ := h.sessions x hx hid
        rw [if_pos hother]
        exact ⟨⟨hstate, huser, hside, hroomId, htold⟩, hsaid⟩
      · rename_i hother
        rw [if_neg hother]
        exact h.sessions x hx hid
  | deliver other content =>
      intro y hy hid
      obtain ⟨x, hx, rfl⟩ := List.mem_map.mp hy
      split at hid
      · rename_i hother
        obtain ⟨⟨hstate, huser, hside, hroomId, htold⟩, hsaid⟩ := h.sessions x hx hid
        rw [if_pos hother]
        refine ⟨⟨hstate, huser, hside, hroomId, htold⟩, fun frame hframe message hmessage => ?_⟩
        rcases List.mem_append.mp hframe with hold | hnew
        · exact hsaid frame hold message hmessage
        · rw [List.mem_singleton.mp hnew] at hmessage
          obtain rfl : content = .text message := hmessage
          exact hhushed (hother.symm.trans hid)
      · rename_i hother
        rw [if_neg hother]
        exact h.sessions x hx hid

theorem boot (P : Text → Prop) (id : PlayerId) (users : UserRepository) (games : GameRepository) (now : Nat) :
    Strange P id (boot users games now) :=
  ⟨fun _ hx => absurd hx List.not_mem_nil, fun _ hroom => absurd hroom List.not_mem_nil⟩

theorem of_leads {users : UserRepository} {games : GameRepository} {now : Nat} {script : List (List NetEvent)}
    {w : ServerWorld config} (hleads : Leads { state := Server.boot users games now, script } w)
    (hhushed : ∀ x ∈ w.history, Hushed P id x.1 x.2) : Strange P id w.state := by
  refine (hleads.invariant (M := serverMachine config) (P := fun s _ => Wf s ∧ Strange P id s) ?_ ?_
    ⟨.boot users games now, .boot P id users games now⟩ hhushed).2
  · intro s history event h hhushed
    obtain ⟨hwf, hstrange⟩ := h
    exact ⟨hwf.occur event, hstrange.occur hhushed⟩
  · intro s history op r s' h hhushed happly
    obtain ⟨hwf, hstrange⟩ := h
    exact ⟨hwf.apply happly, hstrange.outside_apply hwf hhushed happly, hstrange.rooms_apply hwf hhushed happly⟩

end Strange

/-- A client that sends no login stays nobody. -/
theorem LeftOut.of_silent {users : UserRepository} {games : GameRepository} {now : Nat} {script : List (List NetEvent)}
    {w : ServerWorld config} (hleads : Leads { state := boot users games now, script } w)
    (hnew : id ≠ 0 ∨ ∀ x ∈ w.history, ∀ request, x.2 ≠ .inr (.allocate request))
    (hsilent : ∀ x ∈ w.history, ∀ message, x.2 = .inl (.deliver id (.text message)) → parseLoginMessage message = none) :
    ∀ x ∈ w.state.sessions, x.id = id → LeftOut x := by
  have hstrange : Strange (fun message => parseLoginMessage message = none) id w.state := Strange.of_leads hleads ?_
  · exact fun x hx hid => (hstrange.sessions x hx hid).toLeftOut
  · intro y hy
    obtain ⟨s, event | op⟩ := y
    · cases event with
      | deliver other content =>
          cases content with
          | text message => exact fun hother => hsilent _ hy message (hother ▸ rfl)
          | close => exact trivial
      | _ => exact trivial
    · cases op with
      | lobby other => exact fun _ _ hparse => hparse
      | allocate request => exact hnew.resolve_right fun hnever => hnever _ hy request rfl
      | _ => exact trivial

/-! ### A game server on its own -/

def IsLobby : NetEvent ⊕ ServerOp → Prop
  | .inr (.lobby _) => True
  | _ => False

/-- The turns and calls of a game server on its own. -/
def IsOfGameServer : ServerCall → Prop
  | .gatewayTick | .gameServerTick => False
  | _ => True

/-- It has no lobby. -/
theorem not_lobby_of_run {calls : List ServerCall} (hcalls : ∀ call ∈ calls, IsOfGameServer call)
    {w w' : ServerWorld config} (hstart : w.history = []) (hrun : (serve config calls).run w = .ok ((), w')) :
    ∀ x ∈ w'.history, ¬IsLobby x.2 := by
  have hstable : Stable (fun _ _ => True) fun _ => True := fun _ _ _ _ => trivial
  have hkeeps : ∀ op, (∀ id, op ≠ .lobby id) →
      Keeps config (fun _ _ => True) (fun _ step => ¬IsLobby step) (fun _ => True) op := by
    intro op hop s _
    refine ⟨?_, fun _ _ _ _ => trivial⟩
    cases op with
    | lobby id => exact absurd rfl (hop id)
    | _ => exact fun h => h
  have hwp : (serve config calls).wp (fun _ _ => True) (fun _ step => ¬IsLobby step) (fun _ _ => True) w.state := by
    refine Prog.wp_mono (forM_wp (J := fun rest _ => ∀ call ∈ rest, IsOfGameServer call) ?_ hcalls) fun _ _ _ => trivial
    intro call rest s hcalls
    obtain ⟨hcall, hrest⟩ := List.forall_mem_cons.mp hcalls
    cases call with
    | gatewayTick => exact hcall.elim
    | gameServerTick => exact hcall.elim
    | runtimeTick managesConnections =>
        refine Prog.wp_mono (runtimeTick_keeps managesConnections hstable (fun op hop => hkeeps op ?_) trivial)
          fun _ _ _ => hrest
        intro id hid
        rwa [hid] at hop
    | allocate request => exact Prog.wp_mono (perform_wp hstable (hkeeps _ (by simp)) trivial) fun _ _ _ => hrest
    | finishRoom roomId winner reason =>
        exact Prog.wp_mono (perform_wp hstable (hkeeps _ (by simp)) trivial) fun _ _ _ => hrest
  intro x hx
  rcases (Prog.run_of_wp hwp hrun fun _ _ => trivial).2 x hx with hold | ⟨event, hevent⟩ | hasked
  · rw [hstart] at hold
    cases hold
  · rw [hevent]
    exact fun h => h
  · exact hasked

/-- Whatever happens, a client that sends no login stays nobody, sits in no room and is never shown a game: all it ever
hears is that a room cannot be joined. A game server on its own reads no logins, so there that goes for every client but
the first one, whose session has the id that stands for none: no client that follows a redirect is let in. -/
theorem strangers_stay_out (users : UserRepository) (games : GameRepository) (now : Nat) (script : List (List NetEvent)) :
    (∀ (w : ServerWorld config) id, Leads { state := boot users games now, script } w →
      (id ≠ 0 ∨ ∀ x ∈ w.history, ∀ request, x.2 ≠ .inr (.allocate request)) →
      (∀ x ∈ w.history, ∀ message, x.2 = .inl (.deliver id (.text message)) → parseLoginMessage message = none) →
      ∀ x ∈ w.state.sessions, x.id = id → LeftOut x) ∧
    ∀ calls (w : ServerWorld config), (∀ call ∈ calls, IsOfGameServer call) →
      (serve config calls).run { state := boot users games now, script } = .ok ((), w) →
      ∀ x ∈ w.state.sessions, x.id ≠ 0 → LeftOut x := by
  constructor
  · exact fun w id hleads hnew hsilent => .of_silent hleads hnew hsilent
  · intro calls w hcalls hrun x hx hid
    have hlobby := not_lobby_of_run hcalls rfl hrun
    have hstrange : Strange (fun _ => True) x.id w.state := Strange.of_leads (Leads.of_run hrun) ?_
    · exact (hstrange.sessions x hx rfl).toLeftOut
    · intro y hy
      obtain ⟨s, step⟩ := y
      rcases step with event | op
      · cases event with
        | deliver other content =>
            cases content with
            | text message => exact fun _ => trivial
            | close => exact trivial
        | _ => exact trivial
      · cases op with
        | lobby other => exact absurd trivial (hlobby _ hy)
        | allocate request => exact hid
        | _ => exact trivial

/-- The second client of a game server logs in and asks for the room, and is not let in. -/
theorem strangers_stay_out_redirected :
    ∃ (w : ServerWorld sampleConfig) (x : PlayerSession), (serve sampleConfig (.runtimeTick true :: .runtimeTick true ::
        .allocate ⟨7, 8, some 1⟩ :: List.replicate 3 (.runtimeTick true))).run
          (sampleWorld ([[.connect, .connect]] ++ quiet 12 ++ [[say 1 "login ann x", say 1 "join_game 1"]])) = .ok ((), w) ∧
      x ∈ w.state.sessions ∧ x.id = 1 ∧ x.connection.sent = [.joinFailed .notAuthenticated] ∧ LeftOut x := by
  have hrun : (serve sampleConfig (.runtimeTick true :: .runtimeTick true ::
      .allocate ⟨7, 8, some 1⟩ :: List.replicate 3 (.runtimeTick true))).reaches
      (sampleWorld ([[.connect, .connect]] ++ quiet 12 ++ [[say 1 "login ann x", say 1 "join_game 1"]]))
      (fun _ w => decide (∃ x ∈ w.state.sessions, x.id = 1 ∧ x.connection.sent = [.joinFailed .notAuthenticated]))
        = true := by
    decide +kernel
  obtain ⟨_, w, hrun, hw⟩ := Prog.reaches_eq_true hrun
  obtain ⟨x, hx, hid, hsent⟩ := of_decide_eq_true hw
  have hcalls : ∀ call ∈ ServerCall.runtimeTick true :: .runtimeTick true :: .allocate ⟨7, 8, some 1⟩ ::
      List.replicate 3 (.runtimeTick true), IsOfGameServer call := by
    simp [IsOfGameServer]
  exact ⟨w, x, hrun, hx, hid, hsent, (strangers_stay_out {} {} 0 _).2 _ w hcalls hrun x hx (by rw [hid]; decide)⟩

end Server

end KungFuChess
