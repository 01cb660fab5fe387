import KungFuChess.Proof.Operations
import KungFuChess.Proof.Winner

/-!
# Runs

Ids are given out once: no two sessions share one, nor do two rooms. And a room is active as long as it has
players. This holds of every state that any sequence of operations and events leads to, and every other
invariant of the server is proved under it.
-/

namespace KungFuChess

open Machine

namespace Server

variable {config : ServerConfig} {s s' t : Server} {id : PlayerId} {roomId : RoomId}

/-! ### Ids -/

def roomIds (s : Server) : List RoomId := s.rooms.rooms.map (·.id)

/-- Ids are not shared and the counters are past them. A room that has players is active. -/
structure Wf (s : Server) : Prop where
  sessions : (sessionIds s).Nodup
  oldSessions : ∀ id ∈ sessionIds s, id < s.nextSessionId
  rooms : s.roomIds.Nodup
  oldRooms : ∀ roomId ∈ s.roomIds, roomId < s.rooms.nextId
  manned : ∀ room ∈ s.rooms.rooms, ∀ side player, room.playerOf side = some player → room.active = true

theorem sessionIds_eq (s : Server) : sessionIds s = s.data.map (·.id) := by
  unfold sessionIds data
  rw [List.map_map]
  rfl

theorem mem_sessionIds {x : SessionData} (h : x ∈ s.data) : x.id ∈ sessionIds s := by
  rw [sessionIds_eq]
  exact List.mem_map_of_mem h

theorem sessionIds_map {f : SessionData → SessionData} (hdata : s'.data = s.data.map f) (hid : ∀ x, (f x).id = x.id) :
    sessionIds s' = sessionIds s := by
  rw [sessionIds_eq, sessionIds_eq, hdata, List.map_map]
  apply List.map_congr_left
  intro x _
  exact hid x

theorem sessionIds_joined (s : Server) (id : PlayerId) (roomId : RoomId) (side : PieceColor) :
    sessionIds (s.modifyData id (playSide roomId side)) = sessionIds s := by
  apply sessionIds_map (data_modifyData ..)
  intro x
  split
  · rfl
  · rfl

theorem sessionIds_finished (s : Server) (roomId : RoomId) (room : Room) (white black : GamePlayer)
    (winner : Option PieceColor) (reason : FinishReason) (online : Finset Text) :
    sessionIds (finished config s roomId room white black winner reason online) = sessionIds s := by
  apply sessionIds_map (data_finished ..)
  intro x
  rw [Function.comp_apply, FinishedPlayerState.leave_id, FinishedPlayerState.leave_id]

/-- The lobby keeps the sessions. -/
theorem sessionIds_lobbyStep (hstep : LobbyStep config s id t) : sessionIds t = sessionIds s := by
  have hsearching : ∀ waiting, sessionIds (s.searching id waiting) = sessionIds s := by
    intro waiting
    apply sessionIds_map (data_searching s id waiting)
    intro x
    split
    · exact x.requestPlay_id
    · rfl
  cases hstep with
  | idle => rfl
  | login _ _ _ _ _ _ _ _ =>
      apply sessionIds_map (data_loggedIn ..)
      intro x
      split
      · rfl
      · rfl
  | wait _ _ => exact hsearching _
  | pair _ _ _ _ _ _ _ =>
      rw [← hsearching]
      exact sessionIds_map (data_matched ..) (taken_id _ _ _)

/-- A client is accepted, a session is pruned, or the sessions stay. -/
theorem sessionIds_step {op : ServerOp} (hstep : OpStep config s op t) :
    (op = .acceptNewClients ∧ s.sessions.length < config.maxClients ∧ 0 < s.backlog ∧
      sessionIds t = sessionIds s ++ [s.nextSessionId]) ∨
    (∃ x ∈ s.data, op = .prune x.id ∧ sessionIds t = (s.data.filter fun y => y.id ≠ x.id).map (·.id)) ∨
    sessionIds t = sessionIds s := by
  cases hstep with
  | accept backlog hfree hknocks => exact .inl ⟨rfl, hfree, hknocks, List.map_append⟩
  | @prune x hmem =>
      refine .inr (.inl ⟨x, hmem, rfl, ?_⟩)
      rw [sessionIds_eq, data_pruned]
  | idle _ => exact .inr (.inr rfl)
  | lobby hlobby => exact .inr (.inr (sessionIds_lobbyStep hlobby))
  | timeouts => exact .inr (.inr (sessionIds_map (data_timedOut ..) (cancelSearches_id _)))
  | join _ => exact .inr (.inr (sessionIds_joined ..))
  | allocate _ _ => exact .inr (.inr rfl)
  | tick _ _ => exact .inr (.inr rfl)
  | inputs _ _ => exact .inr (.inr rfl)
  | finish _ _ => exact .inr (.inr (sessionIds_finished ..))
  | removeInactive => exact .inr (.inr rfl)

theorem roomIds_modifyRoom (manager : RoomManager) (roomId : RoomId) {f : Room → Room}
    (hid : ∀ room, (f room).id = room.id) :
    (manager.modifyRoom roomId f).rooms.map (·.id) = manager.rooms.map (·.id) := by
  unfold RoomManager.modifyRoom
  rw [List.map_map]
  apply List.map_congr_left
  intro room _
  simp only [Function.comp_apply]
  split
  · exact hid room
  · rfl

theorem mem_modifyRoom {manager : RoomManager} {f : Room → Room} {room : Room}
    (h : room ∈ (manager.modifyRoom roomId f).rooms) :
    ∃ old ∈ manager.rooms, room = if old.id = roomId then f old else old := by
  obtain ⟨old, hold, rfl⟩ := List.mem_map.mp h
  exact ⟨old, hold, rfl⟩

theorem findRoom_some {manager : RoomManager} {room : Room} (h : manager.findRoom roomId = some room) :
    room ∈ manager.rooms ∧ room.id = roomId := by
  refine ⟨List.mem_of_find?_eq_some h, ?_⟩
  simpa using List.find?_some h

namespace Wf

theorem congr (h : Wf s) (hbare : s'.bare = s.bare) : Wf s' := by
  have hids : sessionIds s' = sessionIds s := by
    rw [sessionIds_eq, sessionIds_eq, data_eq_of_bare hbare]
  rw [eq_of_bare hbare] at hids ⊢
  exact ⟨hids ▸ h.sessions, hids ▸ h.oldSessions, h.rooms, h.oldRooms, h.manned⟩

theorem nextRoomFree (h : Wf s) : s.NextRoomFree := by
  intro room hroom
  exact (h.oldRooms room.id (List.mem_map_of_mem hroom)).ne

theorem eq_of_id (h : Wf s) {x y : SessionData} (hx : x ∈ s.data) (hy : y ∈ s.data) (hid : x.id = y.id) : x = y := by
  have hnodup := h.sessions
  rw [sessionIds_eq] at hnodup
  exact List.inj_on_of_nodup_map hnodup hx hy hid

theorem findSession (h : Wf s) {x : PlayerSession} (hx : x ∈ s.sessions) : s.findSession x.id = some x := by
  cases hfind : s.findSession x.id with
  | none => simpa using List.find?_eq_none.mp hfind x hx
  | some found =>
      obtain ⟨hmem, hid⟩ := findSession_some hfind
      rw [List.inj_on_of_nodup_map h.sessions hmem hx hid]

theorem userOf (h : Wf s) {x : SessionData} (hx : x ∈ s.data) : s.userOf x.id = x.user := by
  obtain ⟨session, hsession, rfl⟩ := List.mem_map.mp hx
  rw [Server.userOf, h.findSession hsession]
  rfl

theorem findRoom (h : Wf s) {room : Room} (hroom : room ∈ s.rooms.rooms) :
    s.rooms.findRoom room.id = some room := by
  cases hfind : s.rooms.findRoom room.id with
  | none => simpa using List.find?_eq_none.mp hfind room hroom
  | some found =>
      have hid : found.id = room.id := by simpa using List.find?_some hfind
      rw [List.inj_on_of_nodup_map h.rooms (List.mem_of_find?_eq_some hfind) hroom hid]

/-- The sessions keep their ids and the rooms stay as they are. -/
theorem of_sessions (h : Wf s) (hsessions : sessionIds s' = sessionIds s) (hnext : s'.nextSessionId = s.nextSessionId)
    (hrooms : s'.rooms = s.rooms) : Wf s' := by
  refine ⟨hsessions ▸ h.sessions, by rw [hsessions, hnext]; exact h.oldSessions, ?_, ?_, ?_⟩
  · rw [roomIds, hrooms]
    exact h.rooms
  · rw [roomIds, hrooms]
    exact h.oldRooms
  · rw [hrooms]
    exact h.manned

/-- The sessions keep their ids and one room changes. -/
theorem of_modifyRoom (h : Wf s) (hsessions : sessionIds s' = sessionIds s)
    (hnext : s'.nextSessionId = s.nextSessionId) {f : Room → Room} (hrooms : s'.rooms = s.rooms.modifyRoom roomId f)
    (hid : ∀ room, (f room).id = room.id)
    (hmanned : ∀ room side player, (f room).playerOf side = some player →
      room.playerOf side = some player ∧ (f room).active = room.active) : Wf s' := by
  have hids : s'.roomIds = s.roomIds := by
    rw [roomIds, hrooms]
    exact roomIds_modifyRoom s.rooms roomId hid
  have hnextRoom : s'.rooms.nextId = s.rooms.nextId := by
    rw [hrooms]
    rfl
  refine ⟨hsessions ▸ h.sessions, by rw [hsessions, hnext]; exact h.oldSessions, hids ▸ h.rooms,
    by rw [hids, hnextRoom]; exact h.oldRooms, ?_⟩
  intro room hroom side player hplayer
  rw [hrooms] at hroom
  obtain ⟨old, hold, rfl⟩ := mem_modifyRoom hroom
  split at hplayer
  · rename_i heq
    obtain ⟨hplayer, hactive⟩ := hmanned old side player hplayer
    rw [if_pos heq, hactive]
    exact h.manned old hold side player hplayer
  · rename_i hne
    rw [if_neg hne]
    exact h.manned old hold side player hplayer

/-- The sessions keep their ids and one more room gets the next one. -/
theorem of_newRoom (h : Wf s) {room : Room} (hsessions : sessionIds s' = sessionIds s)
    (hnext : s'.nextSessionId = s.nextSessionId) (hid : room.id = s.rooms.nextId) (hactive : room.active = true)
    (hrooms : s'.rooms = ⟨s.rooms.rooms ++ [room], s.rooms.nextId + 1⟩) : Wf s' := by
  have hids : s'.roomIds = s.roomIds ++ [s.rooms.nextId] := by
    rw [roomIds, hrooms, List.map_append, List.map_singleton, hid]
    rfl
  have hnextRoom : s'.rooms.nextId = s.rooms.nextId + 1 := by rw [hrooms]
  refine ⟨hsessions ▸ h.sessions, by rw [hsessions, hnext]; exact h.oldSessions, ?_, ?_, ?_⟩
  · rw [hids]
    apply List.Nodup.append h.rooms (List.nodup_singleton _)
    rw [List.disjoint_singleton]
    exact fun hmem => (h.oldRooms _ hmem).ne rfl
  · intro roomId hmem
    rw [hids, List.mem_append, List.mem_singleton] at hmem
    rw [hnextRoom]
    rcases hmem with hold | rfl
    · exact Nat.lt_succ_of_lt (h.oldRooms _ hold)
    · exact Nat.lt_succ_self _
  · intro other hmem side player hplayer
    rw [hrooms, List.mem_append, List.mem_singleton] at hmem
    rcases hmem with hold | rfl
    · exact h.manned other hold side player hplayer
    · exact hactive

theorem lobbyStep (h : Wf s) (hstep : LobbyStep config s id t) : Wf t := by
  have hids := sessionIds_lobbyStep hstep
  cases hstep with
  | idle => exact h
  | login _ _ _ _ _ _ _ _ =>
      apply h.of_sessions hids
      all_goals
        rw [loggedIn, registerSession_eq]
        rfl
  | wait _ _ => exact h.of_sessions hids rfl rfl
  | pair _ _ _ _ _ _ _ => exact h.of_newRoom hids rfl rfl rfl rfl

theorem step (h : Wf s) {op : ServerOp} (hstep : OpStep config s op t) : Wf t := by
  cases hstep with
  | idle _ => exact h
  | accept backlog _ _ =>
      have hids : sessionIds (s.accepted backlog) = sessionIds s ++ [s.nextSessionId] := List.map_append
      refine ⟨?_, ?_, h.rooms, h.oldRooms, h.manned⟩
      · rw [hids]
        apply List.Nodup.append h.sessions (List.nodup_singleton _)
        rw [List.disjoint_singleton]
        exact fun hmem => (h.oldSessions _ hmem).ne rfl
      · intro id hmem
        rw [hids, List.mem_append, List.mem_singleton] at hmem
        change id < s.nextSessionId + 1
        rcases hmem with hold | rfl
        · exact Nat.lt_succ_of_lt (h.oldSessions _ hold)
        · exact Nat.lt_succ_self _
  | lobby hlobby => exact h.lobbyStep hlobby
  | timeouts =>
      refine h.of_sessions ?_ rfl rfl
      exact sessionIds_map (data_timedOut ..) (cancelSearches_id _)
  | @prune x hmem =>
      have hsub : (sessionIds (s.pruned x)).Sublist (sessionIds s) := by
        rw [sessionIds_eq, sessionIds_eq, data_pruned]
        exact List.filter_sublist.map _
      exact ⟨h.sessions.sublist hsub, fun id hid => h.oldSessions id (hsub.subset hid), h.rooms, h.oldRooms,
        h.manned⟩
  | join _ => exact h.of_sessions (sessionIds_joined ..) rfl rfl
  | allocate request store => exact h.of_newRoom rfl rfl rfl rfl rfl
  | tick _ _ =>
      refine h.of_modifyRoom rfl rfl rfl (fun _ => rfl) ?_
      intro room side player hplayer
      cases side <;> exact ⟨hplayer, rfl⟩
  | inputs _ _ =>
      refine h.of_modifyRoom rfl rfl rfl (fun _ => rfl) ?_
      intro room side player hplayer
      cases side <;> exact ⟨hplayer, rfl⟩
  | finish _ _ =>
      refine h.of_modifyRoom (sessionIds_finished ..) rfl rfl (fun _ => rfl) ?_
      intro room side player hplayer
      cases side <;> cases hplayer
  | removeInactive =>
      have hsub : (s.rooms.removeInactiveRooms.rooms.map (·.id)).Sublist s.roomIds := List.filter_sublist.map _
      exact ⟨h.sessions, h.oldSessions, h.rooms.sublist hsub, fun roomId hid => h.oldRooms roomId (hsub.subset hid),
        fun room hroom => h.manned room (List.mem_of_mem_filter hroom)⟩

theorem occur (h : Wf s) (event : NetEvent) : Wf (s.occur event) := by
  refine Wf.congr ?_ (occur_bare s event)
  exact ⟨h.sessions, h.oldSessions, h.rooms, h.oldRooms, h.manned⟩

theorem apply (h : Wf s) {op : ServerOp} {r : op.Result} (happly : s.apply config op = .ok (r, s')) : Wf s' := by
  obtain ⟨t, hstep, hsame⟩ := apply_step h.nextRoomFree happly
  exact (h.step hstep).congr hsame

end Wf

/-! ### The rule for runs -/

/-- The history of a run. -/
abbrev History := List (Server × (NetEvent ⊕ ServerOp))

/-- What the operations preserve, connections apart, holds in every state that is reached. -/
theorem invariant {P : Server → History → Prop} {C : Server → NetEvent ⊕ ServerOp → Prop} {w w' : ServerWorld config}
    (hbare : ∀ s s' history, s'.bare = s.bare → P s history → P s' history)
    (hevent : ∀ s history backlog now event, P s history →
      P { s with backlog, now } (history ++ [(s, .inl event)]))
    (hop : ∀ s history op t, Wf s → P s history → C s (.inr op) → OpStep config s op t →
      P t (history ++ [(s, .inr op)]))
    (hleads : Leads w w') (hwf : Wf w.state) (hstart : P w.state w.history)
    (hcond : ∀ x ∈ w'.history, C x.1 x.2) : Wf w'.state ∧ P w'.state w'.history := by
  refine hleads.invariant (M := serverMachine config) (P := fun s history => Wf s ∧ P s history) (C := C)
    ?_ ?_ ⟨hwf, hstart⟩ hcond
  · rintro s history event ⟨hs, hp⟩ -
    exact ⟨hs.occur event, hbare _ _ _ (occur_bare s event) (hevent _ _ _ _ event hp)⟩
  · intro s history op r s' h
    obtain ⟨hs, hp⟩ := h
    intro hc happly
    obtain ⟨t, hstep, hsame⟩ := apply_step hs.nextRoomFree happly
    exact ⟨hs.apply happly, hbare _ _ _ hsame (hop _ _ _ _ hs hp hc hstep)⟩

theorem Wf.boot (users : UserRepository) (games : GameRepository) (now : Nat) : Wf (boot users games now) :=
  ⟨List.nodup_nil, by simp [Server.boot, sessionIds], List.nodup_nil, by simp [Server.boot, roomIds],
    by simp [Server.boot]⟩

end Server

/-! ### A game between two clients

The runs that show what a server does, for good or ill, begin like this one: ann and bob connect, log in
and ask for a game. -/

def sampleConfig : ServerConfig where
  maxClients := 4
  maxRatingDifference := 100
  queueTimeoutMs := 60000
  defaultBoard := kingsBoard
  serverId := "monolith".toList
  endpoint := "ws://localhost".toList
  hasher := ⟨fun _ password => password, fun password hash => password == hash⟩
  calculate := fun winner loser => ⟨winner + 16, loser - 16⟩
  generateSnapshot := fun _ => "snapshot".toList
  roomOrder := id
  roomOrder_perm := List.Perm.refl

def say (id : PlayerId) (message : String) : NetEvent := .deliver id (.text message.toList)

/-- Nothing happens before the next operations. -/
def quiet (operations : Nat) : List (List NetEvent) := List.replicate operations []

/-- Four turns of the monolith, after which both clients are in room 1. -/
def untilGame : List (List NetEvent) :=
  [[.connect, .connect]] ++ quiet 18 ++ [[say 0 "login ann x", say 1 "login bob y"]] ++ quiet 10 ++
    [[say 0 "play", say 1 "play"]] ++ quiet 12

def sampleWorld (script : List (List NetEvent)) : ServerWorld sampleConfig :=
  { state := Server.boot {} {} 0, script }

end KungFuChess
