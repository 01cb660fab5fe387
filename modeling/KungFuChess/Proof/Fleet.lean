import KungFuChess.Lib.Histories
import KungFuChess.Model.Fleet
import KungFuChess.Proof.Endings

/-!
# One room for a match

A game server makes a room for a game when it is asked to, and it closes the game in the database when it
finishes the room. So there is one room for a match if one server does what it is asked for, and it is this
room that closes the game. A server whose answer is lost has done what it was asked for, and the
allocator goes on to the next.
-/

namespace KungFuChess

open Histories

namespace Server

variable {config : ServerConfig} {s s' t : Server} {gameId : Int}

/-! ### One server -/

/-- A step that makes no room for the game. A game server has no lobby. -/
def SparesGame (gameId : Int) : NetEvent ⊕ ServerOp → Prop
  | .inr (.lobby _) => False
  | .inr (.allocate request) => request.dbGameId ≠ some gameId
  | _ => True

/-- The rooms of a game have been there before. -/
theorem gameRooms_step {op : ServerOp} (hspares : SparesGame gameId (.inr op)) (hstep : OpStep config s op t) :
    ∀ room ∈ t.rooms.rooms, room.dbGameId = some gameId →
      ∃ old ∈ s.rooms.rooms, old.id = room.id ∧ old.dbGameId = some gameId := by
  have hsame : ∀ room ∈ s.rooms.rooms, room.dbGameId = some gameId →
      ∃ old ∈ s.rooms.rooms, old.id = room.id ∧ old.dbGameId = some gameId :=
    fun room hroom hgame => ⟨room, hroom, rfl, hgame⟩
  have hplayed : ∀ roomId game, ∀ room ∈ (s.rooms.modifyRoom roomId ({ · with game })).rooms,
      room.dbGameId = some gameId → ∃ old ∈ s.rooms.rooms, old.id = room.id ∧ old.dbGameId = some gameId := by
    intro roomId game room hroom hgame
    obtain ⟨old, hold, rfl⟩ := mem_modifyRoom hroom
    refine ⟨old, hold, ?_⟩
    split at hgame
    · rename_i heq
      rw [if_pos heq]
      exact ⟨rfl, hgame⟩
    · rename_i hne
      rw [if_neg hne]
      exact ⟨rfl, hgame⟩
  cases hstep with
  | idle _ => exact hsame
  | accept _ _ _ => exact hsame
  | lobby _ => exact hspares.elim
  | timeouts => exact hsame
  | prune _ => exact hsame
  | join _ => exact hsame
  | allocate request store =>
      intro room hroom hgame
      rcases List.mem_append.mp hroom with hold | hnew
      · exact hsame room hold hgame
      · rw [List.mem_singleton.mp hnew] at hgame
        exact absurd hgame hspares
  | tick _ _ => exact hplayed _ _
  | inputs _ _ => exact hplayed _ _
  | finish _ _ =>
      intro room hroom hgame
      obtain ⟨old, hold, rfl⟩ := mem_modifyRoom hroom
      split at hgame
      · cases hgame
      · rename_i hne
        rw [if_neg hne]
        exact hsame old hold hgame
  | removeInactive => exact fun room hroom => hsame room (List.mem_of_mem_filter hroom)

theorem act_op {op : ServerOp} : s.act config (.inr op) = some s' ↔ ∃ r, s.apply config op = .ok (r, s') := by
  change (s.apply config op).toOption.map (·.2) = some s' ↔ _
  cases s.apply config op with
  | error fault => simp [Except.toOption]
  | ok result =>
      obtain ⟨r, t⟩ := result
      simp [Except.toOption]

theorem act_wf (hwf : Wf s) {what : NetEvent ⊕ ServerOp} (hact : s.act config what = some s') : Wf s' := by
  cases what with
  | inl event =>
      cases hact
      exact hwf.occur event
  | inr op =>
      obtain ⟨r, happly⟩ := act_op.mp hact
      exact hwf.apply happly

theorem gameRooms_act (hwf : Wf s) {what : NetEvent ⊕ ServerOp} (hspares : SparesGame gameId what)
    (hact : s.act config what = some s') :
    ∀ room ∈ s'.rooms.rooms, room.dbGameId = some gameId →
      ∃ old ∈ s.rooms.rooms, old.id = room.id ∧ old.dbGameId = some gameId := by
  cases what with
  | inl event =>
      cases hact
      rw [occur_rooms]
      exact fun room hroom hgame => ⟨room, hroom, rfl, hgame⟩
  | inr op =>
      obtain ⟨r, happly⟩ := act_op.mp hact
      obtain ⟨t, hstep, hbare⟩ := apply_step hwf.nextRoomFree happly
      intro room hroom
      rw [eq_of_bare hbare] at hroom
      exact gameRooms_step hspares hstep room hroom

/-! ### Closing the game -/

/-- How often the server has closed the game. -/
def closings (gameId : Int) (s : Server) : Nat := s.journal.countP (closes gameId)

theorem closings_eq (gameId : Int) (s : Server) :
    s.closings gameId = (s.journal.filter isResult).countP (closes gameId) := by
  rw [closings, List.countP_filter]
  apply List.countP_congr
  intro entry _
  cases entry <;> simp [closes, isResult]

theorem closings_step {op : ServerOp} (hstep : OpStep config s op t) :
    t.closings gameId = s.closings gameId + (resultsOf config (s, .inr op)).countP (closes gameId) := by
  rw [closings_eq, closings_eq, journal_step hstep, List.countP_append]

theorem dbGameId_of_closes {room : Room} {white black : GamePlayer} {winner : Option PieceColor}
    {reason : FinishReason} {entry : JournalEntry} (hentry : entry ∈ resultEntries config s room white black winner reason)
    (hcloses : closes gameId entry = true) : room.dbGameId = some gameId := by
  unfold resultEntries at hentry
  cases hgame : room.dbGameId with
  | none => simp [hgame] at hentry
  | some id =>
      rw [hgame] at hentry
      cases winner with
      | none =>
          dsimp only at hentry
          split at hentry
          · rw [List.mem_singleton.mp hentry] at hcloses
            rw [beq_iff_eq.mp hcloses]
          · cases hentry
      | some color =>
          cases color with
          | white | black =>
              dsimp only at hentry
              split at hentry
              · simp only [List.mem_cons, List.not_mem_nil, or_false] at hentry
                rcases hentry with rfl | rfl | rfl | rfl
                all_goals simp_all [closes]
              · cases hentry

/-- The game is closed by the finish of a room that has it. -/
theorem finishes_of_closings (hwf : Wf s) {what : NetEvent ⊕ ServerOp} (hact : s.act config what = some s')
    (hmore : s.closings gameId < s'.closings gameId) :
    ∃ roomId winner reason, what = .inr (.finish roomId winner reason) ∧
      ∃ room ∈ s.rooms.rooms, room.id = roomId ∧ room.dbGameId = some gameId := by
  cases what with
  | inl event =>
      cases hact
      rw [closings, closings, eq_of_bare (occur_bare s event)] at hmore
      exact absurd hmore (lt_irrefl _)
  | inr op =>
      obtain ⟨r, happly⟩ := act_op.mp hact
      obtain ⟨t, hstep, hbare⟩ := apply_step hwf.nextRoomFree happly
      have hclosings : s'.closings gameId = t.closings gameId := by
        rw [closings, eq_of_bare hbare]
        rfl
      rw [hclosings, closings_step hstep] at hmore
      obtain ⟨entry, hentry, hcloses⟩ := List.countP_pos_iff.mp (Nat.lt_add_right_iff_pos.mp hmore)
      by_cases hends : ∃ roomId, EndsRoom roomId (s, .inr op)
      · obtain ⟨roomId, winner, reason, hop, room, white, black, hends⟩ := hends
        cases hop
        rw [resultsOf_finish hends] at hentry
        obtain ⟨hroom, hid⟩ := findRoom_some hends.find
        exact ⟨roomId, winner, reason, rfl, room, hroom, hid, dbGameId_of_closes hentry hcloses⟩
      · rw [resultsOf_eq_nil (not_exists.mp hends)] at hentry
        cases hentry

/-! ### Leaving a room behind -/

/-- A client goes, and its session with it; and whatever else happens that does not touch the rooms that are there. -/
def LeavesRooms : NetEvent ⊕ ServerOp → Prop
  | .inl _ | .inr .pruneDisconnected | .inr (.prune _) | .inr (.allocate _) => True
  | _ => False

/-- The rooms that are there stay, and no session comes. -/
theorem act_leavesRooms (hwf : Wf s) {what : NetEvent ⊕ ServerOp} (hleaves : LeavesRooms what) :
    ∃ s', s.act config what = some s' ∧ s.rooms.rooms <+: s'.rooms.rooms ∧ ∀ x ∈ s'.data, x ∈ s.data := by
  match what, hleaves with
  | .inl event, _ =>
      refine ⟨_, rfl, ?_, ?_⟩
      · rw [occur_rooms]
      · rw [data_eq_of_bare (occur_bare s event)]
        exact fun x hx => hx
  | .inr .pruneDisconnected, _ =>
      refine ⟨_, rfl, List.prefix_rfl, ?_⟩
      rw [data_eq_of_bare (pruneDisconnected_bare s)]
      exact fun x hx => hx
  | .inr (.prune id), _ =>
      refine ⟨_, rfl, ?_⟩
      rcases pruneSession_cases s id with hidle | ⟨x, -, -, hpruned⟩
      · rw [hidle]
        exact ⟨List.prefix_rfl, fun x hx => hx⟩
      · rw [hpruned, data_pruned]
        exact ⟨List.prefix_rfl, fun x hx => List.mem_of_mem_filter hx⟩
  | .inr (.allocate request), _ =>
      refine ⟨_, rfl, ?_⟩
      unfold allocate
      rw [createRoom_eq hwf.nextRoomFree]
      exact ⟨List.prefix_append _ _, fun x hx => hx⟩

/-- The link of a client fails, and its session is pruned. -/
theorem pruneSession_failed (s : Server) (id : PlayerId) :
    ∀ x ∈ ((s.occur (.setLink id .failed)).pruneDisconnected.pruneSession id).data, x.id ≠ id := by
  have hclosed : ∀ session ∈ (s.occur (.setLink id .failed)).pruneDisconnected.sessions, session.id = id →
      session.connection.isOpen = false := by
    intro session hsession hid
    obtain ⟨probed, hprobed, rfl⟩ := List.mem_map.mp hsession
    obtain ⟨old, -, rfl⟩ := List.mem_map.mp hprobed
    by_cases heq : old.id = id
    · simp only [heq, if_true, ClientConnection.detectPeerDisconnect]
      split
      · simp_all
      · rfl
    · rw [if_neg heq] at hid
      exact absurd hid heq
  intro x hx hid
  unfold pruneSession at hx
  cases hfind : (s.occur (.setLink id .failed)).pruneDisconnected.findSession id with
  | none =>
      rw [hfind] at hx
      exact findSession_none hfind x hx hid
  | some session =>
      obtain ⟨hmem, hsession⟩ := findSession_some hfind
      rw [hfind] at hx
      dsimp only at hx
      rw [if_neg (by simp [hclosed session hmem hsession])] at hx
      obtain ⟨last, hlast, rfl⟩ := List.mem_map.mp hx
      simpa [hid] using (List.mem_filter.mp hlast).2

theorem cleanupFinishedPlayer_absent {player : FinishedPlayerState} (h : s.findSession player.playerId = none) :
    s.cleanupFinishedPlayer player = .ok s := by
  unfold cleanupFinishedPlayer
  rw [h]

theorem cleanupFinishedRoom_absent {roomId : RoomId} {white black : GamePlayer}
    (hwhite : s.findSession white.playerId = none) (hblack : s.findSession black.playerId = none) :
    ∃ s', s.cleanupFinishedRoom roomId white black = .ok s' := by
  unfold cleanupFinishedRoom
  dsimp only
  rw [cleanupFinishedPlayer_absent (by exact hwhite), Loops.ok_bind, cleanupFinishedPlayer_absent (by exact hblack)]
  exact ⟨_, rfl⟩

/-- Nobody is there any more, and the game is closed without a winner. -/
theorem finish_abandoned (config : ServerConfig) {roomId : RoomId} {room : Room} {white black : GamePlayer} (hwf : Wf s)
    (hends : Ends s roomId room white black) (hgame : room.dbGameId = some gameId)
    (hwhite : s.findSession white.playerId = none) (hblack : s.findSession black.playerId = none) :
    ∃ s', s.act config (.inr (.finish roomId none .disconnect)) = some s' ∧
      s'.closings gameId = s.closings gameId + 1 := by
  have hdata : (recordAndNotify config s room white black none .disconnect).data = s.data :=
    (data_eq_of_bare (recordAndNotify_bare config s room white black none .disconnect)).trans rfl
  have hfinish : ∃ s', s.finish config roomId none .disconnect = .ok s' := by
    rw [finish_eq hends]
    apply cleanupFinishedRoom_absent
    · exact findSession_eq_none fun x hx => findSession_none hwhite x (hdata ▸ hx)
    · exact findSession_eq_none fun x hx => findSession_none hblack x (hdata ▸ hx)
  obtain ⟨s', hs'⟩ := hfinish
  have happly : s.apply config (.finish roomId none .disconnect) = .ok ((), s') := by
    change (s.finish config roomId none .disconnect).map ((), ·) = _
    rw [hs']
    rfl
  obtain ⟨t, hstep, hbare⟩ := apply_step hwf.nextRoomFree happly
  refine ⟨s', act_op.mpr ⟨(), happly⟩, ?_⟩
  have hclosings : s'.closings gameId = t.closings gameId := by
    rw [closings, eq_of_bare hbare]
    rfl
  rw [hclosings, closings_step hstep, resultsOf_finish hends,
    (countP_closes_resultEntries hgame white black none .disconnect).mpr rfl]

end Server

namespace Fleet

variable {fleet : Fleet} {host : GameHost} {gameId : Int} {location : Option (Text × RoomId)} {endpoint : Text}
  {step : FleetStep}

/-! ### All of them -/

/-- What one step does to a server. -/
theorem hosts_step (hhost : (fleet.step step).hosts endpoint = some host) :
    fleet.hosts endpoint = some host ∨ step.endpoint = endpoint ∧ ∃ old, fleet.hosts endpoint = some old ∧
      (fleet.serverOf old).act old.config step.what = some host.server := by
  unfold Fleet.step at hhost
  cases hold : fleet.hosts step.endpoint with
  | none =>
      rw [hold] at hhost
      exact .inl hhost
  | some old =>
      rw [hold] at hhost
      dsimp only at hhost
      split at hhost
      · exact .inl hhost
      · rename_i server hact
        dsimp only at hhost
        by_cases heq : endpoint = step.endpoint
        · subst heq
          rw [Function.update_self] at hhost
          cases hhost
          exact .inr ⟨rfl, old, hold, hact⟩
        · rw [Function.update_of_ne heq] at hhost
          exact .inl hhost

/-- The server that does something, with what all of them share, is the server that has done it. -/
theorem step_act {server : Server} {what : NetEvent ⊕ ServerOp} (hhost : fleet.hosts endpoint = some host)
    (hact : (fleet.serverOf host).act host.config what = some server) :
    (fleet.step ⟨endpoint, what⟩).hosts endpoint = some { host with server } ∧
      (fleet.step ⟨endpoint, what⟩).serverOf { host with server } = server := by
  unfold Fleet.step
  rw [hhost]
  dsimp only
  rw [hact]
  exact ⟨Function.update_self _ _ _, rfl⟩

def Wf (fleet : Fleet) : Prop := ∀ endpoint host, fleet.hosts endpoint = some host → Server.Wf host.server

theorem Wf.serverOf (hwf : Wf fleet) (hhost : fleet.hosts endpoint = some host) : Server.Wf (fleet.serverOf host) :=
  (hwf endpoint host hhost).of_sessions rfl rfl rfl

theorem Wf.next (hwf : Wf fleet) (step : FleetStep) : Wf (fleet.step step) := by
  intro endpoint host hhost
  rcases hosts_step hhost with hsame | ⟨-, old, hold, hact⟩
  · exact hwf endpoint host hsame
  · exact Server.act_wf (hwf.serverOf hold) hact

theorem isSome_hosts_step (fleet : Fleet) (step : FleetStep) (endpoint : Text) :
    ((fleet.step step).hosts endpoint).isSome = (fleet.hosts endpoint).isSome := by
  unfold Fleet.step
  cases hold : fleet.hosts step.endpoint with
  | none => rfl
  | some old =>
      dsimp only
      split
      · rfl
      · dsimp only
        by_cases heq : endpoint = step.endpoint
        · subst heq
          rw [hold, Function.update_self]
          rfl
        · exact congrArg Option.isSome (Function.update_of_ne heq _ _)

theorem run_append (fleet : Fleet) (first second : List FleetStep) :
    fleet.run (first ++ second) = (fleet.run first).run second := List.foldl_append

theorem isSome_hosts_run (fleet : Fleet) (steps : List FleetStep) (endpoint : Text) :
    ((fleet.run steps).hosts endpoint).isSome = (fleet.hosts endpoint).isSome := by
  induction steps generalizing fleet with
  | nil => rfl
  | cons step steps ih => exact (ih (fleet.step step)).trans (isSome_hosts_step fleet step endpoint)

def roomsOf (fleet : Fleet) (endpoint : Text) : List Room :=
  match fleet.hosts endpoint with
  | some host => host.server.rooms.rooms
  | none => []

/-- How often a server has closed the game. -/
def closings (gameId : Int) (fleet : Fleet) (endpoint : Text) : Nat :=
  match fleet.hosts endpoint with
  | some host => host.server.closings gameId
  | none => 0

/-- No two rooms are active for the game. -/
def AtMostOneRoom (gameId : Int) (fleet : Fleet) : Prop :=
  ∀ endpoint other, ∀ room ∈ fleet.roomsOf endpoint, ∀ twin ∈ fleet.roomsOf other, room.active = true →
    twin.active = true → room.dbGameId = some gameId → twin.dbGameId = some gameId → endpoint = other ∧ room = twin

/-- If the step closes the game, it is the finish of the room at this location. -/
def ClosesAt (gameId : Int) (location : Option (Text × RoomId)) (fleet : Fleet) (step : FleetStep) : Prop :=
  ∀ endpoint, fleet.closings gameId endpoint < (fleet.step step).closings gameId endpoint →
    ∃ roomId winner reason, location = some (endpoint, roomId) ∧
      step = ⟨endpoint, .inr (.finish roomId winner reason)⟩

theorem ClosesAt.of_none (h : ClosesAt gameId none fleet step) (location : Option (Text × RoomId)) :
    ClosesAt gameId location fleet step := by
  intro endpoint hmore
  obtain ⟨_, _, _, hnone, -⟩ := h endpoint hmore
  cases hnone

/-- Whatever room there is for the game, it is at this location. -/
structure Located (gameId : Int) (location : Option (Text × RoomId)) (fleet : Fleet) : Prop where
  wf : Wf fleet
  only : ∀ endpoint host, fleet.hosts endpoint = some host → ∀ room ∈ host.server.rooms.rooms,
    room.dbGameId = some gameId → location = some (endpoint, room.id)

namespace Located

theorem atMostOneRoom (h : Located gameId location fleet) : AtMostOneRoom gameId fleet := by
  intro endpoint other room hroom twin htwin _ _ hgame htwinGame
  unfold roomsOf at hroom htwin
  cases hhost : fleet.hosts endpoint with
  | none => simp [hhost] at hroom
  | some host =>
      cases hotherHost : fleet.hosts other with
      | none => simp [hotherHost] at htwin
      | some otherHost =>
          rw [hhost] at hroom
          rw [hotherHost] at htwin
          have hlocation := h.only endpoint host hhost room hroom hgame
          rw [h.only other otherHost hotherHost twin htwin htwinGame] at hlocation
          obtain ⟨rfl, hid⟩ := Prod.mk.inj (Option.some.inj hlocation)
          rw [hhost] at hotherHost
          cases hotherHost
          exact ⟨rfl, List.inj_on_of_nodup_map (h.wf _ host hhost).rooms hroom htwin hid.symm⟩

theorem closesAt (h : Located gameId location fleet) (step : FleetStep) : ClosesAt gameId location fleet step := by
  intro endpoint hmore
  unfold closings at hmore
  cases hhost : (fleet.step step).hosts endpoint with
  | none => simp [hhost] at hmore
  | some host =>
      rw [hhost] at hmore
      rcases hosts_step hhost with hsame | ⟨rfl, old, hold, hact⟩
      · rw [hsame] at hmore
        exact absurd hmore (lt_irrefl _)
      · rw [hold] at hmore
        obtain ⟨roomId, winner, reason, hwhat, room, hroom, rfl, hgame⟩ :=
          Server.finishes_of_closings (h.wf.serverOf hold) hact hmore
        refine ⟨room.id, winner, reason, h.only _ old hold room hroom hgame, ?_⟩
        rw [← hwhat]

theorem next (h : Located gameId location fleet) (hspares : Server.SparesGame gameId step.what) :
    Located gameId location (fleet.step step) := by
  refine ⟨h.wf.next step, fun endpoint host hhost room hroom hgame => ?_⟩
  rcases hosts_step hhost with hsame | ⟨-, old, hold, hact⟩
  · exact h.only endpoint host hsame room hroom hgame
  · obtain ⟨oldRoom, hmem, hid, hgame⟩ :=
      Server.gameRooms_act (h.wf.serverOf hold) hspares hact room hroom hgame
    rw [← hid]
    exact h.only endpoint old hold oldRoom hmem hgame

/-- Steps that make no room for the game. -/
theorem run (h : Located gameId location fleet) {steps : List FleetStep}
    (hspares : ∀ step ∈ steps, Server.SparesGame gameId step.what) :
    Throughout Fleet.step (Located gameId location) fleet steps := by
  refine Throughout.of_step (C := fun _ step => Server.SparesGame gameId step.what) h
    (fun fleet step hstep h => h.next hstep) ?_
  intro before step h
  obtain ⟨rest, rfl⟩ := h
  exact hspares step (by simp)

theorem closes_run {steps : List FleetStep} (h : Throughout Fleet.step (Located gameId location) fleet steps) :
    EachStep Fleet.step (ClosesAt gameId location) fleet steps :=
  fun before step hpre => (h before (prefix_of_concat hpre)).closesAt step

/-- The first room for the game is made. -/
theorem allocate (h : Located gameId none fleet) (hhost : fleet.hosts endpoint = some host) (white black : UserId) :
    Located gameId (some (endpoint, host.server.rooms.nextId))
      (fleet.step ⟨endpoint, .inr (.allocate ⟨white, black, some gameId⟩)⟩) := by
  refine ⟨h.wf.next _, fun other otherHost hother room hroom hgame => ?_⟩
  have hold : ∀ old ∈ host.server.rooms.rooms, old.dbGameId ≠ some gameId := by
    intro old hmem hgame
    cases h.only endpoint host hhost old hmem hgame
  rcases hosts_step hother with hsame | ⟨rfl, old, hsame, hact⟩
  · cases h.only other otherHost hsame room hroom hgame
  · rw [hhost] at hsame
    cases hsame
    obtain ⟨_, happly⟩ := Server.act_op.mp hact
    obtain ⟨-, hserver⟩ := Prod.mk.inj (Except.ok.inj happly)
    unfold Server.allocate at hserver
    rw [Server.createRoom_eq (h.wf.serverOf hhost).nextRoomFree] at hserver
    rw [← hserver] at hroom
    rcases List.mem_append.mp hroom with hmem | hnew
    · exact absurd hgame (hold room hmem)
    · rw [List.mem_singleton.mp hnew]
      rfl

end Located

/-! ### A call -/

/-- The room whose location is returned. -/
def locationOf (answer : Option (GameServerRecord × GameCreationResponse)) : Option (Text × RoomId) :=
  answer.map fun (candidate, response) => (candidate.allocationEndpoint, response.roomId)

/-- In no state two rooms are active for the game, and it is closed by the one at this location. -/
structure OneRoom (gameId : Int) (location : Option (Text × RoomId)) (fleet : Fleet) (steps : List FleetStep) : Prop where
  rooms : Throughout Fleet.step (AtMostOneRoom gameId) fleet steps
  closed : EachStep Fleet.step (ClosesAt gameId location) fleet steps

/-- No server does what it is asked for without its answer coming back, in the attempts that are made. -/
def NothingLost (listens : Text → Bool) : Nat → List Attempt → Prop
  | 0, _ | _, [] => True
  | retries + 1, attempt :: attempts =>
      if listens attempt.candidate.allocationEndpoint then
        match attempt.delivery with
        | .requestLost => NothingLost listens retries attempts
        | .responseLost => False
        | .delivered => True
      else NothingLost listens retries attempts

/-- A request that does not arrive is as good as none. -/
theorem nothingLost_unasked {listens : Text → Bool} {attempt : Attempt}
    (h : listens attempt.candidate.allocationEndpoint = false ∨ attempt.delivery = .requestLost) (retries : Nat)
    (attempts : List Attempt) :
    NothingLost listens (retries + 1) (attempt :: attempts) ↔ NothingLost listens retries attempts := by
  rw [NothingLost]
  rcases h with hnobody | hdelivery
  · rw [hnobody, if_neg Bool.false_ne_true]
  · rw [hdelivery]
    split
    · rfl
    · rfl

theorem OneRoom.append {first second : List FleetStep} (h : OneRoom gameId location fleet first)
    (h' : OneRoom gameId location (fleet.run first) second) : OneRoom gameId location fleet (first ++ second) :=
  ⟨throughout_append.mpr ⟨h.rooms, h'.rooms⟩, eachStep_append.mpr ⟨h.closed, h'.closed⟩⟩

theorem OneRoom.of_located {steps : List FleetStep} (h : Throughout Fleet.step (Located gameId location) fleet steps) :
    OneRoom gameId location fleet steps :=
  ⟨h.mono fun _ h => h.atMostOneRoom, Located.closes_run h⟩

/-- As long as there is no room nobody closes the game. -/
theorem OneRoom.of_none {steps : List FleetStep} (h : OneRoom gameId none fleet steps)
    (location : Option (Text × RoomId)) : OneRoom gameId location fleet steps :=
  ⟨h.rooms, h.closed.mono fun _ _ h => h.of_none location⟩

/-- The three ways in which a request can go. -/
theorem post_cases (fleet : Fleet) (request : Server.GameCreationRequest) (attempt : Attempt) :
    (((fleet.hosts attempt.candidate.allocationEndpoint).isSome = false ∨ attempt.delivery = .requestLost) ∧
      fleet.post request attempt = (none, [])) ∨
    (∃ host, fleet.hosts attempt.candidate.allocationEndpoint = some host ∧ attempt.delivery = .responseLost ∧
      fleet.post request attempt = (none, [⟨attempt.candidate.allocationEndpoint, .inr (.allocate request)⟩])) ∨
    (∃ host response, fleet.hosts attempt.candidate.allocationEndpoint = some host ∧ attempt.delivery = .delivered ∧
      response.roomId = host.server.rooms.nextId ∧
      fleet.post request attempt =
        (some response, [⟨attempt.candidate.allocationEndpoint, .inr (.allocate request)⟩])) := by
  unfold post
  dsimp only
  cases hhost : fleet.hosts attempt.candidate.allocationEndpoint with
  | none => exact .inl ⟨.inl rfl, rfl⟩
  | some host =>
      cases hdelivery : attempt.delivery with
      | requestLost => exact .inl ⟨.inr rfl, rfl⟩
      | responseLost => exact .inr (.inl ⟨host, rfl, rfl, rfl⟩)
      | delivered => exact .inr (.inr ⟨host, _, rfl, rfl, rfl, rfl⟩)

section Loop

variable {request : Server.GameCreationRequest} {attempt : Attempt} {tried : List FleetStep}
  (meanwhile : List (List FleetStep)) (retries : Nat) (attempts : List Attempt)

theorem tryCandidates_answered {response : GameCreationResponse}
    (hpost : (fleet.run (meanwhile.headD [])).post request attempt = (some response, tried)) :
    tryCandidates request (retries + 1) (attempt :: attempts) meanwhile fleet =
      (some (attempt.candidate, response), meanwhile.headD [] ++ tried) := by
  rw [tryCandidates, hpost]

theorem tryCandidates_unanswered (hpost : (fleet.run (meanwhile.headD [])).post request attempt = (none, tried)) :
    tryCandidates request (retries + 1) (attempt :: attempts) meanwhile fleet =
      let (answer, steps) :=
        tryCandidates request retries attempts meanwhile.tail (fleet.run (meanwhile.headD [] ++ tried))
      (answer, meanwhile.headD [] ++ tried ++ steps) := by
  rw [tryCandidates, hpost]

end Loop

/-- Nothing that goes on between the requests makes a room for the game. -/
def SparedBy (gameId : Int) (steps : List FleetStep) : Prop := ∀ step ∈ steps, Server.SparesGame gameId step.what

theorem sparedBy_headD {meanwhile : List (List FleetStep)} (h : ∀ steps ∈ meanwhile, SparedBy gameId steps) :
    SparedBy gameId (meanwhile.headD []) ∧ ∀ steps ∈ meanwhile.tail, SparedBy gameId steps := by
  cases meanwhile with
  | nil => exact ⟨by simp [SparedBy], by simp⟩
  | cons steps meanwhile => exact ⟨h steps List.mem_cons_self, fun other hother => h other (List.mem_cons_of_mem _ hother)⟩

theorem tryCandidates_oneRoom {listens : Text → Bool} (white black : UserId) {attempts : List Attempt} {retries : Nat}
    {meanwhile : List (List FleetStep)} (h : Located gameId none fleet)
    (hlistens : ∀ endpoint, listens endpoint = (fleet.hosts endpoint).isSome)
    (hlost : NothingLost listens retries attempts) (hspared : ∀ steps ∈ meanwhile, SparedBy gameId steps)
    {answer : Option (GameServerRecord × GameCreationResponse)} {steps : List FleetStep}
    (hcall : tryCandidates ⟨white, black, some gameId⟩ retries attempts meanwhile fleet = (answer, steps)) :
    OneRoom gameId (locationOf answer) fleet steps ∧ Located gameId (locationOf answer) (fleet.run steps) := by
  have hidle : ∀ {fleet : Fleet}, Located gameId none fleet → OneRoom gameId none fleet [] :=
    fun h => .of_located (h.run (by simp))
  -- the loop goes on to the next candidate only where nothing has been done
  induction attempts generalizing retries meanwhile fleet answer steps with
  | nil =>
      cases retries <;> cases hcall
      all_goals exact ⟨hidle h, h⟩
  | cons attempt attempts ih =>
      cases retries with
      | zero =>
          cases hcall
          exact ⟨hidle h, h⟩
      | succ retries =>
          obtain ⟨hbefore, hrest⟩ := sparedBy_headD hspared
          have hrun := h.run hbefore
          have hquiet : OneRoom gameId none fleet (meanwhile.headD []) := .of_located hrun
          have hsome := isSome_hosts_run fleet (meanwhile.headD []) attempt.candidate.allocationEndpoint
          rcases post_cases (fleet.run (meanwhile.headD [])) ⟨white, black, some gameId⟩ attempt with
            ⟨hunasked, hpost⟩ | ⟨host, hhost, hdelivery, -⟩ | ⟨host, response, hhost, -, hroom, hpost⟩
          · rw [hsome, ← hlistens] at hunasked
            rw [nothingLost_unasked hunasked] at hlost
            rw [tryCandidates_unanswered _ _ _ hpost, List.append_nil] at hcall
            obtain ⟨rfl, rfl⟩ := Prod.mk.inj hcall
            obtain ⟨hone, hlocated⟩ := ih hrun.last
              (fun endpoint => (hlistens endpoint).trans (isSome_hosts_run fleet _ endpoint).symm) hlost hrest rfl
            refine ⟨(hquiet.of_none _).append hone, ?_⟩
            rw [run_append]
            exact hlocated
          · rw [NothingLost, hlistens, ← hsome, hhost, hdelivery] at hlost
            exact hlost.elim
          · rw [tryCandidates_answered _ _ _ hpost] at hcall
            obtain ⟨rfl, rfl⟩ := Prod.mk.inj hcall
            have hlocated := hrun.last.allocate hhost white black
            rw [← hroom] at hlocated
            refine ⟨(hquiet.of_none _).append ⟨?_, ?_⟩, ?_⟩
            · intro before hpre
              rcases List.prefix_cons_iff.mp hpre with rfl | ⟨rest, rfl, hrest⟩
              · exact hrun.last.atMostOneRoom
              · rw [List.prefix_nil.mp hrest]
                exact hlocated.atMostOneRoom
            · exact eachStep_cons.mpr ⟨(hrun.last.closesAt _).of_none _, .nil _ _ _⟩
            · rw [run_append]
              exact hlocated

/-! ### A room that nobody knows of -/

/-- What leaves the rooms alone leaves them where they are. -/
theorem leavesRooms_step (hwf : Wf fleet) (hleaves : Server.LeavesRooms step.what)
    (hhost : fleet.hosts endpoint = some host) :
    ∃ later, (fleet.step step).hosts endpoint = some later ∧ host.server.rooms.rooms <+: later.server.rooms.rooms ∧
      ∀ x ∈ later.server.data, x ∈ host.server.data := by
  obtain ⟨acting, what⟩ := step
  by_cases heq : acting = endpoint
  · subst heq
    obtain ⟨server, hact, hrooms, hdata⟩ := Server.act_leavesRooms (hwf.serverOf hhost) hleaves
    exact ⟨_, (step_act hhost hact).1, hrooms, hdata⟩
  · obtain ⟨later, hlater⟩ : ∃ later, (fleet.step ⟨acting, what⟩).hosts endpoint = some later := by
      apply Option.isSome_iff_exists.mp
      rw [isSome_hosts_step, hhost]
      rfl
    rcases hosts_step hlater with hsame | ⟨hsame, -⟩
    · rw [hhost] at hsame
      cases hsame
      exact ⟨host, hlater, List.prefix_rfl, fun x hx => hx⟩
    · exact absurd hsame heq

theorem leavesRooms_run (hwf : Wf fleet) {steps : List FleetStep}
    (hleaves : ∀ step ∈ steps, Server.LeavesRooms step.what) (hhost : fleet.hosts endpoint = some host) :
    Wf (fleet.run steps) ∧ ∃ later, (fleet.run steps).hosts endpoint = some later ∧
      host.server.rooms.rooms <+: later.server.rooms.rooms ∧ ∀ x ∈ later.server.data, x ∈ host.server.data := by
  induction steps generalizing fleet host with
  | nil => exact ⟨hwf, host, hhost, List.prefix_rfl, fun x hx => hx⟩
  | cons step steps ih =>
      obtain ⟨hstep, hrest⟩ := List.forall_mem_cons.mp hleaves
      obtain ⟨next, hnext, hrooms, hdata⟩ := leavesRooms_step hwf hstep hhost
      obtain ⟨hwf', later, hlater, hrooms', hdata'⟩ := ih (hwf.next step) hrest hnext
      exact ⟨hwf', later, hlater, hrooms.trans hrooms', fun x hx => hdata x (hdata' x hx)⟩

/-- A room for the game, with its players. -/
structure Orphan (gameId : Int) (endpoint : Text) (room : Room) (white black : GamePlayer) (fleet : Fleet) : Prop where
  wf : Wf fleet
  host : ∃ host, fleet.hosts endpoint = some host ∧ room ∈ host.server.rooms.rooms
  white : room.whitePlayer = some white
  black : room.blackPlayer = some black
  game : room.dbGameId = some gameId

/-- The session of a player goes. -/
def vanish (endpoint : Text) (id : PlayerId) : List FleetStep :=
  [⟨endpoint, .inl (.setLink id .failed)⟩, ⟨endpoint, .inr .pruneDisconnected⟩, ⟨endpoint, .inr (.prune id)⟩]

theorem vanish_leavesRooms (endpoint : Text) (id : PlayerId) :
    ∀ step ∈ vanish endpoint id, Server.LeavesRooms step.what := by
  simp [vanish, Server.LeavesRooms]

theorem run_vanish (hhost : fleet.hosts endpoint = some host) (id : PlayerId) :
    ∃ later, (fleet.run (vanish endpoint id)).hosts endpoint = some later ∧ ∀ x ∈ later.server.data, x.id ≠ id := by
  obtain ⟨hfailed, hserver⟩ := step_act hhost (show Server.act _ _ (.inl (.setLink id .failed)) = _ from rfl)
  obtain ⟨hprobed, hserver'⟩ := step_act hfailed (show Server.act _ _ (.inr .pruneDisconnected) = _ by rw [hserver]; rfl)
  obtain ⟨hpruned, -⟩ := step_act hprobed (show Server.act _ _ (.inr (.prune id)) = _ by rw [hserver']; rfl)
  exact ⟨_, hpruned, Server.pruneSession_failed (fleet.serverOf host) id⟩

namespace Orphan

variable {room : Room} {white black : GamePlayer}

theorem run (h : Orphan gameId endpoint room white black fleet) {steps : List FleetStep}
    (hleaves : ∀ step ∈ steps, Server.LeavesRooms step.what) :
    Orphan gameId endpoint room white black (fleet.run steps) := by
  obtain ⟨host, hhost, hroom⟩ := h.host
  obtain ⟨hwf, later, hlater, hrooms, -⟩ := leavesRooms_run h.wf hleaves hhost
  exact ⟨hwf, ⟨later, hlater, hrooms.subset hroom⟩, h.white, h.black, h.game⟩

/-- Both players go, and then the room is finished. -/
def abandon (endpoint : Text) (roomId : RoomId) (white black : PlayerId) : List FleetStep :=
  vanish endpoint white ++ vanish endpoint black ++ [⟨endpoint, .inr (.finish roomId none .disconnect)⟩]

theorem spared_abandon (endpoint : Text) (roomId : RoomId) (white black : PlayerId) :
    SparedBy gameId (abandon endpoint roomId white black) := by
  simp [SparedBy, abandon, vanish, Server.SparesGame]

/-- Such a room can close the game. -/
theorem location_eq (h : Orphan gameId endpoint room white black fleet)
    (hcloses : EachStep Fleet.step (ClosesAt gameId location) fleet
      (abandon endpoint room.id white.playerId black.playerId)) : location = some (endpoint, room.id) := by
  obtain ⟨host, hhost, -⟩ := h.host
  have hwhiteGone := h.run (vanish_leavesRooms endpoint white.playerId)
  obtain ⟨first, hfirst, hnoWhite⟩ := run_vanish hhost white.playerId
  have hbothGone := hwhiteGone.run (vanish_leavesRooms endpoint black.playerId)
  obtain ⟨second, hsecond, hnoBlack⟩ := run_vanish hfirst black.playerId
  obtain ⟨-, later, hlater, -, hdata⟩ :=
    leavesRooms_run hwhiteGone.wf (vanish_leavesRooms endpoint black.playerId) hfirst
  rw [hsecond] at hlater
  cases hlater
  obtain ⟨-, hlast⟩ := eachStep_append.mp hcloses
  rw [List.foldl_append] at hlast
  obtain ⟨hfinish, -⟩ := eachStep_cons.mp hlast
  change ClosesAt gameId location ((fleet.run _).run _) _ at hfinish
  obtain ⟨found, hfound, hroom⟩ := hbothGone.host
  rw [hsecond] at hfound
  cases hfound
  have hwf := hbothGone.wf.serverOf hsecond
  obtain ⟨server, hact, hmore⟩ := Server.finish_abandoned second.config hwf
    ⟨hwf.findRoom hroom, h.white, h.black⟩ h.game
    (Server.findSession_eq_none fun x hx => hnoWhite x (hdata x hx)) (Server.findSession_eq_none hnoBlack)
  obtain ⟨hserver, -⟩ := step_act hsecond hact
  obtain ⟨roomId, winner, reason, hlocation, hstep⟩ := hfinish endpoint (by
    unfold closings
    rw [hsecond, hserver]
    dsimp only
    rw [hmore]
    exact Nat.lt_succ_self _)
  obtain ⟨rfl, -, -⟩ := ServerOp.finish.inj (Sum.inr.inj (FleetStep.mk.inj hstep).2)
  exact hlocation

/-- A server does what it is asked for. -/
theorem allocate (gameId : Int) (hwf : Wf fleet) (hhost : fleet.hosts endpoint = some host) (white black : UserId) :
    ∃ room whitePlayer blackPlayer, Orphan gameId endpoint room whitePlayer blackPlayer
      (fleet.step ⟨endpoint, .inr (.allocate ⟨white, black, some gameId⟩)⟩) := by
  have hact : (fleet.serverOf host).act host.config (.inr (.allocate ⟨white, black, some gameId⟩)) =
      some ((fleet.serverOf host).allocate host.config ⟨white, black, some gameId⟩) := rfl
  refine ⟨Server.freshRoom host.config (fleet.serverOf host) ⟨white, black, some gameId⟩, _, _, hwf.next _,
    ⟨_, (step_act hhost hact).1, ?_⟩, rfl, rfl, rfl⟩
  unfold Server.allocate
  rw [Server.createRoom_eq (hwf.serverOf hhost).nextRoomFree]
  exact List.mem_append_right _ List.mem_cons_self

/-- The requests that follow leave the room where it is, and another one is returned. -/
theorem tryCandidates (h : Orphan gameId endpoint room white black fleet) {request : Server.GameCreationRequest}
    {attempts : List Attempt} {retries : Nat} {answer : Option (GameServerRecord × GameCreationResponse)}
    {steps : List FleetStep} (hcall : tryCandidates request retries attempts [] fleet = (answer, steps)) :
    Orphan gameId endpoint room white black (fleet.run steps) ∧ locationOf answer ≠ some (endpoint, room.id) := by
  induction attempts generalizing retries fleet answer steps with
  | nil =>
      cases retries <;> cases hcall
      all_goals exact ⟨h, by simp [locationOf]⟩
  | cons attempt attempts ih =>
      cases retries with
      | zero =>
          cases hcall
          exact ⟨h, by simp [locationOf]⟩
      | succ retries =>
          have hunanswered : ∀ {tried}, (∀ step ∈ tried, Server.LeavesRooms step.what) →
              fleet.post request attempt = (none, tried) →
              Orphan gameId endpoint room white black (fleet.run steps) ∧ locationOf answer ≠ some (endpoint, room.id) := by
            intro tried hleaves hpost
            rw [tryCandidates_unanswered [] retries attempts hpost] at hcall
            obtain ⟨rfl, rfl⟩ := Prod.mk.inj hcall
            obtain ⟨hkept, hother⟩ := ih (h.run hleaves) rfl
            refine ⟨?_, hother⟩
            change Orphan gameId endpoint room white black (fleet.run (tried ++ _))
            rw [run_append]
            exact hkept
          rcases post_cases fleet request attempt with
            ⟨-, hpost⟩ | ⟨host, -, -, hpost⟩ | ⟨host, response, hhost, -, hroom, hpost⟩
          · exact hunanswered (by simp) hpost
          · exact hunanswered (by simp [Server.LeavesRooms]) hpost
          · rw [tryCandidates_answered [] retries attempts hpost] at hcall
            obtain ⟨rfl, rfl⟩ := Prod.mk.inj hcall
            refine ⟨h.run (by simp [Server.LeavesRooms]), fun hlocation => ?_⟩
            obtain ⟨rfl, hid⟩ := Prod.mk.inj (Option.some.inj hlocation)
            obtain ⟨found, hfound, hmem⟩ := h.host
            rw [hhost] at hfound
            cases hfound
            -- the id that a room gets is not that of a room
            have hold := (h.wf _ host hhost).oldRooms room.id (List.mem_map_of_mem hmem)
            rw [← hid, hroom] at hold
            exact lt_irrefl _ hold

end Orphan

/-- An answer is lost. -/
theorem tryCandidates_orphan {listens : Text → Bool} (hwf : Wf fleet) {white black : UserId} {attempts : List Attempt}
    {retries : Nat} (hlistens : ∀ endpoint, listens endpoint = (fleet.hosts endpoint).isSome)
    (hlost : ¬NothingLost listens retries attempts) {answer : Option (GameServerRecord × GameCreationResponse)}
    {steps : List FleetStep}
    (hcall : tryCandidates ⟨white, black, some gameId⟩ retries attempts [] fleet = (answer, steps)) :
    ∃ endpoint room whitePlayer blackPlayer, Orphan gameId endpoint room whitePlayer blackPlayer (fleet.run steps) ∧
      locationOf answer ≠ some (endpoint, room.id) := by
  induction attempts generalizing retries fleet answer steps with
  | nil => cases retries <;> exact absurd trivial hlost
  | cons attempt attempts ih =>
      cases retries with
      | zero => exact absurd trivial hlost
      | succ retries =>
          rcases post_cases fleet ⟨white, black, some gameId⟩ attempt with
            ⟨hunasked, hpost⟩ | ⟨host, hhost, -, hpost⟩ | ⟨host, response, hhost, hdelivery, -, -⟩
          · rw [← hlistens] at hunasked
            rw [nothingLost_unasked hunasked] at hlost
            rw [tryCandidates_unanswered [] retries attempts hpost] at hcall
            obtain ⟨rfl, rfl⟩ := Prod.mk.inj hcall
            exact ih hwf hlistens hlost rfl
          · rw [tryCandidates_unanswered [] retries attempts hpost] at hcall
            obtain ⟨rfl, rfl⟩ := Prod.mk.inj hcall
            obtain ⟨room, whitePlayer, blackPlayer, horphan⟩ := Orphan.allocate gameId hwf hhost white black
            obtain ⟨hkept, hother⟩ := horphan.tryCandidates rfl
            exact ⟨_, _, _, _, hkept, hother⟩
          · rw [NothingLost, hlistens, hhost, hdelivery] at hlost
            exact absurd trivial hlost

/-! ### What is returned -/

/-- The room whose location `allocate_game` returns. -/
def returned (result : Except AllocationFailure (GameServerRecord × GameCreationResponse)) : Option (Text × RoomId) :=
  locationOf result.toOption

theorem allocateGame_eq (fleet : Fleet) (request : Server.GameCreationRequest) (maxRetryCount : Nat)
    (attempts : List Attempt) (meanwhile : List (List FleetStep)) :
    returned (fleet.allocateGame request maxRetryCount attempts meanwhile).1 =
      locationOf (tryCandidates request maxRetryCount attempts meanwhile fleet).1 ∧
    (fleet.allocateGame request maxRetryCount attempts meanwhile).2 =
      (tryCandidates request maxRetryCount attempts meanwhile fleet).2 := by
  unfold allocateGame
  cases attempts with
  | nil => cases maxRetryCount <;> exact ⟨rfl, rfl⟩
  | cons attempt attempts =>
      obtain ⟨answer, steps, hcall⟩ : ∃ answer steps,
          tryCandidates request maxRetryCount (attempt :: attempts) meanwhile fleet = (answer, steps) := ⟨_, _, rfl⟩
      simp only [List.isEmpty_cons, Bool.false_eq_true, if_false]
      rw [hcall]
      cases answer with
      | none => exact ⟨rfl, rfl⟩
      | some answer =>
          obtain ⟨candidate, result⟩ := answer
          refine ⟨?_, rfl⟩
          change some (candidate.allocationEndpoint, _) = some (candidate.allocationEndpoint, _)
          split_ifs <;> rfl

theorem Located.boot (gameId : Int) (configs : Text → Option ServerConfig) (users : UserRepository)
    (games : GameRepository) (store : RuntimeStore) : Located gameId none (boot configs users games store) := by
  have hserver : ∀ endpoint host, (Fleet.boot configs users games store).hosts endpoint = some host →
      host.server = Server.boot users games 0 := by
    intro endpoint host hhost
    obtain ⟨config, -, rfl⟩ := Option.map_eq_some_iff.mp hhost
    rfl
  refine ⟨fun endpoint host hhost => ?_, fun endpoint host hhost room hroom => ?_⟩
  · rw [hserver endpoint host hhost]
    exact .boot users games 0
  · rw [hserver endpoint host hhost] at hroom
    cases hroom

/-- Whatever the servers do before, in the meantime and afterwards, there is one room for a match, exactly if no
server makes a room and its answer is lost. -/
theorem one_room_for_match_iff (configs : Text → Option ServerConfig) (users : UserRepository)
    (games : GameRepository) (store : RuntimeStore) {earlier : List FleetStep} {gameId : Int}
    (hearlier : SparedBy gameId earlier) (white black : UserId) (maxRetryCount : Nat) (attempts : List Attempt) :
    (∀ meanwhile later, (∀ steps ∈ meanwhile, SparedBy gameId steps) → SparedBy gameId later →
      let fleet := (boot configs users games store).run earlier
      let call := fleet.allocateGame ⟨white, black, some gameId⟩ maxRetryCount attempts meanwhile
      OneRoom gameId (returned call.1) fleet (call.2 ++ later)) ↔
      NothingLost (fun endpoint => (configs endpoint).isSome) maxRetryCount attempts := by
  have hstart := ((Located.boot gameId configs users games store).run hearlier).last
  have hlistens : ∀ endpoint, (configs endpoint).isSome =
      (((boot configs users games store).run earlier).hosts endpoint).isSome := by
    intro endpoint
    rw [isSome_hosts_run]
    exact Option.isSome_map.symm
  constructor
  · intro hone
    by_contra hlost
    obtain ⟨answer, steps, hcall⟩ : ∃ answer steps, tryCandidates ⟨white, black, some gameId⟩ maxRetryCount attempts []
        ((boot configs users games store).run earlier) = (answer, steps) := ⟨_, _, rfl⟩
    obtain ⟨endpoint, room, whitePlayer, blackPlayer, horphan, hother⟩ :=
      tryCandidates_orphan hstart.wf hlistens hlost hcall
    obtain ⟨hreturned, hsteps⟩ := allocateGame_eq ((boot configs users games store).run earlier)
      ⟨white, black, some gameId⟩ maxRetryCount attempts []
    have hclosed := (hone [] (Orphan.abandon endpoint room.id whitePlayer.playerId blackPlayer.playerId) (by simp)
      (Orphan.spared_abandon _ _ _ _)).closed
    rw [hreturned, hsteps, hcall] at hclosed
    exact hother (horphan.location_eq (eachStep_append.mp hclosed).2)
  · intro hlost meanwhile later hmeanwhile hlater
    dsimp only
    obtain ⟨hreturned, hsteps⟩ := allocateGame_eq ((boot configs users games store).run earlier)
      ⟨white, black, some gameId⟩ maxRetryCount attempts meanwhile
    rw [hreturned, hsteps]
    obtain ⟨hone, hlocated⟩ := tryCandidates_oneRoom white black hstart hlistens hlost hmeanwhile rfl
    exact hone.append (.of_located (hlocated.run hlater))

/-- Two servers that listen. -/
def sampleConfigs (endpoint : Text) : Option ServerConfig :=
  if endpoint = "http://a".toList ∨ endpoint = "http://b".toList then some { sampleConfig with serverId := endpoint }
  else none

/-- A candidate that listens at an endpoint. -/
def attemptAt (endpoint : String) (delivery : Delivery) : Attempt :=
  ⟨⟨endpoint.toList, [], endpoint.toList, [], 0, [], 0⟩, delivery⟩

/-- The first request is lost on its way, and the second server takes the game. -/
theorem one_room_for_match_iff_request_lost :
    SparedBy 1 [] ∧ OneRoom 1 (some ("http://b".toList, 1)) (boot sampleConfigs {} {} {})
      [⟨"http://b".toList, .inr (.allocate ⟨1, 2, some 1⟩)⟩] := by
  have hspared : SparedBy 1 [] := by simp [SparedBy]
  have hone := (one_room_for_match_iff sampleConfigs {} {} {} hspared 1 2 3
    [attemptAt "http://a" .requestLost, attemptAt "http://b" .delivered]).mpr
    (by simp [NothingLost, attemptAt, sampleConfigs]) [] [] (by simp) hspared
  exact ⟨hspared, hone⟩

/-- The answer of the first server is lost, and the second takes the game too. -/
theorem not_one_room_for_match_response_lost :
    let fleet := boot sampleConfigs {} {} {}
    let call := fleet.allocateGame ⟨1, 2, some 1⟩ 3
      [attemptAt "http://a" .responseLost, attemptAt "http://b" .delivered] []
    returned call.1 = some ("http://b".toList, 1) ∧ ¬OneRoom 1 (returned call.1) fleet call.2 := by
  refine ⟨by decide +kernel, fun hone => ?_⟩
  have hrooms := hone.rooms.last
  have hactive : ∀ endpoint ∈ ["http://a".toList, "http://b".toList],
      ((List.foldl Fleet.step (boot sampleConfigs {} {} {})
        ((boot sampleConfigs {} {} {}).allocateGame ⟨1, 2, some 1⟩ 3
          [attemptAt "http://a" .responseLost, attemptAt "http://b" .delivered] []).2).roomsOf endpoint).any
        (fun room => room.active && decide (room.dbGameId = some 1)) = true := by
    decide +kernel
  simp only [List.mem_cons, List.not_mem_nil, or_false, forall_eq_or_imp, forall_eq, List.any_eq_true,
    Bool.and_eq_true, decide_eq_true_eq] at hactive
  obtain ⟨⟨room, hroom, hopen, hgame⟩, twin, htwin, htwinOpen, htwinGame⟩ := hactive
  obtain ⟨hsame, -⟩ := hrooms _ _ room hroom twin htwin hopen htwinOpen hgame htwinGame
  exact absurd hsame (by decide)

end Fleet

end KungFuChess
