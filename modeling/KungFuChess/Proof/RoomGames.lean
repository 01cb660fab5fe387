import KungFuChess.Proof.Turns
import KungFuChess.Proof.Commands
import KungFuChess.Proof.Ownership

/-!
# The games of the rooms

A room of the server plays the game that its own history says: the ticks of the room and the inputs that were polled for
it, since the room was made or last finished, played again on a new match. Nothing else that happens on the server
touches the match. So every game of a room is one that the rules allow, and no operation on it fails.
-/

namespace KungFuChess

open Machine Loops

deriving instance DecidableEq for RoomEvent

/-! ### Reachable matches -/

section Matches

variable {m m' : Match}

theorem Reachable.apply {s s' : GameState} {a : GameAction} (h : Reachable s) (hs' : s.applyAction a = .ok s') :
    Reachable s' := h.runActions ((runActions_singleton s a).trans hs')

/-- What a match makes of its inputs is a run of actions. -/
theorem applyRoomInputs_runs (h : Reachable m.state) {inputs : List RoomPlayerInput} {winner : Option PieceColor}
    (hm' : applyRoomInputs m inputs = .ok (m', winner)) : ∃ actions, m.state.runActions actions = .ok m'.state := by
  induction inputs generalizing m with
  | nil =>
      cases hm'
      exact ⟨[], rfl⟩
  | cons input inputs ih =>
      rw [applyRoomInputs_cons h.inv] at hm'
      split at hm'
      · cases hm'
        exact ⟨[], rfl⟩
      split at hm'
      · obtain ⟨mid, hmid, hrest⟩ := bind_eq_ok.mp hm'
        obtain ⟨state, hstate, hdone⟩ := bind_eq_ok.mp hmid
        cases hdone
        obtain ⟨actions, hactions⟩ := ih (h.apply hstate) hrest
        refine ⟨input.action :: actions, ?_⟩
        rw [GameState.runActions, List.foldlM_cons, hstate]
        exact hactions
      · exact ih h hm'

theorem handle_runs (h : Reachable m.state) {e : RoomEvent} (hm' : m.handle e = .ok m') :
    ∃ actions, m.state.runActions actions = .ok m'.state := by
  cases e with
  | tick ms =>
      obtain ⟨state, hstate, hdone⟩ := bind_eq_ok.mp hm'
      cases hdone
      exact ⟨_, (runActions_singleton m.state (.advanceClock ms)).trans hstate⟩
  | inputs polled =>
      obtain ⟨⟨played, winner⟩, hplayed, hdone⟩ := bind_eq_ok.mp hm'
      cases hdone
      exact applyRoomInputs_runs h hplayed

theorem handle_reachable (h : Reachable m.state) {e : RoomEvent} (hm' : m.handle e = .ok m') : Reachable m'.state := by
  obtain ⟨actions, hactions⟩ := handle_runs h hm'
  exact h.runActions hactions

theorem matchRun_runs (h : Reachable m.state) {events : List RoomEvent} (hm' : m.run events = .ok m') :
    ∃ actions, m.state.runActions actions = .ok m'.state := by
  induction events generalizing m with
  | nil =>
      cases hm'
      exact ⟨[], rfl⟩
  | cons e events ih =>
      rw [Match.run, List.foldlM_cons] at hm'
      obtain ⟨mid, hmid, hrest⟩ := bind_eq_ok.mp hm'
      obtain ⟨first, hfirst⟩ := handle_runs h hmid
      obtain ⟨actions, hactions⟩ := ih (handle_reachable h hmid) hrest
      refine ⟨first ++ actions, ?_⟩
      rw [GameState.runActions, List.foldlM_append]
      exact bind_eq_ok.mpr ⟨mid.state, hfirst, hactions⟩

theorem matchRun_reachable (h : Reachable m.state) {events : List RoomEvent} (hm' : m.run events = .ok m') :
    Reachable m'.state := by
  obtain ⟨actions, hactions⟩ := matchRun_runs h hm'
  exact h.runActions hactions

end Matches

namespace Server

variable {config : ServerConfig} {s s' : Server} {roomId : RoomId}

/-! ### The history of a room -/

/-- What a step of a run does to the match of a room that is there. -/
def roomEvent (roomId : RoomId) : Server × (NetEvent ⊕ ServerOp) → Option RoomEvent
  | (s, .inr (.tickRoom id elapsed)) =>
      if id = roomId then (s.rooms.findRoom roomId).map fun _ => .tick elapsed else none
  | (s, .inr (.playRoomInputs id)) =>
      if id = roomId then (s.rooms.findRoom roomId).map fun room => .inputs (s.pollRoomInputs room).1 else none
  | _ => none

/-- A finish of the room that passes its guard: the match begins anew. -/
def restarts (roomId : RoomId) : Server × (NetEvent ⊕ ServerOp) → Bool
  | (s, .inr (.finish id _ _)) =>
      id == roomId && (s.rooms.findRoom roomId).any fun room => room.whitePlayer.isSome && room.blackPlayer.isSome
  | _ => false

def replayStep (roomId : RoomId) (events : List RoomEvent) (x : Server × (NetEvent ⊕ ServerOp)) : List RoomEvent :=
  if restarts roomId x then [] else events ++ (roomEvent roomId x).toList

/-- The events of the game that the room is in. -/
def replay (roomId : RoomId) (history : History) : List RoomEvent := history.foldl (replayStep roomId) []

theorem replay_concat (history : History) (x : Server × (NetEvent ⊕ ServerOp)) :
    replay roomId (history ++ [x]) = replayStep roomId (replay roomId history) x := by
  rw [replay, List.foldl_append]
  rfl

theorem replay_event (history : History) (event : NetEvent) :
    replay roomId (history ++ [(s, .inl event)]) = replay roomId history := by
  rw [replay_concat]
  exact List.append_nil _

/-! ### What a step does to the rooms -/

/-- The room goes on from the room it was, as the step says. -/
structure GoesOn (x : Server × (NetEvent ⊕ ServerOp)) (old room : Room) : Prop where
  mem : old ∈ x.1.rooms.rooms
  id : room.id = old.id
  board : room.defaultBoard = old.defaultBoard
  restart : restarts room.id x = true → room.game = Match.new room.defaultBoard
  event : restarts room.id x = false → ∀ e, roomEvent room.id x = some e → old.game.handle e = .ok room.game
  still : restarts room.id x = false → roomEvent room.id x = none → room.game = old.game

/-- A room that has just been made. -/
structure IsFresh (config : ServerConfig) (s : Server) (room : Room) : Prop where
  id : room.id = s.rooms.nextId
  board : room.defaultBoard = config.defaultBoard
  game : room.game = Match.new config.defaultBoard

/-- Every room goes on from a room that was there, or it is new. -/
structure RoomsGoOn (config : ServerConfig) (s : Server) (op : ServerOp) (s' : Server) : Prop where
  rooms : ∀ room ∈ s'.rooms.rooms, (∃ old, GoesOn (s, .inr op) old room) ∨ IsFresh config s room
  nextId : s.rooms.nextId ≤ s'.rooms.nextId

/-- What happens to no match. -/
def LeavesMatches (s : Server) (op : ServerOp) : Prop :=
  ∀ roomId, restarts roomId (s, .inr op) = false ∧ roomEvent roomId (s, .inr op) = none

theorem GoesOn.same {op : ServerOp} (hop : LeavesMatches s op) {old room : Room} (hmem : old ∈ s.rooms.rooms)
    (hid : room.id = old.id) (hboard : room.defaultBoard = old.defaultBoard) (hgame : room.game = old.game) :
    GoesOn (s, .inr op) old room := by
  obtain ⟨hrestarts, hevent⟩ := hop room.id
  refine ⟨hmem, hid, hboard, fun h => ?_, fun _ e he => ?_, fun _ _ => hgame⟩
  · rw [hrestarts] at h
    cases h
  · rw [hevent] at he
    cases he

theorem RoomsGoOn.of_subset {op : ServerOp} (hop : LeavesMatches s op) (hrooms : s'.rooms.rooms ⊆ s.rooms.rooms)
    (hnext : s'.rooms.nextId = s.rooms.nextId) : RoomsGoOn config s op s' :=
  ⟨fun room hroom => .inl ⟨room, .same hop (hrooms hroom) rfl rfl rfl⟩, hnext.ge⟩

theorem RoomsGoOn.of_rooms {op : ServerOp} (hop : LeavesMatches s op) (hrooms : s'.rooms = s.rooms) :
    RoomsGoOn config s op s' :=
  .of_subset hop (by rw [hrooms]; exact fun _ => id) (by rw [hrooms])

theorem RoomsGoOn.of_fresh {op : ServerOp} (hop : LeavesMatches s op) {request : GameCreationRequest} {t : Server}
    (hrooms : s'.rooms = ⟨s.rooms.rooms ++ [freshRoom config t request], s.rooms.nextId + 1⟩)
    (hnext : t.rooms.nextId = s.rooms.nextId) : RoomsGoOn config s op s' := by
  constructor
  · intro room hroom
    rw [hrooms] at hroom
    rcases List.mem_append.mp hroom with hold | hnew
    · exact .inl ⟨room, .same hop hold rfl rfl rfl⟩
    · rw [List.mem_singleton.mp hnew]
      exact .inr ⟨hnext, rfl, rfl⟩
  · rw [hrooms]
    exact Nat.le_succ _

/-- One room is changed. -/
theorem RoomsGoOn.of_modifyRoom {op : ServerOp} {f : Room → Room} (hwf : Wf s)
    (hrooms : s'.rooms = s.rooms.modifyRoom roomId f) (hothers : ∀ other, other ≠ roomId →
      restarts other (s, .inr op) = false ∧ roomEvent other (s, .inr op) = none)
    (hroom : ∀ room, s.rooms.findRoom roomId = some room → GoesOn (s, .inr op) room (f room)) :
    RoomsGoOn config s op s' := by
  constructor
  · intro room hmem
    rw [hrooms] at hmem
    obtain ⟨old, hold, rfl⟩ := mem_modifyRoom hmem
    by_cases hid : old.id = roomId
    · rw [if_pos hid]
      exact .inl ⟨old, hroom old (hid ▸ hwf.findRoom hold)⟩
    · rw [if_neg hid]
      obtain ⟨hrestarts, hevent⟩ := hothers old.id hid
      refine .inl ⟨old, hold, rfl, rfl, fun h => ?_, fun _ e he => ?_, fun _ _ => rfl⟩
      · rw [hrestarts] at h
        cases h
      · rw [hevent] at he
        cases he
  · rw [hrooms]
    exact le_rfl

theorem tickRoom_found {elapsed : Int} {room : Room} (hroom : s.rooms.findRoom roomId = some room)
    (h : s.tickRoom config roomId elapsed = .ok s') :
    ∃ game, room.game.tick elapsed = .ok game ∧ s'.rooms = s.rooms.modifyRoom roomId ({ · with game }) := by
  unfold tickRoom at h
  rw [hroom] at h
  obtain ⟨game, hgame, hrest⟩ := bind_eq_ok.mp h
  cases hrest
  refine ⟨game, mapError_eq_ok.mp hgame, ?_⟩
  have hbare : ∀ t : Server, t.bare.rooms = t.rooms := fun _ => rfl
  change (sendSnapshot _ _ _).rooms = _
  rw [← hbare, sendSnapshot_bare, sendSnapshot_bare]
  rfl

theorem playRoomInputs_found {winner : Option PieceColor} {room : Room} (hroom : s.rooms.findRoom roomId = some room)
    (h : s.playRoomInputs roomId = .ok (winner, s')) :
    ∃ game, applyRoomInputs room.game (s.pollRoomInputs room).1 = .ok (game, winner) ∧
      s'.rooms = s.rooms.modifyRoom roomId ({ · with game }) := by
  unfold playRoomInputs at h
  rw [hroom] at h
  obtain ⟨⟨game, resigned⟩, hgame, hrest⟩ := bind_eq_ok.mp h
  cases hrest
  refine ⟨game, mapError_eq_ok.mp hgame, ?_⟩
  have hbare : ∀ t : Server, t.bare.rooms = t.rooms := fun _ => rfl
  change (s.pollRoomInputs room).2.rooms.modifyRoom roomId _ = _
  rw [← hbare, pollRoomInputs_bare, hbare]

theorem finish_found {winner : Option PieceColor} {reason : FinishReason} (hwf : Wf s)
    (h : s.finish config roomId winner reason = .ok s') :
    RoomsGoOn config s (.finish roomId winner reason) s' := by
  have hothers : ∀ other, other ≠ roomId → restarts other (s, .inr (.finish roomId winner reason)) = false ∧
      roomEvent other (s, .inr (.finish roomId winner reason)) = none := by
    intro other hne
    refine ⟨?_, rfl⟩
    rw [restarts, beq_false_of_ne hne.symm]
    rfl
  have hbare : ∀ t : Server, t.bare.rooms = t.rooms := fun _ => rfl
  rcases finish_ok h with ⟨rfl, hguard⟩ | ⟨room, white, black, online, hends, hsame, -⟩
  · refine .of_rooms (fun other => ⟨?_, rfl⟩) rfl
    by_cases hid : other = roomId
    · subst hid
      cases hroom : s'.rooms.findRoom other with
      | none => simp [restarts, hroom]
      | some room =>
          cases hwhite : room.whitePlayer with
          | none => simp [restarts, hroom, hwhite]
          | some white =>
              cases hblack : room.blackPlayer with
              | none => simp [restarts, hroom, hblack]
              | some black => exact absurd ⟨hroom, hwhite, hblack⟩ (hguard room white black)
    · exact (hothers other hid).1
  · have hrooms : s'.rooms = s.rooms.modifyRoom roomId (·.reset) := by
      rw [← hbare, hsame]
      rfl
    refine .of_modifyRoom hwf hrooms hothers fun found hfound => ?_
    have hrestarts : restarts roomId (s, .inr (.finish roomId winner reason)) = true := by
      simp [restarts, hends.find, hends.white, hends.black]
    obtain ⟨hmem, hid⟩ := findRoom_some hfound
    refine ⟨hmem, rfl, rfl, fun _ => rfl, fun h => ?_, fun h => ?_⟩
    · rw [show found.reset.id = roomId from hid, hrestarts] at h
      cases h
    · rw [show found.reset.id = roomId from hid, hrestarts] at h
      cases h

/-- Only the ticks and the inputs of a room that is there are events of its game. -/
theorem roomEvent_eq_none {op : ServerOp} (h : ∀ elapsed, op = .tickRoom roomId elapsed → s.rooms.findRoom roomId = none)
    (h' : op = .playRoomInputs roomId → s.rooms.findRoom roomId = none) : roomEvent roomId (s, .inr op) = none := by
  cases op with
  | tickRoom id elapsed =>
      rw [roomEvent]
      split
      · rename_i hid
        subst hid
        rw [h elapsed rfl]
        rfl
      · rfl
  | playRoomInputs id =>
      rw [roomEvent]
      split
      · rename_i hid
        subst hid
        rw [h' rfl]
        rfl
      · rfl
  | acceptNewClients => rfl
  | lobby id => rfl
  | processTimeouts => rfl
  | pruneDisconnected => rfl
  | prune id => rfl
  | join id => rfl
  | allocate request => rfl
  | readClock => rfl
  | probeRoom id => rfl
  | finish id winner reason => rfl
  | removeInactiveRooms => rfl

/-- A room that is there plays one event. -/
theorem RoomsGoOn.of_event {op : ServerOp} {e : RoomEvent} {room : Room} {game : Match} (hwf : Wf s)
    (hroom : s.rooms.findRoom roomId = some room) (hrestarts : ∀ other, restarts other (s, .inr op) = false)
    (hothers : ∀ other, other ≠ roomId → roomEvent other (s, .inr op) = none)
    (hevent : roomEvent roomId (s, .inr op) = some e) (hgame : room.game.handle e = .ok game)
    (hrooms : s'.rooms = s.rooms.modifyRoom roomId ({ · with game })) : RoomsGoOn config s op s' := by
  refine .of_modifyRoom hwf hrooms (fun other hne => ⟨hrestarts other, hothers other hne⟩) fun found hfound => ?_
  obtain ⟨hmem, hid⟩ := findRoom_some hfound
  obtain rfl : room = found := Option.some.inj (hroom.symm.trans hfound)
  rw [← hid] at hevent
  refine ⟨hmem, rfl, rfl, fun h => ?_, fun _ e' he => ?_, fun _ he => ?_⟩
  · cases (hrestarts room.id).symm.trans h
  · obtain rfl := Option.some.inj (hevent.symm.trans he)
    exact hgame
  · cases hevent.symm.trans he

theorem LeavesMatches.of_quiet {op : ServerOp} (hrestarts : ∀ roomId, restarts roomId (s, .inr op) = false)
    (hevent : ∀ roomId, roomEvent roomId (s, .inr op) = none) : LeavesMatches s op :=
  fun other => ⟨hrestarts other, hevent other⟩

theorem tickRoom_goOn (hwf : Wf s) {elapsed : Int} (h : s.tickRoom config roomId elapsed = .ok s') :
    RoomsGoOn config s (.tickRoom roomId elapsed) s' := by
  cases hroom : s.rooms.findRoom roomId with
  | none =>
      rw [tickRoom, hroom] at h
      cases h
      refine .of_rooms (.of_quiet (fun _ => rfl) fun other => roomEvent_eq_none ?_ (by simp)) rfl
      intro _ hop
      cases hop
      exact hroom
  | some room =>
      obtain ⟨game, hgame, hrooms⟩ := tickRoom_found hroom h
      refine .of_event (e := .tick elapsed) hwf hroom (fun _ => rfl) (fun other hne => if_neg hne.symm) ?_ hgame hrooms
      rw [roomEvent, if_pos rfl, hroom]
      rfl

theorem playRoomInputs_goOn (hwf : Wf s) {winner : Option PieceColor} (h : s.playRoomInputs roomId = .ok (winner, s')) :
    RoomsGoOn config s (.playRoomInputs roomId) s' := by
  cases hroom : s.rooms.findRoom roomId with
  | none =>
      rw [playRoomInputs, hroom] at h
      cases h
      refine .of_rooms (.of_quiet (fun _ => rfl) fun other => roomEvent_eq_none (by simp) ?_) rfl
      intro hop
      cases hop
      exact hroom
  | some room =>
      obtain ⟨game, hgame, hrooms⟩ := playRoomInputs_found hroom h
      have hevent : roomEvent roomId (s, .inr (.playRoomInputs roomId)) = some (.inputs (s.pollRoomInputs room).1) := by
        rw [roomEvent, if_pos rfl, hroom]
        rfl
      have hplayed : room.game.handle (.inputs (s.pollRoomInputs room).1) = .ok game := by
        rw [Match.handle, hgame]
        rfl
      exact .of_event hwf hroom (fun _ => rfl) (fun other hne => if_neg hne.symm) hevent hplayed hrooms

/-- The lobby makes a room for two who are paired, and touches no other. -/
theorem LobbyStep.goOn {id : PlayerId} {t : Server} (hstep : LobbyStep config s id t) (hrooms : s'.rooms = t.rooms) :
    RoomsGoOn config s (.lobby id) s' := by
  have hleaves : LeavesMatches s (.lobby id) := .of_quiet (fun _ => rfl) fun _ => rfl
  cases hstep with
  | idle => exact .of_rooms hleaves hrooms
  | login _ _ _ _ _ _ _ _ =>
      rw [loggedIn, registerSession_eq] at hrooms
      exact .of_rooms hleaves hrooms
  | wait _ _ => exact .of_rooms hleaves hrooms
  | pair _ _ _ _ _ _ _ _ => exact .of_fresh hleaves hrooms rfl

/-- The rooms go on in every operation. -/
theorem Wf.roomsGoOn (hwf : Wf s) {op : ServerOp} {r : op.Result} (h : s.apply config op = .ok (r, s')) :
    RoomsGoOn config s op s' := by
  have hbare : ∀ t : Server, t.bare.rooms = t.rooms := fun _ => rfl
  cases op with
  | tickRoom roomId elapsed =>
      obtain ⟨t, ht, heq⟩ := map_eq_ok.mp h
      cases heq
      exact tickRoom_goOn hwf ht
  | playRoomInputs roomId => exact playRoomInputs_goOn hwf h
  | finish roomId winner reason =>
      obtain ⟨t, ht, heq⟩ := map_eq_ok.mp h
      cases heq
      exact finish_found hwf ht
  | lobby id =>
      obtain ⟨t, hstep, hsame⟩ := apply_step hwf.nextRoomFree h
      have hrooms : s'.rooms = t.rooms := by rw [← hbare, hsame, hbare]
      cases hstep with
      | idle _ _ => exact .of_rooms (.of_quiet (fun _ => rfl) fun _ => rfl) hrooms
      | lobby hlobby => exact hlobby.goOn hrooms
  | allocate request =>
      obtain ⟨t, hstep, hsame⟩ := apply_step hwf.nextRoomFree h
      have hrooms : s'.rooms = t.rooms := by rw [← hbare, hsame, hbare]
      cases hstep with
      | idle _ hasked => exact absurd rfl (hasked request)
      | allocate _ _ => exact .of_fresh (.of_quiet (fun _ => rfl) fun _ => rfl) hrooms rfl
  | removeInactiveRooms =>
      cases h
      exact .of_subset (.of_quiet (fun _ => rfl) fun _ => rfl) (List.filter_subset_self _) rfl
  | acceptNewClients =>
      cases h
      refine .of_rooms (.of_quiet (fun _ => rfl) fun _ => rfl) ?_
      rcases acceptNewClients_cases config s with hidle | ⟨-, -, backlog, haccept⟩
      · rw [hidle]
      · rw [haccept]
        rfl
  | processTimeouts =>
      cases h
      refine .of_rooms (.of_quiet (fun _ => rfl) fun _ => rfl) ?_
      rw [← hbare, processTimeouts_bare]
      rfl
  | pruneDisconnected =>
      cases h
      exact .of_rooms (.of_quiet (fun _ => rfl) fun _ => rfl) rfl
  | prune id =>
      cases h
      refine .of_rooms (.of_quiet (fun _ => rfl) fun _ => rfl) ?_
      rcases pruneSession_cases s id with hidle | ⟨x, -, -, hprune⟩
      · rw [hidle]
      · rw [hprune]
        rfl
  | join id =>
      cases h
      refine .of_rooms (.of_quiet (fun _ => rfl) fun _ => rfl) ?_
      rcases joinRound_step s id with hidle | ⟨x, roomId, side, -, -, hjoin⟩
      · rw [← hbare, hidle, hbare]
      · rw [← hbare, hjoin]
        rfl
  | readClock =>
      cases h
      exact .of_rooms (.of_quiet (fun _ => rfl) fun _ => rfl) rfl
  | probeRoom roomId =>
      cases h
      refine .of_rooms (.of_quiet (fun _ => rfl) fun _ => rfl) ?_
      rw [← hbare, probeRoom_bare, hbare]

/-! ### The games -/

/-- Every room plays the game of its history, and no room that is still to be made has one. -/
structure Replays (config : ServerConfig) (s : Server) (history : History) : Prop where
  games : ∀ room ∈ s.rooms.rooms, room.defaultBoard = config.defaultBoard ∧
    (Match.new config.defaultBoard).run (replay room.id history) = .ok room.game
  unborn : ∀ roomId, s.rooms.nextId ≤ roomId → replay roomId history = []

theorem Wf.roomEvent_unborn (hwf : Wf s) (hid : s.rooms.nextId ≤ roomId) (op : ServerOp) :
    roomEvent roomId (s, .inr op) = none := by
  have hnone : s.rooms.findRoom roomId = none := by
    apply List.find?_eq_none.mpr
    intro room hroom hfound
    have hold := hwf.oldRooms room.id (List.mem_map_of_mem hroom)
    exact absurd (beq_iff_eq.mp hfound ▸ hold) (Nat.not_lt.mpr hid)
  exact roomEvent_eq_none (fun _ _ => hnone) fun _ => hnone

theorem Replays.step {history : History} (h : Replays config s history) (hwf : Wf s) {op : ServerOp} {r : op.Result}
    (happly : s.apply config op = .ok (r, s')) : Replays config s' (history ++ [(s, .inr op)]) := by
  obtain ⟨hrooms, hnext⟩ := hwf.roomsGoOn happly
  have hunborn : ∀ roomId, s.rooms.nextId ≤ roomId → replay roomId (history ++ [(s, .inr op)]) = [] := by
    intro roomId hid
    rw [replay_concat, replayStep, h.unborn roomId hid, hwf.roomEvent_unborn hid]
    split
    · rfl
    · rfl
  refine ⟨fun room hroom => ?_, fun roomId hid => hunborn roomId (hnext.trans hid)⟩
  rcases hrooms room hroom with ⟨old, hold⟩ | hfresh
  · obtain ⟨hboard, hgame⟩ := h.games old hold.mem
    refine ⟨hold.board.trans hboard, ?_⟩
    rw [replay_concat, replayStep]
    cases hrestarts : restarts room.id (s, .inr op) with
    | true =>
        rw [if_pos rfl, hold.restart hrestarts, hold.board, hboard]
        rfl
    | false =>
        rw [if_neg Bool.false_ne_true]
        rw [← hold.id] at hgame
        cases hevent : roomEvent room.id (s, .inr op) with
        | none =>
            rw [hold.still hrestarts hevent]
            exact (congrArg _ (List.append_nil _)).trans hgame
        | some e => exact (matchRun_append _ _ e).trans (by rw [hgame, ok_bind, hold.event hrestarts e hevent])
  · refine ⟨hfresh.board, ?_⟩
    rw [hunborn room.id hfresh.id.ge, hfresh.game]
    rfl

theorem Replays.boot (config : ServerConfig) (users : UserRepository) (games : GameRepository) (now : Nat) :
    Replays config (boot users games now) [] :=
  ⟨fun _ hroom => absurd hroom List.not_mem_nil, fun _ _ => rfl⟩

/-- What happens in the network is no event of a room. -/
theorem Replays.occur {history : History} (h : Replays config s history) (event : NetEvent) :
    Replays config (s.occur event) (history ++ [(s, .inl event)]) := by
  have hrooms : (s.occur event).rooms = s.rooms := by
    cases event with
    | connect => rfl
    | deliver id content => rfl
    | setLink id link => rfl
    | pass duration => rfl
  constructor
  · intro room hroom
    rw [replay_event]
    exact h.games room (by rwa [hrooms] at hroom)
  · intro roomId hid
    rw [replay_event]
    exact h.unborn roomId (by rwa [hrooms] at hid)

section Runs

variable {users : UserRepository} {games : GameRepository} {now : Nat} {script : List (List NetEvent)}
  {w : ServerWorld config}

theorem replays_of_leads (hleads : Leads { state := boot users games now, script } w) :
    Wf w.state ∧ Replays config w.state w.history :=
  hleads.invariant (M := serverMachine config) (P := fun s history => Wf s ∧ Replays config s history)
    (C := fun _ _ => True) (fun _ _ event h _ => ⟨h.1.occur event, h.2.occur event⟩)
    (fun _ _ _ _ _ h _ happly => ⟨h.1.apply happly, h.2.step h.1 happly⟩)
    ⟨.boot users games now, .boot config users games now⟩ fun _ _ => trivial

/-- So it is at each step of the run. -/
theorem replays_throughout (hleads : Leads { state := boot users games now, script } w) {before : History}
    {x : Server × (NetEvent ⊕ ServerOp)} (hpre : before ++ [x] <+: w.history) : Replays config x.1 before :=
  (hleads.throughout (M := serverMachine config) (P := fun s history => Wf s ∧ Replays config s history)
    (C := fun _ _ => True) (fun _ _ event h _ => ⟨h.1.occur event, h.2.occur event⟩)
    (fun _ _ _ _ _ h _ happly => ⟨h.1.apply happly, h.2.step h.1 happly⟩)
    ⟨.boot users games now, .boot config users games now⟩ (fun _ _ => trivial) before x List.nil_prefix hpre).2

end Runs

/-- Whatever happens on the server, the match of a room is what the ticks of that room and the inputs polled for it since
its last start make of a new match, and every state that such a match goes through is one of a game by the rules. -/
theorem rooms_replay_their_history {users : UserRepository} {games : GameRepository} {now : Nat}
    {script : List (List NetEvent)} {w : ServerWorld config}
    (hleads : Leads { state := boot users games now, script } w) (hboard : AcceptedBoard config.defaultBoard) :
    ∀ room ∈ w.state.rooms.rooms,
      (Match.new config.defaultBoard).run (replay room.id w.history) = .ok room.game ∧ Reachable room.game.state := by
  intro room hroom
  have hgame := ((replays_of_leads hleads).2.games room hroom).2
  exact ⟨hgame, matchRun_reachable (m := .new _) (reachable_new hboard) hgame⟩

/-- Ann selects her rook and moves it. -/
theorem rooms_replay_their_history_move :
    ∃ w, Leads (sampleWorld (untilGame ++ [[say 0 "select 0 0"]] ++ quiet 12 ++ [[say 0 "move 0 2"]])) w ∧
      .inputs [⟨.white, .action, .moveSelected 0 2⟩] ∈ replay 1 w.history ∧
      ∃ room ∈ w.state.rooms.rooms,
        (Match.new kingsBoard).run (replay room.id w.history) = .ok room.game ∧ Reachable room.game.state := by
  have hrun : (serve sampleConfig (List.replicate 6 .gameServerTick)).reaches
      (sampleWorld (untilGame ++ [[say 0 "select 0 0"]] ++ quiet 12 ++ [[say 0 "move 0 2"]]))
      (fun _ w => decide (.inputs [⟨.white, .action, .moveSelected 0 2⟩] ∈ replay 1 w.history ∧
        w.state.rooms.rooms ≠ [])) = true := by
    decide +kernel
  obtain ⟨_, w, hrun, hw⟩ := Prog.reaches_eq_true hrun
  obtain ⟨hmove, hrooms⟩ := of_decide_eq_true hw
  obtain ⟨room, hroom⟩ := List.exists_mem_of_ne_nil _ hrooms
  have hleads := Leads.of_run hrun
  exact ⟨w, hleads, hmove, room, hroom, rooms_replay_their_history hleads kingsBoard_accepted room hroom⟩

end Server

end KungFuChess
