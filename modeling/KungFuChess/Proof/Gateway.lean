import KungFuChess.Lib.Histories
import KungFuChess.Model.Gateway
import KungFuChess.Proof.Regions
import KungFuChess.Proof.Runs

/-!
# Searching over two processes

What each step does to the sessions of the gateway, to the queue of the matchmaker and to what is under way
between them.
-/

namespace KungFuChess

open Histories WaitingLine

namespace Server

variable {config : ServerConfig} {region : Text} {s s' t : Server} {id : PlayerId} {φ ψ : SessionData → SessionData}

/-! ### The sessions -/

/-- The sessions are the same, and each of them says something else. -/
structure Restated (φ : SessionData → SessionData) (s s' : Server) : Prop where
  next : s'.nextSessionId = s.nextSessionId
  data : s'.data = s.data.map φ
  id : ∀ x, (φ x).id = x.id

theorem Restated.of_bare (h : s'.bare = s.bare) : Restated (fun x => x) s s' :=
  ⟨by rw [eq_of_bare h], by rw [data_eq_of_bare h, List.map_id'], fun _ => rfl⟩

theorem Restated.bare (h : Restated φ s t) (hbare : s'.bare = t.bare) : Restated φ s s' :=
  ⟨by rw [eq_of_bare hbare, h.next], by rw [data_eq_of_bare hbare, h.data], h.id⟩

theorem Restated.after_bare (h : Restated φ t s') (hbare : t.bare = s.bare) : Restated φ s s' :=
  ⟨by rw [h.next, eq_of_bare hbare], by rw [h.data, data_eq_of_bare hbare], h.id⟩

theorem occur_restated (s : Server) (event : NetEvent) : Restated (fun x => x) s (s.occur event) :=
  .bare (t := { s with backlog := (s.occur event).backlog, now := (s.occur event).now })
    ⟨rfl, (List.map_id' _).symm, fun _ => rfl⟩ (occur_bare s event)

theorem restated_modifyData (s : Server) (id : PlayerId) {f : SessionData → SessionData} (hid : ∀ x, (f x).id = x.id) :
    Restated (fun x => if x.id = id then f x else x) s (s.modifyData id f) := by
  refine ⟨rfl, data_modifyData s id f, fun x => ?_⟩
  split
  · exact hid x
  · rfl

theorem Restated.mem {y : SessionData} (h : Restated φ s s') (hy : y ∈ s'.data) : ∃ x ∈ s.data, φ x = y := by
  rw [h.data] at hy
  exact List.mem_map.mp hy

theorem Restated.ids (h : Restated φ s s') : sessionIds s' = sessionIds s := sessionIds_map h.data h.id

/-- A session that gives up its search. -/
def unsearched (id : PlayerId) (x : SessionData) : SessionData := if x.id = id then x.cancelSearch else x

theorem restated_cancelSearch (s : Server) (id : PlayerId) :
    Restated (unsearched id) s (s.modifyData id (·.cancelSearch)) :=
  restated_modifyData s id SessionData.cancelSearch_id

theorem cancelSearch_state (x : SessionData) : x.cancelSearch.state ≠ .searching := by
  unfold SessionData.cancelSearch
  split
  · simp
  · assumption

theorem joinReturned_restated (s : Server) (id : PlayerId) (response : MatchResponse) :
    Restated (if response.status = .queued then fun x => x else unsearched id) s
      (s.joinReturned id (some response)) := by
  obtain ⟨status, message⟩ := response
  cases status with
  | queued => exact .of_bare (bare_send ..)
  | error => exact (restated_cancelSearch s id).bare (bare_send ..)

theorem joinReturned_none_restated (s : Server) (id : PlayerId) : Restated (unsearched id) s (s.joinReturned id none) :=
  (restated_cancelSearch s id).bare (bare_send ..)

/-! ### A round of the lobby -/

/-- What one round of the lobby handler can do before it calls `join`. -/
inductive LobbyAsk (region : Text) (s : Server) (id : PlayerId) : Option MatchRequest × Server → Prop where
  | quiet {s' : Server} {φ : SessionData → SessionData} (restated : Restated φ s s')
      (state : ∀ x, (φ x).state = x.state) : LobbyAsk region s id (none, s')
  | asks {s' : Server} {x : SessionData} {request : MatchRequest} (asking : AsksToPlay s x) (hid : x.id = id)
      (player : request.playerId = id) (sameRegion : request.region = region)
      (restated : Restated (fun x => if x.id = id then x.requestPlay else x) s s') :
      LobbyAsk region s id (some request, s')

theorem LobbyAsk.of_bare {answer : Option MatchRequest × Server} (h : LobbyAsk region t id answer)
    (hbare : t.bare = s.bare) : LobbyAsk region s id answer := by
  cases h with
  | quiet hrestated hstate => exact .quiet (hrestated.after_bare hbare) hstate
  | asks hasks hid hplayer hregion hrestated =>
      exact .asks ⟨data_eq_of_bare hbare ▸ hasks.mem, hasks.connected, hasks.hasUser⟩ hid hplayer hregion
        (hrestated.after_bare hbare)

theorem login_quiet (config : ServerConfig) (region : Text) (s : Server) (id : PlayerId) (request : LoginRequest) :
    LobbyAsk region s id (none, s.login config id request) := by
  rcases login_bare config s id request with hidle | ⟨player, users, -, -, hlogin⟩
  · exact .quiet (.of_bare hidle) fun _ => rfl
  · have hnext : (s.loggedIn id player users).nextSessionId = s.nextSessionId := by
      rw [loggedIn, registerSession_eq]
      rfl
    refine .quiet (φ := fun x => if x.id = id then
      x.assignUser (userIdOfInt player.id) player.username player.rating else x)
      (.bare ⟨hnext, data_loggedIn .., ?_⟩ hlogin) ?_
    · intro x
      split
      · rfl
      · rfl
    · intro x
      split
      · rfl
      · rfl

theorem askToPlay_asks {x : PlayerSession} (hx : s.findSession id = some x) (hstate : x.state = .connected)
    (huser : x.user.isSome) : LobbyAsk region s id (s.askToPlay region id) := by
  obtain ⟨hmem, hid⟩ := data_of_findSession hx
  have hfind : (s.modifyData id (·.requestPlay)).findSession id =
      some { x with toSessionData := x.requestPlay } := by
    rw [findSession_modifyData s id id SessionData.requestPlay_id, hx, Option.map_some, if_pos hid]
  have hsearching : x.requestPlay.state = .searching := by
    unfold SessionData.requestPlay
    rw [if_pos ⟨hstate, huser⟩]
  unfold askToPlay
  dsimp only
  rw [hfind]
  dsimp only
  rw [if_pos hsearching]
  exact .asks ⟨hmem, hstate, huser⟩ hid rfl rfl (restated_modifyData s id SessionData.requestPlay_id)

theorem lobbyRoundRemote_asks (config : ServerConfig) (region : Text) (s : Server) (id : PlayerId) :
    LobbyAsk region s id (s.lobbyRoundRemote config region id) := by
  have hidle : ∀ {t : Server}, t.bare = s.bare → LobbyAsk region s id (none, t) :=
    fun hbare => .quiet (.of_bare hbare) fun _ => rfl
  unfold lobbyRoundRemote
  cases hx : s.findSession id with
  | none => exact hidle rfl
  | some x =>
      obtain ⟨-, hid⟩ := findSession_some hx
      dsimp only
      split
      · exact hidle rfl
      · rename_i hlobby
        rw [not_or] at hlobby
        have hbare := bare_tryRead s .lobby id
        obtain ⟨answer, t, hread⟩ : ∃ answer t, s.tryRead .lobby id = (answer, t) := ⟨_, _, rfl⟩
        rw [hread] at hbare ⊢
        cases answer with
        | none => exact hidle hbare
        | some message =>
            dsimp only
            split
            · exact hidle hbare
            · rename_i hsearching
              split
              · cases parseLoginMessage message with
                | none => exact hidle hbare
                | some request =>
                    rw [hid]
                    exact (login_quiet config region t id request).of_bare hbare
              · rename_i huser
                split
                · have ht := (tryRead_eq_some hx (by rw [hread])).2
                  rw [hread] at ht
                  rw [hid]
                  refine LobbyAsk.of_bare ?_ hbare
                  apply askToPlay_asks (x := { x with connection := (x.connection.tryRead .lobby).2 })
                  · change t = _ at ht
                    rw [ht, findSession_modifyConnection, hx, Option.map_some, if_pos hid]
                  · cases hstate : x.state with
                    | connected => rfl
                    | searching => exact absurd hstate hsearching
                    | playing => exact absurd hstate hlobby.1
                  · rw [SessionData.hasUser, Bool.not_eq_true', Bool.not_eq_false] at huser
                    exact huser
                · exact hidle hbare

/-! ### Notifications -/

theorem notifyMatchFound_restated (s : Server) (notification : MatchNotification) :
    (GatewayNotificationHandler.notifyMatchFound s notification = s ∧
      ¬((s.findSession notification.whitePlayerId).isSome ∧ (s.findSession notification.blackPlayerId).isSome)) ∨
    ((s.findSession notification.whitePlayerId).isSome ∧ (s.findSession notification.blackPlayerId).isSome) ∧
      Restated (taken notification.whitePlayerId notification.blackPlayerId notification.roomId) s
        (GatewayNotificationHandler.notifyMatchFound s notification) := by
  obtain ⟨white, whiteUserId, black, blackUserId, roomId, serverId, endpoint⟩ := notification
  unfold GatewayNotificationHandler.notifyMatchFound
  dsimp only
  cases hwhite : s.findSession white with
  | none => exact .inl ⟨rfl, by simp⟩
  | some whiteSession =>
      cases hblack : s.findSession black with
      | none => exact .inl ⟨rfl, by simp⟩
      | some blackSession =>
          refine .inr ⟨⟨rfl, rfl⟩, ?_⟩
          have hroom : Restated (taken white black roomId) s
              (((s.takeSides white black).modifyData white (·.assignRoom roomId)).modifyData black
                (·.assignRoom roomId)) :=
            ⟨rfl, map_takeSides s white black roomId, taken_id white black roomId⟩
          apply hroom.bare
          dsimp only
          unfold notifyMatchCreated
          rw [bare_send, bare_send, bare_send, bare_send, bare_send, bare_send]

theorem notifySearchTimeout_restated (s : Server) (id : PlayerId) :
    Restated (unsearched id) s (GatewayNotificationHandler.notifySearchTimeout s id) :=
  (restated_cancelSearch s id).bare (bare_send ..)

/-! ### Coming and going -/

/-- A session that the gateway asks to be taken out of the queue is gone. -/
theorem pruneSession_leaves (h : s.leavesSearch id = true) : ∀ x ∈ (s.pruneSession id).data, x.id ≠ id := by
  obtain ⟨x, hx, hleaves⟩ := (Option.any_eq_true _ _).mp h
  have hclosed : x.connection.isOpen = false := by
    rw [Bool.and_eq_true, Bool.not_eq_true'] at hleaves
    exact hleaves.1
  unfold pruneSession
  rw [hx]
  dsimp only
  rw [if_neg (by simp [hclosed])]
  intro y hy
  obtain ⟨session, hsession, rfl⟩ := List.mem_map.mp hy
  simpa using (List.mem_filter.mp hsession).2

theorem pruneSession_data (s : Server) (id : PlayerId) :
    (s.pruneSession id).data.Sublist s.data ∧ (s.pruneSession id).nextSessionId = s.nextSessionId := by
  rcases pruneSession_cases s id with hidle | ⟨x, -, -, hpruned⟩
  · rw [hidle]
    exact ⟨List.Sublist.refl _, rfl⟩
  · rw [hpruned, data_pruned]
    exact ⟨List.filter_sublist, rfl⟩

end Server

/-! ### The matchmaker -/

/-- The notification is for this player, among others. -/
def GatewayNotice.names (id : PlayerId) : GatewayNotice → Bool
  | .matchFound notification => notification.whitePlayerId == id || notification.blackPlayerId == id
  | .searchTimeout playerId => playerId == id

namespace RemoteMatchmakingService

variable {s : RemoteMatchmakingService} {now : Int} {region : Text} {request : MatchRequest} {allocateGame : Allocator}

theorem waitingIn_new (games : GameRepository) (settings : MatchmakingConfig) (gatewayServerId region : Text) :
    (new {} games settings gatewayServerId).waitingIn region = [] := by
  rw [waitingIn_eq]
  unfold loaded
  split
  · rfl
  · rfl

/-- What a call posts. -/
def posts (s t : RemoteMatchmakingService) : List GatewayNotice := t.sent.drop s.sent.length

theorem posts_eq {t : RemoteMatchmakingService} {notices : List GatewayNotice} (h : t.sent = s.sent ++ notices) :
    s.posts t = notices := by
  rw [posts, h, List.drop_left]

/-- Somebody suits, and no server takes the game. -/
def FailsToAllocate (s : RemoteMatchmakingService) (allocateGame : Allocator) (now : Int) (request : MatchRequest) : Prop :=
  ∃ white failure, s.partner now request = some white ∧ allocateGame ⟨white.userId, request.userId,
    (s.games.createGame (intOfUserId white.userId) (intOfUserId request.userId)).1⟩ = .error failure

instance (s : RemoteMatchmakingService) (allocateGame : Allocator) (now : Int) (request : MatchRequest) :
    Decidable (s.FailsToAllocate allocateGame now request) :=
  decidable_of_iff (∃ white ∈ s.partner now request, (allocateGame ⟨white.userId, request.userId,
      (s.games.createGame (intOfUserId white.userId) (intOfUserId request.userId)).1⟩).toOption = none) (by
    unfold FailsToAllocate
    refine exists_congr fun white => ?_
    rw [Option.mem_def, exists_and_left]
    refine and_congr_right fun _ => ?_
    cases allocateGame _ with
    | error failure => exact ⟨fun _ => ⟨failure, rfl⟩, fun _ => rfl⟩
    | ok response => exact ⟨nofun, nofun⟩)

/-- The places in a queue and the notifications of a player. -/
def accounted (s t : RemoteMatchmakingService) (region : Text) (id : PlayerId) : Nat :=
  places (·.playerId) id (t.waitingIn region) + (s.posts t).countP (·.names id)

/-- A player who makes a request waits or is told, and so does everybody who has waited, as long as a server takes the
game. If none does, nobody is told anything and nobody comes to wait. -/
theorem accounted_enterQueue (s : RemoteMatchmakingService) (allocateGame : Allocator) (now : Int)
    (request : MatchRequest) (id : PlayerId) {expected : Nat}
    (hexpected : expected =
      if id = request.playerId then 1 else places (·.playerId) id (s.waitingIn request.queueRegion)) :
    s.accounted (s.enterQueue allocateGame now request).2 request.queueRegion id ≤ expected ∧
      (¬s.FailsToAllocate allocateGame now request →
        s.accounted (s.enterQueue allocateGame now request).2 request.queueRegion id = expected) := by
  have hothers : places (·.playerId) id (s.others request) + (if request.playerId = id then 1 else 0) = expected := by
    rw [others, places_leave, hexpected]
    split
    · rename_i heq
      rw [if_pos heq.symm]
    · rename_i hne
      rw [if_neg (fun heq => hne heq.symm), Nat.add_zero]
  have hentered := enterQueue_entered s allocateGame now request
  obtain ⟨outcome, t, ht⟩ : ∃ outcome t, s.enterQueue allocateGame now request = (outcome, t) := ⟨_, _, rfl⟩
  rw [ht] at hentered ⊢
  unfold accounted
  cases hentered with
  | queued _ hholds _ hsent =>
      have heq : places (·.playerId) id (t.waitingIn request.queueRegion) + (s.posts t).countP (·.names id) = expected := by
        rw [hholds.waitingIn, posts_eq (hsent.trans (List.append_nil _).symm), places_append, places_singleton]
        exact hothers
      exact ⟨heq.le, fun _ => heq⟩
  | failed hfound hholds _ hfailed hsent =>
      refine ⟨?_, fun halways => absurd ⟨_, _, hfound, hfailed⟩ halways⟩
      have hless : places (·.playerId) id (s.withoutPartner now request) ≤ places (·.playerId) id (s.others request) :=
        List.Sublist.countP_le List.eraseP_sublist
      rw [hholds.waitingIn, posts_eq (hsent.trans (List.append_nil _).symm), List.countP_nil]
      omega
  | @matched _ white hfound hholds hsent =>
      obtain ⟨roomId, serverId, endpoint, hsent⟩ := hsent
      have hpartner := places_eraseP (·.playerId) hfound id
      have hwhite : white.playerId ≠ request.playerId := (mem_leave.mp (List.mem_of_find?_eq_some hfound)).2
      rw [places_singleton] at hpartner
      change places _ id (s.withoutPartner now request) + _ = _ at hpartner
      have heq : places (·.playerId) id (t.waitingIn request.queueRegion) + (s.posts t).countP (·.names id) = expected := by
        rw [hholds.waitingIn, posts_eq hsent, List.countP_singleton]
        simp only [GatewayNotice.names, Bool.or_eq_true, beq_iff_eq]
        by_cases hblack : request.playerId = id
        · rw [if_neg (fun heq => hwhite (heq.trans hblack.symm))] at hpartner
          rw [if_pos hblack] at hothers
          rw [if_pos (.inr hblack)]
          omega
        · rw [if_neg hblack] at hothers
          simp only [hblack, or_false]
          omega
      exact ⟨heq.le, fun _ => heq⟩

/-- A player for whose game there is no server neither waits nor is told. -/
theorem accounted_enterQueue_thrown {failure : AllocationFailure}
    (h : (s.enterQueue allocateGame now request).1 = .error failure) :
    s.accounted (s.enterQueue allocateGame now request).2 request.queueRegion request.playerId = 0 := by
  have hentered := enterQueue_entered s allocateGame now request
  obtain ⟨outcome, t, ht⟩ : ∃ outcome t, s.enterQueue allocateGame now request = (outcome, t) := ⟨_, _, rfl⟩
  rw [ht] at h hentered ⊢
  unfold accounted
  cases hentered with
  | queued => cases h
  | matched => cases h
  | failed _ hholds _ _ hsent =>
      rw [hholds.waitingIn, posts_eq (hsent.trans (List.append_nil _).symm), List.countP_nil, Nat.add_zero,
        places_eq_zero]
      intro entry hentry
      exact (mem_leave.mp (List.eraseP_subset hentry)).2

/-- What the matchmaker answers, it answers with `queued`. -/
theorem enterQueue_queued {response : MatchResponse} (h : (s.enterQueue allocateGame now request).1 = .ok response) :
    response.status = .queued := by
  have hentered := enterQueue_entered s allocateGame now request
  obtain ⟨outcome, t, ht⟩ : ∃ outcome t, s.enterQueue allocateGame now request = (outcome, t) := ⟨_, _, rfl⟩
  rw [ht] at h hentered
  cases hentered with
  | queued => cases h; rfl
  | failed => cases h
  | matched => cases h; rfl

theorem accounted_processQueue (s : RemoteMatchmakingService) (now : Int) (region : Text) (id : PlayerId) :
    s.accounted (s.processQueue now region) region id = places (·.playerId) id (s.waitingIn region) := by
  have hfilter := places_filter_add (·.playerId) id (s.config.isTimedOut now) (s.waitingIn region)
  unfold accounted
  rw [waitingIn_processQueue, posts_eq (processQueue_sent s now region), List.countP_map]
  change _ + places (fun entry : QueuedPlayer => entry.playerId) id _ = _
  omega

theorem accounted_leaveQueue (s : RemoteMatchmakingService) (playerId : PlayerId) (left region : Text) (id : PlayerId) :
    s.accounted (s.leaveQueue playerId left) region id =
      if region = left ∧ id = playerId then 0 else places (·.playerId) id (s.waitingIn region) := by
  obtain ⟨hholds, hsent⟩ := leaveQueue_holds s playerId left
  unfold accounted
  rw [posts_eq (hsent.trans (List.append_nil _).symm), List.countP_nil, Nat.add_zero]
  by_cases hregion : region = left
  · subst hregion
    rw [hholds.waitingIn, places_leave]
    simp
  · rw [waitingIn_leaveQueue_of_ne hregion, if_neg (fun h => hregion h.1)]

end RemoteMatchmakingService

end KungFuChess
