import KungFuChess.Proof.Gateway

/-!
# What is under way

A player of the gateway is in a request, in the queue of the matchmaker or in a notification. Each step is
described by what it does to the sessions and to how often a player is anywhere.
-/

namespace KungFuChess

open Histories WaitingLine

/-- The queue that the requests of a gateway are for. -/
def homeRegion (region : Text) : Text :=
  let sent := region.takeWhile fun c => c != '|'
  if sent.isEmpty then defaultRegion else sent

/-- A request of this player to be paired. -/
def GatewayRequest.joins (id : PlayerId) : GatewayRequest → Bool
  | .join request _ => request.playerId == id
  | .leave _ _ => false

/-- The same, and the lobby handler waits for the answer. -/
def GatewayRequest.asks (id : PlayerId) (request : GatewayRequest) : Bool := request.joins id && request.isAwaited

/-- What is left of the requests when the lobby handler gives up. -/
def GatewayRequest.abandoned (arrives : Bool) (requests : List GatewayRequest) : List GatewayRequest :=
  if arrives then requests.map (·.abandon) else requests.filter fun request => !request.isAwaited

namespace GatewayRequest

variable {requests : List GatewayRequest} {arrives awaited : Bool} {request : MatchRequest} {id : PlayerId}

theorem joins_join (request : MatchRequest) (awaited : Bool) (id : PlayerId) :
    (join request awaited).joins id = decide (id = request.playerId) := by
  change (request.playerId == id) = _
  rw [beq_eq_decide]
  exact decide_eq_decide.mpr eq_comm

theorem join_of_isAwaited {request : GatewayRequest} (h : request.isAwaited = true) :
    ∃ sent, request = .join sent true := by
  cases request with
  | leave => exact absurd h Bool.false_ne_true
  | join sent awaited =>
      obtain rfl : awaited = true := h
      exact ⟨sent, rfl⟩

theorem join_mem_abandoned (h : .join request awaited ∈ abandoned arrives requests) :
    awaited = false ∧ ∃ before, .join request before ∈ requests := by
  unfold abandoned at h
  cases arrives with
  | true =>
      obtain ⟨before, hbefore, heq⟩ := List.mem_map.mp h
      cases before with
      | leave => cases heq
      | join sent =>
          cases heq
          exact ⟨rfl, _, hbefore⟩
  | false =>
      obtain ⟨hmem, hawaited⟩ := List.mem_filter.mp h
      exact ⟨Bool.not_eq_true' _ ▸ hawaited, _, hmem⟩

theorem leave_mem_abandoned {region : Text} (h : .leave id region ∈ abandoned arrives requests) :
    .leave id region ∈ requests := by
  unfold abandoned at h
  cases arrives with
  | true =>
      obtain ⟨before, hbefore, heq⟩ := List.mem_map.mp h
      cases before with
      | leave =>
          cases heq
          exact hbefore
      | join => cases heq
  | false => exact (List.mem_filter.mp h).1

/-- The request is lost if it does not arrive, and no other is. -/
theorem joins_abandoned (arrives : Bool) (requests : List GatewayRequest) (id : PlayerId) :
    (abandoned arrives requests).countP (·.joins id) + (if arrives then 0 else requests.countP (·.asks id)) =
      requests.countP (·.joins id) := by
  unfold abandoned
  cases arrives with
  | true =>
      rw [if_pos rfl, if_pos rfl, List.countP_map, Nat.add_zero]
      congr 1
      funext request
      cases request <;> rfl
  | false =>
      rw [if_neg Bool.false_ne_true, if_neg Bool.false_ne_true, List.countP_filter]
      induction requests with
      | nil => rfl
      | cons request requests ih =>
          rw [List.countP_cons, List.countP_cons, List.countP_cons, ← ih]
          cases hjoins : request.joins id <;> cases hawaited : request.isAwaited <;>
            simp [asks, hjoins, hawaited] <;> omega

end GatewayRequest

namespace GatewaySystem

open GatewayRequest (abandoned join_mem_abandoned leave_mem_abandoned joins_abandoned join_of_isAwaited)

variable {config : ServerConfig} {region : Text} {s t : GatewaySystem} {id : PlayerId} {event : GatewayStep}

/-! ### What there is of a player -/

/-- How often the player is in the queue or in a notification. -/
def known (region : Text) (s : GatewaySystem) (id : PlayerId) : Nat :=
  places (·.playerId) id (s.matchmaker.waitingIn (homeRegion region)) + s.notices.countP (·.names id)

/-- The same, and in a request that is under way. -/
def held (region : Text) (s : GatewaySystem) (id : PlayerId) : Nat :=
  s.known region id + s.requests.countP (·.joins id)

/-- In the queue, in a request that is under way or in a notification. -/
def UnderWay (region : Text) (s : GatewaySystem) (id : PlayerId) : Prop :=
  s.matchmaker.Waits id (homeRegion region) ∨ (∃ request ∈ s.requests, request.joins id = true) ∨
    ∃ notice ∈ s.notices, notice.names id = true

theorem underWay_iff (region : Text) (s : GatewaySystem) (id : PlayerId) :
    s.UnderWay region id ↔ 0 < s.held region id := by
  have hwaits : s.matchmaker.Waits id (homeRegion region) ↔
      0 < places (·.playerId) id (s.matchmaker.waitingIn (homeRegion region)) := places_pos.symm
  unfold UnderWay held known
  rw [hwaits, ← List.countP_pos_iff (p := fun request : GatewayRequest => request.joins id),
    ← List.countP_pos_iff (p := fun notice : GatewayNotice => notice.names id)]
  omega

/-- A call at the matchmaker, and what it posts. -/
theorem known_serve (region : Text) (s : GatewaySystem) (matchmaker : RemoteMatchmakingService) (id : PlayerId) :
    (s.serve matchmaker).known region id =
      s.matchmaker.accounted matchmaker (homeRegion region) id + s.notices.countP (·.names id) := by
  unfold known serve RemoteMatchmakingService.accounted RemoteMatchmakingService.posts
  rw [List.countP_append]
  dsimp only
  omega

/-- A request is executed, and what the matchmaker then has and posts takes the place of what it had. -/
theorem held_executed (region : Text) {index : Nat} {request : GatewayRequest}
    (hrequest : s.requests[index]? = some request)
    (matchmaker : RemoteMatchmakingService) (call : Option JoinCall) (id : PlayerId) :
    held region { s.serve matchmaker with requests := s.requests.eraseIdx index, call } id +
        (if request.joins id then 1 else 0) +
        places (·.playerId) id (s.matchmaker.waitingIn (homeRegion region)) =
      s.matchmaker.accounted matchmaker (homeRegion region) id + s.held region id := by
  have hcount := countP_eraseIdx hrequest (·.joins id)
  have hknown := known_serve region s matchmaker id
  have hheld : held region { s.serve matchmaker with requests := s.requests.eraseIdx index, call } id =
      (s.serve matchmaker).known region id + (s.requests.eraseIdx index).countP (·.joins id) := rfl
  rw [hheld, hknown]
  unfold held known
  omega

/-! ### What is under way is in order -/

/-- The sessions are numbered, the gateway's players wait in one queue, at most one request is waited for, and
whoever has left is gone. -/
structure Orderly (region : Text) (s : GatewaySystem) : Prop where
  distinct : (sessionIds s.gateway).Nodup
  old : ∀ playerId ∈ sessionIds s.gateway, playerId < s.gateway.nextSessionId
  home : ∀ request awaited, .join request awaited ∈ s.requests → request.queueRegion = homeRegion region
  elsewhere : ∀ other, other ≠ homeRegion region → s.matchmaker.waitingIn other = []
  left : ∀ playerId other, .leave playerId other ∈ s.requests →
    playerId < s.gateway.nextSessionId ∧ playerId ∉ sessionIds s.gateway
  awaited : ∀ request, .join request true ∈ s.requests → s.call = some ⟨request.playerId, none⟩
  single : ∀ playerId, s.call = some ⟨playerId, none⟩ → s.requests.countP (·.asks playerId) = 1
  answered : ∀ playerId response, s.call = some ⟨playerId, some (.ok response)⟩ → response.status = .queued

namespace Orderly

/-- No session comes. -/
theorem gateway (h : Orderly region s) {gateway : Server} (hnext : gateway.nextSessionId = s.gateway.nextSessionId)
    (hids : (sessionIds gateway).Sublist (sessionIds s.gateway)) :
    Orderly region { s with gateway } := by
  refine ⟨h.distinct.sublist hids, ?_, h.home, h.elsewhere, ?_, h.awaited, h.single, h.answered⟩
  · intro playerId hmem
    change playerId < gateway.nextSessionId
    rw [hnext]
    exact h.old playerId (hids.subset hmem)
  · intro playerId other hleave
    obtain ⟨hlt, hgone⟩ := h.left playerId other hleave
    refine ⟨?_, fun hmem => hgone (hids.subset hmem)⟩
    change playerId < gateway.nextSessionId
    rw [hnext]
    exact hlt

theorem restated (h : Orderly region s) {gateway : Server} {φ : SessionData → SessionData}
    (hrestated : Server.Restated φ s.gateway gateway) : Orderly region { s with gateway } :=
  h.gateway hrestated.next (hrestated.ids ▸ List.Sublist.refl _)

/-- The notifications are in any order. -/
theorem notices (h : Orderly region s) (notices : List GatewayNotice) : Orderly region { s with notices } :=
  ⟨h.distinct, h.old, h.home, h.elsewhere, h.left, h.awaited, h.single, h.answered⟩

/-- The matchmaker has nobody in another queue. -/
theorem serve (h : Orderly region s) {matchmaker : RemoteMatchmakingService}
    (helsewhere : ∀ other, other ≠ homeRegion region → matchmaker.waitingIn other = []) :
    Orderly region (s.serve matchmaker) :=
  ⟨h.distinct, h.old, h.home, helsewhere, h.left, h.awaited, h.single, h.answered⟩

/-- If the lobby handler does not wait, no request is waited for. -/
theorem unawaited (h : Orderly region s) (hcall : ∀ playerId, s.call ≠ some ⟨playerId, none⟩) (request : MatchRequest) :
    .join request true ∉ s.requests := fun hmem => hcall _ (h.awaited request hmem)

theorem boot (region : Text) (users : UserRepository) (games : GameRepository) (now : Nat) (settings : MatchmakingConfig)
    (gatewayServerId : Text) : Orderly region (.boot users games now settings gatewayServerId) where
  distinct := List.nodup_nil
  old := by simp [GatewaySystem.boot, Server.boot, sessionIds]
  home := by simp [GatewaySystem.boot]
  elsewhere := fun other _ => RemoteMatchmakingService.waitingIn_new games settings gatewayServerId other
  left := by simp [GatewaySystem.boot]
  awaited := by simp [GatewaySystem.boot]
  single := by simp [GatewaySystem.boot]
  answered := by simp [GatewaySystem.boot]

theorem accept (h : Orderly region s) (config : ServerConfig) :
    Orderly region { s with gateway := s.gateway.acceptNewClients config } := by
  rcases Server.acceptNewClients_cases config s.gateway with hidle | ⟨-, -, backlog, haccept⟩
  · rw [hidle]
    exact h
  · rw [haccept]
    have hids : sessionIds (s.gateway.accepted backlog) = sessionIds s.gateway ++ [s.gateway.nextSessionId] := by
      rw [Server.sessionIds_eq, Server.sessionIds_eq, Server.data_accepted, List.map_append]
      rfl
    refine ⟨?_, ?_, h.home, h.elsewhere, ?_, h.awaited, h.single, h.answered⟩
    · change (sessionIds (s.gateway.accepted backlog)).Nodup
      rw [hids]
      refine List.nodup_append.mpr ⟨h.distinct, List.nodup_singleton _, ?_⟩
      intro a ha b hb hab
      rw [List.mem_singleton.mp hb] at hab
      exact Nat.lt_irrefl _ (hab ▸ h.old a ha)
    · intro playerId hmem
      change playerId ∈ sessionIds (s.gateway.accepted backlog) at hmem
      change playerId < s.gateway.nextSessionId + 1
      rw [hids, List.mem_append, List.mem_singleton] at hmem
      rcases hmem with hmem | rfl
      · exact Nat.lt_succ_of_lt (h.old playerId hmem)
      · exact Nat.lt_succ_self _
    · intro playerId other hleave
      obtain ⟨hlt, hgone⟩ := h.left playerId other hleave
      refine ⟨Nat.lt_succ_of_lt hlt, fun hmem => ?_⟩
      change playerId ∈ sessionIds (s.gateway.accepted backlog) at hmem
      rw [hids, List.mem_append, List.mem_singleton] at hmem
      rcases hmem with hmem | rfl
      · exact hgone hmem
      · exact Nat.lt_irrefl _ hlt

/-- The lobby handler sends a request and waits. -/
theorem asks (h : Orderly region s) (hcall : s.call = none) {request : MatchRequest}
    (hhome : request.queueRegion = homeRegion region) :
    Orderly region { s with
      requests := s.requests ++ [.join request true], call := some { session := request.playerId } } := by
  have hunawaited := h.unawaited (fun _ => hcall ▸ nofun)
  refine ⟨h.distinct, h.old, ?_, h.elsewhere, ?_, ?_, ?_, nofun⟩
  · intro other awaited hmem
    rcases List.mem_append.mp hmem with hmem | hmem
    · exact h.home other awaited hmem
    · cases List.mem_singleton.mp hmem
      exact hhome
  · intro playerId other hmem
    rcases List.mem_append.mp hmem with hmem | hmem
    · exact h.left playerId other hmem
    · cases List.mem_singleton.mp hmem
  · intro other hmem
    rcases List.mem_append.mp hmem with hmem | hmem
    · exact absurd hmem (hunawaited other)
    · cases List.mem_singleton.mp hmem
      rfl
  · intro playerId heq
    obtain rfl : request.playerId = playerId := congrArg JoinCall.session (Option.some.inj heq)
    have hnone : s.requests.countP (·.asks request.playerId) = 0 := by
      rw [List.countP_eq_zero]
      intro other hother hasks
      obtain ⟨sent, rfl⟩ := join_of_isAwaited ((Bool.and_eq_true _ _).mp hasks).2
      exact hunawaited sent hother
    change (s.requests ++ [_]).countP _ = 1
    rw [List.countP_append, hnone, Nat.zero_add, List.countP_singleton]
    simp [GatewayRequest.asks, GatewayRequest.joins, GatewayRequest.isAwaited]

/-- A session that is gone is taken out of the queue. -/
theorem leaves (h : Orderly region s) (hlt : id < s.gateway.nextSessionId) (hgone : id ∉ sessionIds s.gateway)
    (other : Text) : Orderly region { s with requests := s.requests ++ [.leave id other] } := by
  refine ⟨h.distinct, h.old, ?_, h.elsewhere, ?_, ?_, ?_, h.answered⟩
  · intro request awaited hmem
    rcases List.mem_append.mp hmem with hmem | hmem
    · exact h.home request awaited hmem
    · cases List.mem_singleton.mp hmem
  · intro playerId region hmem
    rcases List.mem_append.mp hmem with hmem | hmem
    · exact h.left playerId region hmem
    · cases List.mem_singleton.mp hmem
      exact ⟨hlt, hgone⟩
  · intro request hmem
    rcases List.mem_append.mp hmem with hmem | hmem
    · exact h.awaited request hmem
    · cases List.mem_singleton.mp hmem
  · intro playerId hcall
    change (s.requests ++ [_]).countP _ = 1
    rw [List.countP_append, h.single playerId hcall]
    rfl

/-- The lobby handler gives up. -/
theorem fails (h : Orderly region s) (arrives : Bool) :
    Orderly region { s with requests := abandoned arrives s.requests, call := none } := by
  refine ⟨h.distinct, h.old, ?_, h.elsewhere, ?_, ?_, nofun, nofun⟩
  · intro request awaited hmem
    obtain ⟨-, before, hbefore⟩ := join_mem_abandoned hmem
    exact h.home request before hbefore
  · intro playerId other hmem
    exact h.left playerId other (leave_mem_abandoned hmem)
  · intro request hmem
    exact absurd (join_mem_abandoned hmem).1 (by decide)

/-- A request is executed that nobody waits for. -/
theorem executed (h : Orderly region s) {index : Nat} {request : GatewayRequest}
    (hrequest : s.requests[index]? = some request) (hawaited : request.isAwaited = false) :
    Orderly region { s with requests := s.requests.eraseIdx index } := by
  have hsub : ∀ {other}, other ∈ s.requests.eraseIdx index → other ∈ s.requests :=
    fun hmem => List.eraseIdx_subset hmem
  refine ⟨h.distinct, h.old, fun sent awaited hmem => h.home sent awaited (hsub hmem), h.elsewhere,
    fun playerId other hmem => h.left playerId other (hsub hmem), fun sent hmem => h.awaited sent (hsub hmem), ?_,
    h.answered⟩
  intro playerId hcall
  have hcount := countP_eraseIdx hrequest (·.asks playerId)
  have hunasked : request.asks playerId = false := by rw [GatewayRequest.asks, hawaited, Bool.and_false]
  rw [hunasked, if_neg Bool.false_ne_true, Nat.add_zero, h.single playerId hcall] at hcount
  exact hcount

/-- The request is executed that the lobby handler waits for. -/
theorem executedAwaited (h : Orderly region s) {index : Nat} {request : MatchRequest}
    (hrequest : s.requests[index]? = some (.join request true)) {outcome : Except AllocationFailure MatchResponse}
    (hanswered : ∀ response, outcome = .ok response → response.status = .queued) :
    Orderly region { s with
      requests := s.requests.eraseIdx index, call := some ⟨request.playerId, some outcome⟩ } := by
  have hsub : ∀ {other}, other ∈ s.requests.eraseIdx index → other ∈ s.requests :=
    fun hmem => List.eraseIdx_subset hmem
  have hcall := h.awaited request (List.mem_of_getElem? hrequest)
  refine ⟨h.distinct, h.old, fun sent awaited hmem => h.home sent awaited (hsub hmem), h.elsewhere,
    fun playerId other hmem => h.left playerId other (hsub hmem), ?_, nofun, ?_⟩
  · -- it has been the only one
    intro sent hmem
    have hsame : sent.playerId = request.playerId := by
      have heq := h.awaited sent (hsub hmem)
      rw [hcall] at heq
      exact (congrArg JoinCall.session (Option.some.inj heq)).symm
    have hasks : ∀ {other : MatchRequest}, other.playerId = request.playerId →
        (GatewayRequest.join other true).asks request.playerId = true := by
      intro other heq
      simp [GatewayRequest.asks, GatewayRequest.joins, GatewayRequest.isAwaited, heq]
    have hcount := countP_eraseIdx hrequest (·.asks request.playerId)
    rw [h.single _ hcall, hasks rfl, if_pos rfl] at hcount
    have hpos : 0 < (s.requests.eraseIdx index).countP (·.asks request.playerId) :=
      List.countP_pos_iff.mpr ⟨_, hmem, hasks hsame⟩
    omega
  · intro playerId response heq
    exact hanswered response (Option.some.inj (congrArg JoinCall.outcome (Option.some.inj heq)))

theorem execute (h : Orderly region s) (index : Nat) (allocateGame : Allocator) (now : Int) :
    Orderly region (s.execute index allocateGame now) := by
  unfold GatewaySystem.execute
  cases hrequest : s.requests[index]? with
  | none => exact h
  | some request =>
      cases request with
      | leave playerId other =>
          have helsewhere : ∀ away, away ≠ homeRegion region →
              (s.matchmaker.leaveQueue playerId other).waitingIn away = [] := by
            intro away haway
            by_cases hother : away = other
            · subst hother
              rw [(RemoteMatchmakingService.leaveQueue_holds s.matchmaker playerId away).1.waitingIn,
                h.elsewhere away haway]
              rfl
            · rw [RemoteMatchmakingService.waitingIn_leaveQueue_of_ne hother, h.elsewhere away haway]
          exact (h.serve helsewhere).executed hrequest rfl
      | join request awaited =>
          have hhome := h.home request awaited (List.mem_of_getElem? hrequest)
          have helsewhere : ∀ away, away ≠ homeRegion region →
              (s.matchmaker.enterQueue allocateGame now request).2.waitingIn away = [] := by
            intro away haway
            rw [RemoteMatchmakingService.waitingIn_enterQueue_of_ne (hhome ▸ haway), h.elsewhere away haway]
          cases awaited with
          | false => exact (h.serve helsewhere).executed hrequest rfl
          | true =>
              dsimp only
              rw [if_pos rfl, h.awaited request (List.mem_of_getElem? hrequest), Option.map_some]
              exact (h.serve helsewhere).executedAwaited hrequest fun _ => RemoteMatchmakingService.enterQueue_queued

theorem processQueue (h : Orderly region s) (now : Int) (other : Text) :
    Orderly region (s.serve (s.matchmaker.processQueue now other)) := by
  apply h.serve
  intro away haway
  by_cases hother : away = other
  · subst hother
    rw [RemoteMatchmakingService.waitingIn_processQueue, h.elsewhere away haway]
    rfl
  · rw [RemoteMatchmakingService.waitingIn_processQueue_of_ne hother, h.elsewhere away haway]

theorem prune (h : Orderly region s) (id : PlayerId) :
    Orderly region { s with
      gateway := s.gateway.pruneSession id
      requests := if s.gateway.leavesSearch id then
          s.requests ++ [.leave id (region.takeWhile fun c => c != '|')]
        else s.requests } := by
  obtain ⟨hdata, hnext⟩ := Server.pruneSession_data s.gateway id
  have hids : (sessionIds (s.gateway.pruneSession id)).Sublist (sessionIds s.gateway) := by
    rw [Server.sessionIds_eq, Server.sessionIds_eq]
    exact hdata.map _
  have hpruned := h.gateway hnext hids
  cases hleaves : s.gateway.leavesSearch id with
  | false => exact hpruned
  | true =>
      refine hpruned.leaves ?_ ?_ _
      · obtain ⟨x, hx, -⟩ := (Option.any_eq_true _ _).mp hleaves
        obtain ⟨hmem, hid⟩ := Server.findSession_some hx
        change id < (s.gateway.pruneSession id).nextSessionId
        rw [hnext]
        exact h.old id (List.mem_map.mpr ⟨x, hmem, hid⟩)
      · intro hmem
        rw [Server.sessionIds_eq] at hmem
        obtain ⟨x, hx, hid⟩ := List.mem_map.mp hmem
        exact Server.pruneSession_leaves hleaves x hx hid

theorem lobby (h : Orderly region s) (hcall : s.call = none) (config : ServerConfig) (id : PlayerId) :
    Orderly region (match s.gateway.lobbyRoundRemote config region id with
      | (none, gateway) => { s with gateway }
      | (some request, gateway) =>
          { s with
            gateway
            requests := s.requests ++ [.join request.onWire true]
            call := some { session := request.playerId } }) := by
  have hasks := Server.lobbyRoundRemote_asks config region s.gateway id
  obtain ⟨answer, gateway, hlobby⟩ : ∃ answer gateway, s.gateway.lobbyRoundRemote config region id = (answer, gateway) :=
    ⟨_, _, rfl⟩
  rw [hlobby] at hasks ⊢
  cases hasks with
  | quiet hrestated _ => exact h.restated hrestated
  | @asks _ x request _ _ _ hregion hrestated =>
      have hhome : request.onWire.queueRegion = homeRegion region := by
        subst hregion
        rfl
      exact (h.restated hrestated).asks hcall hhome

theorem whenFree {next : GatewaySystem} (h : Orderly region s) (hnext : s.call = none → Orderly region next) :
    Orderly region (s.whenFree next) := by
  unfold GatewaySystem.whenFree
  cases hcall : s.call with
  | none => exact hnext hcall
  | some call => exact h

theorem step (h : Orderly region s) (event : GatewayStep) : Orderly region (s.step config region event) := by
  cases event with
  | net event => exact h.restated (Server.occur_restated s.gateway event)
  | accept => exact h.whenFree fun _ => h.accept config
  | lobby id => exact h.whenFree fun hcall => h.lobby hcall config id
  | pruneDisconnected => exact h.whenFree fun _ => h.restated (.of_bare (Server.pruneDisconnected_bare _))
  | prune id => exact h.whenFree fun _ => h.prune id
  | joinReturns =>
      simp only [GatewaySystem.step]
      split
      · rename_i playerId response hcall
        have hrestated := h.restated (Server.joinReturned_restated s.gateway playerId response)
        refine ⟨hrestated.distinct, hrestated.old, hrestated.home, hrestated.elsewhere, hrestated.left, ?_, nofun, nofun⟩
        intro request hmem
        exact absurd hmem (h.unawaited (fun _ => hcall ▸ nofun) request)
      · exact h
  | joinFails arrives =>
      simp only [GatewaySystem.step]
      cases s.call with
      | none => exact h
      | some call => exact (h.restated (Server.joinReturned_none_restated s.gateway call.session)).fails arrives
  | execute index allocateGame now => exact h.execute index allocateGame now
  | processQueue now other => exact h.processQueue now other
  | deliver index =>
      simp only [GatewaySystem.step]
      cases s.notices[index]? with
      | none => exact h
      | some notice =>
          cases notice with
          | searchTimeout playerId =>
              exact (h.restated (Server.notifySearchTimeout_restated s.gateway playerId)).notices _
          | matchFound notification =>
              rcases Server.notifyMatchFound_restated s.gateway notification with ⟨hsame, -⟩ | ⟨-, hrestated⟩
              · unfold GatewayNotificationHandler.handle
                dsimp only
                rw [hsame]
                exact h.notices _
              · exact (h.restated hrestated).notices _
  | lose index => exact h.notices _

end Orderly

/-! ### What a step does to the players -/

/-- What one step can do to the sessions of the gateway and to what there is of their players. -/
inductive Moved (region : Text) (s t : GatewaySystem) : GatewayStep → Prop where
  | same {event : GatewayStep} {φ : SessionData → SessionData} (restated : Server.Restated φ s.gateway t.gateway)
      (state : ∀ x, (φ x).state = x.state) (held : ∀ id, t.held region id = s.held region id) : Moved region s t event
  | accepts (next : t.gateway.nextSessionId = s.gateway.nextSessionId + 1)
      (data : t.gateway.data = s.gateway.data ++ [{ id := s.gateway.nextSessionId }])
      (held : ∀ id, t.held region id = s.held region id) : Moved region s t .accept
  | drops {id : PlayerId} (next : t.gateway.nextSessionId = s.gateway.nextSessionId)
      (data : t.gateway.data.Sublist s.gateway.data) (held : ∀ id, t.held region id = s.held region id) :
      Moved region s t (.prune id)
  | asks {x : SessionData} (free : s.call = none) (asking : Server.AsksToPlay s.gateway x)
      (restated : Server.Restated (fun y => if y.id = x.id then y.requestPlay else y) s.gateway t.gateway)
      (held : ∀ id, t.held region id = s.held region id + if id = x.id then 1 else 0) : Moved region s t (.lobby x.id)
  | fails {arrives : Bool} {call : JoinCall} (waits : s.call = some call)
      (restated : Server.Restated (Server.unsearched call.session) s.gateway t.gateway)
      (held : ∀ id, t.held region id +
        (if call.session = id ∧ call.outcome.isNone ∧ arrives = false then 1 else 0) = s.held region id) :
      Moved region s t (.joinFails arrives)
  | executes {index : Nat} {allocateGame : Allocator} {now : Int} {request : MatchRequest} {awaited : Bool}
      (sent : s.requests[index]? = some (.join request awaited)) (gateway : t.gateway = s.gateway)
      (le : ∀ id, t.held region id ≤ s.held region id)
      (pos : ¬s.matchmaker.FailsToAllocate allocateGame now request →
        ∀ id, 0 < s.held region id → 0 < t.held region id) :
      Moved region s t (.execute index allocateGame now)
  | leaves {index : Nat} {allocateGame : Allocator} {now : Int} {id : PlayerId} {other : Text}
      (sent : s.requests[index]? = some (.leave id other)) (gateway : t.gateway = s.gateway)
      (le : ∀ id, t.held region id ≤ s.held region id)
      (others : ∀ playerId, playerId ≠ id → t.held region playerId = s.held region playerId) :
      Moved region s t (.execute index allocateGame now)
  | delivers {index : Nat} {notice : GatewayNotice} (posted : s.notices[index]? = some notice)
      (gateway : t.gateway = GatewayNotificationHandler.handle s.gateway notice)
      (held : ∀ id, t.held region id + (if notice.names id then 1 else 0) = s.held region id) :
      Moved region s t (.deliver index)
  | loses {index : Nat} {notice : GatewayNotice} (posted : s.notices[index]? = some notice)
      (gateway : t.gateway = s.gateway)
      (held : ∀ id, t.held region id + (if notice.names id then 1 else 0) = s.held region id) :
      Moved region s t (.lose index)

namespace Orderly

/-- How many requests of a player are waited for. -/
theorem asks_count (h : Orderly region s) {call : JoinCall} (hcall : s.call = some call) (id : PlayerId) :
    s.requests.countP (·.asks id) = if call.session = id ∧ call.outcome.isNone then 1 else 0 := by
  split
  · rename_i hwaits
    obtain ⟨session, outcome⟩ := call
    obtain ⟨rfl, hnone⟩ := hwaits
    obtain rfl : outcome = none := Option.isNone_iff_eq_none.mp hnone
    exact h.single session hcall
  · rename_i hnot
    rw [List.countP_eq_zero]
    intro request hrequest hasks
    obtain ⟨hjoins, hawaited⟩ := (Bool.and_eq_true _ _).mp hasks
    obtain ⟨sent, rfl⟩ := join_of_isAwaited hawaited
    have heq := h.awaited sent hrequest
    rw [hcall] at heq
    cases heq
    exact hnot ⟨beq_iff_eq.mp hjoins, rfl⟩

theorem lobby_moved (hcall : s.call = none) (config : ServerConfig) (id : PlayerId) :
    Moved region s (match s.gateway.lobbyRoundRemote config region id with
      | (none, gateway) => { s with gateway }
      | (some request, gateway) =>
          { s with
            gateway
            requests := s.requests ++ [.join request.onWire true]
            call := some { session := request.playerId } }) (.lobby id) := by
  have hasks := Server.lobbyRoundRemote_asks config region s.gateway id
  obtain ⟨answer, gateway, hlobby⟩ : ∃ answer gateway, s.gateway.lobbyRoundRemote config region id = (answer, gateway) :=
    ⟨_, _, rfl⟩
  rw [hlobby] at hasks ⊢
  cases hasks with
  | quiet hrestated hstate => exact .same hrestated hstate fun _ => rfl
  | @asks _ x request hasking hid hplayer _ hrestated =>
      subst hid
      refine .asks hcall hasking hrestated fun id => ?_
      unfold held known
      dsimp only
      rw [List.countP_append, List.countP_singleton, GatewayRequest.joins_join,
        show request.onWire.playerId = x.id from hplayer]
      simp only [decide_eq_true_eq]
      omega

theorem prune_moved (s : GatewaySystem) (region : Text) (id : PlayerId) :
    Moved region s { s with
      gateway := s.gateway.pruneSession id
      requests := if s.gateway.leavesSearch id then
          s.requests ++ [.leave id (region.takeWhile fun c => c != '|')]
        else s.requests } (.prune id) := by
  obtain ⟨hdata, hnext⟩ := Server.pruneSession_data s.gateway id
  refine .drops hnext hdata fun playerId => ?_
  unfold held known
  dsimp only
  split
  · rw [List.countP_append]
    rfl
  · rfl

theorem fails_moved (h : Orderly region s) {call : JoinCall} (hcall : s.call = some call) (arrives : Bool) :
    Moved region s { s with
      gateway := s.gateway.joinReturned call.session none
      requests := abandoned arrives s.requests
      call := none } (.joinFails arrives) := by
  refine .fails hcall (Server.joinReturned_none_restated s.gateway call.session) fun id => ?_
  have hcount := joins_abandoned arrives s.requests id
  rw [h.asks_count hcall id] at hcount
  unfold held known
  dsimp only
  rw [← hcount]
  cases arrives with
  | true =>
      simp only [Bool.true_eq_false, and_false, if_false, if_true, Nat.add_zero]
  | false =>
      simp only [and_true, Bool.false_eq_true, if_false]
      omega

theorem leave_moved {index : Nat} {other : Text} (hrequest : s.requests[index]? = some (.leave id other))
    (allocateGame : Allocator) (now : Int)
    (ht : t = { s.serve (s.matchmaker.leaveQueue id other) with requests := s.requests.eraseIdx index }) :
    Moved region s t (.execute index allocateGame now) := by
  have hheld : ∀ playerId, t.held region playerId + places (·.playerId) playerId
      (s.matchmaker.waitingIn (homeRegion region)) =
      s.matchmaker.accounted (s.matchmaker.leaveQueue id other) (homeRegion region) playerId + s.held region playerId := by
    intro playerId
    rw [ht]
    exact held_executed region hrequest _ s.call playerId
  simp only [RemoteMatchmakingService.accounted_leaveQueue] at hheld
  refine .leaves hrequest (by rw [ht]; rfl) (fun playerId => ?_) fun playerId hne => ?_
  · have hplayer := hheld playerId
    split at hplayer
    · omega
    · omega
  · have hplayer := hheld playerId
    rw [if_neg (fun heq => hne heq.2)] at hplayer
    omega

theorem join_moved (h : Orderly region s) {index : Nat} {request : MatchRequest} {awaited : Bool}
    (hrequest : s.requests[index]? = some (.join request awaited)) (allocateGame : Allocator) (now : Int)
    {call : Option JoinCall} (ht : t = { s.serve (s.matchmaker.enterQueue allocateGame now request).2 with
      requests := s.requests.eraseIdx index, call }) : Moved region s t (.execute index allocateGame now) := by
  have hmem := List.mem_of_getElem? hrequest
  have hserved := fun playerId => s.matchmaker.accounted_enterQueue allocateGame now request playerId rfl
  rw [h.home request awaited hmem] at hserved
  have hheld := held_executed region hrequest (s.matchmaker.enterQueue allocateGame now request).2 call
  rw [← ht] at hheld
  simp only [GatewayRequest.joins_join, decide_eq_true_eq] at hheld
  refine .executes hrequest (by rw [ht]; rfl) (fun playerId => ?_) fun hallocates playerId hpos => ?_
  · have hplayer := hheld playerId
    obtain ⟨hle, -⟩ := hserved playerId
    split at hle
    · rename_i hown
      rw [if_pos hown] at hplayer
      omega
    · rename_i hother
      rw [if_neg hother] at hplayer
      omega
  · have hplayer := hheld playerId
    have heq := (hserved playerId).2 hallocates
    split at heq
    · rename_i hown
      rw [if_pos hown] at hplayer
      -- the request itself is part of what there has been of the player
      have hless : places (·.playerId) playerId (s.matchmaker.waitingIn (homeRegion region)) < s.held region playerId := by
        have hasked : 0 < s.requests.countP (·.joins playerId) :=
          List.countP_pos_iff.mpr ⟨_, hmem, by rw [GatewayRequest.joins_join, hown, decide_eq_true rfl]⟩
        unfold held known
        omega
      omega
    · rename_i hother
      rw [if_neg hother] at hplayer
      omega

theorem execute_moved (h : Orderly region s) (index : Nat) (allocateGame : Allocator) (now : Int) :
    Moved region s (s.execute index allocateGame now) (.execute index allocateGame now) := by
  unfold GatewaySystem.execute
  cases hrequest : s.requests[index]? with
  | none => exact .same (.of_bare rfl) (fun _ => rfl) fun _ => rfl
  | some request =>
      cases request with
      | leave playerId other => exact leave_moved hrequest allocateGame now rfl
      | join request awaited => exact h.join_moved hrequest allocateGame now rfl

theorem processQueue_moved (h : Orderly region s) (now : Int) (other : Text) :
    Moved region s (s.serve (s.matchmaker.processQueue now other)) (.processQueue now other) := by
  refine .same (.of_bare rfl) (fun _ => rfl) fun id => ?_
  have hknown := known_serve region s (s.matchmaker.processQueue now other) id
  have haccounted : s.matchmaker.accounted (s.matchmaker.processQueue now other) (homeRegion region) id =
      places (·.playerId) id (s.matchmaker.waitingIn (homeRegion region)) := by
    by_cases hother : homeRegion region = other
    · rw [← hother, RemoteMatchmakingService.accounted_processQueue]
    · -- nobody waits there
      have hsent := RemoteMatchmakingService.processQueue_sent s.matchmaker now other
      rw [h.elsewhere other (Ne.symm hother)] at hsent
      unfold RemoteMatchmakingService.accounted
      rw [RemoteMatchmakingService.posts_eq hsent, RemoteMatchmakingService.waitingIn_processQueue_of_ne hother]
      rfl
  rw [haccounted] at hknown
  change (s.serve _).known region id + _ = s.known region id + _
  rw [hknown]
  rfl

theorem deliver_moved {index : Nat} {notice : GatewayNotice} (hposted : s.notices[index]? = some notice) :
    Moved region s { s with
      gateway := GatewayNotificationHandler.handle s.gateway notice
      notices := s.notices.eraseIdx index } (.deliver index) := by
  refine .delivers hposted rfl fun id => ?_
  have hcount := countP_eraseIdx hposted (·.names id)
  unfold held known
  dsimp only
  omega

theorem lose_moved (s : GatewaySystem) (region : Text) (index : Nat) :
    Moved region s { s with notices := s.notices.eraseIdx index } (.lose index) := by
  cases hposted : s.notices[index]? with
  | none =>
      rw [List.eraseIdx_of_length_le (List.getElem?_eq_none_iff.mp hposted)]
      exact .same (.of_bare rfl) (fun _ => rfl) fun _ => rfl
  | some notice =>
      refine .loses hposted rfl fun id => ?_
      have hcount := countP_eraseIdx hposted (·.names id)
      unfold held known
      dsimp only
      omega

theorem whenFree_moved {next : GatewaySystem} (hnext : s.call = none → Moved region s next event) :
    Moved region s (s.whenFree next) event := by
  unfold GatewaySystem.whenFree
  cases hcall : s.call with
  | none => exact hnext hcall
  | some call => exact .same (.of_bare rfl) (fun _ => rfl) fun _ => rfl

theorem moved (h : Orderly region s) (event : GatewayStep) : Moved region s (s.step config region event) event := by
  have hidle : ∀ {event : GatewayStep}, Moved region s s event := .same (.of_bare rfl) (fun _ => rfl) fun _ => rfl
  cases event with
  | net event => exact .same (Server.occur_restated s.gateway event) (fun _ => rfl) fun _ => rfl
  | accept =>
      refine whenFree_moved fun _ => ?_
      rcases Server.acceptNewClients_cases config s.gateway with hsame | ⟨-, -, backlog, haccept⟩
      · rw [hsame]
        exact hidle
      · rw [haccept]
        exact .accepts rfl (Server.data_accepted s.gateway backlog) fun _ => rfl
  | lobby id => exact whenFree_moved fun hcall => lobby_moved hcall config id
  | pruneDisconnected =>
      exact whenFree_moved fun _ => .same (.of_bare (Server.pruneDisconnected_bare _)) (fun _ => rfl) fun _ => rfl
  | prune id => exact whenFree_moved fun _ => prune_moved s region id
  | joinReturns =>
      simp only [GatewaySystem.step]
      split
      · rename_i playerId response hcall
        have hrestated := Server.joinReturned_restated s.gateway playerId response
        rw [if_pos (h.answered playerId response hcall)] at hrestated
        exact .same hrestated (fun _ => rfl) fun _ => rfl
      · exact hidle
  | joinFails arrives =>
      simp only [GatewaySystem.step]
      cases hcall : s.call with
      | none => exact hidle
      | some call => exact h.fails_moved hcall arrives
  | execute index allocateGame now => exact h.execute_moved index allocateGame now
  | processQueue now other => exact h.processQueue_moved now other
  | deliver index =>
      simp only [GatewaySystem.step]
      cases hposted : s.notices[index]? with
      | none => exact hidle
      | some notice => exact deliver_moved hposted
  | lose index => exact lose_moved s region index

end Orderly

end GatewaySystem

end KungFuChess
