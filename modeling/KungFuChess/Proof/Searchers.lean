import KungFuChess.Proof.Requests

/-!
# Who searches

A session of the gateway that searches should have something in the matchmaker, or on the way, that ends its
search one day: its request, its place in the queue, or a notification. And whoever the matchmaker has
something of should be searching. The two fail in different ways. A player is taken out of the queue and
hears nothing if no server takes the game, if the notification is lost, or if the session of the other player has
gone by the time it comes. A player whose request has no answer has stopped searching, and the matchmaker does not know.
-/

namespace KungFuChess

open Histories WaitingLine

namespace GatewaySystem

variable {config : ServerConfig} {region : Text} {s t : GatewaySystem} {id : PlayerId} {event : GatewayStep}

/-! ### Nobody is left behind -/

/-- Every session that searches and is open is under way. -/
def NobodyStranded (region : Text) (s : GatewaySystem) : Prop :=
  ∀ session ∈ s.gateway.sessions, session.connection.isOpen = true → session.state = .searching →
    s.UnderWay region session.id

instance (region : Text) (s : GatewaySystem) (id : PlayerId) : Decidable (s.UnderWay region id) :=
  decidable_of_iff _ (underWay_iff region s id).symm

instance (region : Text) (s : GatewaySystem) : Decidable (NobodyStranded region s) :=
  inferInstanceAs (Decidable (∀ session ∈ s.gateway.sessions, session.connection.isOpen = true →
    session.state = .searching → s.UnderWay region session.id))

/-- If the request finds somebody, a server takes the game. -/
def IsServed (matchmaker : RemoteMatchmakingService) (allocateGame : Allocator) (now : Int) : GatewayRequest → Prop
  | .join request _ => ¬matchmaker.FailsToAllocate allocateGame now request
  | .leave _ _ => True

instance (matchmaker : RemoteMatchmakingService) (allocateGame : Allocator) (now : Int) :
    DecidablePred (IsServed matchmaker allocateGame now)
  | .join request _ => inferInstanceAs (Decidable ¬matchmaker.FailsToAllocate allocateGame now request)
  | .leave _ _ => isTrue trivial

/-- A notification that finds one of its sessions searching finds the other one too. -/
def FindsBoth (gateway : Server) : GatewayNotice → Prop
  | .matchFound notification => ∀ x ∈ gateway.data, x.state = .searching →
      x.id = notification.whitePlayerId ∨ x.id = notification.blackPlayerId →
      (gateway.findSession notification.whitePlayerId).isSome ∧ (gateway.findSession notification.blackPlayerId).isSome
  | .searchTimeout _ => True

instance (gateway : Server) : DecidablePred (FindsBoth gateway)
  | .matchFound notification => inferInstanceAs (Decidable (∀ x ∈ gateway.data, x.state = .searching →
      x.id = notification.whitePlayerId ∨ x.id = notification.blackPlayerId →
      (gateway.findSession notification.whitePlayerId).isSome ∧
        (gateway.findSession notification.blackPlayerId).isSome))
  | .searchTimeout _ => isTrue trivial

/-- A server takes the game of two players who suit, nobody who searches is told of a game with somebody who is gone,
and what somebody who searches is told is not lost. -/
def ServesSearchers (s : GatewaySystem) : GatewayStep → Prop
  | .execute index allocateGame now => ∀ request ∈ s.requests[index]?, IsServed s.matchmaker allocateGame now request
  | .deliver index => ∀ notice ∈ s.notices[index]?, FindsBoth s.gateway notice
  | .lose index => ∀ notice ∈ s.notices[index]?, ∀ x ∈ s.gateway.data, notice.names x.id = true → x.state ≠ .searching
  | _ => True

instance (s : GatewaySystem) : DecidablePred (ServesSearchers s)
  | .execute index allocateGame now =>
      inferInstanceAs (Decidable (∀ request ∈ s.requests[index]?, IsServed s.matchmaker allocateGame now request))
  | .deliver index => inferInstanceAs (Decidable (∀ notice ∈ s.notices[index]?, FindsBoth s.gateway notice))
  | .lose index => inferInstanceAs (Decidable (∀ notice ∈ s.notices[index]?, ∀ x ∈ s.gateway.data,
      notice.names x.id = true → x.state ≠ .searching))
  | .net _ | .accept | .lobby _ | .pruneDisconnected | .prune _ | .joinReturns | .joinFails _ | .processQueue _ _ =>
      isTrue trivial

/-- A notification is about the sessions that it names, and none of them goes on searching unless the other one is gone. -/
theorem handle_restated (gateway : Server) (notice : GatewayNotice) :
    ∃ φ, Server.Restated φ gateway (GatewayNotificationHandler.handle gateway notice) ∧
      (∀ x, notice.names x.id = false → φ x = x) ∧
      (FindsBoth gateway notice → ∀ x ∈ gateway.data, notice.names x.id = true → (φ x).state ≠ .searching) := by
  cases notice with
  | searchTimeout playerId =>
      refine ⟨_, Server.notifySearchTimeout_restated gateway playerId, ?_, ?_⟩
      · intro x hnames
        rw [Server.unsearched, if_neg (beq_eq_false_iff_ne.mp hnames).symm]
      · intro _ x _ hnames
        rw [Server.unsearched, if_pos (beq_iff_eq.mp hnames).symm]
        exact Server.cancelSearch_state x
  | matchFound notification =>
      have hnames : ∀ id, (GatewayNotice.matchFound notification).names id = true ↔
          id = notification.whitePlayerId ∨ id = notification.blackPlayerId := by
        intro id
        simp only [GatewayNotice.names, Bool.or_eq_true, beq_iff_eq]
        exact or_congr eq_comm eq_comm
      rcases Server.notifyMatchFound_restated gateway notification with ⟨hsame, hmissing⟩ | ⟨-, hrestated⟩
      · refine ⟨fun x => x, .of_bare (congrArg Server.bare hsame), fun _ _ => rfl, ?_⟩
        intro hfinds x hx hnamed hstate
        exact hmissing (hfinds x hx hstate ((hnames x.id).mp hnamed))
      · refine ⟨_, hrestated, ?_, ?_⟩
        · intro x hunnamed
          have hnot := (hnames x.id).not.mp (Bool.not_eq_true _ ▸ hunnamed)
          rw [not_or] at hnot
          rw [Server.taken, if_neg hnot.2, if_neg hnot.1]
        · intro _ x _ hnamed hstate
          obtain ⟨hblack, hwhite, -⟩ := Server.taken_state.mp hstate
          exact ((hnames x.id).mp hnamed).elim hwhite hblack

/-- Who searches is under way. -/
structure Attended (region : Text) (s : GatewaySystem) : Prop where
  orderly : Orderly region s
  searching : ∀ x ∈ s.gateway.data, x.state = .searching → 0 < s.held region x.id

namespace Attended

theorem nobodyStranded (h : Attended region s) : NobodyStranded region s := by
  intro session hsession _ hstate
  rw [underWay_iff]
  exact h.searching session.toSessionData (List.mem_map_of_mem hsession) hstate

theorem step (h : Attended region s) (event : GatewayStep) (hserves : ServesSearchers s event) :
    Attended region (s.step config region event) := by
  refine ⟨h.orderly.step event, ?_⟩
  have hmoved : Moved region s (s.step config region event) event := h.orderly.moved event
  generalize s.step config region event = t at hmoved ⊢
  intro y hy hstate
  cases hmoved with
  | same hrestated hsame hheld =>
      obtain ⟨x, hx, rfl⟩ := hrestated.mem hy
      rw [hheld, hrestated.id]
      exact h.searching x hx (hsame x ▸ hstate)
  | accepts _ hdata hheld =>
      rw [hheld]
      rw [hdata, List.mem_append, List.mem_singleton] at hy
      rcases hy with hy | rfl
      · exact h.searching y hy hstate
      · cases hstate
  | drops _ hdata hheld =>
      rw [hheld]
      exact h.searching y (hdata.subset hy) hstate
  | @asks asker _ _ hrestated hheld =>
      obtain ⟨x, hx, rfl⟩ := hrestated.mem hy
      rw [hheld, hrestated.id]
      split
      · exact Nat.succ_pos _
      · rename_i hne
        rw [if_neg hne] at hstate
        exact h.searching x hx hstate
  | @fails arrives call _ hrestated hheld =>
      obtain ⟨x, hx, rfl⟩ := hrestated.mem hy
      rw [hrestated.id]
      have hother : x.id ≠ call.session := by
        intro hid
        rw [Server.unsearched, if_pos hid] at hstate
        exact Server.cancelSearch_state x hstate
      have hx := h.searching x hx (by rwa [Server.unsearched, if_neg hother] at hstate)
      have hid := hheld x.id
      rw [if_neg (fun hfails => hother hfails.1.symm)] at hid
      omega
  | @executes index allocateGame now request awaited hsent hgateway _ hpos =>
      rw [hgateway] at hy
      exact hpos (hserves _ hsent) y.id (h.searching y hy hstate)
  | @leaves index allocateGame now leaver other hsent hgateway _ hothers =>
      rw [hgateway] at hy
      have hgone := (h.orderly.left leaver other (List.mem_of_getElem? hsent)).2
      rw [hothers y.id]
      · exact h.searching y hy hstate
      · intro h
        obtain rfl := h
        rw [Server.sessionIds_eq] at hgone
        exact hgone (List.mem_map_of_mem hy)
  | @delivers index notice hposted hgateway hheld =>
      obtain ⟨φ, hrestated, hunnamed, hhandled⟩ := handle_restated s.gateway notice
      rw [hgateway] at hy
      obtain ⟨x, hx, rfl⟩ := hrestated.mem hy
      cases hnames : notice.names x.id with
      | true => exact absurd hstate (hhandled (hserves notice hposted) x hx hnames)
      | false =>
          have hid := hheld x.id
          rw [hnames, if_neg Bool.false_ne_true, Nat.add_zero] at hid
          rw [hunnamed x hnames] at hstate ⊢
          rw [hid]
          exact h.searching x hx hstate
  | @loses index notice hposted hgateway hheld =>
      rw [hgateway] at hy
      cases hnames : notice.names y.id with
      | true => exact absurd hstate (hserves notice hposted y hy hnames)
      | false =>
          have hid := hheld y.id
          rw [hnames, if_neg Bool.false_ne_true, Nat.add_zero] at hid
          rw [hid]
          exact h.searching y hy hstate

theorem boot (region : Text) (users : UserRepository) (games : GameRepository) (now : Nat) (settings : MatchmakingConfig)
    (gatewayServerId : Text) : Attended region (.boot users games now settings gatewayServerId) where
  orderly := .boot region users games now settings gatewayServerId
  searching := by simp [GatewaySystem.boot, Server.boot, Server.data]

end Attended

/-- In every run in which the matchmaker finds a server for those whom it pairs, and in which a notification for a
session that searches comes, and comes while the other one is there, every open session that searches has a request
under way, a place in the queue or a notification. -/
theorem nobody_stranded_of_run (config : ServerConfig) (region : Text) (users : UserRepository) (games : GameRepository)
    (now : Nat) (settings : MatchmakingConfig) (gatewayServerId : Text) (steps : List GatewayStep)
    (hserves : EachStep (step config region) ServesSearchers (boot users games now settings gatewayServerId) steps) :
    Throughout (step config region) (NobodyStranded region) (boot users games now settings gatewayServerId) steps :=
  (Throughout.of_step (Attended.boot region users games now settings gatewayServerId)
    (fun _ event hserves h => h.step event hserves) hserves).mono fun _ => Attended.nobodyStranded

/-- A client connects, logs in and asks for a game. -/
def comesToPlay (id : PlayerId) (login : String) : List GatewayStep :=
  [.net .connect, .accept, .net (say id login), .lobby id, .net (say id "play"), .lobby id]

/-- The first of them waits in the queue. -/
def untilQueued : List GatewayStep :=
  comesToPlay 0 "login ann x" ++ [.execute 0 (fun _ => .error .noServers) 0, .joinReturns]

theorem nobody_stranded_of_run_paired :
    let takes : Allocator := fun _ => .ok ⟨5, "a".toList, some "ws://a".toList⟩
    let steps := untilQueued ++ comesToPlay 1 "login bob y" ++ [.execute 0 takes 1, .deliver 0, .joinReturns]
    EachStep (step sampleConfig "eu".toList) ServesSearchers (boot {} {} 0 {} "gateway".toList) steps ∧
      Throughout (step sampleConfig "eu".toList) (NobodyStranded "eu".toList) (boot {} {} 0 {} "gateway".toList) steps := by
  intro takes steps
  have hserves : EachStep (step sampleConfig "eu".toList) ServesSearchers (boot {} {} 0 {} "gateway".toList) steps := by
    decide +kernel
  exact ⟨hserves, nobody_stranded_of_run sampleConfig "eu".toList {} {} 0 {} "gateway".toList steps hserves⟩

/-- The second finds the first, and no server takes the game: the second is told that the search has failed, and the
first goes on searching for ever. -/
theorem not_nobody_stranded_unallocated :
    ¬Throughout (step sampleConfig "eu".toList) (NobodyStranded "eu".toList) (boot {} {} 0 {} "gateway".toList)
      (untilQueued ++ comesToPlay 1 "login bob y" ++ [.execute 0 (fun _ => .error .noServers) 1, .joinFails true]) := by
  intro h
  have hlast := h.last
  revert hlast
  decide +kernel

/-! ### Nobody else is matched -/

/-- A notification changes only sessions that search to sessions that play, and leaves those alone that play. -/
def MatchesRightly (gateway : Server) : GatewayNotice → Prop
  | .matchFound notification => ∀ before ∈ gateway.sessions,
      ∀ after ∈ (GatewayNotificationHandler.notifyMatchFound gateway notification).findSession before.id,
        (before.state ≠ .playing → after.state = .playing → before.state = .searching) ∧
          (before.state = .playing → after.roomId = before.roomId ∧ after.side = before.side)
  | .searchTimeout _ => True

instance (gateway : Server) : DecidablePred (MatchesRightly gateway)
  | .matchFound notification => inferInstanceAs (Decidable (∀ before ∈ gateway.sessions,
      ∀ after ∈ (GatewayNotificationHandler.notifyMatchFound gateway notification).findSession before.id,
        (before.state ≠ .playing → after.state = .playing → before.state = .searching) ∧
          (before.state = .playing → after.roomId = before.roomId ∧ after.side = before.side)))
  | .searchTimeout _ => isTrue trivial

/-- Whenever the handler is given a notification, it does this. -/
def OnlySearchersMatched (s : GatewaySystem) : GatewayStep → Prop
  | .deliver index => ∀ notice ∈ s.notices[index]?, MatchesRightly s.gateway notice
  | _ => True

instance (s : GatewaySystem) : DecidablePred (OnlySearchersMatched s)
  | .deliver index => inferInstanceAs (Decidable (∀ notice ∈ s.notices[index]?, MatchesRightly s.gateway notice))
  | .net _ | .accept | .lobby _ | .pruneDisconnected | .prune _ | .joinReturns | .joinFails _ | .execute _ _ _
  | .processQueue _ _ | .lose _ => isTrue trivial

/-- Nothing comes of a request once the lobby handler has given it up: it has not been executed and never will be,
or it has been in vain, or the session does not search any more. -/
def GivesUp (gateway : Server) (arrives : Bool) (call : JoinCall) : Prop :=
  match call.outcome with
  | none => arrives = false
  | some (.error _) => True
  | some (.ok _) => ∀ x ∈ gateway.data, x.id = call.session → x.state ≠ .searching

instance (gateway : Server) (arrives : Bool) : DecidablePred (GivesUp gateway arrives)
  | ⟨_, none⟩ => inferInstanceAs (Decidable (arrives = false))
  | ⟨_, some (.error _)⟩ => isTrue trivial
  | ⟨session, some (.ok _)⟩ =>
      inferInstanceAs (Decidable (∀ x ∈ gateway.data, x.id = session → x.state ≠ .searching))

/-- No answer is missed. -/
def AnswersArrive (s : GatewaySystem) : GatewayStep → Prop
  | .joinFails arrives => ∀ call ∈ s.call, GivesUp s.gateway arrives call
  | _ => True

instance (s : GatewaySystem) : DecidablePred (AnswersArrive s)
  | .joinFails arrives => inferInstanceAs (Decidable (∀ call ∈ s.call, GivesUp s.gateway arrives call))
  | .net _ | .accept | .lobby _ | .pruneDisconnected | .prune _ | .joinReturns | .execute _ _ _ | .processQueue _ _
  | .deliver _ | .lose _ => isTrue trivial

/-- There is at most one thing of every player, and nothing of a session that does not search. -/
structure Single (region : Text) (s : GatewaySystem) : Prop where
  orderly : Orderly region s
  once : ∀ id, s.held region id ≤ 1
  old : ∀ id, 0 < s.held region id → id < s.gateway.nextSessionId
  searching : ∀ x ∈ s.gateway.data, 0 < s.held region x.id → x.state = .searching
  thrown : ∀ id failure, s.call = some ⟨id, some (.error failure)⟩ → s.held region id = 0

/-- Only asking for a game brings something. -/
theorem Moved.le (h : Moved region s t event) (hcall : s.call.isSome) (id : PlayerId) :
    t.held region id ≤ s.held region id := by
  cases h with
  | same _ _ hheld => exact (hheld id).le
  | accepts _ _ hheld => exact (hheld id).le
  | drops _ _ hheld => exact (hheld id).le
  | asks hfree =>
      rw [hfree] at hcall
      cases hcall
  | fails _ _ hheld => exact Nat.le.intro (hheld id)
  | executes _ _ hle _ => exact hle id
  | leaves _ _ hle _ => exact hle id
  | delivers _ _ hheld => exact Nat.le.intro (hheld id)
  | loses _ _ hheld => exact Nat.le.intro (hheld id)

/-- A request that has been in vain has been the last thing of its player, if there has been one thing. -/
theorem Orderly.held_thrown (h : Orderly region s) {index : Nat} {request : MatchRequest} {awaited : Bool}
    (hrequest : s.requests[index]? = some (.join request awaited)) {allocateGame : Allocator} {now : Int}
    {failure : AllocationFailure} (hthrown : (s.matchmaker.enterQueue allocateGame now request).1 = .error failure)
    (call : Option JoinCall) :
    held region { s.serve (s.matchmaker.enterQueue allocateGame now request).2 with
      requests := s.requests.eraseIdx index, call } request.playerId < s.held region request.playerId := by
  have haccounted := s.matchmaker.accounted_enterQueue_thrown hthrown
  rw [h.home request awaited (List.mem_of_getElem? hrequest)] at haccounted
  have hheld := held_executed region hrequest (s.matchmaker.enterQueue allocateGame now request).2 call request.playerId
  rw [haccounted, GatewayRequest.joins_join, decide_eq_true rfl, if_pos rfl, Nat.zero_add] at hheld
  rw [← hheld]
  omega

theorem call_whenFree {next : GatewaySystem} {call : JoinCall} (h : (s.whenFree next).call = some call) :
    s.call = some call ∨ next.call = some call := by
  unfold whenFree at h
  split at h
  · exact .inl h
  · exact .inr h

/-- Only executing a request settles what comes of it. -/
theorem call_step {call : JoinCall} (h : (s.step config region event).call = some call) (houtcome : call.outcome ≠ none) :
    s.call = some call ∨ ∃ index allocateGame now, event = .execute index allocateGame now := by
  cases event with
  | net => exact .inl h
  | accept => exact (call_whenFree h).elim .inl .inl
  | pruneDisconnected => exact (call_whenFree h).elim .inl .inl
  | prune => exact (call_whenFree h).elim .inl .inl
  | lobby id =>
      rcases call_whenFree h with hsame | hnext
      · exact .inl hsame
      · split at hnext
        · exact .inl hnext
        · obtain rfl := Option.some.inj hnext
          exact absurd rfl houtcome
  | joinReturns =>
      simp only [step] at h
      split at h
      · cases h
      · exact .inl h
  | joinFails =>
      simp only [step] at h
      split at h
      · exact .inl h
      · cases h
  | execute index allocateGame now => exact .inr ⟨index, allocateGame, now, rfl⟩
  | processQueue => exact .inl h
  | deliver =>
      simp only [step] at h
      split at h
      · exact .inl h
      · exact .inl h
  | lose => exact .inl h

namespace Single

theorem thrown_execute (h : Single region s) {index : Nat} {allocateGame : Allocator} {now : Int}
    {failure : AllocationFailure} (hcall : (s.execute index allocateGame now).call = some ⟨id, some (.error failure)⟩)
    (hbefore : s.call ≠ some ⟨id, some (.error failure)⟩) : (s.execute index allocateGame now).held region id = 0 := by
  unfold execute at hcall ⊢
  cases hrequest : s.requests[index]? with
  | none =>
      rw [hrequest] at hcall
      exact absurd hcall hbefore
  | some request =>
      rw [hrequest] at hcall
      cases request with
      | leave => exact absurd hcall hbefore
      | join request awaited =>
          dsimp only at hcall ⊢
          cases awaited with
          | false => exact absurd hcall hbefore
          | true =>
              rw [if_pos rfl, h.orderly.awaited request (List.mem_of_getElem? hrequest), Option.map_some] at hcall
              obtain ⟨rfl, hthrown⟩ := JoinCall.mk.inj (Option.some.inj hcall)
              have hless := h.orderly.held_thrown hrequest (Option.some.inj hthrown)
                (s.call.map ({ · with outcome := some (s.matchmaker.enterQueue allocateGame now request).1 }))
              exact Nat.lt_one_iff.mp (lt_of_lt_of_le hless (h.once request.playerId))

theorem thrown_step (h : Single region s) (event : GatewayStep) {failure : AllocationFailure}
    (hcall : (s.step config region event).call = some ⟨id, some (.error failure)⟩) :
    (s.step config region event).held region id = 0 := by
  by_cases hbefore : s.call = some ⟨id, some (.error failure)⟩
  · have hmoved : Moved region s (s.step config region event) event := h.orderly.moved event
    have hle := hmoved.le (hbefore ▸ rfl) id
    rw [h.thrown id failure hbefore] at hle
    exact Nat.le_zero.mp hle
  · rcases call_step hcall nofun with hsame | ⟨index, allocateGame, now, rfl⟩
    · exact absurd hsame hbefore
    · exact h.thrown_execute hcall hbefore

/-- Two sessions of one id are one. -/
theorem eq_of_id (h : Single region s) {x y : SessionData} (hx : x ∈ s.gateway.data) (hy : y ∈ s.gateway.data)
    (hid : x.id = y.id) : x = y := by
  have hdistinct := h.orderly.distinct
  rw [Server.sessionIds_eq] at hdistinct
  exact List.inj_on_of_nodup_map hdistinct hx hy hid

/-- A session that gives up has nothing left. -/
theorem unsearched (h : Single region s) {arrives : Bool} {call : JoinCall} (hcall : s.call = some call)
    (hgives : GivesUp s.gateway arrives call) {x : SessionData} (hx : x ∈ s.gateway.data) (hid : x.id = call.session)
    {left : Nat} (hleft : left + (if call.session = x.id ∧ call.outcome.isNone ∧ arrives = false then 1 else 0) =
      s.held region x.id) : left = 0 := by
  obtain ⟨session, outcome⟩ := call
  have honce := h.once x.id
  cases outcome with
  | none =>
      obtain rfl : arrives = false := hgives
      rw [if_pos ⟨hid.symm, rfl, rfl⟩] at hleft
      omega
  | some outcome =>
      have hheld : s.held region x.id = 0 := by
        cases outcome with
        | error failure =>
            rw [hid]
            exact h.thrown session failure hcall
        | ok response =>
            have hnot := mt (h.searching x hx) (hgives x hx hid)
            omega
      omega

/-- Nothing comes. -/
theorem of_le (h : Single region s) (horderly : Orderly region t) (hle : ∀ id, t.held region id ≤ s.held region id)
    (hnext : s.gateway.nextSessionId ≤ t.gateway.nextSessionId)
    (hsearching : ∀ x ∈ t.gateway.data, 0 < t.held region x.id → x.state = .searching)
    (hthrown : ∀ id failure, t.call = some ⟨id, some (.error failure)⟩ → t.held region id = 0) : Single region t where
  orderly := horderly
  once id := (hle id).trans (h.once id)
  old id hpos := lt_of_lt_of_le (h.old id (lt_of_lt_of_le hpos (hle id))) hnext
  searching := hsearching
  thrown := hthrown

/-- Nothing comes, and the gateway does not notice. -/
theorem of_gateway (h : Single region s) (horderly : Orderly region t) (hle : ∀ id, t.held region id ≤ s.held region id)
    (hgateway : t.gateway = s.gateway)
    (hthrown : ∀ id failure, t.call = some ⟨id, some (.error failure)⟩ → t.held region id = 0) : Single region t := by
  refine h.of_le horderly hle (by rw [hgateway]) (fun x hx hpos => ?_) hthrown
  rw [hgateway] at hx
  exact h.searching x hx (lt_of_lt_of_le hpos (hle x.id))

theorem step (h : Single region s) (event : GatewayStep) (hanswers : AnswersArrive s event) :
    Single region (s.step config region event) := by
  have hthrown : ∀ id failure, (s.step config region event).call = some ⟨id, some (.error failure)⟩ →
      (s.step config region event).held region id = 0 := fun _ _ => h.thrown_step event
  have hmoved : Moved region s (s.step config region event) event := h.orderly.moved event
  have horderly : Orderly region (s.step config region event) := h.orderly.step event
  generalize s.step config region event = t at hthrown hmoved horderly ⊢
  cases hmoved with
  | same hrestated hsame hheld =>
      refine h.of_le horderly (fun id => (hheld id).le) hrestated.next.ge (fun y hy hpos => ?_) hthrown
      obtain ⟨x, hx, rfl⟩ := hrestated.mem hy
      rw [hrestated.id, hheld] at hpos
      rw [hsame]
      exact h.searching x hx hpos
  | accepts hnext hdata hheld =>
      refine h.of_le horderly (fun id => (hheld id).le) (hnext ▸ Nat.le_succ _) (fun y hy hpos => ?_) hthrown
      rw [hheld] at hpos
      rw [hdata, List.mem_append, List.mem_singleton] at hy
      rcases hy with hy | rfl
      · exact h.searching y hy hpos
      · exact absurd (h.old _ hpos) (Nat.lt_irrefl _)
  | drops hnext hdata hheld =>
      refine h.of_le horderly (fun id => (hheld id).le) hnext.ge (fun y hy hpos => ?_) hthrown
      rw [hheld] at hpos
      exact h.searching y (hdata.subset hy) hpos
  | @asks asker hfree hasking hrestated hheld =>
      -- nothing is left from an earlier search
      have hnothing : s.held region asker.id = 0 := by
        have hnot := mt (h.searching asker hasking.mem) (hasking.connected ▸ nofun)
        omega
      refine ⟨horderly, fun id => ?_, fun id hpos => ?_, fun y hy hpos => ?_, hthrown⟩
      · rw [hheld]
        split
        · rename_i hid
          rw [hid, hnothing]
        · exact h.once id
      · rw [hheld] at hpos
        rw [hrestated.next]
        split at hpos
        · rename_i hid
          rw [hid]
          exact h.orderly.old asker.id (Server.sessionIds_eq s.gateway ▸ List.mem_map_of_mem hasking.mem)
        · exact h.old id hpos
      · obtain ⟨x, hx, rfl⟩ := hrestated.mem hy
        rw [hrestated.id, hheld] at hpos
        by_cases hid : x.id = asker.id
        · obtain rfl := h.eq_of_id hx hasking.mem hid
          rw [if_pos rfl, SessionData.requestPlay, if_pos ⟨hasking.connected, hasking.hasUser⟩]
        · rw [if_neg hid] at hpos ⊢
          exact h.searching x hx hpos
  | @fails arrives call hcall hrestated hheld =>
      have hle : ∀ id, t.held region id ≤ s.held region id := fun id => Nat.le.intro (hheld id)
      refine h.of_le horderly hle hrestated.next.ge (fun y hy hpos => ?_) hthrown
      obtain ⟨x, hx, rfl⟩ := hrestated.mem hy
      rw [hrestated.id] at hpos
      by_cases hid : x.id = call.session
      · exact absurd (h.unsearched hcall (hanswers call hcall) hx hid (hheld x.id)) hpos.ne'
      · rw [Server.unsearched, if_neg hid]
        exact h.searching x hx (lt_of_lt_of_le hpos (hle x.id))
  | executes _ hgateway hle _ => exact h.of_gateway horderly hle hgateway hthrown
  | leaves _ hgateway hle _ => exact h.of_gateway horderly hle hgateway hthrown
  | loses _ hgateway hheld => exact h.of_gateway horderly (fun id => Nat.le.intro (hheld id)) hgateway hthrown
  | @delivers index notice _ hgateway hheld =>
      obtain ⟨φ, hrestated, hunnamed, -⟩ := handle_restated s.gateway notice
      rw [← hgateway] at hrestated
      have hle : ∀ id, t.held region id ≤ s.held region id := fun id => Nat.le.intro (hheld id)
      refine h.of_le horderly hle hrestated.next.ge (fun y hy hpos => ?_) hthrown
      obtain ⟨x, hx, rfl⟩ := hrestated.mem hy
      rw [hrestated.id] at hpos
      cases hnames : notice.names x.id with
      | true =>
          -- that was all there has been
          have hid := hheld x.id
          have honce := h.once x.id
          rw [hnames, if_pos rfl] at hid
          omega
      | false =>
          rw [hunnamed x hnames]
          exact h.searching x hx (lt_of_lt_of_le hpos (hle x.id))

theorem boot (region : Text) (users : UserRepository) (games : GameRepository) (now : Nat) (settings : MatchmakingConfig)
    (gatewayServerId : Text) : Single region (.boot users games now settings gatewayServerId) := by
  have hnothing : ∀ id, held region (.boot users games now settings gatewayServerId) id = 0 := by
    intro id
    unfold held known GatewaySystem.boot
    dsimp only
    rw [RemoteMatchmakingService.waitingIn_new]
    rfl
  refine ⟨.boot region users games now settings gatewayServerId, fun id => ?_, fun id hpos => ?_, fun x _ hpos => ?_, nofun⟩
  · rw [hnothing]
    exact Nat.zero_le 1
  · exact absurd (hnothing id) hpos.ne'
  · exact absurd (hnothing x.id) hpos.ne'

/-- Who is named in a notification searches. -/
theorem onlySearchersMatched (h : Single region s) (event : GatewayStep) : OnlySearchersMatched s event := by
  cases event with
  | deliver index =>
      intro notice hposted
      cases notice with
      | searchTimeout playerId => trivial
      | matchFound notification =>
          intro before hbefore after hafter
          obtain ⟨φ, hrestated, hunnamed, -⟩ := handle_restated s.gateway (.matchFound notification)
          obtain ⟨hmem, hid⟩ := Server.data_of_findSession hafter
          obtain ⟨x, hx, hφ⟩ := hrestated.mem hmem
          have hmember : before.toSessionData ∈ s.gateway.data := List.mem_map_of_mem hbefore
          obtain rfl : x = before.toSessionData := h.eq_of_id hx hmember (by rw [← hid, ← hφ, hrestated.id])
          cases hnames : (GatewayNotice.matchFound notification).names before.id with
          | true =>
              have hpos : 0 < s.held region before.id := by
                have hnamed : 0 < s.notices.countP (·.names before.id) :=
                  List.countP_pos_iff.mpr ⟨_, List.mem_of_getElem? hposted, hnames⟩
                unfold held known
                omega
              have hstate := h.searching before.toSessionData hmember hpos
              exact ⟨fun _ _ => hstate, fun hplaying => by cases hstate.symm.trans hplaying⟩
          | false =>
              have hsame : after.toSessionData = before.toSessionData := by rw [← hφ, hunnamed _ hnames]
              rw [hsame]
              exact ⟨fun hnot hplaying => absurd hplaying hnot, fun _ => ⟨rfl, rfl⟩⟩
  | net | accept | lobby | pruneDisconnected | prune | joinReturns | joinFails | execute | processQueue | lose => trivial

end Single

/-- In every run in which the lobby handler gives a request up only if nothing comes of it, the handler of
notifications changes to playing only sessions that search, and leaves those alone that play. -/
theorem only_searchers_matched_of_run (config : ServerConfig) (region : Text) (users : UserRepository)
    (games : GameRepository) (now : Nat) (settings : MatchmakingConfig) (gatewayServerId : Text)
    (steps : List GatewayStep)
    (hanswers : EachStep (step config region) AnswersArrive (boot users games now settings gatewayServerId) steps) :
    EachStep (step config region) OnlySearchersMatched (boot users games now settings gatewayServerId) steps := by
  have hsingle := Throughout.of_step (Single.boot region users games now settings gatewayServerId)
    (fun _ event hanswers h => h.step event hanswers) hanswers
  intro before event hpre
  exact (hsingle before (prefix_of_concat hpre)).onlySearchersMatched event

theorem only_searchers_matched_of_run_lost :
    let takes : Allocator := fun _ => .ok ⟨5, "a".toList, some "ws://a".toList⟩
    -- the first request is lost on its way, and the answer to the last when its session plays already
    let steps := comesToPlay 0 "login ann x" ++ [.joinFails false, .net (say 0 "play"), .lobby 0, .execute 0 takes 0,
      .joinReturns] ++ comesToPlay 1 "login bob y" ++ [.execute 0 takes 1, .deliver 0, .joinFails true]
    EachStep (step sampleConfig "eu".toList) AnswersArrive (boot {} {} 0 {} "gateway".toList) steps ∧
      EachStep (step sampleConfig "eu".toList) OnlySearchersMatched (boot {} {} 0 {} "gateway".toList) steps := by
  intro takes steps
  have hanswers : EachStep (step sampleConfig "eu".toList) AnswersArrive (boot {} {} 0 {} "gateway".toList) steps := by
    decide +kernel
  exact ⟨hanswers, only_searchers_matched_of_run sampleConfig "eu".toList {} {} 0 {} "gateway".toList steps hanswers⟩

/-- The answer to the first is lost: the lobby handler takes the search back and the matchmaker keeps the place. When
the second comes, the first has not been searching for a while and plays all the same. -/
theorem not_only_searchers_matched_unanswered :
    let takes : Allocator := fun _ => .ok ⟨5, "a".toList, some "ws://a".toList⟩
    ¬EachStep (step sampleConfig "eu".toList) OnlySearchersMatched (boot {} {} 0 {} "gateway".toList)
      (comesToPlay 0 "login ann x" ++ [.execute 0 takes 0, .joinFails true] ++ comesToPlay 1 "login bob y" ++
        [.execute 0 takes 1, .deliver 0]) := by
  decide +kernel

end GatewaySystem

end KungFuChess
