import KungFuChess.Lib.WaitingLine
import KungFuChess.Model.Matchmaker

/-!
# What the matchmaker keeps

The queue of a region is a line in which the first who suits is served. The service takes a player out,
looks for a partner and puts the player in, and writes the line to the store each time; what is true of
such a line is then true of the queue, in memory and in the store.
-/

namespace KungFuChess

open WaitingLine

/-- Whether two players can be paired under the settings. -/
def MatchmakingConfig.suits (config : MatchmakingConfig) (a b : QueuedPlayer) : Bool :=
  decide (((a.elo - b.elo).natAbs : Int) ≤ config.maxRatingDifference)

/-- Whether an entry has waited long enough. -/
def MatchmakingConfig.isTimedOut (config : MatchmakingConfig) (now : Int) (entry : QueuedPlayer) : Bool :=
  decide (now - entry.enqueueEpochSeconds ≥ (config.queueTimeout * 1000).tdiv 1000)

/-- The entry that a request makes. -/
def MatchRequest.entry (request : MatchRequest) (now : Int) : QueuedPlayer :=
  ⟨request.playerId, request.userId, request.elo, now⟩

/-- The region whose queue a request is for. -/
def MatchRequest.queueRegion (request : MatchRequest) : Text :=
  if request.region.isEmpty then defaultRegion else request.region

@[simp] theorem InMemoryRuntimeStore.list_setMatchmakingQueue (store : InMemoryRuntimeStore) (region : Text)
    (queue : List QueuedPlayer) : (store.setMatchmakingQueue region queue).listMatchmakingQueue region = queue := by
  simp [setMatchmakingQueue, listMatchmakingQueue]

namespace RemoteMatchmakingService

variable {s t : RemoteMatchmakingService} {region : Text} {line : List QueuedPlayer} {now : Int} {request : MatchRequest}
  {allocateGame : Allocator}

/-! ### The queue of a region -/

/-- The players who wait in a region. -/
def waitingIn (s : RemoteMatchmakingService) (region : Text) : List QueuedPlayer := (s.queueFor region).1.waiting

/-- The queue of the region, if it has been made. -/
def loaded (s : RemoteMatchmakingService) (region : Text) : Option (List QueuedPlayer) :=
  if region = defaultRegion then some s.defaultQueue else s.regionQueues.find? region

theorem waitingIn_eq (s : RemoteMatchmakingService) (region : Text) :
    s.waitingIn region = (s.loaded region).getD (s.store.listMatchmakingQueue region) := by
  unfold waitingIn loaded queueFor
  split
  · rfl
  · cases s.regionQueues.find? region with
    | none => rfl
    | some waiting => rfl

theorem queueFor_fst (s : RemoteMatchmakingService) (region : Text) :
    (s.queueFor region).1 = .withWaiting region s.config (s.waitingIn region) := by
  unfold waitingIn queueFor
  split
  · rfl
  · cases s.regionQueues.find? region with
    | none => rfl
    | some waiting => rfl

/-- Making a queue touches the queues only. -/
theorem queueFor_snd (s : RemoteMatchmakingService) (region : Text) :
    ∃ regionQueues, (s.queueFor region).2 = { s with regionQueues } := by
  unfold queueFor
  split
  · exact ⟨s.regionQueues, rfl⟩
  · cases s.regionQueues.find? region with
    | none => exact ⟨_, rfl⟩
    | some waiting => exact ⟨s.regionQueues, rfl⟩

theorem putQueue_eq (s : RemoteMatchmakingService) (region : Text) (queue : PlayerMatchmakingQueue) :
    ∃ defaultQueue regionQueues, s.putQueue region queue = { s with defaultQueue, regionQueues } := by
  unfold putQueue
  split
  · exact ⟨_, s.regionQueues, rfl⟩
  · exact ⟨s.defaultQueue, _, rfl⟩

theorem loaded_putQueue (s : RemoteMatchmakingService) (region : Text) (queue : PlayerMatchmakingQueue) :
    (s.putQueue region queue).loaded region = some queue.waiting := by
  unfold putQueue loaded
  split
  · rfl
  · simp

/-- The queue of a region changes, and the store. -/
structure Updated (s t : RemoteMatchmakingService) (region : Text) (line : List QueuedPlayer)
    (store : InMemoryRuntimeStore) : Prop where
  loaded : t.loaded region = some line
  store : t.store = store
  games : t.games = s.games
  config : t.config = s.config
  sent : t.sent = s.sent

theorem Updated.waitingIn {store : InMemoryRuntimeStore} (h : Updated s t region line store) :
    t.waitingIn region = line := by
  rw [waitingIn_eq, h.loaded, Option.getD_some]

theorem onQueue_updated {α : Type} {r : α} {store : InMemoryRuntimeStore}
    {f : PlayerMatchmakingQueue → InMemoryRuntimeStore → α × PlayerMatchmakingQueue × InMemoryRuntimeStore}
    (hf : f (.withWaiting region s.config (s.waitingIn region)) s.store =
      (r, .withWaiting region s.config line, store)) :
    ∃ t, s.onQueue region f = (r, t) ∧ Updated s t region line store := by
  obtain ⟨madeQueues, hmade⟩ := queueFor_snd s region
  have hqueueFor : s.queueFor region =
      (.withWaiting region s.config (s.waitingIn region), { s with regionQueues := madeQueues }) :=
    Prod.ext (queueFor_fst s region) hmade
  have hloaded := loaded_putQueue { s with regionQueues := madeQueues } region (.withWaiting region s.config line)
  obtain ⟨defaultQueue, regionQueues, hput⟩ :=
    putQueue_eq { s with regionQueues := madeQueues } region (.withWaiting region s.config line)
  rw [hput] at hloaded
  refine ⟨{ s with defaultQueue, regionQueues, store }, ?_, ⟨hloaded, rfl, rfl, rfl, rfl⟩⟩
  unfold onQueue
  rw [hqueueFor]
  dsimp only
  rw [hf]
  dsimp only
  rw [hput]

/-! ### What a call does to it -/

theorem remove_updated (s : RemoteMatchmakingService) (region : Text) (playerId : PlayerId) :
    ∃ t, s.onQueue region (fun queue store => ((), queue.remove store playerId)) = ((), t) ∧
      Updated s t region (leave (·.playerId) playerId (s.waitingIn region))
        (s.store.setMatchmakingQueue region (leave (·.playerId) playerId (s.waitingIn region))) :=
  onQueue_updated rfl

theorem enqueue_updated (s : RemoteMatchmakingService) (region : Text) (player : QueuedPlayer) :
    ∃ t, s.onQueue region (fun queue store => ((), queue.enqueue store player)) = ((), t) ∧
      Updated s t region (s.waitingIn region ++ [player])
        (s.store.setMatchmakingQueue region (s.waitingIn region ++ [player])) :=
  onQueue_updated rfl

/-- Nobody suits, or the first who does is taken out. -/
theorem tryPair_updated (s : RemoteMatchmakingService) (region : Text) (incoming : QueuedPlayer) :
    (∀ white, (s.waitingIn region).find? (s.config.suits incoming) = some white →
      ∃ t, s.onQueue region (fun queue store => queue.tryPair store incoming) = (some (white, incoming), t) ∧
        Updated s t region ((s.waitingIn region).eraseP (s.config.suits incoming))
          (s.store.setMatchmakingQueue region ((s.waitingIn region).eraseP (s.config.suits incoming)))) ∧
    ((s.waitingIn region).find? (s.config.suits incoming) = none →
      ∃ t, s.onQueue region (fun queue store => queue.tryPair store incoming) = (none, t) ∧
        Updated s t region (s.waitingIn region) s.store) := by
  have hfind : ∀ queue : PlayerMatchmakingQueue, queue = .withWaiting region s.config (s.waitingIn region) →
      queue.waiting.find? (queue.areCompatible incoming) = (s.waitingIn region).find? (s.config.suits incoming) := by
    intro queue h
    obtain rfl := h
    rfl
  refine ⟨fun white hwhite => onQueue_updated ?_, fun hnone => onQueue_updated ?_⟩
  · unfold PlayerMatchmakingQueue.tryPair
    rw [hfind _ rfl, hwhite]
    rfl
  · unfold PlayerMatchmakingQueue.tryPair
    rw [hfind _ rfl, hnone]

/-- Whoever has waited too long is taken out, and the store hears of it if there is anybody. -/
theorem checkTimeouts_updated (s : RemoteMatchmakingService) (now : Int) (region : Text) :
    ∃ t, s.onQueue region (fun queue store => queue.checkTimeouts store now) =
        (((s.waitingIn region).filter (s.config.isTimedOut now)).map (·.playerId), t) ∧
      Updated s t region ((s.waitingIn region).filter fun entry => !s.config.isTimedOut now entry)
        (if (((s.waitingIn region).filter (s.config.isTimedOut now)).map (·.playerId)).isEmpty then s.store
        else s.store.setMatchmakingQueue region
          ((s.waitingIn region).filter fun entry => !s.config.isTimedOut now entry)) :=
  onQueue_updated rfl

/-- The queue of a region has been made, and the store has it. -/
structure Holds (t : RemoteMatchmakingService) (region : Text) (line : List QueuedPlayer) (config : MatchmakingConfig) :
    Prop where
  loaded : t.loaded region = some line
  stored : t.store.listMatchmakingQueue region = line
  config : t.config = config

theorem Holds.waitingIn {config : MatchmakingConfig} (h : Holds t region line config) : t.waitingIn region = line := by
  rw [waitingIn_eq, h.loaded, Option.getD_some]

/-- Those whom a request finds in the queue. -/
def others (s : RemoteMatchmakingService) (request : MatchRequest) : List QueuedPlayer :=
  leave (·.playerId) request.playerId (s.waitingIn request.queueRegion)

/-- The first of them who suits. -/
def partner (s : RemoteMatchmakingService) (now : Int) (request : MatchRequest) : Option QueuedPlayer :=
  (s.others request).find? (s.config.suits (request.entry now))

/-- The queue without this one. -/
def withoutPartner (s : RemoteMatchmakingService) (now : Int) (request : MatchRequest) : List QueuedPlayer :=
  (s.others request).eraseP (s.config.suits (request.entry now))

/-- What comes of a request to be paired. -/
inductive Entered (s : RemoteMatchmakingService) (allocateGame : Allocator) (now : Int) (request : MatchRequest) :
    Except AllocationFailure MatchResponse × RemoteMatchmakingService → Prop where
  | queued {t : RemoteMatchmakingService} (alone : s.partner now request = none)
      (holds : Holds t request.queueRegion (s.others request ++ [request.entry now]) s.config)
      (games : t.games = s.games) (sent : t.sent = s.sent) :
      Entered s allocateGame now request (.ok ⟨.queued, "queued".toList⟩, t)
  | failed {t : RemoteMatchmakingService} {white : QueuedPlayer} {failure : AllocationFailure}
      (found : s.partner now request = some white)
      (holds : Holds t request.queueRegion (s.withoutPartner now request) s.config)
      (games : t.games = (s.games.createGame (intOfUserId white.userId) (intOfUserId request.userId)).2)
      (failed : allocateGame ⟨white.userId, request.userId,
        (s.games.createGame (intOfUserId white.userId) (intOfUserId request.userId)).1⟩ = .error failure)
      (sent : t.sent = s.sent) :
      Entered s allocateGame now request (.error failure, t)
  | matched {t : RemoteMatchmakingService} {white : QueuedPlayer}
      (found : s.partner now request = some white)
      (holds : Holds t request.queueRegion (s.withoutPartner now request) s.config)
      (sent : ∃ roomId serverId endpoint, t.sent = s.sent ++ [.matchFound
        ⟨white.playerId, white.userId, request.playerId, request.userId, roomId, serverId, endpoint⟩]) :
      Entered s allocateGame now request (.ok ⟨.queued, "matched".toList⟩, t)

theorem enterQueue_entered (s : RemoteMatchmakingService) (allocateGame : Allocator) (now : Int)
    (request : MatchRequest) : Entered s allocateGame now request (s.enterQueue allocateGame now request) := by
  obtain ⟨u, hremove, hu⟩ := remove_updated s request.queueRegion request.playerId
  have hwaiting : u.waitingIn request.queueRegion = s.others request := hu.waitingIn
  obtain ⟨hfound, halone⟩ := tryPair_updated u request.queueRegion (request.entry now)
  rw [hwaiting, hu.config] at hfound halone
  unfold enterQueue
  dsimp only
  rw [show (if request.region.isEmpty then defaultRegion else request.region) = request.queueRegion from rfl,
    show QueuedPlayer.mk request.playerId request.userId request.elo now = request.entry now from rfl, hremove]
  dsimp only
  cases hpartner : s.partner now request with
  | none =>
      obtain ⟨v, hpair, hv⟩ := halone hpartner
      obtain ⟨t, henqueue, ht⟩ := enqueue_updated v request.queueRegion (request.entry now)
      rw [hv.waitingIn] at ht
      rw [hpair]
      dsimp only
      rw [henqueue]
      refine .queued hpartner ⟨ht.loaded, ?_, ?_⟩ ?_ ?_
      · rw [ht.store, InMemoryRuntimeStore.list_setMatchmakingQueue]
      · rw [ht.config, hv.config, hu.config]
      · rw [ht.games, hv.games, hu.games]
      · rw [ht.sent, hv.sent, hu.sent]
  | some white =>
      obtain ⟨v, hpair, hv⟩ := hfound white hpartner
      rw [hpair]
      dsimp only
      unfold finalizeMatch
      dsimp only
      have hstored : v.store.listMatchmakingQueue request.queueRegion = s.withoutPartner now request := by
        rw [hv.store, InMemoryRuntimeStore.list_setMatchmakingQueue]
        rfl
      have hgames : v.games = s.games := by rw [hv.games, hu.games]
      have hconfig : v.config = s.config := by rw [hv.config, hu.config]
      have hsent : v.sent = s.sent := by rw [hv.sent, hu.sent]
      cases hallocate : allocateGame ⟨white.userId, (request.entry now).userId,
          (v.games.createGame (intOfUserId white.userId) (intOfUserId (request.entry now).userId)).1⟩ with
      | error failure =>
          rw [hgames] at hallocate ⊢
          exact .failed hpartner ⟨hv.loaded, hstored, hconfig⟩ rfl hallocate hsent
      | ok response =>
          refine .matched hpartner ⟨hv.loaded, hstored, hconfig⟩ ⟨response.roomId,
            if response.gameServerId.isEmpty then v.gatewayServerId else response.gameServerId,
            response.endpoint.getD [], ?_⟩
          rw [← hsent]
          rfl

theorem leaveQueue_holds (s : RemoteMatchmakingService) (playerId : PlayerId) (region : Text) :
    Holds (s.leaveQueue playerId region) region (leave (·.playerId) playerId (s.waitingIn region)) s.config ∧
      (s.leaveQueue playerId region).sent = s.sent := by
  obtain ⟨t, hremove, ht⟩ := remove_updated s region playerId
  have heq : s.leaveQueue playerId region = t := congrArg Prod.snd hremove
  rw [heq]
  exact ⟨⟨ht.loaded, by rw [ht.store, InMemoryRuntimeStore.list_setMatchmakingQueue], ht.config⟩, ht.sent⟩

theorem foldl_notify (s : RemoteMatchmakingService) (playerIds : List PlayerId) :
    playerIds.foldl (fun service playerId => service.notify (.searchTimeout playerId)) s =
      { s with sent := s.sent ++ playerIds.map .searchTimeout } := by
  induction playerIds generalizing s with
  | nil => simp
  | cons playerId playerIds ih =>
      rw [List.foldl_cons, ih]
      simp [notify]

/-- Whoever times out is told. -/
theorem processQueue_sent (s : RemoteMatchmakingService) (now : Int) (region : Text) :
    (s.processQueue now region).sent =
      s.sent ++ ((s.waitingIn region).filter (s.config.isTimedOut now)).map (.searchTimeout ·.playerId) := by
  obtain ⟨t, hcheck, ht⟩ := checkTimeouts_updated s now region
  unfold processQueue
  rw [hcheck]
  dsimp only
  rw [foldl_notify]
  change t.sent ++ _ = _
  rw [ht.sent, List.map_map]
  rfl

/-- Whoever times out leaves and is told; if nobody does, the store is as good as it was. -/
theorem processQueue_holds (hstored : s.store.listMatchmakingQueue region = s.waitingIn region) (now : Int) :
    Holds (s.processQueue now region) region
        ((s.waitingIn region).filter fun entry => !s.config.isTimedOut now entry) s.config ∧
      (s.processQueue now region).sent =
        s.sent ++ ((s.waitingIn region).filter (s.config.isTimedOut now)).map (.searchTimeout ·.playerId) := by
  refine ⟨?_, processQueue_sent s now region⟩
  obtain ⟨t, hcheck, ht⟩ := checkTimeouts_updated s now region
  unfold processQueue
  rw [hcheck]
  dsimp only
  rw [foldl_notify]
  refine ⟨ht.loaded, ?_, ht.config⟩
  change t.store.listMatchmakingQueue region = _
  rw [ht.store]
  split
  · rename_i hnone
    simp only [List.isEmpty_iff, List.map_eq_nil_iff, List.filter_eq_nil_iff, Bool.not_eq_true] at hnone
    have hstay : ∀ entry ∈ s.waitingIn region, s.config.isTimedOut now entry = false := hnone
    rw [hstored, List.filter_eq_self.mpr]
    intro entry hentry
    rw [hstay entry hentry, Bool.not_false]
  · exact InMemoryRuntimeStore.list_setMatchmakingQueue ..

/-! ### Runs over one region -/

/-- The call is for the queue of this region, and a server can be found for a match. -/
def Addresses (region : Text) : QueueCall → Prop
  | .enterQueue allocateGame _ request =>
      request.region = region ∧ ∀ game, ∃ response, allocateGame game = .ok response
  | .leaveQueue _ other | .processQueue _ other => other = region

/-- The entry that a call makes. -/
def entryOf : QueueCall → Option QueuedPlayer
  | .enterQueue _ now request => some (request.entry now)
  | _ => none

/-- The latest entry of every player, in order. -/
def latestEntries (calls : List QueueCall) : List QueuedPlayer := (calls.filterMap entryOf).foldl (record (·.playerId)) []

/-- What holds of a region after every call. -/
structure Kept (config : MatchmakingConfig) (region : Text) (log : List QueuedPlayer) (s : RemoteMatchmakingService) :
    Prop where
  settings : s.config = config
  stored : s.store.listMatchmakingQueue region = s.waitingIn region
  valid : Valid (·.playerId) config.suits (s.waitingIn region)
  order : (s.waitingIn region).Sublist log

variable {config : MatchmakingConfig} {log : List QueuedPlayer} {call : QueueCall}

theorem Holds.kept (h : Holds t region line config) (hvalid : Valid (·.playerId) config.suits line)
    (horder : line.Sublist log) : Kept config region log t :=
  ⟨h.config, by rw [h.stored, h.waitingIn], by rw [h.waitingIn]; exact hvalid, by rw [h.waitingIn]; exact horder⟩

/-- A request that does not fail makes the entry enter the line, and a match is told to the gateway. -/
theorem enterQueue_enters (s : RemoteMatchmakingService) (hregion : region ≠ [])
    (hcall : Addresses region (.enterQueue allocateGame now request)) :
    Holds (s.enterQueue allocateGame now request).2 region
      (enter (·.playerId) s.config.suits (request.entry now) (s.waitingIn region)).2 s.config ∧
    ((enter (·.playerId) s.config.suits (request.entry now) (s.waitingIn region)).1 = none ∧
        (s.enterQueue allocateGame now request).2.sent = s.sent ∨
      ∃ white notification, notification.whitePlayerId = white.playerId ∧
        notification.blackPlayerId = request.playerId ∧
        (enter (·.playerId) s.config.suits (request.entry now) (s.waitingIn region)).1 = some white ∧
        (s.enterQueue allocateGame now request).2.sent = s.sent ++ [.matchFound notification]) := by
  obtain ⟨rfl, hallocate⟩ := hcall
  have hqueue : request.queueRegion = request.region := by
    unfold MatchRequest.queueRegion
    rw [if_neg (by simpa using hregion)]
  have henter : enter (·.playerId) s.config.suits (request.entry now) (s.waitingIn request.region) =
      WaitingLine.serve s.config.suits (request.entry now) (s.others request) := by
    rw [others, hqueue]
    rfl
  have hentered := enterQueue_entered s allocateGame now request
  obtain ⟨result, t, ht⟩ : ∃ result t, s.enterQueue allocateGame now request = (result, t) := ⟨_, _, rfl⟩
  rw [henter]
  rw [ht] at hentered ⊢
  unfold WaitingLine.serve
  cases hentered with
  | queued halone hholds hgames hsent =>
      rw [partner] at halone
      rw [halone]
      exact ⟨hqueue ▸ hholds, .inl ⟨rfl, hsent⟩⟩
  | matched hfound hholds hsent =>
      rename_i white
      rw [partner] at hfound
      rw [hfound]
      obtain ⟨roomId, serverId, endpoint, hsent⟩ := hsent
      exact ⟨hqueue ▸ hholds, .inr ⟨white, _, rfl, rfl, rfl, hsent⟩⟩
  | failed _ _ _ hfailed _ =>
      obtain ⟨response, hok⟩ := hallocate _
      rw [hok] at hfailed
      cases hfailed

theorem Kept.handle (h : Kept config region log s) (hregion : region ≠ []) (hcall : Addresses region call) :
    Kept config region (((entryOf call).toList).foldl (record (·.playerId)) log) (s.handle call) := by
  obtain ⟨hsettings, hstored, hvalid, horder⟩ := h
  subst hsettings
  cases call with
  | enterQueue allocateGame now request =>
      exact (enterQueue_enters s hregion hcall).1.kept (hvalid.enter _) (enter_sublist_record horder _)
  | leaveQueue playerId other =>
      obtain rfl : other = region := hcall
      exact (leaveQueue_holds s playerId other).1.kept (hvalid.sublist (leave_sublist _ _))
        ((leave_sublist _ _).trans horder)
  | processQueue now other =>
      obtain rfl : other = region := hcall
      exact (processQueue_holds hstored now).1.kept (hvalid.sublist List.filter_sublist)
        (List.filter_sublist.trans horder)

theorem Kept.run (h : Kept config region log s) (hregion : region ≠ []) {calls : List QueueCall}
    (hcalls : ∀ call ∈ calls, Addresses region call) :
    Kept config region ((calls.filterMap entryOf).foldl (record (·.playerId)) log) (s.run calls) := by
  induction calls generalizing s log with
  | nil => exact h
  | cons call calls ih =>
      have hnext := ih (h.handle hregion (hcalls call List.mem_cons_self))
        fun later hlater => hcalls later (List.mem_cons_of_mem _ hlater)
      have hentries : (call :: calls).filterMap entryOf = (entryOf call).toList ++ calls.filterMap entryOf := by
        cases hentry : entryOf call with
        | none => rw [List.filterMap_cons_none hentry, Option.toList_none, List.nil_append]
        | some entry => rw [List.filterMap_cons_some hentry, Option.toList_some, List.singleton_append]
      rw [hentries, List.foldl_append]
      exact hnext

/-! ### What becomes of an entry -/

def isMatchOf (playerId : PlayerId) : GatewayNotice → Bool
  | .matchFound notification => notification.whitePlayerId == playerId || notification.blackPlayerId == playerId
  | .searchTimeout _ => false

/-- What a call tells the gateway. -/
def newNotices (s : RemoteMatchmakingService) (call : QueueCall) : List GatewayNotice :=
  (s.handle call).sent.drop s.sent.length

/-- How often a call pairs the player. -/
def paired (playerId : PlayerId) (s : RemoteMatchmakingService) (call : QueueCall) : Nat :=
  (newNotices s call).countP (isMatchOf playerId)

/-- How often a call reports the player as timed out. -/
def timedOut (playerId : PlayerId) (s : RemoteMatchmakingService) (call : QueueCall) : Nat :=
  (newNotices s call).count (.searchTimeout playerId)

/-- How many entries of the player a call of `leave_queue` removes. -/
def left (playerId : PlayerId) (s : RemoteMatchmakingService) : QueueCall → Nat
  | .leaveQueue other region => if other = playerId then places (·.playerId) playerId (s.waitingIn region) else 0
  | _ => 0

/-- What the calls of a run add up to. -/
def tally (f : RemoteMatchmakingService → QueueCall → Nat) (s : RemoteMatchmakingService) : List QueueCall → Nat
  | [] => 0
  | call :: calls => f s call + tally f (s.handle call) calls

/-- The ends that a call brings to entries of the player. -/
def ends (playerId : PlayerId) (s : RemoteMatchmakingService) (call : QueueCall) : Nat :=
  paired playerId s call + timedOut playerId s call + left playerId s call

theorem newNotices_eq {notices : List GatewayNotice} (hsent : (s.handle call).sent = s.sent ++ notices) :
    newNotices s call = notices := by
  rw [newNotices, hsent, List.drop_left]

variable {playerId : PlayerId}

theorem ends_matchFound {notification : MatchNotification}
    (hsent : (s.handle (.enterQueue allocateGame now request)).sent = s.sent ++ [.matchFound notification])
    (hblack : notification.blackPlayerId = request.playerId) :
    ends playerId s (.enterQueue allocateGame now request) =
      if notification.whitePlayerId = playerId ∨ request.playerId = playerId then 1 else 0 := by
  rw [ends, paired, timedOut, newNotices_eq hsent]
  simp [isMatchOf, left, List.countP_singleton, hblack]

theorem ends_quiet (hsent : (s.handle (.enterQueue allocateGame now request)).sent = s.sent) :
    ends playerId s (.enterQueue allocateGame now request) = 0 := by
  rw [ends, paired, timedOut, newNotices_eq (hsent.trans (List.append_nil _).symm)]
  rfl

/-- The entry that a request makes waits, or is paired at once. -/
theorem ends_of_entry (s : RemoteMatchmakingService) (hregion : region ≠ [])
    (hcall : Addresses region (.enterQueue allocateGame now request)) :
    places (·.playerId) request.playerId ((s.handle (.enterQueue allocateGame now request)).waitingIn region) +
      ends request.playerId s (.enterQueue allocateGame now request) = 1 := by
  obtain ⟨hholds, hsent⟩ := enterQueue_enters s hregion hcall
  have hplaces := places_enter_self (·.playerId) s.config.suits (request.entry now) (s.waitingIn region)
  have hwaiting : (s.handle (.enterQueue allocateGame now request)).waitingIn region = _ := hholds.waitingIn
  rw [hwaiting]
  rcases hsent with ⟨halone, hsent⟩ | ⟨white, notification, hwhite, hblack, hfound, hsent⟩
  · rw [ends_quiet hsent]
    rw [halone] at hplaces
    exact hplaces
  · rw [ends_matchFound hsent hblack, if_pos (.inr rfl)]
    rw [hfound] at hplaces
    exact congrArg (· + 1) hplaces

/-- Every other call ends as many entries of a player as it takes out of the line. -/
theorem ends_of_other (h : Kept config region log s) (hregion : region ≠ []) (hcall : Addresses region call)
    (hother : ∀ entry ∈ entryOf call, entry.playerId ≠ playerId) :
    places (·.playerId) playerId ((s.handle call).waitingIn region) + ends playerId s call =
      places (·.playerId) playerId (s.waitingIn region) := by
  cases call with
  | enterQueue allocateGame now request =>
      obtain ⟨hholds, hsent⟩ := enterQueue_enters s hregion hcall
      have hne : request.playerId ≠ playerId := hother _ rfl
      have hplaces := places_enter_of_ne (·.playerId) s.config.suits (x := request.entry now) hne.symm (s.waitingIn region)
      have hwaiting : (s.handle (.enterQueue allocateGame now request)).waitingIn region = _ := hholds.waitingIn
      rw [hwaiting, ← hplaces]
      rcases hsent with ⟨halone, hsent⟩ | ⟨white, notification, hwhite, hblack, hfound, hsent⟩
      · rw [ends_quiet hsent, halone]
        rfl
      · rw [ends_matchFound hsent hblack, hfound, Option.toList_some, places_singleton, hwhite]
        simp [hne]
  | leaveQueue other region' =>
      obtain rfl : region' = region := hcall
      obtain ⟨hholds, hsent⟩ := leaveQueue_holds s other region'
      have hwaiting : (s.handle (.leaveQueue other region')).waitingIn region' = _ := hholds.waitingIn
      have hquiet : newNotices s (.leaveQueue other region') = [] :=
        newNotices_eq (by rw [List.append_nil]; exact hsent)
      rw [hwaiting, places_leave, ends, paired, timedOut, hquiet, left]
      by_cases heq : other = playerId
      · simp [heq]
      · simp [heq, Ne.symm heq]
  | processQueue now region' =>
      obtain rfl : region' = region := hcall
      obtain ⟨hholds, hsent⟩ := processQueue_holds h.stored now
      have hwaiting : (s.handle (.processQueue now region')).waitingIn region' = _ := hholds.waitingIn
      have hnotices : newNotices s (.processQueue now region') = _ := newNotices_eq hsent
      have hnomatch : ∀ line : List QueuedPlayer,
          (line.map (GatewayNotice.searchTimeout ·.playerId)).countP (isMatchOf playerId) = 0 := by
        intro line
        rw [List.countP_map, List.countP_eq_zero]
        simp [isMatchOf]
      have htimeouts : ∀ line : List QueuedPlayer,
          (line.map (GatewayNotice.searchTimeout ·.playerId)).count (.searchTimeout playerId) =
            places (·.playerId) playerId line := by
        intro line
        rw [List.count, List.countP_map, places]
        apply List.countP_congr
        simp
      have hstay := places_filter_add (·.playerId) playerId (s.config.isTimedOut now) (s.waitingIn region')
      rw [hwaiting, ends, paired, timedOut, hnotices, hnomatch, htimeouts, ← hstay, left]
      · omega
      · simp

theorem tally_add (f g : RemoteMatchmakingService → QueueCall → Nat) (s : RemoteMatchmakingService)
    (calls : List QueueCall) : tally (fun s call => f s call + g s call) s calls = tally f s calls + tally g s calls := by
  induction calls generalizing s with
  | nil => rfl
  | cons call calls ih =>
      rw [tally, ih, tally, tally]
      omega

/-- Until the player enters again, the places that are lost have been ended one by one. -/
theorem ends_of_run (h : Kept config region log s) (hregion : region ≠ []) {calls : List QueueCall}
    (hcalls : ∀ call ∈ calls, Addresses region call)
    (hother : ∀ call ∈ calls, ∀ entry ∈ entryOf call, entry.playerId ≠ playerId) :
    places (·.playerId) playerId ((s.run calls).waitingIn region) + tally (ends playerId) s calls =
      places (·.playerId) playerId (s.waitingIn region) := by
  induction calls generalizing s log with
  | nil => rfl
  | cons call calls ih =>
      obtain ⟨hcall, hcalls⟩ := List.forall_mem_cons.mp hcalls
      obtain ⟨hfirst, hother⟩ := List.forall_mem_cons.mp hother
      have hnext := ih (h.handle hregion hcall) hcalls hother
      have hnow := ends_of_other h hregion hcall hfirst
      rw [tally, ← hnow, ← hnext]
      change _ + (_ + _) = _
      rw [show s.run (call :: calls) = (s.handle call).run calls from rfl]
      omega

theorem kept_new (games : GameRepository) (config : MatchmakingConfig) (gatewayServerId : Text) (region : Text) :
    Kept config region [] (new {} games config gatewayServerId) := by
  have hwaiting : (new {} games config gatewayServerId).waitingIn region = [] := by
    rw [waitingIn_eq, loaded]
    split
    · rfl
    · rfl
  refine ⟨rfl, ?_, ?_, ?_⟩
  · rw [hwaiting]
    rfl
  · rw [hwaiting]
    exact .nil _ _
  · rw [hwaiting]

/-- Calls of the queue of one region, made to a new service with an empty store, with a game server that can
always be found: after each of them the store has the queue as it is in memory, nobody waits twice or with a
player who would suit, the queue is in the order of the latest entries, and the latest entry of a player
either waits or has come to one end. -/
theorem remote_queue_invariant {calls : List QueueCall} (hregion : region ≠ [])
    (hcalls : ∀ call ∈ calls, Addresses region call) (games : GameRepository) (config : MatchmakingConfig)
    (gatewayServerId : Text) :
    let start := new {} games config gatewayServerId
    let s := start.run calls
    s.store.listMatchmakingQueue region = s.waitingIn region ∧
    ((s.waitingIn region).map (·.playerId)).Nodup ∧
    (s.waitingIn region).Pairwise (fun a b => config.maxRatingDifference < (a.elo - b.elo).natAbs) ∧
    (s.waitingIn region).Sublist (latestEntries calls) ∧
    ∀ before allocateGame now request after, calls = before ++ .enterQueue allocateGame now request :: after →
      (∀ call ∈ after, ∀ entry ∈ entryOf call, entry.playerId ≠ request.playerId) →
      let rest := .enterQueue allocateGame now request :: after
      places (·.playerId) request.playerId (s.waitingIn region) +
        tally (paired request.playerId) (start.run before) rest +
        tally (timedOut request.playerId) (start.run before) rest +
        tally (left request.playerId) (start.run before) rest = 1 := by
  intro start s
  have hstart : Kept config region [] start := kept_new games config gatewayServerId region
  have hkept := hstart.run hregion hcalls
  refine ⟨hkept.stored, hkept.valid.distinct, ?_, hkept.order, ?_⟩
  · refine hkept.valid.unmatched.imp ?_
    intro a b hab
    have hfar := of_decide_eq_false hab
    omega
  · intro before allocateGame now request after h
    obtain rfl := h
    intro hother rest
    obtain ⟨hbefore, hrest⟩ := List.forall_mem_append.mp hcalls
    obtain ⟨hentry, hafter⟩ := List.forall_mem_cons.mp hrest
    have hmade := hstart.run hregion hbefore
    have hfirst := ends_of_entry (start.run before) hregion hentry
    have hlater := ends_of_run (hmade.handle hregion hentry) hregion hafter hother
    have hrun : s = ((start.run before).handle (.enterQueue allocateGame now request)).run after := by
      change start.run (before ++ .enterQueue allocateGame now request :: after) = _
      rw [run, List.foldl_append]
      rfl
    have hends : tally (ends request.playerId) (start.run before) rest =
        tally (paired request.playerId) (start.run before) rest +
          tally (timedOut request.playerId) (start.run before) rest +
          tally (left request.playerId) (start.run before) rest :=
      (tally_add _ _ _ _).trans (congrArg (· + _) (tally_add _ _ _ _))
    rw [tally] at hends
    rw [hrun]
    omega

/-- Three players enter, and the third is paired with the first. -/
theorem remote_queue_invariant_third_pairs :
    let allocateGame : Allocator := fun _ => .ok ⟨1, "game-1".toList, none⟩
    let calls : List QueueCall := [.enterQueue allocateGame 0 ⟨1, 11, 1000, "eu".toList⟩,
      .enterQueue allocateGame 1 ⟨2, 12, 1500, "eu".toList⟩, .enterQueue allocateGame 2 ⟨3, 13, 1050, "eu".toList⟩]
    let s := (new {} {} {} []).run calls
    s.waitingIn "eu".toList = [⟨2, 12, 1500, 1⟩] ∧ s.store.listMatchmakingQueue "eu".toList = s.waitingIn "eu".toList := by
  intro allocateGame calls s
  have hcalls : ∀ call ∈ calls, Addresses "eu".toList call := by simp [calls, Addresses, allocateGame]
  exact ⟨by decide +kernel, (remote_queue_invariant (by decide) hcalls {} {} []).1⟩

/-! ### An allocation that fails -/

/-- Everybody else still waits, in memory and in the store, and no new game is active. -/
structure LeavesNoTrace (s : RemoteMatchmakingService) (request : MatchRequest) (t : RemoteMatchmakingService) :
    Prop where
  waiting : ∀ entry ∈ s.waitingIn request.queueRegion, entry.playerId ≠ request.playerId →
    ∃ other ∈ t.waitingIn request.queueRegion, other.playerId = entry.playerId
  stored : ∀ entry ∈ s.store.listMatchmakingQueue request.queueRegion, entry.playerId ≠ request.playerId →
    ∃ other ∈ t.store.listMatchmakingQueue request.queueRegion, other.playerId = entry.playerId
  games : ∀ row ∈ t.games.rows.drop s.games.rows.length, row.active = false

/-- The game that a match makes stays active, unless there is no database. -/
theorem createGame_inactive_iff (games : GameRepository) (white black : Int) :
    (∀ row ∈ (games.createGame white black).2.rows.drop games.rows.length, row.active = false) ↔
      games.connected = false := by
  unfold GameRepository.createGame
  cases hconnected : games.connected with
  | false => simp
  | true => simp

/-- A player keeps a place without the partner, unless it was the only place of the partner. -/
theorem places_withoutPartner {white : QueuedPlayer} (hfound : s.partner now request = some white)
    (hother : playerId ≠ request.playerId) :
    places (·.playerId) playerId (s.withoutPartner now request) + places (·.playerId) playerId [white] =
      places (·.playerId) playerId (s.waitingIn request.queueRegion) := by
  have hplaces := places_eraseP (·.playerId) hfound playerId
  rw [others, places_leave, if_neg hother] at hplaces
  exact hplaces

/-- An allocation fails: it leaves no trace if and only if the player who had been found has a second entry in
the queue, the store lists no one else who does not wait in memory, and there is no database of games. -/
theorem failed_allocation_leaves_no_trace_iff {failure : AllocationFailure}
    (hfailed : (s.enterQueue allocateGame now request).1 = .error failure) :
    LeavesNoTrace s request (s.enterQueue allocateGame now request).2 ↔
      (∀ white, s.partner now request = some white →
        2 ≤ places (·.playerId) white.playerId (s.waitingIn request.queueRegion)) ∧
      (∀ entry ∈ s.store.listMatchmakingQueue request.queueRegion, entry.playerId ≠ request.playerId →
        ∃ other ∈ s.waitingIn request.queueRegion, other.playerId = entry.playerId) ∧
      s.games.connected = false := by
  have hentered := enterQueue_entered s allocateGame now request
  obtain ⟨result, t, ht⟩ : ∃ result t, s.enterQueue allocateGame now request = (result, t) := ⟨_, _, rfl⟩
  rw [ht] at hentered hfailed ⊢
  cases hentered with
  | queued _ _ _ _ => cases hfailed
  | matched _ _ _ => cases hfailed
  | @failed _ white _ hfound hholds hgames _ =>
      have hsub : ∀ entry ∈ s.withoutPartner now request, entry ∈ s.waitingIn request.queueRegion :=
        fun entry hentry => (leave_sublist _ _).subset (List.mem_of_mem_eraseP hentry)
      have hwhite : white ∈ s.waitingIn request.queueRegion ∧ white.playerId ≠ request.playerId :=
        mem_leave.mp (List.mem_of_find?_eq_some hfound)
      constructor
      · intro h
        obtain ⟨hwaiting, hstored, hactive⟩ := h
        rw [hholds.waitingIn] at hwaiting
        rw [hholds.stored] at hstored
        rw [hgames] at hactive
        refine ⟨?_, ?_, (createGame_inactive_iff ..).mp hactive⟩
        · intro partner hpartner
          rw [hfound] at hpartner
          cases hpartner
          have hkept : 0 < places (·.playerId) white.playerId (s.withoutPartner now request) :=
            places_pos.mpr (hwaiting white hwhite.1 hwhite.2)
          have hplaces := places_withoutPartner hfound hwhite.2
          rw [places_singleton, if_pos rfl] at hplaces
          omega
        · intro entry hentry hother
          obtain ⟨other, hmem, hid⟩ := hstored entry hentry hother
          exact ⟨other, hsub other hmem, hid⟩
      · intro h
        obtain ⟨htwice, hlisted, hconnected⟩ := h
        have hwaiting : ∀ entry ∈ s.waitingIn request.queueRegion, entry.playerId ≠ request.playerId →
            ∃ other ∈ s.withoutPartner now request, other.playerId = entry.playerId := by
          intro entry hentry hother
          suffices hstays : 0 < places (·.playerId) entry.playerId (s.withoutPartner now request) from
            places_pos.mp hstays
          have hplaces := places_withoutPartner hfound hother
          rw [places_singleton] at hplaces
          have hthere : 0 < places (·.playerId) entry.playerId (s.waitingIn request.queueRegion) :=
            places_pos.mpr ⟨entry, hentry, rfl⟩
          by_cases heq : white.playerId = entry.playerId
          · have hsecond := htwice white hfound
            rw [heq] at hsecond
            rw [if_pos heq] at hplaces
            omega
          · rw [if_neg heq] at hplaces
            omega
        refine ⟨?_, ?_, ?_⟩
        · rw [hholds.waitingIn]
          exact hwaiting
        · rw [hholds.stored]
          intro entry hentry hother
          obtain ⟨other, hmem, hid⟩ := hlisted entry hentry hother
          obtain ⟨last, hlast, hsame⟩ := hwaiting other hmem (hid ▸ hother)
          exact ⟨last, hlast, hsame.trans hid⟩
        · rw [hgames]
          exact (createGame_inactive_iff ..).mpr hconnected

/-- A player has two entries and there is no database: the second entry is still there. -/
theorem failed_allocation_leaves_no_trace_twice :
    let s : RemoteMatchmakingService := new
      (InMemoryRuntimeStore.setMatchmakingQueue {} "eu".toList [⟨1, 11, 1000, 0⟩, ⟨1, 11, 1000, 0⟩])
      { connected := false } {} []
    LeavesNoTrace s ⟨2, 12, 1000, "eu".toList⟩
      (s.enterQueue (remoteAllocator [] 3 fun _ _ => none) 1 ⟨2, 12, 1000, "eu".toList⟩).2 := by
  intro s
  have hfailed : (s.enterQueue (remoteAllocator [] 3 fun _ _ => none) 1 ⟨2, 12, 1000, "eu".toList⟩).1 =
      .error .noServers := by
    decide +kernel
  have hpartner : s.partner 1 ⟨2, 12, 1000, "eu".toList⟩ = some ⟨1, 11, 1000, 0⟩ := by decide +kernel
  refine (failed_allocation_leaves_no_trace_iff hfailed).mpr ⟨?_, by decide +kernel, rfl⟩
  intro white hwhite
  rw [hpartner] at hwhite
  cases hwhite
  decide +kernel

/-- The player who has waited is in no queue after the failure, and the game stays active. -/
theorem not_leaves_no_trace_without_servers :
    let s := (new {} {} {} []).run [.enterQueue (remoteAllocator [] 3 fun _ _ => none) 0 ⟨1, 11, 1000, "eu".toList⟩]
    let answer := s.enterQueue (remoteAllocator [] 3 fun _ _ => none) 1 ⟨2, 12, 1050, "eu".toList⟩
    answer.1 = .error .noServers ∧ ¬LeavesNoTrace s ⟨2, 12, 1050, "eu".toList⟩ answer.2 := by
  intro s answer
  refine ⟨by decide +kernel, ?_⟩
  intro hnone
  have hactive : ∃ row ∈ answer.2.games.rows.drop s.games.rows.length, row.active = true := by decide +kernel
  obtain ⟨row, hrow, hactive⟩ := hactive
  rw [hnone.games row hrow] at hactive
  cases hactive

end RemoteMatchmakingService

end KungFuChess
