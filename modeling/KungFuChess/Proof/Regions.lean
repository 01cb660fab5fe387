import KungFuChess.Lib.Histories
import KungFuChess.Proof.Matchmaker

/-!
# Players in the queues

A queue knows its players by their player ids, which a gateway gives to its sessions, and the service finds a
queue by the region it is asked for. So a user who comes back under another player id can meet an entry of its
own, and a player who asks for two regions, or leaves by the empty name what it entered by it, stays behind.
-/

namespace KungFuChess

open WaitingLine Histories

namespace RemoteMatchmakingService

variable {s t : RemoteMatchmakingService} {region other : Text} {now : Int} {request : MatchRequest}
  {allocateGame : Allocator} {playerId : PlayerId}

/-! ### The other queues -/

@[simp] theorem list_setMatchmakingQueue_of_ne (store : InMemoryRuntimeStore) (queue : List QueuedPlayer)
    (hne : other ≠ region) :
    (store.setMatchmakingQueue region queue).listMatchmakingQueue other = store.listMatchmakingQueue other := by
  simp [InMemoryRuntimeStore.setMatchmakingQueue, InMemoryRuntimeStore.listMatchmakingQueue, hne]

theorem loaded_queueFor_of_ne (s : RemoteMatchmakingService) (hne : other ≠ region) :
    (s.queueFor region).2.loaded other = s.loaded other := by
  unfold queueFor
  split
  · rfl
  · cases s.regionQueues.find? region with
    | none => simp [loaded, hne]
    | some waiting => rfl

theorem loaded_putQueue_of_ne (s : RemoteMatchmakingService) (queue : PlayerMatchmakingQueue) (hne : other ≠ region) :
    (s.putQueue region queue).loaded other = s.loaded other := by
  unfold putQueue
  split
  · rename_i hregion
    unfold loaded
    rw [if_neg (hregion ▸ hne), if_neg (hregion ▸ hne)]
  · simp [loaded, hne]

/-- A call on the queue of one region leaves the queues of the others as they are. -/
theorem waitingIn_onQueue_of_ne {α : Type}
    {f : PlayerMatchmakingQueue → InMemoryRuntimeStore → α × PlayerMatchmakingQueue × InMemoryRuntimeStore}
    (hne : other ≠ region) (hf : ∀ queue store, queue.region = region →
      (f queue store).2.2.listMatchmakingQueue other = store.listMatchmakingQueue other) :
    (s.onQueue region f).2.waitingIn other = s.waitingIn other := by
  obtain ⟨regionQueues, hqueueFor⟩ := queueFor_snd s region
  have hregion : (s.queueFor region).1.region = region := by
    rw [queueFor_fst]
    rfl
  have hloaded := loaded_putQueue_of_ne (s.queueFor region).2 (f (s.queueFor region).1 (s.queueFor region).2.store).2.1 hne
  rw [loaded_queueFor_of_ne s hne] at hloaded
  have hstore := hf (s.queueFor region).1 (s.queueFor region).2.store hregion
  have hsame : (s.queueFor region).2.store = s.store := by rw [hqueueFor]
  rw [waitingIn_eq, waitingIn_eq, ← hsame, ← hstore, ← hloaded]
  rfl

theorem waitingIn_remove_of_ne (hne : other ≠ region) :
    (s.onQueue region fun queue store => ((), queue.remove store playerId)).2.waitingIn other = s.waitingIn other := by
  refine waitingIn_onQueue_of_ne hne fun queue store hregion => ?_
  subst hregion
  exact list_setMatchmakingQueue_of_ne store _ hne

theorem waitingIn_leaveQueue_of_ne (hne : other ≠ region) :
    (s.leaveQueue playerId region).waitingIn other = s.waitingIn other := waitingIn_remove_of_ne hne

theorem waitingIn_tryPair_of_ne (hne : other ≠ region) (incoming : QueuedPlayer) :
    (s.onQueue region fun queue store => queue.tryPair store incoming).2.waitingIn other = s.waitingIn other := by
  refine waitingIn_onQueue_of_ne hne fun queue store hregion => ?_
  subst hregion
  unfold PlayerMatchmakingQueue.tryPair
  split
  · exact list_setMatchmakingQueue_of_ne store _ hne
  · rfl

theorem waitingIn_enqueue_of_ne (hne : other ≠ region) (player : QueuedPlayer) :
    (s.onQueue region fun queue store => ((), queue.enqueue store player)).2.waitingIn other = s.waitingIn other := by
  refine waitingIn_onQueue_of_ne hne fun queue store hregion => ?_
  subst hregion
  exact list_setMatchmakingQueue_of_ne store _ hne

theorem waitingIn_finalizeMatch (s : RemoteMatchmakingService) (white black : QueuedPlayer) (region : Text) :
    (s.finalizeMatch allocateGame white black).2.waitingIn region = s.waitingIn region := by
  rw [waitingIn_eq, waitingIn_eq]
  unfold finalizeMatch
  dsimp only
  split
  · rfl
  · rfl

/-- What a request hands to `finalize_match`, white first, and the service by then. -/
def pairUp (s : RemoteMatchmakingService) (now : Int) (request : MatchRequest) :
    Option (QueuedPlayer × QueuedPlayer) × RemoteMatchmakingService :=
  (s.onQueue request.queueRegion fun queue store => ((), queue.remove store request.playerId)).2.onQueue
    request.queueRegion fun queue store => queue.tryPair store (request.entry now)

/-- A request does nothing else than this before `finalize_match` or `enqueue` is called. -/
theorem enterQueue_eq (s : RemoteMatchmakingService) (allocateGame : Allocator) (now : Int) (request : MatchRequest) :
    s.enterQueue allocateGame now request =
      match s.pairUp now request with
      | (some (white, black), paired) =>
          match paired.finalizeMatch allocateGame white black with
          | (.error failure, finalized) => (.error failure, finalized)
          | (.ok (), finalized) => (.ok ⟨.queued, "matched".toList⟩, finalized)
      | (none, unpaired) => (.ok ⟨.queued, "queued".toList⟩,
          (unpaired.onQueue request.queueRegion fun queue store => ((), queue.enqueue store (request.entry now))).2) := by
  obtain ⟨t, hremove⟩ : ∃ t, s.onQueue request.queueRegion
      (fun queue store => ((), queue.remove store request.playerId)) = ((), t) := ⟨_, rfl⟩
  unfold enterQueue pairUp
  dsimp only
  rw [show (if request.region.isEmpty then defaultRegion else request.region) = request.queueRegion from rfl,
    show QueuedPlayer.mk request.playerId request.userId request.elo now = request.entry now from rfl, hremove]
  dsimp only
  rcases t.onQueue request.queueRegion fun queue store => queue.tryPair store (request.entry now) with
    ⟨_ | ⟨white, black⟩, paired⟩
  · rfl
  · rfl

theorem waitingIn_enterQueue_of_ne (hne : other ≠ request.queueRegion) :
    (s.enterQueue allocateGame now request).2.waitingIn other = s.waitingIn other := by
  have hpaired : (s.pairUp now request).2.waitingIn other = s.waitingIn other :=
    (waitingIn_tryPair_of_ne hne _).trans (waitingIn_remove_of_ne hne)
  rw [enterQueue_eq, ← hpaired]
  rcases s.pairUp now request with ⟨_ | ⟨white, black⟩, paired⟩
  · exact waitingIn_enqueue_of_ne hne _
  · have hfinalized : (paired.finalizeMatch allocateGame white black).2.waitingIn other = _ :=
      waitingIn_finalizeMatch paired white black other
    dsimp only
    rcases hanswer : paired.finalizeMatch allocateGame white black with ⟨failure | answer, finalized⟩
    · rw [hanswer] at hfinalized
      exact hfinalized
    · rw [hanswer] at hfinalized
      exact hfinalized

theorem waitingIn_notify (s : RemoteMatchmakingService) (playerIds : List PlayerId) (region : Text) :
    (playerIds.foldl (fun service playerId => service.notify (.searchTimeout playerId)) s).waitingIn region =
      s.waitingIn region := by
  rw [foldl_notify, waitingIn_eq, waitingIn_eq]
  rfl

theorem waitingIn_processQueue_of_ne (hne : other ≠ region) :
    (s.processQueue now region).waitingIn other = s.waitingIn other := by
  unfold processQueue
  dsimp only
  rw [waitingIn_notify]
  refine waitingIn_onQueue_of_ne hne fun queue store hregion => ?_
  subst hregion
  unfold PlayerMatchmakingQueue.checkTimeouts
  dsimp only
  split
  · rfl
  · exact list_setMatchmakingQueue_of_ne store _ hne

theorem waitingIn_processQueue (s : RemoteMatchmakingService) (now : Int) (region : Text) :
    (s.processQueue now region).waitingIn region =
      (s.waitingIn region).filter fun entry => !s.config.isTimedOut now entry := by
  obtain ⟨t, hcheck, ht⟩ := checkTimeouts_updated s now region
  unfold processQueue
  rw [hcheck]
  dsimp only
  rw [waitingIn_notify, ht.waitingIn]

/-! ### Who waits where -/

/-- The player waits in the queue of the region. -/
def Waits (s : RemoteMatchmakingService) (playerId : PlayerId) (region : Text) : Prop :=
  ∃ entry ∈ s.waitingIn region, entry.playerId = playerId

/-- Somebody else waits there who suits the request. -/
def HasPartner (s : RemoteMatchmakingService) (now : Int) (request : MatchRequest) : Prop :=
  ∃ entry ∈ s.waitingIn request.queueRegion,
    entry.playerId ≠ request.playerId ∧ s.config.suits (request.entry now) entry = true

theorem hasPartner_iff (s : RemoteMatchmakingService) (now : Int) (request : MatchRequest) :
    s.HasPartner now request ↔ s.partner now request ≠ none := by
  rw [partner, ne_eq, List.find?_eq_none]
  simp only [HasPartner, others, mem_leave]
  push Not
  constructor
  · intro h
    obtain ⟨entry, hentry, hother, hsuits⟩ := h
    exact ⟨entry, ⟨hentry, hother⟩, hsuits⟩
  · intro h
    obtain ⟨entry, ⟨hentry, hother⟩, hsuits⟩ := h
    exact ⟨entry, hentry, hother, hsuits⟩

theorem waits_leaveQueue (s : RemoteMatchmakingService) (playerId leaving : PlayerId) (region other : Text) :
    (s.leaveQueue leaving region).Waits playerId other ↔
      s.Waits playerId other ∧ ¬(playerId = leaving ∧ other = region) := by
  unfold Waits
  by_cases hother : other = region
  · subst hother
    rw [(leaveQueue_holds s leaving other).1.waitingIn]
    simp only [mem_leave, and_true]
    constructor
    · intro h
      obtain ⟨entry, ⟨hentry, hstays⟩, rfl⟩ := h
      exact ⟨⟨entry, hentry, rfl⟩, hstays⟩
    · intro h
      obtain ⟨⟨entry, hentry, rfl⟩, hstays⟩ := h
      exact ⟨entry, ⟨hentry, hstays⟩, rfl⟩
  · rw [waitingIn_leaveQueue_of_ne hother]
    simp [hother]

theorem waits_processQueue (h : (s.processQueue now region).Waits playerId other) : s.Waits playerId other := by
  obtain ⟨entry, hentry, hplayer⟩ := h
  by_cases hother : other = region
  · subst hother
    rw [waitingIn_processQueue] at hentry
    exact ⟨entry, (List.mem_filter.mp hentry).1, hplayer⟩
  · rw [waitingIn_processQueue_of_ne hother] at hentry
    exact ⟨entry, hentry, hplayer⟩

/-- Who makes a request waits in its queue afterwards, unless there is a partner. -/
theorem waits_enterQueue_self (s : RemoteMatchmakingService) (allocateGame : Allocator) (now : Int)
    (request : MatchRequest) :
    (s.enterQueue allocateGame now request).2.Waits request.playerId request.queueRegion ↔
      ¬s.HasPartner now request := by
  have hentered := enterQueue_entered s allocateGame now request
  obtain ⟨result, t, ht⟩ : ∃ result t, s.enterQueue allocateGame now request = (result, t) := ⟨_, _, rfl⟩
  have hgone : ¬∃ entry ∈ s.withoutPartner now request, entry.playerId = request.playerId := by
    intro h
    obtain ⟨entry, hentry, hplayer⟩ := h
    exact (mem_leave.mp (List.mem_of_mem_eraseP hentry)).2 hplayer
  rw [ht] at hentered ⊢
  rw [hasPartner_iff, ne_eq, not_not]
  unfold Waits
  cases hentered with
  | queued halone hholds _ _ =>
      rw [hholds.waitingIn]
      exact iff_of_true ⟨request.entry now, List.mem_append_right _ (List.mem_singleton.mpr rfl), rfl⟩ halone
  | failed hfound hholds _ _ _ =>
      rw [hholds.waitingIn, hfound]
      exact iff_of_false hgone (Option.some_ne_none _)
  | matched hfound hholds _ =>
      rw [hholds.waitingIn, hfound]
      exact iff_of_false hgone (Option.some_ne_none _)

/-- Nobody else comes to wait by it. -/
theorem waits_enterQueue_of_ne (hne : playerId ≠ request.playerId)
    (h : (s.enterQueue allocateGame now request).2.Waits playerId region) : s.Waits playerId region := by
  by_cases hregion : region = request.queueRegion
  · have hentered := enterQueue_entered s allocateGame now request
    obtain ⟨result, t, ht⟩ : ∃ result t, s.enterQueue allocateGame now request = (result, t) := ⟨_, _, rfl⟩
    rw [ht] at hentered h
    obtain ⟨entry, hentry, rfl⟩ := h
    rw [hregion] at hentry ⊢
    have hwaiting : entry ∈ s.others request → s.Waits entry.playerId request.queueRegion :=
      fun hmem => ⟨entry, (mem_leave.mp hmem).1, rfl⟩
    cases hentered with
    | queued _ hholds _ _ =>
        rw [hholds.waitingIn, List.mem_append, List.mem_singleton] at hentry
        rcases hentry with hentry | rfl
        · exact hwaiting hentry
        · exact absurd rfl hne
    | failed _ hholds _ _ _ =>
        rw [hholds.waitingIn] at hentry
        exact hwaiting (List.mem_of_mem_eraseP hentry)
    | matched _ hholds _ =>
        rw [hholds.waitingIn] at hentry
        exact hwaiting (List.mem_of_mem_eraseP hentry)
  · obtain ⟨entry, hentry, hplayer⟩ := h
    rw [waitingIn_enterQueue_of_ne hregion] at hentry
    exact ⟨entry, hentry, hplayer⟩

instance (s : RemoteMatchmakingService) (playerId : PlayerId) (region : Text) : Decidable (s.Waits playerId region) :=
  inferInstanceAs (Decidable (∃ entry ∈ s.waitingIn region, entry.playerId = playerId))

/-! ### Entering and leaving -/

/-- The player waits in no queue after entering and leaving under one region name. -/
def Leaves (s : RemoteMatchmakingService) (allocateGame : Allocator) (now : Int) (request : MatchRequest) : Prop :=
  ∀ region, ¬((s.enterQueue allocateGame now request).2.leaveQueue request.playerId request.region).Waits
    request.playerId region

/-- The player waits in one region at most. -/
def InOneRegion (playerId : PlayerId) (s : RemoteMatchmakingService) : Prop :=
  ∀ region other, s.Waits playerId region → s.Waits playerId other → region = other

/-- A request of the player finds a partner, or finds the player in no queue but its own. -/
def EntersOne (playerId : PlayerId) (s : RemoteMatchmakingService) : QueueCall → Prop
  | .enterQueue _ now request => request.playerId = playerId →
      s.HasPartner now request ∨ ∀ region, region ≠ request.queueRegion → ¬s.Waits playerId region
  | .leaveQueue _ _ | .processQueue _ _ => True

theorem waits_enterQueue_elsewhere (hne : region ≠ request.queueRegion) :
    (s.enterQueue allocateGame now request).2.Waits playerId region ↔ s.Waits playerId region := by
  unfold Waits
  rw [waitingIn_enterQueue_of_ne hne]

theorem leaves_iff (s : RemoteMatchmakingService) (allocateGame : Allocator) (now : Int) (request : MatchRequest) :
    s.Leaves allocateGame now request ↔
      (request.region = [] → s.HasPartner now request) ∧
      ∀ region, region ≠ request.queueRegion → region ≠ request.region → ¬s.Waits request.playerId region := by
  unfold Leaves
  simp only [waits_leaveQueue, true_and, not_and, not_not]
  constructor
  · intro hleaves
    refine ⟨?_, ?_⟩
    · intro hempty
      by_contra halone
      -- what is entered by the empty name is the default queue
      have hregion : request.queueRegion = request.region :=
        hleaves request.queueRegion ((waits_enterQueue_self s allocateGame now request).mpr halone)
      rw [MatchRequest.queueRegion, hempty] at hregion
      exact absurd hregion (by decide)
    · intro region hqueue hregion hwaits
      exact hregion (hleaves region ((waits_enterQueue_elsewhere hqueue).mpr hwaits))
  · intro h
    obtain ⟨hpartner, hnowhere⟩ := h
    intro region hwaits
    by_cases hqueue : region = request.queueRegion
    · subst hqueue
      have hnamed : request.region ≠ [] := fun hempty =>
        (waits_enterQueue_self s allocateGame now request).mp hwaits (hpartner hempty)
      rw [MatchRequest.queueRegion, if_neg (by simpa using hnamed)]
    · by_contra hregion
      exact hnowhere region hqueue hregion ((waits_enterQueue_elsewhere hqueue).mp hwaits)

theorem InOneRegion.mono (h : s.InOneRegion playerId) (hsub : ∀ region, t.Waits playerId region → s.Waits playerId region) :
    t.InOneRegion playerId :=
  fun region other hregion hother => h region other (hsub region hregion) (hsub other hother)

theorem inOneRegion_enterQueue_iff (h : s.InOneRegion request.playerId) :
    (s.enterQueue allocateGame now request).2.InOneRegion request.playerId ↔
      s.HasPartner now request ∨ ∀ region, region ≠ request.queueRegion → ¬s.Waits request.playerId region := by
  have hself := waits_enterQueue_self s allocateGame now request
  constructor
  · intro hone
    rw [or_iff_not_imp_left]
    intro halone region hregion hwaits
    exact hregion (hone _ _ ((waits_enterQueue_elsewhere hregion).mpr hwaits) (hself.mpr halone))
  · intro h
    rcases h with hpartner | hnowhere
    · refine h.mono fun region hwaits => ?_
      have hregion : region ≠ request.queueRegion := by
        intro h
        obtain rfl := h
        exact hself.mp hwaits hpartner
      exact (waits_enterQueue_elsewhere hregion).mp hwaits
    · have hthere : ∀ region, (s.enterQueue allocateGame now request).2.Waits request.playerId region →
          region = request.queueRegion := by
        intro region hwaits
        by_contra hregion
        exact hnowhere region hregion ((waits_enterQueue_elsewhere hregion).mp hwaits)
      exact fun region other hregion hother => (hthere region hregion).trans (hthere other hother).symm

theorem inOneRegion_handle_iff (h : s.InOneRegion playerId) (call : QueueCall) :
    (s.handle call).InOneRegion playerId ↔ EntersOne playerId s call := by
  cases call with
  | enterQueue allocateGame now request =>
      by_cases hplayer : request.playerId = playerId
      · subst hplayer
        rw [EntersOne, forall_prop_of_true rfl]
        exact inOneRegion_enterQueue_iff h
      · refine iff_of_true ?_ fun heq => absurd heq hplayer
        exact h.mono fun region => waits_enterQueue_of_ne (Ne.symm hplayer)
  | leaveQueue leaving region =>
      refine iff_of_true ?_ trivial
      exact h.mono fun other hwaits => ((waits_leaveQueue s playerId leaving region other).mp hwaits).1
  | processQueue now region =>
      refine iff_of_true ?_ trivial
      exact h.mono fun other => waits_processQueue

/-- Leaving undoes entering if and only if the player waited in no third queue and, where the region has no name,
is paired at once. A player waits in one region at most, all along a run, if and only if every request of it finds
a partner or finds it in no other queue. -/
theorem enter_and_leave_agree_iff (s : RemoteMatchmakingService) :
    (∀ allocateGame now request, s.Leaves allocateGame now request ↔
      (request.region = [] → s.HasPartner now request) ∧
      ∀ region, region ≠ request.queueRegion → region ≠ request.region → ¬s.Waits request.playerId region) ∧
    ∀ playerId calls, s.InOneRegion playerId →
      (Throughout handle (InOneRegion playerId) s calls ↔ EachStep handle (EntersOne playerId) s calls) :=
  ⟨leaves_iff s, fun _ _ hstart => throughout_iff hstart fun _ call h => inOneRegion_handle_iff h call⟩

theorem not_waits_new (games : GameRepository) (config : MatchmakingConfig) (gatewayServerId : Text)
    (playerId : PlayerId) (region : Text) : ¬(new {} games config gatewayServerId).Waits playerId region := by
  intro h
  obtain ⟨entry, hentry, _⟩ := h
  rw [waitingIn_eq] at hentry
  unfold loaded at hentry
  split at hentry
  · cases hentry
  · cases hentry

/-- A player enters the queue of one region and leaves it, and then enters that of another. -/
theorem enter_and_leave_agree_in_turn :
    let allocateGame := remoteAllocator [] 3 fun _ _ => none
    let s : RemoteMatchmakingService := new {} {} {} []
    s.Leaves allocateGame 0 ⟨1, 11, 1000, "eu".toList⟩ ∧
      Throughout handle (InOneRegion 1) s [.enterQueue allocateGame 0 ⟨1, 11, 1000, "eu".toList⟩,
        .leaveQueue 1 "eu".toList, .enterQueue allocateGame 1 ⟨1, 11, 1000, "us".toList⟩] := by
  intro allocateGame s
  have hnobody := not_waits_new {} {} [] 1
  refine ⟨((enter_and_leave_agree_iff s).1 allocateGame 0 _).mpr ⟨fun h => absurd h (by decide), ?_⟩, ?_⟩
  · exact fun region _ _ => hnobody region
  · refine ((enter_and_leave_agree_iff s).2 1 _ fun region _ h => absurd h (hnobody region)).mpr ?_
    rw [eachStep_cons, eachStep_cons, eachStep_cons]
    refine ⟨fun _ => .inr fun region _ => hnobody region, trivial, fun _ => .inr ?_, EachStep.nil _ _ _⟩
    intro region _ hwaits
    obtain ⟨hwaits, hother⟩ := (waits_leaveQueue _ _ _ _ _).mp hwaits
    exact hnobody region ((waits_enterQueue_elsewhere fun heq => hother ⟨rfl, heq⟩).mp hwaits)

/-- Entered and left without a region name, the player still waits; and a player who enters two queues waits in
both. -/
theorem not_enter_and_leave_agree :
    let allocateGame := remoteAllocator [] 3 fun _ _ => none
    let s : RemoteMatchmakingService := new {} {} {} []
    ¬s.Leaves allocateGame 0 ⟨1, 11, 1000, []⟩ ∧
      ¬(s.run [.enterQueue allocateGame 0 ⟨1, 11, 1000, "eu".toList⟩,
        .enterQueue allocateGame 1 ⟨1, 11, 1000, "us".toList⟩]).InOneRegion 1 := by
  intro allocateGame s
  refine ⟨fun h => h defaultRegion (by decide +kernel), fun h => ?_⟩
  exact absurd (h "eu".toList "us".toList (by decide +kernel) (by decide +kernel)) (by decide)

/-! ### The users of a pair -/

/-- The two users of whatever is handed to `finalize_match` are different. -/
def PairsOthers (s : RemoteMatchmakingService) : ServiceEvent → Prop
  | .call (.enterQueue _ now request) =>
      ∀ white black, (s.pairUp now request).1 = some (white, black) → white.userId ≠ black.userId
  | .call (.leaveQueue _ _) | .call (.processQueue _ _) | .restart => True

/-- Where the user of a request waits under another player id and suits it, somebody else who suits it waits
before. -/
def MeetsOthers (s : RemoteMatchmakingService) : ServiceEvent → Prop
  | .call (.enterQueue _ now request) =>
      ∀ before own after, s.others request = before ++ own :: after →
        s.config.suits (request.entry now) own = true → own.userId = request.userId →
        ∃ other ∈ before, s.config.suits (request.entry now) other = true ∧ other.userId ≠ request.userId
  | .call (.leaveQueue _ _) | .call (.processQueue _ _) | .restart => True

/-- The first who suits is white, and who makes the request is black. -/
theorem pairUp_fst (s : RemoteMatchmakingService) (now : Int) (request : MatchRequest) :
    (s.pairUp now request).1 = (s.partner now request).map fun white => (white, request.entry now) := by
  obtain ⟨t, hremove, ht⟩ := remove_updated s request.queueRegion request.playerId
  obtain ⟨hfound, halone⟩ := tryPair_updated t request.queueRegion (request.entry now)
  rw [ht.waitingIn, ht.config] at hfound halone
  unfold pairUp
  rw [hremove]
  cases hpartner : s.partner now request with
  | none =>
      obtain ⟨u, hpair, _⟩ := halone hpartner
      rw [hpair]
      rfl
  | some white =>
      obtain ⟨u, hpair, _⟩ := hfound white hpartner
      rw [hpair]
      rfl

theorem pairsOthers_iff (s : RemoteMatchmakingService) (event : ServiceEvent) :
    s.PairsOthers event ↔ s.MeetsOthers event := by
  rcases event with ⟨allocateGame, now, request⟩ | ⟨leaving, region⟩ | ⟨now, region⟩ | _
  · have hfirst := first_iff (s.others request) (p := s.config.suits (request.entry now))
      (q := fun white => white.userId ≠ request.userId)
    simp only [not_not] at hfirst
    refine Iff.trans ?_ hfirst
    simp only [PairsOthers, pairUp_fst, Option.map_eq_some_iff, Prod.mk.injEq]
    constructor
    · intro hpair white hwhite
      exact hpair white (request.entry now) ⟨white, hwhite, rfl, rfl⟩
    · intro hothers white black h
      obtain ⟨_, hwhite, rfl, rfl⟩ := h
      exact hothers _ hwhite
  · exact Iff.rfl
  · exact Iff.rfl
  · exact Iff.rfl

/-- In every run, restarts included, nobody is ever paired with itself if and only if every request that could meet
an entry of its own user meets somebody else before. -/
theorem pairs_others_iff (s : RemoteMatchmakingService) (events : List ServiceEvent) :
    EachStep happen PairsOthers s events ↔ EachStep happen MeetsOthers s events :=
  EachStep.congr pairsOthers_iff

/-- A user who comes back under another player id, after a restart, meets the entry that it has left behind. -/
theorem not_pairs_others_after_restart :
    let allocateGame := remoteAllocator [] 3 fun _ _ => none
    ¬EachStep happen PairsOthers (new {} {} {} []) [.call (.enterQueue allocateGame 0 ⟨1, 7, 1000, "eu".toList⟩),
      .restart, .call (.enterQueue allocateGame 5 ⟨2, 7, 1000, "eu".toList⟩)] := by
  intro allocateGame h
  rw [eachStep_cons, eachStep_cons, eachStep_cons] at h
  exact h.2.2.1 ⟨1, 7, 1000, 0⟩ ⟨2, 7, 1000, 5⟩ (by decide +kernel) rfl

end RemoteMatchmakingService

end KungFuChess
