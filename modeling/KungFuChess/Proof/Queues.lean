import Mathlib.Data.List.Find
import KungFuChess.Lib.Histories
import KungFuChess.Model.Matchmaker
import KungFuChess.Proof.Runs

/-!
# The two matchmaking queues

The monolith keeps sessions in its queue and looks at their ratings when somebody comes; the matchmaker keeps
the ratings with which the players came, and takes an older entry out first. As long as those who wait stay
as they came, and nobody comes who waits, the two queues do the same.
-/

namespace KungFuChess

open Histories

/-- Somebody comes or leaves. What surrounds the queue of the monolith may be different each time. -/
inductive QueueEvent where
  | enter (surroundings : Server) (session : PlayerSession) (userId : UserId) (epochSeconds : Int)
  | remove (surroundings : Server) (playerId : PlayerId)

namespace QueueEvent

/-- `MatchmakingQueue`: what the event pairs, and who waits then. -/
def onSessions (config : ServerConfig) (waiting : List WaitingEntry) :
    QueueEvent → Option (PlayerId × PlayerId) × List WaitingEntry
  | .enter surroundings session _ _ =>
      let (pair, server) := { surroundings with waiting }.enqueue config session
      (pair, server.waiting)
  | .remove surroundings playerId => (none, ({ surroundings with waiting }.removeWaiting playerId).waiting)

/-- `PlayerMatchmakingQueue`, called as `enter_queue` does. -/
def onPlayers (queue : PlayerMatchmakingQueue) (store : InMemoryRuntimeStore) :
    QueueEvent → Option (PlayerId × PlayerId) × PlayerMatchmakingQueue × InMemoryRuntimeStore
  | .enter _ session userId epochSeconds =>
      let incoming : QueuedPlayer := ⟨session.id, userId, session.rating, epochSeconds⟩
      let (queue, store) := queue.remove store session.id
      match queue.tryPair store incoming with
      | (some (white, black), queue, store) => (some (white.playerId, black.playerId), queue, store)
      | (none, queue, store) => (none, queue.enqueue store incoming)
  | .remove _ playerId => (none, queue.remove store playerId)

end QueueEvent

/-- The two queues side by side. -/
structure BothQueues where
  sessions : List WaitingEntry
  players : PlayerMatchmakingQueue
  store : InMemoryRuntimeStore

namespace BothQueues

variable (config : ServerConfig) (both : BothQueues)

def step (event : QueueEvent) : BothQueues where
  sessions := (event.onSessions config both.sessions).2
  players := (event.onPlayers both.players both.store).2.1
  store := (event.onPlayers both.players both.store).2.2

/-- Who comes does not wait and is eligible; and the sessions of those who wait are there, eligible, and have the
ratings with which they came. -/
def Allowed (both : BothQueues) : QueueEvent → Prop
  | .enter surroundings session _ _ =>
      (∀ entry ∈ both.sessions, entry.session ≠ session.id) ∧ Server.isEligible session = true ∧
        ∀ player ∈ both.players.waiting, ∃ waiting, surroundings.findSession player.playerId = some waiting ∧
          Server.isEligible waiting = true ∧ waiting.rating = player.elo
  | .remove _ _ => True

/-- The event makes the same pair in both queues, or in neither. -/
def PairsAlike (both : BothQueues) (event : QueueEvent) : Prop :=
  (event.onSessions config both.sessions).1 = (event.onPlayers both.players both.store).1

/-- The same players wait, in the same order. -/
def WaitsAlike (both : BothQueues) : Prop :=
  both.sessions.map (·.session) = both.players.waiting.map (·.playerId)

/-- The settings are the same and so are those who wait. -/
structure InStep (both : BothQueues) : Prop where
  waits : both.WaitsAlike
  difference : both.players.maxRatingDifference = config.maxRatingDifference

variable {config both}

/-- The queue is searched, and cut, by what the ids of the entries say. -/
theorem search_by_key {α κ : Type} (key : α → κ) (line : List α) {p : α → Bool} {P : κ → Bool}
    (hp : ∀ x ∈ line, p x = P (key x)) :
    (line.find? p).map key = (line.map key).find? P ∧ (line.eraseP p).map key = (line.map key).eraseP P := by
  constructor
  · rw [List.find?_map, List.find?_congr hp]
    rfl
  · rw [List.eraseP_map]
    induction line with
    | nil => rfl
    | cons x line ih =>
        have hx := hp x List.mem_cons_self
        have hrest := ih fun y hy => hp y (List.mem_cons_of_mem _ hy)
        cases hkey : P (key x) with
        | true => rw [List.eraseP_cons_of_pos (hx.trans hkey), List.eraseP_cons_of_pos (by exact hkey)]
        | false =>
            rw [List.eraseP_cons_of_neg (by rw [hx, hkey]; decide), List.eraseP_cons_of_neg (by simp [hkey]),
              List.map_cons, List.map_cons, hrest]

/-- Whether the session under an id may be paired with who comes. -/
def suitsSession (config : ServerConfig) (surroundings : Server) (session : PlayerSession) (id : PlayerId) : Bool :=
  (surroundings.findSession id).any fun waiting =>
    Server.isEligible waiting && Server.areCompatible config session waiting

theorem areCompatible_eq (h : both.InStep config) {surroundings : Server} {session : PlayerSession} {userId : UserId}
    {epochSeconds : Int} (hallowed : both.Allowed (.enter surroundings session userId epochSeconds)) :
    ∀ player ∈ both.players.waiting,
      both.players.areCompatible ⟨session.id, userId, session.rating, epochSeconds⟩ player =
        suitsSession config surroundings session player.playerId := by
  intro player hplayer
  obtain ⟨waiting, hfind, heligible, hrating⟩ := hallowed.2.2 player hplayer
  rw [suitsSession, hfind, Option.any_some, heligible, Bool.true_and, Server.areCompatible, hrating, ← h.difference]
  rfl

theorem remove_eq (h : both.InStep config) {playerId : PlayerId}
    (hout : ∀ entry ∈ both.sessions, entry.session ≠ playerId) :
    both.players.waiting.filter (fun entry => entry.playerId ≠ playerId) = both.players.waiting := by
  rw [List.filter_eq_self]
  intro player hplayer
  have hmem : player.playerId ∈ both.sessions.map (·.session) := by
    rw [h.waits]
    exact List.mem_map_of_mem hplayer
  obtain ⟨entry, hentry, hid⟩ := List.mem_map.mp hmem
  rw [decide_eq_true_eq, ← hid]
  exact hout entry hentry

theorem enqueue_eq (server : Server) {session : PlayerSession} (heligible : Server.isEligible session = true) :
    ((server.enqueue config session).1, (server.enqueue config session).2.waiting) =
      match server.waiting.find? fun entry => suitsSession config server session entry.session with
      | some entry => (some (entry.session, session.id),
          server.waiting.eraseP fun entry => suitsSession config server session entry.session)
      | none => (none, server.waiting ++ [⟨session.id, server.now⟩]) := by
  have hpair : server.canPair config session = fun entry => suitsSession config server session entry.session := rfl
  unfold Server.enqueue
  rw [heligible, hpair, if_neg (by decide)]
  cases server.waiting.find? fun entry => suitsSession config server session entry.session with
  | none => rfl
  | some entry => rfl

/-- The event on the queue of sessions, if who comes is eligible. -/
theorem onSessions_enter (config : ServerConfig) {session : PlayerSession} (heligible : Server.isEligible session = true)
    (waiting : List WaitingEntry) (surroundings : Server) (userId : UserId) (epochSeconds : Int) :
    (QueueEvent.enter surroundings session userId epochSeconds).onSessions config waiting =
      match waiting.find? fun entry => suitsSession config surroundings session entry.session with
      | some entry => (some (entry.session, session.id),
          waiting.eraseP fun entry => suitsSession config surroundings session entry.session)
      | none => (none, waiting ++ [⟨session.id, surroundings.now⟩]) :=
  enqueue_eq { surroundings with waiting } heligible

/-- The event on the queue of players, if who comes does not wait. -/
theorem onPlayers_enter {queue : PlayerMatchmakingQueue} {session : PlayerSession}
    (hout : queue.waiting.filter (fun entry => entry.playerId ≠ session.id) = queue.waiting) (surroundings : Server)
    (store : InMemoryRuntimeStore) (userId : UserId) (epochSeconds : Int) :
    let incoming : QueuedPlayer := ⟨session.id, userId, session.rating, epochSeconds⟩
    let result := (QueueEvent.enter surroundings session userId epochSeconds).onPlayers queue store
    (result.1, result.2.1) =
      match queue.waiting.find? (queue.areCompatible incoming) with
      | some white => (some (white.playerId, session.id),
          { queue with waiting := queue.waiting.eraseP (queue.areCompatible incoming) })
      | none => (none, { queue with waiting := queue.waiting ++ [incoming] }) := by
  intro incoming result
  have hremove : queue.remove store session.id = (queue, queue.persistQueue store) := by
    unfold PlayerMatchmakingQueue.remove
    rw [hout]
  have hresult : result = match queue.tryPair (queue.persistQueue store) incoming with
      | (some (white, black), queue, store) => (some (white.playerId, black.playerId), queue, store)
      | (none, queue, store) => (none, queue.enqueue store incoming) := by
    simp only [result, incoming, QueueEvent.onPlayers, hremove]
  rw [hresult]
  unfold PlayerMatchmakingQueue.tryPair
  cases queue.waiting.find? (queue.areCompatible incoming) with
  | none => rfl
  | some white => rfl

theorem inStep_enter (h : both.InStep config) {surroundings : Server} {session : PlayerSession} {userId : UserId}
    {epochSeconds : Int} (hallowed : both.Allowed (.enter surroundings session userId epochSeconds)) :
    PairsAlike config both (.enter surroundings session userId epochSeconds) ∧
      (step config both (.enter surroundings session userId epochSeconds)).InStep config := by
  have hlocal := onSessions_enter config hallowed.2.1 both.sessions surroundings userId epochSeconds
  have hremote := onPlayers_enter (remove_eq h hallowed.1) surroundings both.store userId epochSeconds
  obtain ⟨hfound, hcut⟩ := search_by_key WaitingEntry.session both.sessions
    (p := fun entry => suitsSession config surroundings session entry.session)
    (P := suitsSession config surroundings session) fun _ _ => rfl
  obtain ⟨hfound', hcut'⟩ := search_by_key QueuedPlayer.playerId both.players.waiting (areCompatible_eq h hallowed)
  have hids : both.sessions.map WaitingEntry.session = both.players.waiting.map QueuedPlayer.playerId := h.waits
  rw [hids, ← hfound'] at hfound
  rw [hids, ← hcut'] at hcut
  unfold PairsAlike
  obtain ⟨pair, queue, store, hplayers⟩ : ∃ pair queue store,
      (QueueEvent.enter surroundings session userId epochSeconds).onPlayers both.players both.store =
        (pair, queue, store) := ⟨_, _, _, rfl⟩
  have hstep : step config both (.enter surroundings session userId epochSeconds) =
      ⟨((QueueEvent.enter surroundings session userId epochSeconds).onSessions config both.sessions).2, queue, store⟩ := by
    unfold step
    rw [hplayers]
  rw [hstep]
  rw [hplayers] at hremote ⊢
  rw [hlocal]
  dsimp only at hremote
  cases hsessions : both.sessions.find? fun entry => suitsSession config surroundings session entry.session with
  | none =>
      rw [hsessions, Option.map_none, eq_comm, Option.map_eq_none_iff] at hfound
      rw [hfound] at hremote
      obtain ⟨rfl, rfl⟩ := Prod.mk.inj hremote
      refine ⟨rfl, ?_, h.difference⟩
      unfold WaitsAlike
      dsimp only
      rw [List.map_append, List.map_append]
      exact congrArg (· ++ [session.id]) hids
  | some entry =>
      rw [hsessions, Option.map_some, eq_comm, Option.map_eq_some_iff] at hfound
      obtain ⟨white, hwhite, hid⟩ := hfound
      rw [hwhite] at hremote
      obtain ⟨rfl, rfl⟩ := Prod.mk.inj hremote
      refine ⟨?_, hcut, h.difference⟩
      rw [hid]

theorem inStep_remove (h : both.InStep config) (surroundings : Server) (playerId : PlayerId) :
    (step config both (.remove surroundings playerId)).InStep config := by
  refine ⟨?_, h.difference⟩
  have hids : both.sessions.map WaitingEntry.session = both.players.waiting.map QueuedPlayer.playerId := h.waits
  have hfilter := congrArg (List.filter fun id => decide (id ≠ playerId)) hids
  rw [List.filter_map, List.filter_map] at hfilter
  exact hfilter

theorem inStep_step (h : both.InStep config) {event : QueueEvent} (hallowed : both.Allowed event) :
    PairsAlike config both event ∧ (step config both event).InStep config := by
  cases event with
  | enter surroundings session userId epochSeconds => exact inStep_enter h hallowed
  | remove surroundings playerId => exact ⟨rfl, inStep_remove h surroundings playerId⟩

/-- From empty queues with the same rating difference, every event makes the same pair in both, and the same players
wait in the same order all along. -/
theorem queues_pair_alike (config : ServerConfig) (settings : MatchmakingConfig)
    (hdifference : settings.maxRatingDifference = config.maxRatingDifference) (region : Text)
    (events : List QueueEvent)
    (hevents : EachStep (step config) Allowed ⟨[], .new {} region settings, {}⟩ events) :
    EachStep (step config) (PairsAlike config) ⟨[], .new {} region settings, {}⟩ events ∧
      Throughout (step config) WaitsAlike ⟨[], .new {} region settings, {}⟩ events := by
  have hstart : InStep config ⟨[], .new {} region settings, {}⟩ := ⟨rfl, hdifference⟩
  have hinStep : Throughout (step config) (InStep config) ⟨[], .new {} region settings, {}⟩ events :=
    Throughout.of_step hstart (fun _ _ hallowed h => (inStep_step h hallowed).2) hevents
  refine ⟨?_, fun before hbefore => (hinStep before hbefore).waits⟩
  intro before event hbefore
  exact (inStep_step (hinStep before (prefix_of_concat hbefore)) (hevents before event hbefore)).1

/-- Two players a hundred apart come one after the other, and are a pair in both queues. -/
theorem queues_pair_alike_second :
    let ann : PlayerSession := { id := 0, state := .searching, user := some ⟨1, ⟨1, "ann".toList, 1000⟩⟩ }
    let bob : PlayerSession := { id := 1, state := .searching, user := some ⟨2, ⟨2, "bob".toList, 1100⟩⟩ }
    let surroundings : Server := { sessions := [ann, bob] }
    let both : BothQueues := ⟨[], .new {} "eu".toList {}, {}⟩
    let first : QueueEvent := .enter surroundings ann 1 0
    let second : QueueEvent := .enter surroundings bob 2 5
    (second.onSessions sampleConfig (both.step sampleConfig first).sessions).1 = some (0, 1) ∧
      PairsAlike sampleConfig (both.step sampleConfig first) second := by
  intro ann bob surroundings both first second
  have hallowed : EachStep (step sampleConfig) Allowed both [first, second] := by
    rw [eachStep_cons, eachStep_cons]
    have hnobody : ∀ entry ∈ both.sessions, entry.session ≠ ann.id := by decide +kernel
    have hnone : ∀ player ∈ both.players.waiting, False := by decide +kernel
    have hann : (both.step sampleConfig first).players.waiting = [⟨0, 1, 1000, 0⟩] := by decide +kernel
    have hother : ∀ entry ∈ (both.step sampleConfig first).sessions, entry.session ≠ bob.id := by decide +kernel
    refine ⟨⟨hnobody, rfl, fun player hplayer => (hnone player hplayer).elim⟩, ⟨hother, rfl, ?_⟩, EachStep.nil _ _ _⟩
    intro player hplayer
    rw [hann, List.mem_singleton] at hplayer
    subst hplayer
    exact ⟨ann, rfl, rfl, rfl⟩
  refine ⟨by decide +kernel, ?_⟩
  exact (queues_pair_alike sampleConfig {} rfl "eu".toList [first, second] hallowed).1 [first] second
    (List.prefix_refl _)

end BothQueues

end KungFuChess
