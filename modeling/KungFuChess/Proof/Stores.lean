import KungFuChess.Lib.Histories
import KungFuChess.Model.Redis
import KungFuChess.Proof.Snapshot

/-!
# The two runtime stores agree

What the Redis store writes under a key, its reader gets back; and the four families of keys do not meet. So
the texts under the keys stand for the maps that the in-memory store keeps, call after call.
-/

namespace KungFuChess

open Histories

/-! ### Numbers -/

theorem decimal_ne_nil (n : Nat) : decimal n ≠ [] := Nat.toDigits_ne_nil

theorem takeWhile_isDigit_decimal (n : Nat) : (decimal n).takeWhile Char.isDigit = decimal n :=
  List.takeWhile_eq_self_iff.mpr fun _ hc => isDigit_of_mem_decimal hc

theorem ofDigitChars_decimal (n : Nat) : Nat.ofDigitChars 10 (decimal n) 0 = n := Nat.ofDigitChars_ten_toDigits

theorem decimal_injective : Function.Injective decimal :=
  Function.LeftInverse.injective (g := fun text => Nat.ofDigitChars 10 text 0) ofDigitChars_decimal

theorem readNumber_digits {digits : Text} (hne : digits ≠ []) (hdigits : ∀ c ∈ digits, c.isDigit = true) :
    readNumber digits = some (false, Nat.ofDigitChars 10 digits 0) := by
  have htake : digits.takeWhile Char.isDigit = digits := List.takeWhile_eq_self_iff.mpr hdigits
  obtain ⟨c, rest, rfl⟩ := List.exists_cons_of_ne_nil hne
  have hc : c.isDigit = true := hdigits c List.mem_cons_self
  unfold readNumber
  dsimp only
  rw [List.dropWhile_cons_of_neg (by rw [isSpace_of_isDigit hc]; decide)]
  split
  · rename_i hminus
    cases hminus
    cases hc
  · rename_i hplus
    cases hplus
    cases hc
  · dsimp only
    rw [htake, if_neg (by simp)]

theorem readNumber_decimal (n : Nat) : readNumber (decimal n) = some (false, n) := by
  rw [readNumber_digits (decimal_ne_nil n) fun _ hc => isDigit_of_mem_decimal hc, ofDigitChars_decimal]

theorem readNumber_minus (n : Nat) : readNumber ('-' :: decimal n) = some (true, n) := by
  have hread : readNumber ('-' :: decimal n) =
      if ((decimal n).takeWhile Char.isDigit).isEmpty then none
      else some (true, Nat.ofDigitChars 10 ((decimal n).takeWhile Char.isDigit) 0) := rfl
  rw [hread, takeWhile_isDigit_decimal, if_neg (by simpa using decimal_ne_nil n), ofDigitChars_decimal]

theorem stoull_decimal {n : Nat} (hfits : n < 2 ^ 64) : stoull (decimal n) = some n := by
  unfold stoull
  rw [readNumber_decimal]
  dsimp only
  rw [if_neg (by omega)]
  rfl

theorem readSigned_signedDecimal {w : Nat} {i : Int} (hfits : -2 ^ (w - 1) ≤ i ∧ i < 2 ^ (w - 1)) :
    readSigned w (signedDecimal i) = some i := by
  unfold readSigned signedDecimal
  by_cases hneg : i < 0
  · have hvalue : -(i.natAbs : Int) = i := by omega
    rw [if_pos hneg, readNumber_minus]
    dsimp only
    rw [if_pos (rfl : true = true), hvalue, if_pos hfits]
  · have hvalue : (i.natAbs : Int) = i := by omega
    rw [if_neg hneg, readNumber_decimal]
    dsimp only
    rw [if_neg Bool.false_ne_true, hvalue, if_pos hfits]

theorem stoi_signedDecimal {i : Int} (hfits : -2 ^ 31 ≤ i ∧ i < 2 ^ 31) : stoi (signedDecimal i) = some i :=
  readSigned_signedDecimal (w := 32) hfits

theorem stoll_signedDecimal {i : Int} (hfits : -2 ^ 63 ≤ i ∧ i < 2 ^ 63) : stoll (signedDecimal i) = some i :=
  readSigned_signedDecimal (w := 64) hfits

/-! ### Fields -/

/-- The text has no bar. -/
def Plain (text : Text) : Prop := '|' ∉ text

instance (text : Text) : Decidable (Plain text) := inferInstanceAs (Decidable ('|' ∉ text))

theorem plain_decimal (n : Nat) : Plain (decimal n) := notMem_decimal rfl n

theorem notMem_signedDecimal {c : Char} (hdigit : c.isDigit = false) (hminus : c ≠ '-') (i : Int) :
    c ∉ signedDecimal i := by
  unfold signedDecimal
  split
  · exact List.not_mem_cons_of_ne_of_not_mem hminus (notMem_decimal hdigit _)
  · exact notMem_decimal hdigit _

theorem plain_signedDecimal (i : Int) : Plain (signedDecimal i) := notMem_signedDecimal rfl (by decide) i

theorem Plain.ne_bar {text : Text} (h : Plain text) : ∀ c ∈ text, decide (c ≠ '|') = true := by
  intro c hc
  rw [decide_eq_true_eq]
  intro h
  obtain rfl := h
  exact h hc

theorem Plain.takeWhile {text : Text} (h : Plain text) (rest : Text) :
    (text ++ '|' :: rest).takeWhile (· ≠ '|') = text := by
  rw [List.takeWhile_append_of_pos h.ne_bar, List.takeWhile_cons_of_neg (by decide), List.append_nil]

theorem Plain.dropWhile {text : Text} (h : Plain text) (rest : Text) :
    (text ++ '|' :: rest).dropWhile (· ≠ '|') = '|' :: rest := by
  rw [List.dropWhile_append_of_pos h.ne_bar, List.dropWhile_cons_of_neg (by decide)]

/-- A text with a bar between any two fields. -/
def joinFields (field : Text) : List Text → Text
  | [] => field
  | next :: fields => field ++ '|' :: joinFields next fields

theorem fieldAt_joinFields {field : Text} {fields : List Text} (hplain : ∀ text ∈ field :: fields, Plain text)
    (index : Nat) : fieldAt (joinFields field fields) index = (field :: fields)[index]? := by
  induction fields generalizing field index with
  | nil =>
      have hbars := (hplain field List.mem_cons_self).ne_bar
      cases index with
      | zero => exact congrArg some (List.takeWhile_eq_self_iff.mpr hbars)
      | succ index =>
          rw [joinFields, fieldAt, List.dropWhile_eq_nil_iff.mpr hbars]
          rfl
  | cons next fields ih =>
      have hfield := hplain field List.mem_cons_self
      cases index with
      | zero => exact congrArg some (hfield.takeWhile _)
      | succ index =>
          rw [joinFields, fieldAt, hfield.dropWhile]
          exact ih (fun text htext => hplain text (List.mem_cons_of_mem _ htext)) index

/-! ### Values -/

/-- The numbers of an entry are of their types. -/
def QueuedPlayer.Fits (player : QueuedPlayer) : Prop :=
  player.playerId < 2 ^ 64 ∧ player.userId < 2 ^ 64 ∧ (-2 ^ 31 ≤ player.elo ∧ player.elo < 2 ^ 31) ∧
    (-2 ^ 63 ≤ player.enqueueEpochSeconds ∧ player.enqueueEpochSeconds < 2 ^ 63)

instance (player : QueuedPlayer) : Decidable player.Fits := inferInstanceAs (Decidable (
  player.playerId < 2 ^ 64 ∧ player.userId < 2 ^ 64 ∧ (-2 ^ 31 ≤ player.elo ∧ player.elo < 2 ^ 31) ∧
    (-2 ^ 63 ≤ player.enqueueEpochSeconds ∧ player.enqueueEpochSeconds < 2 ^ 63)))

theorem encodeQueueEntry_eq (player : QueuedPlayer) :
    encodeQueueEntry player = joinFields (decimal player.playerId)
      [decimal player.userId, signedDecimal player.elo, signedDecimal player.enqueueEpochSeconds] := by
  simp [encodeQueueEntry, joinFields]

theorem decode_encodeQueueEntry {player : QueuedPlayer} (hfits : player.Fits) :
    decodeQueueEntry (encodeQueueEntry player) = some player := by
  obtain ⟨hplayer, huser, helo, htime⟩ := hfits
  have hplain : ∀ text ∈ decimal player.playerId ::
      [decimal player.userId, signedDecimal player.elo, signedDecimal player.enqueueEpochSeconds], Plain text := by
    simp [plain_decimal, plain_signedDecimal]
  have hfields := fieldAt_joinFields hplain
  rw [← encodeQueueEntry_eq] at hfields
  unfold decodeQueueEntry
  rw [hfields 0, hfields 1, hfields 2, hfields 3]
  change (stoull (decimal player.playerId)).bind (fun playerId => (stoull (decimal player.userId)).bind fun userId =>
    (stoi (signedDecimal player.elo)).bind fun elo => (stoll (signedDecimal player.enqueueEpochSeconds)).bind fun time =>
      some (QueuedPlayer.mk playerId userId elo time)) = _
  rw [stoull_decimal hplayer, stoull_decimal huser, stoi_signedDecimal helo, stoll_signedDecimal htime]
  rfl

theorem parse_encodePlayerLocationValue {roomId : RoomId} {serverId : Text} (hroom : roomId < 2 ^ 64)
    (hserver : Plain serverId) (endpoint : Text) :
    parsePlayerLocationValue (encodePlayerLocationValue roomId serverId endpoint) =
      some ⟨serverId, endpoint, roomId⟩ := by
  have hvalue : encodePlayerLocationValue roomId serverId endpoint =
      decimal roomId ++ '|' :: (serverId ++ '|' :: endpoint) := by
    simp [encodePlayerLocationValue]
  rw [hvalue]
  unfold parsePlayerLocationValue
  rw [(plain_decimal roomId).dropWhile, (plain_decimal roomId).takeWhile]
  dsimp only
  rw [hserver.dropWhile]
  dsimp only
  rw [hserver.takeWhile, stoull_decimal hroom]
  rfl

/-! ### Lists of entries -/

/-- An entry is one line. -/
theorem newline_not_mem_encodeQueueEntry (player : QueuedPlayer) : '\n' ∉ encodeQueueEntry player := by
  have hdecimal : ∀ n : Nat, '\n' ∉ decimal n := notMem_decimal rfl
  have hsigned : ∀ i : Int, '\n' ∉ signedDecimal i := notMem_signedDecimal rfl (by decide)
  rw [encodeQueueEntry_eq]
  simp [joinFields, hdecimal, hsigned]

theorem encodeQueueEntry_ne_nil (player : QueuedPlayer) : encodeQueueEntry player ≠ [] := by
  rw [encodeQueueEntry_eq]
  simp [joinFields]

theorem queueLinesFrom_append {text : Text} (hline : '\n' ∉ text) (line rest : Text) :
    queueLinesFrom line (text ++ rest) = queueLinesFrom (line ++ text) rest := by
  induction text generalizing line with
  | nil => rw [List.nil_append, List.append_nil]
  | cons c text ih =>
      rw [List.mem_cons, not_or] at hline
      rw [List.cons_append, queueLinesFrom, if_neg (Ne.symm hline.1), ih hline.2, List.append_assoc,
        List.singleton_append]

/-- The entries after the first one, each on a line of its own. -/
theorem queueLinesFrom_entries (line : Text) (hline : line ≠ []) (queue : List QueuedPlayer) {i : Nat} (hi : 0 < i) :
    queueLinesFrom line ((queue.zipIdx i).flatMap fun (player, i) =>
      (if i > 0 then ['\n'] else []) ++ encodeQueueEntry player) = line :: queue.map encodeQueueEntry := by
  induction queue generalizing line i with
  | nil =>
      rw [List.zipIdx_nil, List.flatMap_nil, queueLinesFrom, if_neg (by simpa using hline), List.map_nil]
  | cons player queue ih =>
      rw [List.zipIdx_cons, List.flatMap_cons]
      dsimp only
      rw [if_pos hi, List.singleton_append, List.cons_append, queueLinesFrom, if_pos rfl,
        queueLinesFrom_append (newline_not_mem_encodeQueueEntry player), List.nil_append,
        ih _ (encodeQueueEntry_ne_nil player) (Nat.succ_pos i), List.map_cons]

theorem queueLinesFrom_encodeQueueValue (queue : List QueuedPlayer) :
    queueLinesFrom [] (encodeQueueValue queue) = queue.map encodeQueueEntry := by
  unfold encodeQueueValue
  cases queue with
  | nil => rfl
  | cons player queue =>
      rw [List.zipIdx_cons, List.flatMap_cons]
      dsimp only
      rw [if_neg (by decide), List.nil_append, queueLinesFrom_append (newline_not_mem_encodeQueueEntry player),
        List.nil_append, queueLinesFrom_entries _ (encodeQueueEntry_ne_nil player) queue (Nat.succ_pos 0), List.map_cons]

theorem decode_encodeQueueValue {queue : List QueuedPlayer} (hfits : ∀ player ∈ queue, player.Fits) :
    decodeQueueValue (encodeQueueValue queue) = queue := by
  unfold decodeQueueValue
  rw [queueLinesFrom_encodeQueueValue, List.filterMap_map]
  have hsome : ∀ player ∈ queue, (decodeQueueEntry ∘ encodeQueueEntry) player = some player :=
    fun player hplayer => decode_encodeQueueEntry (hfits player hplayer)
  rw [List.filterMap_congr hsome, List.filterMap_some]

/-! ### Heartbeats -/

theorem plain_healthy : Plain healthy := by decide +kernel

theorem bar_healthy_bar : "|healthy|".toList = '|' :: (healthy ++ ['|']) := by decide +kernel

theorem parse_encodeGameserverHeartbeat {now : Int} {region : Text} {metrics : ServerMetrics}
    (hnow : -2 ^ 63 ≤ now ∧ now < 2 ^ 63) (hrooms : metrics.activeRooms < 2 ^ 64) (hregion : Plain region)
    (hendpoint : Plain metrics.endpoint) (hallocation : Plain metrics.allocationEndpoint) (serverId : Text) :
    parseGameserverRecord serverId (encodeGameserverHeartbeat now region metrics) =
      some ⟨serverId, metrics.endpoint, metrics.allocationEndpoint, region, metrics.activeRooms, healthy, now⟩ := by
  have hvalue : encodeGameserverHeartbeat now region metrics = joinFields region
      [decimal metrics.activeRooms, decimal metrics.connectedSessions, decimal metrics.matchmakingQueue,
        metrics.endpoint, metrics.allocationEndpoint, healthy, signedDecimal now] := by
    simp only [encodeGameserverHeartbeat, joinFields, bar_healthy_bar, List.append_assoc, List.cons_append, List.nil_append]
  have hplain : ∀ text ∈ region :: [decimal metrics.activeRooms, decimal metrics.connectedSessions,
      decimal metrics.matchmakingQueue, metrics.endpoint, metrics.allocationEndpoint, healthy, signedDecimal now],
      Plain text := by
    simp [hregion, hendpoint, hallocation, plain_decimal, plain_signedDecimal, plain_healthy]
  have hfields := fieldAt_joinFields hplain
  rw [← hvalue] at hfields
  unfold parseGameserverRecord
  rw [hfields 0, hfields 1, hfields 4, hfields 5, hfields 6, hfields 7]
  change some (GameServerRecord.mk _ _ _ _ ((stoull (decimal metrics.activeRooms)).getD 0) _
    ((stoll (signedDecimal now)).getD 0)) = _
  rw [stoull_decimal hrooms, stoll_signedDecimal hnow]
  rfl

/-! ### Keys -/

/-- What a key is for. -/
inductive StoreKey where
  | room (roomId : RoomId)
  | player (userId : UserId)
  | gameserver (serverId : Text)
  | queue (region : Text)
deriving DecidableEq

namespace StoreKey

def text : StoreKey → Text
  | .room roomId => roomKey roomId
  | .player userId => playerKey userId
  | .gameserver serverId => gameserverKey serverId
  | .queue region => queueKey region

/-- The first character tells the four families apart. -/
def initial : StoreKey → Char
  | .room _ => 'r'
  | .player _ => 'p'
  | .gameserver _ => 'g'
  | .queue _ => 'q'

theorem head?_text (key : StoreKey) : key.text.head? = some key.initial := by
  have hstart : ∀ {start : Text} {c : Char}, start.head? = some c → ∀ rest, (start ++ rest).head? = some c := by
    intro start c hhead rest
    rw [List.head?_append, hhead]
    rfl
  cases key with
  | room roomId => exact hstart (show "room:".toList.head? = some 'r' by decide +kernel) _
  | player userId => exact hstart (show "player:".toList.head? = some 'p' by decide +kernel) _
  | gameserver serverId => exact hstart (show gameserverPrefix.head? = some 'g' by decide +kernel) _
  | queue region => exact hstart (show "queue:".toList.head? = some 'q' by decide +kernel) _

theorem text_injective : Function.Injective text := by
  intro key other heq
  have hinitial : key.initial = other.initial := by
    have hhead := congrArg List.head? heq
    rw [head?_text, head?_text] at hhead
    exact Option.some.inj hhead
  cases key with
  | room roomId =>
      cases other with
      | room other => rw [decimal_injective (List.append_cancel_left heq)]
      | _ => cases hinitial
  | player userId =>
      cases other with
      | player other => rw [decimal_injective (List.append_cancel_left heq)]
      | _ => cases hinitial
  | gameserver serverId =>
      cases other with
      | gameserver other => rw [List.append_cancel_left heq]
      | _ => cases hinitial
  | queue region =>
      cases other with
      | queue other => rw [List.append_cancel_left heq]
      | _ => cases hinitial

end StoreKey

/-! ### One store stands for the other -/

/-- The numbers of a call are of their types, a server id is not empty, and what stands between bars has none. -/
def StoreCall.WellFormed : StoreCall → Prop
  | .registerRoom roomId _ _ serverId _ => roomId < 2 ^ 64 ∧ Plain serverId
  | .publishServerHeartbeat now serverId region metrics =>
      (-2 ^ 63 ≤ now ∧ now < 2 ^ 63) ∧ metrics.activeRooms < 2 ^ 64 ∧ serverId ≠ [] ∧ Plain region ∧
        Plain metrics.endpoint ∧ Plain metrics.allocationEndpoint
  | .setMatchmakingQueue _ queue => ∀ player ∈ queue, player.Fits
  | .unregisterRoom _ _ _ | .deregisterServer _ => True

instance : ∀ call : StoreCall, Decidable call.WellFormed
  | .registerRoom roomId _ _ serverId _ => inferInstanceAs (Decidable (roomId < 2 ^ 64 ∧ Plain serverId))
  | .publishServerHeartbeat now serverId region metrics => inferInstanceAs (Decidable (
      (-2 ^ 63 ≤ now ∧ now < 2 ^ 63) ∧ metrics.activeRooms < 2 ^ 64 ∧ serverId ≠ [] ∧ Plain region ∧
        Plain metrics.endpoint ∧ Plain metrics.allocationEndpoint))
  | .setMatchmakingQueue _ queue => inferInstanceAs (Decidable (∀ player ∈ queue, player.Fits))
  | .unregisterRoom _ _ _ | .deregisterServer _ => isTrue trivial

/-- What is read under the keys is what the in-memory store has. -/
structure Represents (redis : RedisRuntimeStore) (memory : InMemoryRuntimeStore) : Prop where
  locations : ∀ userId, (redis.getKey (StoreKey.player userId).text).map parsePlayerLocationValue =
    (memory.findPlayerLocation userId).map some
  servers : ∀ serverId, (redis.getKey (StoreKey.gameserver serverId).text).map (parseGameserverRecord serverId) =
    (memory.getGameServer serverId).map some
  queues : ∀ region, (redis.getKey (StoreKey.queue region).text).map decodeQueueValue =
    memory.matchmakingQueues.find? region
  named : memory.gameServers.find? [] = none

namespace Represents

variable {redis : RedisRuntimeStore} {memory : InMemoryRuntimeStore}

theorem getKey_setKey (redis : RedisRuntimeStore) (key other : StoreKey) (value : Text) :
    (redis.setKey key.text value).getKey other.text = if other = key then some value else redis.getKey other.text := by
  unfold RedisRuntimeStore.setKey RedisRuntimeStore.getKey
  rw [OrdMap.find?_insert]
  simp only [StoreKey.text_injective.eq_iff]

theorem getKey_deleteKey (redis : RedisRuntimeStore) (key other : StoreKey) :
    (redis.deleteKey key.text).getKey other.text = if other = key then none else redis.getKey other.text := by
  unfold RedisRuntimeStore.deleteKey RedisRuntimeStore.getKey
  rw [OrdMap.find?_erase]
  simp only [StoreKey.text_injective.eq_iff]

theorem registerRoom (h : Represents redis memory) {roomId : RoomId} {serverId : Text} (hroom : roomId < 2 ^ 64)
    (hserver : Plain serverId) (white black : UserId) (endpoint : Text) :
    Represents (redis.registerRoom roomId white black serverId endpoint)
      { memory with toRuntimeStore := memory.registerRoom roomId white black serverId endpoint } := by
  have hkeys : redis.registerRoom roomId white black serverId endpoint =
      ((redis.setKey (StoreKey.room roomId).text serverId).setKey (StoreKey.player white).text
        (encodePlayerLocationValue roomId serverId endpoint)).setKey (StoreKey.player black).text
        (encodePlayerLocationValue roomId serverId endpoint) := rfl
  rw [hkeys]
  refine ⟨fun userId => ?_, fun other => ?_, fun region => ?_, h.named⟩
  · simp only [getKey_setKey, StoreKey.player.injEq, reduceCtorEq, if_false, RuntimeStore.registerRoom,
      RuntimeStore.findPlayerLocation, OrdMap.find?_insert]
    split
    · rw [Option.map_some, parse_encodePlayerLocationValue hroom hserver, Option.map_some]
    · split
      · rw [Option.map_some, parse_encodePlayerLocationValue hroom hserver, Option.map_some]
      · exact h.locations userId
  · simp only [getKey_setKey, reduceCtorEq, if_false]
    exact h.servers other
  · simp only [getKey_setKey, reduceCtorEq, if_false]
    exact h.queues region

theorem unregisterRoom (h : Represents redis memory) (roomId : RoomId) (white black : UserId) :
    Represents (redis.unregisterRoom roomId white black)
      { memory with toRuntimeStore := memory.unregisterRoom white black } := by
  have hkeys : redis.unregisterRoom roomId white black =
      ((redis.deleteKey (StoreKey.room roomId).text).deleteKey (StoreKey.player white).text).deleteKey
        (StoreKey.player black).text := rfl
  rw [hkeys]
  refine ⟨fun userId => ?_, fun other => ?_, fun region => ?_, h.named⟩
  · simp only [getKey_deleteKey, StoreKey.player.injEq, reduceCtorEq, if_false, RuntimeStore.unregisterRoom,
      RuntimeStore.findPlayerLocation, OrdMap.find?_erase]
    split
    · rfl
    · split
      · rfl
      · exact h.locations userId
  · simp only [getKey_deleteKey, reduceCtorEq, if_false]
    exact h.servers other
  · simp only [getKey_deleteKey, reduceCtorEq, if_false]
    exact h.queues region

theorem publishServerHeartbeat (h : Represents redis memory) {now : Int} {serverId region : Text}
    {metrics : ServerMetrics} (hnow : -2 ^ 63 ≤ now ∧ now < 2 ^ 63) (hrooms : metrics.activeRooms < 2 ^ 64)
    (hserver : serverId ≠ []) (hregion : Plain region) (hendpoint : Plain metrics.endpoint)
    (hallocation : Plain metrics.allocationEndpoint) :
    Represents (redis.publishServerHeartbeat now serverId region metrics)
      (memory.publishServerHeartbeat now serverId region metrics) := by
  have hkeys : redis.publishServerHeartbeat now serverId region metrics =
      redis.setKey (StoreKey.gameserver serverId).text (encodeGameserverHeartbeat now region metrics) := rfl
  rw [hkeys]
  refine ⟨fun userId => ?_, fun other => ?_, fun region => ?_, ?_⟩
  · simp only [getKey_setKey, reduceCtorEq, if_false]
    exact h.locations userId
  · simp only [getKey_setKey, StoreKey.gameserver.injEq, InMemoryRuntimeStore.publishServerHeartbeat,
      InMemoryRuntimeStore.getGameServer, OrdMap.find?_insert]
    split
    · rename_i hother
      rw [hother, Option.map_some,
        parse_encodeGameserverHeartbeat hnow hrooms hregion hendpoint hallocation serverId]
      rfl
    · exact h.servers other
  · simp only [getKey_setKey, reduceCtorEq, if_false]
    exact h.queues region
  · simp only [InMemoryRuntimeStore.publishServerHeartbeat, OrdMap.find?_insert]
    rw [if_neg (Ne.symm hserver)]
    exact h.named

theorem deregisterServer (h : Represents redis memory) (serverId : Text) :
    Represents (redis.deregisterServer serverId) (memory.deregisterServer serverId) := by
  have hkeys : redis.deregisterServer serverId = redis.deleteKey (StoreKey.gameserver serverId).text := rfl
  rw [hkeys]
  refine ⟨fun userId => ?_, fun other => ?_, fun region => ?_, ?_⟩
  · simp only [getKey_deleteKey, reduceCtorEq, if_false]
    exact h.locations userId
  · simp only [getKey_deleteKey, StoreKey.gameserver.injEq, InMemoryRuntimeStore.deregisterServer,
      InMemoryRuntimeStore.getGameServer, OrdMap.find?_erase]
    split
    · rfl
    · exact h.servers other
  · simp only [getKey_deleteKey, reduceCtorEq, if_false]
    exact h.queues region
  · simp only [InMemoryRuntimeStore.deregisterServer, OrdMap.find?_erase]
    split
    · rfl
    · exact h.named

theorem setMatchmakingQueue (h : Represents redis memory) (region : Text) {queue : List QueuedPlayer}
    (hfits : ∀ player ∈ queue, player.Fits) :
    Represents (redis.setMatchmakingQueue region queue) (memory.setMatchmakingQueue region queue) := by
  have hkeys : redis.setMatchmakingQueue region queue =
      redis.setKey (StoreKey.queue region).text (encodeQueueValue queue) := rfl
  rw [hkeys]
  refine ⟨fun userId => ?_, fun other => ?_, fun other => ?_, h.named⟩
  · simp only [getKey_setKey, reduceCtorEq, if_false]
    exact h.locations userId
  · simp only [getKey_setKey, reduceCtorEq, if_false]
    exact h.servers other
  · simp only [getKey_setKey, StoreKey.queue.injEq, InMemoryRuntimeStore.setMatchmakingQueue, OrdMap.find?_insert]
    split
    · rw [Option.map_some, decode_encodeQueueValue hfits]
    · exact h.queues other

theorem handle (h : Represents redis memory) {call : StoreCall} (hcall : call.WellFormed) :
    Represents (redis.handle call) (memory.handle call) := by
  cases call with
  | registerRoom roomId white black serverId endpoint => exact h.registerRoom hcall.1 hcall.2 white black endpoint
  | unregisterRoom roomId white black => exact h.unregisterRoom roomId white black
  | publishServerHeartbeat now serverId region metrics =>
      obtain ⟨hnow, hrooms, hserver, hregion, hendpoint, hallocation⟩ := hcall
      exact h.publishServerHeartbeat hnow hrooms hserver hregion hendpoint hallocation
  | deregisterServer serverId => exact h.deregisterServer serverId
  | setMatchmakingQueue region queue => exact h.setMatchmakingQueue region hcall

theorem start : Represents {} {} := ⟨fun _ => rfl, fun _ => rfl, fun _ => rfl, rfl⟩

theorem run (h : Represents redis memory) {calls : List StoreCall} (hcalls : ∀ call ∈ calls, call.WellFormed) :
    Represents (calls.foldl RedisRuntimeStore.handle redis) (calls.foldl InMemoryRuntimeStore.handle memory) := by
  induction calls generalizing redis memory with
  | nil => exact h
  | cons call calls ih =>
      exact ih (h.handle (hcalls call List.mem_cons_self))
        fun later hlater => hcalls later (List.mem_cons_of_mem _ hlater)

/-! ### Queries -/

theorem bind_of_map_some {α β : Type} {o : Option α} {f : α → Option β} {m : Option β} (h : o.map f = m.map some) :
    o.bind f = m := by
  cases o with
  | none => cases m with
    | none => rfl
    | some b => cases h
  | some a => cases m with
    | none => cases h
    | some b => exact Option.some.inj h

theorem findPlayerLocation (h : Represents redis memory) (userId : UserId) :
    redis.findPlayerLocation userId = memory.findPlayerLocation userId := bind_of_map_some (h.locations userId)

theorem getGameServer (h : Represents redis memory) (serverId : Text) :
    redis.getGameServer serverId = memory.getGameServer serverId := bind_of_map_some (h.servers serverId)

theorem listMatchmakingQueue (h : Represents redis memory) (region : Text) :
    redis.listMatchmakingQueue region = memory.listMatchmakingQueue region :=
  congrArg (·.getD []) (h.queues region)

theorem isSome_gameserver (h : Represents redis memory) (serverId : Text) :
    (redis.getKey (gameserverKey serverId)).isSome = (memory.gameServers.find? serverId).isSome := by
  have hsome := congrArg Option.isSome (h.servers serverId)
  rwa [Option.isSome_map, Option.isSome_map, InMemoryRuntimeStore.getGameServer, Option.isSome_map] at hsome

/-- The keys of the game servers are those of the servers in memory. -/
theorem keys_perm (h : Represents redis memory) :
    ((redis.keys.entries.map Prod.fst).filter gameserverPrefix.isPrefixOf).Perm
      ((memory.gameServers.entries.map Prod.fst).map gameserverKey) := by
  have hinjective : Function.Injective gameserverKey := fun _ _ heq => List.append_cancel_left heq
  rw [List.perm_ext_iff_of_nodup (redis.keys.nodup_keys.filter _) (memory.gameServers.nodup_keys.map hinjective)]
  intro key
  rw [List.mem_filter, OrdMap.mem_keys, List.mem_map, List.isPrefixOf_iff_prefix]
  constructor
  · intro h
    obtain ⟨hkey, serverId, rfl⟩ := h
    refine ⟨serverId, OrdMap.mem_keys.mpr ?_, rfl⟩
    rw [← h.isSome_gameserver]
    exact hkey
  · intro h
    obtain ⟨serverId, hserver, rfl⟩ := h
    refine ⟨?_, List.prefix_append _ _⟩
    have hsome := h.isSome_gameserver serverId
    rw [OrdMap.mem_keys.mp hserver] at hsome
    exact hsome

theorem recordAt (h : Represents redis memory) {serverId : Text} {entry : GameServerEntry}
    (hentry : (serverId, entry) ∈ memory.gameServers.entries) :
    redis.recordAt (gameserverKey serverId) = some (entry.record serverId) := by
  have hfind : memory.gameServers.find? serverId = some entry := OrdMap.find?_eq_some_iff.mpr hentry
  have hserver : serverId ≠ [] := by
    intro h
    obtain rfl := h
    rw [h.named] at hfind
    cases hfind
  have hlength : 0 < serverId.length := List.length_pos_iff.mpr hserver
  have hrecord := h.getGameServer serverId
  rw [InMemoryRuntimeStore.getGameServer, hfind] at hrecord
  unfold RedisRuntimeStore.recordAt
  rw [if_neg (by rw [gameserverKey, List.length_append]; omega), gameserverKey, List.drop_left]
  exact hrecord

theorem listGameServers (h : Represents redis memory) {scan : List Text → List Text}
    (hscan : ∀ keys, (scan keys).Perm keys) : (redis.listGameServers scan).Perm memory.listGameServers := by
  have hrecords : ((memory.gameServers.entries.map Prod.fst).map gameserverKey).filterMap redis.recordAt =
      memory.listGameServers := by
    rw [List.filterMap_map, List.filterMap_map]
    unfold InMemoryRuntimeStore.listGameServers
    rw [← List.filterMap_eq_map]
    exact List.filterMap_congr fun entry hentry => h.recordAt hentry
  rw [← hrecords]
  exact ((hscan _).trans h.keys_perm).filterMap _

end Represents

/-- The same calls on both stores, and every question has the same answer. -/
theorem runtime_stores_agree {calls : List StoreCall} (hcalls : ∀ call ∈ calls, call.WellFormed) :
    let redis := calls.foldl RedisRuntimeStore.handle {}
    let memory := calls.foldl InMemoryRuntimeStore.handle {}
    (∀ userId, redis.findPlayerLocation userId = memory.findPlayerLocation userId) ∧
    (∀ serverId, redis.getGameServer serverId = memory.getGameServer serverId) ∧
    (∀ scan : List Text → List Text, (∀ keys, (scan keys).Perm keys) →
      (redis.listGameServers scan).Perm memory.listGameServers) ∧
    ∀ region, redis.listMatchmakingQueue region = memory.listMatchmakingQueue region := by
  intro redis memory
  have h : Represents redis memory := Represents.start.run hcalls
  exact ⟨h.findPlayerLocation, h.getGameServer, fun _ => h.listGameServers, h.listMatchmakingQueue⟩

/-- A room, a server that has reported, and a queue with a rating below zero. -/
theorem runtime_stores_agree_reported :
    let calls : List StoreCall := [.registerRoom 1 7 8 "a".toList "ws://a".toList,
      .publishServerHeartbeat 5 "a".toList "eu".toList { activeRooms := 1, endpoint := "ws://a".toList },
      .setMatchmakingQueue "eu".toList [⟨1, 11, -20, 0⟩, ⟨2, 12, 1000, 3⟩], .setMatchmakingQueue "us".toList []]
    let redis := calls.foldl RedisRuntimeStore.handle {}
    redis.findPlayerLocation 8 = some ⟨"a".toList, "ws://a".toList, 1⟩ ∧
      (redis.listGameServers List.reverse).Perm
        [⟨"a".toList, "ws://a".toList, [], "eu".toList, 1, healthy, 5⟩] ∧
      redis.listMatchmakingQueue "eu".toList = [⟨1, 11, -20, 0⟩, ⟨2, 12, 1000, 3⟩] := by
  intro calls redis
  have hcalls : ∀ call ∈ calls, call.WellFormed := by decide +kernel
  obtain ⟨hlocations, _, hservers, hqueues⟩ := runtime_stores_agree hcalls
  refine ⟨(hlocations 8).trans (by decide +kernel), ?_, (hqueues "eu".toList).trans (by decide +kernel)⟩
  have hlist : (calls.foldl InMemoryRuntimeStore.handle {}).listGameServers =
      [⟨"a".toList, "ws://a".toList, [], "eu".toList, 1, healthy, 5⟩] := by
    decide +kernel
  rw [← hlist]
  exact hservers List.reverse fun keys => keys.reverse_perm

end KungFuChess
