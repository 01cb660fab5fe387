import KungFuChess.Proof.Stores

/-!
# Where a player is

A store keeps one location for a user. Registering a room overwrites it and unregistering a room erases it,
whichever room it is for. So the location is the latest room of the user that is still there, unless a room
has been unregistered behind the back of another one.
-/

namespace KungFuChess

/-- A room that has been registered, with its players. -/
structure LiveRoom where
  location : GameServerLocation
  white : UserId
  black : UserId
deriving DecidableEq, Repr

namespace StoreCall

/-- The call is about a room of the user. -/
def names (userId : UserId) : StoreCall → Bool
  | .registerRoom _ white black _ _ | .unregisterRoom _ white black => white = userId || black = userId
  | .publishServerHeartbeat _ _ _ _ | .deregisterServer _ | .setMatchmakingQueue _ _ => false

/-- The location that a registration gives its players. -/
def location? : StoreCall → Option GameServerLocation
  | .registerRoom roomId _ _ serverId endpoint => some ⟨serverId, endpoint, roomId⟩
  | .unregisterRoom _ _ _ | .publishServerHeartbeat _ _ _ _ | .deregisterServer _ | .setMatchmakingQueue _ _ => none

/-- The rooms of a user after a call, the latest first. -/
def track (userId : UserId) (rooms : List LiveRoom) : StoreCall → List LiveRoom
  | .registerRoom roomId white black serverId endpoint =>
      if white = userId ∨ black = userId then ⟨⟨serverId, endpoint, roomId⟩, white, black⟩ :: rooms else rooms
  | .unregisterRoom roomId white black =>
      rooms.filter fun room => ¬(room.location.roomId = roomId ∧ room.white = white ∧ room.black = black)
  | .publishServerHeartbeat _ _ _ _ | .deregisterServer _ | .setMatchmakingQueue _ _ => rooms

/-- Every unregistration is for a room that has been registered before, with the same players. -/
def Registered (calls : List StoreCall) : Prop :=
  ∀ before roomId white black, before ++ [.unregisterRoom roomId white black] <+: calls →
    ∃ serverId endpoint, .registerRoom roomId white black serverId endpoint ∈ before

/-- The room ids are of their type. -/
def Fits : StoreCall → Prop
  | .registerRoom roomId _ _ _ _ => roomId < 2 ^ 64
  | .unregisterRoom _ _ _ | .publishServerHeartbeat _ _ _ _ | .deregisterServer _ | .setMatchmakingQueue _ _ => True

end StoreCall

/-- The rooms of a user that have been registered and not been unregistered since, the latest first. -/
def liveRooms (userId : UserId) (calls : List StoreCall) : List LiveRoom := calls.foldl (StoreCall.track userId) []

/-- The latest of them. -/
def latestRoom (userId : UserId) (calls : List StoreCall) : Option GameServerLocation :=
  ((liveRooms userId calls).head?).map (·.location)

/-- The last call about a room of the user. -/
def lastNaming (userId : UserId) (calls : List StoreCall) : Option StoreCall :=
  calls.reverse.find? (StoreCall.names userId)

/-- The last call about a room of the user, if there is one, has registered the room. -/
def RegisteredLast (userId : UserId) (calls : List StoreCall) : Prop :=
  ∀ call ∈ lastNaming userId calls, call.location?.isSome = true

variable {userId : UserId} {calls : List StoreCall} {call : StoreCall}

theorem lastNaming_concat (userId : UserId) (calls : List StoreCall) (call : StoreCall) :
    lastNaming userId (calls ++ [call]) = if call.names userId then some call else lastNaming userId calls := by
  unfold lastNaming
  rw [List.reverse_append, List.reverse_singleton, List.singleton_append, List.find?_cons]
  cases call.names userId with
  | false => rfl
  | true => rfl

theorem liveRooms_concat (userId : UserId) (calls : List StoreCall) (call : StoreCall) :
    liveRooms userId (calls ++ [call]) = call.track userId (liveRooms userId calls) := by
  unfold liveRooms
  rw [List.foldl_append, List.foldl_cons, List.foldl_nil]

/-! ### The location is that of the last call -/

theorem findPlayerLocation_handle (memory : InMemoryRuntimeStore) (call : StoreCall) (userId : UserId) :
    (memory.handle call).findPlayerLocation userId =
      if call.names userId then call.location? else memory.findPlayerLocation userId := by
  cases call with
  | registerRoom roomId white black serverId endpoint =>
      simp only [InMemoryRuntimeStore.handle, RuntimeStore.registerRoom, RuntimeStore.findPlayerLocation,
        OrdMap.find?_insert, StoreCall.names, StoreCall.location?, Bool.or_eq_true, decide_eq_true_eq,
        eq_comm (a := userId)]
      grind
  | unregisterRoom roomId white black =>
      simp only [InMemoryRuntimeStore.handle, RuntimeStore.unregisterRoom, RuntimeStore.findPlayerLocation,
        OrdMap.find?_erase, StoreCall.names, StoreCall.location?, Bool.or_eq_true, decide_eq_true_eq,
        eq_comm (a := userId)]
      grind
  | publishServerHeartbeat now serverId region metrics => rfl
  | deregisterServer serverId => rfl
  | setMatchmakingQueue region queue => rfl

theorem findPlayerLocation_eq (userId : UserId) (calls : List StoreCall) :
    (calls.foldl InMemoryRuntimeStore.handle {}).findPlayerLocation userId =
      (lastNaming userId calls).bind (·.location?) := by
  induction calls using List.reverseRecOn with
  | nil => rfl
  | append_singleton calls call ih =>
      rw [Histories.foldl_concat, findPlayerLocation_handle, lastNaming_concat, ih]
      split
      · rfl
      · rfl

/-! ### The rooms that are there -/

/-- Every room in the list is the user's. -/
theorem mem_liveRooms {room : LiveRoom} (h : room ∈ liveRooms userId calls) :
    room.white = userId ∨ room.black = userId := by
  induction calls using List.reverseRecOn with
  | nil => cases h
  | append_singleton calls call ih =>
      rw [liveRooms_concat] at h
      cases call with
      | registerRoom roomId white black serverId endpoint =>
          rw [StoreCall.track] at h
          split at h
          · rename_i hnames
            rcases List.mem_cons.mp h with rfl | hroom
            · exact hnames
            · exact ih hroom
          · exact ih h
      | unregisterRoom roomId white black => exact ih (List.mem_filter.mp h).1
      | publishServerHeartbeat now serverId region metrics => exact ih h
      | deregisterServer serverId => exact ih h
      | setMatchmakingQueue region queue => exact ih h

/-- A call about somebody else's room leaves them as they are. -/
theorem track_of_not_names (hnames : call.names userId = false) :
    call.track userId (liveRooms userId calls) = liveRooms userId calls := by
  cases call with
  | registerRoom roomId white black serverId endpoint =>
      rw [StoreCall.track, if_neg]
      simpa [StoreCall.names] using hnames
  | unregisterRoom roomId white black =>
      rw [StoreCall.track, List.filter_eq_self]
      intro room hroom
      rw [decide_eq_true_eq]
      intro h
      obtain ⟨_, rfl, rfl⟩ := h
      have hboth : ¬(room.white = userId ∨ room.black = userId) := by simpa [StoreCall.names] using hnames
      exact hboth (mem_liveRooms hroom)
  | publishServerHeartbeat now serverId region metrics => rfl
  | deregisterServer serverId => rfl
  | setMatchmakingQueue region queue => rfl

/-- No call is about the user, or the last one has put its room first, or it has taken one away. -/
theorem lastNaming_cases (userId : UserId) (calls : List StoreCall) :
    (lastNaming userId calls = none ∧ latestRoom userId calls = none) ∨
    (∃ call ∈ lastNaming userId calls, ∃ location, call.location? = some location ∧
      latestRoom userId calls = some location) ∨
    ∃ call ∈ lastNaming userId calls, call.location? = none := by
  induction calls using List.reverseRecOn with
  | nil => exact .inl ⟨rfl, rfl⟩
  | append_singleton calls call ih =>
      rw [lastNaming_concat, latestRoom, liveRooms_concat]
      cases hnames : call.names userId with
      | false =>
          rw [track_of_not_names hnames]
          exact ih
      | true =>
          rw [if_pos rfl]
          cases call with
          | registerRoom roomId white black serverId endpoint =>
              refine .inr (.inl ⟨_, rfl, ⟨serverId, endpoint, roomId⟩, rfl, ?_⟩)
              rw [StoreCall.track, if_pos (by simpa [StoreCall.names] using hnames)]
              rfl
          | unregisterRoom roomId white black => exact .inr (.inr ⟨_, rfl, rfl⟩)
          | publishServerHeartbeat now serverId region metrics => cases hnames
          | deregisterServer serverId => cases hnames
          | setMatchmakingQueue region queue => cases hnames

theorem latestRoom_eq_none : latestRoom userId calls = none ↔ liveRooms userId calls = [] := by
  rw [latestRoom, Option.map_eq_none_iff, List.head?_eq_none_iff]

/-- What the last call about the user has left is the latest room if it was a registration, or if no room is there. -/
theorem location_eq_latestRoom_iff {β : Type} (f : GameServerLocation → β) :
    ((lastNaming userId calls).bind (·.location?)).map f = (latestRoom userId calls).map f ↔
      RegisteredLast userId calls ∨ liveRooms userId calls = [] := by
  unfold RegisteredLast
  rcases lastNaming_cases userId calls with ⟨hlast, hlatest⟩ | ⟨call, hlast, location, hlocation, hlatest⟩ |
    ⟨call, hlast, hlocation⟩
  · rw [hlast, hlatest, ← latestRoom_eq_none]
    exact iff_of_true rfl (.inr hlatest)
  · rw [Option.mem_def.mp hlast, hlatest, Option.bind_some, hlocation]
    refine iff_of_true rfl (.inl ?_)
    intro other hother
    cases hother
    rw [hlocation]
    rfl
  · rw [Option.mem_def.mp hlast, Option.bind_some, hlocation, ← latestRoom_eq_none]
    rw [Option.map_none, eq_comm, Option.map_eq_none_iff]
    constructor
    · exact .inr
    · intro h
      rcases h with hregistered | hnone
      · have hsome := hregistered call rfl
        rw [hlocation] at hsome
        cases hsome
      · exact hnone

/-! ### The same in Redis -/

/-- A bar in the server id spoils the server id that is read, but not the room id. -/
theorem parse_encodePlayerLocationValue_roomId {roomId : RoomId} (hroom : roomId < 2 ^ 64) (serverId endpoint : Text) :
    (parsePlayerLocationValue (encodePlayerLocationValue roomId serverId endpoint)).map (·.roomId) = some roomId := by
  have hvalue : encodePlayerLocationValue roomId serverId endpoint =
      decimal roomId ++ '|' :: (serverId ++ '|' :: endpoint) := by
    simp [encodePlayerLocationValue]
  have hbar : (serverId ++ '|' :: endpoint).dropWhile (· ≠ '|') ≠ [] := by
    rw [ne_eq, List.dropWhile_eq_nil_iff]
    intro hnone
    have hno := hnone '|' (List.mem_append_right _ List.mem_cons_self)
    cases hno
  obtain ⟨c, rest, hrest⟩ := List.exists_cons_of_ne_nil hbar
  rw [hvalue]
  unfold parsePlayerLocationValue
  rw [(plain_decimal roomId).dropWhile, (plain_decimal roomId).takeWhile]
  dsimp only
  rw [hrest]
  dsimp only
  rw [stoull_decimal hroom]
  rfl

/-- The room that a user's key stands for. -/
def roomAt (redis : RedisRuntimeStore) (userId : UserId) : Option (Option RoomId) :=
  (redis.getKey (StoreKey.player userId).text).map fun value => (parsePlayerLocationValue value).map (·.roomId)

theorem roomAt_handle (redis : RedisRuntimeStore) (hfits : call.Fits) (userId : UserId) :
    roomAt (redis.handle call) userId =
      if call.names userId then call.location?.map fun location => some location.roomId else roomAt redis userId := by
  cases call with
  | registerRoom roomId white black serverId endpoint =>
      have hkeys : redis.registerRoom roomId white black serverId endpoint =
          ((redis.setKey (StoreKey.room roomId).text serverId).setKey (StoreKey.player white).text
            (encodePlayerLocationValue roomId serverId endpoint)).setKey (StoreKey.player black).text
            (encodePlayerLocationValue roomId serverId endpoint) := rfl
      have hvalue := parse_encodePlayerLocationValue_roomId hfits serverId endpoint
      simp only [RedisRuntimeStore.handle, hkeys, roomAt, Represents.getKey_setKey, StoreKey.player.injEq, reduceCtorEq,
        if_false, StoreCall.names, StoreCall.location?, Bool.or_eq_true, decide_eq_true_eq, eq_comm (a := userId)]
      by_cases hblack : black = userId
      · rw [if_pos hblack, if_pos (.inr hblack), Option.map_some, hvalue]
        rfl
      · by_cases hwhite : white = userId
        · rw [if_neg hblack, if_pos hwhite, if_pos (.inl hwhite), Option.map_some, hvalue]
          rfl
        · rw [if_neg hblack, if_neg hwhite, if_neg (by simp [hblack, hwhite])]
  | unregisterRoom roomId white black =>
      have hkeys : redis.unregisterRoom roomId white black =
          ((redis.deleteKey (StoreKey.room roomId).text).deleteKey (StoreKey.player white).text).deleteKey
            (StoreKey.player black).text := rfl
      simp only [RedisRuntimeStore.handle, hkeys, roomAt, Represents.getKey_deleteKey, StoreKey.player.injEq, reduceCtorEq,
        if_false, StoreCall.names, StoreCall.location?, Bool.or_eq_true, decide_eq_true_eq, eq_comm (a := userId)]
      by_cases hblack : black = userId
      · rw [if_pos hblack, if_pos (.inr hblack)]
        rfl
      · by_cases hwhite : white = userId
        · rw [if_neg hblack, if_pos hwhite, if_pos (.inl hwhite)]
          rfl
        · rw [if_neg hblack, if_neg hwhite, if_neg (by simp [hblack, hwhite])]
  | publishServerHeartbeat now serverId region metrics =>
      have hkeys : redis.publishServerHeartbeat now serverId region metrics =
          redis.setKey (StoreKey.gameserver serverId).text (encodeGameserverHeartbeat now region metrics) := rfl
      simp [RedisRuntimeStore.handle, hkeys, roomAt, Represents.getKey_setKey, StoreCall.names]
  | deregisterServer serverId =>
      have hkeys : redis.deregisterServer serverId = redis.deleteKey (StoreKey.gameserver serverId).text := rfl
      simp [RedisRuntimeStore.handle, hkeys, roomAt, Represents.getKey_deleteKey, StoreCall.names]
  | setMatchmakingQueue region queue =>
      have hkeys : redis.setMatchmakingQueue region queue =
          redis.setKey (StoreKey.queue region).text (encodeQueueValue queue) := rfl
      simp [RedisRuntimeStore.handle, hkeys, roomAt, Represents.getKey_setKey, StoreCall.names]

theorem roomAt_eq (hfits : ∀ call ∈ calls, call.Fits) (userId : UserId) :
    roomAt (calls.foldl RedisRuntimeStore.handle {}) userId =
      ((lastNaming userId calls).bind (·.location?)).map fun location => some location.roomId := by
  induction calls using List.reverseRecOn with
  | nil => rfl
  | append_singleton calls call ih =>
      have hcall : call.Fits := hfits call (List.mem_append_right _ List.mem_cons_self)
      rw [Histories.foldl_concat, roomAt_handle _ hcall, lastNaming_concat,
        ih fun earlier hearlier => hfits earlier (List.mem_append_left _ hearlier)]
      split
      · rfl
      · rfl

theorem findPlayerLocation_roomId (redis : RedisRuntimeStore) (userId : UserId) :
    (redis.findPlayerLocation userId).map (·.roomId) = (roomAt redis userId).join := by
  have hkey : redis.findPlayerLocation userId =
      (redis.getKey (StoreKey.player userId).text).bind parsePlayerLocationValue := rfl
  rw [hkey, roomAt]
  cases redis.getKey (StoreKey.player userId).text with
  | none => rfl
  | some value => rfl

/-- In either store the location of a user is the latest room that is still there if and only if the last call
about the user's rooms was a registration, or no room of the user is there. -/
theorem location_is_latest_iff (userId : UserId) (calls : List StoreCall) :
    ((calls.foldl InMemoryRuntimeStore.handle {}).findPlayerLocation userId = latestRoom userId calls ↔
      RegisteredLast userId calls ∨ liveRooms userId calls = []) ∧
    ((∀ call ∈ calls, call.Fits) →
      (((calls.foldl RedisRuntimeStore.handle {}).findPlayerLocation userId).map (·.roomId) =
          (latestRoom userId calls).map (·.roomId) ↔
        RegisteredLast userId calls ∨ liveRooms userId calls = [])) := by
  constructor
  · rw [findPlayerLocation_eq, ← location_eq_latestRoom_iff id, Option.map_id]
    exact Iff.rfl
  · intro hfits
    rw [findPlayerLocation_roomId, roomAt_eq hfits, ← location_eq_latestRoom_iff (·.roomId)]
    cases (lastNaming userId calls).bind (·.location?) with
    | none => exact Iff.rfl
    | some location => exact Iff.rfl

/-- A player whose first room is unregistered before the second one is registered. -/
theorem location_is_latest_rematch :
    let calls : List StoreCall := [.registerRoom 1 7 8 "a".toList "ws://a".toList, .unregisterRoom 1 7 8,
      .registerRoom 2 7 9 "b".toList "ws://b".toList]
    ((calls.foldl RedisRuntimeStore.handle {}).findPlayerLocation 7).map (·.roomId) = some 2 := by
  intro calls
  have hlast : lastNaming 7 calls = some (.registerRoom 2 7 9 "b".toList "ws://b".toList) := by decide +kernel
  have hlatest : (latestRoom 7 calls).map (·.roomId) = some 2 := by decide +kernel
  have hfits : ∀ call ∈ calls, call.Fits := by
    simp [calls, StoreCall.Fits]
  rw [← hlatest]
  refine ((location_is_latest_iff 7 calls).2 hfits).mpr (.inl ?_)
  intro call hcall
  rw [Option.mem_def, hlast] at hcall
  cases hcall
  rfl

/-- The second room is registered before the first one is unregistered, and then neither store knows where the
player is. -/
theorem not_location_is_latest_overlapping :
    let calls : List StoreCall := [.registerRoom 1 7 8 "a".toList "ws://a".toList,
      .registerRoom 2 7 9 "b".toList "ws://b".toList, .unregisterRoom 1 7 8]
    StoreCall.Registered calls ∧ latestRoom 7 calls = some ⟨"b".toList, "ws://b".toList, 2⟩ ∧
      (calls.foldl InMemoryRuntimeStore.handle {}).findPlayerLocation 7 = none ∧
      (calls.foldl RedisRuntimeStore.handle {}).findPlayerLocation 7 = none := by
  intro calls
  refine ⟨?_, by decide +kernel, by decide +kernel, by decide +kernel⟩
  intro before roomId white black h
  obtain ⟨rest, hcalls⟩ := h
  rcases before with _ | ⟨first, _ | ⟨second, _ | ⟨third, before⟩⟩⟩
  · simp [calls] at hcalls
  · simp [calls] at hcalls
  · obtain ⟨rfl, rfl, ⟨rfl, rfl, rfl⟩, _⟩ := by simpa [calls] using hcalls
    exact ⟨_, _, List.mem_cons_self⟩
  · simp [calls] at hcalls

end KungFuChess
