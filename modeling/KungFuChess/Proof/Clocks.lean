import KungFuChess.Proof.Endings

/-!
# The clocks of the rooms

All rooms share one `last_tick`, and it is moved by a room that ticks. While no room does, it stands still,
and a room that is made then is later given the time from before it was there. As long as this does not
happen, no clock runs ahead of the time.
-/

namespace KungFuChess

open Machine Loops

/-! ### The clock of a match -/

namespace GameState

variable {s s' : GameState} {a : GameAction}

theorem addClock_clockMs {ms : Int} (h : s.addClock ms = .ok s') : s'.clockMs = s.clockMs + ms := by
  obtain ⟨⟨arbiter, board, gameOver⟩, hsettled, hrest⟩ := bind_eq_ok.mp h
  cases hrest
  unfold RealTimeArbiter.updateTime RealTimeArbiter.settlePendingMoves at hsettled
  obtain ⟨due, -, hsettled⟩ := bind_eq_ok.mp hsettled
  obtain ⟨cancelled, -, hsettled⟩ := bind_eq_ok.mp hsettled
  obtain ⟨expired, -, hsettled⟩ := bind_eq_ok.mp hsettled
  cases hsettled
  rfl

/-- Whatever the computation ends in, it has the clock of `s`. -/
def SameClock (s : GameState) (x : Checked GameState) : Prop := ∀ s', x = .ok s' → s'.clockMs = s.clockMs

theorem SameClock.ok (h : s'.clockMs = s.clockMs) : SameClock s (.ok s') := by
  intro _ h
  obtain ⟨⟩ := h
  exact h

theorem SameClock.bind {α : Type} {x : Checked α} {f : α → Checked GameState} (h : ∀ a, x = .ok a → SameClock s (f a)) :
    SameClock s (x >>= f) := by
  intro s' hs'
  obtain ⟨a, ha, hf⟩ := bind_eq_ok.mp hs'
  exact h a ha s' hf

theorem SameClock.error (fault : Fault) : SameClock s (.error fault) := by
  intro _ h
  obtain ⟨⟩ := h

theorem jumpAt_clockMs (s : GameState) (row col : Nat) : SameClock s (s.jumpAt row col) := by
  unfold jumpAt
  split
  · exact .ok rfl
  · refine .bind fun empty _ => ?_
    split
    · exact .ok rfl
    · split
      · exact .ok rfl
      · cases s.board.pieceAt row col with
        | none => exact .ok rfl
        | some piece => exact .bind fun _ _ => .bind fun _ _ => .ok rfl

theorem moveSelectedTo_clockMs (s : GameState) (toRow toCol : Nat) : SameClock s (s.moveSelectedTo toRow toCol) := by
  unfold moveSelectedTo
  cases s.selected with
  | none => exact .ok rfl
  | some source =>
      refine .bind fun legal _ => ?_
      split
      · exact .ok rfl
      · cases s.board.pieceAt source.1 source.2 with
        | none => exact .error _
        | some moving => exact .bind fun _ _ => .bind fun _ _ => .ok rfl

/-- Only the clock's own action moves it. -/
theorem applyAction_clockMs (s : GameState) (ha : ∀ ms, a ≠ .advanceClock ms) : SameClock s (s.applyAction a) := by
  cases a with
  | select row col =>
      apply SameClock.ok
      unfold select
      split
      · rfl
      · rfl
  | clearSelection => exact .ok rfl
  | moveSelected toRow toCol => exact moveSelectedTo_clockMs s toRow toCol
  | jumpSelected =>
      unfold applyAction jumpSelected
      cases s.selected with
      | none => exact .ok rfl
      | some cell => exact .bind fun jumped hjumped => .ok (jumpAt_clockMs s _ _ jumped hjumped)
  | jumpAt row col => exact jumpAt_clockMs s row col
  | advanceClock ms => exact absurd rfl (ha ms)

end GameState

/-- Players do not move the clock. -/
theorem applyRoomInputs_clockMs {m m' : Match} {inputs : List RoomPlayerInput} {winner : Option PieceColor}
    (h : applyRoomInputs m inputs = .ok (m', winner)) : m'.state.clockMs = m.state.clockMs := by
  induction inputs generalizing m with
  | nil =>
      cases h
      rfl
  | cons input inputs ih =>
      unfold applyRoomInputs at h
      split at h
      · cases h
        rfl
      · obtain ⟨allowed, hallowed, h⟩ := bind_eq_ok.mp h
        split at h
        · rename_i hyes
          obtain ⟨mid, hmid, h⟩ := bind_eq_ok.mp h
          obtain ⟨state, hstate, hrest⟩ := bind_eq_ok.mp hmid
          cases hrest
          refine (ih h).trans (GameState.applyAction_clockMs m.state ?_ state hstate)
          intro ms hadvance
          rw [hadvance] at hallowed
          cases hallowed
          cases hyes
        · exact ih h

theorem Match.tick_clockMs {m m' : Match} {ms : Int} (h : m.tick ms = .ok m') :
    m'.state.clockMs = m.state.clockMs + ms := by
  obtain ⟨state, hstate, hrest⟩ := bind_eq_ok.mp h
  cases hrest
  exact GameState.addClock_clockMs hstate

namespace Server

variable {config : ServerConfig} {s s' t : Server} {roomId : RoomId}

/-- When a room was made. -/
def createdAt (s : Server) (roomId : RoomId) : Option Nat :=
  s.journal.findSome? fun
    | .roomCreated id time => if id = roomId then some time else none
    | _ => none

/-- The clock of every active room shows at most the time since the room was made. -/
def ClocksBehind (s : Server) : Prop :=
  ∀ room ∈ s.rooms.rooms, room.active = true → ∃ time, s.createdAt room.id = some time ∧
    room.clockMs * 10 ^ 6 ≤ (s.now : Int) - time

/-- A tick that goes on does not go on for longer than an active room has been there. -/
def TicksKnownRooms (s : Server) : NetEvent ⊕ ServerOp → Prop
  | .inr .readClock => kTargetFrameMs ≤ elapsedMs s.now s.lastTick →
      ∀ room ∈ s.rooms.rooms, room.active = true → ∀ time ∈ s.createdAt room.id,
        elapsedMs s.now s.lastTick * 10 ^ 6 ≤ (s.now : Int) - time
  | _ => True

instance (s : Server) : DecidablePred (TicksKnownRooms s)
  | .inr .readClock =>
      inferInstanceAs (Decidable (_ → ∀ room ∈ s.rooms.rooms, _ → ∀ time ∈ s.createdAt room.id, _))
  | .inl _ | .inr .acceptNewClients | .inr (.lobby _) | .inr .processTimeouts | .inr .pruneDisconnected
  | .inr (.prune _) | .inr (.join _) | .inr (.allocate _) | .inr (.probeRoom _) | .inr (.tickRoom _ _)
  | .inr (.playRoomInputs _) | .inr (.finish _ _ _) | .inr .removeInactiveRooms => isTrue trivial

/-! ### What ticks keep -/

/-- A room has not been ticked, or its clock is behind `last_tick`. -/
structure Clocked (s : Server) : Prop where
  ticked : s.lastTick ≤ s.now
  unborn : ∀ roomId, s.rooms.nextId ≤ roomId → s.createdAt roomId = none
  behind : ∀ room ∈ s.rooms.rooms, ∃ time, s.createdAt room.id = some time ∧ time ≤ s.now ∧ 0 ≤ room.clockMs ∧
    (room.clockMs = 0 ∨ room.clockMs * 10 ^ 6 + time ≤ s.lastTick)

theorem createdAt_eq {entries : List JournalEntry} (h : t.journal = s.journal ++ entries)
    (hnone : ∀ id time, .roomCreated id time ∉ entries) : t.createdAt roomId = s.createdAt roomId := by
  unfold createdAt
  rw [h, List.findSome?_append]
  refine (congrArg _ (List.findSome?_eq_none_iff.mpr ?_)).trans (Option.or_none)
  intro entry hentry
  cases entry with
  | roomCreated id time => exact absurd hentry (hnone id time)
  | matched => rfl
  | ratingUpdated => rfl
  | gameFinished => rfl
  | gameFinishedWithoutWinner => rfl
  | finishNotified => rfl

theorem Clocked.clocksBehind (h : Clocked s) : ClocksBehind s := by
  intro room hroom _
  obtain ⟨time, hcreated, hold, -, hclock⟩ := h.behind room hroom
  refine ⟨time, hcreated, ?_⟩
  have hticked := h.ticked
  rcases hclock with hclock | hclock
  · rw [hclock]
    omega
  · omega

/-- Time may pass and matches may start anew, but no room ticks. -/
structure ClocksStand (s t : Server) : Prop where
  rooms : ∀ room ∈ t.rooms.rooms, ∃ old ∈ s.rooms.rooms, room.id = old.id ∧
    (room.clockMs = old.clockMs ∨ room.clockMs = 0)
  nextId : t.rooms.nextId = s.rooms.nextId
  created : ∀ roomId, t.createdAt roomId = s.createdAt roomId
  lastTick : t.lastTick = s.lastTick
  now : s.now ≤ t.now

theorem ClocksStand.of_rooms (hrooms : t.rooms = s.rooms) (hjournal : t.journal = s.journal)
    (htick : t.lastTick = s.lastTick) (hnow : s.now ≤ t.now) : ClocksStand s t :=
  ⟨by rw [hrooms]; exact fun room hroom => ⟨room, hroom, rfl, .inl rfl⟩, by rw [hrooms],
    fun _ => by rw [createdAt, hjournal, createdAt], htick, hnow⟩

theorem ClocksStand.of_bare (hbare : t.bare = s.bare) : ClocksStand s t := by
  have hrest := eq_of_bare hbare
  apply ClocksStand.of_rooms <;> rw [hrest]

theorem ClocksStand.occur (s : Server) (event : NetEvent) : ClocksStand s (s.occur event) := by
  cases event with
  | pass duration => exact .of_rooms rfl rfl rfl (Nat.le_add_right _ _)
  | connect => exact .of_rooms rfl rfl rfl le_rfl
  | deliver => exact .of_rooms rfl rfl rfl le_rfl
  | setLink => exact .of_rooms rfl rfl rfl le_rfl

theorem ClocksStand.modifyRoom {f : Room → Room} {entries : List JournalEntry}
    (hrooms : t.rooms = s.rooms.modifyRoom roomId f) (hid : ∀ room, (f room).id = room.id)
    (hclock : ∀ room ∈ s.rooms.rooms, room.id = roomId → (f room).clockMs = room.clockMs ∨ (f room).clockMs = 0)
    (hjournal : t.journal = s.journal ++ entries) (hnone : ∀ id time, .roomCreated id time ∉ entries)
    (htick : t.lastTick = s.lastTick) (hnow : t.now = s.now) : ClocksStand s t := by
  refine ⟨?_, by rw [hrooms]; rfl, fun _ => createdAt_eq hjournal hnone, htick, hnow.ge⟩
  rw [hrooms]
  intro room hroom
  obtain ⟨old, hold, rfl⟩ := mem_modifyRoom hroom
  refine ⟨old, hold, ?_⟩
  split
  · rename_i heq
    exact ⟨hid old, hclock old hold heq⟩
  · exact ⟨rfl, .inl rfl⟩

theorem ClocksStand.clocked (h : ClocksStand s t) (hs : Clocked s) : Clocked t := by
  refine ⟨?_, ?_, ?_⟩
  · rw [h.lastTick]
    exact hs.ticked.trans h.now
  · intro roomId hnext
    rw [h.created]
    exact hs.unborn roomId (h.nextId ▸ hnext)
  · intro room hroom
    obtain ⟨old, hold, hid, hclock⟩ := h.rooms room hroom
    obtain ⟨time, hcreated, htime, hpos, hbehind⟩ := hs.behind old hold
    refine ⟨time, by rw [h.created, hid, hcreated], htime.trans h.now, ?_⟩
    rw [h.lastTick]
    rcases hclock with hclock | hclock
    · rw [hclock]
      exact ⟨hpos, hbehind⟩
    · rw [hclock]
      exact ⟨le_rfl, .inl rfl⟩

/-- A new room is made now. -/
theorem Clocked.newRoom (h : Clocked s) {room : Room} {entries : List JournalEntry} (hid : room.id = s.rooms.nextId)
    (hclock : room.clockMs = 0) (hrooms : t.rooms = ⟨s.rooms.rooms ++ [room], s.rooms.nextId + 1⟩)
    (hjournal : t.journal = s.journal ++ .roomCreated s.rooms.nextId s.now :: entries)
    (hnone : ∀ id time, .roomCreated id time ∉ entries) (htick : t.lastTick = s.lastTick) (hnow : t.now = s.now) :
    Clocked t := by
  have hcreated : ∀ roomId, t.createdAt roomId =
      (s.createdAt roomId).or (if s.rooms.nextId = roomId then some s.now else none) := by
    intro roomId
    have hmore : t.createdAt roomId = createdAt { s with journal := s.journal ++ [.roomCreated s.rooms.nextId s.now] }
        roomId := createdAt_eq (by rw [hjournal, List.append_assoc]; rfl) hnone
    rw [hmore]
    unfold createdAt
    rw [List.findSome?_append]
    split <;> simp [*]
  refine ⟨by rw [htick, hnow]; exact h.ticked, ?_, ?_⟩
  · intro roomId hnext
    rw [hrooms] at hnext
    change s.rooms.nextId + 1 ≤ roomId at hnext
    rw [hcreated, h.unborn roomId (Nat.le_of_succ_le hnext), if_neg (Nat.lt_of_succ_le hnext).ne]
    rfl
  · intro other hother
    rw [hrooms, List.mem_append, List.mem_singleton] at hother
    rw [hcreated, htick, hnow]
    rcases hother with hold | rfl
    · obtain ⟨time, htime, hrest⟩ := h.behind other hold
      exact ⟨time, by rw [htime]; rfl, hrest⟩
    · rw [hid, h.unborn _ le_rfl, if_pos rfl]
      exact ⟨s.now, rfl, le_rfl, hclock.ge, .inl hclock⟩

/-- What a tick does to a room besides ticking it. -/
def InRoom : ServerOp → Prop
  | .probeRoom _ | .playRoomInputs _ | .finish _ _ _ => True
  | _ => False

theorem ClocksStand.of_inRoom (hwf : Wf s) {op : ServerOp} (hop : InRoom op) (hstep : OpStep config s op t) :
    ClocksStand s t := by
  cases hstep with
  | idle _ => exact .of_rooms rfl rfl rfl le_rfl
  | @inputs roomId room winner game hfind hplayed =>
      refine .modifyRoom rfl (fun _ => rfl) ?_ (List.append_nil _).symm (by simp) rfl rfl
      intro other hother hid
      left
      obtain ⟨hroom, rfl⟩ := findRoom_some hfind
      rw [List.inj_on_of_nodup_map hwf.rooms hother hroom hid]
      exact applyRoomInputs_clockMs hplayed
  | @finish roomId winner reason room white black _ _ _ =>
      exact .modifyRoom rfl (fun _ => rfl) (fun _ _ _ => .inr rfl) rfl
        (oneResult_resultEntries config s room white black winner reason).roomCreated_notMem rfl rfl
  | accept _ _ _ => cases hop
  | lobby _ => cases hop
  | timeouts => cases hop
  | prune _ => cases hop
  | join _ => cases hop
  | allocate _ _ => cases hop
  | tick _ _ => cases hop
  | removeInactive => cases hop

theorem Clocked.step (h : Clocked s) (hwf : Wf s) {op : ServerOp} (hop : ∀ roomId elapsed, op ≠ .tickRoom roomId elapsed)
    (hstep : OpStep config s op t) : Clocked t := by
  have hstand : ∀ t, t.rooms = s.rooms → t.journal = s.journal → t.lastTick = s.lastTick → t.now = s.now → Clocked t :=
    fun t hrooms hjournal htick hnow => (ClocksStand.of_rooms hrooms hjournal htick hnow.ge).clocked h
  cases hstep with
  | idle _ => exact h
  | accept _ _ _ => exact hstand _ rfl rfl rfl rfl
  | lobby hlobby =>
      cases hlobby with
      | idle => exact h
      | login _ _ _ _ _ _ _ _ =>
          rw [loggedIn, registerSession_eq]
          exact hstand _ rfl rfl rfl rfl
      | wait _ _ => exact hstand _ rfl rfl rfl rfl
      | pair _ _ _ _ _ _ _ _ => exact h.newRoom rfl rfl rfl (List.append_assoc _ _ _) (by simp) rfl rfl
  | timeouts => exact hstand _ rfl rfl rfl rfl
  | prune _ => exact hstand _ rfl rfl rfl rfl
  | join _ => exact hstand _ rfl rfl rfl rfl
  | allocate _ _ => exact h.newRoom rfl rfl rfl rfl (by simp) rfl rfl
  | tick _ _ => exact absurd rfl (hop _ _)
  | @inputs roomId _ _ _ hfind hplayed =>
      have hplay : OpStep config s (.playRoomInputs roomId) _ := .inputs hfind hplayed
      exact (ClocksStand.of_inRoom hwf (show InRoom (.playRoomInputs roomId) from trivial) hplay).clocked h
  | @finish roomId winner reason _ _ _ _ hends habsent =>
      have hfinish : OpStep config s (.finish roomId winner reason) _ := .finish hends habsent
      exact (ClocksStand.of_inRoom hwf (show InRoom (.finish roomId winner reason) from trivial) hfinish).clocked h
  | removeInactive =>
      have hrooms : ∀ room ∈ s.rooms.removeInactiveRooms.rooms, room ∈ s.rooms.rooms :=
        fun room hroom => List.mem_of_mem_filter hroom
      have hstand : ClocksStand s { s with rooms := s.rooms.removeInactiveRooms } :=
        ⟨fun room hroom => ⟨room, hrooms room hroom, rfl, .inl rfl⟩, rfl, fun _ => rfl, rfl, le_rfl⟩
      exact hstand.clocked h

/-! ### In the middle of a tick -/

/-- Some rooms are still to be ticked, and the tick does not take them further than to now. -/
structure Ticking (elapsed : Int) (rest : List RoomId) (s : Server) : Prop where
  wf : Wf s
  clocked : Clocked s
  nodup : rest.Nodup
  due : kTargetFrameMs ≤ elapsed → ∀ room ∈ s.rooms.rooms, room.id ∈ rest → ∀ time ∈ s.createdAt room.id,
    (room.clockMs + elapsed) * 10 ^ 6 + time ≤ s.now

namespace Ticking

variable {elapsed : Int} {rest : List RoomId}

theorem tail (h : Ticking elapsed (roomId :: rest) s) : Ticking elapsed rest s :=
  ⟨h.wf, h.clocked, h.nodup.of_cons, fun hgo room hroom hmem => h.due hgo room hroom (List.mem_cons_of_mem _ hmem)⟩

theorem of_stand (h : Ticking elapsed rest s) (hwf : Wf t) (hstand : ClocksStand s t) : Ticking elapsed rest t := by
  have hnow := hstand.now
  refine ⟨hwf, hstand.clocked h.clocked, h.nodup, ?_⟩
  intro hgo room hroom hmem time htime
  obtain ⟨old, hold, hid, hclock⟩ := hstand.rooms room hroom
  rw [hstand.created, hid] at htime
  have hbound := h.due hgo old hold (hid ▸ hmem) time htime
  obtain ⟨_, _, _, hpos, _⟩ := h.clocked.behind old hold
  rcases hclock with hclock | hclock
  · rw [hclock]
    omega
  · rw [hclock]
    omega

/-- The room ticks. -/
theorem ticked (h : Ticking elapsed (roomId :: rest) s) (hgo : kTargetFrameMs ≤ elapsed)
    (hwf : Wf t) {room : Room} {game : Match} (hfind : s.rooms.findRoom roomId = some room)
    (hticked : room.game.tick elapsed = .ok game)
    (ht : t.rooms = s.rooms.modifyRoom roomId ({ · with game }) ∧ t.journal = s.journal ∧ t.now = s.now ∧
      t.lastTick = s.now) : Ticking elapsed rest t := by
  obtain ⟨hrooms, hjournal, hnow, htick⟩ := ht
  obtain ⟨hmem, rfl⟩ := findRoom_some hfind
  have hclock : game.state.clockMs = room.clockMs + elapsed := Match.tick_clockMs hticked
  have hcreated : ∀ roomId, t.createdAt roomId = s.createdAt roomId := by
    intro roomId
    rw [createdAt, hjournal, createdAt]
  have hold := h.clocked.ticked
  have hpositive : (16 : Int) ≤ elapsed := hgo
  refine ⟨hwf, ⟨by rw [htick, hnow], ?_, ?_⟩, h.nodup.of_cons, ?_⟩
  · intro other hnext
    rw [hcreated]
    rw [hrooms] at hnext
    exact h.clocked.unborn other hnext
  · intro other hother
    rw [hrooms] at hother
    obtain ⟨old, holdmem, rfl⟩ := mem_modifyRoom hother
    obtain ⟨time, htime, hborn, hpos, hbehind⟩ := h.clocked.behind old holdmem
    refine ⟨time, ?_, by rw [hnow]; exact hborn, ?_⟩
    · rw [hcreated]
      split <;> exact htime
    · rw [htick]
      split
      · rename_i heq
        obtain rfl := List.inj_on_of_nodup_map h.wf.rooms holdmem hmem heq
        have hbound := h.due hgo old hmem List.mem_cons_self time htime
        change 0 ≤ game.state.clockMs ∧ (game.state.clockMs = 0 ∨ game.state.clockMs * 10 ^ 6 + time ≤ s.now)
        rw [hclock]
        exact ⟨by omega, .inr (by omega)⟩
      · exact ⟨hpos, by omega⟩
  · intro _ other hother hrest time htime
    rw [hrooms] at hother
    obtain ⟨old, holdmem, rfl⟩ := mem_modifyRoom hother
    have hne : old.id ≠ room.id := by
      intro heq
      rw [if_pos heq] at hrest
      exact (List.nodup_cons.mp h.nodup).1 (heq ▸ hrest)
    rw [if_neg hne] at hrest htime ⊢
    rw [hcreated] at htime
    rw [hnow]
    exact h.due hgo old holdmem (List.mem_cons_of_mem _ hrest) time htime

end Ticking

/-! ### The ticks -/

/-- What holds between the rounds of the handlers. -/
def Timed (s : Server) : Prop := Wf s ∧ Clocked s

/-- The property is guaranteed whenever an operation is asked for. -/
abbrev Behind (s : Server) (_ : NetEvent ⊕ ServerOp) : Prop := ClocksBehind s

theorem stable_timed : Stable TicksKnownRooms Timed :=
  fun s event h _ => ⟨h.1.occur event, (ClocksStand.occur s event).clocked h.2⟩

theorem keeps_timed {op : ServerOp} (hop : ∀ roomId elapsed, op ≠ .tickRoom roomId elapsed) :
    Keeps config TicksKnownRooms Behind Timed op := by
  intro s h
  obtain ⟨hwf, hclocked⟩ := h
  refine ⟨hclocked.clocksBehind, fun r s' _ happly => ?_⟩
  obtain ⟨t, hstep, hsame⟩ := apply_step hwf.nextRoomFree happly
  exact ⟨hwf.apply happly, (ClocksStand.of_bare hsame).clocked (hclocked.step hwf hop hstep)⟩

section Tick

variable {elapsed : Int} {rest : List RoomId}

theorem stable_ticking : Stable TicksKnownRooms (Ticking elapsed rest) :=
  fun s event h _ => h.of_stand (h.wf.occur event) (.occur s event)

theorem keeps_ticking {op : ServerOp} (hop : InRoom op) :
    Keeps config TicksKnownRooms Behind (Ticking elapsed rest) op := by
  intro s h
  refine ⟨h.clocked.clocksBehind, fun r s' _ happly => ?_⟩
  obtain ⟨t, hstep, hsame⟩ := apply_step h.wf.nextRoomFree happly
  have hstand := ClocksStand.of_inRoom h.wf hop hstep
  exact (h.of_stand (h.wf.step hstep) hstand).of_stand (h.wf.apply happly) (.of_bare hsame)

theorem finish_timed {winner : Option PieceColor} {reason : FinishReason} (h : Ticking elapsed rest s) :
    (perform config (.finish roomId winner reason)).wp TicksKnownRooms Behind
      (fun _ s' => Ticking elapsed rest s') s :=
  perform_wp stable_ticking (keeps_ticking trivial) h

theorem playInputs_timed (h : Ticking elapsed rest s) :
    (playInputs config roomId).wp TicksKnownRooms Behind (fun _ s' => Ticking elapsed rest s') s := by
  refine playInputs_wp h fun _ _ _ => ?_
  refine Prog.wp_mono (perform_wp stable_ticking (keeps_ticking trivial) h) fun _ s h => ?_
  exact ⟨h, fun _ _ => finish_timed h⟩

theorem tickRoom_timed (hgo : kTargetFrameMs ≤ elapsed) (h : Ticking elapsed (roomId :: rest) s) :
    (perform config (.tickRoom roomId elapsed)).wp TicksKnownRooms Behind (fun _ s' => Ticking elapsed rest s') s := by
  refine perform_wp stable_ticking ?_ h
  intro s h
  refine ⟨h.clocked.clocksBehind, fun r s' _ happly => ?_⟩
  obtain ⟨t, hstep, hsame⟩ := apply_step h.wf.nextRoomFree happly
  suffices hticked : Ticking elapsed rest t from hticked.of_stand (h.wf.apply happly) (.of_bare hsame)
  have hwf := h.wf.step hstep
  cases hstep with
  | idle _ => exact h.tail
  | tick hfind hticked => exact h.ticked hgo hwf hfind hticked ⟨rfl, rfl, rfl, rfl⟩

theorem playRoom_timed {room : Room} (h : Ticking elapsed (room.id :: rest) s) :
    (playRoom config room elapsed).wp TicksKnownRooms Behind (fun _ s' => Ticking elapsed rest s') s :=
  playRoom_wp h.tail (fun hgo => tickRoom_timed hgo h) (fun _ h => playInputs_timed h)
    (fun _ h => finishIfOver_wp h fun _ _ _ => finish_timed h)

theorem processRoom_timed (h : Ticking elapsed (roomId :: rest) s) :
    (processRoom config elapsed roomId).wp TicksKnownRooms Behind (fun _ s' => Ticking elapsed rest s') s := by
  refine processRoom_wp (J := Ticking elapsed (roomId :: rest)) (P := Ticking elapsed (roomId :: rest)) stable_ticking
    (fun _ h => h.tail) ?_ (fun _ _ _ h _ => finish_timed h.tail) (fun _ _ _ _ h _ => finish_timed h.tail) ?_ h
  · intro s h
    have hbare := probeRoom_bare s roomId
    exact ⟨h.clocked.clocksBehind, fun _ => h.of_stand (h.wf.congr hbare) (.of_bare hbare)⟩
  · intro s room hroom _ h
    obtain ⟨-, rfl⟩ := findRoom_some hroom
    exact playRoom_timed h

end Tick

/-- A tick begins, and takes every active room as far as to now at most. -/
theorem ticking_of_timed (config : ServerConfig) (h : Timed s) (hknown : TicksKnownRooms s (.inr .readClock)) :
    Ticking (elapsedMs s.now s.lastTick) (s.activeRooms config) s := by
  obtain ⟨hwf, hclocked⟩ := h
  have hticked := hclocked.ticked
  have hactive : (s.activeRooms config).Perm ((s.rooms.rooms.filter (·.active)).map (·.id)) := config.roomOrder_perm _
  have htrunc : elapsedMs s.now s.lastTick * 10 ^ 6 ≤ (s.now : Int) - s.lastTick := by
    unfold elapsedMs
    rw [Int.tdiv_eq_ediv_of_nonneg (by omega)]
    omega
  refine ⟨hwf, hclocked, ?_, ?_⟩
  · rw [hactive.nodup_iff]
    exact hwf.rooms.sublist (List.filter_sublist.map _)
  · intro hgo room hroom hmem time htime
    obtain ⟨other, hother, hid⟩ := List.mem_map.mp (hactive.mem_iff.mp hmem)
    obtain ⟨hothermem, hotheractive⟩ := List.mem_filter.mp hother
    obtain rfl := List.inj_on_of_nodup_map hwf.rooms hothermem hroom hid
    obtain ⟨time', htime', -, -, hclock⟩ := hclocked.behind other hroom
    rw [htime] at htime'
    cases htime'
    rcases hclock with hclock | hclock
    · have hborn := hknown hgo other hroom hotheractive time htime
      rw [hclock]
      omega
    · omega

theorem runtimeTick_timed (managesConnections : Bool) (h : Timed s) :
    (runtimeTick config managesConnections).wp TicksKnownRooms Behind (fun _ s' => Timed s') s :=
  runtimeTick_wp (J := Ticking) stable_timed (fun _ => keeps_timed (by simp)) (fun _ => keeps_timed (by simp))
    (fun _ h => ⟨h.2.clocksBehind, ticking_of_timed config h⟩) (fun _ _ _ _ h => processRoom_timed h)
    (fun _ _ h => ⟨h.wf, h.clocked⟩) (keeps_timed (by simp)) (fun _ => keeps_timed (by simp))
    (fun _ _ => keeps_timed (by simp)) h

theorem gatewayTick_timed (h : Timed s) :
    (gatewayTick config).wp TicksKnownRooms Behind (fun _ s' => Timed s') s :=
  gatewayTick_wp stable_timed (keeps_timed (by simp)) (fun _ => keeps_timed (by simp)) (keeps_timed (by simp))
    (keeps_timed (by simp)) (fun _ => keeps_timed (by simp)) h

theorem serve_timed (calls : List ServerCall) (h : Timed s) :
    (serve config calls).wp TicksKnownRooms Behind (fun _ s' => Timed s') s :=
  serve_wp stable_timed (fun _ h => gatewayTick_timed h)
    (fun managesConnections _ h => runtimeTick_timed managesConnections h) (fun _ => keeps_timed (by simp))
    (fun _ _ _ => keeps_timed (by simp)) calls h

/-- If no tick goes on for longer than an active room has been there, no clock is ever ahead. -/
theorem clocks_behind_of_run {calls : List ServerCall} {users : UserRepository} {games : GameRepository} {now : Nat}
    {script : List (List NetEvent)} {w : ServerWorld config}
    (hrun : (serve config calls).run { state := boot users games now, script } = .ok ((), w))
    (hknown : ∀ x ∈ w.history, TicksKnownRooms x.1 x.2) :
    ClocksBehind w.state ∧ ∀ x ∈ w.history, ∀ op, x.2 = .inr op → ClocksBehind x.1 := by
  have hstart : Timed (boot users games now) :=
    ⟨.boot users games now, le_rfl, fun _ _ => rfl, by simp [boot]⟩
  obtain ⟨htimed, hhistory⟩ := Prog.run_of_wp (serve_timed calls hstart) hrun hknown
  refine ⟨htimed.2.clocksBehind, ?_⟩
  intro x hx op hop
  rcases hhistory x hx with hx | ⟨event, hevent⟩ | hbehind
  · cases hx
  · rw [hevent] at hop
    cases hop
  · exact hbehind

/-- A game is made while no time passes, and ticks 20 ms later. -/
theorem clocks_behind_of_run_ticked :
    ∃ w, (serve sampleConfig (List.replicate 5 .gameServerTick)).run
        (sampleWorld (untilGame ++ [[.pass 20000000]])) = .ok ((), w) ∧
      (∃ room ∈ w.state.rooms.rooms, room.active = true ∧ room.clockMs = 20) ∧ ClocksBehind w.state := by
  have hrun : (serve sampleConfig (List.replicate 5 .gameServerTick)).reaches
      (sampleWorld (untilGame ++ [[.pass 20000000]]))
      (fun _ w => decide ((∃ room ∈ w.state.rooms.rooms, room.active = true ∧ room.clockMs = 20) ∧
        ∀ x ∈ w.history, TicksKnownRooms x.1 x.2)) = true := by
    decide +kernel
  obtain ⟨_, w, hrun, hw⟩ := Prog.reaches_eq_true hrun
  obtain ⟨hroom, hknown⟩ := of_decide_eq_true hw
  exact ⟨w, hrun, hroom, (clocks_behind_of_run hrun hknown).1⟩

/-- The players ask for a game a second after the server has started: the room is made, and its clock shows a
second at once. -/
theorem not_clocks_behind_after_idle :
    ∃ w, (serve sampleConfig (List.replicate 4 .gameServerTick)).run
        (sampleWorld ([[.connect, .connect]] ++ quiet 18 ++ [[say 0 "login ann x", say 1 "login bob y"]] ++ quiet 10 ++
          [[.pass 1000000000, say 0 "play", say 1 "play"]])) = .ok ((), w) ∧
      ¬ClocksBehind w.state := by
  have hrun : (serve sampleConfig (List.replicate 4 .gameServerTick)).reaches
      (sampleWorld ([[.connect, .connect]] ++ quiet 18 ++ [[say 0 "login ann x", say 1 "login bob y"]] ++ quiet 10 ++
        [[.pass 1000000000, say 0 "play", say 1 "play"]]))
      (fun _ w => decide (∃ room ∈ w.state.rooms.rooms, room.active = true ∧ room.clockMs = 1000 ∧
        w.state.createdAt room.id = some 1000000000 ∧ w.state.now = 1000000000)) = true := by
    decide +kernel
  obtain ⟨_, w, hrun, hw⟩ := Prog.reaches_eq_true hrun
  obtain ⟨room, hroom, hactive, hclock, hcreated, hnow⟩ := of_decide_eq_true hw
  refine ⟨w, hrun, ?_⟩
  intro hbehind
  obtain ⟨time, htime, hbound⟩ := hbehind room hroom hactive
  rw [hcreated] at htime
  cases htime
  rw [hclock, hnow] at hbound
  omega

end Server

end KungFuChess
