import KungFuChess.Lib.Alternation
import KungFuChess.Proof.Reading

/-!
# Who gets the lobby's messages

In one turn of the monolith two handlers go through the sessions. The lobby reads from those that do not play,
the join handler from those that have no room, and these are the same sessions: whoever does not play has no
room. So the two take turns at every connection of the lobby, and what comes in as every second message is
read by the join handler, which drops what is no `join_game`. A message that is meant for the lobby gets there
if it comes in at the right place.
-/

namespace KungFuChess

open Machine Alternation

namespace Server

variable {config : ServerConfig} {s s' t : Server} {id : PlayerId} {roomId : RoomId} {op : ServerOp}

/-! ### Messages for the lobby -/

/-- A login or a request to play. -/
def isLobbyMessage : FrameContent → Bool
  | .text message => (parseLoginMessage message).isSome || parsePlayMessage message
  | .close => false

/-- One that has come in while the session was `Connected`. -/
def isLobbyFrame (frame : Frame) : Bool := frame.arrivedIn = .connected && isLobbyMessage frame.content

/-- How many frames are read off a connection before the lobby reads the next one. -/
def readsBefore (connection : ClientConnection) : Nat := if connection.lastReader = some .lobby then 1 else 0

/-- No message for the lobby is among these. -/
def NoneForLobby (frames : List Frame) : Prop := ∀ frame ∈ frames, isLobbyFrame frame = false

instance (frames : List Frame) : Decidable (NoneForLobby frames) :=
  inferInstanceAs (Decidable (∀ frame ∈ frames, isLobbyFrame frame = false))

/-- A message for the lobby comes in at a place that the lobby reads, and no session begins to play while it has
one that has not been read. -/
def Timely (config : ServerConfig) (s : Server) : NetEvent ⊕ ServerOp → Prop
  | .inl (.deliver id content) => isLobbyMessage content = true → ∀ x ∈ s.findSession id,
      x.connection.isOpen = true → x.state = .connected →
      (x.connection.pending.length + readsBefore x.connection) % 2 = 0
  | .inr (.lobby id) => ∀ entry ∈ nextPartner config s id,
      (∀ x ∈ s.findSession entry.session, NoneForLobby x.connection.pending) ∧
      ∀ x ∈ s.findSession id, NoneForLobby x.connection.pending.tail
  | .inr (.join id) => ∀ x ∈ s.findSession id, x.hasRoom = false → ∀ message ∈ (s.tryRead .join id).1,
      ∀ roomId ∈ parseJoinGameMessage message, ∀ room ∈ s.rooms.findRoom roomId, room.active = true →
      ∀ userId ∈ x.userId, room.containsPlayer userId = true → NoneForLobby x.connection.pending.tail
  | _ => True

instance (config : ServerConfig) (s : Server) : (x : NetEvent ⊕ ServerOp) → Decidable (Timely config s x)
  | .inl (.deliver id _) => inferInstanceAs (Decidable (_ → ∀ x ∈ s.findSession id, _ → _ → _))
  | .inr (.lobby id) => inferInstanceAs (Decidable (∀ entry ∈ nextPartner config s id,
      (∀ x ∈ s.findSession entry.session, _) ∧ ∀ x ∈ s.findSession id, _))
  | .inr (.join id) =>
      inferInstanceAs (Decidable (∀ x ∈ s.findSession id, _ → ∀ message ∈ (s.tryRead .join id).1,
        ∀ roomId ∈ parseJoinGameMessage message, ∀ room ∈ s.rooms.findRoom roomId, _ → ∀ userId ∈ x.userId, _ → _))
  | .inl .connect | .inl (.setLink _ _) | .inl (.pass _) | .inr .acceptNewClients | .inr .processTimeouts
  | .inr .pruneDisconnected | .inr (.prune _) | .inr (.allocate _) | .inr .readClock | .inr (.probeRoom _)
  | .inr (.tickRoom _ _) | .inr (.playRoomInputs _) | .inr (.finish _ _ _) | .inr .removeInactiveRooms =>
      isTrue trivial

/-! ### Who begins to play -/

/-- The operation puts this session into a game. -/
def Starts (config : ServerConfig) (s : Server) : ServerOp → PlayerId → Prop
  | .lobby other, id => ∃ entry, nextPartner config s other = some entry ∧ (id = entry.session ∨ id = other)
  | .join other, id => id = other ∧ ∃ x roomId side, x.id = id ∧ MayJoin s x roomId side
  | _, _ => False

/-- What an operation makes of a session, connections apart. Nobody ever stops playing, not even when the game is
over. -/
structure Moves (config : ServerConfig) (s : Server) (op : ServerOp) (x y : SessionData) : Prop where
  id : y.id = x.id
  stays : x.state = .playing → y.state = .playing
  room : (x.state ≠ .playing → x.roomId = none) → y.state ≠ .playing → y.roomId = none
  starts : x.state ≠ .playing → y.state = .playing → Starts config s op x.id

namespace Moves

variable {x y z : SessionData}

theorem of_eq (hid : y.id = x.id) (hstate : y.state = .playing ↔ x.state = .playing)
    (hroom : x.roomId = none → y.roomId = none) : Moves config s op x y :=
  ⟨hid, hstate.mpr, fun hx hy => hroom (hx (fun h => hy (hstate.mpr h))), fun hx hy => absurd (hstate.mp hy) hx⟩

theorem refl (x : SessionData) : Moves config s op x x := of_eq rfl Iff.rfl fun h => h

theorem requestPlay (x : SessionData) : Moves config s op x x.requestPlay := by
  unfold SessionData.requestPlay
  split
  · rename_i hconnected
    exact of_eq rfl (by simp [hconnected.1]) fun h => h
  · exact refl x

theorem cancelSearch (x : SessionData) : Moves config s op x x.cancelSearch := by
  unfold SessionData.cancelSearch
  split
  · rename_i hsearching
    exact of_eq rfl (by simp [hsearching]) fun h => h
  · exact refl x

theorem playSide (hstarts : Starts config s op x.id) (roomId : RoomId) (side : PieceColor) :
    Moves config s op x (Server.playSide roomId side x) :=
  ⟨rfl, fun _ => rfl, fun _ hstate => absurd rfl hstate, fun _ _ => hstarts⟩

theorem leave (player : FinishedPlayerState) (x : SessionData) : Moves config s op x (player.leave x) := by
  unfold FinishedPlayerState.leave FinishedPlayerState.release
  split
  · cases player.profile with
    | none => exact of_eq rfl Iff.rfl fun _ => rfl
    | some profile => exact of_eq rfl Iff.rfl fun _ => rfl
  · exact refl x

theorem trans (h : Moves config s op x y) (h' : Moves config s op y z) : Moves config s op x z := by
  refine ⟨h'.id.trans h.id, fun hx => h'.stays (h.stays hx), fun hx hz => ?_, fun hx hz => ?_⟩
  · have hy : y.state ≠ .playing := fun hy => hz (h'.stays hy)
    exact h'.room (fun _ => h.room hx hy) hz
  · by_cases hy : y.state = .playing
    · exact h.starts hx hy
    · have hstarts := h'.starts hy hz
      rw [h.id] at hstarts
      exact hstarts

end Moves

theorem moves_of_map {f : SessionData → SessionData} (hdata : t.data = s.data.map f)
    (hf : ∀ x ∈ s.data, Moves config s op x (f x)) : ∀ y ∈ t.data, ∃ x ∈ s.data, Moves config s op x y := by
  intro y hy
  rw [hdata] at hy
  obtain ⟨x, hx, rfl⟩ := List.mem_map.mp hy
  exact ⟨x, hx, hf x hx⟩

theorem LobbyStep.moves (h : LobbyStep config s id t) :
    ∀ y ∈ t.data, ∃ x ∈ s.data, Moves config s (.lobby id) x y := by
  have hsearching : ∀ waiting, ∀ y ∈ (s.searching id waiting).data, ∃ x ∈ s.data, Moves config s (.lobby id) x y := by
    intro waiting
    refine moves_of_map (data_searching ..) fun x _ => ?_
    split
    · exact .requestPlay x
    · exact .refl x
  cases h with
  | idle => exact fun y hy => ⟨y, hy, .refl y⟩
  | login _ _ _ _ _ _ _ _ =>
      refine moves_of_map (data_loggedIn ..) fun x _ => ?_
      split
      · exact .of_eq rfl Iff.rfl fun h => h
      · exact .refl x
  | wait _ _ => exact hsearching _
  | @pair _ _ before after entry _ _ _ _ _ hchosen _ _ _ _ =>
      intro z hz
      rw [data_matched] at hz
      obtain ⟨y, hy, rfl⟩ := List.mem_map.mp hz
      obtain ⟨x, hx, hmoves⟩ := hsearching _ y hy
      refine ⟨x, hx, hmoves.trans ?_⟩
      unfold taken
      split
      · rename_i heq
        have hstarts : Starts config s (.lobby id) y.id := ⟨entry, hchosen, .inr heq⟩
        exact .playSide hstarts _ _
      · split
        · rename_i heq
          have hstarts : Starts config s (.lobby id) y.id := ⟨entry, hchosen, .inl heq⟩
          exact .playSide hstarts _ _
        · exact .refl y

theorem OpStep.moves (h : OpStep config s op t) (hop : op ≠ .acceptNewClients) :
    ∀ y ∈ t.data, ∃ x ∈ s.data, Moves config s op x y := by
  have hsame : ∀ y ∈ s.data, ∃ x ∈ s.data, Moves config s op x y := fun y hy => ⟨y, hy, .refl y⟩
  cases h with
  | idle _ => exact hsame
  | accept _ _ _ => exact absurd rfl hop
  | lobby hlobby => exact hlobby.moves
  | timeouts =>
      refine moves_of_map (data_timedOut ..) fun x _ => ?_
      unfold cancelSearches
      split
      · exact .cancelSearch x
      · exact .refl x
  | prune _ =>
      intro y hy
      rw [data_pruned] at hy
      exact ⟨y, List.mem_of_mem_filter hy, .refl y⟩
  | @join x roomId side hmay =>
      refine moves_of_map (data_modifyData ..) fun z _ => ?_
      split
      · rename_i heq
        have hstarts : Starts config s (.join x.id) z.id := ⟨heq, x, roomId, side, heq.symm, hmay⟩
        exact .playSide hstarts _ _
      · exact .refl z
  | allocate _ _ => exact hsame
  | tick _ _ => exact hsame
  | inputs _ _ => exact hsame
  | finish _ _ => exact moves_of_map (data_finished ..) fun x _ => (Moves.leave _ x).trans (.leave _ _)
  | removeInactive => exact hsame

/-- Every session after an operation was there before, or it has just been accepted. -/
theorem Wf.session_step (hwf : Wf s) {r : op.Result} (happly : s.apply config op = .ok (r, s')) :
    ∀ y ∈ s'.sessions, (∃ x ∈ s.sessions, ∃ taken, ReadBy op x y taken ∧
      Moves config s op x.toSessionData y.toSessionData) ∨
      op = .acceptNewClients ∧ y = { id := s.nextSessionId } := by
  intro y hy
  by_cases hop : op = .acceptNewClients
  · subst hop
    cases happly
    have hold : y ∈ s.sessions → ∃ x ∈ s.sessions, ∃ taken, ReadBy .acceptNewClients x y taken ∧
        Moves config s .acceptNewClients x.toSessionData y.toSessionData := by
      intro hy
      refine ⟨y, hy, [], ⟨rfl, (ClientConnection.Unread.refl _).took, by simp, fun _ _ => rfl, ?_⟩, .refl _⟩
      exact fun _ hreader => by cases hreader
    rcases acceptNewClients_cases config s with hidle | ⟨-, -, backlog, haccept⟩
    · rw [hidle] at hy
      exact .inl (hold hy)
    · rw [haccept] at hy
      rcases List.mem_append.mp hy with hy | hy
      · exact .inl (hold hy)
      · exact .inr ⟨rfl, List.mem_singleton.mp hy⟩
  · left
    obtain ⟨t, hstep, hsame⟩ := apply_step hwf.nextRoomFree happly
    obtain ⟨x, hx, taken, hread⟩ := Reads.of_apply hop hwf.sessions happly y hy
    have hdata : y.toSessionData ∈ t.data := by
      rw [← data_eq_of_bare hsame]
      exact List.mem_map_of_mem hy
    obtain ⟨x', hx', hmoves⟩ := hstep.moves hop _ hdata
    obtain rfl : x' = x.toSessionData :=
      hwf.eq_of_id hx' (List.mem_map_of_mem hx) (hmoves.id.symm.trans hread.id)
    exact ⟨x, hx, taken, hread, hmoves⟩

/-! ### Taking turns -/

/-- Whether the lobby has read from a session last, if it is in the lobby, and that its messages for the lobby are
where the lobby reads them. -/
structure InTurn (heard : Prop) (x : PlayerSession) : Prop where
  room : x.state ≠ .playing → x.roomId = none
  reader : x.connection.isOpen = true → x.state ≠ .playing → (x.connection.lastReader = some .lobby ↔ heard)
  spaced : x.connection.isOpen = true → x.state ≠ .playing →
    Spaced isLobbyFrame (readsBefore x.connection) x.connection.pending
  playing : x.connection.isOpen = true → x.state = .playing → NoneForLobby x.connection.pending

/-- How an operation changes which sessions the lobby has heard and the join handler has not. -/
def Hears (heard heard' : PlayerId → Prop) : ServerOp → Prop
  | .lobby id => ¬heard id ∧ ∀ other, heard' other ↔ other = id ∨ heard other
  | .join id => heard id ∧ ∀ other, heard' other ↔ other ≠ id ∧ heard other
  | .acceptNewClients => (∀ other, ¬heard other) ∧ ∀ other, heard' other ↔ heard other
  | _ => ∀ other, heard' other ↔ heard other

theorem NoneForLobby.of_suffix {frames rest taken : List Frame} (h : NoneForLobby frames) (heq : frames = taken ++ rest) :
    NoneForLobby rest := by
  intro frame hframe
  apply h
  rw [heq]
  exact List.mem_append_right _ hframe

namespace ReadBy

variable {x y : PlayerSession} {taken : List Frame} {reader : Reader}

theorem pending_tail (h : ReadBy op x y taken) (hreader : passReader op = some reader) (hpolls : Polls op x)
    (hopen : y.connection.isOpen = true) : y.connection.pending = x.connection.pending.tail := by
  obtain ⟨htaken, -, -⟩ := (h.once reader hreader).2 hpolls hopen
  have hpending := h.took.pending
  rw [htaken] at hpending
  nth_rewrite 1 [← List.take_append_drop 1 x.connection.pending] at hpending
  rw [← List.append_cancel_left hpending, List.drop_one]

theorem pending_same (h : ReadBy op x y taken) (hskipped : ¬Polls op x) : y.connection.pending = x.connection.pending := by
  have htaken : taken = [] := by
    by_contra hne
    exact hskipped (h.polled hne)
  rw [h.took.pending, htaken, List.nil_append]

end ReadBy

/-- Where a session begins to play, nothing for the lobby is left behind. -/
theorem Timely.noneForLobby (hwf : Wf s) (h : Timely config s (.inr op)) {x y : PlayerSession} {taken : List Frame}
    (hx : x ∈ s.sessions) (hread : ReadBy op x y taken) (hstate : x.state ≠ .playing) (hroom : x.roomId = none)
    (hopen : y.connection.isOpen = true) (hstarts : Starts config s op x.id) :
    NoneForLobby y.connection.pending := by
  have hopenx := hread.took.isOpen hopen
  cases op with
  | lobby other =>
      obtain ⟨entry, hchosen, hid | rfl⟩ := hstarts
      · have hnone := (h entry hchosen).1 x (by rw [← hid]; exact hwf.findSession hx)
        exact hnone.of_suffix hread.took.pending
      · rw [hread.pending_tail rfl ⟨rfl, hopenx, hstate⟩ hopen]
        exact (h entry hchosen).2 x (hwf.findSession hx)
  | join other =>
      obtain ⟨rfl, x', roomId, side, hid, hmay⟩ := hstarts
      obtain rfl : x' = x.toSessionData := hwf.eq_of_id hmay.mem (List.mem_map_of_mem hx) hid
      have hno : x.hasRoom = false := by simp [SessionData.hasRoom, hroom]
      obtain ⟨message, hmessage, hparse⟩ := hmay.asks
      obtain ⟨room, player, hplays, huser⟩ := hmay.plays
      rw [hread.pending_tail rfl ⟨rfl, hopenx, hno⟩ hopen]
      exact h x (hwf.findSession hx) hno message hmessage roomId hparse room hplays.find hplays.active
        player.userId huser (hplays.containsPlayer)
  | _ => exact hstarts.elim

theorem readsBefore_heard {connection : ClientConnection} (h : connection.lastReader = some .lobby) :
    readsBefore connection = 1 := if_pos h

theorem readsBefore_unheard {connection : ClientConnection} (h : connection.lastReader ≠ some .lobby) :
    readsBefore connection = 0 := if_neg h

namespace InTurn

variable {heard heard' : PlayerId → Prop} {x y : PlayerSession} {taken : List Frame}

theorem congr (h : InTurn (heard x.id) x) (hsame : heard' x.id ↔ heard x.id) : InTurn (heard' x.id) x := by
  rw [propext hsame]
  exact h

/-- A session that is in the lobby after an operation, and was not read from. -/
theorem skipped (h : InTurn (heard x.id) x) (hread : ReadBy op x y taken) (hskipped : ¬Polls op x)
    (hopen : y.connection.isOpen = true) (hstate : x.state ≠ .playing) :
    (y.connection.lastReader = some .lobby ↔ heard x.id) ∧
      Spaced isLobbyFrame (readsBefore y.connection) y.connection.pending := by
  have hlast := hread.skipped hskipped hopen
  have hopenx := hread.took.isOpen hopen
  unfold readsBefore
  rw [hlast, hread.pending_same hskipped]
  exact ⟨h.reader hopenx hstate, h.spaced hopenx hstate⟩

/-- A session that is in the lobby keeps its turn. -/
theorem lobby_step (h : InTurn (heard x.id) x) (hread : ReadBy op x y taken) (hhears : Hears heard heard' op)
    (hopen : y.connection.isOpen = true) (hstate : x.state ≠ .playing) :
    (y.connection.lastReader = some .lobby ↔ heard' x.id) ∧
      Spaced isLobbyFrame (readsBefore y.connection) y.connection.pending := by
  have hopenx := hread.took.isOpen hopen
  have hreader := h.reader hopenx hstate
  have hspaced := h.spaced hopenx hstate
  have hsame : ¬Polls op x → (heard' x.id ↔ heard x.id) → (y.connection.lastReader = some .lobby ↔ heard' x.id) ∧
      Spaced isLobbyFrame (readsBefore y.connection) y.connection.pending := by
    intro hskipped hsame
    rw [hsame]
    exact h.skipped hread hskipped hopen hstate
  cases op with
  | lobby id =>
      obtain ⟨hunheard, hheard⟩ := hhears
      by_cases hid : x.id = id
      · have hpolls : Polls (.lobby id) x := ⟨hid, hopenx, hstate⟩
        obtain ⟨-, -, hlast⟩ := (hread.once .lobby rfl).2 hpolls hopen
        rw [← hid, ← hreader] at hunheard
        rw [readsBefore_unheard hunheard] at hspaced
        rw [readsBefore_heard hlast, hread.pending_tail rfl hpolls hopen]
        exact ⟨iff_of_true hlast ((hheard x.id).mpr (.inl hid)), hspaced.take_first⟩
      · refine hsame (fun hpolls => hid hpolls.1) ?_
        rw [hheard]
        simp [hid]
  | join id =>
      obtain ⟨hisheard, hheard⟩ := hhears
      by_cases hid : x.id = id
      · have hpolls : Polls (.join id) x := ⟨hid, hopenx, by simp [SessionData.hasRoom, h.room hstate]⟩
        obtain ⟨-, -, hlast⟩ := (hread.once .join rfl).2 hpolls hopen
        have hnot : y.connection.lastReader ≠ some .lobby := by simp [hlast]
        rw [← hid, ← hreader] at hisheard
        rw [readsBefore_heard hisheard] at hspaced
        rw [readsBefore_unheard hnot, hread.pending_tail rfl hpolls hopen]
        exact ⟨iff_of_false hnot fun hother => ((hheard x.id).mp hother).1 hid, hspaced.take_second⟩
      · refine hsame (fun hpolls => hid hpolls.1) ?_
        rw [hheard]
        simp [hid]
  | acceptNewClients => exact hsame (fun hpolls => hpolls) (hhears.2 x.id)
  | playRoomInputs roomId => exact hsame (fun hpolls => hstate hpolls.2) (hhears x.id)
  | _ => exact hsame (fun hpolls => hpolls) (hhears x.id)

theorem step (h : InTurn (heard x.id) x) (hwf : Wf s) (hx : x ∈ s.sessions) (hread : ReadBy op x y taken)
    (hmoves : Moves config s op x.toSessionData y.toSessionData) (hhears : Hears heard heard' op)
    (htimely : Timely config s (.inr op)) : InTurn (heard' y.id) y := by
  have hstays : y.state ≠ .playing → x.state ≠ .playing := fun hy hx => hy (hmoves.stays hx)
  rw [hread.id]
  refine ⟨hmoves.room h.room, ?_, ?_, ?_⟩
  · exact fun hopen hstate => (h.lobby_step hread hhears hopen (hstays hstate)).1
  · exact fun hopen hstate => (h.lobby_step hread hhears hopen (hstays hstate)).2
  · intro hopen hplays
    by_cases hstate : x.state = .playing
    · exact (h.playing (hread.took.isOpen hopen) hstate).of_suffix hread.took.pending
    · exact htimely.noneForLobby hwf hx hread hstate (h.room hstate) hopen (hmoves.starts hstate hplays)

/-- A session that has just been accepted. -/
theorem fresh (id : PlayerId) {heard : Prop} (h : ¬heard) : InTurn heard { id } := by
  have hspaced : Spaced isLobbyFrame (readsBefore {}) [] := spaced_of_none (by simp)
  exact ⟨fun _ => rfl, fun _ _ => iff_of_false (by simp) h, fun _ _ => hspaced, fun _ hstate => by cases hstate⟩

/-- A frame comes in. -/
theorem deliver {content : FrameContent} {heard : Prop} (h : InTurn heard x)
    (htimely : isLobbyMessage content = true → x.connection.isOpen = true → x.state = .connected →
      (x.connection.pending.length + readsBefore x.connection) % 2 = 0) :
    InTurn heard { x with connection.pending := x.connection.pending ++ [⟨content, x.state⟩] } := by
  refine ⟨h.room, h.reader, ?_, ?_⟩
  · intro hopen hstate
    refine (h.spaced hopen hstate).concat ?_
    intro hlobby
    obtain ⟨hconnected, hmessage⟩ := Bool.and_eq_true_iff.mp hlobby
    exact htimely hmessage hopen (of_decide_eq_true hconnected)
  · intro hopen hstate frame hframe
    have hplaying : x.state = .playing := hstate
    rcases List.mem_append.mp hframe with hframe | hframe
    · exact h.playing hopen hstate frame hframe
    · rw [List.mem_singleton.mp hframe]
      simp [isLobbyFrame, hplaying]

end InTurn

/-- What holds of all sessions while some have been heard. -/
structure Listening (heard : PlayerId → Prop) (s : Server) : Prop where
  wf : Wf s
  inTurn : ∀ x ∈ s.sessions, InTurn (heard x.id) x

namespace Listening

variable {heard heard' : PlayerId → Prop}

theorem congr (h : Listening heard s) (hsame : ∀ id ∈ sessionIds s, heard' id ↔ heard id) : Listening heard' s :=
  ⟨h.wf, fun x hx => (h.inTurn x hx).congr (hsame x.id (List.mem_map_of_mem hx))⟩

theorem occur (h : Listening heard s) (event : NetEvent) (htimely : Timely config s (.inl event)) :
    Listening heard (s.occur event) := by
  refine ⟨h.wf.occur event, ?_⟩
  cases event with
  | connect => exact h.inTurn
  | pass duration => exact h.inTurn
  | setLink id link =>
      intro y hy
      obtain ⟨x, hx, rfl⟩ := List.mem_map.mp hy
      obtain ⟨hroom, hreader, hspaced, hplaying⟩ := h.inTurn x hx
      split
      · exact ⟨hroom, hreader, hspaced, hplaying⟩
      · exact ⟨hroom, hreader, hspaced, hplaying⟩
  | deliver id content =>
      intro y hy
      obtain ⟨x, hx, rfl⟩ := List.mem_map.mp hy
      split
      · rename_i hid
        refine (h.inTurn x hx).deliver fun hmessage => htimely hmessage x ?_
        rw [← hid]
        exact h.wf.findSession hx
      · exact h.inTurn x hx

theorem step (h : Listening heard s) {r : op.Result} (happly : s.apply config op = .ok (r, s'))
    (htimely : Timely config s (.inr op)) (hhears : Hears heard heard' op) : Listening heard' s' := by
  refine ⟨h.wf.apply happly, ?_⟩
  intro y hy
  rcases h.wf.session_step happly y hy with ⟨x, hx, taken, hread, hmoves⟩ | ⟨rfl, rfl⟩
  · exact (h.inTurn x hx).step h.wf hx hread hmoves hhears htimely
  · obtain ⟨hnobody, hsame⟩ := hhears
    refine InTurn.fresh _ fun hheard => ?_
    exact hnobody _ ((hsame _).mp hheard)

end Listening

/-! ### Nobody else reads them -/

/-- What an operation takes off a connection is not for the lobby, unless it is the round of the lobby for that
session. -/
def OnlyLobbyTakes (config : ServerConfig) (s : Server) : NetEvent ⊕ ServerOp → Prop
  | .inr op => ∀ r s', s.apply config op = .ok (r, s') → ∀ x ∈ s.sessions, ∀ y ∈ s'.sessions, y.id = x.id →
      ∃ taken, x.connection.pending = taken ++ y.connection.pending ∧ (NoneForLobby taken ∨ op = .lobby x.id)
  | .inl _ => True

theorem NoneForLobby.of_append {frames rest taken : List Frame} (h : NoneForLobby frames) (heq : frames = taken ++ rest) :
    NoneForLobby taken := by
  intro frame hframe
  apply h
  rw [heq]
  exact List.mem_append_left _ hframe

namespace Listening

variable {heard heard' : PlayerId → Prop}

theorem onlyLobbyTakes (h : Listening heard s) (hhears : Hears heard heard' op) :
    OnlyLobbyTakes config s (.inr op) := by
  intro r s' happly x hx y hy hid
  rcases h.wf.session_step happly y hy with ⟨x', hx', taken, hread, -⟩ | ⟨rfl, rfl⟩
  · obtain rfl : x' = x := List.inj_on_of_nodup_map h.wf.sessions hx' hx (hread.id.symm.trans hid)
    refine ⟨taken, hread.took.pending, ?_⟩
    by_cases hnone : taken = []
    · rw [hnone]
      exact .inl (by simp [NoneForLobby])
    · have hpolls := hread.polled hnone
      have hturn := h.inTurn x' hx'
      cases op with
      | lobby id => exact .inr (by rw [hpolls.1])
      | join id =>
          obtain ⟨hsession, hopen, -⟩ := hpolls
          left
          by_cases hstate : x'.state = .playing
          · exact (hturn.playing hopen hstate).of_append hread.took.pending
          · -- the lobby has read from this session last, so the join handler gets what is not for the lobby
            have hlast := (hturn.reader hopen hstate).mpr (hsession ▸ hhears.1)
            have hspaced := hturn.spaced hopen hstate
            rw [readsBefore_heard hlast] at hspaced
            intro frame hframe
            apply hspaced.head_second
            rw [hread.took.pending, List.take_append_of_le_length]
            · rw [List.take_of_length_le (hread.once .join rfl).1]
              exact hframe
            · exact List.length_pos_iff.mpr hnone
      | playRoomInputs roomId => exact .inl ((hturn.playing hpolls.1 hpolls.2).of_append hread.took.pending)
      | _ => exact hpolls.elim
  · have hold := h.wf.oldSessions x.id (List.mem_map_of_mem hx)
    exact absurd hid.symm hold.ne

theorem keeps (hhears : Hears heard heard op) :
    Keeps config (Timely config) (OnlyLobbyTakes config) (Listening heard) op :=
  fun _ h => ⟨h.onlyLobbyTakes hhears, fun _ _ htimely happly => h.step happly htimely hhears⟩

theorem stable (heard : PlayerId → Prop) : Stable (Timely config) (Listening heard) :=
  fun _ event h htimely => h.occur event htimely

end Listening

/-- One turn: the lobby hears every session, and then the join handler does. -/
theorem gameServerTick_listening (h : Listening (fun _ => False) s) :
    (gameServerTick config).wp (Timely config) (OnlyLobbyTakes config)
      (fun _ s' => Listening (fun _ => False) s') s := by
  refine gameServerTick_wp (I := Listening fun _ => False) (E := Listening fun _ => False) (K := Listening fun _ => True)
    (J := fun rest s => Listening (· ∉ rest) s ∧ rest.Nodup) (L := fun rest s => Listening (· ∈ rest) s ∧ rest.Nodup)
    (Listening.stable _) (Listening.stable _) ?_ (Listening.stable _) ?_ (Listening.keeps ⟨fun _ h => h, fun _ => Iff.rfl⟩)
    ?_ ?_ ?_
    (Listening.keeps fun _ => Iff.rfl) (Listening.keeps fun _ => Iff.rfl) (fun _ => Listening.keeps fun _ => Iff.rfl)
    ?_ ?_ ?_ ?_ h
  · exact fun ids s event h htimely => ⟨h.1.occur event htimely, h.2⟩
  · exact fun ids s event h htimely => ⟨h.1.occur event htimely, h.2⟩
  · intro s h
    exact ⟨h.congr fun id hid => by simp [hid], h.wf.sessions⟩
  · intro id rest s h
    obtain ⟨h, hnodup⟩ := h
    obtain ⟨hnot, hnodup⟩ := List.nodup_cons.mp hnodup
    have hhears : Hears (· ∉ id :: rest) (· ∉ rest) (.lobby id) := by
      refine ⟨by simp, fun other => ?_⟩
      by_cases heq : other = id
      · simp [heq, hnot]
      · simp [heq]
    exact ⟨h.onlyLobbyTakes hhears, fun _ _ htimely happly => ⟨h.step happly htimely hhears, hnodup⟩⟩
  · exact fun s h => h.1.congr fun id _ => by simp
  · intro s h
    exact ⟨h.congr fun id hid => by simp [hid], h.wf.sessions⟩
  · intro id rest s h
    obtain ⟨h, hnodup⟩ := h
    obtain ⟨hnot, hnodup⟩ := List.nodup_cons.mp hnodup
    have hhears : Hears (· ∈ id :: rest) (· ∈ rest) (.join id) := by
      refine ⟨by simp, fun other => ?_⟩
      by_cases heq : other = id
      · simp [heq, hnot]
      · simp [heq]
    exact ⟨h.onlyLobbyTakes hhears, fun _ _ htimely happly => ⟨h.step happly htimely hhears, hnodup⟩⟩
  · exact fun s h => h.1.congr fun id _ => by simp
  · intro op hop
    apply Listening.keeps
    cases op with
    | acceptNewClients => cases hop
    | lobby _ => cases hop
    | join _ => cases hop
    | _ => exact fun _ => Iff.rfl

/-! ### They are read

Once nothing more comes in, every turn takes two frames off each connection of the lobby. -/

/-- No session of the lobby has more frames pending than its limit. -/
structure Draining (limit : PlayerId → Nat) (s : Server) : Prop where
  wf : Wf s
  room : ∀ x ∈ s.sessions, x.state ≠ .playing → x.roomId = none
  within : ∀ x ∈ s.sessions, x.connection.isOpen = true → x.state ≠ .playing →
    x.connection.pending.length ≤ limit x.id

/-- Nothing happens but what the server does. -/
def Undisturbed (_ : Server) (x : NetEvent ⊕ ServerOp) : Prop := x.isRight = true

/-- Nothing is asked of the operations. -/
def Anything (_ : Server) (_ : NetEvent ⊕ ServerOp) : Prop := True

namespace Draining

variable {limit limit' : PlayerId → Nat}

theorem step (h : Draining limit s) {r : op.Result} (happly : s.apply config op = .ok (r, s'))
    (hother : ∀ id, limit id ≤ limit' id ∨ (op = .lobby id ∨ op = .join id) ∧ limit id ≤ limit' id + 1) :
    Draining limit' s' := by
  refine ⟨h.wf.apply happly, ?_, ?_⟩
  · intro y hy
    rcases h.wf.session_step happly y hy with ⟨x, hx, taken, -, hmoves⟩ | ⟨-, rfl⟩
    · exact hmoves.room (h.room x hx)
    · exact fun _ => rfl
  · intro y hy hopen hstate
    rcases h.wf.session_step happly y hy with ⟨x, hx, taken, hread, hmoves⟩ | ⟨-, rfl⟩
    · have hopenx := hread.took.isOpen hopen
      have hstatex : x.state ≠ .playing := fun hplays => hstate (hmoves.stays hplays)
      have hwithin := h.within x hx hopenx hstatex
      have hlength : x.connection.pending.length = taken.length + y.connection.pending.length := by
        rw [hread.took.pending, List.length_append]
      rw [hread.id]
      rcases hother x.id with hkept | ⟨hasked, hless⟩
      · omega
      · have htail : y.connection.pending = x.connection.pending.tail := by
          rcases hasked with rfl | rfl
          · exact hread.pending_tail rfl ⟨rfl, hopenx, hstatex⟩ hopen
          · exact hread.pending_tail rfl ⟨rfl, hopenx, by simp [SessionData.hasRoom, h.room x hx hstatex]⟩ hopen
        rw [htail, List.length_tail]
        omega
    · exact Nat.zero_le _

theorem keeps (limit : PlayerId → Nat) (op : ServerOp) : Keeps config Undisturbed Anything (Draining limit) op :=
  fun _ h => ⟨trivial, fun _ _ _ happly => h.step happly fun _ => .inl le_rfl⟩

theorem stable {P : Server → Prop} : Stable Undisturbed P := fun _ _ _ hcond => by cases hcond

theorem congr (h : Draining limit s) (hsame : ∀ id ∈ sessionIds s, limit id ≤ limit' id) : Draining limit' s :=
  ⟨h.wf, h.room, fun x hx hopen hstate =>
    (h.within x hx hopen hstate).trans (hsame x.id (List.mem_map_of_mem hx))⟩

end Draining

theorem gameServerTick_draining {turns : Nat} (h : Draining (fun _ => 2 * (turns + 1)) s) :
    (gameServerTick config).wp Undisturbed Anything (fun _ s' => Draining (fun _ => 2 * turns) s') s := by
  refine gameServerTick_wp (I := Draining fun _ => 2 * (turns + 1)) (E := Draining fun _ => 2 * turns)
    (K := Draining fun _ => 2 * turns + 1)
    (J := fun rest => Draining fun id => if id ∈ rest then 2 * (turns + 1) else 2 * turns + 1)
    (L := fun rest => Draining fun id => if id ∈ rest then 2 * turns + 1 else 2 * turns)
    Draining.stable Draining.stable (fun _ => Draining.stable) Draining.stable (fun _ => Draining.stable)
    (Draining.keeps _ _) ?_ ?_ ?_ (Draining.keeps _ _) (Draining.keeps _ _) (fun _ => Draining.keeps _ _)
    ?_ ?_ ?_ (fun _ _ => Draining.keeps _ _) h
  · exact fun s h => h.congr fun id hid => by simp [hid]
  · refine fun id rest s h => ⟨trivial, fun _ _ _ happly => h.step happly fun other => ?_⟩
    by_cases heq : other = id
    · subst heq
      refine .inr ⟨.inl rfl, ?_⟩
      rw [if_pos List.mem_cons_self]
      split <;> omega
    · left
      simp [heq]
  · exact fun s h => h.congr fun id _ => by simp
  · exact fun s h => h.congr fun id hid => by simp [hid]
  · refine fun id rest s h => ⟨trivial, fun _ _ _ happly => h.step happly fun other => ?_⟩
    by_cases heq : other = id
    · subst heq
      refine .inr ⟨.inr rfl, ?_⟩
      rw [if_pos List.mem_cons_self]
      split <;> omega
    · left
      simp [heq]
  · exact fun s h => h.congr fun id _ => by simp

/-- A loop over turns of the monolith. -/
theorem serve_turns_wp {C D : Server → NetEvent ⊕ ServerOp → Prop} {I : Nat → Server → Prop}
    (hturn : ∀ turns s, I (turns + 1) s → (gameServerTick config).wp C D (fun _ s' => I turns s') s) (turns : Nat)
    (h : I turns s) : (serve config (List.replicate turns .gameServerTick)).wp C D (fun _ s' => I 0 s') s := by
  induction turns generalizing s with
  | zero => exact h
  | succ turns ih => exact Prog.wp_bind (Prog.wp_mono (hturn turns s h) fun _ s' h => ih h)

/-! ### Counting them -/

/-- A message for the lobby comes in for this session, which is open and `Connected`. -/
def isReceived (id : PlayerId) (x : Server × (NetEvent ⊕ ServerOp)) : Bool :=
  match x.2 with
  | .inl (.deliver other content) => other == id && isLobbyMessage content &&
      (x.1.findSession id).any fun session => session.connection.isOpen && session.state = .connected
  | _ => false

/-- The lobby reads a message from this session that is for the lobby. -/
def isReadByLobby (id : PlayerId) (x : Server × (NetEvent ⊕ ServerOp)) : Bool :=
  match x.2 with
  | .inr (.lobby other) => other == id && (x.1.findSession id).any fun session =>
      session.connection.isOpen && session.state ≠ .playing && session.connection.link ≠ .failed &&
        session.connection.pending.head?.any isLobbyFrame
  | _ => false

/-- What has come in for the lobby has been read by the lobby or is pending. -/
structure Accounted (s : Server) (history : History) : Prop where
  wf : Wf s
  exact : ∀ x ∈ s.sessions, x.connection.isOpen = true → history.countP (isReceived x.id) =
    history.countP (isReadByLobby x.id) + x.connection.pending.countP isLobbyFrame
  unborn : ∀ id, s.nextSessionId ≤ id → history.countP (isReceived id) = 0 ∧ history.countP (isReadByLobby id) = 0

theorem OpStep.nextSessionId_le (h : OpStep config s op t) : s.nextSessionId ≤ t.nextSessionId := by
  cases h with
  | accept _ _ _ => exact Nat.le_succ _
  | lobby hlobby =>
      cases hlobby with
      | login _ _ _ _ _ _ _ _ =>
          rw [loggedIn, registerSession_eq]
          exact le_rfl
      | _ => exact le_rfl
  | _ => exact le_rfl

theorem countP_concat (p : Server × (NetEvent ⊕ ServerOp) → Bool) (history : History)
    (x : Server × (NetEvent ⊕ ServerOp)) :
    (history ++ [x]).countP p = history.countP p + if p x = true then 1 else 0 := by
  rw [List.countP_append, List.countP_singleton]

/-- A read by the lobby takes a message for the lobby if that is what comes first. -/
theorem countP_take_one (p : Frame → Bool) (frames : List Frame) :
    (frames.take 1).countP p = if frames.head?.any p = true then 1 else 0 := by
  cases frames with
  | nil => rfl
  | cons frame rest =>
      rw [List.take_succ_cons, List.take_zero, List.countP_singleton]
      rfl

namespace Accounted

variable {history : History}

/-- Nothing is counted for a session that is not there. -/
theorem unborn_concat (h : Accounted s history) (hnext : s.nextSessionId ≤ s'.nextSessionId) (x : NetEvent ⊕ ServerOp) :
    ∀ id, s'.nextSessionId ≤ id →
      (history ++ [(s, x)]).countP (isReceived id) = 0 ∧ (history ++ [(s, x)]).countP (isReadByLobby id) = 0 := by
  intro id hid
  have hnone : s.findSession id = none := by
    apply findSession_eq_none
    intro y hy h
    obtain rfl := h
    exact absurd (h.wf.oldSessions _ (mem_sessionIds hy)) (Nat.not_lt.mpr (hnext.trans hid))
  obtain ⟨hreceived, hread⟩ := h.unborn id (hnext.trans hid)
  have hnotReceived : isReceived id (s, x) = false := by
    unfold isReceived
    split
    · simp [hnone]
    · rfl
  have hnotRead : isReadByLobby id (s, x) = false := by
    unfold isReadByLobby
    split
    · simp [hnone]
    · rfl
  rw [countP_concat, countP_concat, hreceived, hread, hnotReceived, hnotRead]
  exact ⟨rfl, rfl⟩

theorem occur (h : Accounted s history) (event : NetEvent) : Accounted (s.occur event) (history ++ [(s, .inl event)]) := by
  have hnext : (s.occur event).nextSessionId = s.nextSessionId := by
    cases event <;> rfl
  refine ⟨h.wf.occur event, ?_, h.unborn_concat hnext.ge _⟩
  have hunread : ∀ id, isReadByLobby id (s, .inl event) = false := fun _ => rfl
  intro y hy hopen
  rw [countP_concat, countP_concat, hunread, if_neg Bool.false_ne_true, Nat.add_zero]
  cases event with
  | connect => exact h.exact y hy hopen
  | pass duration => exact h.exact y hy hopen
  | setLink id link =>
      obtain ⟨x, hx, rfl⟩ := List.mem_map.mp hy
      by_cases hid : x.id = id
      · rw [if_pos hid] at hopen ⊢
        exact h.exact x hx hopen
      · rw [if_neg hid] at hopen ⊢
        exact h.exact x hx hopen
  | deliver id content =>
      obtain ⟨x, hx, rfl⟩ := List.mem_map.mp hy
      have hfind := h.wf.findSession hx
      by_cases hid : x.id = id
      · subst hid
        simp only [if_true] at hopen ⊢
        have hreceived : isReceived x.id (s, .inl (.deliver x.id content)) = isLobbyFrame ⟨content, x.state⟩ := by
          unfold isReceived isLobbyFrame
          simp [hfind, hopen, Bool.and_comm]
        rw [h.exact x hx hopen, hreceived, List.countP_append, List.countP_singleton, Nat.add_assoc]
      · rw [if_neg hid] at hopen ⊢
        have hreceived : isReceived x.id (s, .inl (.deliver id content)) = false := by
          unfold isReceived
          simp [Ne.symm hid]
        rw [h.exact x hx hopen, hreceived, if_neg Bool.false_ne_true, Nat.add_zero]

/-- What a session gives to an operation is what is counted. -/
theorem countP_taken {x y : PlayerSession} {taken : List Frame} (h : Accounted s history) (hx : x ∈ s.sessions)
    (hread : ReadBy op x y taken) (hopen : y.connection.isOpen = true) (honly : NoneForLobby taken ∨ op = .lobby x.id) :
    taken.countP isLobbyFrame = if isReadByLobby x.id (s, .inr op) = true then 1 else 0 := by
  have hopenx := hread.took.isOpen hopen
  by_cases hlobby : op = .lobby x.id
  · subst hlobby
    by_cases hstate : x.state = .playing
    · have htaken : taken = [] := by
        by_contra hne
        exact (hread.polled hne).2.2 hstate
      simp [htaken, isReadByLobby, h.wf.findSession hx, hstate]
    · obtain ⟨htaken, hlink, -⟩ := (hread.once .lobby rfl).2 ⟨rfl, hopenx, hstate⟩ hopen
      rw [htaken, countP_take_one]
      simp [isReadByLobby, h.wf.findSession hx, hstate, hopenx, hlink]
  · have hnot : isReadByLobby x.id (s, .inr op) = false := by
      unfold isReadByLobby
      split
      · rename_i other heq
        have hother : other ≠ x.id := by
          intro h
          obtain rfl := h
          exact hlobby (Sum.inr.inj heq)
        simp [hother]
      · rfl
    rw [hnot, if_neg Bool.false_ne_true, List.countP_eq_zero]
    intro frame hframe
    simp [(honly.resolve_right hlobby) frame hframe]

theorem step (h : Accounted s history) {r : op.Result} (happly : s.apply config op = .ok (r, s'))
    (honly : OnlyLobbyTakes config s (.inr op)) : Accounted s' (history ++ [(s, .inr op)]) := by
  obtain ⟨t, hstep, hsame⟩ := apply_step h.wf.nextRoomFree happly
  have hnext : s.nextSessionId ≤ s'.nextSessionId := by
    rw [eq_of_bare hsame]
    exact hstep.nextSessionId_le
  have hunborn := h.unborn_concat hnext (.inr op)
  refine ⟨h.wf.apply happly, ?_, hunborn⟩
  have hquiet : ∀ id, isReceived id (s, .inr op) = false := fun _ => rfl
  intro y hy hopen
  rw [countP_concat, countP_concat, hquiet, if_neg Bool.false_ne_true, Nat.add_zero]
  rcases h.wf.session_step happly y hy with ⟨x, hx, taken, hread, -⟩ | ⟨rfl, rfl⟩
  · obtain ⟨taken', hpending, hnone⟩ := honly r s' happly x hx y hy hread.id
    obtain rfl : taken' = taken := List.append_cancel_right (hpending.symm.trans hread.took.pending)
    have htaken := h.countP_taken hx hread hopen hnone
    have hexact := h.exact x hx (hread.took.isOpen hopen)
    rw [hread.took.pending, List.countP_append, htaken] at hexact
    rw [hread.id, hexact]
    omega
  · obtain ⟨hreceived, hreadNone⟩ := h.unborn s.nextSessionId le_rfl
    have hnot : isReadByLobby s.nextSessionId (s, .inr .acceptNewClients) = false := rfl
    change history.countP (isReceived s.nextSessionId) = _
    rw [hreceived, hreadNone, hnot]
    rfl

end Accounted

/-! ### Whole runs -/

theorem Listening.boot (users : UserRepository) (games : GameRepository) (now : Nat) :
    Listening (fun _ => False) (boot users games now) :=
  ⟨.boot users games now, fun _ hx => by cases hx⟩

theorem Listening.draining (h : Listening (fun _ => False) s) {limit : Nat}
    (hlength : ∀ x ∈ s.sessions, x.connection.pending.length ≤ limit) : Draining (fun _ => limit) s :=
  ⟨h.wf, fun x hx => (h.inTurn x hx).room, fun x hx _ _ => hlength x hx⟩

/-- As long as messages for the lobby come in where the lobby reads them, and nobody begins to play who has one
pending, nobody but the lobby reads one. Each is read or still pending as long as the connection is open, and
once nothing more comes in, enough turns read them all. -/
theorem lobby_messages_read_of_run {turns : Nat} {users : UserRepository} {games : GameRepository} {now : Nat}
    {script : List (List NetEvent)} {w : ServerWorld config}
    (hrun : (serve config (List.replicate turns .gameServerTick)).run { state := boot users games now, script } =
      .ok ((), w))
    (htimely : ∀ x ∈ w.history, Timely config x.1 x.2) :
    (∀ x ∈ w.history, OnlyLobbyTakes config x.1 x.2) ∧
    (∀ session ∈ w.state.sessions, session.connection.isOpen = true →
      w.history.countP (isReceived session.id) =
        w.history.countP (isReadByLobby session.id) + session.connection.pending.countP isLobbyFrame) ∧
    ∀ more w', (serve config (List.replicate more .gameServerTick)).run { state := w.state } = .ok ((), w') →
      (∀ x ∈ w'.history, Timely config x.1 x.2) →
      (∀ session ∈ w.state.sessions, session.connection.pending.length ≤ 2 * more) →
      ∀ session ∈ w'.state.sessions, session.connection.isOpen = true → NoneForLobby session.connection.pending := by
  have hserve : ∀ turns (s : Server), Listening (fun _ => False) s →
      (serve config (List.replicate turns .gameServerTick)).wp (Timely config) (OnlyLobbyTakes config)
        (fun _ s' => Listening (fun _ => False) s') s :=
    fun turns s h => serve_turns_wp (I := fun _ => Listening fun _ => False)
      (fun _ _ h => gameServerTick_listening h) turns h
  obtain ⟨hlistening, hhistory⟩ := Prog.run_of_wp (hserve turns _ (.boot users games now)) hrun htimely
  have honly : ∀ x ∈ w.history, OnlyLobbyTakes config x.1 x.2 := by
    intro x hx
    rcases hhistory x hx with hx | ⟨event, hevent⟩ | honly
    · cases hx
    · rw [hevent]
      trivial
    · exact honly
  refine ⟨honly, ?_, ?_⟩
  · refine (Leads.invariant (M := serverMachine config) (P := Accounted) (C := OnlyLobbyTakes config) ?_ ?_
      (Leads.of_run hrun) ?_ honly).exact
    · exact fun s history event h _ => h.occur event
    · exact fun s history op r s' h honly happly => h.step happly honly
    · exact ⟨.boot users games now, fun x hx => (by cases hx), fun _ _ => ⟨rfl, rfl⟩⟩
  · intro more w' hmore htimely' hlength session hsession hopen
    have hlistening' := (Prog.run_of_wp (w := { state := w.state }) (hserve more _ hlistening) hmore htimely').1
    have hundisturbed : ∀ x ∈ w'.history, Undisturbed x.1 x.2 := by
      intro x hx
      rcases (Prog.run_quiet rfl hmore).2 x hx with hx | hop
      · cases hx
      · exact hop
    have hdrained := (Prog.run_of_wp (w := { state := w.state })
      (serve_turns_wp (I := fun turns => Draining fun _ => 2 * turns)
      (fun _ _ h => gameServerTick_draining h) more (hlistening.draining hlength)) hmore hundisturbed).1
    by_cases hstate : session.state = .playing
    · exact (hlistening'.inTurn session hsession).playing hopen hstate
    · have hnothing := hdrained.within session hsession hopen hstate
      rw [List.length_eq_zero_iff.mp (Nat.le_zero.mp hnothing)]
      exact fun frame hframe => by cases hframe

/-- Both clients log in and ask for a game, and the lobby reads it all. -/
theorem lobby_messages_read_of_run_both_play :
    ∃ w, (serve sampleConfig (List.replicate 4 .gameServerTick)).run (sampleWorld untilGame) = .ok ((), w) ∧
      (∃ session ∈ w.state.sessions, session.id = 0 ∧ session.connection.isOpen = true ∧
        w.history.countP (isReceived 0) = 2 ∧
        w.history.countP (isReadByLobby 0) + session.connection.pending.countP isLobbyFrame = 2) ∧
      ∀ x ∈ w.history, OnlyLobbyTakes sampleConfig x.1 x.2 := by
  have hrun : (serve sampleConfig (List.replicate 4 .gameServerTick)).reaches (sampleWorld untilGame)
      (fun _ w => decide ((∃ session ∈ w.state.sessions, session.id = 0 ∧ session.connection.isOpen = true) ∧
        w.history.countP (isReceived 0) = 2 ∧ ∀ x ∈ w.history, Timely sampleConfig x.1 x.2)) = true := by
    decide +kernel
  obtain ⟨_, w, hrun, hw⟩ := Prog.reaches_eq_true hrun
  obtain ⟨⟨session, hsession, hid, hopen⟩, hreceived, htimely⟩ := of_decide_eq_true hw
  obtain ⟨honly, haccounts, -⟩ := lobby_messages_read_of_run hrun htimely
  have hexact := haccounts session hsession hopen
  rw [hid, hreceived] at hexact
  exact ⟨w, hrun, ⟨session, hsession, hid, hopen, hreceived, hexact.symm⟩, honly⟩

/-- A client sends its login and its request to play at once. The join handler reads the request and drops it: the
session stays `Connected` and nothing is pending. -/
theorem not_lobby_messages_read_pipelined :
    ∃ w, (serve sampleConfig (List.replicate 3 .gameServerTick)).run
        (sampleWorld [[.connect], [say 0 "login ann x", say 0 "play"]]) = .ok ((), w) ∧
      ∃ session ∈ w.state.sessions, session.connection.isOpen = true ∧ session.state = .connected ∧
        session.connection.sent = [.loginOk 1000] ∧ session.connection.pending = [] ∧
        w.history.countP (isReceived session.id) = 2 ∧ w.history.countP (isReadByLobby session.id) = 1 := by
  have hrun : (serve sampleConfig (List.replicate 3 .gameServerTick)).reaches
      (sampleWorld [[.connect], [say 0 "login ann x", say 0 "play"]])
      (fun _ w => decide (∃ session ∈ w.state.sessions, session.connection.isOpen = true ∧
        session.state = .connected ∧ session.connection.sent = [.loginOk 1000] ∧ session.connection.pending = [] ∧
        w.history.countP (isReceived session.id) = 2 ∧ w.history.countP (isReadByLobby session.id) = 1)) = true := by
    decide +kernel
  obtain ⟨_, w, hrun, hw⟩ := Prog.reaches_eq_true hrun
  exact ⟨w, hrun, of_decide_eq_true hw⟩

end Server

end KungFuChess
