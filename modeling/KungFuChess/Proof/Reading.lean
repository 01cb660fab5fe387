import KungFuChess.Proof.Sessions

/-!
# Who reads what

A read takes a message off a connection for good, so it matters who comes first. Here is what each
operation does to what has come in: most read nothing, and the others say whose connections they read from.
-/

namespace KungFuChess

namespace ClientConnection

variable {c c' c'' : ClientConnection} {reader : Reader}

/-- Nothing is read and nothing comes in; and what was closed stays closed. -/
structure Unread (c c' : ClientConnection) : Prop where
  pending : c'.pending = c.pending
  lastReader : c'.lastReader = c.lastReader
  isOpen : c'.isOpen = true → c.isOpen = true

namespace Unread

theorem refl (c : ClientConnection) : Unread c c := ⟨rfl, rfl, fun h => h⟩

theorem trans (h : Unread c c') (h' : Unread c' c'') : Unread c c'' :=
  ⟨h'.pending.trans h.pending, h'.lastReader.trans h.lastReader, fun hopen => h.isOpen (h'.isOpen hopen)⟩

theorem close (c : ClientConnection) : Unread c c.close := ⟨rfl, rfl, fun h => by cases h⟩

theorem detectPeerDisconnect (c : ClientConnection) : Unread c c.detectPeerDisconnect := by
  unfold ClientConnection.detectPeerDisconnect
  split
  · exact refl c
  · cases c.link with
    | up => exact refl c
    | unwritable => exact refl c
    | failed => exact close c
    | ended =>
        dsimp only
        split
        · exact close c
        · exact refl c

theorem write (c : ClientConnection) (message : ServerMessage) : Unread c (c.write message) := by
  unfold ClientConnection.write
  cases c.link with
  | up => exact ⟨rfl, rfl, fun h => h⟩
  | ended => exact ⟨rfl, rfl, fun h => h⟩
  | unwritable => exact close c
  | failed => exact close c

theorem trySend (c : ClientConnection) (message : ServerMessage) : Unread c (c.trySend message) := by
  unfold ClientConnection.trySend
  dsimp only
  split
  · exact detectPeerDisconnect c
  · exact (detectPeerDisconnect c).trans (write _ message)

/-- `send_message` opens a connection, but it is used on one that is open. -/
theorem sendMessage (hopen : c.isOpen = true) (message : ServerMessage) : Unread c (c.sendMessage message) := by
  have hreopened : Unread c { c with isOpen := true } := ⟨rfl, rfl, fun _ => hopen⟩
  exact hreopened.trans (write _ message)

end Unread

/-- These frames have been taken off the connection; and what was closed stays closed. -/
structure Took (taken : List Frame) (c c' : ClientConnection) : Prop where
  pending : c.pending = taken ++ c'.pending
  isOpen : c'.isOpen = true → c.isOpen = true

theorem Unread.took (h : Unread c c') : Took [] c c' := ⟨h.pending.symm, h.isOpen⟩

theorem Took.trans {first second : List Frame} (h : Took first c c') (h' : Took second c' c'') :
    Took (first ++ second) c c'' := by
  refine ⟨?_, fun hopen => h.isOpen (h'.isOpen hopen)⟩
  rw [h.pending, h'.pending, List.append_assoc]

theorem Took.unread {taken : List Frame} (h : Took taken c c') (h' : Unread c' c'') : Took taken c c'' := by
  have htook := h.trans h'.took
  rw [List.append_nil] at htook
  exact htook

/-- A read takes one frame at most, and the first one if it leaves the connection open. -/
theorem took_tryRead (c : ClientConnection) (reader : Reader) :
    ∃ taken, Took taken c (c.tryRead reader).2 ∧ taken.length ≤ 1 ∧ (taken ≠ [] → c.isOpen = true) ∧
      ((c.tryRead reader).2.isOpen = true → taken = c.pending.take 1 ∧ c.link ≠ .failed ∧
        (c.tryRead reader).2.lastReader = some reader) := by
  obtain ⟨isOpen, link, pending, sent, lastReader⟩ := c
  unfold tryRead
  cases isOpen with
  | false => exact ⟨[], ⟨rfl, fun h => h⟩, Nat.zero_le 1, by simp, by simp⟩
  | true =>
      by_cases hlink : link = .failed
      · refine ⟨[], ⟨?_, by simp⟩, Nat.zero_le 1, by simp, ?_⟩
        · simp [hlink, close]
        · simp [hlink, close]
      · simp only [Bool.not_true, Bool.false_eq_true, if_false, hlink]
        match pending with
        | [] =>
            have hdetect := Unread.detectPeerDisconnect ⟨true, link, [], sent, some reader⟩
            exact ⟨[], ⟨hdetect.pending.symm, fun _ => rfl⟩, Nat.zero_le 1, by simp,
              fun _ => ⟨rfl, hlink, hdetect.lastReader⟩⟩
        | ⟨.text message, arrivedIn⟩ :: pending =>
            exact ⟨[⟨.text message, arrivedIn⟩], ⟨rfl, fun _ => rfl⟩, le_rfl, by simp, fun _ => ⟨rfl, hlink, rfl⟩⟩
        | ⟨.close, arrivedIn⟩ :: pending =>
            exact ⟨[⟨.close, arrivedIn⟩], ⟨rfl, fun _ => rfl⟩, le_rfl, by simp, by simp [close]⟩

end ClientConnection

namespace Server

variable {config : ServerConfig} {s s' t : Server} {id : PlayerId} {roomId : RoomId} {reader : Reader}

/-! ### Operations that read nothing -/

/-- Every session that is there was there, and nothing has been read from it. -/
def Unread (s s' : Server) : Prop :=
  ∀ y ∈ s'.sessions, ∃ x ∈ s.sessions, y.id = x.id ∧ x.connection.Unread y.connection

theorem unread_kept : Kept fun x y => y.id = x.id ∧ x.connection.Unread y.connection where
  refl _ := ⟨rfl, .refl _⟩
  trans h h' := ⟨h'.1.trans h.1, h.2.trans h'.2⟩
  probe _ := ⟨rfl, .detectPeerDisconnect _⟩
  send _ := ⟨rfl, .trySend _ _⟩
  sendMessage _ hopen := ⟨rfl, .sendMessage hopen _⟩
  data hf x := ⟨(hf x.toSessionData).1, .refl _⟩

namespace Unread

theorem refl (s : Server) : Unread s s := Each.refl unread_kept s

theorem of_sessions (h : s'.sessions = s.sessions) : Unread s s' := Each.of_sessions unread_kept h

theorem send (s : Server) (id : PlayerId) (message : ServerMessage) : Unread s (s.send id message) :=
  Each.modifySession unread_kept s id fun _ _ _ => ⟨rfl, .trySend _ message⟩

theorem handleLobbyMessage (hids : (sessionIds s).Nodup) (config : ServerConfig) (x : PlayerSession) (message : Text) :
    Unread s (s.handleLobbyMessage config x message) := by
  have hanswer := handleLobbyMessage_answer unread_kept hids config x message
  obtain ⟨s', hs'⟩ : ∃ s', s.handleLobbyMessage config x message = s' := ⟨_, rfl⟩
  rw [hs'] at hanswer ⊢
  cases hanswer with
  | quiet heach => exact heach
  | waits heach _ => exact Each.trans unread_kept heach (send _ _ _)
  | pairs heach _ => exact Each.trans unread_kept heach (send _ _ _)

end Unread

/-! ### Operations that read -/

/-- Whose connection an operation reads from. -/
def Polls : ServerOp → PlayerSession → Prop
  | .lobby id, x => x.id = id ∧ x.connection.isOpen = true ∧ x.state ≠ .playing
  | .join id, x => x.id = id ∧ x.connection.isOpen = true ∧ x.hasRoom = false
  | .playRoomInputs _, x => x.connection.isOpen = true ∧ x.state = .playing
  | _, _ => False

/-- The handlers that go through the sessions and read one frame off each. -/
def passReader : ServerOp → Option Reader
  | .lobby _ => some .lobby
  | .join _ => some .join
  | _ => none

/-- These frames have been read off a session's connection. A handler that goes through the sessions reads the
first frame; the handler of a room may find the same session on both sides. -/
structure ReadBy (op : ServerOp) (x y : PlayerSession) (taken : List Frame) : Prop where
  id : y.id = x.id
  took : x.connection.Took taken y.connection
  polled : taken ≠ [] → Polls op x
  skipped : ¬Polls op x → y.connection.isOpen = true → y.connection.lastReader = x.connection.lastReader
  once : ∀ reader, passReader op = some reader → taken.length ≤ 1 ∧ (Polls op x → y.connection.isOpen = true →
    taken = x.connection.pending.take 1 ∧ x.connection.link ≠ .failed ∧ y.connection.lastReader = some reader)

/-- Every session that is there was there, and the operation has read from it. -/
def Reads (op : ServerOp) (s s' : Server) : Prop :=
  ∀ y ∈ s'.sessions, ∃ x ∈ s.sessions, ∃ taken, ReadBy op x y taken

namespace Reads

variable {op : ServerOp}

theorem of_unread (h : Unread s s') (hnone : ∀ x ∈ s.sessions, ¬Polls op x) : Reads op s s' := by
  intro y hy
  obtain ⟨x, hx, hid, hunread⟩ := h y hy
  refine ⟨x, hx, [], hid, hunread.took, by simp, fun _ _ => hunread.lastReader, fun _ _ => ⟨Nat.zero_le 1, ?_⟩⟩
  exact fun hpolls => absurd hpolls (hnone x hx)

/-- The handler reads from one session, and then answers. -/
theorem of_tryRead (hids : (sessionIds s).Nodup) {x : PlayerSession} (hx : s.findSession id = some x)
    (hreader : passReader op = some reader) (hpolls : Polls op x) (honly : ∀ z ∈ s.sessions, Polls op z → z.id = id)
    (h : Unread (s.modifyConnection id fun _ => (x.connection.tryRead reader).2) s') : Reads op s s' := by
  obtain ⟨hmem, hid⟩ := findSession_some hx
  intro y hy
  obtain ⟨z, hz, hidz, hunread⟩ := h y hy
  obtain ⟨x', hx', rfl⟩ := List.mem_map.mp hz
  by_cases heq : x'.id = id
  · obtain rfl : x' = x := List.inj_on_of_nodup_map hids hx' hmem (heq.trans hid.symm)
    rw [if_pos heq] at hidz hunread
    obtain ⟨taken, htook, hlength, -, hstill⟩ := ClientConnection.took_tryRead x'.connection reader
    refine ⟨x', hx', taken, hidz, htook.unread hunread, fun _ => hpolls, fun hnot _ => absurd hpolls hnot, ?_⟩
    intro other hother
    rw [hreader] at hother
    cases hother
    refine ⟨hlength, fun _ hopen => ?_⟩
    obtain ⟨htaken, hlink, hlast⟩ := hstill (hunread.isOpen hopen)
    exact ⟨htaken, hlink, hunread.lastReader.trans hlast⟩
  · rw [if_neg heq] at hidz hunread
    refine ⟨x', hx', [], hidz, hunread.took, by simp, fun _ _ => hunread.lastReader, fun _ _ => ⟨Nat.zero_le 1, ?_⟩⟩
    exact fun hpolls => absurd (honly x' hx' hpolls) heq

/-- The session that is polled is not there, or it is passed over. -/
theorem of_idle (hids : (sessionIds s).Nodup) (honly : ∀ x, Polls op x → x.id = id)
    (hskip : ∀ x, s.findSession id = some x → ¬Polls op x) : Reads op s s := by
  refine of_unread (.refl s) fun z hz hpolls => ?_
  cases hx : s.findSession id with
  | none =>
      have hnone := List.find?_eq_none.mp hx z hz
      simp [honly z hpolls] at hnone
  | some x =>
      obtain ⟨hmem, hid⟩ := findSession_some hx
      obtain rfl : z = x := List.inj_on_of_nodup_map hids hz hmem ((honly z hpolls).trans hid.symm)
      exact hskip z hx hpolls

theorem lobbyRound (hids : (sessionIds s).Nodup) (config : ServerConfig) (id : PlayerId) :
    Reads (.lobby id) s (s.lobbyRound config id) := by
  unfold Server.lobbyRound
  cases hx : s.findSession id with
  | none => exact of_idle hids (fun _ hpolls => hpolls.1) (fun _ hfound => by cases hx.symm.trans hfound)
  | some x =>
      obtain ⟨-, hid⟩ := findSession_some hx
      dsimp only
      split
      · rename_i hskip
        refine of_idle hids (fun _ hpolls => hpolls.1) ?_
        intro z hfound h
        obtain ⟨-, hopen, hstate⟩ := h
        cases hx.symm.trans hfound
        simp [hopen, hstate] at hskip
      · rename_i hpolled
        rw [not_or, Bool.not_eq_true', Bool.not_eq_false] at hpolled
        refine of_tryRead hids hx rfl ⟨hid, hpolled.2, hpolled.1⟩ (fun _ _ hpolls => hpolls.1) ?_
        unfold tryRead
        rw [hx]
        dsimp only
        cases (x.connection.tryRead .lobby).1 with
        | none => exact .refl _
        | some message =>
            refine .handleLobbyMessage ?_ config x message
            rw [sessionIds_eq, data_modifyConnection, ← sessionIds_eq]
            exact hids

theorem joinRound (hids : (sessionIds s).Nodup) (id : PlayerId) : Reads (.join id) s (s.joinRound id) := by
  unfold Server.joinRound
  cases hx : s.findSession id with
  | none => exact of_idle hids (fun _ hpolls => hpolls.1) (fun _ hfound => by cases hx.symm.trans hfound)
  | some x =>
      obtain ⟨-, hid⟩ := findSession_some hx
      dsimp only
      split
      · rename_i hskip
        refine of_idle hids (fun _ hpolls => hpolls.1) ?_
        intro z hfound h
        obtain ⟨-, hopen, hroom⟩ := h
        cases hx.symm.trans hfound
        simp [hopen, hroom] at hskip
      · rename_i hpolled
        rw [not_or, Bool.not_eq_true', Bool.not_eq_false, Bool.not_eq_true] at hpolled
        refine of_tryRead hids hx rfl ⟨hid, hpolled.1, hpolled.2⟩ (fun _ _ hpolls => hpolls.1) ?_
        unfold tryRead
        rw [hx]
        dsimp only
        cases (x.connection.tryRead .join).1 with
        | none => exact .refl _
        | some message =>
            dsimp only
            cases parseJoinGameMessage message with
            | none => exact .refl _
            | some roomId => exact Each.handleJoinGame unread_kept _ x roomId

/-! #### The inputs of a room -/

/-- Frames have been taken off sessions that play. -/
def OffPlaying (s s' : Server) : Prop :=
  ∀ y ∈ s'.sessions, ∃ x ∈ s.sessions, y.toSessionData = x.toSessionData ∧ ∃ taken,
    x.connection.Took taken y.connection ∧ (taken ≠ [] → x.connection.isOpen = true ∧ x.state = .playing) ∧
      (x.state ≠ .playing → y.connection.lastReader = x.connection.lastReader)

theorem OffPlaying.refl (s : Server) : OffPlaying s s :=
  fun y hy => ⟨y, hy, rfl, [], (ClientConnection.Unread.refl _).took, by simp, fun _ => rfl⟩

theorem OffPlaying.trans (h : OffPlaying s s') (h' : OffPlaying s' t) : OffPlaying s t := by
  intro z hz
  obtain ⟨y, hy, hdata', second, htook', hsecond, hsame'⟩ := h' z hz
  obtain ⟨x, hx, hdata, first, htook, hfirst, hsame⟩ := h y hy
  refine ⟨x, hx, hdata'.trans hdata, first ++ second, htook.trans htook', ?_,
    fun hstate => (hsame' (hdata ▸ hstate)).trans (hsame hstate)⟩
  intro htaken
  by_cases hnone : first = []
  · rw [hnone, List.nil_append] at htaken
    obtain ⟨hopen, hstate⟩ := hsecond htaken
    exact ⟨htook.isOpen hopen, hdata ▸ hstate⟩
  · exact hfirst hnone

theorem pollPlayerInput (hids : (sessionIds s).Nodup) (room : Room) (player : GamePlayer) :
    OffPlaying s (s.pollPlayerInput room player).2 := by
  unfold Server.pollPlayerInput
  cases hx : s.findSession player.playerId with
  | none => exact .refl s
  | some x =>
      obtain ⟨hmem, hid⟩ := findSession_some hx
      dsimp only
      split
      · exact .refl s
      · rename_i hpolled
        rw [not_or, not_not] at hpolled
        suffices hread : OffPlaying s (s.tryRead .input player.playerId).2 by
          obtain ⟨answer, t, hanswer⟩ : ∃ answer t, s.tryRead .input player.playerId = (answer, t) := ⟨_, _, rfl⟩
          rw [hanswer] at hread ⊢
          cases answer with
          | none => exact hread
          | some message => exact hread
        intro y hy
        unfold tryRead at hy
        rw [hx] at hy
        obtain ⟨z, hz, rfl⟩ := List.mem_map.mp hy
        refine ⟨z, hz, ?_⟩
        split
        · rename_i heq
          obtain rfl : z = x := List.inj_on_of_nodup_map hids hz hmem (heq.trans hid.symm)
          obtain ⟨taken, htook, -, hopen, -⟩ := ClientConnection.took_tryRead z.connection .input
          exact ⟨rfl, taken, htook, fun hne => ⟨hopen hne, hpolled.1⟩, fun hstate => absurd hpolled.1 hstate⟩
        · exact ⟨rfl, [], (ClientConnection.Unread.refl _).took, by simp, fun _ => rfl⟩

theorem pollRoomInputs (hids : (sessionIds s).Nodup) (room : Room) : OffPlaying s (s.pollRoomInputs room).2 := by
  unfold Server.pollRoomInputs
  cases room.whitePlayer with
  | none =>
      cases room.blackPlayer with
      | none => exact .refl s
      | some black => exact pollPlayerInput hids room black
  | some white =>
      cases room.blackPlayer with
      | none => exact pollPlayerInput hids room white
      | some black =>
          refine (pollPlayerInput hids room white).trans (pollPlayerInput ?_ room black)
          rw [sessionIds_eq, data_eq_of_bare (pollPlayerInput_bare s room white), ← sessionIds_eq]
          exact hids

theorem playRoomInputs (hids : (sessionIds s).Nodup) {winner : Option PieceColor}
    (h : s.playRoomInputs roomId = .ok (winner, s')) : Reads (.playRoomInputs roomId) s s' := by
  suffices hplaying : OffPlaying s s' by
    intro y hy
    obtain ⟨x, hx, hdata, taken, htook, htaken, hsame⟩ := hplaying y hy
    refine ⟨x, hx, taken, by rw [hdata], htook, htaken, ?_, fun _ hreader => by cases hreader⟩
    intro hskipped hopen
    exact hsame fun hstate => hskipped ⟨htook.isOpen hopen, hstate⟩
  unfold Server.playRoomInputs at h
  cases hroom : s.rooms.findRoom roomId with
  | none =>
      rw [hroom] at h
      cases h
      exact .refl s
  | some room =>
      rw [hroom] at h
      obtain ⟨answer, -, hrest⟩ := Loops.bind_eq_ok.mp h
      cases hrest
      exact pollRoomInputs hids room

/-! #### All of them -/

theorem of_apply (hop : op ≠ .acceptNewClients) (hids : (sessionIds s).Nodup) {r : op.Result}
    (h : s.apply config op = .ok (r, s')) : Reads op s s' := by
  have hunread : ∀ {op : ServerOp} {s' : Server}, Unread s s' → (∀ x, ¬Polls op x) → Reads op s s' :=
    fun h hnone => of_unread h fun x _ => hnone x
  cases op with
  | acceptNewClients => exact absurd rfl hop
  | lobby id =>
      cases h
      exact lobbyRound hids config id
  | processTimeouts =>
      cases h
      exact hunread (Each.processTimeouts unread_kept config s) fun _ h => h
  | pruneDisconnected =>
      cases h
      exact hunread (Each.pruneDisconnected unread_kept s) fun _ h => h
  | prune id =>
      cases h
      exact hunread (Each.pruneSession unread_kept s id) fun _ h => h
  | join id =>
      cases h
      exact joinRound hids id
  | allocate request =>
      cases h
      exact hunread (.of_sessions rfl) fun _ h => h
  | readClock =>
      cases h
      exact hunread (.refl s) fun _ h => h
  | probeRoom roomId =>
      cases h
      exact hunread (Each.probeRoom unread_kept s roomId) fun _ h => h
  | tickRoom roomId elapsed =>
      obtain ⟨t, ht, heq⟩ := Loops.map_eq_ok.mp h
      cases heq
      exact hunread (Each.tickRoom unread_kept ht) fun _ h => h
  | playRoomInputs roomId => exact playRoomInputs hids h
  | finish roomId winner reason =>
      obtain ⟨t, ht, heq⟩ := Loops.map_eq_ok.mp h
      cases heq
      exact hunread (Each.finish unread_kept hids ht) fun _ h => h
  | removeInactiveRooms =>
      cases h
      exact hunread (.of_sessions rfl) fun _ h => h

end Reads

end Server

end KungFuChess
