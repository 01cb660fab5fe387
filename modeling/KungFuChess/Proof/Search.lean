import KungFuChess.Proof.Sessions

/-!
# The messages of a search

A client that is told `searching` waits for an opponent. It is told so before it is told of its match, as
long as nobody waits when it asks for a game: the answer to its request comes after the request has been
served, and a request that finds a partner is served by making the match.
-/

namespace KungFuChess

open Machine

/-- No `searching` comes after a message by which a search ends in a game. -/
def SearchesFirst (sent : List ServerMessage) : Prop :=
  sent.Pairwise fun earlier later => earlier.isMatch = true → later ≠ .searching

instance (sent : List ServerMessage) : Decidable (SearchesFirst sent) :=
  inferInstanceAs (Decidable (List.Pairwise _ sent))

/-! ### What is sent over a connection -/

namespace ClientConnection

variable (connection : ClientConnection)

@[simp] theorem detectPeerDisconnect_sent : connection.detectPeerDisconnect.sent = connection.sent := by
  unfold detectPeerDisconnect
  split
  · rfl
  · cases connection.link with
    | up => rfl
    | unwritable => rfl
    | failed => rfl
    | ended =>
        dsimp only
        split
        · rfl
        · rfl

@[simp] theorem tryRead_sent (reader : Reader) : (connection.tryRead reader).2.sent = connection.sent := by
  unfold tryRead
  split
  · rfl
  · dsimp only
    split
    · rfl
    · split
      · exact detectPeerDisconnect_sent _
      · rfl
      · rfl

/-- A message that is written is the last one. -/
theorem write_sent (message : ServerMessage) :
    (connection.write message).sent = connection.sent ∨ (connection.write message).sent = connection.sent ++ [message] := by
  unfold write
  cases connection.link with
  | up => exact .inr rfl
  | ended => exact .inr rfl
  | unwritable => exact .inl rfl
  | failed => exact .inl rfl

theorem trySend_sent (message : ServerMessage) :
    (connection.trySend message).sent = connection.sent ∨
      (connection.trySend message).sent = connection.sent ++ [message] := by
  unfold trySend
  dsimp only
  split
  · exact .inl connection.detectPeerDisconnect_sent
  · rw [← connection.detectPeerDisconnect_sent]
    exact write_sent _ message

end ClientConnection

namespace Server

variable {config : ServerConfig} {s s' t : Server} {id other : PlayerId} {x y : PlayerSession}

/-! ### One session -/

/-- Who plays goes on playing, and is told nothing more of a search; who does not play is told of no match. -/
structure Told (x y : PlayerSession) : Prop where
  goesOn : GoesOnPlaying x y
  sent : ∃ more, y.connection.sent = x.connection.sent ++ more ∧ ∀ message ∈ more, MayTell y message

theorem Told.of_sent (hgoes : GoesOnPlaying x y) (hsent : y.connection.sent = x.connection.sent) : Told x y :=
  ⟨hgoes, [], by rw [hsent, List.append_nil], by simp⟩

/-- At most one message has been sent. -/
theorem Told.of_one {connection : ClientConnection} {message : ServerMessage} (htell : MayTell x message)
    (hsent : connection.sent = x.connection.sent ∨ connection.sent = x.connection.sent ++ [message]) :
    Told x { x with connection } := by
  have hgoes : GoesOnPlaying x { x with connection } := ⟨rfl, fun h => h⟩
  rcases hsent with hsame | hmore
  · exact .of_sent hgoes hsame
  · refine ⟨hgoes, [message], hmore, fun m hm => ?_⟩
    rw [List.mem_singleton.mp hm]
    exact htell

theorem told_kept : Kept Told where
  refl _ := .of_sent ⟨rfl, fun h => h⟩ rfl
  trans := by
    rintro x y z ⟨hgoes, more, hmore, htell⟩ ⟨hgoes', more', hmore', htell'⟩
    refine ⟨goesOnPlaying_kept.trans hgoes hgoes', more ++ more', ?_, fun message hmessage => ?_⟩
    · rw [hmore', hmore, List.append_assoc]
    · rcases List.mem_append.mp hmessage with hold | hnew
      · obtain ⟨hsearching, hmatch⟩ := htell message hold
        exact ⟨hsearching, fun h => hgoes'.2 (hmatch h)⟩
      · exact htell' message hnew
  probe x := .of_sent ⟨rfl, fun h => h⟩ x.connection.detectPeerDisconnect_sent
  send htell := .of_one htell (ClientConnection.trySend_sent _ _)
  sendMessage htell _ := .of_one htell (ClientConnection.write_sent _ _)
  data hf x := .of_sent (hf x.toSessionData) rfl

/-- So far, and as long as the session does not play it has been told of no match. -/
structure InOrder (x : PlayerSession) : Prop where
  searchesFirst : SearchesFirst x.connection.sent
  unmatched : x.state ≠ .playing → ∀ message ∈ x.connection.sent, message.isMatch = false

theorem InOrder.told (h : InOrder x) (htold : Told x y) : InOrder y := by
  obtain ⟨⟨-, hgoes⟩, more, hmore, htell⟩ := htold
  refine ⟨?_, fun hstate message hmessage => ?_⟩
  · rw [hmore]
    refine List.pairwise_append.mpr ⟨h.searchesFirst, ?_, fun earlier _ later hlater _ => (htell later hlater).1⟩
    exact List.pairwise_of_forall_mem_list fun earlier _ later hlater _ => (htell later hlater).1
  · rw [hmore, List.mem_append] at hmessage
    rcases hmessage with hold | hnew
    · exact h.unmatched (fun hplaying => hstate (hgoes hplaying)) message hold
    · exact Bool.eq_false_iff.mpr fun hmatch => hstate ((htell message hnew).2 hmatch)

theorem InOrder.sendSearching (h : InOrder x) (hstate : x.state ≠ .playing) :
    InOrder { x with connection := x.connection.trySend .searching } := by
  have hunmatched := h.unmatched hstate
  rcases x.connection.trySend_sent .searching with hsame | hmore
  · exact h.told (.of_sent ⟨rfl, fun h => h⟩ hsame)
  · refine ⟨?_, fun _ message hmessage => ?_⟩
    · change SearchesFirst (x.connection.trySend .searching).sent
      rw [hmore]
      refine List.pairwise_append.mpr ⟨h.searchesFirst, List.pairwise_singleton _ _, fun earlier hearlier _ _ hmatch => ?_⟩
      rw [hunmatched earlier hearlier] at hmatch
      cases hmatch
    · change message ∈ (x.connection.trySend .searching).sent at hmessage
      rw [hmore, List.mem_append, List.mem_singleton] at hmessage
      rcases hmessage with hold | rfl
      · exact hunmatched message hold
      · rfl

/-! ### All sessions with one id -/

/-- The sessions with this id have been told everything in order. -/
def ToldInOrder (s : Server) (id : PlayerId) : Prop := ∀ x ∈ s.sessions, x.id = id → InOrder x

theorem ToldInOrder.each (h : ToldInOrder s id) (heach : Each Told s t) : ToldInOrder t id := by
  intro y hy hid
  obtain ⟨x, hx, htold⟩ := heach y hy
  exact (h x hx (htold.goesOn.1.symm.trans hid)).told htold

/-- A session is told that it searches: another one, or one that does not play. -/
theorem ToldInOrder.sendSearching (h : ToldInOrder s id)
    (hstate : ∀ x ∈ s.sessions, x.id = id → other = id → x.state ≠ .playing) :
    ToldInOrder (s.send other .searching) id := by
  intro y hy hid
  obtain ⟨x, hx, rfl⟩ := List.mem_map.mp hy
  split at hid
  · rename_i heq
    rw [if_pos heq]
    exact (h x hx hid).sendSearching (hstate x hx hid (heq.symm.trans hid))
  · rename_i hne
    rw [if_neg hne]
    exact h x hx hid

/-! ### The operations -/

/-- What has been read off a connection is no matter here. -/
theorem Each.tryRead (hids : (sessionIds s).Nodup) (reader : Reader) (id : PlayerId) :
    Each Told s (s.tryRead reader id).2 := by
  unfold Server.tryRead
  cases hx : s.findSession id with
  | none => exact Each.refl told_kept s
  | some x =>
      obtain ⟨hmem, hid⟩ := findSession_some hx
      refine Each.modifySession told_kept s id fun z hz hidz => ?_
      obtain rfl : z = x := List.inj_on_of_nodup_map hids hz hmem (hidz.trans hid.symm)
      exact .of_sent ⟨rfl, fun h => h⟩ (ClientConnection.tryRead_sent _ reader)

theorem Each.pollPlayerInput (hids : (sessionIds s).Nodup) (room : Room) (player : GamePlayer) :
    Each Told s (s.pollPlayerInput room player).2 := by
  have hread := Each.tryRead hids .input player.playerId
  obtain ⟨answer, t, hanswer⟩ : ∃ answer t, s.tryRead .input player.playerId = (answer, t) := ⟨_, _, rfl⟩
  unfold Server.pollPlayerInput
  rw [hanswer] at hread ⊢
  split
  · exact Each.refl told_kept s
  · split
    · exact Each.refl told_kept s
    · cases answer with
      | none => exact hread
      | some message => exact hread

theorem Each.pollRoomInputs (hids : (sessionIds s).Nodup) (room : Room) :
    Each Told s (s.pollRoomInputs room).2 := by
  unfold Server.pollRoomInputs
  cases room.whitePlayer with
  | none =>
      cases room.blackPlayer with
      | none => exact Each.refl told_kept s
      | some black => exact Each.pollPlayerInput hids room black
  | some white =>
      cases room.blackPlayer with
      | none => exact Each.pollPlayerInput hids room white
      | some black =>
          refine Each.trans told_kept (Each.pollPlayerInput hids room white) (Each.pollPlayerInput ?_ room black)
          rw [sessionIds_eq, data_eq_of_bare (pollPlayerInput_bare s room white), ← sessionIds_eq]
          exact hids

theorem Each.playRoomInputs (hids : (sessionIds s).Nodup) {roomId : RoomId} {winner : Option PieceColor}
    (h : s.playRoomInputs roomId = .ok (winner, s')) : Each Told s s' := by
  unfold Server.playRoomInputs at h
  cases hroom : s.rooms.findRoom roomId with
  | none =>
      rw [hroom] at h
      cases h
      exact Each.refl told_kept s
  | some room =>
      rw [hroom] at h
      obtain ⟨answer, -, hrest⟩ := Loops.bind_eq_ok.mp h
      cases hrest
      exact Each.thenSessions told_kept (Each.pollRoomInputs hids room) rfl

theorem Each.joinRound (hids : (sessionIds s).Nodup) (id : PlayerId) : Each Told s (s.joinRound id) := by
  have hread := Each.tryRead hids .join id
  obtain ⟨answer, t, hanswer⟩ : ∃ answer t, s.tryRead .join id = (answer, t) := ⟨_, _, rfl⟩
  unfold Server.joinRound
  rw [hanswer] at hread ⊢
  split
  · exact Each.refl told_kept s
  · split
    · exact Each.refl told_kept s
    · cases answer with
      | none => exact hread
      | some message =>
          dsimp only
          cases parseJoinGameMessage message with
          | none => exact hread
          | some roomId => exact Each.trans told_kept hread (Each.handleJoinGame told_kept t _ roomId)

theorem Each.occur (s : Server) (event : NetEvent) : Each Told s (s.occur event) := by
  cases event with
  | connect => exact Each.of_sessions told_kept rfl
  | deliver id content => exact Each.modifySession told_kept s id fun _ _ _ => .of_sent ⟨rfl, fun h => h⟩ rfl
  | setLink id link => exact Each.modifySession told_kept s id fun _ _ _ => .of_sent ⟨rfl, fun h => h⟩ rfl
  | pass duration => exact Each.of_sessions told_kept rfl

/-! ### The lobby -/

/-- A round of the lobby that finds no partner leaves a session that does not play where it is, or it searches. -/
theorem lobbyRound_not_playing (hwf : Wf s) (hnone : nextPartner config s id = none)
    (hidle : ∀ x ∈ s.data, x.id = id → x.state ≠ .playing) :
    ∀ y ∈ (s.lobbyRound config id).data, y.id = id → y.state ≠ .playing := by
  obtain ⟨t, hstep, hbare⟩ := lobbyRound_step config hwf.nextRoomFree id
  rw [data_eq_of_bare hbare]
  cases hstep with
  | idle => exact hidle
  | login _ _ _ _ _ _ _ _ =>
      rw [data_loggedIn]
      intro y hy hid
      obtain ⟨x, hx, rfl⟩ := List.mem_map.mp hy
      split at hid
      · rename_i heq
        rw [if_pos heq]
        exact hidle x hx heq
      · rename_i hne
        exact absurd hid hne
  | wait _ _ =>
      rw [data_searching]
      intro y hy hid
      obtain ⟨x, hx, rfl⟩ := List.mem_map.mp hy
      split at hid
      · rename_i heq
        rw [if_pos heq]
        unfold SessionData.requestPlay
        split
        · simp
        · exact hidle x hx heq
      · rename_i hne
        exact absurd hid hne
  | pair _ _ _ hchosen _ _ _ _ =>
      rw [hnone] at hchosen
      cases hchosen

theorem ToldInOrder.lobbyRound (h : ToldInOrder s id) (hwf : Wf s)
    (hnone : other = id → nextPartner config s id = none) : ToldInOrder (s.lobbyRound config other) id := by
  have hstays : other = id → (∀ x ∈ s.data, x.id = id → x.state ≠ .playing) →
      ∀ y ∈ (s.lobbyRound config other).data, y.id = id → y.state ≠ .playing := by
    intro h
    obtain rfl := h
    exact lobbyRound_not_playing hwf (hnone rfl)
  have hread := Each.tryRead hwf.sessions .lobby other
  have hbare := bare_tryRead s .lobby other
  obtain ⟨answer, t, hanswer⟩ : ∃ answer t, s.tryRead .lobby other = (answer, t) := ⟨_, _, rfl⟩
  unfold Server.lobbyRound at hstays ⊢
  cases hx : s.findSession other with
  | none => exact h
  | some x =>
      obtain ⟨hmem, rfl⟩ := data_of_findSession hx
      rw [hx, hanswer] at hstays
      rw [hanswer] at hread hbare ⊢
      dsimp only at hstays ⊢
      split
      · exact h
      · rename_i hlobby
        rw [if_neg hlobby] at hstays
        rw [not_or] at hlobby
        cases answer with
        | none => exact h.each hread
        | some message =>
            dsimp only at hstays ⊢
            have hids : (sessionIds t).Nodup := by
              rw [sessionIds_eq, data_eq_of_bare hbare, ← sessionIds_eq]
              exact hwf.sessions
            have hanswer := handleLobbyMessage_answer told_kept hids config x message
            obtain ⟨u, hu⟩ : ∃ u, t.handleLobbyMessage config x message = u := ⟨_, rfl⟩
            rw [hu] at hanswer hstays ⊢
            replace h := h.each hread
            cases hanswer with
            | quiet heach => exact h.each heach
            | waits heach hsearching =>
                refine (h.each heach).sendSearching fun y hy hid hsame => ?_
                rw [hsearching y hy (hid.trans hsame.symm)]
                simp
            | @pairs u heach hplaying =>
                refine (h.each heach).sendSearching fun y hy hid hsame => ?_
                apply hstays hsame
                · intro z hz hidz
                  rw [hwf.eq_of_id hz hmem (hidz.trans hsame.symm)]
                  exact hlobby.1
                · rw [data_eq_of_bare (bare_send u x.id .searching)]
                  exact List.mem_map_of_mem hy
                · exact hid

/-! ### Runs -/

/-- The request to play that a session makes finds no partner. -/
def FindsNoPartner (config : ServerConfig) (id : PlayerId) (s : Server) (step : NetEvent ⊕ ServerOp) : Prop :=
  step = .inr (.lobby id) → nextPartner config s id = none

theorem ToldInOrder.apply (h : ToldInOrder s id) (hwf : Wf s) {op : ServerOp}
    (hnone : FindsNoPartner config id s (.inr op)) {r : op.Result} (happly : s.apply config op = .ok (r, s')) :
    ToldInOrder s' id := by
  cases op with
  | acceptNewClients =>
      cases happly
      rcases acceptNewClients_cases config s with hidle | ⟨-, -, backlog, haccept⟩
      · rw [hidle]
        exact h
      · rw [haccept]
        intro x hx hid
        rcases List.mem_append.mp hx with hold | hnew
        · exact h x hold hid
        · rw [List.mem_singleton.mp hnew]
          exact ⟨List.Pairwise.nil, by simp⟩
  | lobby other =>
      cases happly
      refine h.lobbyRound hwf ?_
      intro h
      obtain rfl := h
      exact hnone rfl
  | processTimeouts =>
      cases happly
      exact h.each (Each.processTimeouts told_kept config s)
  | pruneDisconnected =>
      cases happly
      exact h.each (Each.pruneDisconnected told_kept s)
  | prune other =>
      cases happly
      exact h.each (Each.pruneSession told_kept s other)
  | join other =>
      cases happly
      exact h.each (Each.joinRound hwf.sessions other)
  | allocate request =>
      cases happly
      exact h.each (Each.of_sessions told_kept rfl)
  | readClock =>
      cases happly
      exact h
  | probeRoom roomId =>
      cases happly
      exact h.each (Each.probeRoom told_kept s roomId)
  | tickRoom roomId elapsed =>
      obtain ⟨t, ht, heq⟩ := Loops.map_eq_ok.mp happly
      cases heq
      exact h.each (Each.tickRoom told_kept ht)
  | playRoomInputs roomId => exact h.each (Each.playRoomInputs hwf.sessions happly)
  | finish roomId winner reason =>
      obtain ⟨t, ht, heq⟩ := Loops.map_eq_ok.mp happly
      cases heq
      exact h.each (Each.finish told_kept hwf.sessions ht)
  | removeInactiveRooms =>
      cases happly
      exact h.each (Each.of_sessions told_kept rfl)

/-- A session that has found nobody waiting whenever it asked for a game is told `searching` before it is told of
its match. -/
theorem searches_first_of_run {users : UserRepository} {games : GameRepository} {now : Nat}
    {script : List (List NetEvent)} {w : ServerWorld config} {x : PlayerSession}
    (hleads : Leads { state := boot users games now, script } w) (hx : x ∈ w.state.sessions)
    (hnone : ∀ y ∈ w.history, FindsNoPartner config x.id y.1 y.2) : SearchesFirst x.connection.sent := by
  have hrun := hleads.invariant (M := serverMachine config) (P := fun s _ => Wf s ∧ ToldInOrder s x.id)
    (C := FindsNoPartner config x.id) ?_ ?_ ⟨.boot users games now, ?_⟩ hnone
  · exact (hrun.2 x hx rfl).searchesFirst
  · rintro s history event ⟨hwf, h⟩ -
    exact ⟨hwf.occur event, h.each (Each.occur s event)⟩
  · intro s history op r s' h
    obtain ⟨hwf, h⟩ := h
    intro hnone happly
    exact ⟨hwf.apply happly, h.apply hwf hnone happly⟩
  · intro y hy
    cases hy

/-- The first of two clients that ask for a game. -/
theorem searches_first_of_run_first :
    ∃ w x, Leads (sampleWorld untilGame) w ∧ x ∈ w.state.sessions ∧ x.state = .playing ∧
      ServerMessage.searching ∈ x.connection.sent ∧ SearchesFirst x.connection.sent := by
  have hrun : (serve sampleConfig (List.replicate 4 .gameServerTick)).reaches (sampleWorld untilGame)
      (fun _ w => decide (∃ x ∈ w.state.sessions, x.state = .playing ∧ ServerMessage.searching ∈ x.connection.sent ∧
        ∀ y ∈ w.history, y.2 = .inr (.lobby x.id) → nextPartner sampleConfig y.1 x.id = none)) = true := by
    decide +kernel
  obtain ⟨_, w, hrun, hw⟩ := Prog.reaches_eq_true hrun
  obtain ⟨x, hx, hstate, hsent, hnone⟩ := of_decide_eq_true hw
  exact ⟨w, x, Leads.of_run hrun, hx, hstate, hsent, searches_first_of_run (Leads.of_run hrun) hx hnone⟩

/-- The second client is told of the game, and then that it searches. -/
theorem not_searches_first_second :
    ∃ w x, (serve sampleConfig (List.replicate 4 .gameServerTick)).run (sampleWorld untilGame) = .ok ((), w) ∧
      x ∈ w.state.sessions ∧ ¬SearchesFirst x.connection.sent := by
  have hrun : (serve sampleConfig (List.replicate 4 .gameServerTick)).reaches (sampleWorld untilGame)
      (fun _ w => decide (∃ x ∈ w.state.sessions, ¬SearchesFirst x.connection.sent)) = true := by
    decide +kernel
  obtain ⟨_, w, hrun, hw⟩ := Prog.reaches_eq_true hrun
  obtain ⟨x, hx, hsent⟩ := of_decide_eq_true hw
  exact ⟨w, x, hrun, hx, hsent⟩

end Server

end KungFuChess
