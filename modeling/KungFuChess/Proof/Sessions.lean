import KungFuChess.Proof.Endings

/-!
# Session by session

What a session says, and what is said to it, changes in few ways: its data changes and keeps the id, a
message is sent to it, its connection is probed. A relation between a session before and after that
each of these keeps is kept by every operation of the server, up to the reads and up to the message
that a search has begun; both are for whoever uses the relation.
-/

namespace KungFuChess

/-- The messages by which a search ends in a game. -/
def ServerMessage.isMatch : ServerMessage → Bool
  | .matchFound _ | .gameStart _ | .gameRedirect _ _ _ => true
  | _ => false

namespace Server

variable {config : ServerConfig} {s s' t : Server} {id : PlayerId} {roomId : RoomId}
  {R : PlayerSession → PlayerSession → Prop}

/-- Messages that are sent to a session, `searching` apart: those of a match go to one that plays. -/
def MayTell (x : PlayerSession) (message : ServerMessage) : Prop :=
  message ≠ .searching ∧ (message.isMatch = true → x.state = .playing)

theorem MayTell.plain {message : ServerMessage} (hsearching : message ≠ .searching) (hmatch : message.isMatch = false)
    (x : PlayerSession) : MayTell x message := by
  refine ⟨hsearching, fun h => ?_⟩
  rw [hmatch] at h
  cases h

/-- The id stays, and who plays goes on playing. -/
def Changes (f : SessionData → SessionData) : Prop :=
  ∀ x, (f x).id = x.id ∧ (x.state = .playing → (f x).state = .playing)

/-- A relation that whatever happens to a session keeps. -/
structure Kept (R : PlayerSession → PlayerSession → Prop) : Prop where
  refl : ∀ x, R x x
  trans : ∀ {x y z}, R x y → R y z → R x z
  probe : ∀ x, R x { x with connection := x.connection.detectPeerDisconnect }
  send : ∀ {x message}, MayTell x message → R x { x with connection := x.connection.trySend message }
  sendMessage : ∀ {x message}, MayTell x message → x.connection.isOpen = true →
    R x { x with connection := x.connection.sendMessage message }
  data : ∀ {f}, Changes f → ∀ x, R x { x with toSessionData := f x.toSessionData }

/-- Every session that is there was there, and is related to what it was. -/
def Each (R : PlayerSession → PlayerSession → Prop) (s s' : Server) : Prop :=
  ∀ y ∈ s'.sessions, ∃ x ∈ s.sessions, R x y

theorem requestPlay_changes : Changes SessionData.requestPlay := by
  refine fun x => ⟨x.requestPlay_id, fun hstate => ?_⟩
  unfold SessionData.requestPlay
  rw [if_neg (by simp [hstate])]
  exact hstate

theorem cancelSearch_changes : Changes SessionData.cancelSearch := by
  refine fun x => ⟨x.cancelSearch_id, fun hstate => ?_⟩
  unfold SessionData.cancelSearch
  rw [if_neg (by simp [hstate])]
  exact hstate

theorem release_changes (player : FinishedPlayerState) : Changes player.release := by
  intro x
  unfold FinishedPlayerState.release
  cases player.profile with
  | none => exact ⟨rfl, fun hstate => hstate⟩
  | some profile => exact ⟨rfl, fun hstate => hstate⟩

namespace Each

section Rules

variable (hR : Kept R)

include hR

theorem refl (s : Server) : Each R s s := fun y hy => ⟨y, hy, hR.refl y⟩

theorem trans (h : Each R s s') (h' : Each R s' t) : Each R s t := by
  intro z hz
  obtain ⟨y, hy, hyz⟩ := h' z hz
  obtain ⟨x, hx, hxy⟩ := h y hy
  exact ⟨x, hx, hR.trans hxy hyz⟩

theorem of_sessions (h : s'.sessions = s.sessions) : Each R s s' := by
  intro y hy
  rw [h] at hy
  exact ⟨y, hy, hR.refl y⟩

theorem sublist (h : s'.sessions.Sublist s.sessions) : Each R s s' := fun y hy => ⟨y, h.subset hy, hR.refl y⟩

theorem modifySession (s : Server) (id : PlayerId) {f : PlayerSession → PlayerSession}
    (hf : ∀ x ∈ s.sessions, x.id = id → R x (f x)) : Each R s (s.modifySession id f) := by
  intro y hy
  obtain ⟨x, hx, rfl⟩ := List.mem_map.mp hy
  refine ⟨x, hx, ?_⟩
  split
  · rename_i hid
    exact hf x hx hid
  · exact hR.refl x

theorem send (s : Server) (id : PlayerId) {message : ServerMessage}
    (htell : ∀ x ∈ s.sessions, x.id = id → MayTell x message) : Each R s (s.send id message) :=
  modifySession hR s id fun x hx hid => hR.send (htell x hx hid)

theorem probe (s : Server) (id : PlayerId) : Each R s (s.probe id) :=
  modifySession hR s id fun x _ _ => hR.probe x

theorem modifyData (s : Server) (id : PlayerId) {f : SessionData → SessionData} (hf : Changes f) :
    Each R s (s.modifyData id f) :=
  modifySession hR s id fun x _ _ => hR.data hf x

theorem sendMessage (hids : (sessionIds s).Nodup) (hopen : s.isPlayerConnected id = true) {message : ServerMessage}
    (htell : ∀ x, MayTell x message) : Each R s (s.sendMessage id message) := by
  refine modifySession hR s id fun x hx hid => hR.sendMessage (htell x) ?_
  obtain ⟨found, hfound, hopen⟩ := (Option.any_eq_true _ _).mp hopen
  obtain ⟨hmem, hfoundId⟩ := findSession_some hfound
  rw [List.inj_on_of_nodup_map hids hx hmem (hid.trans hfoundId.symm)]
  exact hopen

theorem thenSend (h : Each R s t) (id : PlayerId) {message : ServerMessage}
    (htell : ∀ x ∈ t.sessions, x.id = id → MayTell x message) : Each R s (t.send id message) :=
  trans hR h (send hR t id htell)

theorem thenModifyData (h : Each R s t) (id : PlayerId) {f : SessionData → SessionData} (hf : Changes f) :
    Each R s (t.modifyData id f) :=
  trans hR h (modifyData hR t id hf)

theorem thenSessions (h : Each R s t) (hsessions : s'.sessions = t.sessions) : Each R s s' :=
  trans hR h (of_sessions hR hsessions)

/-! ### Operations that send what anybody may be sent -/

theorem pruneDisconnected (s : Server) : Each R s s.pruneDisconnected := by
  intro y hy
  obtain ⟨x, hx, rfl⟩ := List.mem_map.mp hy
  exact ⟨x, hx, hR.probe x⟩

theorem pruneSession (s : Server) (id : PlayerId) : Each R s (s.pruneSession id) := by
  unfold Server.pruneSession
  cases s.findSession id with
  | none => exact refl hR s
  | some session =>
      dsimp only
      split
      · exact refl hR s
      · apply sublist hR
        refine List.filter_sublist.trans ?_
        unfold onSessionDisconnected
        cases session.username with
        | none =>
            dsimp only
            split
            · exact List.Sublist.refl _
            · exact List.Sublist.refl _
        | some username =>
            dsimp only
            split
            · exact List.Sublist.refl _
            · exact List.Sublist.refl _

theorem processTimeouts (config : ServerConfig) (s : Server) : Each R s (s.processTimeouts config) := by
  have hfold : ∀ (ids : List PlayerId) (t : Server), Each R s t → Each R s (ids.foldl notifySearchTimeout t) := by
    intro ids
    induction ids with
    | nil => exact fun t h => h
    | cons id ids ih =>
        intro t h
        apply ih
        exact thenModifyData hR (thenSend hR h id fun _ _ _ => .plain (by simp) rfl _) id
          cancelSearch_changes
  unfold Server.processTimeouts checkTimeouts
  exact hfold _ _ (of_sessions hR rfl)

theorem probeRoom (s : Server) (roomId : RoomId) : Each R s (s.probeRoom roomId) := by
  unfold Server.probeRoom
  cases s.rooms.findRoom roomId with
  | none => exact refl hR s
  | some room =>
      dsimp only
      cases room.whitePlayer with
      | none =>
          cases room.blackPlayer with
          | none => exact refl hR s
          | some black => exact probe hR s _
      | some white =>
          cases room.blackPlayer with
          | none => exact probe hR s _
          | some black => exact trans hR (probe hR s _) (probe hR _ _)

theorem sendSnapshot (s : Server) (player : Option GamePlayer) (snapshot : Text) :
    Each R s (s.sendSnapshot player snapshot) := by
  unfold Server.sendSnapshot
  cases player with
  | none => exact refl hR s
  | some player =>
      dsimp only
      split
      · exact send hR s _ fun _ _ _ => .plain (by simp) rfl _
      · exact refl hR s

theorem tickRoom {elapsed : Int} (h : s.tickRoom config roomId elapsed = .ok s') : Each R s s' := by
  unfold Server.tickRoom at h
  cases hroom : s.rooms.findRoom roomId with
  | none =>
      rw [hroom] at h
      cases h
      exact refl hR s
  | some room =>
      rw [hroom] at h
      obtain ⟨game, -, hrest⟩ := Loops.bind_eq_ok.mp h
      cases hrest
      have hmodified : Each R s (s.modifyRoom roomId ({ · with game })) := of_sessions hR rfl
      refine thenSessions hR ?_ rfl
      exact trans hR (trans hR hmodified (sendSnapshot hR _ _ _)) (sendSnapshot hR _ _ _)

/-! ### The end of a game -/

theorem notify (hids : (sessionIds s).Nodup) (id : PlayerId) (won : Bool) (reason : FinishReason) (rating : Int) :
    Each R s (if s.isPlayerConnected id then s.sendMessage id (.gameResult won reason rating) else s) := by
  split
  · rename_i hopen
    exact sendMessage hR hids hopen fun _ => .plain (by simp) rfl _
  · exact refl hR s

theorem notifyGameFinished (hids : (sessionIds s).Nodup) (white black : PlayerId) (winner : PieceColor)
    (reason : FinishReason) (change : RatingChange) :
    Each R s (s.notifyGameFinished white black winner reason change) := by
  have hkept : ∀ id message,
      sessionIds (if s.isPlayerConnected id then s.sendMessage id message else s) = sessionIds s := by
    intro id message
    rw [sessionIds_eq, sessionIds_eq]
    split
    · rw [data_eq_of_bare (bare_sendMessage s id message)]
    · rfl
  unfold Server.notifyGameFinished
  refine trans hR (notify hR hids white _ _ _) (thenSessions hR (notify hR ?_ black _ _ _) rfl)
  rw [hkept]
  exact hids

omit hR in
theorem recordResult_sessions (config : ServerConfig) (s : Server) (room : Room) (white black : GamePlayer)
    (winner : Option PieceColor) (reason : FinishReason) :
    (s.recordResult config room white black winner reason).2.sessions = s.sessions := by
  have hratings : ∀ winner loser gameId, (s.updateRatingsForResult config winner loser gameId).2.sessions = s.sessions := by
    intro winner loser gameId
    unfold updateRatingsForResult
    split
    · rfl
    · rfl
  unfold recordResult
  split
  · rfl
  · exact hratings ..
  · exact hratings ..
  · split
    · rfl
    · rfl

theorem recordAndNotify (hids : (sessionIds s).Nodup) (config : ServerConfig) (room : Room) (white black : GamePlayer)
    (winner : Option PieceColor) (reason : FinishReason) :
    Each R s (recordAndNotify config s room white black winner reason) := by
  obtain ⟨change, recorded, hresult⟩ : ∃ change recorded,
      s.recordResult config room white black winner reason = (change, recorded) := ⟨_, _, rfl⟩
  have hsessions : recorded.sessions = s.sessions := by
    rw [← recordResult_sessions config s room white black winner reason, hresult]
  have hkept : (sessionIds recorded).Nodup := by
    unfold sessionIds
    rw [hsessions]
    exact hids
  unfold Server.recordAndNotify
  rw [hresult]
  dsimp only
  split
  · exact trans hR (of_sessions hR hsessions) (notifyGameFinished hR hkept _ _ _ _ _)
  · exact of_sessions hR hsessions

theorem cleanupFinishedPlayer {player : FinishedPlayerState} (h : s.cleanupFinishedPlayer player = .ok s') :
    Each R s s' := by
  unfold Server.cleanupFinishedPlayer at h
  cases hfind : s.findSession player.playerId with
  | none =>
      rw [hfind] at h
      cases h
      exact refl hR s
  | some session =>
      rw [hfind] at h
      dsimp only at h
      split at h
      · cases h
        exact thenSessions hR (modifyData hR s player.playerId (release_changes player)) rfl
      · cases h

theorem finish (hids : (sessionIds s).Nodup) {winner : Option PieceColor} {reason : FinishReason}
    (h : s.finish config roomId winner reason = .ok s') : Each R s s' := by
  rcases finish_ok h with ⟨rfl, -⟩ | ⟨room, white, black, online, hends, -⟩
  · exact refl hR _
  · rw [finish_eq hends] at h
    obtain ⟨t, hwhite, hblack⟩ := Loops.bind_eq_ok.mp h
    have hrecorded := recordAndNotify hR hids config room white black winner reason
    refine trans hR (trans hR ?_ (cleanupFinishedPlayer hR hwhite)) (cleanupFinishedPlayer hR hblack)
    exact thenSessions hR hrecorded rfl

/-! ### What the lobby and the join handler answer -/

theorem login (config : ServerConfig) (s : Server) (id : PlayerId) (request : LoginRequest) :
    Each R s (s.login config id request) := by
  unfold Server.login
  split
  · exact send hR s id fun _ _ _ => .plain (by simp) rfl _
  · split
    · exact thenSend hR (of_sessions hR rfl) id fun _ _ _ => .plain (by simp) rfl _
    · rename_i player users _
      refine thenSend hR ?_ id fun _ _ _ => .plain (by simp) rfl _
      rw [registerSession_eq]
      have hbound : Each R s ({ s with users }.bindAuthenticatedUser id player) :=
        thenModifyData hR (of_sessions hR rfl) id fun _ => ⟨rfl, fun hstate => hstate⟩
      exact thenSessions hR hbound rfl

theorem handleJoinGame (s : Server) (x : PlayerSession) (roomId : RoomId) : Each R s (s.handleJoinGame x roomId) := by
  have hfail : ∀ reason, Each R s (s.send x.id (.joinFailed reason)) :=
    fun reason => send hR s x.id fun _ _ _ => .plain (by simp) rfl _
  have hjoin : ∀ side, Each R s (s.joinRoom x.id roomId side) := by
    intro side
    refine thenSend hR (modifyData hR s x.id ?_) x.id fun _ _ _ => .plain (by simp) rfl _
    exact fun _ => ⟨rfl, fun _ => rfl⟩
  unfold Server.handleJoinGame
  dsimp only
  split
  · exact hfail _
  · split
    · exact hfail _
    · split
      · exact hfail _
      · split
        · split
          · exact hjoin .white
          · split
            · exact hjoin .black
            · exact hfail _
        · exact hfail _

end Rules

end Each

/-! ### A match -/

/-- The sessions with this id play. -/
def AllPlaying (s : Server) (id : PlayerId) : Prop := ∀ x ∈ s.sessions, x.id = id → x.state = .playing

/-- Who plays goes on playing. -/
def GoesOnPlaying (x y : PlayerSession) : Prop := y.id = x.id ∧ (x.state = .playing → y.state = .playing)

theorem goesOnPlaying_kept : Kept GoesOnPlaying where
  refl _ := ⟨rfl, fun h => h⟩
  trans h h' := ⟨h'.1.trans h.1, fun hstate => h'.2 (h.2 hstate)⟩
  probe _ := ⟨rfl, fun h => h⟩
  send _ := ⟨rfl, fun h => h⟩
  sendMessage _ _ := ⟨rfl, fun h => h⟩
  data hf x := hf x.toSessionData

namespace AllPlaying

theorem each (h : AllPlaying s id) (heach : Each GoesOnPlaying s t) : AllPlaying t id := by
  intro y hy hid
  obtain ⟨x, hx, hsame, hplaying⟩ := heach y hy
  exact hplaying (h x hx (hsame.symm.trans hid))

theorem of_sessions (h : AllPlaying s id) (hsessions : t.sessions = s.sessions) : AllPlaying t id := by
  unfold AllPlaying
  rw [hsessions]
  exact h

theorem setPlaying (s : Server) (id : PlayerId) : AllPlaying (s.modifyData id (·.setPlaying)) id := by
  intro y hy hid
  obtain ⟨x, -, rfl⟩ := List.mem_map.mp hy
  split at hid
  · rename_i hx
    rw [if_pos hx]
    rfl
  · rename_i hx
    exact absurd hid hx

theorem modifyData (h : AllPlaying s id) (other : PlayerId) {f : SessionData → SessionData} (hf : Changes f) :
    AllPlaying (s.modifyData other f) id :=
  h.each (Each.modifyData goesOnPlaying_kept s other hf)

theorem mayTell (h : AllPlaying s id) {message : ServerMessage} (hsearching : message ≠ .searching) :
    ∀ x ∈ s.sessions, x.id = id → MayTell x message :=
  fun x hx hid => ⟨hsearching, fun _ => h x hx hid⟩

theorem send (h : AllPlaying s id) {other : PlayerId} {message : ServerMessage}
    (htell : ∀ x ∈ s.sessions, x.id = other → MayTell x message) : AllPlaying (s.send other message) id :=
  h.each (Each.send goesOnPlaying_kept s other htell)

theorem takeSides (s : Server) (white black : PlayerId) :
    AllPlaying (s.takeSides white black) white ∧ AllPlaying (s.takeSides white black) black := by
  have hside : ∀ side, Changes (·.setSide side) := fun _ _ => ⟨rfl, fun hstate => hstate⟩
  have hsides : ∀ id, AllPlaying ((s.modifyData white (·.setPlaying)).modifyData black (·.setPlaying)) id →
      AllPlaying (s.takeSides white black) id :=
    fun id h => (h.modifyData white (hside .white)).modifyData black (hside .black)
  refine ⟨hsides white ?_, hsides black (setPlaying _ black)⟩
  exact (setPlaying s white).modifyData black fun _ => ⟨rfl, fun _ => rfl⟩

end AllPlaying

namespace Each

/-- Both players of a match are sent something of it. -/
theorem sendBoth (hR : Kept R) {white black : PlayerId} (hwhite : AllPlaying s white) (hblack : AllPlaying s black)
    {first second : ServerMessage} (hfirst : first ≠ .searching) (hsecond : second ≠ .searching) :
    Each R s ((s.send white first).send black second) :=
  thenSend hR (send hR s white (hwhite.mayTell hfirst)) black ((hblack.send (hwhite.mayTell hfirst)).mayTell hsecond)

theorem assignRooms (hR : Kept R) (s : Server) (white black : PlayerId) (roomId : RoomId) :
    Each R s ((s.modifyData white (·.assignRoom roomId)).modifyData black (·.assignRoom roomId)) := by
  have hassign : Changes (·.assignRoom roomId) := fun _ => ⟨rfl, fun hstate => hstate⟩
  exact thenModifyData hR (modifyData hR s white hassign) black hassign

theorem enterRoom (hR : Kept R) (config : ServerConfig) {white black : PlayerId} (hwhite : AllPlaying s white)
    (hblack : AllPlaying s black) (whiteUser blackUser : SessionUser) (roomId : RoomId) :
    Each R s (s.enterRoom config white black whiteUser blackUser roomId) := by
  have hplaying := assignRooms goesOnPlaying_kept s white black roomId
  refine thenSessions hR ?_ rfl
  exact trans hR (thenSessions hR (assignRooms hR s white black roomId) rfl)
    (sendBoth hR (s := { (s.modifyData white (·.assignRoom roomId)).modifyData black (·.assignRoom roomId) with
      store := _ }) (hwhite.each hplaying) (hblack.each hplaying) (by simp) (by simp))

theorem createRoom_sessions (config : ServerConfig) (s : Server) (request : GameCreationRequest) :
    (s.createRoom config request).2.sessions = s.sessions := by
  unfold createRoom
  rfl

theorem takeSides (hR : Kept R) (s : Server) (white black : PlayerId) : Each R s (s.takeSides white black) := by
  have hside : ∀ side, Changes (·.setSide side) := fun _ _ => ⟨rfl, fun hstate => hstate⟩
  have hplay : Changes (·.setPlaying) := fun _ => ⟨rfl, fun _ => rfl⟩
  exact thenModifyData hR (thenModifyData hR (thenModifyData hR (modifyData hR s white hplay) black hplay) white
    (hside .white)) black (hside .black)

/-- What follows once both have taken their sides. -/
theorem createMatch_rest (hR : Kept R) (config : ServerConfig) (s : Server) (white black : PlayerId) :
    Each R (s.takeSides white black) (s.createMatch config white black) := by
  obtain ⟨hwhite, hblack⟩ := AllPlaying.takeSides s white black
  unfold Server.createMatch
  dsimp only
  split
  · rename_i whiteUser blackUser _ _
    have hsessions := createRoom_sessions config
      { s.takeSides white black with
        games := ((s.takeSides white black).games.createGame whiteUser.profile.id blackUser.profile.id).2 }
      ⟨whiteUser.userId, blackUser.userId,
        ((s.takeSides white black).games.createGame whiteUser.profile.id blackUser.profile.id).1⟩
    refine trans hR (of_sessions hR hsessions) (enterRoom hR config ?_ ?_ _ _ _)
    · exact hwhite.of_sessions hsessions
    · exact hblack.of_sessions hsessions
  · exact refl hR _

theorem createMatch (hR : Kept R) (config : ServerConfig) (s : Server) (white black : PlayerId) :
    Each R s (s.createMatch config white black) :=
  trans hR (takeSides hR s white black) (createMatch_rest hR config s white black)

theorem notifyMatchCreated (hR : Kept R) {white black : PlayerId} (hwhite : AllPlaying s white)
    (hblack : AllPlaying s black) : Each R s (s.notifyMatchCreated white black) := by
  have hfound : Each GoesOnPlaying s ((s.send white (.matchFound .white)).send black (.matchFound .black)) :=
    sendBoth goesOnPlaying_kept hwhite hblack (by simp) (by simp)
  exact trans hR (sendBoth hR hwhite hblack (by simp) (by simp))
    (sendBoth hR (hwhite.each hfound) (hblack.each hfound) (by simp) (by simp))

end Each

theorem createMatch_playing (config : ServerConfig) (s : Server) (white black : PlayerId) :
    AllPlaying (s.createMatch config white black) white ∧ AllPlaying (s.createMatch config white black) black := by
  obtain ⟨hwhite, hblack⟩ := AllPlaying.takeSides s white black
  have hrest := Each.createMatch_rest goesOnPlaying_kept config s white black
  exact ⟨hwhite.each hrest, hblack.each hrest⟩

/-! ### A message to the lobby -/

/-- Nothing is said but what anybody may be told; or a session that searches is told so, or one that plays by then. -/
inductive LobbyAnswer (R : PlayerSession → PlayerSession → Prop) (s : Server) (id : PlayerId) : Server → Prop where
  | quiet {s' : Server} (each : Each R s s') : LobbyAnswer R s id s'
  | waits {t : Server} (each : Each R s t) (searching : ∀ x ∈ t.sessions, x.id = id → x.state = .searching) :
      LobbyAnswer R s id (t.send id .searching)
  | pairs {t : Server} (each : Each R s t) (playing : AllPlaying t id) : LobbyAnswer R s id (t.send id .searching)

theorem enqueue_sessions (config : ServerConfig) (s : Server) (x : PlayerSession) :
    (s.enqueue config x).2.sessions = s.sessions ∧ ∀ pair ∈ (s.enqueue config x).1, pair.2 = x.id := by
  unfold enqueue
  split
  · exact ⟨rfl, by simp⟩
  · cases s.waiting.find? (s.canPair config x) with
    | none => exact ⟨rfl, by simp⟩
    | some entry => exact ⟨rfl, by simp⟩

theorem play_answer (hR : Kept R) (hids : (sessionIds s).Nodup) (config : ServerConfig) (id : PlayerId) :
    LobbyAnswer R s id (s.play config id) := by
  have hasks : Each R s (s.modifyData id (·.requestPlay)) := Each.modifyData hR s id requestPlay_changes
  have hkept : (sessionIds (s.modifyData id (·.requestPlay))).Nodup := by
    have hsame := sessionIds_map (data_modifyData s id (·.requestPlay)) fun x => by
      split
      · exact x.requestPlay_id
      · rfl
    rw [hsame]
    exact hids
  unfold play
  dsimp only
  split
  · rename_i hsearches
    obtain ⟨x, hx, hstate⟩ := (Option.any_eq_true _ _).mp hsearches
    obtain ⟨hmem, hid⟩ := findSession_some hx
    obtain ⟨hsessions, hblack⟩ := enqueue_sessions config (s.modifyData id (·.requestPlay)) x
    obtain ⟨pair, queued, hqueue⟩ : ∃ pair queued,
        (s.modifyData id (·.requestPlay)).enqueue config x = (pair, queued) := ⟨_, _, rfl⟩
    unfold joinMatchmaking
    rw [hx]
    dsimp only
    rw [hqueue] at hsessions hblack ⊢
    rcases pair with _ | ⟨white, black⟩
    · refine .waits (Each.thenSessions hR hasks hsessions) fun y hy hidy => ?_
      change y ∈ queued.sessions at hy
      rw [hsessions] at hy
      rw [List.inj_on_of_nodup_map hkept hy hmem (hidy.trans hid.symm)]
      exact of_decide_eq_true hstate
    · obtain rfl : black = id := (hblack _ rfl).trans hid
      obtain ⟨hwhite, hblack⟩ := createMatch_playing config queued white black
      refine .pairs ?_ (hblack.each (Each.notifyMatchCreated goesOnPlaying_kept hwhite hblack))
      have hmatched := Each.createMatch hR config queued white black
      exact Each.trans hR (Each.trans hR (Each.thenSessions hR hasks hsessions) hmatched)
        (Each.notifyMatchCreated hR hwhite hblack)
  · exact .quiet hasks

theorem handleLobbyMessage_answer (hR : Kept R) (hids : (sessionIds s).Nodup) (config : ServerConfig)
    (x : PlayerSession) (message : Text) : LobbyAnswer R s x.id (s.handleLobbyMessage config x message) := by
  unfold handleLobbyMessage
  split
  · exact .quiet (Each.refl hR s)
  · split
    · split
      · exact .quiet (Each.login hR config s _ _)
      · exact .quiet (Each.refl hR s)
    · split
      · exact play_answer hR hids config x.id
      · exact .quiet (Each.refl hR s)

end Server

end KungFuChess
