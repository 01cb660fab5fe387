import KungFuChess.Proof.Faults
import KungFuChess.Proof.Reading
import KungFuChess.Proof.Search

/-!
# What the server says, and to whom

An operation changes what some sessions say of their players and sends messages to some of them. Here is, for every
operation, which sessions it may touch and what it may say to whom. From it follows for whole runs that everything a
client has ever heard was said by a step of the run, for the reason that the step gives.
-/

namespace KungFuChess

open Machine Loops

/-- The answers to a login. -/
def ServerMessage.isLogin : ServerMessage → Bool
  | .loginOk _ | .loginFailed _ => true
  | _ => false

/-- The answers to a request to play, those of a match apart. -/
def ServerMessage.isSearch : ServerMessage → Bool
  | .searching | .searchFailed => true
  | _ => false

theorem ClientConnection.detectPeerDisconnect_pending (connection : ClientConnection) :
    connection.detectPeerDisconnect.pending = connection.pending :=
  (ClientConnection.Unread.detectPeerDisconnect connection).pending

namespace Server

variable {config : ServerConfig} {s s' t : Server} {id other : PlayerId} {roomId : RoomId}
  {touches : PlayerId → Prop} {tells : PlayerId → ServerMessage → Prop}

/-- What one of the two players of a new match is told. -/
inductive Announces (config : ServerConfig) (roomId : RoomId) (side : PieceColor) : ServerMessage → Prop where
  | found : Announces config roomId side (.matchFound side)
  | started : Announces config roomId side (.gameStart side)
  | redirected {endpoint : Text} (host : config.endpoint ≠ [] → endpoint = config.endpoint) :
      Announces config roomId side (.gameRedirect endpoint roomId side)

/-! ### Sessions before and after -/

/-- The session is the same up to what may be touched and what may be said, and nothing has come in. -/
structure Upto (touches : PlayerId → Prop) (tells : PlayerId → ServerMessage → Prop) (x y : PlayerSession) : Prop where
  id : y.id = x.id
  data : ¬touches x.id → y.toSessionData = x.toSessionData
  pending : y.connection.pending ⊆ x.connection.pending
  sent : ∃ said, y.connection.sent = x.connection.sent ++ said ∧ ∀ message ∈ said, tells x.id message

namespace Upto

variable {x y z : PlayerSession}

theorem of_silent {connection : ClientConnection} (hsent : connection.sent = x.connection.sent)
    (hpending : connection.pending ⊆ x.connection.pending) : Upto touches tells x { x with connection } :=
  ⟨rfl, fun _ => rfl, hpending, [], hsent.trans (List.append_nil _).symm, fun _ h => absurd h List.not_mem_nil⟩

theorem refl (x : PlayerSession) : Upto touches tells x x := of_silent rfl fun _ h => h

theorem trans (h : Upto touches tells x y) (h' : Upto touches tells y z) : Upto touches tells x z := by
  obtain ⟨hid, hdata, hpending, said, hsent, htells⟩ := h
  obtain ⟨hid', hdata', hpending', said', hsent', htells'⟩ := h'
  rw [hid] at hdata' htells'
  refine ⟨hid'.trans hid, fun h => (hdata' h).trans (hdata h), fun _ hframe => hpending (hpending' hframe),
    said ++ said', ?_, fun message hmessage => ?_⟩
  · rw [hsent', hsent, List.append_assoc]
  · exact (List.mem_append.mp hmessage).elim (htells message) (htells' message)

theorem probe (x : PlayerSession) : Upto touches tells x { x with connection := x.connection.detectPeerDisconnect } :=
  of_silent x.connection.detectPeerDisconnect_sent fun _ h => by
    rwa [ClientConnection.detectPeerDisconnect_pending] at h

theorem tryRead (x : PlayerSession) (reader : Reader) :
    Upto touches tells x { x with connection := (x.connection.tryRead reader).2 } := by
  obtain ⟨taken, htook, -⟩ := ClientConnection.took_tryRead x.connection reader
  refine of_silent (x.connection.tryRead_sent reader) fun frame hframe => ?_
  rw [htook.pending]
  exact List.mem_append_right _ hframe

theorem of_one {connection : ClientConnection} {message : ServerMessage} (htells : tells x.id message)
    (hsent : connection.sent = x.connection.sent ∨ connection.sent = x.connection.sent ++ [message])
    (hpending : connection.pending ⊆ x.connection.pending) : Upto touches tells x { x with connection } := by
  rcases hsent with hsent | hsent
  · exact of_silent hsent hpending
  · refine ⟨rfl, fun _ => rfl, hpending, [message], hsent, ?_⟩
    exact List.forall_mem_singleton.mpr htells

theorem data_of_touched {f : SessionData → SessionData} (hid : ∀ x, (f x).id = x.id) (htouches : touches x.id) :
    Upto touches tells x { x with toSessionData := f x.toSessionData } :=
  ⟨hid x.toSessionData, fun h => absurd htouches h, fun _ h => h, [], (List.append_nil _).symm,
    fun _ h => absurd h List.not_mem_nil⟩

end Upto

/-- Every session that is there was there, and is the same up to what may be touched and what may be said. -/
def Speaks (touches : PlayerId → Prop) (tells : PlayerId → ServerMessage → Prop) (s s' : Server) : Prop :=
  ∀ y ∈ s'.sessions, ∃ x ∈ s.sessions, Upto touches tells x y

namespace Speaks

theorem of_sessions (h : s'.sessions = s.sessions) : Speaks touches tells s s' := by
  intro y hy
  rw [h] at hy
  exact ⟨y, hy, .refl y⟩

theorem refl (s : Server) : Speaks touches tells s s := of_sessions rfl

theorem trans (h : Speaks touches tells s s') (h' : Speaks touches tells s' t) : Speaks touches tells s t := by
  intro z hz
  obtain ⟨y, hy, hyz⟩ := h' z hz
  obtain ⟨x, hx, hxy⟩ := h y hy
  exact ⟨x, hx, hxy.trans hyz⟩

theorem sublist (h : s'.sessions.Sublist s.sessions) : Speaks touches tells s s' :=
  fun y hy => ⟨y, h.subset hy, .refl y⟩

theorem thenSessions (h : Speaks touches tells s t) (hsessions : s'.sessions = t.sessions) : Speaks touches tells s s' :=
  h.trans (of_sessions hsessions)

theorem modifySession (s : Server) (other : PlayerId) {f : PlayerSession → PlayerSession}
    (hf : ∀ x ∈ s.sessions, x.id = other → Upto touches tells x (f x)) :
    Speaks touches tells s (s.modifySession other f) := by
  intro y hy
  obtain ⟨x, hx, rfl⟩ := List.mem_map.mp hy
  refine ⟨x, hx, ?_⟩
  split
  · rename_i hid
    exact hf x hx hid
  · exact .refl x

theorem send (s : Server) {message : ServerMessage} (htells : tells other message) :
    Speaks touches tells s (s.send other message) := by
  refine modifySession s other fun x _ hid => .of_one (hid ▸ htells) (x.connection.trySend_sent message) ?_
  rw [(ClientConnection.Unread.trySend x.connection message).pending]
  exact fun _ h => h

/-- `send_message` looks at no link, and writes or closes. -/
theorem sendMessage (s : Server) {message : ServerMessage} (htells : tells other message) :
    Speaks touches tells s (s.sendMessage other message) := by
  refine modifySession s other fun x _ hid =>
    .of_one (hid ▸ htells) (ClientConnection.write_sent { x.connection with isOpen := true } message) ?_
  have hpending := (ClientConnection.Unread.write { x.connection with isOpen := true } message).pending
  exact fun _ hframe => hpending ▸ hframe

theorem modifyData (s : Server) {f : SessionData → SessionData} (htouches : touches other)
    (hid : ∀ x, (f x).id = x.id) : Speaks touches tells s (s.modifyData other f) :=
  modifySession s other fun _ _ hother => .data_of_touched hid (hother ▸ htouches)

theorem thenSend (h : Speaks touches tells s t) {message : ServerMessage} (htells : tells other message) :
    Speaks touches tells s (t.send other message) := h.trans (send t htells)

theorem thenModifyData (h : Speaks touches tells s t) {f : SessionData → SessionData} (htouches : touches other)
    (hid : ∀ x, (f x).id = x.id) : Speaks touches tells s (t.modifyData other f) := h.trans (modifyData t htouches hid)

/-! ### Operations that say nothing -/

theorem probe (s : Server) (other : PlayerId) : Speaks touches tells s (s.probe other) :=
  modifySession s other fun x _ _ => .probe x

theorem pruneDisconnected (s : Server) : Speaks touches tells s s.pruneDisconnected := by
  intro y hy
  obtain ⟨x, hx, rfl⟩ := List.mem_map.mp hy
  exact ⟨x, hx, .probe x⟩

theorem pruneSession (s : Server) (other : PlayerId) : Speaks touches tells s (s.pruneSession other) := by
  rcases pruneSession_cases s other with hidle | ⟨x, -, -, hprune⟩
  · rw [hidle]
    exact refl s
  · rw [hprune]
    exact sublist List.filter_sublist

theorem tryRead (hids : (sessionIds s).Nodup) (reader : Reader) (other : PlayerId) :
    Speaks touches tells s (s.tryRead reader other).2 := by
  unfold Server.tryRead
  cases hfind : s.findSession other with
  | none => exact refl s
  | some z =>
      obtain ⟨hmem, hidz⟩ := findSession_some hfind
      refine modifySession s other fun x hx hid => ?_
      obtain rfl : x = z := List.inj_on_of_nodup_map hids hx hmem (hid.trans hidz.symm)
      exact .tryRead x reader

theorem pollPlayerInput (hids : (sessionIds s).Nodup) (room : Room) (player : GamePlayer) :
    Speaks touches tells s (s.pollPlayerInput room player).2 := by
  have hread : Speaks touches tells s (s.tryRead .input player.playerId).2 := tryRead hids .input player.playerId
  obtain ⟨answer, t, hanswer⟩ : ∃ answer t, s.tryRead .input player.playerId = (answer, t) := ⟨_, _, rfl⟩
  unfold Server.pollPlayerInput
  rw [hanswer] at hread ⊢
  split
  · exact refl s
  · split
    · exact refl s
    · cases answer with
      | none => exact hread
      | some message => exact hread

theorem pollRoomInputs (hids : (sessionIds s).Nodup) (room : Room) :
    Speaks touches tells s (s.pollRoomInputs room).2 := by
  unfold Server.pollRoomInputs
  cases room.whitePlayer with
  | none =>
      cases room.blackPlayer with
      | none => exact refl s
      | some black => exact pollPlayerInput hids room black
  | some white =>
      cases room.blackPlayer with
      | none => exact pollPlayerInput hids room white
      | some black =>
          refine (pollPlayerInput hids room white).trans (pollPlayerInput ?_ room black)
          rw [sessionIds_eq, data_eq_of_bare (pollPlayerInput_bare s room white), ← sessionIds_eq]
          exact hids

theorem playRoomInputs (hids : (sessionIds s).Nodup) {winner : Option PieceColor}
    (h : s.playRoomInputs roomId = .ok (winner, s')) : Speaks touches tells s s' := by
  unfold Server.playRoomInputs at h
  cases hroom : s.rooms.findRoom roomId with
  | none =>
      rw [hroom] at h
      cases h
      exact refl s
  | some room =>
      rw [hroom] at h
      obtain ⟨answer, -, hrest⟩ := bind_eq_ok.mp h
      cases hrest
      exact (pollRoomInputs hids room).thenSessions rfl

theorem probeRoom (s : Server) (roomId : RoomId) : Speaks touches tells s (s.probeRoom roomId) := by
  unfold Server.probeRoom
  cases s.rooms.findRoom roomId with
  | none => exact refl s
  | some room =>
      dsimp only
      cases room.whitePlayer with
      | none =>
          cases room.blackPlayer with
          | none => exact refl s
          | some black => exact probe s _
      | some white =>
          cases room.blackPlayer with
          | none => exact probe s _
          | some black => exact (probe s _).trans (probe _ _)

end Speaks

/-! ### The lobby -/

theorem userOf_modifyConnection (s : Server) (id other : PlayerId) (f : ClientConnection → ClientConnection) :
    (s.modifyConnection id f).userOf other = s.userOf other := by
  unfold userOf
  rw [findSession_modifyConnection]
  cases s.findSession other with
  | none => rfl
  | some x =>
      rw [Option.map_some, Option.bind_some, Option.bind_some]
      split
      · rfl
      · rfl

theorem userOf_isSome_of_eligible (h : (s.findSession id).any isEligible = true) : (s.userOf id).isSome := by
  obtain ⟨x, hfind, heligible⟩ := (Option.any_eq_true _ _).mp h
  rw [userOf, hfind]
  exact (Bool.and_eq_true_iff.mp heligible).1

namespace Speaks

theorem login (config : ServerConfig) (s : Server) (request : LoginRequest) (htouches : touches id)
    (htells : ∀ answer : ServerMessage, answer.isLogin = true → tells id answer) :
    Speaks touches tells s (s.login config id request) := by
  unfold Server.login
  split
  · exact send s (htells _ rfl)
  · split
    · exact thenSend (of_sessions rfl) (htells _ rfl)
    · rename_i player users _
      dsimp only
      rw [registerSession_eq]
      have hbound : Speaks touches tells s ({ s with users }.bindAuthenticatedUser id player) :=
        thenModifyData (of_sessions rfl) htouches fun _ => rfl
      exact thenSend (hbound.thenSessions rfl) (htells _ rfl)

section Match

variable {white black : PlayerId} (hwhite : touches white) (hblack : touches black)
  (htellsWhite : ∀ message, Announces config s.rooms.nextId .white message → tells white message)
  (htellsBlack : ∀ message, Announces config s.rooms.nextId .black message → tells black message)

include hwhite hblack in
theorem modifyBoth (s : Server) {f g : SessionData → SessionData} (hf : ∀ x, (f x).id = x.id)
    (hg : ∀ x, (g x).id = x.id) : Speaks touches tells s ((s.modifyData white f).modifyData black g) :=
  thenModifyData (modifyData s hwhite hf) hblack hg

include hwhite hblack htellsWhite htellsBlack in
theorem createMatch : Speaks touches tells s (s.createMatch config white black) := by
  have hsides : Speaks touches tells s (s.takeSides white black) := by
    refine (modifyBoth hwhite hblack s ?_ ?_).trans (modifyBoth hwhite hblack _ ?_ ?_)
    all_goals exact fun _ => rfl
  unfold Server.createMatch
  dsimp only
  split
  · rename_i whiteUser blackUser _ _
    obtain ⟨created, hcreated, hsessions⟩ : ∃ created, { s.takeSides white black with
        games := ((s.takeSides white black).games.createGame whiteUser.profile.id blackUser.profile.id).2
        }.createRoom config ⟨whiteUser.userId, blackUser.userId,
          ((s.takeSides white black).games.createGame whiteUser.profile.id blackUser.profile.id).1⟩ =
          (s.rooms.nextId, created) ∧ created.sessions = (s.takeSides white black).sessions := ⟨_, rfl, rfl⟩
    rw [hcreated]
    have hassigned : Speaks touches tells s
        ((created.modifyData white (·.assignRoom s.rooms.nextId)).modifyData black (·.assignRoom s.rooms.nextId)) := by
      refine (hsides.thenSessions hsessions).trans (modifyBoth hwhite hblack created ?_ ?_)
      all_goals exact fun _ => rfl
    have hhost : ∀ t : Server, config.endpoint ≠ [] → t.resolveEndpoint config whiteUser.userId = config.endpoint := by
      intro t hendpoint
      rw [resolveEndpoint, if_pos (by simpa using hendpoint)]
    unfold Server.enterRoom sendGameRedirects
    exact ((hassigned.thenSessions rfl).thenSend (htellsWhite _ (.redirected (hhost _)))).thenSend
      (htellsBlack _ (.redirected (hhost _))) |>.thenSessions rfl
  · exact hsides

include htellsWhite htellsBlack in
theorem notifyMatchCreated (t : Server) : Speaks touches tells t (t.notifyMatchCreated white black) :=
  (((send t (htellsWhite _ .found)).thenSend (htellsBlack _ .found)).thenSend (htellsWhite _ .started)).thenSend
    (htellsBlack _ .started)

end Match

theorem play (huser : (s.userOf id).isSome) (htouches : ∀ other, (s.userOf other).isSome → touches other)
    (hsearch : ∀ answer : ServerMessage, answer.isSearch = true → tells id answer)
    (hwhite : ∀ entry ∈ s.waiting, (s.userOf entry.session).isSome →
      ∀ message, Announces config s.rooms.nextId .white message → tells entry.session message)
    (hblack : ∀ message, Announces config s.rooms.nextId .black message → tells id message) :
    Speaks touches tells s (s.play config id) := by
  have hid := htouches id huser
  have hasks : Speaks touches tells s (s.modifyData id (·.requestPlay)) := modifyData s hid SessionData.requestPlay_id
  unfold Server.play
  dsimp only
  split
  · unfold joinMatchmaking
    cases hfind : (s.modifyData id (·.requestPlay)).findSession id with
    | none => exact thenSend (thenModifyData hasks hid SessionData.cancelSearch_id) (hsearch _ rfl)
    | some x =>
        dsimp only
        obtain ⟨-, hidx⟩ := findSession_some hfind
        by_cases heligible : isEligible x = true
        · rcases enqueue_cases config heligible with
            hwaits | ⟨before, entry, after, y, hsplit, -, hfindy, heligibley, hpair⟩
          · rw [hwaits]
            exact (hasks.thenSessions rfl).thenSend (hsearch _ rfl)
          · rw [hpair, hidx]
            have hmem : entry ∈ s.waiting := by
              rw [show s.waiting = before ++ entry :: after from hsplit]
              exact List.mem_append_right before List.mem_cons_self
            have hpartner : (s.userOf entry.session).isSome := by
              rw [← userOf_modifyData s id _ SessionData.requestPlay_id SessionData.requestPlay_user]
              refine userOf_isSome_of_eligible ?_
              rw [hfindy]
              exact heligibley
            have hmatched := @createMatch config { s.modifyData id (·.requestPlay) with waiting := before ++ after }
              _ _ _ _ (htouches _ hpartner) hid (hwhite entry hmem hpartner) hblack
            refine (((hasks.thenSessions rfl).trans hmatched).trans ?_).thenSend (hsearch _ rfl)
            exact notifyMatchCreated (hwhite entry hmem hpartner) hblack _
        · have hnone : (s.modifyData id (·.requestPlay)).enqueue config x = (none, s.modifyData id (·.requestPlay)) := by
            rw [enqueue, if_pos (by simpa using heligible)]
          rw [hnone]
          exact hasks.thenSend (hsearch _ rfl)
  · exact hasks

theorem processTimeouts (config : ServerConfig) (s : Server)
    (htouches : ∀ entry ∈ s.waiting, s.hasTimedOut config entry = true → touches entry.session)
    (htells : ∀ entry ∈ s.waiting, s.hasTimedOut config entry = true → tells entry.session .searchTimeout) :
    Speaks touches tells s (s.processTimeouts config) := by
  have hfold : ∀ (ids : List PlayerId) (t : Server), (∀ other ∈ ids, touches other ∧ tells other .searchTimeout) →
      Speaks touches tells s t → Speaks touches tells s (ids.foldl notifySearchTimeout t) := by
    intro ids
    induction ids with
    | nil => exact fun t _ h => h
    | cons other ids ih =>
        intro t hids ht
        obtain ⟨⟨htouched, htold⟩, hrest⟩ := List.forall_mem_cons.mp hids
        exact ih _ hrest (thenModifyData (thenSend ht htold) htouched SessionData.cancelSearch_id)
  unfold Server.processTimeouts checkTimeouts
  refine hfold _ _ ?_ (of_sessions rfl)
  intro other hother
  obtain ⟨entry, hentry, rfl⟩ := List.mem_map.mp hother
  obtain ⟨hmem, hlate⟩ := List.mem_filter.mp hentry
  exact ⟨htouches entry hmem hlate, htells entry hmem hlate⟩

end Speaks

/-! ### The rooms -/

namespace Speaks

/-- A client that does not ask for a room that waits for it stays where it is. -/
theorem handleJoinGame (s : Server) (x : PlayerSession) (roomId : RoomId) (htouches : x.user.isSome → touches x.id)
    (hjoined : ∀ side user room player, x.user = some user → s.rooms.findRoom roomId = some room → room.active = true →
      room.playerOf side = some player → player.userId = user.userId → tells x.id (.joinOk side))
    (hrefused : ∀ reason, (x.user = none → reason = .roomNotFound ∨ reason = .notAuthenticated) →
      tells x.id (.joinFailed reason)) :
    Speaks touches tells s (s.handleJoinGame x roomId) := by
  unfold Server.handleJoinGame
  dsimp only
  split
  · exact send s (hrefused _ fun _ => .inl rfl)
  · rename_i room hfind
    split
    · exact send s (hrefused _ fun _ => .inl rfl)
    · rename_i hactive
      have hactive : room.active = true := by simpa using hactive
      cases huser : x.user with
      | none =>
          rw [SessionData.userId, huser]
          exact send s (hrefused _ fun _ => .inr rfl)
      | some user =>
          have hsome : ∀ {reason : JoinFailure}, x.user = none → reason = .roomNotFound ∨ reason = .notAuthenticated := by
            intro reason hnone
            rw [hnone] at huser
            cases huser
          have hjoin : ∀ side player, room.playerOf side = some player → player.userId = user.userId →
              Speaks touches tells s (s.joinRoom x.id roomId side) := by
            intro side player hplayer hsame
            refine (thenModifyData (refl s) (htouches (by rw [huser]; rfl)) ?_).thenSend
              (hjoined side user room player huser hfind hactive hplayer hsame)
            exact fun _ => rfl
          rw [SessionData.userId, huser]
          dsimp only [Option.map_some]
          split
          · rename_i white black hwhite hblack
            split
            · rename_i hsame
              exact hjoin .white white hwhite hsame
            · split
              · rename_i hsame
                exact hjoin .black black hblack hsame
              · exact send s (hrefused _ hsome)
          · exact send s (hrefused _ hsome)

theorem sendSnapshot (s : Server) {player : Option GamePlayer} (snapshot : Text)
    (htells : ∀ p, player = some p → tells p.playerId (.snapshot snapshot)) :
    Speaks touches tells s (s.sendSnapshot player snapshot) := by
  unfold Server.sendSnapshot
  cases player with
  | none => exact refl s
  | some p =>
      dsimp only
      split
      · exact send s (htells p rfl)
      · exact refl s

theorem tickRoom {elapsed : Int}
    (htells : ∀ room game side player, s.rooms.findRoom roomId = some room → room.game.tick elapsed = .ok game →
      room.playerOf side = some player → tells player.playerId (.snapshot (config.generateSnapshot game)))
    (h : s.tickRoom config roomId elapsed = .ok s') : Speaks touches tells s s' := by
  unfold Server.tickRoom at h
  cases hroom : s.rooms.findRoom roomId with
  | none =>
      rw [hroom] at h
      cases h
      exact refl s
  | some room =>
      rw [hroom] at h
      obtain ⟨game, htick, hrest⟩ := bind_eq_ok.mp h
      cases hrest
      have htick := mapError_eq_ok.mp htick
      have hmodified : Speaks touches tells s (s.modifyRoom roomId ({ · with game })) := of_sessions rfl
      refine thenSessions ?_ rfl
      exact (hmodified.trans (sendSnapshot _ _ fun p => htells room game .white p hroom htick)).trans
        (sendSnapshot _ _ fun p => htells room game .black p hroom htick)

theorem notifyGameFinished (s : Server) {white black : PlayerId} {winner : PieceColor} {reason : FinishReason}
    {change : RatingChange}
    (hwhite : tells white (.gameResult (winner == .white) reason
      (if winner = .white then change.winnerNewRating else change.loserNewRating)))
    (hblack : tells black (.gameResult (winner == .black) reason
      (if winner = .black then change.winnerNewRating else change.loserNewRating))) :
    Speaks touches tells s (s.notifyGameFinished white black winner reason change) := by
  have hnotify : ∀ (t : Server) (other : PlayerId) (message : ServerMessage), tells other message →
      Speaks touches tells t (if t.isPlayerConnected other then t.sendMessage other message else t) := by
    intro t other message htold
    split
    · exact sendMessage t htold
    · exact refl t
  unfold Server.notifyGameFinished
  refine ((hnotify s white _ ?_).trans (hnotify _ black _ ?_)).thenSessions rfl
  · cases winner with
    | white => exact hwhite
    | black => exact hwhite
  · cases winner with
    | white => exact hblack
    | black => exact hblack

theorem cleanupFinishedPlayer {player : FinishedPlayerState} (htouches : touches player.playerId)
    (h : s.cleanupFinishedPlayer player = .ok s') : Speaks touches tells s s' := by
  unfold Server.cleanupFinishedPlayer at h
  cases hfind : s.findSession player.playerId with
  | none =>
      rw [hfind] at h
      cases h
      exact refl s
  | some session =>
      rw [hfind] at h
      dsimp only at h
      split at h
      · cases h
        exact (modifyData s htouches fun x => (release_changes player x).1).thenSessions rfl
      · cases h

theorem finish {winner : Option PieceColor} {reason : FinishReason}
    (htouches : ∀ room side player, s.rooms.findRoom roomId = some room → room.playerOf side = some player →
      touches player.playerId)
    (htells : ∀ room white black color change side player, Ends s roomId room white black → winner = some color →
      (s.recordResult config room white black winner reason).1 = some change → room.playerOf side = some player →
      tells player.playerId (.gameResult (color == side) reason
        (if color = side then change.winnerNewRating else change.loserNewRating)))
    (h : s.finish config roomId winner reason = .ok s') : Speaks touches tells s s' := by
  rcases finish_ok h with ⟨rfl, -⟩ | ⟨room, white, black, online, hends, -⟩
  · exact refl _
  · have hrecorded : Speaks touches tells s (recordAndNotify config s room white black winner reason) := by
      have htold := htells room white black
      obtain ⟨change, recorded, hresult⟩ : ∃ change recorded,
          s.recordResult config room white black winner reason = (change, recorded) := ⟨_, _, rfl⟩
      have hsessions : recorded.sessions = s.sessions := by
        rw [← Each.recordResult_sessions config s room white black winner reason, hresult]
      unfold recordAndNotify
      rw [hresult] at htold ⊢
      dsimp only
      split
      · exact (of_sessions hsessions).trans (notifyGameFinished _ (htold _ _ .white white hends rfl rfl hends.white)
          (htold _ _ .black black hends rfl rfl hends.black))
      · exact of_sessions hsessions
    rw [finish_eq hends] at h
    obtain ⟨t, hleft, hright⟩ := bind_eq_ok.mp h
    have hcleaned : Speaks touches tells s t := by
      refine trans ?_ (cleanupFinishedPlayer ?_ hleft)
      · exact hrecorded.thenSessions rfl
      · exact htouches room .white white hends.find hends.white
    refine hcleaned.trans (cleanupFinishedPlayer ?_ hright)
    exact htouches room .black black hends.find hends.black

end Speaks

/-! ### What is said by an operation -/

/-- What an operation may say, and to whom. -/
inductive Says (config : ServerConfig) (s : Server) : ServerOp → PlayerId → ServerMessage → Prop where
  | login {id : PlayerId} {message : Text} {request : LoginRequest} {answer : ServerMessage}
      (read : (s.tryRead .lobby id).1 = some message) (parsed : parseLoginMessage message = some request)
      (nobody : s.userOf id = none) (answers : answer.isLogin = true) : Says config s (.lobby id) id answer
  | search {id : PlayerId} {message : Text} {answer : ServerMessage}
      (read : (s.tryRead .lobby id).1 = some message) (parsed : parsePlayMessage message = true)
      (user : (s.userOf id).isSome) (answers : answer.isSearch = true) : Says config s (.lobby id) id answer
  | white {id : PlayerId} {message : Text} {entry : WaitingEntry} {answer : ServerMessage}
      (read : (s.tryRead .lobby id).1 = some message) (parsed : parsePlayMessage message = true)
      (waits : entry ∈ s.waiting) (user : (s.userOf entry.session).isSome)
      (announces : Announces config s.rooms.nextId .white answer) : Says config s (.lobby id) entry.session answer
  | black {id : PlayerId} {message : Text} {answer : ServerMessage}
      (read : (s.tryRead .lobby id).1 = some message) (parsed : parsePlayMessage message = true)
      (user : (s.userOf id).isSome) (announces : Announces config s.rooms.nextId .black answer) :
      Says config s (.lobby id) id answer
  | timeout {entry : WaitingEntry} (waits : entry ∈ s.waiting) (late : s.hasTimedOut config entry = true) :
      Says config s .processTimeouts entry.session .searchTimeout
  | joined {id : PlayerId} {message : Text} {roomId : RoomId} {side : PieceColor} {room : Room} {player : GamePlayer}
      {user : SessionUser} (read : (s.tryRead .join id).1 = some message)
      (parsed : parseJoinGameMessage message = some roomId) (asks : s.userOf id = some user)
      (find : s.rooms.findRoom roomId = some room) (active : room.active = true)
      (seated : room.playerOf side = some player) (same : player.userId = user.userId) :
      Says config s (.join id) id (.joinOk side)
  | refused {id : PlayerId} {message : Text} {roomId : RoomId} {reason : JoinFailure}
      (read : (s.tryRead .join id).1 = some message) (parsed : parseJoinGameMessage message = some roomId)
      (nobody : s.userOf id = none → reason = .roomNotFound ∨ reason = .notAuthenticated) :
      Says config s (.join id) id (.joinFailed reason)
  | snapshot {roomId : RoomId} {elapsed : Int} {room : Room} {game : Match} {side : PieceColor} {player : GamePlayer}
      (find : s.rooms.findRoom roomId = some room) (ticked : room.game.tick elapsed = .ok game)
      (seated : room.playerOf side = some player) :
      Says config s (.tickRoom roomId elapsed) player.playerId (.snapshot (config.generateSnapshot game))
  | result {roomId : RoomId} {winner side : PieceColor} {reason : FinishReason} {room : Room}
      {white black player : GamePlayer} {change : RatingChange} (ends : Ends s roomId room white black)
      (rated : (s.recordResult config room white black (some winner) reason).1 = some change)
      (seated : room.playerOf side = some player) :
      Says config s (.finish roomId (some winner) reason) player.playerId (.gameResult (winner == side) reason
        (if winner = side then change.winnerNewRating else change.loserNewRating))

/-- Whose session an operation may touch. -/
inductive Touches (s : Server) : ServerOp → PlayerId → Prop where
  | login {id : PlayerId} {message : Text} {request : LoginRequest}
      (read : (s.tryRead .lobby id).1 = some message) (parsed : parseLoginMessage message = some request) :
      Touches s (.lobby id) id
  | user {op : ServerOp} {id : PlayerId} (user : (s.userOf id).isSome) : Touches s op id
  | leave {roomId : RoomId} {winner : Option PieceColor} {reason : FinishReason} {room : Room} {side : PieceColor}
      {player : GamePlayer} (find : s.rooms.findRoom roomId = some room) (seated : room.playerOf side = some player) :
      Touches s (.finish roomId winner reason) player.playerId

/-- A board that is shown is that of a room, just ticked. -/
theorem Says.of_snapshot {op : ServerOp} {text : Text} (h : Says config s op id (.snapshot text)) :
    ∃ room ∈ s.rooms.rooms, ∃ elapsed game, op = .tickRoom room.id elapsed ∧ room.game.tick elapsed = .ok game ∧
      text = config.generateSnapshot game := by
  generalize hmessage : ServerMessage.snapshot text = message at h
  cases h with
  | snapshot find ticked _ =>
      cases hmessage
      obtain ⟨hroom, hid⟩ := findRoom_some find
      exact ⟨_, hroom, _, _, by rw [hid], ticked, rfl⟩
  | login _ _ _ answers =>
      rw [← hmessage] at answers
      cases answers
  | search _ _ _ answers =>
      rw [← hmessage] at answers
      cases answers
  | white _ _ _ _ announces =>
      rw [← hmessage] at announces
      cases announces
  | black _ _ _ announces =>
      rw [← hmessage] at announces
      cases announces
  | timeout _ _ => cases hmessage
  | joined _ _ _ _ _ _ _ => cases hmessage
  | refused _ _ _ => cases hmessage
  | result _ _ _ => cases hmessage

theorem userOf_tryRead (s : Server) (reader : Reader) (id other : PlayerId) :
    (s.tryRead reader id).2.userOf other = s.userOf other := by
  unfold tryRead
  cases s.findSession id with
  | none => rfl
  | some x => exact userOf_modifyConnection s id other _

theorem tryRead_rooms (s : Server) (reader : Reader) (id : PlayerId) :
    (s.tryRead reader id).2.rooms = s.rooms ∧ (s.tryRead reader id).2.waiting = s.waiting := by
  unfold tryRead
  cases s.findSession id with
  | none => exact ⟨rfl, rfl⟩
  | some x => exact ⟨rfl, rfl⟩

theorem lobbyRound_speaks (hwf : Wf s) (id : PlayerId) :
    Speaks (Touches s (.lobby id)) (Says config s (.lobby id)) s (s.lobbyRound config id) := by
  have hread : Speaks (Touches s (.lobby id)) (Says config s (.lobby id)) s (s.tryRead .lobby id).2 :=
    Speaks.tryRead hwf.sessions .lobby id
  have huserOf := userOf_tryRead s .lobby id
  obtain ⟨hrooms, hwaiting⟩ := tryRead_rooms s .lobby id
  unfold Server.lobbyRound
  cases hfind : s.findSession id with
  | none => exact .refl s
  | some x =>
      obtain ⟨-, rfl⟩ := findSession_some hfind
      have huser : s.userOf x.id = x.user := by rw [userOf, hfind, Option.bind_some]
      dsimp only
      split
      · exact .refl s
      · obtain ⟨answer, t, hanswer⟩ : ∃ answer t, s.tryRead .lobby x.id = (answer, t) := ⟨_, _, rfl⟩
        have hmessage : ∀ message, answer = some message → (s.tryRead .lobby x.id).1 = some message := by
          intro message h
          rw [hanswer, h]
        rw [hanswer] at hread huserOf hrooms hwaiting ⊢
        cases answer with
        | none => exact hread
        | some message =>
            have hmessage := hmessage message rfl
            refine hread.trans ?_
            dsimp only
            unfold handleLobbyMessage
            split
            · exact .refl t
            · split
              · rename_i hnone
                have hnone : s.userOf x.id = none := by
                  rw [huser]
                  simpa [SessionData.hasUser] using hnone
                cases hparse : parseLoginMessage message with
                | none => exact .refl t
                | some request =>
                    exact .login config t request (.login hmessage hparse)
                      fun answer hanswers => .login hmessage hparse hnone hanswers
              · rename_i hsome
                have hsome : (s.userOf x.id).isSome := by
                  rw [huser]
                  simpa only [SessionData.hasUser, Bool.not_eq_true', Bool.not_eq_false] using hsome
                split
                · rename_i hplay
                  refine .play ?_ ?_ ?_ ?_ ?_
                  · rwa [huserOf]
                  · intro other hother
                    exact .user ((huserOf other) ▸ hother)
                  · exact fun answer hanswers => .search hmessage hplay hsome hanswers
                  · intro entry hentry huser answer hannounces
                    rw [hwaiting] at hentry
                    rw [huserOf] at huser
                    rw [hrooms] at hannounces
                    exact .white hmessage hplay hentry huser hannounces
                  · intro answer hannounces
                    rw [hrooms] at hannounces
                    exact .black hmessage hplay hsome hannounces
                · exact .refl t

theorem joinRound_speaks (hwf : Wf s) (id : PlayerId) :
    Speaks (Touches s (.join id)) (Says config s (.join id)) s (s.joinRound id) := by
  have hread : Speaks (Touches s (.join id)) (Says config s (.join id)) s (s.tryRead .join id).2 :=
    Speaks.tryRead hwf.sessions .join id
  obtain ⟨hrooms, -⟩ := tryRead_rooms s .join id
  unfold Server.joinRound
  cases hfind : s.findSession id with
  | none => exact .refl s
  | some x =>
      obtain ⟨-, rfl⟩ := findSession_some hfind
      have huser : s.userOf x.id = x.user := by rw [userOf, hfind, Option.bind_some]
      dsimp only
      split
      · exact .refl s
      · obtain ⟨answer, t, hanswer⟩ : ∃ answer t, s.tryRead .join x.id = (answer, t) := ⟨_, _, rfl⟩
        have hmessage : ∀ message, answer = some message → (s.tryRead .join x.id).1 = some message := by
          intro message h
          rw [hanswer, h]
        rw [hanswer] at hread hrooms ⊢
        cases answer with
        | none => exact hread
        | some message =>
            have hmessage := hmessage message rfl
            dsimp only
            cases hparse : parseJoinGameMessage message with
            | none => exact hread
            | some roomId =>
                refine hread.trans (.handleJoinGame t x roomId ?_ ?_ ?_)
                · exact fun hsome => .user (huser ▸ hsome)
                · intro side user room player hx hroom hactive hplayer hsame
                  rw [hrooms] at hroom
                  exact .joined hmessage hparse (huser.trans hx) hroom hactive hplayer hsame
                · exact fun reason hreason => .refused hmessage hparse fun hnobody => hreason (huser ▸ hnobody)

/-- What every operation does to the sessions. -/
theorem Wf.apply_speaks (hwf : Wf s) {op : ServerOp} {r : op.Result} (happly : s.apply config op = .ok (r, s')) :
    ∀ y ∈ s'.sessions, (∃ x ∈ s.sessions, Upto (Touches s op) (Says config s op) x y) ∨
      y = { id := s.nextSessionId } := by
  have hold : Speaks (Touches s op) (Says config s op) s s' → ∀ y ∈ s'.sessions,
      (∃ x ∈ s.sessions, Upto (Touches s op) (Says config s op) x y) ∨ y = { id := s.nextSessionId } :=
    fun h y hy => .inl (h y hy)
  cases op with
  | acceptNewClients =>
      cases happly
      rcases acceptNewClients_cases config s with hidle | ⟨-, -, backlog, haccept⟩
      · exact hold (.of_sessions (by rw [hidle]))
      · rw [haccept]
        intro y hy
        rcases List.mem_append.mp hy with hy | hnew
        · exact .inl ⟨y, hy, .refl y⟩
        · exact .inr (List.mem_singleton.mp hnew)
  | lobby id =>
      cases happly
      exact hold (lobbyRound_speaks hwf id)
  | processTimeouts =>
      cases happly
      refine hold (.processTimeouts config s ?_ fun entry hentry hlate => .timeout hentry hlate)
      intro entry _ hlate
      exact .user (userOf_isSome_of_eligible (Bool.and_eq_true_iff.mp hlate).1)
  | pruneDisconnected =>
      cases happly
      exact hold (.pruneDisconnected s)
  | prune id =>
      cases happly
      exact hold (.pruneSession s id)
  | join id =>
      cases happly
      exact hold (joinRound_speaks hwf id)
  | allocate request =>
      cases happly
      exact hold (.of_sessions rfl)
  | readClock =>
      cases happly
      exact hold (.refl s)
  | probeRoom roomId =>
      cases happly
      exact hold (.probeRoom s roomId)
  | tickRoom roomId elapsed =>
      obtain ⟨t, ht, heq⟩ := map_eq_ok.mp happly
      cases heq
      exact hold (.tickRoom (fun room game side player hroom htick hplayer => .snapshot hroom htick hplayer) ht)
  | playRoomInputs roomId => exact hold (.playRoomInputs hwf.sessions happly)
  | finish roomId winner reason =>
      obtain ⟨t, ht, heq⟩ := map_eq_ok.mp happly
      cases heq
      refine hold (.finish (fun room side player hroom hplayer => .leave hroom hplayer) ?_ ht)
      intro room white black color change side player hends hcolor hrated hplayer
      obtain rfl := hcolor
      exact .result hends hrated hplayer
  | removeInactiveRooms =>
      cases happly
      exact hold (.refl s)

/-! ### What has been heard in a run -/

/-- What a session has heard: one after the other, what the steps of the run said to it. -/
inductive Heard (config : ServerConfig) (id : PlayerId) : History → List ServerMessage → Prop where
  | nil : Heard config id [] []
  | event {history : History} {sent : List ServerMessage} {s : Server} (event : NetEvent)
      (before : Heard config id history sent) : Heard config id (history ++ [(s, .inl event)]) sent
  | op {history : History} {sent said : List ServerMessage} {s : Server} {op : ServerOp}
      (before : Heard config id history sent) (tells : ∀ message ∈ said, Says config s op id message) :
      Heard config id (history ++ [(s, .inr op)]) (sent ++ said)

namespace Heard

theorem silent (config : ServerConfig) (id : PlayerId) (history : History) : Heard config id history [] := by
  induction history using List.reverseRecOn with
  | nil => exact .nil
  | append_singleton history x ih =>
      obtain ⟨s, event | op⟩ := x
      · exact .event event ih
      · exact @Heard.op config id history [] [] s op ih fun _ h => absurd h List.not_mem_nil

/-- Every message was said by a step. -/
theorem exists_step {history : History} {sent : List ServerMessage} (h : Heard config id history sent) :
    ∀ message ∈ sent, ∃ before s op after, history = before ++ (s, .inr op) :: after ∧ Says config s op id message := by
  induction h with
  | nil => exact fun _ h => absurd h List.not_mem_nil
  | event event _ ih =>
      intro message hmessage
      obtain ⟨before, s, op, after, rfl, hspoken⟩ := ih message hmessage
      exact ⟨before, s, op, after ++ [_], by rw [List.append_assoc, List.cons_append], hspoken⟩
  | op _ htells ih =>
      intro message hmessage
      rcases List.mem_append.mp hmessage with hold | hnew
      · obtain ⟨before, s, op, after, rfl, hspoken⟩ := ih message hold
        exact ⟨before, s, op, after ++ [_], by rw [List.append_assoc, List.cons_append], hspoken⟩
      · exact ⟨_, _, _, [], rfl, htells message hnew⟩

theorem of_leads {users : UserRepository} {games : GameRepository} {now : Nat} {script : List (List NetEvent)}
    {w : ServerWorld config} (hleads : Leads { state := Server.boot users games now, script } w) :
    ∀ x ∈ w.state.sessions, Heard config x.id w.history x.connection.sent := by
  refine (hleads.invariant (M := serverMachine config) (C := fun _ _ => True)
    (P := fun s history => Wf s ∧ ∀ x ∈ s.sessions, Heard config x.id history x.connection.sent) ?_ ?_
    ⟨.boot users games now, fun _ hx => absurd hx List.not_mem_nil⟩ fun _ _ => trivial).2
  · intro s history event h _
    obtain ⟨hwf, hheard⟩ := h
    refine ⟨hwf.occur event, fun y hy => ?_⟩
    have hsame : ∃ x ∈ s.sessions, y.id = x.id ∧ y.connection.sent = x.connection.sent := by
      cases event with
      | connect => exact ⟨y, hy, rfl, rfl⟩
      | pass duration => exact ⟨y, hy, rfl, rfl⟩
      | setLink other link =>
          obtain ⟨x, hx, rfl⟩ := List.mem_map.mp hy
          refine ⟨x, hx, ?_⟩
          split
          · exact ⟨rfl, rfl⟩
          · exact ⟨rfl, rfl⟩
      | deliver other content =>
          obtain ⟨x, hx, rfl⟩ := List.mem_map.mp hy
          refine ⟨x, hx, ?_⟩
          split
          · exact ⟨rfl, rfl⟩
          · exact ⟨rfl, rfl⟩
    obtain ⟨x, hx, hid, hsent⟩ := hsame
    rw [hid, hsent]
    exact .event event (hheard x hx)
  · intro s history op r s' h _ happly
    obtain ⟨hwf, hheard⟩ := h
    refine ⟨hwf.apply happly, fun y hy => ?_⟩
    rcases hwf.apply_speaks happly y hy with ⟨x, hx, hid, -, -, said, hsent, htells⟩ | rfl
    · rw [hid, hsent]
      exact .op (hheard x hx) htells
    · exact .silent config _ _

end Heard

/-- Everything that a client has heard was said by a step of the run, in this order and for the reason that the step
gives: the answers to a login or to a request to play that the step has read, a timeout to one who waits too long, a
match to the two who ask, a board to the players of the room whose game it is, a result to the players of the room that
ends. And every board that is shown is one of a game by the rules. -/
theorem clients_hear_what_is_said {users : UserRepository} {games : GameRepository} {now : Nat}
    {script : List (List NetEvent)} {w : ServerWorld config}
    (hleads : Leads { state := boot users games now, script } w) :
    ∀ x ∈ w.state.sessions, Heard config x.id w.history x.connection.sent ∧
      (AcceptedBoard config.defaultBoard → ∀ text, .snapshot text ∈ x.connection.sent →
        ∃ game : Match, Reachable game.state ∧ text = config.generateSnapshot game) := by
  intro x hx
  have hheard := Heard.of_leads hleads x hx
  refine ⟨hheard, fun hboard text htext => ?_⟩
  obtain ⟨before, s, op, after, hhistory, hspoken⟩ := hheard.exists_step _ htext
  have hpre : before ++ [(s, .inr op)] <+: w.history := by
    rw [hhistory]
    exact ⟨after, List.append_assoc _ [_] after⟩
  obtain ⟨room, hroom, elapsed, game, -, hticked, rfl⟩ := hspoken.of_snapshot
  have hplayed := ((replays_throughout hleads hpre).games room hroom).2
  have hreach := matchRun_reachable (m := .new _) (reachable_new hboard) hplayed
  exact ⟨game, handle_reachable (e := .tick elapsed) hreach hticked, rfl⟩

/-- Ann is shown the board. -/
theorem clients_hear_what_is_said_board :
    ∃ w x, Leads (sampleWorld (untilGame ++ [[.pass 20000000]])) w ∧ x ∈ w.state.sessions ∧ x.id = 0 ∧
      .snapshot "snapshot".toList ∈ x.connection.sent ∧ Heard sampleConfig x.id w.history x.connection.sent ∧
      ∃ game : Match, Reachable game.state ∧ "snapshot".toList = sampleConfig.generateSnapshot game := by
  have hrun : (serve sampleConfig (List.replicate 5 .gameServerTick)).reaches
      (sampleWorld (untilGame ++ [[.pass 20000000]]))
      (fun _ w => decide (∃ x ∈ w.state.sessions, x.id = 0 ∧ .snapshot "snapshot".toList ∈ x.connection.sent)) = true := by
    decide +kernel
  obtain ⟨_, w, hrun, hw⟩ := Prog.reaches_eq_true hrun
  obtain ⟨x, hx, hid, hsent⟩ := of_decide_eq_true hw
  have hleads := Leads.of_run hrun
  obtain ⟨hheard, hboards⟩ := clients_hear_what_is_said hleads x hx
  exact ⟨w, x, hleads, hx, hid, hsent, hheard, hboards kingsBoard_accepted _ hsent⟩

end Server

end KungFuChess
