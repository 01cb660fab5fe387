import KungFuChess.Proof.Conversations
import KungFuChess.Proof.NetworkInput
import KungFuChess.Proof.Snapshot

/-!
# What the network client says

Whatever arrives, fails or is clicked, the client keeps to the protocol: over its lobby connection it logs in and, once
it is let in, asks to play; over its game connection it asks for the room that it has been sent to and then plays.
-/

namespace KungFuChess

open Machine NetworkInputHandler

/-! ### The game connection -/

/-- What a player says in a game. -/
def ClientRequest.isInput : ClientRequest → Bool
  | .select _ _ | .move _ _ | .jump _ _ | .clear => true
  | _ => false

def IsInput (text : Text) : Prop := ∃ request : ClientRequest, request.isInput = true ∧ text = request.text

/-- The client has been told where to go. -/
def SentTo (lobby : List Line) (redirect : GameRedirectInfo) : Prop :=
  ∃ text, .heard text ∈ lobby ∧ readGameRedirectMessage text = some redirect

def OnlyInputs (talk : List Line) : Prop := ∀ text, .said text ∈ talk → IsInput text

theorem OnlyInputs.nil : OnlyInputs [] := fun _ h => absurd h List.not_mem_nil

theorem OnlyInputs.add {talk : List Line} (h : OnlyInputs talk) {line : Line}
    (hline : ∀ text, line = .said text → IsInput text) :
    OnlyInputs (talk ++ [line]) := by
  intro said hsaid
  rcases List.mem_append.mp hsaid with hold | hnew
  · exact h said hold
  · exact hline said (List.mem_singleton.mp hnew).symm

/-- The game connection leads where the client has been sent; the first thing said over it asks for the room, and all
that follows is said in the game. -/
structure Joined (talks : Talks) (redirect : GameRedirectInfo) : Prop where
  sent : SentTo talks.lobby redirect
  endpoint : parseWebSocketEndpoint redirect.endpoint = some talks.endpoint
  talk : ∃ rest, talks.game = .said (sendJoinGame (Fin.ofNat (2 ^ 64) redirect.roomId)) :: rest ∧ OnlyInputs rest

/-- The client has joined its game, or it has said nothing over the game connection but what is said in a game. -/
def AtGame (talks : Talks) : Prop := OnlyInputs talks.game ∨ ∃ redirect, Joined talks redirect

theorem AtGame.of_nil {talks : Talks} (h : talks.game = []) : AtGame talks := .inl (h ▸ .nil)

theorem SentTo.more {lobby : List Line} {redirect : GameRedirectInfo} (h : SentTo lobby redirect) (line : Line) :
    SentTo (lobby ++ [line]) redirect := by
  obtain ⟨text, hmem, hread⟩ := h
  exact ⟨text, List.mem_append_left _ hmem, hread⟩

namespace Joined

variable {talks : Talks} {redirect : GameRedirectInfo}

theorem hear (h : Joined talks redirect) (peer : Peer) (text : Text) :
    Joined (talks.add peer (.heard text)) redirect := by
  cases peer with
  | lobby => exact ⟨h.sent.more _, h.endpoint, h.talk⟩
  | game =>
      refine ⟨h.sent, h.endpoint, ?_⟩
      obtain ⟨rest, hgame, hinputs⟩ := h.talk
      exact ⟨rest ++ [.heard text], by rw [Talks.add, hgame]; rfl, hinputs.add fun _ h => by cases h⟩

theorem say (h : Joined talks redirect) {text : Text} (hinput : IsInput text) :
    Joined (talks.add .game (.said text)) redirect := by
  refine ⟨h.sent, h.endpoint, ?_⟩
  obtain ⟨rest, hgame, hinputs⟩ := h.talk
  exact ⟨rest ++ [.said text], by rw [Talks.add, hgame]; rfl, hinputs.add fun _ h => Line.said.inj h ▸ hinput⟩

end Joined

section Turns

variable {F : Type} {floats : FloatText F} {config : GuiConfig F} {latest latest' : GuiView F} {talks : Talks}

/-- The view has been read from something heard. -/
def Seen (floats : FloatText F) (view : BoardViewModel F) (talks : Talks) : Prop :=
  ∃ text, (.heard text ∈ talks.lobby ∨ .heard text ∈ talks.game) ∧ readSnapshot floats text = .ok (some view)

theorem Seen.add {view : BoardViewModel F} (h : Seen floats view talks) (peer : Peer) (line : Line) :
    Seen floats view (talks.add peer line) := by
  obtain ⟨text, hheard, hread⟩ := h
  refine ⟨text, ?_, hread⟩
  cases peer with
  | lobby => exact hheard.imp_left (List.mem_append_left _)
  | game => exact hheard.imp_right (List.mem_append_left _)

/-- What the client knows of its game is what it has been told and shown, and it uses the game connection once it has
joined. -/
structure Directed (floats : FloatText F) (latest : GuiView F) (talks : Talks) : Prop where
  lobby : LobbyTalk .playRequested talks.lobby
  seen : ∀ view ∈ latest.1, Seen floats view talks
  using_game : latest.2.usingGameConnection = true → ∃ redirect, Joined talks redirect
  sent : latest.2.usingGameConnection = false → ∀ redirect ∈ latest.2.redirect, SentTo talks.lobby redirect
  not_using : latest.2.usingGameConnection = false → OnlyInputs talks.game ∧ ∀ text, .heard text ∉ talks.game

/-- What a message does to what the client knows. -/
theorem handleNetworkMessage_cases {message : Text} (h : handleNetworkMessage floats message latest = .ok latest') :
    latest'.2.usingGameConnection = latest.2.usingGameConnection ∧
      (latest'.2.redirect = latest.2.redirect ∨ ∃ redirect, readGameRedirectMessage message = some redirect ∧
        latest'.2.redirect = some redirect) ∧
      (latest'.1 = latest.1 ∨ ∃ view, readSnapshot floats message = .ok (some view) ∧ latest'.1 = some view) := by
  obtain ⟨shown, hshown, hrest⟩ := Loops.bind_eq_ok.mp h
  split at hrest
  · rename_i view
    cases hrest
    exact ⟨rfl, .inl rfl, .inr ⟨view, hshown, rfl⟩⟩
  · split at hrest
    · cases hrest
      exact ⟨rfl, .inl rfl, .inl rfl⟩
    · split at hrest
      · rename_i redirect hredirect
        cases hrest
        exact ⟨rfl, .inr ⟨redirect, hredirect, rfl⟩, .inl rfl⟩
      · cases hrest
        exact ⟨rfl, .inl rfl, .inl rfl⟩

namespace Directed

theorem atGame (h : Directed floats latest talks) : AtGame talks := by
  cases husing : latest.2.usingGameConnection with
  | true => exact .inr (h.using_game husing)
  | false => exact .inl (h.not_using husing).1

/-- A message has been read from a connection that is in use. -/
theorem hear (h : Directed floats latest talks) {peer : Peer}
    (hpeer : peer = .game → latest.2.usingGameConnection = true) {message : Text}
    (hmessage : handleNetworkMessage floats message latest = .ok latest') :
    Directed floats latest' (talks.add peer (.heard message)) := by
  obtain ⟨husing, hredirect, hview⟩ := handleNetworkMessage_cases hmessage
  have hlobby : latest.2.usingGameConnection = false → peer = .lobby := by
    intro hnot
    cases peer with
    | lobby => rfl
    | game => exact absurd (hnot.symm.trans (hpeer rfl)) Bool.false_ne_true
  constructor
  · cases peer with
    | lobby => exact .heard message h.lobby
    | game => exact h.lobby
  · intro view hmem
    rcases hview with hsame | ⟨new, hread, hnew⟩
    · rw [hsame] at hmem
      exact (h.seen view hmem).add peer _
    · rw [hnew] at hmem
      cases hmem
      refine ⟨message, ?_, hread⟩
      cases peer with
      | lobby => exact .inl (List.mem_append_right _ List.mem_cons_self)
      | game => exact .inr (List.mem_append_right _ List.mem_cons_self)
  · intro hgame
    obtain ⟨redirect, hjoined⟩ := h.using_game (husing.symm.trans hgame)
    exact ⟨redirect, hjoined.hear peer message⟩
  · intro hnot redirect hmem
    have hnot := husing.symm.trans hnot
    obtain rfl := hlobby hnot
    rcases hredirect with hsame | ⟨read, hread, hnew⟩
    · rw [hsame] at hmem
      exact (h.sent hnot redirect hmem).more _
    · rw [hnew] at hmem
      cases hmem
      exact ⟨message, List.mem_append_right _ List.mem_cons_self, hread⟩
  · intro hnot
    have hnot := husing.symm.trans hnot
    obtain rfl := hlobby hnot
    exact h.not_using hnot

/-- Something has been said in a game. -/
theorem say (h : Directed floats latest talks) {text : Text} (hinput : IsInput text) :
    Directed floats latest (talks.add .game (.said text)) := by
  refine ⟨h.lobby, fun view hmem => (h.seen view hmem).add .game _, fun husing => ?_, h.sent, fun husing => ?_⟩
  · obtain ⟨redirect, hjoined⟩ := h.using_game husing
    exact ⟨redirect, hjoined.say hinput⟩
  · obtain ⟨hgame, hunheard⟩ := h.not_using husing
    refine ⟨hgame.add fun _ h => Line.said.inj h ▸ hinput, fun heard hmem => ?_⟩
    rcases List.mem_append.mp hmem with hold | hnew
    · exact hunheard heard hold
    · cases List.mem_singleton.mp hnew

end Directed

/-! ### The turns -/

namespace NetworkGuiInputSink

variable (sink : NetworkGuiInputSink F)

theorem isInput_jump (row col : Size) : ∀ text ∈ [sendJump row col, sendClear], IsInput text :=
  List.forall_mem_cons.mpr ⟨⟨.jump row col, rfl, rfl⟩, List.forall_mem_singleton.mpr ⟨.clear, rfl, rfl⟩⟩

theorem isInput_select (row col : Size) : ∀ text ∈ [sendSelect row col], IsInput text :=
  List.forall_mem_singleton.mpr ⟨.select row col, rfl, rfl⟩

theorem isInput_nil : ∀ text ∈ ([] : List Text), IsInput text := fun _ h => absurd h List.not_mem_nil

theorem isInput_moveAttempt (row col : Nat) : ∀ text ∈ sink.handleMoveAttempt row col, IsInput text := by
  unfold handleMoveAttempt
  split
  · exact isInput_nil
  · split
    · exact isInput_nil
    · exact List.forall_mem_singleton.mpr ⟨.move _ _, rfl, rfl⟩

theorem isInput_friendlyClick (selectedRow selectedCol row col : Nat) :
    ∀ text ∈ sink.handleFriendlyClick selectedRow selectedCol row col, IsInput text := by
  unfold handleFriendlyClick
  split
  · split
    · exact isInput_jump _ _
    · exact isInput_nil
  · split
    · exact isInput_select _ _
    · exact isInput_nil

theorem isInput_click (x y : Int) : ∀ text ∈ sink.handleClick x y, IsInput text := by
  unfold handleClick
  split
  · exact isInput_nil
  · split
    · exact isInput_nil
    · split
      · exact isInput_nil
      · split
        · split
          · exact isInput_select _ _
          · exact isInput_nil
        · split
          · exact sink.isInput_friendlyClick _ _ _ _
          · exact sink.isInput_moveAttempt _ _

theorem isInput_handleJump (x y : Int) : ∀ text ∈ sink.handleJump x y, IsInput text := by
  unfold handleJump
  split
  · exact isInput_nil
  · split
    · exact isInput_nil
    · split
      · exact isInput_nil
      · split
        · exact isInput_nil
        · split
          · exact isInput_nil
          · split
            · exact isInput_nil
            · exact isInput_jump _ _

/-- Whatever the user does with the mouse is said in the game. -/
theorem isInput_handle (input : MouseInput) : ∀ text ∈ sink.handle input, IsInput text := by
  cases input with
  | click x y => exact sink.isInput_click x y
  | jump x y => exact sink.isInput_handleJump x y

end NetworkGuiInputSink

/-- How the talks stand in each of the loops. -/
def Follows (floats : FloatText F) : GuiPhase F → Talks → Prop
  | .login _ session, talks => session.phase = .connected ∧ LobbyTalk .connected talks.lobby ∧ talks.game = []
  | .handshake _ session, talks => session.phase = .loginSent ∧ LobbyTalk .loginSent talks.lobby ∧ talks.game = []
  | .waiting draining latest, talks =>
      Directed floats latest talks ∧ (draining = .game → latest.2.usingGameConnection = true)
  | .playing draining view gui, talks =>
      Directed floats (some view, gui) talks ∧ (draining = .game → gui.usingGameConnection = true)
  | .ended, talks => (∃ phase, LobbyTalk phase talks.lobby) ∧ AtGame talks

/-- Whatever the loop, the two talks are those of a client that keeps to the protocol. -/
theorem Follows.spoken {phase : GuiPhase F} (h : Follows floats phase talks) :
    (∃ phase, LobbyTalk phase talks.lobby) ∧ AtGame talks := by
  cases phase with
  | login username session => exact ⟨⟨_, h.2.1⟩, .of_nil h.2.2⟩
  | handshake username session => exact ⟨⟨_, h.2.1⟩, .of_nil h.2.2⟩
  | waiting draining latest => exact ⟨⟨_, h.1.lobby⟩, h.1.atGame⟩
  | playing draining view gui => exact ⟨⟨_, h.1.lobby⟩, h.1.atGame⟩
  | ended => exact h

theorem talking_closeBoth {P : Talks → Prop}
    (h : ∀ talks, P talks → (∃ phase, LobbyTalk phase talks.lobby) ∧ AtGame talks) :
    Talking P (closeBoth (F := F)) (Follows floats) :=
  (talking_disconnect .lobby).bind fun _ => (talking_disconnect .game).bind fun _ => .pure h

theorem resolveUsername_ne_nil (pid : Int) (username : Text) :
    NetworkLoginSession.resolveUsername pid username ≠ [] := by
  unfold NetworkLoginSession.resolveUsername
  split
  · exact List.append_ne_nil_of_left_ne_nil (by decide) _
  · rename_i hname
    simpa using hname

theorem talking_attemptLogin (username : Text) {session : NetworkLoginSession} (hsession : session.phase = .connected) :
    Talking (fun talks => LobbyTalk .connected talks.lobby ∧ talks.game = []) (attemptLogin config username session)
      (Follows config.floats) := by
  unfold attemptLogin NetworkLoginSession.sendLogin
  rw [if_neg (fun hne => hne hsession)]
  refine ((talking_trySend .lobby _).bind fun sent => ?_).bind (Q := fun answer talks =>
    if answer.1 then answer.2.phase = .loginSent ∧ LobbyTalk .loginSent talks.lobby ∧ talks.game = []
    else LobbyTalk .connected talks.lobby ∧ talks.game = []) fun answer => ?_
  · cases sent with
    | true =>
        refine .pure fun talks h => ?_
        obtain ⟨before, ⟨hlobby, hgame⟩, rfl⟩ := h
        exact ⟨rfl, .login hlobby (resolveUsername_ne_nil _ _), hgame⟩
    | false => exact .pure fun talks h => h
  · obtain ⟨sent, session'⟩ := answer
    cases sent with
    | true => exact .pure fun talks h => h
    | false => exact .pure fun talks h => ⟨rfl, h⟩

theorem talking_loginTurn (username : Text) {session : NetworkLoginSession} (hsession : session.phase = .connected) :
    Talking (fun talks => LobbyTalk .connected talks.lobby ∧ talks.game = []) (loginTurn config username session)
      (Follows config.floats) := by
  refine talking_present.bind fun frame => ?_
  cases frame with
  | none => exact .pure fun talks h => ⟨hsession, h⟩
  | some poll =>
      obtain ⟨shouldContinue, name, hframe⟩ : ∃ shouldContinue name,
          presentLoginScreen poll username = (shouldContinue, name) := ⟨_, _, rfl⟩
      dsimp only
      rw [hframe]
      cases shouldContinue with
      | false => exact (talking_disconnect .lobby).bind fun _ => .pure fun talks h => ⟨⟨_, h.1⟩, .of_nil h.2⟩
      | true =>
          rw [if_neg (by exact Bool.false_ne_true)]
          split
          · exact talking_attemptLogin _ hsession
          · exact .pure fun talks h => ⟨hsession, h⟩

/-- The login of the handshake has been sent, and perhaps answered. -/
def Shaken (session : NetworkLoginSession) (talks : Talks) : Prop :=
  (session.phase = .loginSent ∨ session.phase = .loginOk ∨ session.phase = .loginFailed) ∧
    LobbyTalk session.phase talks.lobby ∧ talks.game = []

theorem Shaken.handleMessage {session : NetworkLoginSession} (hsession : session.phase = .loginSent) {message : Text}
    (h : LobbyTalk .loginSent talks.lobby ∧ talks.game = []) :
    Shaken (session.handleMessage message) (talks.add .lobby (.heard message)) := by
  obtain ⟨hlobby, hgame⟩ := h
  unfold NetworkLoginSession.handleMessage
  rw [if_neg (fun hne => hne hsession)]
  cases hread : readLoginMessage message with
  | none => exact ⟨.inl hsession, hsession.symm ▸ .other hlobby hread, hgame⟩
  | some result =>
      dsimp only
      cases hstatus : result.status with
      | ok => exact ⟨.inr (.inl rfl), .accepted hlobby hread hstatus, hgame⟩
      | failed => exact ⟨.inr (.inr rfl), .failed hlobby hread hstatus, hgame⟩

theorem talking_handshakeFailed (username : Text) (session : NetworkLoginSession) :
    Talking (fun talks => LobbyTalk .connected talks.lobby ∧ talks.game = [])
      (handshakeFailed (F := F) username session) (Follows floats) := by
  refine Prog.Triple.bind (Prog.Triple.read (Q := fun _ talks => LobbyTalk .connected talks.lobby ∧ talks.game = [])
    fun s h => h) fun connected => ?_
  cases connected with
  | true => exact .pure fun talks h => ⟨rfl, h⟩
  | false => exact .pure fun talks h => ⟨⟨_, h.1⟩, .of_nil h.2⟩

theorem talking_finishHandshake (username : Text) {session : NetworkLoginSession} (hsession : session.phase ≠ .loginSent) :
    Talking (Shaken session) (finishHandshake (F := F) username session) (Follows floats) := by
  unfold finishHandshake NetworkLoginSession.trySendPlay
  split
  · rename_i hfailed
    refine (talking_handshakeFailed username session).weaken (fun talks h => ?_) fun _ _ h => h
    obtain ⟨-, hlobby, hgame⟩ := h
    exact ⟨.reset hlobby (.inr hfailed), hgame⟩
  · rename_i hnotFailed
    by_cases hok : session.phase = .loginOk
    · rw [if_neg (fun hne => hne hok)]
      refine ((talking_trySend .lobby _).bind fun sent => ?_).bind (Q := fun answer talks =>
        if answer.1 then LobbyTalk .playRequested talks.lobby ∧ talks.game = []
        else LobbyTalk .connected talks.lobby ∧ talks.game = []) fun answer => ?_
      · cases sent with
        | true =>
            refine .pure fun talks h => ?_
            obtain ⟨before, ⟨-, hlobby, hgame⟩, rfl⟩ := h
            rw [hok] at hlobby
            exact ⟨.play hlobby, hgame⟩
        | false =>
            refine .pure fun talks h => ?_
            obtain ⟨-, hlobby, hgame⟩ := h
            exact ⟨.reset hlobby (.inl hok), hgame⟩
      · obtain ⟨sent, session'⟩ := answer
        cases sent with
        | true =>
            refine .pure fun talks h => ?_
            obtain ⟨hlobby, hgame⟩ := h
            refine ⟨⟨hlobby, ?_, ?_, ?_, fun _ => hgame ▸ ⟨.nil, fun _ => List.not_mem_nil⟩⟩, ?_⟩
            · exact fun _ hmem => by cases hmem
            · exact fun husing => by cases husing
            · exact fun _ _ hmem => by cases hmem
            · exact fun hpeer => by cases hpeer
        | false => exact talking_handshakeFailed username session'
    · refine fun s h => ?_
      obtain ⟨hphase, -⟩ := h
      rcases hphase with hsent | hphase | hfailed
      · exact absurd hsent hsession
      · exact absurd hphase hok
      · exact absurd hfailed hnotFailed

theorem talking_handshakeFrame (username : Text) (session : NetworkLoginSession) :
    Talking (Shaken session) (handshakeFrame (F := F) username session) (Follows floats) := by
  have hgoesOn : ∀ name, Talking (Shaken session) (if session.phase = .loginSent then
      pure (.handshake name session) else finishHandshake (F := F) name session) (Follows floats) := by
    intro name
    by_cases hsent : session.phase = .loginSent
    · rw [if_pos hsent]
      exact .pure fun talks h => ⟨hsent, hsent ▸ h.2.1, h.2.2⟩
    · rw [if_neg hsent]
      exact talking_finishHandshake name hsent
  refine talking_present.bind fun frame => ?_
  cases frame with
  | none => exact hgoesOn username
  | some poll =>
      obtain ⟨shouldContinue, name, hframe⟩ : ∃ shouldContinue name,
          presentLoginScreen poll username = (shouldContinue, name) := ⟨_, _, rfl⟩
      dsimp only
      rw [hframe]
      cases shouldContinue with
      | false => exact (talking_disconnect .lobby).bind fun _ => .pure fun talks h => ⟨⟨_, h.2.1⟩, .of_nil h.2.2⟩
      | true => exact hgoesOn name

theorem talking_handshakeTurn (username : Text) {session : NetworkLoginSession} (hsession : session.phase = .loginSent) :
    Talking (fun talks => LobbyTalk .loginSent talks.lobby ∧ talks.game = [])
      (handshakeTurn (F := F) username session) (Follows floats) := by
  refine (talking_tryReceive .lobby).bind fun message => ?_
  cases message with
  | none =>
      refine (talking_handshakeFrame username session).weaken (fun talks h => ?_) fun _ _ h => h
      obtain ⟨-, hlobby, hgame⟩ | ⟨_, _, hnone, -⟩ := h
      · exact ⟨.inl hsession, hsession.symm ▸ hlobby, hgame⟩
      · cases hnone
  | some message =>
      refine (talking_handshakeFrame username (session.handleMessage message)).weaken (fun talks h => ?_) fun _ _ h => h
      obtain ⟨hnone, -⟩ | ⟨text, before, hsome, hbefore, rfl⟩ := h
      · cases hnone
      · cases hsome
        exact .handleMessage hsession hbefore

/-- What the client knows of its game, before it has joined it. -/
def Awaits (floats : FloatText F) (latest : GuiView F) (redirect : GameRedirectInfo) (talks : Talks) : Prop :=
  Directed floats latest talks ∧ latest.2.usingGameConnection = false ∧ latest.2.redirect = some redirect

theorem talking_executeRedirect (redirect : GameRedirectInfo) :
    Talking (Awaits floats latest redirect) (executeRedirect redirect) fun joined talks =>
      if joined then
        LobbyTalk .playRequested talks.lobby ∧ Joined talks redirect ∧ (∀ view ∈ latest.1, Seen floats view talks)
      else Directed floats latest talks := by
  have hread : ∀ (P : Talks → Prop) (peer : Peer), Talking P (GuiProg.isConnected peer) fun _ => P :=
    fun P peer => Prog.Triple.read fun _ h => h
  have hconnected : Talking (Awaits floats latest redirect) (GuiProg.ask (.connectToGameServer redirect.endpoint))
      fun _ talks => Directed floats latest talks ∧ latest.2.usingGameConnection = false ∧ SentTo talks.lobby redirect ∧
        parseWebSocketEndpoint redirect.endpoint = some talks.endpoint ∧ talks.game = [] := by
    refine (talking_connectToGameServer _).weaken (fun _ h => h) fun _ talks h => ?_
    obtain ⟨before, ⟨hdirected, husing, hredirect⟩, hlobby, hgame, hparse⟩ := h
    have hsent := hdirected.sent husing
    refine ⟨⟨hlobby ▸ hdirected.lobby, fun view hmem => ?_, fun h => ?_, fun _ => hlobby ▸ hsent, fun _ => ?_⟩, husing,
      hlobby ▸ hsent redirect hredirect, hparse, hgame⟩
    · obtain ⟨text, hheard, hread⟩ := hdirected.seen view hmem
      have hold := hheard.resolve_right ((hdirected.not_using husing).2 text)
      exact ⟨text, .inl (hlobby ▸ hold), hread⟩
    · rw [husing] at h
      cases h
    · rw [hgame]
      exact ⟨.nil, fun _ => List.not_mem_nil⟩
  have hjoin : Talking (Awaits floats latest redirect) (do
      GuiProg.ask (.connectToGameServer redirect.endpoint)
      if ← GuiProg.isConnected .game then
        GuiProg.ask (.trySend .game (sendJoinGame (Fin.ofNat (2 ^ 64) redirect.roomId)))
      else return false) fun joined talks =>
        if joined then
          LobbyTalk .playRequested talks.lobby ∧ Joined talks redirect ∧ (∀ view ∈ latest.1, Seen floats view talks)
        else Directed floats latest talks := by
    refine hconnected.bind fun _ => (hread _ .game).bind fun connected => ?_
    cases connected with
    | false => exact .pure fun talks h => h.1
    | true =>
        refine (talking_trySend .game _).weaken (fun _ h => h) fun sent talks h => ?_
        cases sent with
        | false => exact h.1
        | true =>
            obtain ⟨before, ⟨hdirected, -, hsent, hparse, hgame⟩, rfl⟩ := h
            refine ⟨hdirected.lobby, ⟨hsent, hparse, [], ?_, .nil⟩, fun view hmem => (hdirected.seen view hmem).add .game _⟩
            rw [Talks.add, hgame]
            rfl
  refine (hread _ .lobby).bind fun connected => ?_
  cases connected with
  | false => exact hjoin
  | true => exact (talking_disconnect .lobby).bind fun _ => hjoin

theorem talking_maybeSwitch :
    Talking (Directed floats latest) (maybeSwitchToGameConnection latest.2) fun switched talks =>
      if switched then Directed floats (latest.1, { latest.2 with usingGameConnection := true }) talks
      else Directed floats latest talks := by
  unfold maybeSwitchToGameConnection
  split
  · exact .pure fun talks h => h
  · rename_i redirect hredirect
    split
    · exact .pure fun talks h => h
    · rename_i husing
      have husing : latest.2.usingGameConnection = false := by simpa using husing
      refine (@talking_executeRedirect _ floats _ redirect).weaken (fun talks h => ⟨h, husing, hredirect⟩)
        fun switched talks h => ?_
      cases switched with
      | false => exact h
      | true =>
          obtain ⟨hlobby, hjoined, hseen⟩ := h
          refine ⟨hlobby, hseen, fun _ => ⟨redirect, hjoined⟩, ?_, ?_⟩
          all_goals exact fun h => by cases h

theorem Directed.spoken (h : Directed floats latest talks) : (∃ phase, LobbyTalk phase talks.lobby) ∧ AtGame talks :=
  ⟨⟨_, h.lobby⟩, h.atGame⟩

/-- Draining keeps to the protocol, if what comes before and after does. A view is never lost. -/
theorem talking_drainTurn {draining : Peer} {again : Peer → GuiView F → GuiPhase F}
    {present : GuiView F → GuiProg (GuiPhase F)} (hpeer : draining = .game → latest.2.usingGameConnection = true)
    (hagain : ∀ peer latest', (latest.1.isSome → latest'.1.isSome) → (peer = .game → latest'.2.usingGameConnection = true) →
      ∀ talks, Directed config.floats latest' talks → Follows config.floats (again peer latest') talks)
    (hpresent : Talking (Directed config.floats latest) (present latest) (Follows config.floats)) :
    Talking (Directed config.floats latest) (drainTurn config draining latest again present) (Follows config.floats) := by
  refine (talking_tryReceive draining).bind fun message => ?_
  cases message with
  | some message =>
      dsimp only
      cases hmessage : handleNetworkMessage config.floats message latest with
      | error fault => exact (talking_throw _).bind fun _ => .pure fun _ h => h
      | ok latest' =>
          refine .pure fun talks h => ?_
          obtain ⟨hnone, -⟩ | ⟨text, before, hsome, hdirected, rfl⟩ := h
          · cases hnone
          · cases hsome
            obtain ⟨husing, -, hview⟩ := handleNetworkMessage_cases hmessage
            refine hagain _ _ (fun hsome => ?_) (fun hgame => husing.trans (hpeer hgame)) _ (hdirected.hear hpeer hmessage)
            rcases hview with hsame | ⟨view, -, hnew⟩
            · rwa [hsame]
            · rw [hnew]
              rfl
  | none =>
      have hnone : ∀ talks : Talks, ((none : Option Text) = none ∧ Directed config.floats latest talks ∨
          ∃ text before, (none : Option Text) = some text ∧ Directed config.floats latest before ∧
            talks = before.add draining (.heard text)) → Directed config.floats latest talks := by
        intro talks h
        obtain ⟨-, h⟩ | ⟨_, _, hsome, -⟩ := h
        · exact h
        · cases hsome
      dsimp only
      cases draining with
      | game => exact hpresent.weaken hnone fun _ _ h => h
      | lobby =>
          refine (talking_maybeSwitch.weaken hnone fun _ _ h => h).bind fun switched => ?_
          cases switched with
          | true => exact .pure (hagain _ _ (fun h => h) fun _ => rfl)
          | false =>
              have hstays : Talking (Directed config.floats latest) (if latest.2.usingGameConnection then
                  pure (again .game latest) else present latest) (Follows config.floats) := by
                split
                · rename_i husing
                  exact .pure (hagain _ _ (fun h => h) fun _ => husing)
                · exact hpresent
              exact hstays

theorem firstPeer_game (gui : NetworkGuiState) (h : gui.firstPeer = .game) : gui.usingGameConnection = true := by
  unfold NetworkGuiState.firstPeer at h
  split at h
  · assumption
  · cases h

theorem talking_presentWaiting (latest : GuiView F) :
    Talking (Directed floats latest) (presentWaiting latest) (Follows floats) := by
  obtain ⟨view, gui⟩ := latest
  have hafter : ∀ escaped : Bool, Talking (Directed floats (view, gui))
      (if escaped then closeBoth else match (view, gui) with
      | (some view, gui) => pure (.playing gui.firstPeer view gui)
      | (none, gui) => pure (.waiting .lobby (none, gui))) (Follows floats) := by
    intro escaped
    cases escaped with
    | true => exact talking_closeBoth fun _ => Directed.spoken
    | false =>
        cases view with
        | some view => exact .pure fun talks h => ⟨h, firstPeer_game gui⟩
        | none => exact .pure fun talks h => ⟨h, fun hpeer => by cases hpeer⟩
  refine talking_present.bind fun frame => ?_
  cases frame with
  | none => exact hafter false
  | some poll => exact hafter (decide (poll.key = kEscapeKey))

theorem talking_sendAll (messages : List Text) (hmessages : ∀ text ∈ messages, IsInput text) :
    Talking (Directed floats latest) (sendAll messages) fun _ => Directed floats latest := by
  refine Prog.Triple.forM fun message hmessage => (talking_trySend .game message).bind fun sent => ?_
  cases sent with
  | false => exact .pure fun talks h => h
  | true =>
      refine .pure fun talks h => ?_
      obtain ⟨before, hdirected, rfl⟩ := h
      exact hdirected.say (hmessages message hmessage)

theorem talking_presentPlaying (view : BoardViewModel F) (gui : NetworkGuiState) :
    Talking (Directed floats (some view, gui)) (presentPlaying view gui) (Follows floats) := by
  refine talking_present.bind fun frame => ?_
  cases frame with
  | none => exact .pure fun talks h => ⟨h, firstPeer_game gui⟩
  | some poll =>
      refine (talking_sendAll _ fun text htext => ?_).bind fun _ => ?_
      · obtain ⟨input, -, hinput⟩ := List.mem_flatMap.mp htext
        exact NetworkGuiInputSink.isInput_handle _ input text hinput
      · split
        · exact talking_closeBoth fun _ => Directed.spoken
        · exact .pure fun talks h => ⟨h, firstPeer_game gui⟩

/-- A turn of the client keeps to the protocol. -/
theorem talking_guiTurn (phase : GuiPhase F) :
    Talking (Follows config.floats phase) (guiTurn config phase) (Follows config.floats) := by
  cases phase with
  | login username session =>
      intro client h
      exact talking_loginTurn username h.1 client h.2
  | handshake username session =>
      intro client h
      exact talking_handshakeTurn username h.1 client h.2
  | waiting draining latest =>
      intro client h
      have hturn : Talking (Directed config.floats latest) (drainTurn config draining latest .waiting presentWaiting)
          (Follows config.floats) :=
        talking_drainTurn h.2 (fun _ _ _ hpeer _ hdirected => ⟨hdirected, hpeer⟩) (talking_presentWaiting latest)
      exact hturn client h.1
  | playing draining view gui =>
      intro client h
      have hturn : Talking (Directed config.floats (some view, gui)) (drainTurn config draining (some view, gui)
          (fun draining latest => .playing draining (latest.1.getD view) latest.2)
          fun latest => presentPlaying (latest.1.getD view) latest.2) (Follows config.floats) := by
        refine talking_drainTurn h.2 (fun peer latest' hsome hpeer talks hdirected => ?_) (talking_presentPlaying view gui)
        obtain ⟨shown, gui'⟩ := latest'
        obtain ⟨shown, rfl⟩ := Option.isSome_iff_exists.mp (hsome rfl)
        exact ⟨hdirected, hpeer⟩
      exact hturn client h.1
  | ended => exact .pure fun talks h => h

theorem talking_runTurns (turns : Nat) (phase : GuiPhase F) :
    Talking (Follows config.floats phase) (runTurns config turns phase) (Follows config.floats) := by
  induction turns generalizing phase with
  | zero => exact .pure fun talks h => h
  | succ turns ih => exact (talking_guiTurn phase).bind fun next => ih next

theorem talking_connect : Talking (fun talks => talks.lobby = [] ∧ talks.game = []) (GuiProg.ask .connect)
    fun _ talks => talks.lobby = [] ∧ talks.game = [] := by
  refine Prog.Triple.perform GuiClient.occur_talks fun client _ client' hP happly => ?_
  obtain ⟨socket, hconnect, heq⟩ := Loops.map_eq_ok.mp happly
  cases heq
  refine ⟨?_, hP.2⟩
  unfold WebSocketClient.connect at hconnect
  split at hconnect
  · cases hconnect
    exact hP.1
  · split at hconnect
    · cases hconnect
      rfl
    · cases hconnect

theorem follows_of_run {turns : Nat} {script : List (List GuiEvent)} {phase : GuiPhase F} {w : GuiWorld}
    (hrun : (runNetworkGui config turns).run { state := {}, script } = .ok (phase, w)) :
    Follows config.floats phase w.state.talks := by
  refine Prog.Triple.run (talking_connect.bind fun _ => ?_) ⟨rfl, rfl⟩ hrun
  refine (talking_runTurns turns (.login [] {})).weaken (fun talks h => ?_) fun _ _ h => h
  exact ⟨rfl, h.1 ▸ .opened, h.2⟩

end Turns

/-! ### A client that is sent away -/

def sampleGui : GuiConfig Nat := ⟨millionths, 7⟩

/-- Five turns in which the user asks to play under no name, is let in and is sent to a room that is not there. -/
def untilRefused : List (List GuiEvent) :=
  [[], [.act { mouse := [.click 400 500] }], [], [.arrive .lobby "login_ok 1200".toList], [], [],
    [.arrive .lobby "game_redirect ws://host:8765 5 white".toList], [], [], [], [],
    [.arrive .game "join_failed room_not_found".toList]]

end KungFuChess
