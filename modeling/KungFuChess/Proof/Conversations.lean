import KungFuChess.Lib.Loops
import KungFuChess.Model.NetworkGui

/-!
# Conversations

What goes over the two connections of a network client, and what its operations do to that. No event changes it: a
message that arrives has not been read yet. The talk over the lobby connection follows the login session.
-/

namespace KungFuChess

open Machine NetworkInputHandler

/-! ### Conversations -/

/-- What has gone over the two connections of a client, and where the second one leads. -/
structure Talks where
  lobby : List Line
  game : List Line
  endpoint : WebSocketEndpoint

def GuiClient.talks (client : GuiClient) : Talks := ⟨client.lobby.talk, client.game.talk, client.game.endpoint⟩

theorem GuiClient.occur_talks (event : GuiEvent) (client : GuiClient) : (client.occur event).talks = client.talks := by
  cases event with
  | act frame => rfl
  | arrive peer message => cases peer <;> rfl
  | setDials peer dials => cases peer <;> rfl
  | setWrites peer writes => cases peer <;> rfl
  | setReads peer reads => cases peer <;> rfl

namespace Talks

def peer (talks : Talks) : Peer → List Line
  | .lobby => talks.lobby
  | .game => talks.game

/-- One more line over a connection. -/
def add (talks : Talks) (peer : Peer) (line : Line) : Talks :=
  match peer with
  | .lobby => { talks with lobby := talks.lobby ++ [line] }
  | .game => { talks with game := talks.game ++ [line] }

end Talks

/-- A program of the client, seen from what goes over its connections. -/
abbrev Talking {α : Type} (P : Talks → Prop) (p : GuiProg α) (Q : α → Talks → Prop) : Prop :=
  Prog.Triple (M := guiMachine) GuiClient.talks P p Q

/-! ### The operations -/

section Operations

variable {client client' : GuiClient} {P : Talks → Prop}

theorem GuiClient.talks_setPeer (peer : Peer) {socket : WebSocketClient} (htalk : socket.talk = (client.peer peer).talk)
    (hendpoint : socket.endpoint = (client.peer peer).endpoint) : (client.setPeer peer socket).talks = client.talks := by
  cases peer with
  | lobby => rw [talks, setPeer, htalk]; rfl
  | game => rw [talks, setPeer, htalk, hendpoint]; rfl

theorem GuiClient.talks_setPeer_add (peer : Peer) {socket : WebSocketClient} {line : Line}
    (htalk : socket.talk = (client.peer peer).talk ++ [line])
    (hendpoint : socket.endpoint = (client.peer peer).endpoint) :
    (client.setPeer peer socket).talks = client.talks.add peer line := by
  cases peer with
  | lobby => rw [talks, setPeer, htalk]; rfl
  | game => rw [talks, setPeer, htalk, hendpoint]; rfl

theorem WebSocketClient.trySend_ok {socket socket' : WebSocketClient} {message : Text} {sent : Bool}
    (h : socket.trySend message = .ok (sent, socket')) : socket'.endpoint = socket.endpoint ∧
      socket'.talk = if sent then socket.talk ++ [.said message] else socket.talk := by
  unfold trySend at h
  split at h
  · cases h
    exact ⟨rfl, rfl⟩
  · split at h
    · cases h
      exact ⟨rfl, rfl⟩
    · cases h
      exact ⟨rfl, rfl⟩
    · cases h
      exact ⟨rfl, rfl⟩
    · cases h

theorem WebSocketClient.tryReceive_ok {socket socket' : WebSocketClient} {message : Option Text}
    (h : socket.tryReceive = .ok (message, socket')) : socket'.endpoint = socket.endpoint ∧
      socket'.talk = socket.talk ++ (message.map Line.heard).toList := by
  unfold tryReceive at h
  split at h
  · cases h
    exact ⟨rfl, (List.append_nil _).symm⟩
  · split at h
    · cases h
      exact ⟨rfl, (List.append_nil _).symm⟩
    · cases h
    · split at h
      · cases h
        exact ⟨rfl, (List.append_nil _).symm⟩
      · cases h
        exact ⟨rfl, rfl⟩

theorem talking_trySend (peer : Peer) (message : Text) :
    Talking P (GuiProg.ask (.trySend peer message)) fun sent talks =>
      if sent then ∃ before, P before ∧ talks = before.add peer (.said message) else P talks := by
  refine Prog.Triple.perform GuiClient.occur_talks fun client sent client' hP happly => ?_
  obtain ⟨⟨_, socket⟩, hsend, heq⟩ := Loops.map_eq_ok.mp happly
  cases heq
  obtain ⟨hendpoint, htalk⟩ := WebSocketClient.trySend_ok hsend
  cases sent with
  | true => exact ⟨_, hP, GuiClient.talks_setPeer_add peer htalk hendpoint⟩
  | false =>
      rw [if_neg Bool.false_ne_true, GuiClient.talks_setPeer peer htalk hendpoint]
      exact hP

theorem talking_tryReceive (peer : Peer) :
    Talking P (GuiProg.ask (.tryReceive peer)) fun message talks =>
      (message = none ∧ P talks) ∨
        ∃ text before, message = some text ∧ P before ∧ talks = before.add peer (.heard text) := by
  refine Prog.Triple.perform GuiClient.occur_talks fun client message client' hP happly => ?_
  obtain ⟨⟨_, socket⟩, hreceive, heq⟩ := Loops.map_eq_ok.mp happly
  cases heq
  obtain ⟨hendpoint, htalk⟩ := WebSocketClient.tryReceive_ok hreceive
  cases message with
  | none => exact .inl ⟨rfl, by rwa [GuiClient.talks_setPeer peer (htalk.trans (List.append_nil _)) hendpoint]⟩
  | some text => exact .inr ⟨text, _, rfl, hP, GuiClient.talks_setPeer_add peer htalk hendpoint⟩

theorem talking_disconnect (peer : Peer) : Talking P (GuiProg.ask (.disconnect peer)) fun _ => P := by
  refine Prog.Triple.perform GuiClient.occur_talks fun client _ client' hP happly => ?_
  cases happly
  have htalks := @GuiClient.talks_setPeer client peer (client.peer peer).disconnect rfl rfl
  exact htalks ▸ hP

theorem talking_present : Talking P (GuiProg.ask .present) fun _ => P := by
  refine Prog.Triple.perform GuiClient.occur_talks fun client _ client' hP happly => ?_
  cases happly
  exact hP

theorem talking_throw (fault : ClientFault) {Q : Unit → Talks → Prop} :
    Talking P (GuiProg.ask (.throw fault)) Q := by
  refine Prog.Triple.perform GuiClient.occur_talks fun client _ client' hP happly => ?_
  cases happly

/-- The game connection is a new one, and leads where it was said. -/
theorem talking_connectToGameServer (endpoint : Text) :
    Talking P (GuiProg.ask (.connectToGameServer endpoint)) fun _ talks =>
      ∃ before, P before ∧ talks.lobby = before.lobby ∧ talks.game = [] ∧
        parseWebSocketEndpoint endpoint = some talks.endpoint := by
  refine Prog.Triple.perform GuiClient.occur_talks fun client _ client' hP happly => ?_
  obtain ⟨socket, hconnect, heq⟩ := Loops.map_eq_ok.mp happly
  cases heq
  unfold WebSocketClient.connectToGameServer at hconnect
  cases hparse : parseWebSocketEndpoint endpoint with
  | none =>
      rw [hparse] at hconnect
      cases hconnect
  | some parsed =>
      rw [hparse] at hconnect
      dsimp only at hconnect
      rw [WebSocketClient.connect, if_neg (by exact Bool.false_ne_true)] at hconnect
      split at hconnect
      · cases hconnect
        exact ⟨_, hP, rfl, rfl, rfl⟩
      · cases hconnect

end Operations

/-! ### The lobby connection -/

/-- What has gone over the lobby connection while the login session is in a phase. -/
inductive LobbyTalk : NetworkLoginPhase → List Line → Prop where
  | opened : LobbyTalk .connected []
  | login {talk : List Line} {name : Text} (before : LobbyTalk .connected talk) (named : name ≠ []) :
      LobbyTalk .loginSent (talk ++ [.said (sendLogin name name)])
  | other {talk : List Line} {text : Text} (before : LobbyTalk .loginSent talk) (read : readLoginMessage text = none) :
      LobbyTalk .loginSent (talk ++ [.heard text])
  | accepted {talk : List Line} {text : Text} {result : LoginResult} (before : LobbyTalk .loginSent talk)
      (read : readLoginMessage text = some result) (status : result.status = .ok) :
      LobbyTalk .loginOk (talk ++ [.heard text])
  | failed {talk : List Line} {text : Text} {result : LoginResult} (before : LobbyTalk .loginSent talk)
      (read : readLoginMessage text = some result) (status : result.status = .failed) :
      LobbyTalk .loginFailed (talk ++ [.heard text])
  | reset {phase : NetworkLoginPhase} {talk : List Line} (before : LobbyTalk phase talk)
      (answered : phase = .loginOk ∨ phase = .loginFailed) : LobbyTalk .connected talk
  | play {talk : List Line} (before : LobbyTalk .loginOk talk) : LobbyTalk .playRequested (talk ++ [.said sendPlay])
  | heard {talk : List Line} (text : Text) (before : LobbyTalk .playRequested talk) :
      LobbyTalk .playRequested (talk ++ [.heard text])

/-- The talk ends with a login that is still to be answered: nothing has been said since, and nothing that has been heard
is an answer. -/
def Asked (talk : List Line) : Prop :=
  ∃ (earlier : List Line) (name : Text) (waited : List Text),
    talk = earlier ++ .said (sendLogin name name) :: waited.map Line.heard ∧ ∀ text ∈ waited, readLoginMessage text = none

/-- The talk ends with the answer to a login. -/
def Answered (talk : List Line) (result : LoginResult) : Prop :=
  ∃ asked answer, talk = asked ++ [.heard answer] ∧ Asked asked ∧ readLoginMessage answer = some result

/-- A line may be said after this talk. -/
def MaySay (talk : List Line) (text : Text) : Prop :=
  (∃ name, name ≠ [] ∧ text = sendLogin name name ∧ (talk = [] ∨ ∃ result, Answered talk result)) ∨
    text = sendPlay ∧ ∃ result, Answered talk result ∧ result.status = .ok

/-- Whatever is said may be said where it is, and after the request to play nothing is said. -/
structure Polite (talk : List Line) : Prop where
  said : ∀ before text after, talk = before ++ .said text :: after → MaySay before text
  last : ∀ before after, talk = before ++ .said sendPlay :: after → ∀ text, .said text ∉ after

theorem sendLogin_ne_sendPlay (username password : Text) : sendLogin username password ≠ sendPlay := by
  have hhead : (sendLogin username password).head? = some 'l' := by
    unfold sendLogin
    split
    · rfl
    · rfl
  intro h
  rw [h] at hhead
  cases hhead

/-- A line in a talk of one line more is that line, or it was there. -/
theorem append_singleton_cases {talk before after : List Line} {line x : Line}
    (h : talk ++ [line] = before ++ x :: after) :
    before = talk ∧ x = line ∧ after = [] ∨ ∃ rest, after = rest ++ [line] ∧ talk = before ++ x :: rest := by
  rcases List.eq_nil_or_concat after with rfl | ⟨rest, last, rfl⟩
  · obtain ⟨rfl, hlast⟩ := List.append_inj' h rfl
    exact .inl ⟨rfl, (List.singleton_inj.mp hlast).symm, rfl⟩
  · rw [List.concat_eq_append, ← List.cons_append, ← List.append_assoc] at h
    obtain ⟨rfl, hlast⟩ := List.append_inj' h rfl
    exact .inr ⟨rest, by rw [List.concat_eq_append, List.singleton_inj.mp hlast], rfl⟩

namespace Polite

variable {talk : List Line} {text : Text}

theorem hear (h : Polite talk) (text : Text) : Polite (talk ++ [.heard text]) := by
  constructor
  · intro before said after heq
    rcases append_singleton_cases heq with ⟨-, hline, -⟩ | ⟨rest, -, hold⟩
    · cases hline
    · exact h.said before said rest hold
  · intro before after heq said hsaid
    rcases append_singleton_cases heq with ⟨-, hline, -⟩ | ⟨rest, rfl, hold⟩
    · cases hline
    · rcases List.mem_append.mp hsaid with hrest | hlast
      · exact h.last before rest hold said hrest
      · cases List.mem_singleton.mp hlast

theorem say (h : Polite talk) (hmay : MaySay talk text) (hplay : .said sendPlay ∉ talk) :
    Polite (talk ++ [.said text]) := by
  constructor
  · intro before said after heq
    rcases append_singleton_cases heq with ⟨rfl, hline, -⟩ | ⟨rest, -, hold⟩
    · cases hline
      exact hmay
    · exact h.said before said rest hold
  · intro before after heq said hsaid
    rcases append_singleton_cases heq with ⟨-, -, rfl⟩ | ⟨rest, -, hold⟩
    · cases hsaid
    · exact absurd (hold ▸ List.mem_append_right _ List.mem_cons_self) hplay

end Polite

/-- How the talk stands in a phase of the login session. -/
structure Stands (phase : NetworkLoginPhase) (talk : List Line) : Prop where
  polite : Polite talk
  quiet : phase ≠ .playRequested → .said sendPlay ∉ talk
  connected : phase = .connected → talk = [] ∨ ∃ result, Answered talk result
  loginSent : phase = .loginSent → Asked talk
  loginOk : phase = .loginOk → ∃ result, Answered talk result ∧ result.status = .ok
  loginFailed : phase = .loginFailed → ∃ result, Answered talk result

theorem LobbyTalk.stands {phase : NetworkLoginPhase} {talk : List Line} (h : LobbyTalk phase talk) : Stands phase talk := by
  have hheard : ∀ {talk : List Line} {text : Text}, .said sendPlay ∉ talk → .said sendPlay ∉ talk ++ [.heard text] := by
    intro talk text hquiet hmem
    rcases List.mem_append.mp hmem with hold | hlast
    · exact hquiet hold
    · cases List.mem_singleton.mp hlast
  induction h with
  | opened =>
      refine ⟨⟨?_, ?_⟩, fun _ => List.not_mem_nil, fun _ => .inl rfl, ?_, ?_, ?_⟩
      · intro before text after h
        exact absurd h.symm (by simp)
      · intro before after h
        exact absurd h.symm (by simp)
      all_goals exact fun h => by cases h
  | @login talk name before named ih =>
      have hquiet := ih.quiet (by decide)
      refine ⟨ih.polite.say (.inl ⟨name, named, rfl, ih.connected rfl⟩) hquiet, fun _ hmem => ?_, ?_,
        fun _ => ⟨talk, name, [], rfl, fun _ h => absurd h List.not_mem_nil⟩, ?_, ?_⟩
      · rcases List.mem_append.mp hmem with hold | hlast
        · exact hquiet hold
        · exact sendLogin_ne_sendPlay name name (Line.said.inj (List.mem_singleton.mp hlast)).symm
      all_goals exact fun h => by cases h
  | @other talk text before read ih =>
      refine ⟨ih.polite.hear text, fun _ => hheard (ih.quiet (by decide)), ?_, fun _ => ?_, ?_, ?_⟩
      · exact fun h => by cases h
      · obtain ⟨earlier, name, waited, rfl, hwaited⟩ := ih.loginSent rfl
        refine ⟨earlier, name, waited ++ [text], ?_, ?_⟩
        · rw [List.map_append, List.append_assoc, List.cons_append]
          rfl
        · exact List.forall_mem_append.mpr ⟨hwaited, List.forall_mem_singleton.mpr read⟩
      all_goals exact fun h => by cases h
  | @accepted talk text result before read status ih =>
      refine ⟨ih.polite.hear text, fun _ => hheard (ih.quiet (by decide)), ?_, ?_,
        fun _ => ⟨result, ⟨talk, text, rfl, ih.loginSent rfl, read⟩, status⟩, ?_⟩
      all_goals exact fun h => by cases h
  | @failed talk text result before read status ih =>
      refine ⟨ih.polite.hear text, fun _ => hheard (ih.quiet (by decide)), ?_, ?_, ?_,
        fun _ => ⟨result, talk, text, rfl, ih.loginSent rfl, read⟩⟩
      all_goals exact fun h => by cases h
  | @reset phase talk before answered ih =>
      have hanswered : ∃ result, Answered talk result := by
        rcases answered with hphase | hphase
        · obtain ⟨result, hanswered, -⟩ := ih.loginOk hphase
          exact ⟨result, hanswered⟩
        · exact ih.loginFailed hphase
      refine ⟨ih.polite, fun _ => ih.quiet ?_, fun _ => .inr hanswered, ?_, ?_, ?_⟩
      · rcases answered with rfl | rfl
        · decide
        · decide
      all_goals exact fun h => by cases h
  | @play talk before ih =>
      refine ⟨ih.polite.say (.inr ⟨rfl, ih.loginOk rfl⟩) (ih.quiet (by decide)), fun h => absurd rfl h, ?_, ?_, ?_, ?_⟩
      all_goals exact fun h => by cases h
  | @heard talk text before ih =>
      refine ⟨ih.polite.hear text, fun h => absurd rfl h, ?_, ?_, ?_, ?_⟩
      all_goals exact fun h => by cases h

end KungFuChess
