import KungFuChess.Proof.NetworkGui
import KungFuChess.Proof.Strangers

/-!
# Redirected clients

A client and the server that it has been sent to, put together. The client never logs in over its game connection, and
the server lets in nobody who has not logged in over that connection. So the game never begins for the client: it is not
shown a board.
-/

namespace KungFuChess

open Machine Server NetworkInputHandler

/-- A request that begins with another word is no login. -/
theorem ClientRequest.parseLoginMessage_other (request : ClientRequest) {command : Text} {arguments : List Text}
    (hwords : request.words = command :: arguments) (hcommand : IsWord command) (hne : command ≠ "login".toList)
    (harguments : ∀ token ∈ arguments, IsWord token) : parseLoginMessage request.text = none := by
  rw [request.text_eq, hwords]
  exact KungFuChess.parseLoginMessage_other hcommand harguments hne

theorem isWord_cell (row col : Size) : ∀ token ∈ [decimal row.val, decimal col.val], IsWord token :=
  List.forall_mem_cons.mpr ⟨isWord_decimal _, List.forall_mem_singleton.mpr (isWord_decimal _)⟩

/-- Nothing that is said in a game is a login. -/
theorem IsInput.parseLoginMessage {text : Text} (h : IsInput text) : parseLoginMessage text = none := by
  obtain ⟨request, hinput, rfl⟩ := h
  cases request with
  | select row col => exact ClientRequest.parseLoginMessage_other _ rfl (by decide) (by decide) (isWord_cell row col)
  | move row col => exact ClientRequest.parseLoginMessage_other _ rfl (by decide) (by decide) (isWord_cell row col)
  | jump row col => exact ClientRequest.parseLoginMessage_other _ rfl (by decide) (by decide) (isWord_cell row col)
  | clear => exact ClientRequest.parseLoginMessage_other _ rfl (by decide) (by decide) fun _ h => absurd h List.not_mem_nil
  | play => cases hinput
  | resign => cases hinput
  | joinGame roomId => cases hinput
  | login credentials => cases hinput

/-- Nothing that a client says over its game connection is a login. -/
theorem AtGame.parseLoginMessage {talks : Talks} (h : AtGame talks) {text : Text} (hsaid : .said text ∈ talks.game) :
    parseLoginMessage text = none := by
  rcases h with hinputs | ⟨redirect, hjoined⟩
  · exact (hinputs text hsaid).parseLoginMessage
  · obtain ⟨rest, hgame, hinputs⟩ := hjoined.talk
    rw [hgame] at hsaid
    rcases List.mem_cons.mp hsaid with hfirst | hrest
    · rw [Line.said.inj hfirst]
      exact (ClientRequest.joinGame _).parseLoginMessage_other rfl (by decide) (by decide)
        (List.forall_mem_singleton.mpr (isWord_decimal _))
    · exact (hinputs text hrest).parseLoginMessage

section

variable {F : Type} {config : GuiConfig F} {turns : Nat} {script : List (List GuiEvent)} {phase : GuiPhase F} {w : GuiWorld}
  {serverConfig : ServerConfig} {users : UserRepository} {games : GameRepository} {now : Nat}
  {serverScript : List (List NetEvent)} {sw : ServerWorld serverConfig}

/-- The refusals are no boards. -/
theorem readSnapshot_refusal (floats : FloatText F) {message : ServerMessage}
    (hmessage : message = .joinFailed .roomNotFound ∨ message = .joinFailed .notAuthenticated) :
    readSnapshot floats message.text = .ok none := by
  rcases hmessage with rfl | rfl
  · rfl
  · rfl

/-- A client that has been sent to the server of its game is not let in there: over a connection on which the server
hears nothing but what such a client says, the session stays nobody's, in no room, and hears only that it cannot join. And
as long as its lobby shows it no board, the client is shown none at all. Session 0 of a server that is asked for rooms is
another matter: it stands for the players who are not there. -/
theorem redirected_client_is_left_out
    (hrun : (runNetworkGui config turns).run { state := {}, script } = .ok (phase, w))
    (hleads : Leads { state := boot users games now, script := serverScript } sw) {x : PlayerSession}
    (hx : x ∈ sw.state.sessions) (hnew : x.id ≠ 0 ∨ ∀ step ∈ sw.history, ∀ request, step.2 ≠ .inr (.allocate request))
    (hserver : ∀ step ∈ sw.history, ∀ text, step.2 = .inl (.deliver x.id (.text text)) → .said text ∈ w.state.game.talk)
    (hclient : ∀ text, .heard text ∈ w.state.game.talk → ∃ message ∈ x.connection.sent, message.text = text)
    (hlobby : ∀ text, .heard text ∈ w.state.lobby.talk → ∀ view, readSnapshot config.floats text ≠ .ok (some view)) :
    LeftOut x ∧ ∀ draining view gui, phase ≠ .playing draining view gui := by
  have hfollows := follows_of_run hrun
  have hleft : LeftOut x := LeftOut.of_silent hleads hnew
    (fun step hstep text htext => hfollows.spoken.2.parseLoginMessage (hserver step hstep text htext)) x hx rfl
  refine ⟨hleft, fun draining view gui hplaying => ?_⟩
  rw [hplaying] at hfollows
  obtain ⟨text, hheard, hread⟩ := hfollows.1.seen view rfl
  rcases hheard with hheard | hheard
  · exact hlobby text hheard view hread
  · obtain ⟨message, hmessage, rfl⟩ := hclient text hheard
    rw [readSnapshot_refusal config.floats (hleft.told message hmessage)] at hread
    cases hread

end

/-- If it is a text that is delivered, it is this one. -/
def isOnly (message : Text) : NetEvent ⊕ ServerOp → Bool
  | .inl (.deliver _ (.text text)) => text == message
  | _ => true

/-- The client is sent to a server where another client has come before, and hears that there is no such room. -/
theorem redirected_client_is_left_out_refused :
    ∃ (phase : GuiPhase Nat) (w : GuiWorld) (sw : ServerWorld sampleConfig) (x : PlayerSession),
      (runNetworkGui sampleGui 5).run { state := {}, script := untilRefused } = .ok (phase, w) ∧
      Leads (sampleWorld ([[.connect, .connect]] ++ quiet 8 ++ [[say 1 "join_game 5"]])) sw ∧
      .heard "join_failed room_not_found".toList ∈ w.state.game.talk ∧ x ∈ sw.state.sessions ∧ x.id = 1 ∧ LeftOut x ∧
      ∀ draining view gui, phase ≠ .playing draining view gui := by
  have hclient : (runNetworkGui sampleGui 5).reaches { state := {}, script := untilRefused } (fun _ w => decide (
      w.state.lobby.talk = [.said "login Player7 Player7".toList, .heard "login_ok 1200".toList, .said "play".toList,
        .heard "game_redirect ws://host:8765 5 white".toList] ∧
      w.state.game.talk = [.said "join_game 5".toList, .heard "join_failed room_not_found".toList])) = true := by
    decide +kernel
  have hserver : (serve sampleConfig (List.replicate 3 (.runtimeTick true))).reaches
      (sampleWorld ([[.connect, .connect]] ++ quiet 8 ++ [[say 1 "join_game 5"]])) (fun _ w =>
        decide (∃ x ∈ w.state.sessions, x.id = 1 ∧ x.connection.sent = [.joinFailed .roomNotFound]) &&
        w.history.all fun step => isOnly "join_game 5".toList step.2) = true := by
    decide +kernel
  obtain ⟨phase, w, hrun, hw⟩ := Prog.reaches_eq_true hclient
  obtain ⟨hlobby, hgame⟩ := of_decide_eq_true hw
  obtain ⟨_, sw, hserve, hsw⟩ := Prog.reaches_eq_true hserver
  obtain ⟨hx, hsaid⟩ := Bool.and_eq_true_iff.mp hsw
  obtain ⟨x, hx, hid, hsent⟩ := of_decide_eq_true hx
  have hleads := Leads.of_run hserve
  refine ⟨phase, w, sw, x, hrun, hleads, by rw [hgame]; simp, hx, hid, ?_⟩
  refine redirected_client_is_left_out hrun hleads hx (.inl (by rw [hid]; decide)) ?_ ?_ ?_
  · intro step hstep text htext
    have hall := List.all_eq_true.mp hsaid step hstep
    rw [htext] at hall
    rw [eq_of_beq hall, hgame]
    exact List.mem_cons_self
  · intro text hheard
    rw [hgame] at hheard
    obtain hfirst | hsecond := List.mem_cons.mp hheard
    · cases hfirst
    · refine ⟨_, by rw [hsent]; exact List.mem_cons_self, ?_⟩
      exact (Line.heard.inj (List.mem_singleton.mp hsecond)).symm
  · intro text hheard view
    rw [hlobby] at hheard
    simp only [List.mem_cons, Line.heard.injEq, reduceCtorEq, false_or, List.not_mem_nil, or_false] at hheard
    have hnone : readSnapshot sampleGui.floats text = .ok none := by
      rcases hheard with rfl | rfl
      · rfl
      · rfl
    rw [hnone]
    exact fun h => by cases h

end KungFuChess
