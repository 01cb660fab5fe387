import KungFuChess.Proof.Runs

/-!
# Turns of the loops

The ticks are made of loops over the handlers' rounds. An invariant that every round keeps is kept by a
tick; for the rooms it may know how much time the tick goes on and which rooms are still to come.
-/

namespace KungFuChess

open Machine

variable {config : ServerConfig} {C D : Server → NetEvent ⊕ ServerOp → Prop} {I : Server → Prop} {s : Server}

/-- No event that satisfies the condition breaks the invariant. -/
def Stable (C : Server → NetEvent ⊕ ServerOp → Prop) (I : Server → Prop) : Prop :=
  ∀ s event, I s → C s (.inl event) → I (s.occur event)

/-- The operation keeps the invariant, and gives its guarantee. -/
def Keeps (config : ServerConfig) (C D : Server → NetEvent ⊕ ServerOp → Prop) (I : Server → Prop) (op : ServerOp) :
    Prop :=
  ∀ s, I s → D s (.inr op) ∧ ∀ r s', C s (.inr op) → s.apply config op = .ok (r, s') → I s'

theorem perform_wp {op : ServerOp} {Q : op.Result → Server → Prop} (hstable : Stable C I)
    (hop : ∀ s, I s → D s (.inr op) ∧ ∀ r s', C s (.inr op) → s.apply config op = .ok (r, s') → Q r s') (h : I s) :
    (perform config op).wp C D Q s :=
  Prog.wp_perform (M := serverMachine config) hstable hop h

theorem look_wp {α : Type} {f : Server → α} {Q : α → Server → Prop} (h : Q (f s) s) : (look config f).wp C D Q s := h

theorem forM_wp {β : Type} {J : List β → Server → Prop} {f : β → ServerProg config Unit} {bs : List β}
    (hbody : ∀ b rest s, J (b :: rest) s → (f b).wp C D (fun _ s' => J rest s') s) (h : J bs s) :
    (bs.forM f).wp C D (fun _ s' => J [] s') s :=
  Prog.wp_forM (M := serverMachine config) (I := J) hbody h

theorem processLobby_wp (hstable : Stable C I) (hlobby : ∀ id, Keeps config C D I (.lobby id)) (h : I s) :
    (processLobby config).wp C D (fun _ s' => I s') s :=
  Prog.wp_bind (look_wp (forM_wp (J := fun _ => I) (fun id _ _ h => perform_wp hstable (hlobby id) h) h))

theorem processJoins_wp (hstable : Stable C I) (hjoin : ∀ id, Keeps config C D I (.join id)) (h : I s) :
    (processJoins config).wp C D (fun _ s' => I s') s :=
  Prog.wp_bind (look_wp (forM_wp (J := fun _ => I) (fun id _ _ h => perform_wp hstable (hjoin id) h) h))

theorem pruneSessions_wp (hstable : Stable C I) (hdetect : Keeps config C D I .pruneDisconnected)
    (hprune : ∀ id, Keeps config C D I (.prune id)) (h : I s) :
    (pruneSessions config).wp C D (fun _ s' => I s') s := by
  apply Prog.wp_bind
  refine Prog.wp_mono (perform_wp hstable hdetect h) fun _ _ h => ?_
  exact Prog.wp_bind (look_wp (forM_wp (J := fun _ => I) (fun id _ _ h => perform_wp hstable (hprune id) h) h))

theorem gatewayTick_wp (hstable : Stable C I) (haccept : Keeps config C D I .acceptNewClients)
    (hlobby : ∀ id, Keeps config C D I (.lobby id)) (htimeouts : Keeps config C D I .processTimeouts)
    (hdetect : Keeps config C D I .pruneDisconnected) (hprune : ∀ id, Keeps config C D I (.prune id)) (h : I s) :
    (gatewayTick config).wp C D (fun _ s' => I s') s := by
  apply Prog.wp_bind
  refine Prog.wp_mono (perform_wp hstable haccept h) fun _ _ h => ?_
  apply Prog.wp_bind
  refine Prog.wp_mono (processLobby_wp hstable hlobby h) fun _ _ h => ?_
  apply Prog.wp_bind
  refine Prog.wp_mono (perform_wp hstable htimeouts h) fun _ _ h => ?_
  exact pruneSessions_wp hstable hdetect hprune h

/-- The time that a tick goes on is read off the clock once, and so are the rooms. -/
theorem runtimeTick_wp {J : Int → List RoomId → Server → Prop} {managesConnections : Bool} (hstable : Stable C I)
    (haccept : managesConnections = true → Keeps config C D I .acceptNewClients)
    (hjoin : ∀ id, Keeps config C D I (.join id))
    (hclock : ∀ s, I s → D s (.inr .readClock) ∧
      (C s (.inr .readClock) → J (elapsedMs s.now s.lastTick) (s.activeRooms config) s))
    (hroom : ∀ elapsed roomId rest s, J elapsed (roomId :: rest) s →
      (processRoom config elapsed roomId).wp C D (fun _ s' => J elapsed rest s') s)
    (hover : ∀ elapsed s, J elapsed [] s → I s) (hremove : Keeps config C D I .removeInactiveRooms)
    (hdetect : managesConnections = true → Keeps config C D I .pruneDisconnected)
    (hprune : managesConnections = true → ∀ id, Keeps config C D I (.prune id)) (h : I s) :
    (runtimeTick config managesConnections).wp C D (fun _ s' => I s') s := by
  have hjoined : ∀ s, I s → (do
      processJoins config
      let now ← perform config .readClock
      let elapsed := elapsedMs now (← look config (·.lastTick))
      (← look config (·.activeRooms config)).forM (processRoom config elapsed)
      perform config .removeInactiveRooms
      if managesConnections then pruneSessions config).wp C D (fun _ s' => I s') s := by
    intro s h
    apply Prog.wp_bind
    refine Prog.wp_mono (processJoins_wp hstable hjoin h) fun _ s h => ?_
    apply Prog.wp_bind
    refine perform_wp hstable (fun s h => ⟨(hclock s h).1, fun now s' hcond happly => ?_⟩) h
    cases happly
    have hrooms := forM_wp (fun roomId rest s hj => hroom _ roomId rest s hj) ((hclock s h).2 hcond)
    refine Prog.wp_bind (look_wp (Prog.wp_bind (look_wp (Prog.wp_bind ?_))))
    refine Prog.wp_mono hrooms fun _ s hj => ?_
    apply Prog.wp_bind
    refine Prog.wp_mono (perform_wp hstable hremove (hover _ s hj)) fun _ s h => ?_
    cases managesConnections with
    | false => exact h
    | true => exact pruneSessions_wp hstable (hdetect rfl) (hprune rfl) h
  cases managesConnections with
  | false => exact hjoined s h
  | true =>
      apply Prog.wp_bind
      exact Prog.wp_mono (perform_wp hstable (haccept rfl) h) fun _ s h => hjoined s h

/-! ### The round of a room

The round asks for the inputs and for the end of the game with the room as it finds it then. What it asks for is
left to the invariant `K`, which holds once the room has been ticked; before that it is `J`, and `P` after the
room has been probed. -/

section Round

variable {J P K : Server → Prop} {roomId : RoomId} {elapsed : Int}

@[simp] theorem Server.occur_rooms (s : Server) (event : NetEvent) : (s.occur event).rooms = s.rooms := by
  cases event <;> rfl

theorem finishIfOver_wp (h : K s) (hfinish : ∀ room, s.rooms.findRoom roomId = some room → room.isGameOver = true →
    (perform config (.finish roomId room.game.state.winningColor .kingCapture)).wp C D (fun _ s' => K s') s) :
    (finishIfOver config roomId).wp C D (fun _ s' => K s') s := by
  apply Prog.wp_bind
  apply look_wp
  cases hroom : s.rooms.findRoom roomId with
  | none => exact h
  | some room =>
      dsimp only
      by_cases hover : room.isGameOver = true
      · rw [if_pos hover]
        exact hfinish room hroom hover
      · rw [if_neg hover]
        exact h

/-- The inputs are asked for if the room is active; a player who resigns ends the game. -/
theorem playInputs_wp (h : K s) (hinputs : ∀ room, s.rooms.findRoom roomId = some room → room.active = true →
    (perform config (.playRoomInputs roomId)).wp C D (fun winner s' => K s' ∧ ∀ color, winner = some color →
      (perform config (.finish roomId (some color) .resign)).wp C D (fun _ s' => K s') s') s) :
    (playInputs config roomId).wp C D (fun _ s' => K s') s := by
  apply Prog.wp_bind
  apply look_wp
  cases hroom : s.rooms.findRoom roomId with
  | none => exact h
  | some room =>
      dsimp only
      split
      · rename_i hplayed
        apply Prog.wp_bind
        refine Prog.wp_mono (hinputs room hroom (Bool.and_eq_true_iff.mp hplayed).1) fun winner s h => ?_
        cases winner with
        | none => exact h.1
        | some color => exact h.2 color rfl
      · exact h

theorem playRoom_wp {room : Room} (hskip : K s)
    (htick : kTargetFrameMs ≤ elapsed →
      (perform config (.tickRoom room.id elapsed)).wp C D (fun _ s' => K s') s)
    (hinputs : ∀ s, K s → (playInputs config room.id).wp C D (fun _ s' => K s') s)
    (hover : ∀ s, K s → (finishIfOver config room.id).wp C D (fun _ s' => K s') s) :
    (playRoom config room elapsed).wp C D (fun _ s' => K s') s := by
  have hplayed : ∀ s, K s → (do
      playInputs config room.id
      finishIfOver config room.id).wp C D (fun _ s' => K s') s :=
    fun s h => Prog.wp_bind (Prog.wp_mono (hinputs s h) fun _ s h => hover s h)
  unfold playRoom
  by_cases hticks : elapsed ≥ kTargetFrameMs ∧ !room.isGameOver
  · rw [if_pos hticks]
    apply Prog.wp_bind
    exact Prog.wp_mono (htick hticks.1) fun _ s h => hplayed s h
  · rw [if_neg hticks]
    exact hplayed s hskip

/-- Between the probe and the finish, or the inputs, the room is the one that was found. -/
theorem processRoom_wp (hstable : Stable C J) (hskip : ∀ s, J s → K s)
    (hprobe : ∀ s, J s → D s (.inr (.probeRoom roomId)) ∧ (C s (.inr (.probeRoom roomId)) → P (s.probeRoom roomId)))
    (hgone : ∀ s room, s.rooms.findRoom roomId = some room → P s → s.bothRoomPlayersDisconnected room = true →
      (perform config (.finish roomId none .disconnect)).wp C D (fun _ s' => K s') s)
    (hleft : ∀ s room color, s.rooms.findRoom roomId = some room → P s →
      s.disconnectedPlayerColor room = some color →
      (perform config (.finish roomId (some (opponentOf color)) .disconnect)).wp C D (fun _ s' => K s') s)
    (hplay : ∀ s room, s.rooms.findRoom roomId = some room → room.whitePlayer.isSome → P s →
      (playRoom config room elapsed).wp C D (fun _ s' => K s') s)
    (h : J s) : (processRoom config elapsed roomId).wp C D (fun _ s' => K s') s := by
  apply Prog.wp_bind
  apply look_wp
  cases hroom : s.rooms.findRoom roomId with
  | none => exact hskip s h
  | some room =>
      dsimp only
      split
      · exact hskip s h
      · rename_i hplayers
        rw [Bool.or_eq_true, not_or, Bool.not_eq_true, Option.isNone_eq_false_iff] at hplayers
        apply Prog.wp_bind
        have hprobed : (perform config (.probeRoom roomId)).wp C D
            (fun _ s' => P s' ∧ s'.rooms.findRoom roomId = some room) s := by
          refine perform_wp (I := fun s => J s ∧ s.rooms.findRoom roomId = some room) ?_ ?_ ⟨h, hroom⟩
          · intro s event h
            obtain ⟨h, hroom⟩ := h
            intro hcond
            exact ⟨hstable s event h hcond, by rw [Server.occur_rooms]; exact hroom⟩
          · intro s h
            obtain ⟨h, hroom⟩ := h
            refine ⟨(hprobe s h).1, fun _ s' hcond happly => ?_⟩
            cases happly
            refine ⟨(hprobe s h).2 hcond, ?_⟩
            rw [Server.eq_of_bare (Server.probeRoom_bare s roomId)]
            exact hroom
        refine Prog.wp_mono hprobed ?_
        intro _ s h
        obtain ⟨h, hroom⟩ := h
        refine Prog.wp_bind (look_wp ?_)
        by_cases hboth : s.bothRoomPlayersDisconnected room = true
        · rw [if_pos hboth]
          exact hgone s room hroom h hboth
        · rw [if_neg hboth]
          refine Prog.wp_bind (look_wp ?_)
          cases hcolor : s.disconnectedPlayerColor room with
          | some color => exact hleft s room color hroom h hcolor
          | none => exact hplay s room hroom hplayers.1 h

/-- An invariant that everything keeps that a room asks for. -/
theorem processRoom_keeps (hstable : Stable C I) (hprobe : Keeps config C D I (.probeRoom roomId))
    (htick : Keeps config C D I (.tickRoom roomId elapsed)) (hinputs : Keeps config C D I (.playRoomInputs roomId))
    (hfinish : ∀ winner reason, Keeps config C D I (.finish roomId winner reason)) (h : I s) :
    (processRoom config elapsed roomId).wp C D (fun _ s' => I s') s := by
  have hfinished : ∀ winner reason s, I s → (perform config (.finish roomId winner reason)).wp C D (fun _ s' => I s') s :=
    fun winner reason s h => perform_wp hstable (hfinish winner reason) h
  refine processRoom_wp (J := I) (P := I) hstable (fun _ h => h) ?_ (fun s _ _ h _ => hfinished _ _ s h)
    (fun s _ _ _ h _ => hfinished _ _ s h) ?_ h
  · exact fun s h => ⟨(hprobe s h).1, fun hcond => (hprobe s h).2 () _ hcond rfl⟩
  · intro s room hroom _ h
    obtain rfl : room.id = roomId := by simpa using List.find?_some hroom
    refine playRoom_wp h (fun _ => perform_wp hstable htick h) (fun s h => ?_)
      (fun s h => finishIfOver_wp h fun _ _ _ => hfinished _ _ s h)
    refine playInputs_wp h fun _ _ _ => ?_
    refine Prog.wp_mono (perform_wp hstable hinputs h) fun _ s h => ?_
    exact ⟨h, fun _ _ => hfinished _ _ s h⟩

end Round

/-! ### The monolith

A turn of the monolith goes through the sessions twice. What the lobby has left to do is `J`, what the join handler
has left to do is `L`; `I` holds before both, `K` in between and `E` in the end. -/

/-- What asks for nothing of the sessions' messages in the rest of a turn. -/
def InTheRest : ServerOp → Prop
  | .readClock | .probeRoom _ | .tickRoom _ _ | .playRoomInputs _ | .finish _ _ _ | .removeInactiveRooms => True
  | _ => False

theorem gameServerTick_wp {K E : Server → Prop} {J L : List PlayerId → Server → Prop} (hstable : Stable C I)
    (hstableEnd : Stable C E) (hstableLobby : ∀ ids, Stable C (J ids)) (hstableBetween : Stable C K)
    (hstableJoin : ∀ ids, Stable C (L ids))
    (haccept : Keeps config C D I .acceptNewClients) (hbegin : ∀ s, I s → J (sessionIds s) s)
    (hlobby : ∀ id rest s, J (id :: rest) s → D s (.inr (.lobby id)) ∧
      ∀ r s', C s (.inr (.lobby id)) → s.apply config (.lobby id) = .ok (r, s') → J rest s')
    (hheard : ∀ s, J [] s → K s) (htimeouts : Keeps config C D K .processTimeouts)
    (hdetect : Keeps config C D K .pruneDisconnected) (hprune : ∀ id, Keeps config C D K (.prune id))
    (hjoins : ∀ s, K s → L (sessionIds s) s)
    (hjoin : ∀ id rest s, L (id :: rest) s → D s (.inr (.join id)) ∧
      ∀ r s', C s (.inr (.join id)) → s.apply config (.join id) = .ok (r, s') → L rest s')
    (hend : ∀ s, L [] s → E s) (hrest : ∀ op, InTheRest op → Keeps config C D E op) (h : I s) :
    (gameServerTick config).wp C D (fun _ s' => E s') s := by
  have hlobbied : ∀ s, I s → (processLobby config).wp C D (fun _ s' => K s') s := by
    intro s h
    have hpass := forM_wp (f := fun id => perform config (.lobby id)) (J := J)
      (fun id rest s h => perform_wp (hstableLobby _) (hlobby id rest) h) (hbegin s h)
    exact Prog.wp_bind (look_wp (Prog.wp_mono hpass fun _ s h => hheard s h))
  have hjoined : ∀ s, K s → (processJoins config).wp C D (fun _ s' => E s') s := by
    intro s h
    have hpass := forM_wp (f := fun id => perform config (.join id)) (J := L)
      (fun id rest s h => perform_wp (hstableJoin _) (hjoin id rest) h) (hjoins s h)
    exact Prog.wp_bind (look_wp (Prog.wp_mono hpass fun _ s h => hend s h))
  have hgateway : (gatewayTick config).wp C D (fun _ s' => K s') s := by
    apply Prog.wp_bind
    refine Prog.wp_mono (perform_wp hstable haccept h) fun _ s h => ?_
    apply Prog.wp_bind
    refine Prog.wp_mono (hlobbied s h) fun _ s h => ?_
    apply Prog.wp_bind
    refine Prog.wp_mono (perform_wp hstableBetween htimeouts h) fun _ s h => ?_
    exact pruneSessions_wp hstableBetween hdetect hprune h
  apply Prog.wp_bind
  refine Prog.wp_mono hgateway fun _ s h => ?_
  unfold runtimeTick
  apply Prog.wp_bind
  refine Prog.wp_mono (hjoined s h) fun _ s h => ?_
  apply Prog.wp_bind
  refine Prog.wp_mono (perform_wp hstableEnd (hrest .readClock trivial) h) fun now s h => ?_
  refine Prog.wp_bind (look_wp (Prog.wp_bind (look_wp (Prog.wp_bind ?_))))
  have hroom : ∀ elapsed roomId s, E s → (processRoom config elapsed roomId).wp C D (fun _ s' => E s') s := by
    intro elapsed roomId s h
    exact processRoom_keeps hstableEnd (hrest (.probeRoom roomId) trivial) (hrest (.tickRoom roomId elapsed) trivial)
      (hrest (.playRoomInputs roomId) trivial) (fun winner reason => hrest (.finish roomId winner reason) trivial) h
  refine Prog.wp_mono (forM_wp (J := fun _ => E) (fun roomId _ s h => hroom _ roomId s h) h) fun _ s h => ?_
  exact Prog.wp_bind (Prog.wp_mono (perform_wp hstableEnd (hrest .removeInactiveRooms trivial) h) fun _ _ h => h)

/-- A loop over calls, each of which keeps the invariant. -/
theorem serve_wp (hstable : Stable C I) (hgateway : ∀ s, I s → (gatewayTick config).wp C D (fun _ s' => I s') s)
    (hruntime : ∀ managesConnections s, I s → (runtimeTick config managesConnections).wp C D (fun _ s' => I s') s)
    (hallocate : ∀ request, Keeps config C D I (.allocate request))
    (hfinish : ∀ roomId winner reason, Keeps config C D I (.finish roomId winner reason)) (calls : List ServerCall)
    (h : I s) : (serve config calls).wp C D (fun _ s' => I s') s := by
  refine forM_wp (J := fun _ => I) ?_ h
  intro call _ s h
  cases call with
  | gatewayTick => exact hgateway s h
  | runtimeTick managesConnections => exact hruntime managesConnections s h
  | gameServerTick =>
      apply Prog.wp_bind
      exact Prog.wp_mono (hgateway s h) fun _ s h => hruntime false s h
  | allocate request => exact perform_wp hstable (hallocate request) h
  | finishRoom roomId winner reason => exact perform_wp hstable (hfinish roomId winner reason) h

end KungFuChess
