import KungFuChess.Lib.Histories
import KungFuChess.Proof.Runs

/-!
# Sessions and the client list

The connections belong to the list of the WebSocket server, and a session points to one of them.
`prune_disconnected` takes the closed ones out of the list, and only then does `prune_sessions` look which
sessions have a closed one. The list is read off the history here: a connection has the id of its session.
-/

namespace KungFuChess

open Machine

namespace Server

variable {config : ServerConfig} {s s' t : Server} {id : PlayerId} {roomId : RoomId}

/-! ### What is looked at -/

def roomPlayerIds (s : Server) (roomId : RoomId) : List PlayerId :=
  match s.rooms.findRoom roomId with
  | none => []
  | some room => (room.whitePlayer.toList ++ room.blackPlayer.toList).map (·.playerId)

/-- The sessions whose connections an operation looks at. A request to play, and the search for those who have
timed out, look at everybody who waits. -/
def looksAt (s : Server) : ServerOp → List PlayerId
  | .prune id | .join id => [id]
  | .lobby id =>
      if (s.findSession id).any fun session => session.state = .playing then []
      else id :: s.waiting.map (·.session)
  | .processTimeouts => s.waiting.map (·.session)
  | .probeRoom roomId | .tickRoom roomId _ | .playRoomInputs roomId | .finish roomId _ _ => s.roomPlayerIds roomId
  | .acceptNewClients | .pruneDisconnected | .allocate _ | .readClock | .removeInactiveRooms => []

/-- The same, as far as there is a session. -/
def consulted (s : Server) (op : ServerOp) : List PlayerId :=
  (s.looksAt op).filter fun id => (s.findSession id).isSome

/-! ### The client list -/

/-- `clients_` after an event or an operation. -/
def clientsStep (config : ServerConfig) (clients : List PlayerId) :
    Server × (NetEvent ⊕ ServerOp) → List PlayerId
  | (s, .inr .acceptNewClients) => clients ++ (sessionIds (s.acceptNewClients config)).drop s.sessions.length
  | (s, .inr .pruneDisconnected) =>
      clients.filter fun id => (s.findSession id).all (·.connection.detectPeerDisconnect.isOpen)
  | _ => clients

def clientsAfter (config : ServerConfig) (history : History) : List PlayerId :=
  history.foldl (clientsStep config) []

/-- Every connection that an operation of the history looks at is in the list by then. -/
def LooksAtClients (config : ServerConfig) (history : History) : Prop :=
  ∀ before s op, before ++ [(s, .inr op)] <+: history → ∀ id ∈ s.consulted op, id ∈ clientsAfter config before

/-- `prune_disconnected` finds every connection open. -/
def FindsAllOpen (s : Server) : NetEvent ⊕ ServerOp → Prop
  | .inr .pruneDisconnected => ∀ session ∈ s.sessions, session.connection.detectPeerDisconnect.isOpen = true
  | _ => True

instance (s : Server) : ∀ step, Decidable (FindsAllOpen s step)
  | .inr .pruneDisconnected => inferInstanceAs (Decidable
      (∀ session ∈ s.sessions, session.connection.detectPeerDisconnect.isOpen = true))
  | .inl _ | .inr .acceptNewClients | .inr (.lobby _) | .inr .processTimeouts | .inr (.prune _) | .inr (.join _)
  | .inr (.allocate _) | .inr .readClock | .inr (.probeRoom _) | .inr (.tickRoom _ _) | .inr (.playRoomInputs _)
  | .inr (.finish _ _ _) | .inr .removeInactiveRooms => isTrue trivial

theorem clientsAfter_concat (history : History) (x : Server × (NetEvent ⊕ ServerOp)) :
    clientsAfter config (history ++ [x]) = clientsStep config (clientsAfter config history) x :=
  Histories.foldl_concat history x

/-- The connections of the sessions are in the list. -/
def SessionsListed (config : ServerConfig) (s : Server) (history : History) : Prop :=
  ∀ id ∈ sessionIds s, id ∈ clientsAfter config history

theorem SessionsListed.consulted {history : History} (h : SessionsListed config s history) {op : ServerOp}
    (hid : id ∈ s.consulted op) : id ∈ clientsAfter config history := by
  obtain ⟨session, hsession⟩ := Option.isSome_iff_exists.mp (List.mem_filter.mp hid).2
  obtain ⟨hmem, rfl⟩ := findSession_some hsession
  exact h session.id (List.mem_map_of_mem hmem)

/-! ### The sessions after an operation -/

theorem acceptNewClients_ids (hfree : s.sessions.length < config.maxClients) (hknocks : 0 < s.backlog) :
    sessionIds (s.acceptNewClients config) = sessionIds s ++ [s.nextSessionId] := by
  unfold acceptNewClients
  rw [if_neg (by omega)]
  cases hbacklog : s.backlog with
  | zero => omega
  | succ backlog => exact List.map_append

/-- Only the operation that prunes takes a connection out of the list. -/
theorem mem_clientsStep {clients : List PlayerId} (hid : id ∈ clients) (x : Server × (NetEvent ⊕ ServerOp))
    (hstays : x.2 = .inr .pruneDisconnected →
      (x.1.findSession id).all (·.connection.detectPeerDisconnect.isOpen) = true) :
    id ∈ clientsStep config clients x := by
  unfold clientsStep
  split
  · exact List.mem_append_left _ hid
  · exact List.mem_filter.mpr ⟨hid, hstays rfl⟩
  · exact hid

theorem FindsAllOpen.stays {op : ServerOp} (hopen : FindsAllOpen s (.inr op)) (id : PlayerId)
    (hprune : (Sum.inr op : NetEvent ⊕ ServerOp) = .inr .pruneDisconnected) :
    (s.findSession id).all (·.connection.detectPeerDisconnect.isOpen) = true := by
  cases hprune
  cases hfind : s.findSession id with
  | none => rfl
  | some session => exact hopen session (findSession_some hfind).1

theorem SessionsListed.step {history : History} {op : ServerOp} (h : SessionsListed config s history)
    (hopen : FindsAllOpen s (.inr op)) (hstep : OpStep config s op t) :
    SessionsListed config t (history ++ [(s, .inr op)]) := by
  intro id hid
  rw [clientsAfter_concat]
  have hold : id ∈ sessionIds s → id ∈ clientsStep config (clientsAfter config history) (s, .inr op) :=
    fun hmem => mem_clientsStep (h id hmem) _ (hopen.stays id)
  rcases sessionIds_step hstep with ⟨rfl, hfree, hknocks, hids⟩ | ⟨x, -, -, hids⟩ | hids
  · rw [hids, List.mem_append] at hid
    rcases hid with hmem | hnew
    · exact hold hmem
    · change id ∈ clientsAfter config history ++ (sessionIds (s.acceptNewClients config)).drop s.sessions.length
      have hlength : s.sessions.length = (sessionIds s).length := (List.length_map _).symm
      rw [acceptNewClients_ids hfree hknocks, hlength, List.drop_left]
      exact List.mem_append_right _ hnew
  · rw [hids] at hid
    apply hold
    rw [sessionIds_eq]
    exact (List.filter_sublist.map _).subset hid
  · exact hold (hids ▸ hid)

/-- As long as pruning finds every connection open, every connection that is looked at is in the client list. -/
theorem connections_listed_of_run {users : UserRepository} {games : GameRepository} {now : Nat}
    {script : List (List NetEvent)} {w : ServerWorld config}
    (hleads : Leads { state := boot users games now, script } w)
    (hopen : ∀ x ∈ w.history, FindsAllOpen x.1 x.2) : LooksAtClients config w.history := by
  refine (invariant (P := fun s history => SessionsListed config s history ∧ LooksAtClients config history)
    (C := FindsAllOpen) ?_ ?_ ?_ hleads (.boot users games now) ⟨?_, ?_⟩ hopen).2.2
  · intro s s' history hbare h
    obtain ⟨hlisted, hlooks⟩ := h
    refine ⟨fun id hid => hlisted id ?_, hlooks⟩
    rw [sessionIds_eq, data_eq_of_bare hbare, ← sessionIds_eq] at hid
    exact hid
  · intro s history backlog now event h
    obtain ⟨hlisted, hlooks⟩ := h
    refine ⟨fun id hid => ?_, fun before s' op hpre => ?_⟩
    · rw [clientsAfter_concat]
      exact mem_clientsStep (hlisted id hid) _ (fun heq => by cases heq)
    · rcases List.prefix_concat_iff.mp hpre with heq | hpre
      · obtain ⟨-, hlast⟩ := List.append_inj' heq rfl
        cases hlast
      · exact hlooks before s' op hpre
  · intro s history op t _ h
    obtain ⟨hlisted, hlooks⟩ := h
    intro hopen hstep
    refine ⟨hlisted.step hopen hstep, fun before s' op' hpre => ?_⟩
    rcases List.prefix_concat_iff.mp hpre with heq | hpre
    · obtain ⟨rfl, hlast⟩ := List.append_inj' heq rfl
      cases hlast
      exact fun id => hlisted.consulted
    · exact hlooks before s' op' hpre
  · intro id hid
    cases hid
  · intro before s op hpre
    rw [List.prefix_nil] at hpre
    exact absurd hpre (List.append_ne_nil_of_right_ne_nil _ (List.cons_ne_nil _ _))

/-- Two clients log in and are matched, and nobody leaves. -/
theorem connections_listed_of_run_matched :
    ∃ w, Leads (sampleWorld untilGame) w ∧ clientsAfter sampleConfig w.history = [0, 1] ∧
      LooksAtClients sampleConfig w.history := by
  have hrun : (serve sampleConfig (List.replicate 4 .gameServerTick)).reaches (sampleWorld untilGame)
      (fun _ w => decide (clientsAfter sampleConfig w.history = [0, 1] ∧
        ∀ x ∈ w.history, FindsAllOpen x.1 x.2)) = true := by
    decide +kernel
  obtain ⟨_, w, hrun, hw⟩ := Prog.reaches_eq_true hrun
  obtain ⟨hclients, hopen⟩ := of_decide_eq_true hw
  exact ⟨w, Leads.of_run hrun, hclients, connections_listed_of_run (Leads.of_run hrun) hopen⟩

/-- A client connects and its link fails: `prune_sessions` asks the connection of its session whether it is open when
the connection is no longer in the list. -/
theorem not_connections_listed_after_failure :
    ∃ w, (serve sampleConfig [.gatewayTick]).run (sampleWorld [[.connect], [], [], [.setLink 0 .failed]]) = .ok ((), w) ∧
      ¬LooksAtClients sampleConfig w.history := by
  have hrun : (serve sampleConfig [.gatewayTick]).reaches (sampleWorld [[.connect], [], [], [.setLink 0 .failed]])
      (fun _ w => decide (∃ x ∈ w.history.getLast?, x.2 = .inr (.prune 0) ∧ 0 ∈ x.1.consulted (.prune 0) ∧
        0 ∉ clientsAfter sampleConfig w.history.dropLast)) = true := by
    decide +kernel
  obtain ⟨_, w, hrun, hw⟩ := Prog.reaches_eq_true hrun
  obtain ⟨⟨s, step⟩, hlast, rfl, hconsulted, hgone⟩ := of_decide_eq_true hw
  refine ⟨w, hrun, fun hlooks => hgone ?_⟩
  refine hlooks w.history.dropLast s (.prune 0) ?_ 0 hconsulted
  rw [List.dropLast_append_getLast? _ hlast]

end Server

end KungFuChess
