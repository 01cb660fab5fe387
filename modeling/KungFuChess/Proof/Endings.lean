import KungFuChess.Proof.Turns

/-!
# How a game ends

`GameResultHandler::finish` looks for the players of the room and does nothing if they are not there, and
it takes them out at the end. So a room is finished once, whatever the tick finds in it: a player who has
gone, a king that falls, one or two who resign. That the game of the room is closed in the database
is another matter: it depends on there being a winner, and on both players having a profile.
-/

namespace KungFuChess

open Machine

namespace Server

variable {config : ServerConfig} {s s' t : Server} {roomId : RoomId}

/-! ### A room that is over -/

/-- A finish of the room that passes its guard. -/
def EndsRoom (roomId : RoomId) (x : Server × (NetEvent ⊕ ServerOp)) : Prop :=
  ∃ winner reason, x.2 = .inr (.finish roomId winner reason) ∧ ∃ room white black, Ends x.1 roomId room white black

/-- Nobody is left in the room, and its match is a new one. -/
def Cleared (roomId : RoomId) (s : Server) : Prop :=
  ∀ room ∈ s.rooms.rooms, room.id = roomId → room.active = false ∧ room.whitePlayer = none ∧
    room.blackPlayer = none ∧ room.dbGameId = none ∧ room.game = Match.new room.defaultBoard

/-- Rooms are played in while they are active. -/
def Orderly (s : Server) : NetEvent ⊕ ServerOp → Prop
  | .inr (.tickRoom roomId _) | .inr (.playRoomInputs roomId) => ∀ room ∈ s.rooms.findRoom roomId, room.active = true
  | _ => True

theorem Cleared.not_endsRoom (h : Cleared roomId s) (op : NetEvent ⊕ ServerOp) : ¬EndsRoom roomId (s, op) := by
  intro h
  obtain ⟨winner, reason, -, room, white, black, hends⟩ := h
  obtain ⟨hroom, hid⟩ := findRoom_some hends.find
  obtain ⟨-, hwhite, -⟩ := h room hroom hid
  rw [hends.white] at hwhite
  cases hwhite

/-- A room that is over stays as it is. -/
theorem Cleared.step (h : Cleared roomId s) (hold : roomId < s.rooms.nextId) (hwf : Wf s) {op : ServerOp}
    (horderly : Orderly s (.inr op)) (hstep : OpStep config s op t) :
    Cleared roomId t ∧ roomId < t.rooms.nextId := by
  have hnew : ∀ room : Room, room.id = s.rooms.nextId → ∀ other ∈ s.rooms.rooms ++ [room], other.id = roomId →
      other ∈ s.rooms.rooms := by
    intro room hid other hother heq
    rcases List.mem_append.mp hother with hother | hother
    · exact hother
    · rw [List.mem_singleton.mp hother, hid] at heq
      exact absurd heq hold.ne'
  have hplayed : ∀ played game, (∀ room ∈ s.rooms.findRoom played, room.active = true) →
      ∀ room ∈ (s.rooms.modifyRoom played ({ · with game })).rooms, room.id = roomId → room ∈ s.rooms.rooms := by
    intro played game hactive room hroom hid
    obtain ⟨old, hmem, rfl⟩ := mem_modifyRoom hroom
    split at hid
    · rename_i heq
      subst heq
      have hclosed := (h old hmem hid).1
      rw [hactive old (hwf.findRoom hmem)] at hclosed
      cases hclosed
    · rename_i hne
      rw [if_neg hne]
      exact hmem
  cases hstep with
  | idle _ => exact ⟨h, hold⟩
  | accept backlog _ _ => exact ⟨h, hold⟩
  | lobby hlobby =>
      cases hlobby with
      | idle => exact ⟨h, hold⟩
      | login _ _ _ _ _ _ _ _ =>
          rw [loggedIn, registerSession_eq]
          exact ⟨h, hold⟩
      | wait _ _ => exact ⟨h, hold⟩
      | pair _ _ _ _ _ _ _ _ =>
          exact ⟨fun room hroom hid => h room (hnew _ rfl room hroom hid) hid, Nat.lt_succ_of_lt hold⟩
  | timeouts => exact ⟨h, hold⟩
  | prune _ => exact ⟨h, hold⟩
  | join _ => exact ⟨h, hold⟩
  | allocate _ _ => exact ⟨fun room hroom hid => h room (hnew _ rfl room hroom hid) hid, Nat.lt_succ_of_lt hold⟩
  | tick _ _ => exact ⟨fun room hroom hid => h room (hplayed _ _ horderly room hroom hid) hid, hold⟩
  | inputs _ _ => exact ⟨fun room hroom hid => h room (hplayed _ _ horderly room hroom hid) hid, hold⟩
  | finish _ _ =>
      refine ⟨?_, hold⟩
      intro room hroom hid
      obtain ⟨old, hmem, rfl⟩ := mem_modifyRoom hroom
      split at hid
      · rename_i heq
        rw [if_pos heq]
        exact ⟨rfl, rfl, rfl, rfl, rfl⟩
      · rename_i hne
        rw [if_neg hne]
        exact h old hmem hid
  | removeInactive => exact ⟨fun room hroom => h room (List.mem_of_mem_filter hroom), hold⟩

/-- A finish that passes its guard clears the room. -/
theorem cleared_of_endsRoom (hwf : Wf s) {op : ServerOp} (hends : EndsRoom roomId (s, .inr op))
    (hstep : OpStep config s op t) : Cleared roomId t ∧ roomId < t.rooms.nextId := by
  obtain ⟨winner, reason, hop, room, white, black, hends⟩ := hends
  cases hop
  obtain ⟨hroom, hid⟩ := findRoom_some hends.find
  have hold : roomId < s.rooms.nextId := hwf.oldRooms roomId (List.mem_map.mpr ⟨room, hroom, hid⟩)
  cases hstep with
  | idle hquiet => exact absurd hends (hquiet roomId winner reason rfl room white black)
  | finish _ _ =>
      refine ⟨?_, hold⟩
      intro other hother hid
      obtain ⟨old, hmem, rfl⟩ := mem_modifyRoom hother
      split at hid
      · rename_i heq
        rw [if_pos heq]
        exact ⟨rfl, rfl, rfl, rfl, rfl⟩
      · rename_i hne
        exact absurd hid hne

/-! ### What a finish does to the outside -/

/-- Ratings, the database game and the notification of the players. -/
def isResult : JournalEntry → Bool
  | .ratingUpdated .. | .gameFinished .. | .gameFinishedWithoutWinner .. | .finishNotified .. => true
  | .matched .. | .roomCreated .. => false

/-- The results that a step of a run records. -/
def resultsOf (config : ServerConfig) : Server × (NetEvent ⊕ ServerOp) → List JournalEntry
  | (s, .inr (.finish roomId winner reason)) =>
      match s.rooms.findRoom roomId with
      | some room =>
          match room.whitePlayer, room.blackPlayer with
          | some white, some black => resultEntries config s room white black winner reason
          | _, _ => []
      | none => []
  | _ => []

/-- The results of a game: none, or a game without a winner, or two ratings, a winner and a message. -/
inductive OneResult : List JournalEntry → Prop where
  | none : OneResult []
  | noWinner (gameId : Int) : OneResult [.gameFinishedWithoutWinner gameId]
  | winner (winner loser : UserId) (change : RatingChange) (gameId : Int) (white black : PlayerId)
      (color : PieceColor) (reason : FinishReason) :
      OneResult [.ratingUpdated winner change.winnerNewRating, .ratingUpdated loser change.loserNewRating,
        .gameFinished gameId (intOfUserId winner), .finishNotified white black color reason]

theorem oneResult_resultEntries (config : ServerConfig) (s : Server) (room : Room) (white black : GamePlayer)
    (winner : Option PieceColor) (reason : FinishReason) :
    OneResult (resultEntries config s room white black winner reason) := by
  unfold resultEntries
  cases room.dbGameId with
  | none => exact .none
  | some gameId =>
      match winner with
      | none =>
          dsimp only
          split
          · exact .noWinner gameId
          · exact .none
      | some .white =>
          dsimp only
          split
          · exact .winner ..
          · exact .none
      | some .black =>
          dsimp only
          split
          · exact .winner ..
          · exact .none

theorem OneResult.filter_isResult {entries : List JournalEntry} (h : OneResult entries) :
    entries.filter isResult = entries := by
  cases h with
  | none => rfl
  | noWinner => rfl
  | winner => rfl

theorem OneResult.roomCreated_notMem {entries : List JournalEntry} (h : OneResult entries) (roomId : RoomId)
    (time : Nat) : .roomCreated roomId time ∉ entries := by
  cases h with
  | none => simp
  | noWinner => simp
  | winner => simp

theorem resultsOf_finish {winner : Option PieceColor} {reason : FinishReason} {room : Room} {white black : GamePlayer}
    (hends : Ends s roomId room white black) :
    resultsOf config (s, .inr (.finish roomId winner reason)) =
      resultEntries config s room white black winner reason := by
  unfold resultsOf
  simp [hends.find, hends.white, hends.black]

theorem resultsOf_eq_nil {x : Server × (NetEvent ⊕ ServerOp)} (h : ∀ roomId, ¬EndsRoom roomId x) :
    resultsOf config x = [] := by
  unfold resultsOf
  split
  · rename_i s roomId winner reason
    split
    · rename_i room hroom
      split
      · rename_i white black hwhite hblack
        exact absurd ⟨winner, reason, rfl, room, white, black, hroom, hwhite, hblack⟩ (h roomId)
      · rfl
    · rfl
  · rfl

theorem oneResult_resultsOf (config : ServerConfig) (x : Server × (NetEvent ⊕ ServerOp)) :
    OneResult (resultsOf config x) := by
  by_cases hends : ∃ roomId, EndsRoom roomId x
  · obtain ⟨s, op⟩ := x
    obtain ⟨roomId, winner, reason, rfl, room, white, black, hends⟩ := hends
    rw [resultsOf_finish hends]
    exact oneResult_resultEntries ..
  · rw [resultsOf_eq_nil (not_exists.mp hends)]
    exact .none

/-- Nothing but a finish records a result. -/
theorem journal_step {op : ServerOp} (hstep : OpStep config s op t) :
    t.journal.filter isResult = s.journal.filter isResult ++ resultsOf config (s, .inr op) := by
  have hother : ∀ entries, t.journal = s.journal ++ entries → (∀ roomId winner reason, op ≠ .finish roomId winner reason) →
      entries.filter isResult = [] →
      t.journal.filter isResult = s.journal.filter isResult ++ resultsOf config (s, .inr op) := by
    intro entries hjournal hop hnone
    rw [hjournal, List.filter_append, hnone, resultsOf_eq_nil]
    intro roomId h
    obtain ⟨winner, reason, hfinish, -⟩ := h
    exact hop roomId winner reason (Sum.inr.inj hfinish)
  cases hstep with
  | idle hquiet =>
      rw [resultsOf_eq_nil, List.append_nil]
      intro roomId h
      obtain ⟨winner, reason, hfinish, room, white, black, hends⟩ := h
      exact hquiet roomId winner reason (Sum.inr.inj hfinish) room white black hends
  | finish hends _ =>
      rw [resultsOf_finish hends]
      refine (List.filter_append _ _).trans ?_
      rw [(oneResult_resultEntries ..).filter_isResult]
  | lobby hlobby =>
      cases hlobby with
      | idle => exact hother [] (List.append_nil _).symm (by simp) rfl
      | login _ _ _ _ _ _ _ _ =>
          refine hother [] ?_ (by simp) rfl
          rw [loggedIn, registerSession_eq]
          exact (List.append_nil _).symm
      | wait _ _ => exact hother [] (List.append_nil _).symm (by simp) rfl
      | pair _ _ _ _ _ _ _ _ => exact hother _ (List.append_assoc _ _ _) (by simp) rfl
  | allocate _ _ => exact hother _ rfl (by simp) rfl
  | accept _ _ _ => exact hother [] (List.append_nil _).symm (by simp) rfl
  | timeouts => exact hother [] (List.append_nil _).symm (by simp) rfl
  | prune _ => exact hother [] (List.append_nil _).symm (by simp) rfl
  | join _ => exact hother [] (List.append_nil _).symm (by simp) rfl
  | tick _ _ => exact hother [] (List.append_nil _).symm (by simp) rfl
  | inputs _ _ => exact hother [] (List.append_nil _).symm (by simp) rfl
  | removeInactive => exact hother [] (List.append_nil _).symm (by simp) rfl

/-! ### Ticks are orderly -/

section Orderly

variable {C : Server → NetEvent ⊕ ServerOp → Prop}

theorem stable_wf : Stable C Wf := fun _ event h _ => h.occur event

theorem keeps_wf {op : ServerOp} (hop : ∀ s, Wf s → Orderly s (.inr op)) : Keeps config C Orderly Wf op :=
  fun s h => ⟨hop s h, fun _ _ _ happly => h.apply happly⟩

theorem finish_orderly (winner : Option PieceColor) (reason : FinishReason) (h : Wf s) :
    (perform config (.finish roomId winner reason)).wp C Orderly (fun _ s' => Wf s') s :=
  perform_wp stable_wf (keeps_wf fun _ _ => trivial) h

/-- An operation on a room that is active. -/
theorem perform_active {op : ServerOp}
    (hop : ∀ s, (∀ room ∈ s.rooms.findRoom roomId, room.active = true) → Orderly s (.inr op))
    {room : Room} (hroom : s.rooms.findRoom roomId = some room) (hactive : room.active = true) (h : Wf s) :
    (perform config op).wp C Orderly (fun _ s' => Wf s') s := by
  refine perform_wp (I := fun s => Wf s ∧ ∀ room ∈ s.rooms.findRoom roomId, room.active = true) ?_ ?_ ⟨h, ?_⟩
  · rintro s event ⟨h, hactive⟩ -
    exact ⟨h.occur event, by rw [occur_rooms]; exact hactive⟩
  · intro s h
    obtain ⟨h, hactive⟩ := h
    exact ⟨hop s hactive, fun _ _ _ happly => h.apply happly⟩
  · rw [hroom]
    intro _ h
    obtain ⟨⟩ := h
    exact hactive

theorem playInputs_orderly (h : Wf s) : (playInputs config roomId).wp C Orderly (fun _ s' => Wf s') s := by
  refine playInputs_wp h fun room hroom hactive => ?_
  refine Prog.wp_mono (perform_active (fun _ hactive => hactive) hroom hactive h) fun winner s h => ?_
  exact ⟨h, fun color _ => finish_orderly (some color) .resign h⟩

theorem playRoom_orderly {room : Room} (h : Wf s) (hroom : s.rooms.findRoom room.id = some room)
    (hactive : room.active = true) (elapsed : Int) :
    (playRoom config room elapsed).wp C Orderly (fun _ s' => Wf s') s :=
  playRoom_wp h (fun _ => perform_active (fun _ hactive => hactive) hroom hactive h) (fun _ h => playInputs_orderly h)
    (fun _ h => finishIfOver_wp h fun _ _ _ => finish_orderly _ .kingCapture h)

theorem processRoom_orderly (elapsed : Int) (h : Wf s) :
    (processRoom config elapsed roomId).wp C Orderly (fun _ s' => Wf s') s := by
  refine processRoom_wp (J := Wf) (P := Wf) stable_wf (fun _ h => h) ?_
    (fun _ _ _ h _ => finish_orderly none .disconnect h) (fun _ _ _ _ h _ => finish_orderly _ .disconnect h) ?_ h
  · exact fun s h => ⟨trivial, fun _ => h.congr (probeRoom_bare s roomId)⟩
  · intro s room hroom hplayers h
    obtain ⟨hmem, rfl⟩ := findRoom_some hroom
    obtain ⟨white, hwhite⟩ := Option.isSome_iff_exists.mp hplayers
    exact playRoom_orderly h hroom (h.manned room hmem .white white hwhite) elapsed

theorem runtimeTick_orderly (managesConnections : Bool) (h : Wf s) :
    (runtimeTick config managesConnections).wp C Orderly (fun _ s' => Wf s') s :=
  runtimeTick_wp (J := fun _ _ => Wf) stable_wf (fun _ => keeps_wf fun _ _ => trivial)
    (fun _ => keeps_wf fun _ _ => trivial) (fun _ h => ⟨trivial, fun _ => h⟩)
    (fun elapsed _ _ _ h => processRoom_orderly elapsed h) (fun _ _ h => h) (keeps_wf fun _ _ => trivial)
    (fun _ => keeps_wf fun _ _ => trivial) (fun _ _ => keeps_wf fun _ _ => trivial) h

theorem gatewayTick_orderly (h : Wf s) : (gatewayTick config).wp C Orderly (fun _ s' => Wf s') s :=
  gatewayTick_wp stable_wf (keeps_wf fun _ _ => trivial) (fun _ => keeps_wf fun _ _ => trivial)
    (keeps_wf fun _ _ => trivial) (keeps_wf fun _ _ => trivial) (fun _ => keeps_wf fun _ _ => trivial) h

theorem serve_orderly (calls : List ServerCall) (h : Wf s) :
    (serve config calls).wp C Orderly (fun _ s' => Wf s') s :=
  serve_wp stable_wf (fun _ h => gatewayTick_orderly h)
    (fun managesConnections _ h => runtimeTick_orderly managesConnections h)
    (fun _ => keeps_wf fun _ _ => trivial) (fun _ _ _ => keeps_wf fun _ _ => trivial) calls h

end Orderly

/-- What a run keeps about a room that it finishes. -/
structure FinishedOnce (config : ServerConfig) (roomId : RoomId) (s : Server) (history : History) : Prop where
  cleared : history.Pairwise fun x y => EndsRoom roomId x → Cleared roomId y.1
  now : ∀ x ∈ history, EndsRoom roomId x → Cleared roomId s ∧ roomId < s.rooms.nextId
  results : s.journal.filter isResult = history.flatMap (resultsOf config)

theorem FinishedOnce.congr {history : History} (h : FinishedOnce config roomId s history) (hrooms : t.rooms = s.rooms)
    (hjournal : t.journal = s.journal) : FinishedOnce config roomId t history := by
  refine ⟨h.cleared, ?_, by rw [hjournal]; exact h.results⟩
  unfold Cleared
  rw [hrooms]
  exact h.now

/-- The state that a step meets comes after all that is in the history. -/
theorem FinishedOnce.pairwise_append {history : History} (h : FinishedOnce config roomId s history)
    (x : NetEvent ⊕ ServerOp) :
    (history ++ [(s, x)]).Pairwise fun x y => EndsRoom roomId x → Cleared roomId y.1 := by
  rw [List.pairwise_append]
  refine ⟨h.cleared, List.pairwise_singleton _ _, ?_⟩
  intro y hy z hz hends
  rw [List.mem_singleton.mp hz]
  exact (h.now y hy hends).1

theorem FinishedOnce.step {history : History} (h : FinishedOnce config roomId s history) (hwf : Wf s) {op : ServerOp}
    (horderly : Orderly s (.inr op)) (hstep : OpStep config s op t) :
    FinishedOnce config roomId t (history ++ [(s, .inr op)]) := by
  refine ⟨h.pairwise_append _, ?_, ?_⟩
  · intro x hx hends
    rcases List.mem_append.mp hx with hx | hx
    · obtain ⟨hcleared, hold⟩ := h.now x hx hends
      exact hcleared.step hold hwf horderly hstep
    · rw [List.mem_singleton.mp hx] at hends
      exact cleared_of_endsRoom hwf hends hstep
  · rw [journal_step hstep, h.results, List.flatMap_append, List.flatMap_singleton]

/-- In every run of the ticks, a room is finished once: a finish that passes the guard finds the room with its
players, and every state after it has the room without players, without a database game and with a new
match, if it has it at all. Ratings, database games and notifications are those of the finishes, and each
finish makes at most one result. -/
theorem room_finished_once {calls : List ServerCall} {users : UserRepository} {games : GameRepository} {now : Nat}
    {script : List (List NetEvent)} {w : ServerWorld config}
    (hrun : (serve config calls).run { state := boot users games now, script } = .ok ((), w)) :
    (∀ roomId, w.history.Pairwise fun x y => EndsRoom roomId x → ¬EndsRoom roomId y ∧ Cleared roomId y.1) ∧
    (∀ roomId, ∀ x ∈ w.history, EndsRoom roomId x → Cleared roomId w.state) ∧
    w.state.journal.filter isResult = w.history.flatMap (resultsOf config) ∧
    ∀ x ∈ w.history, OneResult (resultsOf config x) ∧
      (resultsOf config x ≠ [] → ∃ roomId, EndsRoom roomId x) := by
  obtain ⟨-, hhistory⟩ := Prog.run_of_wp (C := fun _ _ => True)
    (serve_orderly calls (.boot users games now)) hrun fun _ _ => trivial
  have horderly : ∀ x ∈ w.history, Orderly x.1 x.2 := by
    intro x hx
    rcases hhistory x hx with hx | ⟨event, hevent⟩ | horderly
    · cases hx
    · rw [hevent]
      trivial
    · exact horderly
  have honce : ∀ roomId, FinishedOnce config roomId w.state w.history := by
    intro roomId
    refine (invariant (C := Orderly) ?_ ?_ ?_ (Leads.of_run hrun) (.boot users games now)
      ⟨List.Pairwise.nil, by simp, rfl⟩ horderly).2
    · intro s s' history hbare h
      have hrest := eq_of_bare hbare
      exact h.congr (by rw [hrest]) (by rw [hrest])
    · intro s history backlog now event h
      refine ⟨h.pairwise_append _, ?_, ?_⟩
      · intro x hx hends
        rcases List.mem_append.mp hx with hx | hx
        · exact h.now x hx hends
        · rw [List.mem_singleton.mp hx] at hends
          obtain ⟨_, _, hop, _⟩ := hends
          cases hop
      · rw [List.flatMap_append, ← h.results]
        exact (List.append_nil _).symm
    · intro s history op t hs h horderly hstep
      exact h.step hs horderly hstep
  refine ⟨?_, fun roomId x hx hends => ((honce roomId).now x hx hends).1, (honce 0).results, ?_⟩
  · intro roomId
    refine (honce roomId).cleared.imp ?_
    intro x y hcleared hends
    exact ⟨(hcleared hends).not_endsRoom y.2, hcleared hends⟩
  · intro x _
    refine ⟨oneResult_resultsOf config x, ?_⟩
    intro hresults
    by_contra hnone
    exact hresults (resultsOf_eq_nil (not_exists.mp hnone))

/-- Both players resign in one tick. -/
theorem room_finished_once_both_resign :
    ∃ w, (serve sampleConfig (List.replicate 5 .gameServerTick)).run
        (sampleWorld (untilGame ++ [[say 0 "resign", say 1 "resign"]])) = .ok ((), w) ∧
      (w.state.journal.filter isResult).length = 4 ∧
      w.history.Pairwise fun x y => EndsRoom 1 x → ¬EndsRoom 1 y ∧ Cleared 1 y.1 := by
  have hrun : (serve sampleConfig (List.replicate 5 .gameServerTick)).reaches
      (sampleWorld (untilGame ++ [[say 0 "resign", say 1 "resign"]]))
      (fun _ w => decide ((w.state.journal.filter isResult).length = 4)) = true := by
    decide +kernel
  obtain ⟨_, w, hrun, hw⟩ := Prog.reaches_eq_true hrun
  exact ⟨w, hrun, of_decide_eq_true hw, (room_finished_once hrun).1 1⟩

/-! ### Whether the database game is closed -/

/-- `finish_game` or `finish_game_without_winner` for a game. -/
def closes (gameId : Int) : JournalEntry → Bool
  | .gameFinished id _ | .gameFinishedWithoutWinner id => id == gameId
  | _ => false

/-- There is a winner and both players have a profile, or there is none because both have gone. -/
def Recordable (s : Server) (white black : GamePlayer) (winner : Option PieceColor) (reason : FinishReason) : Prop :=
  match winner with
  | some _ => (s.users.findProfileById white.userId).isSome ∧ (s.users.findProfileById black.userId).isSome
  | none => reason = .disconnect

theorem countP_closes_resultEntries {room : Room} {gameId : Int} (hgame : room.dbGameId = some gameId)
    (white black : GamePlayer) (winner : Option PieceColor) (reason : FinishReason) :
    (resultEntries config s room white black winner reason).countP (closes gameId) = 1 ↔
      Recordable s white black winner reason := by
  unfold resultEntries Recordable
  rw [hgame]
  match winner with
  | none =>
      dsimp only
      split
      · simp [closes, *]
      · simp [*]
  | some .white =>
      dsimp only
      cases s.users.findProfileById white.userId with
      | none => simp
      | some whiteProfile => cases s.users.findProfileById black.userId <;> simp [closes]
  | some .black =>
      dsimp only
      cases s.users.findProfileById white.userId with
      | none => cases s.users.findProfileById black.userId <;> simp
      | some whiteProfile => cases s.users.findProfileById black.userId <;> simp [closes]

/-- A finish goes as far as the ratings and the notification, and then clears the room. -/
theorem finish_eq {room : Room} {white black : GamePlayer} (hends : Ends s roomId room white black)
    (winner : Option PieceColor) (reason : FinishReason) :
    s.finish config roomId winner reason =
      (recordAndNotify config s room white black winner reason).cleanupFinishedRoom roomId white black := by
  unfold finish
  rw [hends.find]
  simp only [hends.white, hends.black]
  rfl

/-- A room with a database game is finished, in any way: before the room is cleared the game is closed exactly
once, if and only if the result can be recorded, and after that no game is closed. -/
theorem finish_closes_game_iff {room : Room} {white black : GamePlayer} {gameId : Int}
    (hends : Ends s roomId room white black) (hgame : room.dbGameId = some gameId) (winner : Option PieceColor)
    (reason : FinishReason) :
    s.finish config roomId winner reason =
      (recordAndNotify config s room white black winner reason).cleanupFinishedRoom roomId white black ∧
    (((recordAndNotify config s room white black winner reason).journal.drop s.journal.length).countP
      (closes gameId) = 1 ↔ Recordable s white black winner reason) ∧
    ∀ s', s.finish config roomId winner reason = .ok s' →
      s'.journal = (recordAndNotify config s room white black winner reason).journal := by
  have hfinish : s.finish config roomId winner reason = _ := finish_eq hends winner reason
  have hjournal : (recordAndNotify config s room white black winner reason).journal =
      s.journal ++ resultEntries config s room white black winner reason := by
    rw [eq_of_bare (recordAndNotify_bare config s room white black winner reason)]
  refine ⟨hfinish, ?_, ?_⟩
  · rw [hjournal, List.drop_left, countP_closes_resultEntries hgame]
  · intro s' hs'
    rw [hfinish] at hs'
    obtain ⟨online, hbare, -⟩ := cleanupFinishedRoom_ok hs'
    rw [eq_of_bare hbare]
    rfl

/-- Bob resigns, and both players have a profile. -/
theorem finish_closes_game_iff_resigned :
    ∃ (s : Server) (room : Room) (white black : GamePlayer), Ends s 1 room white black ∧ room.dbGameId = some 1 ∧
      ((recordAndNotify sampleConfig s room white black (some .white) .resign).journal.drop s.journal.length).countP
        (closes 1) = 1 := by
  have hrun : (serve sampleConfig (List.replicate 4 .gameServerTick)).reaches (sampleWorld untilGame)
      (fun _ w => (w.state.rooms.findRoom 1).any fun room =>
        decide (room.whitePlayer = some ⟨1, .white, 0⟩ ∧ room.blackPlayer = some ⟨2, .black, 1⟩ ∧
          room.dbGameId = some 1 ∧ (w.state.users.findProfileById 1).isSome ∧
          (w.state.users.findProfileById 2).isSome)) = true := by
    decide +kernel
  obtain ⟨_, w, -, hw⟩ := Prog.reaches_eq_true hrun
  cases hfind : w.state.rooms.findRoom 1 with
  | none =>
      rw [hfind] at hw
      cases hw
  | some room =>
      rw [hfind] at hw
      obtain ⟨hwhite, hblack, hgame, hprofiles⟩ := of_decide_eq_true hw
      exact ⟨w.state, room, _, _, ⟨hfind, hwhite, hblack⟩, hgame,
        (finish_closes_game_iff ⟨hfind, hwhite, hblack⟩ hgame (some .white) .resign).2.1.mpr hprofiles⟩

/-- Ann's king is moving when her rook takes the king of bob: nobody has won, and the game stays open in the
database. -/
theorem not_closed_after_king_capture :
    ∃ w, (serve sampleConfig (List.replicate 9 .gameServerTick)).run
        (sampleWorld (untilGame ++ [[say 0 "select 0 0"]] ++ quiet 12 ++ [[say 0 "move 0 2"]] ++ quiet 12 ++
          [[.pass 500000000, say 0 "select 1 0"]] ++ quiet 13 ++ [[say 0 "move 1 1"]] ++ quiet 12 ++
          [[.pass 500000000]])) = .ok ((), w) ∧
      (∃ x ∈ w.history, x.2 = .inr (.finish 1 none .kingCapture) ∧
        ∃ room ∈ x.1.rooms.findRoom 1, room.active = true ∧ room.dbGameId = some 1) ∧
      w.state.rooms.rooms.length = 0 ∧ w.state.journal.countP (closes 1) = 0 := by
  have hrun : (serve sampleConfig (List.replicate 9 .gameServerTick)).reaches
      (sampleWorld (untilGame ++ [[say 0 "select 0 0"]] ++ quiet 12 ++ [[say 0 "move 0 2"]] ++ quiet 12 ++
        [[.pass 500000000, say 0 "select 1 0"]] ++ quiet 13 ++ [[say 0 "move 1 1"]] ++ quiet 12 ++
        [[.pass 500000000]]))
      (fun _ w => decide ((∃ x ∈ w.history, x.2 = .inr (.finish 1 none .kingCapture) ∧
        ∃ room ∈ x.1.rooms.findRoom 1, room.active = true ∧ room.dbGameId = some 1) ∧
        w.state.rooms.rooms.length = 0 ∧ w.state.journal.countP (closes 1) = 0)) = true := by
    decide +kernel
  obtain ⟨_, w, hrun, hw⟩ := Prog.reaches_eq_true hrun
  exact ⟨w, hrun, of_decide_eq_true hw⟩

end Server

end KungFuChess
