import KungFuChess.Proof.Runs

/-!
# The session registry

`SessionRegistry` is a set of names that is kept beside the sessions. It is read when a client logs in,
and that is all that keeps a user from having two sessions. It is right as long as two things do not
happen. A game that ends takes the names of its players out of it, and a player who is still there keeps
the session and loses the name. And a name with a NUL in it is looked up whole, while the database knows
it up to the NUL.
-/

namespace KungFuChess

open Machine

namespace Server

variable {config : ServerConfig} {s s' t : Server} {id : PlayerId} {roomId : RoomId}

/-- The names of the users of the sessions. -/
def usernames (s : Server) : List Text := s.data.filterMap (·.username)

/-- The registry holds the names of the users, and no user has two sessions. -/
structure Registered (s : Server) : Prop where
  exact : ∀ username, username ∈ s.onlineUsernames ↔ username ∈ s.usernames
  distinct : s.usernames.Nodup

/-! ### When the registry is right -/

/-- The login that the lobby is about to read from a session without a user. -/
def nextLogin (s : Server) (id : PlayerId) : Option LoginRequest := do
  let session ← s.findSession id
  guard (session.state = .connected ∧ session.user = none)
  parseLoginMessage (← (s.tryRead .lobby id).1)

/-- The row that lets a login through. -/
def acceptingRow (config : ServerConfig) (s : Server) (request : LoginRequest) : Option UserRow := do
  guard (request.username ∉ s.onlineUsernames ∧ request.password ≠ [])
  let row ← s.users.findCredentialsByUsername request.username
  guard (row.passwordHash ≠ [] ∧ config.hasher.verifyPassword request.password row.passwordHash)
  return row

/-- A step that the registry follows. A login that a row lets through is under a name that nobody has
taken, and when a game ends both players have left. -/
def KeepsRegistry (config : ServerConfig) (s : Server) : NetEvent ⊕ ServerOp → Prop
  | .inr (.lobby id) => ∀ request ∈ s.nextLogin id, ∀ row ∈ acceptingRow config s request,
      row.username ≠ [] ∧ row.username ∉ s.onlineUsernames
  | .inr (.finish roomId _ _) => ∀ room ∈ s.rooms.findRoom roomId, ∀ white ∈ room.whitePlayer,
      ∀ black ∈ room.blackPlayer, s.findSession white.playerId = none ∧ s.findSession black.playerId = none
  | _ => True

instance (config : ServerConfig) (s : Server) : (x : NetEvent ⊕ ServerOp) → Decidable (KeepsRegistry config s x)
  | .inr (.lobby id) =>
      inferInstanceAs (Decidable (∀ request ∈ s.nextLogin id, ∀ row ∈ acceptingRow config s request, _ ∧ _))
  | .inr (.finish roomId _ _) =>
      inferInstanceAs (Decidable (∀ room ∈ s.rooms.findRoom roomId, ∀ white ∈ room.whitePlayer,
        ∀ black ∈ room.blackPlayer, _ ∧ _))
  | .inl _ | .inr .acceptNewClients | .inr .processTimeouts | .inr .pruneDisconnected | .inr (.prune _)
  | .inr (.join _) | .inr (.allocate _) | .inr .readClock | .inr (.probeRoom _) | .inr (.tickRoom _ _)
  | .inr (.playRoomInputs _) | .inr .removeInactiveRooms => isTrue trivial

/-! ### Names -/

theorem usernames_map {f : SessionData → SessionData} (hdata : s'.data = s.data.map f)
    (huser : ∀ x ∈ s.data, (f x).user = x.user) : s'.usernames = s.usernames := by
  unfold usernames
  rw [hdata, List.filterMap_map]
  apply List.filterMap_congr
  intro x hx
  rw [Function.comp_apply, SessionData.username, huser x hx, SessionData.username]

/-- A player who logs in has the name of the row, or the name asked for if there was no row. -/
theorem authenticate_ok {hasher : PasswordHasher} {users users' : UserRepository} {request : LoginRequest}
    {player : Player} (h : authenticate hasher users request = (.ok player, users')) :
    request.username ≠ [] ∧ request.password ≠ [] ∧
      ((∃ row, users.findCredentialsByUsername request.username = some row ∧ row.passwordHash ≠ [] ∧
          hasher.verifyPassword request.password row.passwordHash = true ∧ player.username = row.username) ∨
        player.username = request.username) := by
  unfold authenticate at h
  split at h
  · cases h
  · rename_i hname
    split at h
    · cases h
    · rename_i hpassword
      refine ⟨by simpa using hname, by simpa using hpassword, ?_⟩
      split at h
      · rename_i row hrow
        left
        split at h
        · cases h
        · rename_i hhash
          split at h
          · cases h
          · rename_i hverified
            cases h
            exact ⟨row, hrow, by simpa using hhash, by simpa using hverified, rfl⟩
      · right
        split at h
        · rename_i created users'' hcreated
          cases h
          unfold UserRepository.createUserWithPassword at hcreated
          split at hcreated
          · cases hcreated
          · split at hcreated
            · cases hcreated
            · cases hcreated
              rfl
        · split at h
          · cases h
          · cases h

namespace Wf

/-- One session among all of them. -/
theorem split (h : Wf s) {x : SessionData} (hx : x ∈ s.data) :
    ∃ before after, s.data = before ++ x :: after ∧ ∀ y ∈ before ++ after, y.id ≠ x.id := by
  obtain ⟨before, after, hdata⟩ := List.append_of_mem hx
  refine ⟨before, after, hdata, ?_⟩
  have hnodup := h.sessions
  rw [sessionIds_eq, hdata, List.map_append, List.map_cons, List.nodup_middle, List.nodup_cons,
    ← List.map_append] at hnodup
  intro y hy hid
  exact hnodup.1 (List.mem_map.mpr ⟨y, hy, hid⟩)

end Wf

namespace Registered

theorem congr (h : Registered s) (honline : s'.onlineUsernames = s.onlineUsernames)
    (hnames : s'.usernames = s.usernames) : Registered s' :=
  ⟨by rw [honline, hnames]; exact h.exact, by rw [hnames]; exact h.distinct⟩

theorem loggedIn (h : Registered s) (hwf : Wf s) {x : SessionData} (hx : x ∈ s.data) (huser : x.user = none)
    {player : Player} (users : UserRepository) (hname : player.username ≠ [])
    (hoffline : player.username ∉ s.onlineUsernames) : Registered (s.loggedIn x.id player users) := by
  obtain ⟨before, after, hdata, hothers⟩ := hwf.split hx
  have hsame : ∀ y ∈ before ++ after, (if y.id = x.id then
      y.assignUser (userIdOfInt player.id) player.username player.rating else y) = y := by
    intro y hy
    exact if_neg (hothers y hy)
  have hnames : s.usernames = (before ++ after).filterMap (·.username) := by
    rw [usernames, hdata, List.filterMap_append, List.filterMap_cons, SessionData.username, huser,
      List.filterMap_append]
    rfl
  have hafter : (s.loggedIn x.id player users).usernames.Perm (player.username :: s.usernames) := by
    rw [usernames, data_loggedIn, hdata, List.map_append, List.map_cons, if_pos rfl,
      List.map_congr_left (fun y hy => hsame y (List.mem_append_left _ hy)),
      List.map_congr_left (fun y hy => hsame y (List.mem_append_right _ hy)), List.map_id', List.map_id', hnames,
      List.filterMap_append, List.filterMap_append,
      List.filterMap_cons_some (SessionData.username_assignUser x (userIdOfInt player.id) _ _)]
    exact List.perm_middle
  have honline : (s.loggedIn x.id player users).onlineUsernames = insert player.username s.onlineUsernames := by
    rw [Server.loggedIn, registerSession_eq]
    apply if_neg
    rw [not_or]
    exact ⟨by simpa using hname, hoffline⟩
  refine ⟨?_, ?_⟩
  · intro username
    rw [honline, Finset.mem_insert, hafter.mem_iff, List.mem_cons, h.exact]
  · rw [hafter.nodup_iff, List.nodup_cons, ← h.exact]
    exact ⟨hoffline, h.distinct⟩

theorem pruned (h : Registered s) (hwf : Wf s) {x : SessionData} (hx : x ∈ s.data) : Registered (s.pruned x) := by
  obtain ⟨before, after, hdata, hothers⟩ := hwf.split hx
  have hrest : (s.pruned x).data = before ++ after := by
    rw [data_pruned, hdata, List.filter_append, List.filter_cons_of_neg (by simp), ← List.filter_append]
    apply List.filter_eq_self.mpr
    intro y hy
    simpa using hothers y hy
  have hnames : s.usernames.Perm (x.username.toList ++ (s.pruned x).usernames) := by
    rw [usernames, usernames, hrest, hdata, List.filterMap_append, List.filterMap_append]
    cases huser : x.username with
    | none =>
        rw [List.filterMap_cons_none huser]
        exact List.Perm.refl _
    | some username =>
        rw [List.filterMap_cons_some huser]
        exact List.perm_middle
  have hdistinct := hnames.nodup_iff.mp h.distinct
  refine ⟨?_, (List.nodup_append.mp hdistinct).2.1⟩
  intro name
  have hexact := (h.exact name).trans hnames.mem_iff
  cases huser : x.username with
  | none =>
      have honline : (s.pruned x).onlineUsernames = s.onlineUsernames := by
        rw [Server.pruned, huser]
      rw [honline, hexact, huser]
      rfl
  | some username =>
      have honline : (s.pruned x).onlineUsernames = s.onlineUsernames.erase username := by
        rw [Server.pruned, huser]
      rw [huser] at hexact hdistinct
      rw [honline, Finset.mem_erase, hexact, Option.toList_some, List.singleton_append, List.mem_cons]
      rw [Option.toList_some, List.singleton_append, List.nodup_cons] at hdistinct
      constructor
      · intro h
        obtain ⟨hne, hname | hmem⟩ := h
        · exact absurd hname hne
        · exact hmem
      · intro hmem
        refine ⟨?_, .inr hmem⟩
        intro h
        obtain rfl := h
        exact hdistinct.1 hmem

theorem lobbyStep (h : Registered s) (hwf : Wf s) (hkeeps : KeepsRegistry config s (.inr (.lobby id)))
    (hstep : LobbyStep config s id t) : Registered t := by
  have hsearching : ∀ waiting, (s.searching id waiting).usernames = s.usernames := by
    intro waiting
    apply usernames_map (data_searching s id waiting)
    intro x _
    split
    · exact x.requestPlay_user
    · rfl
  cases hstep with
  | idle => exact h
  | @login x message request player users hmem hid hconnected hnone hread hparsed hoffline haccepted =>
      subst hid
      obtain ⟨hname, hpassword, hplayer⟩ := authenticate_ok haccepted
      suffices hfresh : player.username ≠ [] ∧ player.username ∉ s.onlineUsernames from
        h.loggedIn hwf hmem hnone users hfresh.1 hfresh.2
      rcases hplayer with ⟨row, hrow, hhash, hverified, hplayer⟩ | hplayer
      · rw [hplayer]
        apply hkeeps request _ row
        · simp [acceptingRow, hoffline, hpassword, hrow, hhash, hverified]
        · obtain ⟨session, hsession, rfl⟩ := List.mem_map.mp hmem
          have hfind : s.findSession session.id = some session := hwf.findSession hsession
          simp [nextLogin, hfind, hconnected, hnone, hread, hparsed]
      · rw [hplayer]
        exact ⟨hname, hoffline⟩
  | wait _ _ => exact h.congr rfl (hsearching _)
  | pair _ _ _ _ _ _ _ =>
      refine h.congr rfl (Eq.trans ?_ (hsearching []))
      exact usernames_map (data_matched ..) fun x _ => taken_user _ _ _ x

theorem step (h : Registered s) (hwf : Wf s) {op : ServerOp} (hkeeps : KeepsRegistry config s (.inr op))
    (hstep : OpStep config s op t) : Registered t := by
  cases hstep with
  | idle _ => exact h
  | accept backlog _ _ =>
      refine h.congr rfl ?_
      rw [usernames, data_accepted, List.filterMap_append, usernames]
      exact List.append_nil _
  | lobby hlobby => exact h.lobbyStep hwf hkeeps hlobby
  | timeouts =>
      exact h.congr rfl (usernames_map (data_timedOut ..) fun x _ => cancelSearches_user _ x)
  | prune hmem => exact h.pruned hwf hmem
  | join _ =>
      refine h.congr rfl (usernames_map (data_modifyData ..) ?_)
      intro x _
      split
      · rfl
      · rfl
  | allocate request store => exact h.congr rfl rfl
  | tick _ _ => exact h.congr rfl rfl
  | inputs _ _ => exact h.congr rfl rfl
  | @finish roomId winner reason room white black online hends habsent =>
      obtain ⟨hwhite, hblack⟩ := hkeeps room hends.find white hends.white black hends.black
      refine h.congr (habsent hwhite hblack) (usernames_map (data_finished ..) ?_)
      intro x hx
      have hwhite' : x.id ≠ white.playerId := findSession_none hwhite x hx
      have hblack' : x.id ≠ black.playerId := findSession_none hblack x hx
      rw [Function.comp_apply, FinishedPlayerState.leave_of_ne (x := x) hwhite',
        FinishedPlayerState.leave_of_ne (x := x) hblack']
  | removeInactive => exact h.congr rfl rfl

end Registered

/-- In every run whose steps the registry follows, it is right in every state reached. -/
theorem registered_of_run {users : UserRepository} {games : GameRepository} {now : Nat}
    {script : List (List NetEvent)} {w : ServerWorld config}
    (hleads : Leads { state := boot users games now, script } w)
    (hkeeps : ∀ x ∈ w.history, KeepsRegistry config x.1 x.2) : Registered w.state := by
  have hstart : Registered (boot users games now) := ⟨by simp [boot, usernames, data], List.nodup_nil⟩
  refine (invariant (P := fun s _ => Registered s) ?_ ?_ ?_ hleads (.boot users games now) hstart hkeeps).2
  · intro s s' _ hbare h
    refine h.congr ?_ ?_
    · rw [eq_of_bare hbare]
    · rw [usernames, data_eq_of_bare hbare, usernames]
  · intro s _ backlog now _ h
    exact h.congr rfl rfl
  · intro s _ op t hs h hkeeps hstep
    exact h.step hs hkeeps hstep

/-- Both players leave, and the game ends after their sessions. -/
theorem registered_of_run_both_leave :
    ∃ w, Leads (sampleWorld (untilGame ++ [[.setLink 0 .failed, .setLink 1 .failed]])) w ∧
    (∃ x ∈ w.history, x.2 = .inr (.finish 1 none .disconnect)) ∧ Registered w.state := by
  have hrun : (serve sampleConfig (List.replicate 5 .gameServerTick)).reaches
      (sampleWorld (untilGame ++ [[.setLink 0 .failed, .setLink 1 .failed]]))
      (fun _ w => decide ((∃ x ∈ w.history, x.2 = .inr (.finish 1 none .disconnect)) ∧
        ∀ x ∈ w.history, KeepsRegistry sampleConfig x.1 x.2)) = true := by
    decide +kernel
  obtain ⟨_, w, hrun, hw⟩ := Prog.reaches_eq_true hrun
  obtain ⟨hfinish, hkeeps⟩ := of_decide_eq_true hw
  exact ⟨w, Leads.of_run hrun, hfinish, registered_of_run (Leads.of_run hrun) hkeeps⟩

/-- One player resigns: ann and bob are still there, and the registry is empty. -/
theorem not_registered_after_resign :
    ∃ w, Leads (sampleWorld (untilGame ++ [[say 0 "resign"]])) w ∧ ¬Registered w.state := by
  have hrun : (serve sampleConfig (List.replicate 5 .gameServerTick)).reaches
      (sampleWorld (untilGame ++ [[say 0 "resign"]]))
      (fun _ w => decide ("ann".toList ∈ w.state.usernames ∧ "ann".toList ∉ w.state.onlineUsernames)) = true := by
    decide +kernel
  obtain ⟨_, w, hrun, hw⟩ := Prog.reaches_eq_true hrun
  obtain ⟨hthere, hgone⟩ := of_decide_eq_true hw
  refine ⟨w, Leads.of_run hrun, ?_⟩
  intro hregistered
  exact hgone ((hregistered.exact _).mpr hthere)

end Server

end KungFuChess
