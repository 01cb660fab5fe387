import KungFuChess.Proof.Runs

/-!
# Accounts

The name of an account belongs to whoever logged in with it first. From then on its row keeps its id, its name and the
hash of the password, whatever happens on the server, and a login under the name is accepted only if its password
verifies against that hash.
-/

namespace KungFuChess

open Machine Loops

/-! ### The table -/

/-- The two rows differ in the rating at most. -/
structure SameAccount (row row' : UserRow) : Prop where
  id : row'.id = row.id
  username : row'.username = row.username
  passwordHash : row'.passwordHash = row.passwordHash

theorem SameAccount.refl (row : UserRow) : SameAccount row row := ⟨rfl, rfl, rfl⟩

theorem SameAccount.trans {row row' row'' : UserRow} (h : SameAccount row row') (h' : SameAccount row' row'') :
    SameAccount row row'' :=
  ⟨h'.id.trans h.id, h'.username.trans h.username, h'.passwordHash.trans h.passwordHash⟩

/-- The row that a first login opens. -/
structure IsOpened (hasher : PasswordHasher) (request : LoginRequest) (player : Player) (row : UserRow) : Prop where
  id : row.id = player.id
  username : row.username = cString request.username
  passwordHash : row.passwordHash = cString (hasher.hashPassword row.id request.password)

theorem IsOpened.same {hasher : PasswordHasher} {request : LoginRequest} {player : Player} {row row' : UserRow}
    (h : IsOpened hasher request player row) (hsame : SameAccount row row') : IsOpened hasher request player row' := by
  refine ⟨hsame.id.trans h.id, hsame.username.trans h.username, ?_⟩
  rw [hsame.passwordHash, hsame.id]
  exact h.passwordHash

namespace UserRepository

variable {users users' : UserRepository} {hasher : PasswordHasher} {request : LoginRequest} {player : Player}

theorem mem_of_findCredentials {username : Text} {row : UserRow} (h : users.findCredentialsByUsername username = some row) :
    row ∈ users.rows ∧ row.username = cString username := by
  unfold findCredentialsByUsername at h
  split at h
  · cases h
  · have hfound := List.find?_some h
    exact ⟨List.mem_of_find?_eq_some h, eq_of_beq hfound⟩

/-- An accepted login finds an account whose password it has, or opens one. -/
theorem authenticate_ok (h : authenticate hasher users request = (.ok player, users')) :
    (∃ row, users.findCredentialsByUsername request.username = some row ∧ row.id = player.id ∧
      hasher.verifyPassword request.password row.passwordHash = true ∧ users' = users) ∨
    ∃ row, users.findCredentialsByUsername request.username = none ∧ IsOpened hasher request player row ∧
      users'.rows = users.rows ++ [row] := by
  unfold authenticate at h
  split at h
  · cases (Prod.mk.inj h).1
  split at h
  · cases (Prod.mk.inj h).1
  split at h
  · rename_i row hfind
    split at h
    · cases (Prod.mk.inj h).1
    split at h
    · cases (Prod.mk.inj h).1
    · rename_i hverify
      cases h
      exact .inl ⟨row, hfind, rfl, by simpa using hverify, rfl⟩
  · rename_i hfind
    split at h
    · rename_i created after hcreate
      cases h
      unfold createUserWithPassword at hcreate
      split at hcreate
      · cases (Prod.mk.inj hcreate).1
      split at hcreate
      · cases (Prod.mk.inj hcreate).1
      · cases hcreate
        exact .inr ⟨_, hfind, ⟨rfl, rfl, rfl⟩, rfl⟩
    · split at h
      · cases (Prod.mk.inj h).1
      · cases (Prod.mk.inj h).1

/-- The accounts are the same, one by one. -/
def SameAccounts (users users' : UserRepository) : Prop :=
  ∃ f : UserRow → UserRow, (∀ row, SameAccount row (f row)) ∧ users'.rows = users.rows.map f

namespace SameAccounts

variable {users'' : UserRepository}

theorem refl (users : UserRepository) : SameAccounts users users := ⟨id, SameAccount.refl, (List.map_id _).symm⟩

theorem trans (h : SameAccounts users users') (h' : SameAccounts users' users'') : SameAccounts users users'' := by
  obtain ⟨f, hf, hrows⟩ := h
  obtain ⟨g, hg, hrows'⟩ := h'
  exact ⟨g ∘ f, fun row => (hf row).trans (hg (f row)), by rw [hrows', hrows, List.map_map]⟩

theorem updateRating (users : UserRepository) (userId : UserId) (rating : Int) :
    SameAccounts users (users.updateRating userId rating) := by
  unfold UserRepository.updateRating
  split
  · exact refl users
  · refine ⟨_, fun row => ?_, rfl⟩
    split
    · exact ⟨rfl, rfl, rfl⟩
    · exact .refl row

theorem mem (h : SameAccounts users users') {row : UserRow} (hrow : row ∈ users'.rows) :
    ∃ old ∈ users.rows, SameAccount old row := by
  obtain ⟨f, hf, hrows⟩ := h
  rw [hrows] at hrow
  obtain ⟨old, hold, rfl⟩ := List.mem_map.mp hrow
  exact ⟨old, hold, hf old⟩

theorem mem_old (h : SameAccounts users users') {old : UserRow} (hold : old ∈ users.rows) :
    ∃ row ∈ users'.rows, SameAccount old row := by
  obtain ⟨f, hf, hrows⟩ := h
  rw [hrows]
  exact ⟨f old, List.mem_map_of_mem hold, hf old⟩

end SameAccounts

end UserRepository

namespace Server

open UserRepository

variable {config : ServerConfig} {s s' t : Server} {id : PlayerId}

theorem recordResult_accounts (config : ServerConfig) (s : Server) (room : Room) (white black : GamePlayer)
    (winner : Option PieceColor) (reason : FinishReason) :
    SameAccounts s.users (s.recordResult config room white black winner reason).2.users := by
  have hratings : ∀ winner loser gameId,
      SameAccounts s.users (s.updateRatingsForResult config winner loser gameId).2.users := by
    intro winner loser gameId
    unfold updateRatingsForResult
    split
    · exact (SameAccounts.updateRating ..).trans (SameAccounts.updateRating ..)
    · exact .refl s.users
  unfold recordResult
  split
  · exact .refl s.users
  · exact hratings ..
  · exact hratings ..
  · split
    · exact .refl s.users
    · exact .refl s.users

/-! ### Logins -/

/-- The login that a step of a run accepts, and the player it is for. -/
def acceptedLogin (config : ServerConfig) : Server × (NetEvent ⊕ ServerOp) → Option (LoginRequest × Player)
  | (s, .inr (.lobby id)) => do
      let session ← s.findSession id
      guard (session.state = .connected ∧ session.user = none)
      let request ← parseLoginMessage (← (s.tryRead .lobby id).1)
      guard (request.username ∉ s.onlineUsernames)
      match (authenticate config.hasher s.users request).1 with
      | .ok player => some (request, player)
      | .error _ => none
  | _ => none

theorem acceptedLogin_of_login (hwf : Wf s) {x : PlayerSession} (hx : x ∈ s.sessions) (hid : x.id = id)
    (hconnected : x.state = .connected) (hnoUser : x.user = none) {message : Text}
    (hread : (s.tryRead .lobby id).1 = some message) {request : LoginRequest}
    (hparsed : parseLoginMessage message = some request) (hoffline : request.username ∉ s.onlineUsernames)
    {player : Player} {users : UserRepository}
    (haccepted : authenticate config.hasher s.users request = (.ok player, users)) :
    acceptedLogin config (s, .inr (.lobby id)) = some (request, player) := by
  have hfind : s.findSession id = some x := hid ▸ hwf.findSession hx
  rw [acceptedLogin, hfind]
  simp [hconnected, hnoUser, hread, hparsed, hoffline, haccepted]

theorem authenticate_of_acceptedLogin {request : LoginRequest} {player : Player}
    (h : acceptedLogin config (s, .inr (.lobby id)) = some (request, player)) :
    ∃ users, authenticate config.hasher s.users request = (.ok player, users) := by
  simp only [acceptedLogin, Option.bind_eq_bind, Option.bind_eq_some_iff] at h
  obtain ⟨session, -, -, -, message, -, read, -, -, -, h⟩ := h
  split at h
  · rename_i found hauth
    cases h
    exact ⟨_, Prod.ext hauth rfl⟩
  · cases h

/-- What an operation does to the accounts: an accepted login may open one, and nothing else changes any. -/
inductive AccountStep (config : ServerConfig) (s : Server) (op : ServerOp) (t : Server) : Prop where
  | same (same : SameAccounts s.users t.users)
  | opens {request : LoginRequest} {player : Player} {row : UserRow}
      (accepted : acceptedLogin config (s, .inr op) = some (request, player))
      (unknown : s.users.findCredentialsByUsername request.username = none)
      (opened : IsOpened config.hasher request player row) (rows : t.users.rows = s.users.rows ++ [row])

theorem Wf.accountStep (hwf : Wf s) {op : ServerOp} (hstep : OpStep config s op t) : AccountStep config s op t := by
  cases hstep with
  | idle _ _ => exact .same (.refl _)
  | accept _ _ _ => exact .same (.refl _)
  | @lobby id t hlobby =>
      cases hlobby with
      | idle => exact .same (.refl _)
      | @login x message request player users mem hid connected noUser read parsed offline accepted =>
          have husers : (s.loggedIn id player users).users = users := by
            rw [loggedIn, registerSession_eq]
            rfl
          rcases authenticate_ok accepted with ⟨row, -, -, -, hsame⟩ | ⟨row, hunknown, hopened, hrows⟩
          · refine .same ?_
            rw [husers, hsame]
            exact .refl s.users
          · obtain ⟨z, hz, rfl⟩ := List.mem_map.mp mem
            refine .opens ?_ hunknown hopened (by rw [husers, hrows])
            rw [acceptedLogin, ← hid, hwf.findSession hz]
            subst hid
            simp [connected, noUser, read, parsed, offline, accepted]
      | wait _ _ => exact .same (.refl _)
      | pair _ _ _ _ _ _ _ _ => exact .same (.refl _)
  | timeouts => exact .same (.refl _)
  | prune _ => exact .same (.refl _)
  | join _ => exact .same (.refl _)
  | allocate _ _ => exact .same (.refl _)
  | tick _ _ => exact .same (.refl _)
  | inputs _ _ => exact .same (.refl _)
  | @finish roomId winner reason room white black online _ _ => exact .same (recordResult_accounts ..)
  | removeInactive => exact .same (.refl _)

/-! ### Runs -/

/-- A login of the history opened the account. -/
def Opened (config : ServerConfig) (history : History) (row : UserRow) : Prop :=
  ∃ x ∈ history, ∃ request player, acceptedLogin config x = some (request, player) ∧
    x.1.users.findCredentialsByUsername request.username = none ∧ IsOpened config.hasher request player row

/-- The account was there from the start, or a login of the history opened it. -/
def Owned (config : ServerConfig) (users : UserRepository) (history : History) (row : UserRow) : Prop :=
  (∃ old ∈ users.rows, SameAccount old row) ∨ Opened config history row

/-- Every account is owned, and those of the start are still there. -/
structure Accounts (config : ServerConfig) (users : UserRepository) (s : Server) (history : History) : Prop where
  owned : ∀ row ∈ s.users.rows, Owned config users history row
  kept : ∀ old ∈ users.rows, ∃ row ∈ s.users.rows, SameAccount old row

variable {users : UserRepository} {history : History}

theorem Owned.same {row row' : UserRow} (h : Owned config users history row) (hsame : SameAccount row row') :
    Owned config users history row' := by
  rcases h with ⟨old, hold, h⟩ | ⟨x, hx, request, player, haccepted, hunknown, hopened⟩
  · exact .inl ⟨old, hold, h.trans hsame⟩
  · exact .inr ⟨x, hx, request, player, haccepted, hunknown, hopened.same hsame⟩

theorem Owned.later {row : UserRow} (h : Owned config users history row) (more : History) :
    Owned config users (history ++ more) row := by
  refine h.imp id fun hopened => ?_
  obtain ⟨x, hx, hrest⟩ := hopened
  exact ⟨x, List.mem_append_left _ hx, hrest⟩

namespace Accounts

theorem boot (config : ServerConfig) (users : UserRepository) (games : GameRepository) (now : Nat) :
    Accounts config users (boot users games now) [] :=
  ⟨fun row hrow => .inl ⟨row, hrow, .refl row⟩, fun row hrow => ⟨row, hrow, .refl row⟩⟩

theorem of_same (h : Accounts config users s history) (hsame : SameAccounts s.users s'.users) (more : History) :
    Accounts config users s' (history ++ more) := by
  constructor
  · intro row hrow
    obtain ⟨old, hold, hrow⟩ := hsame.mem hrow
    exact ((h.owned old hold).same hrow).later more
  · intro old hold
    obtain ⟨row, hrow, holdRow⟩ := h.kept old hold
    obtain ⟨row', hrow', hrowRow'⟩ := hsame.mem_old hrow
    exact ⟨row', hrow', holdRow.trans hrowRow'⟩

theorem step (h : Accounts config users s history) {op : ServerOp} (hstep : AccountStep config s op t) :
    Accounts config users t (history ++ [(s, .inr op)]) := by
  cases hstep with
  | same hsame => exact h.of_same hsame _
  | @opens request player row haccepted hunknown hopened hrows =>
      constructor
      · intro row' hrow'
        rw [hrows] at hrow'
        rcases List.mem_append.mp hrow' with hold | hnew
        · exact (h.owned row' hold).later _
        · rw [List.mem_singleton.mp hnew]
          exact .inr ⟨_, List.mem_append_right _ List.mem_cons_self, request, player, haccepted, hunknown, hopened⟩
      · intro old hold
        obtain ⟨row', hrow', hsame⟩ := h.kept old hold
        exact ⟨row', by rw [hrows]; exact List.mem_append_left _ hrow', hsame⟩

theorem occur (h : Accounts config users s history) (event : NetEvent) (more : History) :
    Accounts config users (s.occur event) (history ++ more) := by
  have husers : (s.occur event).users = s.users := by cases event <;> rfl
  refine h.of_same ?_ more
  rw [husers]
  exact .refl s.users

theorem apply (h : Accounts config users s history) (hwf : Wf s) {op : ServerOp} {r : op.Result}
    (happly : s.apply config op = .ok (r, s')) : Accounts config users s' (history ++ [(s, .inr op)]) := by
  obtain ⟨t, hstep, hsame⟩ := apply_step hwf.nextRoomFree happly
  have husers : s'.users = t.users := by rw [eq_of_bare hsame]
  obtain ⟨howned, hkept⟩ := h.step (hwf.accountStep hstep)
  rw [← husers] at howned hkept
  exact ⟨howned, hkept⟩

end Accounts

/-! ### Who is logged in -/

theorem user_assignUser {x : SessionData} {userId : UserId} {username : Text} {rating : Int} {user : SessionUser}
    (h : (x.assignUser userId username rating).user = some user) :
    user.userId = userId ∧ user.profile.username = username := by
  cases h
  exact ⟨rfl, rfl⟩

/-- What makes a session a user: its own login that is accepted, or the end of a game in which it is a player. -/
def MakesUser (config : ServerConfig) (x : Server × (NetEvent ⊕ ServerOp)) (id : PlayerId) (user : SessionUser) : Prop :=
  (∃ request player, acceptedLogin config x = some (request, player) ∧ x.2 = .inr (.lobby id) ∧
    user.userId = userIdOfInt player.id ∧ user.profile.username = player.username) ∨
  ∃ roomId winner reason room white black, x.2 = .inr (.finish roomId winner reason) ∧
    Ends x.1 roomId room white black ∧ ∃ player ∈ [white, black], player.playerId = id ∧ user.userId = player.userId

theorem user_leave {player : FinishedPlayerState} {x : SessionData} {user : SessionUser}
    (h : (player.leave x).user = some user) :
    x.user = some user ∨ x.id = player.playerId ∧ user.userId = player.userId := by
  by_cases hid : x.id = player.playerId
  · rw [FinishedPlayerState.leave, if_pos hid, FinishedPlayerState.release] at h
    cases hprofile : player.profile with
    | none =>
        rw [hprofile] at h
        exact .inl h
    | some profile =>
        rw [hprofile] at h
        exact .inr ⟨hid, (user_assignUser h).1⟩
  · rw [FinishedPlayerState.leave_of_ne hid] at h
    exact .inl h

/-- The session had its user before. -/
def HadUser (s : Server) (y : SessionData) (user : SessionUser) : Prop := ∃ x ∈ s.data, x.id = y.id ∧ x.user = some user

section Steps

variable {y : SessionData} {user : SessionUser}

theorem HadUser.of_map {f : SessionData → SessionData} (hf : ∀ x, (f x).id = x.id ∧ (f x).user = x.user)
    (hy : y ∈ s.data.map f) (huser : y.user = some user) : HadUser s y user := by
  obtain ⟨x, hx, rfl⟩ := List.mem_map.mp hy
  exact ⟨x, hx, (hf x).1.symm, (hf x).2.symm.trans huser⟩

theorem requestPlay_keeps (id : PlayerId) (x : SessionData) : (if x.id = id then x.requestPlay else x).id = x.id ∧
    (if x.id = id then x.requestPlay else x).user = x.user := by
  split
  · exact ⟨x.requestPlay_id, x.requestPlay_user⟩
  · exact ⟨rfl, rfl⟩

theorem Wf.user_of_lobby (hwf : Wf s) (hstep : LobbyStep config s id t) (hy : y ∈ t.data) (huser : y.user = some user) :
    HadUser s y user ∨ MakesUser config (s, .inr (.lobby id)) y.id user := by
  cases hstep with
  | idle => exact .inl ⟨y, hy, rfl, huser⟩
  | @login x message request player users mem hid connected noUser read parsed offline accepted =>
      rw [data_loggedIn] at hy
      obtain ⟨z, hz, rfl⟩ := List.mem_map.mp hy
      split at huser
      · rename_i hzid
        obtain ⟨x', hx', rfl⟩ := List.mem_map.mp mem
        have hlogin := acceptedLogin_of_login hwf hx' hid connected noUser read parsed offline accepted
        obtain ⟨huserId, hname⟩ := user_assignUser huser
        refine .inr (.inl ⟨request, player, hlogin, ?_, huserId, hname⟩)
        rw [if_pos hzid]
        show (.inr (.lobby id) : NetEvent ⊕ ServerOp) = .inr (.lobby z.id)
        rw [hzid]
      · rename_i hzid
        rw [if_neg hzid]
        exact .inl ⟨z, hz, rfl, huser⟩
  | wait _ _ => exact .inl (.of_map (requestPlay_keeps id) (data_searching .. ▸ hy) huser)
  | @pair x' y' before after entry whiteUser blackUser asks hid waits chosen partner hpartner white black =>
      rw [data_matched, data_searching, List.map_map] at hy
      refine .inl (.of_map (fun x => ?_) hy huser)
      rw [Function.comp_apply, taken_id, taken_user]
      exact requestPlay_keeps id x

/-- Nobody becomes a user in any other way. -/
theorem Wf.user_of_step (hwf : Wf s) {op : ServerOp} (hstep : OpStep config s op t) (hy : y ∈ t.data)
    (huser : y.user = some user) : HadUser s y user ∨ MakesUser config (s, .inr op) y.id user := by
  cases hstep with
  | idle _ _ => exact .inl ⟨y, hy, rfl, huser⟩
  | accept backlog _ _ =>
      rw [data_accepted] at hy
      rcases List.mem_append.mp hy with hold | hnew
      · exact .inl ⟨y, hold, rfl, huser⟩
      · rw [List.mem_singleton.mp hnew] at huser
        cases huser
  | lobby hlobby => exact hwf.user_of_lobby hlobby hy huser
  | timeouts =>
      rw [data_timedOut] at hy
      exact .inl (.of_map (fun x => ⟨cancelSearches_id _ x, cancelSearches_user _ x⟩) hy huser)
  | prune _ =>
      rw [data_pruned] at hy
      exact .inl ⟨y, (List.mem_filter.mp hy).1, rfl, huser⟩
  | join _ =>
      rw [data_modifyData] at hy
      refine .inl (.of_map (fun z => ?_) hy huser)
      split
      · exact ⟨rfl, rfl⟩
      · exact ⟨rfl, rfl⟩
  | allocate _ _ => exact .inl ⟨y, hy, rfl, huser⟩
  | tick _ _ => exact .inl ⟨y, hy, rfl, huser⟩
  | inputs _ _ => exact .inl ⟨y, hy, rfl, huser⟩
  | @finish roomId winner reason room white black online ends _ =>
      rw [data_finished] at hy
      obtain ⟨x, hx, rfl⟩ := List.mem_map.mp hy
      have hmakes : ∀ player ∈ [white, black], x.id = player.playerId → user.userId = player.userId →
          MakesUser config (s, .inr (.finish roomId winner reason)) x.id user :=
        fun player hplayer hid huserId =>
          .inr ⟨roomId, winner, reason, room, white, black, rfl, ends, player, hplayer, hid.symm, huserId⟩
      rw [Function.comp_apply] at huser
      rw [Function.comp_apply, FinishedPlayerState.leave_id, FinishedPlayerState.leave_id]
      rcases user_leave huser with hwhite | ⟨hid, huserId⟩
      · rcases user_leave hwhite with hold | ⟨hid, huserId⟩
        · exact .inl ⟨x, hx, by simp, hold⟩
        · exact .inr (hmakes white (by simp) hid huserId)
      · rw [FinishedPlayerState.leave_id] at hid
        exact .inr (hmakes black (by simp) hid huserId)
  | removeInactive => exact .inl ⟨y, hy, rfl, huser⟩

end Steps

/-- Whoever is a user was made one by a step of the history. -/
def UsersMade (config : ServerConfig) (s : Server) (history : History) : Prop :=
  ∀ y ∈ s.data, ∀ user, y.user = some user → ∃ x ∈ history, MakesUser config x y.id user

namespace UsersMade

theorem later (h : UsersMade config s history) {y : SessionData} {user : SessionUser} (hhad : HadUser s y user)
    (more : History) : ∃ x ∈ history ++ more, MakesUser config x y.id user := by
  obtain ⟨z, hz, hid, huser⟩ := hhad
  obtain ⟨x, hx, hmakes⟩ := h z hz user huser
  exact ⟨x, List.mem_append_left _ hx, hid ▸ hmakes⟩

theorem occur (h : UsersMade config s history) (event : NetEvent) (more : History) :
    UsersMade config (s.occur event) (history ++ more) := by
  intro y hy user huser
  have hdata : (s.occur event).data = s.data := by
    rw [← data_bare, occur_bare]
    exact data_bare s
  rw [hdata] at hy
  exact h.later ⟨y, hy, rfl, huser⟩ more

theorem apply (h : UsersMade config s history) (hwf : Wf s) {op : ServerOp} {r : op.Result}
    (happly : s.apply config op = .ok (r, s')) : UsersMade config s' (history ++ [(s, .inr op)]) := by
  intro y hy user huser
  obtain ⟨t, hstep, hsame⟩ := apply_step hwf.nextRoomFree happly
  rw [data_eq_of_bare hsame] at hy
  rcases hwf.user_of_step hstep hy huser with hhad | hmakes
  · exact h.later hhad _
  · exact ⟨_, List.mem_append_right _ List.mem_cons_self, hmakes⟩

end UsersMade

end Server

end KungFuChess
