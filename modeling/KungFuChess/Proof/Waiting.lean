import KungFuChess.Proof.Runs

/-!
# The queue of the monolith

`MatchmakingQueue` holds references to sessions, and each session says in a field of its own whether it
searches. The two are changed by different handlers, but always together: an entry of the queue is a
session that searches, and the other way round.
-/

namespace KungFuChess

open Machine

namespace Server

variable {config : ServerConfig} {s s' t : Server} {id : PlayerId} {roomId : RoomId} {side : PieceColor}

def IsSearching (s : Server) (id : PlayerId) : Prop := ∃ x ∈ s.data, x.id = id ∧ x.state = .searching

/-- The sessions that wait in the queue. -/
def queued (s : Server) : List PlayerId := s.waiting.map (·.session)

/-- One entry for every session that searches, and no others. -/
structure Queued (s : Server) : Prop where
  nodup : s.queued.Nodup
  exact : ∀ id, id ∈ s.queued ↔ s.IsSearching id

/-! ### Who searches -/

theorem isSearching_map {f : SessionData → SessionData} (hdata : t.data = s.data.map f)
    (hid : ∀ x, (f x).id = x.id) : t.IsSearching id ↔ ∃ x ∈ s.data, x.id = id ∧ (f x).state = .searching := by
  unfold IsSearching
  rw [hdata]
  constructor
  · intro h
    obtain ⟨y, hy, hyid, hstate⟩ := h
    obtain ⟨x, hx, rfl⟩ := List.mem_map.mp hy
    exact ⟨x, hx, (hid x).symm.trans hyid, hstate⟩
  · intro h
    obtain ⟨x, hx, hxid, hstate⟩ := h
    exact ⟨f x, List.mem_map_of_mem hx, (hid x).trans hxid, hstate⟩

/-- Where one session changes, the others search as before. -/
theorem isSearching_modifyData {f : SessionData → SessionData} (hdata : t.data = (s.modifyData id f).data)
    (hid : ∀ x, (f x).id = x.id) {other : PlayerId} (hne : other ≠ id) :
    t.IsSearching other ↔ s.IsSearching other := by
  rw [isSearching_map (hdata.trans (data_modifyData s id f))]
  · refine exists_congr fun x => and_congr_right fun _ => and_congr_right fun hx => ?_
    rw [if_neg (hx ▸ hne)]
  · intro x
    split
    · exact hid x
    · rfl

theorem Wf.isSearching_iff (hwf : Wf s) {x : SessionData} (hx : x ∈ s.data) :
    s.IsSearching x.id ↔ x.state = .searching := by
  constructor
  · intro h
    obtain ⟨y, hy, hid, hstate⟩ := h
    rw [← hwf.eq_of_id hy hx hid]
    exact hstate
  · intro hstate
    exact ⟨x, hx, rfl, hstate⟩

namespace Queued

theorem congr (h : Queued s) (hwaiting : t.waiting = s.waiting) (hsearching : ∀ id, t.IsSearching id ↔ s.IsSearching id) :
    Queued t := by
  have hqueued : t.queued = s.queued := by rw [queued, hwaiting, queued]
  refine ⟨hqueued ▸ h.nodup, ?_⟩
  intro id
  rw [hqueued, h.exact, hsearching]

theorem of_bare (h : Queued s) (hbare : s'.bare = s.bare) : Queued s' := by
  apply h.congr
  · rw [eq_of_bare hbare]
  · intro id
    rw [IsSearching, data_eq_of_bare hbare, IsSearching]

/-- A session that is connected does not wait. -/
theorem notMem_of_connected (h : Queued s) (hwf : Wf s) {x : SessionData} (hx : x ∈ s.data)
    (hconnected : x.state = .connected) : x.id ∉ s.queued := by
  rw [h.exact, hwf.isSearching_iff hx, hconnected]
  simp

theorem wait (h : Queued s) (hwf : Wf s) {x : SessionData} (hasks : AsksToPlay s x) :
    Queued (s.searching x.id (s.waiting ++ [⟨x.id, s.now⟩])) := by
  have hqueued : (s.searching x.id (s.waiting ++ [⟨x.id, s.now⟩])).queued = s.queued ++ [x.id] := List.map_append
  refine ⟨?_, ?_⟩
  · rw [hqueued]
    apply h.nodup.append (List.nodup_singleton _)
    rw [List.disjoint_singleton]
    exact h.notMem_of_connected hwf hasks.mem hasks.connected
  · intro other
    rw [hqueued, List.mem_append, List.mem_singleton]
    rcases eq_or_ne other x.id with rfl | hne
    · refine iff_of_true (.inr rfl) ⟨x.requestPlay, ?_, x.requestPlay_id, ?_⟩
      · change x.requestPlay ∈ (s.modifyData x.id (·.requestPlay)).data
        rw [data_modifyData]
        exact List.mem_map.mpr ⟨x, hasks.mem, if_pos rfl⟩
      · rw [SessionData.requestPlay, if_pos ⟨hasks.connected, hasks.hasUser⟩]
    · have hsearching := isSearching_modifyData (t := s.searching x.id (s.waiting ++ [⟨x.id, s.now⟩]))
        (f := (·.requestPlay)) rfl SessionData.requestPlay_id hne
      rw [hsearching, h.exact]
      simp [hne]

theorem pair (h : Queued s) (hwf : Wf s) {x : SessionData} (hasks : AsksToPlay s x) {before after : List WaitingEntry}
    {entry : WaitingEntry} (hwaits : s.waiting = before ++ entry :: after) (whiteUser blackUser : SessionUser) :
    Queued (matched config (s.searching x.id (before ++ after)) entry.session x.id whiteUser blackUser) := by
  have hsplit : s.queued = before.map (·.session) ++ entry.session :: after.map (·.session) := by
    rw [queued, hwaits, List.map_append, List.map_cons]
  have hqueued : (matched config (s.searching x.id (before ++ after)) entry.session x.id whiteUser blackUser).queued =
      before.map (·.session) ++ after.map (·.session) := List.map_append
  have hnodup := h.nodup
  rw [hsplit, List.nodup_middle, List.nodup_cons] at hnodup
  refine ⟨hqueued ▸ hnodup.2, ?_⟩
  intro other
  have hmem : other ∈ s.queued ↔ other = entry.session ∨ other ∈ before.map (·.session) ++ after.map (·.session) := by
    rw [hsplit, List.perm_middle.mem_iff, List.mem_cons]
  rw [hqueued, isSearching_map (data_matched ..) (taken_id _ _ _)]
  simp only [taken_state]
  rcases eq_or_ne other x.id with rfl | hne
  · have hout := h.notMem_of_connected hwf hasks.mem hasks.connected
    rw [hmem, not_or] at hout
    refine iff_of_false hout.2 ?_
    intro h
    obtain ⟨y, _, hid, hblack, _⟩ := h
    exact hblack hid
  · rcases eq_or_ne other entry.session with rfl | hne'
    · refine iff_of_false hnodup.1 ?_
      intro h
      obtain ⟨y, _, hid, _, hwhite, _⟩ := h
      exact hwhite hid
    · have hsearching := isSearching_modifyData (t := s.searching x.id (before ++ after)) (f := (·.requestPlay)) rfl
        SessionData.requestPlay_id hne
      rw [← h.exact, hmem] at hsearching
      simp only [hne', false_or] at hsearching
      rw [← hsearching]
      constructor
      · intro h
        obtain ⟨y, hy, hid, hstate⟩ := h
        exact ⟨y, hy, hid, hid ▸ hne, hid ▸ hne', hstate⟩
      · intro h
        obtain ⟨y, hy, hid, _, _, hstate⟩ := h
        exact ⟨y, hy, hid, hstate⟩

theorem timedOut (h : Queued s) : Queued (timedOut config s) := by
  have hqueued : (Server.timedOut config s).queued =
      (s.waiting.filter fun entry => !s.hasTimedOut config entry).map (·.session) := rfl
  have hinj : ∀ e ∈ s.waiting, ∀ e' ∈ s.waiting, e.session = e'.session → e = e' := by
    intro e he e' he' heq
    exact List.inj_on_of_nodup_map h.nodup he he' heq
  refine ⟨?_, ?_⟩
  · rw [hqueued]
    exact h.nodup.sublist (List.filter_sublist.map _)
  · intro id
    rw [hqueued, isSearching_map (data_timedOut ..) (cancelSearches_id _)]
    have hstate : ∀ x : SessionData, (cancelSearches (s.checkTimeouts config).1 x).state = .searching ↔
        x.id ∉ (s.checkTimeouts config).1 ∧ x.state = .searching := by
      intro x
      unfold cancelSearches SessionData.cancelSearch
      by_cases hmem : x.id ∈ (s.checkTimeouts config).1
      · by_cases hsearching : x.state = .searching
        · simp [hmem, hsearching]
        · simp [hmem, hsearching]
      · simp [hmem]
    simp only [hstate]
    simp only [checkTimeouts, List.mem_map, List.mem_filter]
    constructor
    · intro h
      obtain ⟨entry, ⟨hentry, hlate⟩, rfl⟩ := h
      obtain ⟨x, hx, hid, hsearching⟩ := (h.exact _).mp (List.mem_map_of_mem hentry)
      refine ⟨x, hx, hid, ?_, hsearching⟩
      intro h
      obtain ⟨other, ⟨hother, hlate'⟩, hsame⟩ := h
      rw [hinj other hother entry hentry (hsame.trans hid)] at hlate'
      simp [hlate'] at hlate
    · intro h
      obtain ⟨x, hx, rfl, hkept, hsearching⟩ := h
      obtain ⟨entry, hentry, hid⟩ := List.mem_map.mp ((h.exact _).mpr ⟨x, hx, rfl, hsearching⟩)
      refine ⟨entry, ⟨hentry, ?_⟩, hid⟩
      by_contra hlate
      exact hkept ⟨entry, ⟨hentry, by simpa using hlate⟩, hid⟩

theorem pruned (h : Queued s) (hwf : Wf s) {x : SessionData} (hx : x ∈ s.data) : Queued (s.pruned x) := by
  have hsearching : ∀ id, (s.pruned x).IsSearching id ↔ id ≠ x.id ∧ s.IsSearching id := by
    intro id
    unfold IsSearching
    rw [data_pruned]
    simp only [List.mem_filter, decide_eq_true_eq]
    constructor
    · intro h
      obtain ⟨y, ⟨hy, hne⟩, rfl, hstate⟩ := h
      exact ⟨hne, y, hy, rfl, hstate⟩
    · intro h
      obtain ⟨hne, y, hy, rfl, hstate⟩ := h
      exact ⟨y, ⟨hy, hne⟩, rfl, hstate⟩
  by_cases hstate : x.state = .searching
  · have hwaiting : (s.pruned x).waiting = s.waiting.filter fun entry => entry.session ≠ x.id := by
      rw [Server.pruned, if_pos hstate]
    refine ⟨?_, ?_⟩
    · rw [queued, hwaiting]
      exact h.nodup.sublist (List.filter_sublist.map _)
    · intro id
      rw [hsearching, ← h.exact, queued, hwaiting, queued]
      simp only [List.mem_map, List.mem_filter, decide_eq_true_eq]
      constructor
      · intro h
        obtain ⟨entry, ⟨hentry, hne⟩, rfl⟩ := h
        exact ⟨hne, entry, hentry, rfl⟩
      · intro h
        obtain ⟨hne, entry, hentry, rfl⟩ := h
        exact ⟨entry, ⟨hentry, hne⟩, rfl⟩
  · apply h.congr
    · rw [Server.pruned, if_neg hstate]
    · intro id
      rw [hsearching]
      refine and_iff_right_of_imp ?_
      intro hid h
      obtain rfl := h
      exact hstate ((hwf.isSearching_iff hx).mp hid)

theorem lobbyStep (h : Queued s) (hwf : Wf s) (hstep : LobbyStep config s id t) : Queued t := by
  cases hstep with
  | idle => exact h
  | login _ _ _ _ _ _ _ _ =>
      apply h.congr
      · rw [loggedIn, registerSession_eq]
        rfl
      · intro other
        rw [isSearching_map (data_loggedIn ..)]
        · refine exists_congr fun x => and_congr_right fun _ => and_congr_right fun _ => ?_
          split
          · rfl
          · rfl
        · intro x
          split
          · rfl
          · rfl
  | wait hasks hid =>
      subst hid
      exact h.wait hwf hasks
  | pair hasks hid hwaits _ _ _ _ _ =>
      subst hid
      exact h.pair hwf hasks hwaits _ _

/-- Only a session that joins a room while it searches leaves its entry behind. -/
theorem step (h : Queued s) (hwf : Wf s) {op : ServerOp} (hstep : OpStep config s op t)
    (hjoin : ∀ x roomId side, op = .join x.id → MayJoin s x roomId side → x.state ≠ .searching) : Queued t := by
  cases hstep with
  | idle _ => exact h
  | accept backlog _ _ =>
      refine h.congr rfl ?_
      intro id
      unfold IsSearching
      rw [data_accepted]
      simp [or_and_right, exists_or]
  | lobby hlobby => exact h.lobbyStep hwf hlobby
  | timeouts => exact h.timedOut
  | prune hmem => exact h.pruned hwf hmem
  | @join x roomId side hmay =>
      refine h.congr rfl ?_
      intro other
      rcases eq_or_ne other x.id with rfl | hne
      · rw [hwf.isSearching_iff hmay.mem]
        refine iff_of_false ?_ (hjoin x roomId side rfl hmay)
        intro h
        obtain ⟨y, hy, hid, hstate⟩ := h
        rw [data_modifyData] at hy
        obtain ⟨z, _, rfl⟩ := List.mem_map.mp hy
        by_cases hz : z.id = x.id
        · simp [hz, playSide] at hstate
        · simp [hz] at hid
      · exact isSearching_modifyData (f := playSide roomId side) rfl (fun _ => rfl) hne
  | allocate request store => exact h.congr rfl fun _ => Iff.rfl
  | tick _ _ => exact h.congr rfl fun _ => Iff.rfl
  | inputs _ _ => exact h.congr rfl fun _ => Iff.rfl
  | finish _ _ =>
      refine h.congr rfl ?_
      intro id
      rw [isSearching_map (data_finished ..)]
      · simp [IsSearching]
      · simp
  | removeInactive => exact h.congr rfl fun _ => Iff.rfl

end Queued

/-! ### Matches -/

/-- A session plays on a side of a room. -/
def InGame (s : Server) (id : PlayerId) (roomId : RoomId) (side : PieceColor) : Prop :=
  ∃ x ∈ s.data, x.id = id ∧ x.state = .playing ∧ x.side = some side ∧ x.roomId = some roomId

/-- A session that was there and has been erased. -/
def Gone (s : Server) (history : History) (id : PlayerId) : Prop :=
  id < s.nextSessionId ∧ id ∉ sessionIds s ∧ ∃ before, (before, .inr (.prune id)) ∈ history

/-- One of the two players of a match. -/
structure Seated (s : Server) (history : History) (id : PlayerId) (roomId : RoomId) (side : PieceColor) : Prop where
  plays : s.InGame id roomId side ∨ Gone s history id
  notWaiting : id ∉ s.queued

/-- The two players of every match are two, and each is in the room on a side of its own. -/
def MatchesSeated (s : Server) (history : History) : Prop :=
  ∀ white black roomId, .matched white black roomId ∈ s.journal → white ≠ black ∧
    Seated s history white roomId .white ∧ Seated s history black roomId .black

/-- The steps of the lobby, the timeouts and the client plane. -/
def LobbyOnly : NetEvent ⊕ ServerOp → Prop
  | .inl _ | .inr .acceptNewClients | .inr (.lobby _) | .inr .processTimeouts | .inr .pruneDisconnected
  | .inr (.prune _) => True
  | _ => False

instance : DecidablePred LobbyOnly
  | .inl _ | .inr .acceptNewClients | .inr (.lobby _) | .inr .processTimeouts | .inr .pruneDisconnected
  | .inr (.prune _) => isTrue trivial
  | .inr (.join _) | .inr (.allocate _) | .inr .readClock | .inr (.probeRoom _) | .inr (.tickRoom _ _)
  | .inr (.playRoomInputs _) | .inr (.finish _ _ _) | .inr .removeInactiveRooms => isFalse not_false

/-- A session that plays or has been erased is not in the queue. -/
theorem Seated.of_queued {history : History} (hwf : Wf s) (h : Queued s)
    (hplays : s.InGame id roomId side ∨ Gone s history id) : Seated s history id roomId side := by
  refine ⟨hplays, ?_⟩
  rw [h.exact]
  intro h
  obtain ⟨y, hy, rfl, hsearching⟩ := h
  rcases hplays with ⟨x, hx, hid, hplaying, -⟩ | ⟨-, hgone, -⟩
  · rw [hwf.eq_of_id hx hy hid, hsearching] at hplaying
    cases hplaying
  · exact hgone (mem_sessionIds hy)

theorem InGame.map {f : SessionData → SessionData} (h : s.InGame id roomId side) (hdata : t.data = s.data.map f)
    (hsame : ∀ x ∈ s.data, x.state = .playing → f x = x) : t.InGame id roomId side := by
  obtain ⟨x, hx, hid, hstate, hrest⟩ := h
  refine ⟨x, ?_, hid, hstate, hrest⟩
  rw [hdata]
  exact List.mem_map.mpr ⟨x, hx, hsame x hx hstate⟩

theorem Gone.mono {history history' : History} (h : Gone s history id) (hnext : s.nextSessionId ≤ t.nextSessionId)
    (hids : ∀ id ∈ sessionIds t, id ∈ sessionIds s ∨ s.nextSessionId ≤ id) (hhistory : history ⊆ history') :
    Gone t history' id := by
  obtain ⟨hold, hnot, before, hmem⟩ := h
  refine ⟨hold.trans_le hnext, ?_, before, hhistory hmem⟩
  intro hid
  rcases hids id hid with hthere | hnew
  · exact hnot hthere
  · exact hnew.not_gt hold

/-- A session that asks to play, and the session it is paired with, do not play. -/
theorem LobbyStep.keeps_playing {black : PlayerId} (hwf : Wf s) (h : Queued s) (hstep : LobbyStep config s black t) :
    ∃ f, t.data = s.data.map f ∧ (∀ x, (f x).id = x.id) ∧ ∀ x ∈ s.data, x.state = .playing → f x = x := by
  cases hstep with
  | idle => exact ⟨fun x => x, (List.map_id' _).symm, fun _ => rfl, fun _ _ _ => rfl⟩
  | @login x _ _ player _ hmem hid hconnected _ _ _ _ _ =>
      refine ⟨_, data_loggedIn .., ?_, ?_⟩
      · intro y
        split
        · rfl
        · rfl
      · intro y hy hplaying
        apply if_neg
        intro hyid
        rw [hwf.eq_of_id hy hmem (hyid.trans hid.symm), hconnected] at hplaying
        cases hplaying
  | wait _ _ =>
      refine ⟨_, data_searching .., ?_, ?_⟩
      · intro y
        split
        · exact y.requestPlay_id
        · rfl
      · intro y _ hplaying
        split
        · rw [SessionData.requestPlay, if_neg (by simp [hplaying])]
        · rfl
  | @pair x y before after entry _ _ hasks hid hwaits _ hpartner hyid _ _ =>
      refine ⟨taken entry.session black s.rooms.nextId ∘ fun z => if z.id = black then z.requestPlay else z, ?_, ?_, ?_⟩
      · rw [data_matched, data_searching, List.map_map]
        rfl
      · intro z
        rw [Function.comp_apply, taken_id]
        split
        · exact z.requestPlay_id
        · rfl
      · intro z hz hplaying
        have hblack : z.id ≠ black := by
          intro hzid
          rw [hwf.eq_of_id hz hasks.mem (hzid.trans hid.symm), hasks.connected] at hplaying
          cases hplaying
        have hwhite : z.id ≠ entry.session := by
          intro hzid
          have hqueued : z.id ∈ s.queued := by
            rw [hzid, queued, hwaits]
            exact List.mem_map_of_mem (List.mem_append_right _ List.mem_cons_self)
          rw [h.exact, hwf.isSearching_iff hz, hplaying] at hqueued
          cases hqueued
        simp [taken, hblack, hwhite]

theorem plays_step {history : History} (hwf : Wf s) (h : Queued s) {op : ServerOp} (hop : LobbyOnly (.inr op))
    (hstep : OpStep config s op t) (hplays : s.InGame id roomId side ∨ Gone s history id) :
    t.InGame id roomId side ∨ Gone t (history ++ [(s, .inr op)]) id := by
  have hhistory : history ⊆ history ++ [(s, .inr op)] := List.subset_append_left _ _
  -- where the sessions change in place
  have hmapped : ∀ f : SessionData → SessionData, t.data = s.data.map f → (∀ x, (f x).id = x.id) →
      t.nextSessionId = s.nextSessionId → (∀ x ∈ s.data, x.state = .playing → f x = x) →
      t.InGame id roomId side ∨ Gone t (history ++ [(s, .inr op)]) id := by
    intro f hdata hid hnext hsame
    refine hplays.imp (·.map hdata hsame) fun hgone => ?_
    refine hgone.mono hnext.ge ?_ hhistory
    intro other hother
    rw [sessionIds_map hdata hid] at hother
    exact .inl hother
  cases hstep with
  | idle _ => exact hmapped (fun x => x) (List.map_id' _).symm (fun _ => rfl) rfl fun _ _ _ => rfl
  | accept backlog _ _ =>
      refine hplays.imp ?_ fun hgone => hgone.mono (Nat.le_succ _) ?_ hhistory
      · intro h
        obtain ⟨x, hx, hrest⟩ := h
        exact ⟨x, by rw [data_accepted]; exact List.mem_append_left _ hx, hrest⟩
      · intro other hother
        rw [sessionIds_eq, data_accepted, List.map_append, List.mem_append, ← sessionIds_eq] at hother
        exact hother.imp_right fun hnew => (List.mem_singleton.mp hnew).ge
  | lobby hlobby =>
      obtain ⟨f, hdata, hid, hsame⟩ := hlobby.keeps_playing hwf h
      refine hmapped f hdata hid ?_ hsame
      cases hlobby with
      | idle => rfl
      | login _ _ _ _ _ _ _ _ =>
          rw [loggedIn, registerSession_eq]
          rfl
      | wait _ _ => rfl
      | pair _ _ _ _ _ _ _ _ => rfl
  | timeouts =>
      refine hmapped _ (data_timedOut ..) (cancelSearches_id _) rfl ?_
      intro x _ hplaying
      unfold cancelSearches
      split
      · rw [SessionData.cancelSearch, if_neg (by simp [hplaying])]
      · rfl
  | @prune x hx =>
      rcases eq_or_ne id x.id with rfl | hne
      · refine .inr ⟨hwf.oldSessions _ (mem_sessionIds hx), ?_, s, List.mem_append_right _ List.mem_cons_self⟩
        rw [sessionIds_eq, data_pruned]
        simp
      · refine hplays.imp ?_ fun hgone => hgone.mono le_rfl ?_ hhistory
        · intro h
          obtain ⟨y, hy, rfl, hrest⟩ := h
          refine ⟨y, ?_, rfl, hrest⟩
          rw [data_pruned]
          exact List.mem_filter.mpr ⟨hy, by simpa using hne⟩
        · intro other hother
          rw [sessionIds_eq, data_pruned] at hother
          rw [sessionIds_eq]
          exact .inl ((List.filter_sublist.map _).subset hother)
  | join _ => cases hop
  | allocate _ _ => cases hop
  | tick _ _ => cases hop
  | inputs _ _ => cases hop
  | finish _ _ => cases hop
  | removeInactive => cases hop

/-- A match that a step of the lobby makes is between a session that waits and one that asks to play, and
both take their seats at once. -/
theorem matched_step (hwf : Wf s) (h : Queued s) {op : ServerOp} (hop : LobbyOnly (.inr op))
    (hstep : OpStep config s op t) {white black : PlayerId} (hnew : .matched white black roomId ∈ t.journal)
    (hold : .matched white black roomId ∉ s.journal) :
    white ≠ black ∧ t.InGame white roomId .white ∧ t.InGame black roomId .black := by
  cases hstep with
  | lobby hlobby =>
      cases hlobby with
      | login _ _ _ _ _ _ _ _ =>
          rw [loggedIn, registerSession_eq] at hnew
          exact absurd hnew hold
      | @pair x y before after entry whiteUser blackUser hasks hid hwaits _ hpartner hyid _ _ =>
          have hjournal : JournalEntry.matched white black roomId ∈
              s.journal ++ [.roomCreated s.rooms.nextId s.now] ++ [.matched entry.session _ s.rooms.nextId] := hnew
          simp only [List.mem_append, hold, List.mem_singleton, reduceCtorEq, false_or,
            JournalEntry.matched.injEq] at hjournal
          obtain ⟨rfl, rfl, rfl⟩ := hjournal
          have hne : entry.session ≠ x.id := by
            intro heq
            apply h.notMem_of_connected hwf hasks.mem hasks.connected
            rw [← heq, queued, hwaits]
            exact List.mem_map_of_mem (List.mem_append_right _ List.mem_cons_self)
          subst hid
          refine ⟨hne, ⟨playSide s.rooms.nextId .white y, ?_, hyid, rfl, rfl, rfl⟩,
            ⟨playSide s.rooms.nextId .black x.requestPlay, ?_, x.requestPlay_id, rfl, rfl, rfl⟩⟩
          · rw [data_matched, data_searching, List.map_map]
            refine List.mem_map.mpr ⟨y, hpartner, ?_⟩
            simp [hyid, hne, taken]
            rfl
          · rw [data_matched, data_searching, List.map_map]
            refine List.mem_map.mpr ⟨x, hasks.mem, ?_⟩
            simp [taken]
            rfl
      | idle => exact absurd hnew hold
      | wait _ _ => exact absurd hnew hold
  | idle _ => exact absurd hnew hold
  | accept _ _ _ => exact absurd hnew hold
  | timeouts => exact absurd hnew hold
  | prune _ => exact absurd hnew hold
  | join _ => cases hop
  | allocate _ _ => cases hop
  | tick _ _ => cases hop
  | inputs _ _ => cases hop
  | finish _ _ => cases hop
  | removeInactive => cases hop

theorem MatchesSeated.congr {history history' : History} (h : MatchesSeated s history) (hdata : t.data = s.data)
    (hwaiting : t.waiting = s.waiting) (hnext : t.nextSessionId = s.nextSessionId)
    (hjournal : t.journal = s.journal) (hhistory : history ⊆ history') : MatchesSeated t history' := by
  have hids : ∀ other ∈ sessionIds t, other ∈ sessionIds s ∨ s.nextSessionId ≤ other := by
    intro other hother
    rw [sessionIds_eq, hdata, ← sessionIds_eq] at hother
    exact .inl hother
  have hseat : ∀ id roomId side, Seated s history id roomId side → Seated t history' id roomId side := by
    intro id roomId side h
    obtain ⟨hplays, hnot⟩ := h
    refine ⟨hplays.imp ?_ (·.mono hnext.ge hids hhistory), ?_⟩
    · intro h
      obtain ⟨x, hx, hrest⟩ := h
      exact ⟨x, hdata ▸ hx, hrest⟩
    · rw [queued, hwaiting]
      exact hnot
  intro white black roomId hmatched
  rw [hjournal] at hmatched
  obtain ⟨hne, hwhite, hblack⟩ := h white black roomId hmatched
  exact ⟨hne, hseat _ _ _ hwhite, hseat _ _ _ hblack⟩

/-- In every state that the lobby, the timeouts and the client plane lead to, the queue holds the sessions
that search, each once, and the players of a match have left it for the two sides of one room. -/
theorem queue_matches_sessions {users : UserRepository} {games : GameRepository} {now : Nat}
    {script : List (List NetEvent)} {w : ServerWorld config}
    (hleads : Leads { state := boot users games now, script } w) (honly : ∀ x ∈ w.history, LobbyOnly x.2) :
    Queued w.state ∧ MatchesSeated w.state w.history := by
  have hstart : Queued (boot users games now) := ⟨List.nodup_nil, by simp [boot, queued, IsSearching, data]⟩
  refine (invariant (P := fun s history => Queued s ∧ MatchesSeated s history) (C := fun _ x => LobbyOnly x)
    ?_ ?_ ?_ hleads (.boot users games now) ⟨hstart, ?_⟩ honly).2
  · intro s s' history hbare h
    obtain ⟨hqueued, hseated⟩ := h
    have hrest := eq_of_bare hbare
    exact ⟨hqueued.of_bare hbare, hseated.congr (data_eq_of_bare hbare) (by rw [hrest]) (by rw [hrest])
      (by rw [hrest]) (List.Subset.refl _)⟩
  · intro s history backlog now event h
    obtain ⟨hqueued, hseated⟩ := h
    exact ⟨hqueued.congr rfl fun _ => Iff.rfl, hseated.congr rfl rfl rfl rfl (List.subset_append_left _ _)⟩
  · intro s history op t hwf h
    obtain ⟨hqueued, hseated⟩ := h
    intro honly hstep
    have hqueued' : Queued t := by
      apply hqueued.step hwf hstep
      intro x roomId side h
      obtain rfl := h
      cases honly
    refine ⟨hqueued', ?_⟩
    intro white black roomId hmatched
    by_cases hold : .matched white black roomId ∈ s.journal
    · obtain ⟨hne, hwhite, hblack⟩ := hseated white black roomId hold
      exact ⟨hne, .of_queued (hwf.step hstep) hqueued' (plays_step hwf hqueued honly hstep hwhite.plays),
        .of_queued (hwf.step hstep) hqueued' (plays_step hwf hqueued honly hstep hblack.plays)⟩
    · obtain ⟨hne, hwhite, hblack⟩ := matched_step hwf hqueued honly hstep hmatched hold
      exact ⟨hne, .of_queued (hwf.step hstep) hqueued' (.inl hwhite), .of_queued (hwf.step hstep) hqueued' (.inl hblack)⟩
  · intro white black roomId hmatched
    cases hmatched

/-- Two clients are matched while a third waits. -/
theorem queue_matches_sessions_third_waits :
    ∃ w : ServerWorld sampleConfig, w.state.queued = [2] ∧ .matched 0 1 1 ∈ w.state.journal ∧ Queued w.state ∧
      MatchesSeated w.state w.history := by
  have hrun : (serve sampleConfig (List.replicate 5 .gatewayTick)).reaches
      (sampleWorld ([[.connect, .connect, .connect]] ++ quiet 20 ++
        [[say 0 "login ann x", say 1 "login bob y", say 2 "login cat z"]] ++ quiet 7 ++
        [[say 0 "play", say 1 "play", say 2 "play"]]))
      (fun _ w => decide (w.state.queued = [2] ∧ .matched 0 1 1 ∈ w.state.journal ∧
        ∀ x ∈ w.history, LobbyOnly x.2)) = true := by
    decide +kernel
  obtain ⟨_, w, hrun, hw⟩ := Prog.reaches_eq_true hrun
  obtain ⟨hqueued, hmatched, honly⟩ := of_decide_eq_true hw
  exact ⟨w, hqueued, hmatched, queue_matches_sessions (Leads.of_run hrun) honly⟩

end Server

end KungFuChess
