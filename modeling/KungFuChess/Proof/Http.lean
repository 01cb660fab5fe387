import KungFuChess.Lib.Histories
import KungFuChess.Proof.Codec
import KungFuChess.Proof.Fleet
import KungFuChess.Proof.Searchers
import KungFuChess.Model.Http

/-!
# Calls over HTTP

The gateway and the matchmaker mean by their requests what the model with direct calls says. What is sent is read on the
other side as what was called with, as long as the numbers fit their types and no name has a bar in it. So every run of
the two over HTTP is a run of the two that call each other, and what holds of the latter holds of the former.

It takes endpoints without a path. One with a path sends all its requests there.
-/

namespace KungFuChess

open Histories

/-! ### Endpoints -/

/-- A host, and perhaps a port. -/
def BareEndpoint (endpoint : Text) : Prop :=
  httpScheme <+: endpoint ∧ '/' ∉ endpoint.drop httpScheme.length

instance (endpoint : Text) : Decidable (BareEndpoint endpoint) := inferInstanceAs (Decidable (_ ∧ _))

/-- What comes after the host and the port. -/
def pathOf (endpoint : Text) : Text := (endpoint.drop httpScheme.length).dropWhile (· ≠ '/')

theorem pathOf_bare {endpoint : Text} (h : BareEndpoint endpoint) : pathOf endpoint = [] := by
  refine List.dropWhile_eq_nil_iff.mpr fun c hc => ?_
  rw [decide_eq_true_iff]
  rintro rfl
  exact h.2 hc

theorem parseEndpoint_target {endpoint : Text} (hscheme : httpScheme <+: endpoint) (path : Text) :
    ∃ parsed, parseEndpoint endpoint path = some parsed ∧
      parsed.target = if (pathOf endpoint).isEmpty then path else pathOf endpoint := by
  unfold parseEndpoint
  rw [List.isPrefixOf_iff_prefix.mpr hscheme]
  dsimp only
  rw [if_neg (by decide)]
  split
  · exact ⟨_, rfl, rfl⟩
  · exact ⟨_, rfl, rfl⟩

theorem postText_eq {endpoint : Text} (hscheme : httpScheme <+: endpoint) (path body : Text) :
    postText endpoint path body =
      some { verb := .post, target := if (pathOf endpoint).isEmpty then path else pathOf endpoint, body } := by
  obtain ⟨parsed, hparsed, htarget⟩ := parseEndpoint_target hscheme path
  rw [postText, hparsed, Option.map_some, htarget]

theorem postText_bare {endpoint : Text} (h : BareEndpoint endpoint) (path body : Text) :
    postText endpoint path body = some { verb := .post, target := path, body } := by
  rw [postText_eq h.1, pathOf_bare h]
  rfl

theorem postText_unparsed {endpoint : Text} (hscheme : ¬httpScheme <+: endpoint) (path body : Text) :
    postText endpoint path body = none := by
  have hnot : httpScheme.isPrefixOf endpoint = false := by
    rw [← Bool.not_eq_true, List.isPrefixOf_iff_prefix]
    exact hscheme
  unfold postText parseEndpoint
  rw [hnot]
  rfl

/-- With a path of `join` the request to leave is one to join. -/
example : (MatchmakingHttpClient.leave "http://matchmaker:9100/matchmaking/join".toList 7 "eu".toList).map (·.target) =
    some joinPath := by
  decide +kernel

/-! ### What is read of a request -/

/-- More fields after those that are asked for. -/
theorem fieldAt_joinFields_append {field : Text} {fields : List Text} (hplain : ∀ text ∈ field :: fields, Plain text)
    (rest : Text) {index : Nat} (hindex : index ≤ fields.length) :
    fieldAt (joinFields field fields ++ '|' :: rest) index = (field :: fields)[index]? := by
  induction fields generalizing field index with
  | nil =>
      obtain rfl := Nat.le_zero.mp hindex
      exact congrArg some ((hplain field List.mem_cons_self).takeWhile rest)
  | cons next fields ih =>
      have hfield := hplain field List.mem_cons_self
      rw [joinFields, List.append_assoc, List.cons_append]
      cases index with
      | zero => exact congrArg some (hfield.takeWhile _)
      | succ index =>
          rw [fieldAt, hfield.dropWhile]
          exact ih (fun text htext => hplain text (List.mem_cons_of_mem _ htext)) (Nat.le_of_succ_le_succ hindex)

/-- The fourth field ends with the next bar. -/
theorem fieldAt_encodeMatchRequest (request : MatchRequest) {index : Nat} (hindex : index ≤ 3) :
    fieldAt (encodeMatchRequest request) index =
      [decimal request.playerId, decimal request.userId, signedDecimal request.elo, request.onWire.region][index]? := by
  have hregion : Plain request.onWire.region := by
    intro hmem
    have hbar := List.mem_takeWhile_imp hmem
    simp at hbar
  have hplain : ∀ text ∈ decimal request.playerId ::
      [decimal request.userId, signedDecimal request.elo, request.onWire.region], Plain text := by
    simp [hregion, plain_decimal, plain_signedDecimal]
  have hsplit : request.onWire.region ++ request.region.dropWhile (fun c => c != '|') = request.region :=
    List.takeWhile_append_dropWhile
  have hvalue : encodeMatchRequest request =
      joinFields (decimal request.playerId) [decimal request.userId, signedDecimal request.elo, request.onWire.region] ++
        request.region.dropWhile (fun c => c != '|') := by
    unfold encodeMatchRequest
    conv_lhs => rw [← hsplit]
    simp [joinFields]
  rw [hvalue]
  cases hrest : request.region.dropWhile fun c => c != '|' with
  | nil =>
      rw [List.append_nil]
      exact fieldAt_joinFields hplain index
  | cons c rest =>
      have hbar : (c != '|') = false := by
        have hhead := List.head?_dropWhile_not (fun c => c != '|') request.region
        rw [hrest] at hhead
        exact hhead
      obtain rfl : c = '|' := by simpa using hbar
      exact fieldAt_joinFields_append hplain rest hindex

theorem decodeMatchRequest_onWire {request : MatchRequest} (hfits : request.Fits) :
    decodeMatchRequest (encodeMatchRequest request) = some request.onWire := by
  obtain ⟨hplayer, huser, helo⟩ := hfits
  unfold decodeMatchRequest
  rw [fieldAt_encodeMatchRequest request (by decide), fieldAt_encodeMatchRequest request (by decide),
    fieldAt_encodeMatchRequest request (by decide), fieldAt_encodeMatchRequest request (by decide)]
  change (parseIntegral (decimal request.playerId)).bind (fun playerId =>
    (parseIntegral (decimal request.userId)).bind fun userId =>
      (stoi (signedDecimal request.elo)).bind fun elo =>
        some (MatchRequest.mk playerId userId elo request.onWire.region)) = _
  rw [parseIntegral_decimal hplayer, parseIntegral_decimal huser, stoi_signedDecimal helo]
  rfl

namespace Server

variable {config : ServerConfig} {region : Text} {s t : Server} {id : PlayerId} {request : MatchRequest}

/-- The numbers of the sessions are of their types. -/
def SessionsFit (s : Server) : Prop :=
  ∀ x ∈ s.data, x.id < 2 ^ 64 ∧ ∀ user ∈ x.user, user.userId < 2 ^ 64 ∧ IsInt32 user.profile.rating

instance (s : Server) : Decidable s.SessionsFit := inferInstanceAs (Decidable (∀ x ∈ s.data, _ ∧ _))

theorem fits_of_session (hfits : s.SessionsFit) {x : SessionData} (hx : x ∈ s.data) (region : Text) :
    (MatchRequest.mk x.id (x.userId.getD 0) x.rating region).Fits := by
  obtain ⟨hid, huser⟩ := hfits x hx
  have hzero : (0 : Nat) < 2 ^ 64 ∧ IsInt32 0 := by decide
  unfold MatchRequest.Fits SessionData.userId SessionData.rating
  cases hsome : x.user with
  | none => exact ⟨hid, hzero⟩
  | some user => exact ⟨hid, huser user hsome⟩

theorem askToPlay_fits (hfits : s.SessionsFit) (h : s.askToPlay region id = (some request, t)) : request.Fits := by
  unfold askToPlay at h
  dsimp only at h
  rw [findSession_modifyData s id id SessionData.requestPlay_id] at h
  cases hfind : s.findSession id with
  | none =>
      rw [hfind] at h
      cases h
  | some x =>
      obtain ⟨hmem, rfl⟩ := data_of_findSession hfind
      rw [hfind, Option.map_some, if_pos rfl] at h
      dsimp only at h
      split at h
      · cases h
        have hsame := fits_of_session hfits hmem region
        rw [SessionData.userId, SessionData.rating] at hsame ⊢
        rw [x.requestPlay_user]
        exact hsame
      · cases h

/-- What the lobby asks for is of the types. -/
theorem lobbyRoundRemote_fits (hfits : s.SessionsFit) (h : s.lobbyRoundRemote config region id = (some request, t)) :
    request.Fits := by
  unfold lobbyRoundRemote at h
  split at h
  · cases h
  split at h
  · cases h
  have hdata := data_eq_of_bare (bare_tryRead s .lobby id)
  split at h
  · cases h
  · rename_i message s' hread
    rw [hread] at hdata
    have hfits' : s'.SessionsFit := by
      unfold SessionsFit
      rw [hdata]
      exact hfits
    split at h
    · cases h
    split at h
    · split at h
      · cases h
      · cases h
    split at h
    · exact askToPlay_fits hfits' h
    · cases h

/-- Whoever leaves has a number of its type. -/
theorem leave_fits (hfits : s.SessionsFit) (h : s.leavesSearch id = true) (region : Text) :
    (MatchRequest.mk id 0 0 region).Fits := by
  have hzero : (0 : Nat) < 2 ^ 64 ∧ IsInt32 0 := by decide
  unfold leavesSearch at h
  cases hfind : s.findSession id with
  | none =>
      rw [hfind] at h
      cases h
  | some x =>
      obtain ⟨hmem, rfl⟩ := data_of_findSession hfind
      exact ⟨(hfits _ hmem).1, hzero⟩

end Server

/-! ### What is sent and what is meant -/

/-- The notice can be written: its numbers are of their types and its names have no bars. -/
def GatewayNotice.Fits : GatewayNotice → Prop
  | .matchFound notification => notification.Fits ∧ Plain notification.serverId ∧ Plain notification.endpoint
  | .searchTimeout playerId => playerId < 2 ^ 64

instance : (notice : GatewayNotice) → Decidable notice.Fits
  | .matchFound _ => inferInstanceAs (Decidable (_ ∧ _ ∧ _))
  | .searchTimeout _ => inferInstanceAs (Decidable (_ < _))

/-- The request to the matchmaker is read as the one that is meant. -/
inductive GatewayRequest.SentAs : GatewayRequest → WireRequest → Prop where
  | join {request : MatchRequest} {awaited : Bool} {body : Text} (read : decodeMatchRequest body = some request) :
      SentAs (.join request awaited) ⟨{ verb := .post, target := joinPath, body }, awaited⟩
  | leave {request : MatchRequest} {body : Text} (read : decodeMatchRequest body = some request) :
      SentAs (.leave request.playerId request.region) ⟨{ verb := .post, target := leavePath, body }, false⟩

inductive GatewayNotice.SentAs : GatewayNotice → HttpRequest → Prop where
  | matchFound {notification : MatchNotification} {body : Text}
      (read : decodeMatchNotification body = some notification) :
      SentAs (.matchFound notification) { verb := .post, target := notifyMatchPath, body }
  | searchTimeout {playerId : PlayerId} {body : Text} (read : decodeTimeoutNotification body = some playerId) :
      SentAs (.searchTimeout playerId) { verb := .post, target := notifyTimeoutPath, body }

/-- What the matchmaker throws is a connection that it closes. -/
inductive AnsweredAs : Option (Except AllocationFailure MatchResponse) → Option (Option HttpResponse) → Prop where
  | pending : AnsweredAs none none
  | thrown (failure : AllocationFailure) : AnsweredAs (some (.error failure)) (some none)
  | answered {response : MatchResponse} {posted : HttpResponse}
      (read : MatchmakingHttpClient.joined posted = some response) : AnsweredAs (some (.ok response)) (some (some posted))

def JoinCall.SentAs (call : JoinCall) (sent : WireCall) : Prop :=
  call.session = sent.session ∧ AnsweredAs call.outcome sent.answer

theorem GatewayRequest.SentAs.isAwaited {request : GatewayRequest} {posted : WireRequest} (h : request.SentAs posted) :
    request.isAwaited = posted.awaited := by
  cases h with
  | join _ => rfl
  | leave _ => rfl

theorem GatewayRequest.SentAs.abandon {request : GatewayRequest} {posted : WireRequest} (h : request.SentAs posted) :
    request.abandon.SentAs { posted with awaited := false } := by
  cases h with
  | join hread => exact .join hread
  | leave hread => exact .leave hread

theorem GatewayNotice.Fits.notify {notice : GatewayNotice} (hfits : notice.Fits) {endpoint : Text}
    (hbare : BareEndpoint endpoint) :
    ∃ posted, GatewayNotifierHttpClient.notify endpoint notice = some posted ∧ notice.SentAs posted := by
  cases notice with
  | matchFound notification =>
      obtain ⟨hnumbers, hserver, hendpoint⟩ := hfits
      exact ⟨_, postText_bare hbare _ _, .matchFound (decode_encodeMatchNotification hnumbers hserver hendpoint)⟩
  | searchTimeout playerId =>
      exact ⟨_, postText_bare hbare _ _, .searchTimeout (decode_encodeTimeoutNotification hfits)⟩

theorem notices_sentAs {notices : List GatewayNotice} (hfits : ∀ notice ∈ notices, notice.Fits) {endpoint : Text}
    (hbare : BareEndpoint endpoint) :
    List.Forall₂ GatewayNotice.SentAs notices (notices.filterMap (GatewayNotifierHttpClient.notify endpoint)) := by
  induction notices with
  | nil => exact .nil
  | cons notice notices ih =>
      obtain ⟨posted, hposted, hsent⟩ := (hfits notice List.mem_cons_self).notify hbare
      rw [List.filterMap_cons_some hposted]
      exact .cons hsent (ih fun later hlater => hfits later (List.mem_cons_of_mem _ hlater))

/-- The gateway does what it is told. -/
theorem GatewayNotice.SentAs.handle {notice : GatewayNotice} {posted : HttpRequest} (h : notice.SentAs posted)
    (server : Server) :
    (GatewayNotificationListener.handle server posted).2 = GatewayNotificationHandler.handle server notice := by
  unfold GatewayNotificationListener.handle
  cases h with
  | matchFound hread =>
      rw [if_neg (not_not.mpr rfl), if_pos rfl, hread]
      rfl
  | searchTimeout hread =>
      have hother : notifyTimeoutPath ≠ notifyMatchPath := by decide
      rw [if_neg (not_not.mpr rfl), if_neg hother, if_pos rfl, hread]
      rfl

theorem joined_encodeMatchResponse {response : MatchResponse} (hmessage : Plain response.message) :
    MatchmakingHttpClient.joined ⟨.ok, encodeMatchResponse response⟩ = some response := by
  unfold MatchmakingHttpClient.joined HttpResponse.text
  rw [if_pos rfl, Option.bind_some]
  exact decode_encodeMatchResponse hmessage

/-- The matchmaker does what it is asked for, and what `enter_queue` answers comes back as it was. -/
theorem handle_join {request : MatchRequest} {body : Text} (hread : decodeMatchRequest body = some request)
    (service : RemoteMatchmakingService) (allocateGame : Allocator) (now : Int) :
    ∃ answer, MatchmakingHttpServer.handle service allocateGame now { verb := .post, target := joinPath, body } =
        (answer, (service.enterQueue allocateGame now request).2) ∧
      AnsweredAs (some (service.enterQueue allocateGame now request).1) (some answer) := by
  have hqueued : Plain "queued".toList := by decide +kernel
  have hmatched : Plain "matched".toList := by decide +kernel
  have hentered := RemoteMatchmakingService.enterQueue_entered service allocateGame now request
  unfold MatchmakingHttpServer.handle
  rw [if_neg (not_not.mpr rfl), if_pos rfl, hread]
  dsimp only
  generalize service.enterQueue allocateGame now request = entered at hentered
  cases hentered with
  | queued => exact ⟨_, rfl, .answered (joined_encodeMatchResponse hqueued)⟩
  | failed => exact ⟨_, rfl, .thrown _⟩
  | matched => exact ⟨_, rfl, .answered (joined_encodeMatchResponse hmatched)⟩

theorem handle_leave {request : MatchRequest} {body : Text} (hread : decodeMatchRequest body = some request)
    (service : RemoteMatchmakingService) (allocateGame : Allocator) (now : Int) :
    (MatchmakingHttpServer.handle service allocateGame now { verb := .post, target := leavePath, body }).2 =
      service.leaveQueue request.playerId request.region := by
  have hother : leavePath ≠ joinPath := by decide
  unfold MatchmakingHttpServer.handle
  rw [if_neg (not_not.mpr rfl), if_neg hother, if_pos rfl, hread]

namespace WireSystem

/-! ### Two lists of what is under way -/

section Lists

variable {α β : Type} {R : α → β → Prop} {meant : List α} {sent : List β}

theorem rel_getElem? (h : List.Forall₂ R meant sent) (index : Nat) : Option.Rel R meant[index]? sent[index]? := by
  induction h generalizing index with
  | nil => exact .none
  | cons hhead _ ih =>
      cases index with
      | zero => exact .some hhead
      | succ index => exact ih index

theorem rel_eraseIdx (h : List.Forall₂ R meant sent) (index : Nat) :
    List.Forall₂ R (meant.eraseIdx index) (sent.eraseIdx index) := by
  rw [List.eraseIdx_eq_take_drop_succ, List.eraseIdx_eq_take_drop_succ]
  exact List.rel_append (List.forall₂_take index h) (List.forall₂_drop (index + 1) h)

theorem rel_concat (h : List.Forall₂ R meant sent) {a : α} {b : β} (hnew : R a b) :
    List.Forall₂ R (meant ++ [a]) (sent ++ [b]) := List.rel_append h (.cons hnew .nil)

end Lists

variable {config : WireConfig} {w : WireSystem} {s : GatewaySystem}

/-- The two over HTTP are where the two are that call each other, and all that is under way is what is meant. -/
structure Carries (w : WireSystem) (s : GatewaySystem) : Prop where
  gateway : w.gateway = s.gateway
  matchmaker : w.matchmaker = s.matchmaker
  requests : List.Forall₂ GatewayRequest.SentAs s.requests w.requests
  call : Option.Rel JoinCall.SentAs s.call w.call
  notices : List.Forall₂ GatewayNotice.SentAs s.notices w.notices

/-- What is there can be written. -/
def Writable (s : GatewaySystem) : Prop := s.gateway.SessionsFit ∧ ∀ notice ∈ s.matchmaker.sent, notice.Fits

instance (s : GatewaySystem) : Decidable (Writable s) := inferInstanceAs (Decidable (_ ∧ _))

namespace Carries

theorem boot (users : UserRepository) (games : GameRepository) (now : Nat) (settings : MatchmakingConfig)
    (gatewayServerId : Text) :
    Carries (WireSystem.boot users games now settings gatewayServerId)
      (GatewaySystem.boot users games now settings gatewayServerId) :=
  ⟨rfl, rfl, .nil, .none, .nil⟩

theorem isSome_call (h : Carries w s) : w.call.isSome = s.call.isSome := by
  have hcall := h.call
  generalize s.call = call at hcall
  generalize w.call = sent at hcall
  cases hcall with
  | none => rfl
  | some _ => rfl

theorem whenFree (h : Carries w s) {w' : WireSystem} {s' : GatewaySystem} (hnext : Carries w' s') :
    Carries (w.whenFree w') (s.whenFree s') := by
  unfold WireSystem.whenFree GatewaySystem.whenFree
  rw [h.isSome_call]
  split
  · exact h
  · exact hnext

theorem gatewayDoes (h : Carries w s) (f : Server → Server) :
    Carries { w with gateway := f w.gateway } { s with gateway := f s.gateway } :=
  ⟨congrArg f h.gateway, h.matchmaker, h.requests, h.call, h.notices⟩

theorem serve (h : Carries w s) (hendpoint : BareEndpoint config.notificationEndpoint)
    (matchmaker : RemoteMatchmakingService) (hfits : ∀ notice ∈ matchmaker.sent, notice.Fits) :
    Carries (w.serve config matchmaker) (s.serve matchmaker) := by
  refine ⟨h.gateway, rfl, h.requests, h.call, List.rel_append h.notices ?_⟩
  rw [h.matchmaker]
  exact notices_sentAs (fun notice hnotice => hfits notice (List.mem_of_mem_drop hnotice)) hendpoint

theorem lobby (h : Carries w s) (hendpoint : BareEndpoint config.matchmakerEndpoint) (hfits : s.gateway.SessionsFit)
    (id : PlayerId) :
    Carries (w.step config (.lobby id)) (s.step config.server config.region (.lobby id)) := by
  refine h.whenFree ?_
  rw [h.gateway]
  cases hround : s.gateway.lobbyRoundRemote config.server config.region id with
  | mk asked gateway =>
      cases asked with
      | none => exact ⟨rfl, h.matchmaker, h.requests, h.call, h.notices⟩
      | some request =>
          have hposted := postText_bare hendpoint joinPath (encodeMatchRequest request)
          dsimp only
          rw [MatchmakingHttpClient.join, hposted]
          have hread := decodeMatchRequest_onWire (Server.lobbyRoundRemote_fits hfits hround)
          exact ⟨rfl, h.matchmaker, rel_concat h.requests (.join hread), .some ⟨rfl, .pending⟩, h.notices⟩

theorem prune (h : Carries w s) (hendpoint : BareEndpoint config.matchmakerEndpoint) (hfits : s.gateway.SessionsFit)
    (id : PlayerId) :
    Carries (w.step config (.prune id)) (s.step config.server config.region (.prune id)) := by
  refine h.whenFree ⟨congrArg (·.pruneSession id) h.gateway, h.matchmaker, ?_, h.call, h.notices⟩
  rw [h.gateway]
  split
  · rename_i hleaves
    have hposted := postText_bare hendpoint leavePath (encodeMatchRequest ⟨id, 0, 0, config.region⟩)
    rw [MatchmakingHttpClient.leave, hposted]
    exact rel_concat h.requests (.leave (decodeMatchRequest_onWire (Server.leave_fits hfits hleaves config.region)))
  · exact h.requests

theorem joinReturns (h : Carries w s) :
    Carries (w.step config .joinReturns) (s.step config.server config.region .joinReturns) := by
  have hcall := h.call
  unfold WireSystem.step GatewaySystem.step
  dsimp only
  generalize s.call = call at hcall ⊢
  generalize w.call = sent at hcall ⊢
  cases hcall with
  | none => exact h
  | some hsent =>
      rename_i call sent
      obtain ⟨session, outcome⟩ := call
      obtain ⟨session', answer⟩ := sent
      obtain ⟨hsession, hanswer⟩ := hsent
      obtain rfl : session = session' := hsession
      cases hanswer with
      | pending => exact h
      | thrown failure => exact h
      | answered hread =>
          dsimp only
          rw [h.gateway, hread]
          exact ⟨rfl, h.matchmaker, h.requests, .none, h.notices⟩

theorem joinFails (h : Carries w s) (arrives : Bool) :
    Carries (w.step config (.joinFails arrives)) (s.step config.server config.region (.joinFails arrives)) := by
  have hcall := h.call
  unfold WireSystem.step GatewaySystem.step
  dsimp only
  generalize s.call = call at hcall ⊢
  generalize w.call = sent at hcall ⊢
  cases hcall with
  | none => exact h
  | some hsent =>
      obtain ⟨hsession, -⟩ := hsent
      dsimp only
      rw [h.gateway, hsession]
      refine ⟨rfl, h.matchmaker, ?_, .none, h.notices⟩
      cases arrives with
      | true => exact List.rel_map (fun _ _ hposted => hposted.abandon) h.requests
      | false =>
          refine List.rel_filter (fun request posted hposted => ?_) h.requests
          dsimp only
          rw [hposted.isAwaited]

theorem answered (h : Carries w s) {outcome : Except AllocationFailure MatchResponse} {answer : Option HttpResponse}
    (hanswered : AnsweredAs (some outcome) (some answer)) :
    Option.Rel JoinCall.SentAs (s.call.map ({ · with outcome := some outcome }))
      (w.call.map ({ · with answer := some answer })) := by
  have hcall := h.call
  generalize s.call = call at hcall ⊢
  generalize w.call = sent at hcall ⊢
  cases hcall with
  | none => exact .none
  | some hsent => exact .some ⟨hsent.1, hanswered⟩

theorem execute (h : Carries w s) (hendpoint : BareEndpoint config.notificationEndpoint) (index : Nat)
    (allocateGame : Allocator) (now : Int)
    (hfits : ∀ notice ∈ (s.execute index allocateGame now).matchmaker.sent, notice.Fits) :
    Carries (w.execute config index allocateGame now) (s.execute index allocateGame now) := by
  have hrequest := rel_getElem? h.requests index
  have herase := rel_eraseIdx h.requests index
  unfold WireSystem.execute
  unfold GatewaySystem.execute at hfits ⊢
  generalize s.requests[index]? = request at hrequest hfits ⊢
  generalize w.requests[index]? = posted at hrequest ⊢
  rw [h.matchmaker]
  cases hrequest with
  | none => exact h
  | some hsent =>
      cases hsent with
      | leave hread =>
          have hserved := h.serve hendpoint _ hfits
          dsimp only
          rw [handle_leave hread]
          exact ⟨hserved.gateway, hserved.matchmaker, herase, hserved.call, hserved.notices⟩
      | join hread =>
          obtain ⟨answer, hhandle, hanswered⟩ := handle_join hread s.matchmaker allocateGame now
          have hserved := h.serve hendpoint _ hfits
          dsimp only
          rw [hhandle]
          refine ⟨hserved.gateway, hserved.matchmaker, herase, ?_, hserved.notices⟩
          dsimp only
          split
          · exact h.answered hanswered
          · exact h.call

theorem deliver (h : Carries w s) (index : Nat) :
    Carries (w.step config (.deliver index)) (s.step config.server config.region (.deliver index)) := by
  have hnotice := rel_getElem? h.notices index
  unfold WireSystem.step GatewaySystem.step
  dsimp only
  generalize s.notices[index]? = notice at hnotice ⊢
  generalize w.notices[index]? = posted at hnotice ⊢
  cases hnotice with
  | none => exact h
  | some hsent =>
      dsimp only
      rw [hsent.handle, h.gateway]
      exact ⟨rfl, h.matchmaker, h.requests, h.call, rel_eraseIdx h.notices index⟩

/-- A step over HTTP is a step of the two that call each other. -/
theorem step (h : Carries w s) (hmatchmaker : BareEndpoint config.matchmakerEndpoint)
    (hnotification : BareEndpoint config.notificationEndpoint) (event : GatewayStep) (hbefore : Writable s)
    (hafter : Writable (s.step config.server config.region event)) :
    Carries (w.step config event) (s.step config.server config.region event) := by
  cases event with
  | net event => exact h.gatewayDoes (·.occur event)
  | accept => exact h.whenFree (h.gatewayDoes (·.acceptNewClients config.server))
  | lobby id => exact h.lobby hmatchmaker hbefore.1 id
  | pruneDisconnected => exact h.whenFree (h.gatewayDoes (·.pruneDisconnected))
  | prune id => exact h.prune hmatchmaker hbefore.1 id
  | joinReturns => exact h.joinReturns
  | joinFails arrives => exact h.joinFails arrives
  | execute index allocateGame now => exact h.execute hnotification index allocateGame now hafter.2
  | processQueue now region =>
      have hserved := h.serve hnotification (s.matchmaker.processQueue now region) hafter.2
      unfold WireSystem.step
      rw [h.matchmaker]
      exact hserved
  | deliver index => exact h.deliver index
  | lose index => exact ⟨h.gateway, h.matchmaker, h.requests, h.call, rel_eraseIdx h.notices index⟩

end Carries

/-- Every run over HTTP is a run of the two that call each other: the sessions and the queues are the same after it, and
what is under way is what is meant. -/
theorem http_run_is_called_run {config : WireConfig} {users : UserRepository} {games : GameRepository} {now : Nat}
    {settings : MatchmakingConfig} {gatewayServerId : Text} {steps : List GatewayStep}
    (hmatchmaker : BareEndpoint config.matchmakerEndpoint) (hnotification : BareEndpoint config.notificationEndpoint)
    (hwritable : Throughout (GatewaySystem.step config.server config.region) Writable
      (.boot users games now settings gatewayServerId) steps) :
    Carries ((boot users games now settings gatewayServerId).run config steps)
      ((GatewaySystem.boot users games now settings gatewayServerId).run config.server config.region steps) :=
  hwritable.simulates (.boot users games now settings gatewayServerId) fun _ _ event hcarries hbefore hafter =>
    hcarries.step hmatchmaker hnotification event hbefore hafter

/-- Two players are paired over HTTP. -/
theorem http_run_is_called_run_paired :
    let takes : Allocator := fun _ => .ok ⟨5, "a".toList, some "ws://a".toList⟩
    let steps := GatewaySystem.untilQueued ++ GatewaySystem.comesToPlay 1 "login bob y" ++
      [.execute 0 takes 1, .deliver 0, .joinReturns]
    let config : WireConfig :=
      ⟨sampleConfig, "eu".toList, "http://matchmaker:9100".toList, "http://gateway:9101".toList⟩
    let w := (boot {} {} 0 {} "gateway".toList).run config steps
    w.gateway.data.map (·.state) = [.playing, .playing] ∧
      Carries w ((GatewaySystem.boot {} {} 0 {} "gateway".toList).run sampleConfig "eu".toList steps) := by
  intro takes steps config w
  have hplaying : w.gateway.data.map (·.state) = [.playing, .playing] := by decide +kernel
  have hwritable : Throughout (GatewaySystem.step sampleConfig "eu".toList) Writable
      (.boot {} {} 0 {} "gateway".toList) steps := by
    decide +kernel
  have hmatchmaker : BareEndpoint config.matchmakerEndpoint := by decide +kernel
  have hnotification : BareEndpoint config.notificationEndpoint := by decide +kernel
  exact ⟨hplaying, http_run_is_called_run hmatchmaker hnotification hwritable⟩

end WireSystem

/-! ### Game servers -/

/-- The request comes to the server, which takes the token. -/
def Reaches (expected : Text → Text) (serviceToken endpoint : Text) : Prop :=
  httpScheme <+: endpoint ∧ (pathOf endpoint = [] ∨ pathOf endpoint = allocatePath) ∧
    (expected endpoint = [] ∨ serviceToken = expected endpoint)

instance (expected : Text → Text) (serviceToken endpoint : Text) : Decidable (Reaches expected serviceToken endpoint) :=
  inferInstanceAs (Decidable (_ ∧ (_ ∨ _) ∧ (_ ∨ _)))

namespace Fleet

variable {expected : Text → Text} {serviceToken endpoint : Text} {request : Server.GameCreationRequest} {fleet : Fleet}

theorem serviceTokenIsValid_iff {posted : HttpRequest} {expectedToken : Text}
    (hposted : posted.serviceToken = if serviceToken.isEmpty then none else some serviceToken) :
    serviceTokenIsValid posted expectedToken = true ↔ expectedToken = [] ∨ serviceToken = expectedToken := by
  unfold serviceTokenIsValid
  rw [hposted]
  cases expectedToken with
  | nil => simp
  | cons c rest =>
      cases serviceToken with
      | nil => simp
      | cons d rest' => simp

theorem target_eq_allocatePath_iff {path : Text} :
    (if path.isEmpty then allocatePath else path) = allocatePath ↔ path = [] ∨ path = allocatePath := by
  cases path with
  | nil => simp
  | cons c rest => simp

/-- A request is taken exactly if it comes to the server with the token. -/
theorem accept_posted (hscheme : httpScheme <+: endpoint) (hfits : request.Fits) :
    ∃ posted, GameAllocationHttpClient.allocate serviceToken endpoint request = some posted ∧
      (Reaches expected serviceToken endpoint → GameCreationListener.accept (expected endpoint) posted = .ok request) ∧
      (¬Reaches expected serviceToken endpoint →
        ∃ response, GameCreationListener.accept (expected endpoint) posted = .error response) := by
  obtain ⟨posted, hposted, hverb, htarget, htoken, hbody⟩ : ∃ posted,
      GameAllocationHttpClient.allocate serviceToken endpoint request = some posted ∧ posted.verb = .post ∧
        posted.target = (if (pathOf endpoint).isEmpty then allocatePath else pathOf endpoint) ∧
        posted.serviceToken = (if serviceToken.isEmpty then none else some serviceToken) ∧
        posted.body = encodeGameCreationRequest request := by
    unfold GameAllocationHttpClient.allocate
    rw [postText_eq hscheme]
    exact ⟨_, rfl, rfl, rfl, rfl, rfl⟩
  have hpath := @target_eq_allocatePath_iff (pathOf endpoint)
  rw [← htarget] at hpath
  have hvalid := @serviceTokenIsValid_iff serviceToken posted (expected endpoint) htoken
  refine ⟨posted, hposted, ?_, ?_⟩
  · intro h
    obtain ⟨-, hasked, hknown⟩ := h
    unfold GameCreationListener.accept
    rw [if_neg (not_or.mpr ⟨not_not.mpr hverb, not_not.mpr (hpath.mpr hasked)⟩), hvalid.mpr hknown, hbody,
      decode_encodeGameCreationRequest hfits]
    rfl
  · intro h
    unfold GameCreationListener.accept
    by_cases hasked : posted.target = allocatePath
    · have hunknown : serviceTokenIsValid posted (expected endpoint) = false := by
        rw [← Bool.not_eq_true, hvalid]
        exact fun hknown => h ⟨hscheme, hpath.mp hasked, hknown⟩
      rw [if_neg (not_or.mpr ⟨not_not.mpr hverb, not_not.mpr hasked⟩), hunknown]
      exact ⟨_, rfl⟩
    · rw [if_pos (.inr hasked)]
      exact ⟨_, rfl⟩

/-- A server's answer can be written. -/
def AnswerFits (host : GameHost) : Prop :=
  host.server.rooms.nextId < 2 ^ 64 ∧ Plain host.config.serverId ∧ Plain host.config.endpoint

instance (host : GameHost) : Decidable (AnswerFits host) := inferInstanceAs (Decidable (_ ∧ _ ∧ _))

theorem allocated_allocateAt {host : GameHost} (h : AnswerFits host) (fleet : Fleet)
    (request : Server.GameCreationRequest) :
    GameAllocationHttpClient.allocated ⟨.ok, encodeGameCreationResponse (fleet.allocateAt host request)⟩ =
      some (fleet.allocateAt host request) := by
  obtain ⟨hroom, hserver, hendpoint⟩ := h
  unfold GameAllocationHttpClient.allocated HttpResponse.text
  rw [if_pos rfl, Option.bind_some]
  refine decode_encodeGameCreationResponse hroom hserver fun endpoint hsome => ?_
  unfold allocateAt at hsome
  dsimp only at hsome
  split at hsome
  · cases hsome
  · rename_i hnonempty
    cases hsome
    exact ⟨fun hempty => hnonempty (List.isEmpty_iff.mpr hempty), hendpoint⟩

/-- What becomes of a request over HTTP: those that no server takes are as good as lost. -/
def overHttp (expected : Text → Text) (serviceToken : Text) (attempt : Attempt) : Attempt :=
  if Reaches expected serviceToken attempt.candidate.allocationEndpoint then attempt
  else { attempt with delivery := .requestLost }

theorem overHttp_candidate (attempt : Attempt) :
    (overHttp expected serviceToken attempt).candidate = attempt.candidate := by
  unfold overHttp
  split
  · rfl
  · rfl

theorem reaches_of_overHttp {attempt : Attempt} (h : (overHttp expected serviceToken attempt).delivery ≠ .requestLost) :
    Reaches expected serviceToken attempt.candidate.allocationEndpoint := by
  by_contra hreaches
  unfold overHttp at h
  rw [if_neg hreaches] at h
  exact h rfl

theorem post_requestLost (fleet : Fleet) (request : Server.GameCreationRequest) (candidate : GameServerRecord) :
    fleet.post request ⟨candidate, .requestLost⟩ = (none, []) := by
  unfold post
  dsimp only
  cases fleet.hosts candidate.allocationEndpoint with
  | none => rfl
  | some host => rfl

theorem postHttp_eq (hfits : request.Fits) {attempt : Attempt}
    (hanswers : ∀ host ∈ fleet.hosts attempt.candidate.allocationEndpoint, AnswerFits host) :
    fleet.postHttp expected serviceToken request attempt =
      fleet.post request (overHttp expected serviceToken attempt) := by
  by_cases hscheme : httpScheme <+: attempt.candidate.allocationEndpoint
  · obtain ⟨posted, hposted, htaken, hrefused⟩ :=
      @accept_posted expected serviceToken attempt.candidate.allocationEndpoint request hscheme hfits
    unfold overHttp postHttp
    dsimp only
    rw [hposted]
    dsimp only
    by_cases hreaches : Reaches expected serviceToken attempt.candidate.allocationEndpoint
    · rw [if_pos hreaches]
      unfold post
      dsimp only
      rw [htaken hreaches]
      cases hhost : fleet.hosts attempt.candidate.allocationEndpoint with
      | none => rfl
      | some host =>
          cases attempt.delivery with
          | requestLost => rfl
          | responseLost => rfl
          | delivered =>
              dsimp only
              rw [if_pos rfl, allocated_allocateAt (hanswers host hhost)]
              rfl
    · rw [if_neg hreaches, post_requestLost]
      obtain ⟨response, hresponse⟩ := hrefused hreaches
      rw [hresponse]
      cases fleet.hosts attempt.candidate.allocationEndpoint with
      | none => rfl
      | some host =>
          cases attempt.delivery with
          | requestLost => rfl
          | responseLost => rfl
          | delivered => rfl
  · have hreaches : ¬Reaches expected serviceToken attempt.candidate.allocationEndpoint := fun h => hscheme h.1
    unfold overHttp postHttp GameAllocationHttpClient.allocate
    dsimp only
    rw [if_neg hreaches, post_requestLost, postText_unparsed hscheme]
    rfl

/-- Whoever is asked can write the answer. -/
def AnswersFit (attempts : List Attempt) (fleet : Fleet) : Prop :=
  ∀ attempt ∈ attempts, ∀ host ∈ fleet.hosts attempt.candidate.allocationEndpoint, AnswerFits host

instance (attempts : List Attempt) : DecidablePred (AnswersFit attempts) := fun fleet =>
  inferInstanceAs (Decidable (∀ attempt ∈ attempts, ∀ host ∈ fleet.hosts attempt.candidate.allocationEndpoint,
    AnswerFits host))

theorem tryCandidatesHttp_eq (hfits : request.Fits) {asked attempts : List Attempt} (hasked : attempts ⊆ asked)
    {retries : Nat} {meanwhile : List (List FleetStep)}
    (hanswers : Throughout Fleet.step (AnswersFit asked) fleet
      (tryCandidates request retries (attempts.map (overHttp expected serviceToken)) meanwhile fleet).2) :
    tryCandidatesHttp expected serviceToken request retries attempts meanwhile fleet =
      tryCandidates request retries (attempts.map (overHttp expected serviceToken)) meanwhile fleet := by
  induction attempts generalizing retries meanwhile fleet with
  | nil => cases retries <;> rfl
  | cons attempt attempts ih =>
      obtain ⟨hattempt, hothers⟩ := List.cons_subset.mp hasked
      cases retries with
      | zero => rfl
      | succ retries =>
          rw [List.map_cons] at hanswers ⊢
          rw [tryCandidates] at hanswers ⊢
          rw [tryCandidatesHttp]
          have hpost : AnswersFit asked (fleet.run (meanwhile.headD [])) →
              (fleet.run (meanwhile.headD [])).postHttp expected serviceToken request attempt =
                (fleet.run (meanwhile.headD [])).post request (overHttp expected serviceToken attempt) :=
            fun hnow => postHttp_eq hfits (hnow attempt hattempt)
          dsimp only at hanswers ⊢
          cases hcall : (fleet.run (meanwhile.headD [])).post request (overHttp expected serviceToken attempt) with
          | mk answer tried =>
              rw [hcall] at hanswers hpost
              cases answer with
              | some response =>
                  rw [hpost (throughout_append.mp hanswers).1.last]
                  dsimp only
                  rw [overHttp_candidate]
              | none =>
                  dsimp only at hanswers
                  obtain ⟨hbefore, hlater⟩ := throughout_append.mp hanswers
                  rw [hpost (throughout_append.mp hbefore).1.last]
                  dsimp only
                  rw [@ih (fleet.run (meanwhile.headD [] ++ tried)) hothers retries meanwhile.tail hlater]

/-- What is done is what goes on in the meantime, and the requests that come to a server. -/
theorem mem_tryCandidates {attempts : List Attempt} {retries : Nat} {meanwhile : List (List FleetStep)} {step : FleetStep}
    (h : step ∈ (tryCandidates request retries attempts meanwhile fleet).2) :
    step ∈ meanwhile.flatten ∨ ∃ attempt ∈ attempts, attempt.delivery ≠ .requestLost ∧
      step = ⟨attempt.candidate.allocationEndpoint, .inr (.allocate request)⟩ := by
  induction attempts generalizing retries meanwhile fleet with
  | nil => cases retries <;> cases h
  | cons attempt attempts ih =>
      cases retries with
      | zero => cases h
      | succ retries =>
          have hbefore : step ∈ meanwhile.headD [] → step ∈ meanwhile.flatten := by
            cases meanwhile with
            | nil => exact fun h => h
            | cons first later => exact fun h => List.mem_append_left _ h
          have hlater : step ∈ meanwhile.tail.flatten → step ∈ meanwhile.flatten := by
            cases meanwhile with
            | nil => exact fun h => h
            | cons first later => exact fun h => List.mem_append_right _ h
          have htried : step ∈ ((fleet.run (meanwhile.headD [])).post request attempt).2 →
              attempt.delivery ≠ .requestLost ∧
                step = ⟨attempt.candidate.allocationEndpoint, .inr (.allocate request)⟩ := by
            intro h
            rcases post_cases (fleet.run (meanwhile.headD [])) request attempt with
              ⟨-, hpost⟩ | ⟨host, -, hdelivery, hpost⟩ | ⟨host, response, -, hdelivery, -, hpost⟩
            · rw [hpost] at h
              cases h
            · rw [hpost] at h
              exact ⟨by simp [hdelivery], List.mem_singleton.mp h⟩
            · rw [hpost] at h
              exact ⟨by simp [hdelivery], List.mem_singleton.mp h⟩
          rw [tryCandidates] at h
          dsimp only at h
          cases hcall : (fleet.run (meanwhile.headD [])).post request attempt with
          | mk answer tried =>
              rw [hcall] at h htried
              cases answer with
              | some response =>
                  rcases List.mem_append.mp h with h | h
                  · exact .inl (hbefore h)
                  · exact .inr ⟨attempt, List.mem_cons_self, htried h⟩
              | none =>
                  rcases List.mem_append.mp h with h | h
                  · rcases List.mem_append.mp h with h | h
                    · exact .inl (hbefore h)
                    · exact .inr ⟨attempt, List.mem_cons_self, htried h⟩
                  · rcases ih h with h | ⟨other, hother, hrest⟩
                    · exact .inl (hlater h)
                    · exact .inr ⟨other, List.mem_cons_of_mem _ hother, hrest⟩

theorem allocateGameHttp_eq (hfits : request.Fits) {maxRetryCount : Nat} {attempts : List Attempt}
    {meanwhile : List (List FleetStep)}
    (hanswers : Throughout Fleet.step (AnswersFit attempts) fleet
      (tryCandidates request maxRetryCount (attempts.map (overHttp expected serviceToken)) meanwhile fleet).2) :
    fleet.allocateGameHttp expected serviceToken request maxRetryCount attempts meanwhile =
      fleet.allocateGame request maxRetryCount (attempts.map (overHttp expected serviceToken)) meanwhile := by
  have htried := tryCandidatesHttp_eq hfits (List.Subset.refl attempts) hanswers
  unfold allocateGameHttp allocateGame
  rw [List.isEmpty_map]
  exact htried ▸ rfl

/-- Over HTTP a room is asked for as with direct calls, where the requests are lost that no server takes; and no server
makes a room that has not been shown its token. -/
theorem allocation_over_http (hfits : request.Fits) {maxRetryCount : Nat} {attempts : List Attempt}
    {meanwhile : List (List FleetStep)}
    (hanswers : Throughout Fleet.step (AnswersFit attempts) fleet
      (fleet.allocateGame request maxRetryCount (attempts.map (overHttp expected serviceToken)) meanwhile).2) :
    let call := fleet.allocateGameHttp expected serviceToken request maxRetryCount attempts meanwhile
    call = fleet.allocateGame request maxRetryCount (attempts.map (overHttp expected serviceToken)) meanwhile ∧
      ∀ step ∈ call.2, step ∈ meanwhile.flatten ∨ ∃ attempt ∈ attempts,
        Reaches expected serviceToken attempt.candidate.allocationEndpoint ∧
          step = ⟨attempt.candidate.allocationEndpoint, .inr (.allocate request)⟩ := by
  intro call
  have hsteps := (allocateGame_eq fleet request maxRetryCount (attempts.map (overHttp expected serviceToken)) meanwhile).2
  rw [hsteps] at hanswers
  have hcall : call =
      fleet.allocateGame request maxRetryCount (attempts.map (overHttp expected serviceToken)) meanwhile :=
    allocateGameHttp_eq hfits hanswers
  refine ⟨hcall, fun step hstep => ?_⟩
  rw [hcall, hsteps] at hstep
  rcases mem_tryCandidates hstep with hmeanwhile | ⟨sent, hsent, hdelivery, hallocate⟩
  · exact .inl hmeanwhile
  · obtain ⟨attempt, hattempt, rfl⟩ := List.mem_map.mp hsent
    rw [overHttp_candidate] at hallocate
    exact .inr ⟨attempt, hattempt, reaches_of_overHttp hdelivery, hallocate⟩

/-- The first server has another token, and the second takes the game. -/
theorem allocation_over_http_refused :
    let expected : Text → Text := fun endpoint => if endpoint = "http://a".toList then "other".toList else "t".toList
    let call := (boot sampleConfigs {} {} {}).allocateGameHttp expected "t".toList ⟨1, 2, some 1⟩ 3
      [attemptAt "http://a" .delivered, attemptAt "http://b" .delivered] []
    returned call.1 = some ("http://b".toList, 1) ∧ call.2 = [⟨"http://b".toList, .inr (.allocate ⟨1, 2, some 1⟩)⟩] ∧
      call = (boot sampleConfigs {} {} {}).allocateGame ⟨1, 2, some 1⟩ 3
        [attemptAt "http://a" .requestLost, attemptAt "http://b" .delivered] [] := by
  intro expected call
  have hcall := (@allocation_over_http expected "t".toList ⟨1, 2, some 1⟩ (boot sampleConfigs {} {} {}) (by decide) 3
    [attemptAt "http://a" .delivered, attemptAt "http://b" .delivered] [] (by decide +kernel)).1
  exact ⟨by decide +kernel, by decide +kernel, hcall⟩

end Fleet

end KungFuChess
