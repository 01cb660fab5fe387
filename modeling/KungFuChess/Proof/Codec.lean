import KungFuChess.Model.Codec
import KungFuChess.Proof.NetworkInput
import KungFuChess.Proof.Stores

/-!
# What a service sends is what the other one reads

Every message is a row of fields without a bar, so its reader finds the field that it asks for. What is left is
that each number is read by a parser that takes its text back.
-/

namespace KungFuChess

theorem parseIntegral_decimal {n : Nat} (hfits : n < 2 ^ 64) : parseIntegral (decimal n) = some n :=
  parseNonNegativeInt_decimal ⟨n, hfits⟩

theorem parseUserId_decimal {n : Nat} (hfits : n < 2 ^ 64) : parseUserId (decimal n) = some n :=
  parseNonNegativeInt_decimal ⟨n, hfits⟩

/-! ### Values of the field types -/

def MatchRequest.Fits (request : MatchRequest) : Prop :=
  request.playerId < 2 ^ 64 ∧ request.userId < 2 ^ 64 ∧ IsInt32 request.elo

def MatchNotification.Fits (notification : MatchNotification) : Prop :=
  notification.whitePlayerId < 2 ^ 64 ∧ notification.whiteUserId < 2 ^ 64 ∧ notification.blackPlayerId < 2 ^ 64 ∧
    notification.blackUserId < 2 ^ 64 ∧ notification.roomId < 2 ^ 64

def Server.GameCreationRequest.Fits (request : Server.GameCreationRequest) : Prop :=
  request.whiteUserId < 2 ^ 64 ∧ request.blackUserId < 2 ^ 64 ∧ ∀ gameId ∈ request.dbGameId, IsInt32 gameId

instance (request : MatchRequest) : Decidable request.Fits := inferInstanceAs (Decidable (_ ∧ _ ∧ _))

instance (notification : MatchNotification) : Decidable notification.Fits :=
  inferInstanceAs (Decidable (_ ∧ _ ∧ _ ∧ _ ∧ _))

instance (request : Server.GameCreationRequest) : Decidable request.Fits := inferInstanceAs (Decidable (_ ∧ _ ∧ _))

/-! ### Matchmaking -/

theorem decode_encodeMatchRequest {request : MatchRequest} (hfits : request.Fits) (hregion : Plain request.region) :
    decodeMatchRequest (encodeMatchRequest request) = some request := by
  obtain ⟨hplayer, huser, helo⟩ := hfits
  have hvalue : encodeMatchRequest request =
      joinFields (decimal request.playerId) [decimal request.userId, signedDecimal request.elo, request.region] := by
    simp [encodeMatchRequest, joinFields]
  have hplain : ∀ text ∈ decimal request.playerId ::
      [decimal request.userId, signedDecimal request.elo, request.region], Plain text := by
    simp [hregion, plain_decimal, plain_signedDecimal]
  have hfields := fieldAt_joinFields hplain
  rw [← hvalue] at hfields
  unfold decodeMatchRequest
  rw [hfields 0, hfields 1, hfields 2, hfields 3]
  change (parseIntegral (decimal request.playerId)).bind (fun playerId =>
    (parseIntegral (decimal request.userId)).bind fun userId =>
      (stoi (signedDecimal request.elo)).bind fun elo => some (MatchRequest.mk playerId userId elo request.region)) = _
  rw [parseIntegral_decimal hplayer, parseIntegral_decimal huser, stoi_signedDecimal helo]
  rfl

/-- The two fields of a word with what follows it. -/
theorem fieldAt_word {word field : Text} (hword : Plain word) (hfield : Plain field) (index : Nat) :
    fieldAt (word ++ ['|'] ++ field) index = [word, field][index]? := by
  have hplain : ∀ text ∈ [word, field], Plain text := List.forall_mem_cons.mpr ⟨hword, by simpa using hfield⟩
  have hvalue : word ++ ['|'] ++ field = joinFields word [field] := by simp [joinFields]
  rw [hvalue, fieldAt_joinFields hplain]

theorem decode_encodeMatchResponse {response : MatchResponse} (hmessage : Plain response.message) :
    decodeMatchResponse (encodeMatchResponse response) = some response := by
  obtain ⟨status, message⟩ := response
  cases status with
  | queued =>
      have hfields := fieldAt_word (show Plain "queued".toList by decide +kernel) hmessage
      change decodeMatchResponse ("queued".toList ++ ['|'] ++ message) = _
      unfold decodeMatchResponse
      rw [hfields 0, hfields 1]
      rfl
  | error =>
      have hfields := fieldAt_word (show Plain "error".toList by decide +kernel) hmessage
      change decodeMatchResponse ("error".toList ++ ['|'] ++ message) = _
      unfold decodeMatchResponse
      rw [hfields 0, hfields 1]
      rfl

theorem fieldAt_encodeMatchNotification {notification : MatchNotification} (hserver : Plain notification.serverId)
    (hendpoint : Plain notification.endpoint) (index : Nat) :
    fieldAt (encodeMatchNotification notification) index =
      [decimal notification.whitePlayerId, decimal notification.whiteUserId, decimal notification.blackPlayerId,
        decimal notification.blackUserId, decimal notification.roomId, notification.serverId,
        notification.endpoint][index]? := by
  have hplain : ∀ text ∈ [decimal notification.whitePlayerId, decimal notification.whiteUserId,
      decimal notification.blackPlayerId, decimal notification.blackUserId, decimal notification.roomId,
      notification.serverId, notification.endpoint], Plain text := by
    simp [hserver, hendpoint, plain_decimal]
  rw [← fieldAt_joinFields hplain]
  simp [encodeMatchNotification, joinFields]

theorem decode_encodeMatchNotification {notification : MatchNotification} (hfits : notification.Fits)
    (hserver : Plain notification.serverId) (hendpoint : Plain notification.endpoint) :
    decodeMatchNotification (encodeMatchNotification notification) = some notification := by
  obtain ⟨hwhite, hwhiteUser, hblack, hblackUser, hroom⟩ := hfits
  have hfields := fieldAt_encodeMatchNotification hserver hendpoint
  unfold decodeMatchNotification
  rw [hfields 0, hfields 1, hfields 2, hfields 3, hfields 4, hfields 5, hfields 6]
  change (stoull (decimal notification.whitePlayerId)).bind (fun whitePlayerId =>
    (stoull (decimal notification.whiteUserId)).bind fun whiteUserId =>
      (stoull (decimal notification.blackPlayerId)).bind fun blackPlayerId =>
        (stoull (decimal notification.blackUserId)).bind fun blackUserId =>
          (stoull (decimal notification.roomId)).bind fun roomId =>
            some (MatchNotification.mk whitePlayerId whiteUserId blackPlayerId blackUserId roomId
              notification.serverId notification.endpoint)) = _
  rw [stoull_decimal hwhite, stoull_decimal hwhiteUser, stoull_decimal hblack, stoull_decimal hblackUser,
    stoull_decimal hroom]
  rfl

theorem fieldAt_encodeTimeoutNotification (playerId : PlayerId) (index : Nat) :
    fieldAt (encodeTimeoutNotification playerId) index = [timeoutWord, decimal playerId][index]? :=
  fieldAt_word (by decide +kernel) (plain_decimal playerId) index

theorem decode_encodeTimeoutNotification {playerId : PlayerId} (hfits : playerId < 2 ^ 64) :
    decodeTimeoutNotification (encodeTimeoutNotification playerId) = some playerId := by
  have hfields := fieldAt_encodeTimeoutNotification playerId
  unfold decodeTimeoutNotification
  rw [hfields 0, hfields 1]
  exact parseIntegral_decimal hfits

/-- A match starts with a number, which is not the word of a timeout. -/
theorem decodeTimeout_encodeMatchNotification (notification : MatchNotification) :
    decodeTimeoutNotification (encodeMatchNotification notification) = none := by
  have hkind : fieldAt (encodeMatchNotification notification) 0 = some (decimal notification.whitePlayerId) := by
    simp only [encodeMatchNotification, List.append_assoc]
    exact congrArg some ((plain_decimal notification.whitePlayerId).takeWhile _)
  have hword : decimal notification.whitePlayerId ≠ timeoutWord := by
    intro heq
    have ht : 't' ∈ decimal notification.whitePlayerId := heq ▸ (by decide +kernel)
    exact notMem_decimal rfl _ ht
  unfold decodeTimeoutNotification
  rw [hkind]
  cases fieldAt (encodeMatchNotification notification) 1 with
  | none => rfl
  | some playerId => exact if_neg hword

/-- A timeout has no third field. -/
theorem decodeMatch_encodeTimeoutNotification (playerId : PlayerId) :
    decodeMatchNotification (encodeTimeoutNotification playerId) = none := by
  have hfields := fieldAt_encodeTimeoutNotification playerId
  unfold decodeMatchNotification
  rw [hfields 0, hfields 1, hfields 2]
  rfl

/-! ### Game creation -/

/-- Two fields and a third that is empty when there is nothing to say. -/
theorem fieldAt_creation {first second third : Text} (hfirst : Plain first) (hsecond : Plain second)
    (hthird : Plain third) (index : Nat) :
    fieldAt (first ++ ['|'] ++ second ++ ['|'] ++ third) index = [first, second, third][index]? := by
  have hplain : ∀ text ∈ [first, second, third], Plain text := by simp [hfirst, hsecond, hthird]
  have hvalue : first ++ ['|'] ++ second ++ ['|'] ++ third = joinFields first [second, third] := by simp [joinFields]
  rw [hvalue, fieldAt_joinFields hplain]

theorem signedDecimal_ne_nil (i : Int) : signedDecimal i ≠ [] := by
  unfold signedDecimal
  split
  · exact List.cons_ne_nil _ _
  · exact decimal_ne_nil _

theorem decode_encodeGameCreationRequest {request : Server.GameCreationRequest} (hfits : request.Fits) :
    decodeGameCreationRequest (encodeGameCreationRequest request) = some request := by
  obtain ⟨white, black, dbGameId⟩ := request
  obtain ⟨hwhite, hblack, hgame⟩ := hfits
  have hthird : Plain ((dbGameId.map signedDecimal).getD []) := by
    cases dbGameId with
    | none => exact List.not_mem_nil
    | some gameId => exact plain_signedDecimal gameId
  have hfields := fieldAt_creation (plain_decimal white) (plain_decimal black) hthird
  unfold decodeGameCreationRequest encodeGameCreationRequest
  rw [hfields 0, hfields 1, hfields 2]
  change (parseUserId (decimal white)).bind (fun whiteUserId => (parseUserId (decimal black)).bind fun blackUserId => _) = _
  rw [parseUserId_decimal hwhite, parseUserId_decimal hblack]
  cases dbGameId with
  | none => rfl
  | some gameId =>
      have hread : stoi (signedDecimal gameId) = some gameId := stoi_signedDecimal (hgame gameId rfl)
      simp [signedDecimal_ne_nil, hread]

theorem decode_encodeGameCreationResponse {response : GameCreationResponse} (hroom : response.roomId < 2 ^ 64)
    (hserver : Plain response.gameServerId) (hendpoint : ∀ endpoint ∈ response.endpoint, endpoint ≠ [] ∧ Plain endpoint) :
    decodeGameCreationResponse (encodeGameCreationResponse response) = some response := by
  obtain ⟨roomId, serverId, endpoint⟩ := response
  have hthird : Plain (endpoint.getD []) := by
    cases endpoint with
    | none => exact List.not_mem_nil
    | some endpoint => exact (hendpoint endpoint rfl).2
  have hfields := fieldAt_creation (plain_decimal roomId) hserver hthird
  unfold decodeGameCreationResponse encodeGameCreationResponse
  rw [hfields 0, hfields 1, hfields 2]
  change (stoull (decimal roomId)).bind (fun roomId => _) = _
  rw [stoull_decimal hroom]
  cases endpoint with
  | none => rfl
  | some endpoint => simp [(hendpoint endpoint rfl).1]

/-! ### Every codec -/

/-- What is encoded is decoded, and neither notification is taken for the other. -/
theorem service_codecs_round_trip :
    (∀ request : MatchRequest, request.Fits → Plain request.region →
      decodeMatchRequest (encodeMatchRequest request) = some request) ∧
    (∀ response : MatchResponse, Plain response.message →
      decodeMatchResponse (encodeMatchResponse response) = some response) ∧
    (∀ notification : MatchNotification, notification.Fits → Plain notification.serverId →
      Plain notification.endpoint →
        decodeMatchNotification (encodeMatchNotification notification) = some notification) ∧
    (∀ playerId : PlayerId, playerId < 2 ^ 64 →
      decodeTimeoutNotification (encodeTimeoutNotification playerId) = some playerId) ∧
    (∀ request : Server.GameCreationRequest, request.Fits →
      decodeGameCreationRequest (encodeGameCreationRequest request) = some request) ∧
    (∀ response : GameCreationResponse, response.roomId < 2 ^ 64 → Plain response.gameServerId →
      (∀ endpoint ∈ response.endpoint, endpoint ≠ [] ∧ Plain endpoint) →
        decodeGameCreationResponse (encodeGameCreationResponse response) = some response) ∧
    (∀ notification : MatchNotification, decodeTimeoutNotification (encodeMatchNotification notification) = none) ∧
    ∀ playerId : PlayerId, decodeMatchNotification (encodeTimeoutNotification playerId) = none :=
  ⟨fun _ => decode_encodeMatchRequest, fun _ => decode_encodeMatchResponse,
    fun _ => decode_encodeMatchNotification, fun _ => decode_encodeTimeoutNotification,
    fun _ => decode_encodeGameCreationRequest, fun _ => decode_encodeGameCreationResponse,
    decodeTimeout_encodeMatchNotification, decodeMatch_encodeTimeoutNotification⟩

/-- A negative rating, a message without text, a negative game id and an endpoint that is not there come back. -/
theorem service_codecs_round_trip_edges :
    decodeMatchRequest (encodeMatchRequest ⟨7, 8, -12, "eu".toList⟩) = some ⟨7, 8, -12, "eu".toList⟩ ∧
    decodeMatchResponse (encodeMatchResponse ⟨.error, []⟩) = some ⟨.error, []⟩ ∧
    decodeMatchNotification (encodeMatchNotification ⟨1, 2, 3, 4, 5, "game-1".toList, []⟩) =
      some ⟨1, 2, 3, 4, 5, "game-1".toList, []⟩ ∧
    decodeTimeoutNotification (encodeTimeoutNotification (2 ^ 64 - 1)) = some (2 ^ 64 - 1) ∧
    decodeGameCreationRequest (encodeGameCreationRequest ⟨1, 2, some (-3)⟩) = some ⟨1, 2, some (-3)⟩ ∧
    decodeGameCreationResponse (encodeGameCreationResponse ⟨9, "game-1".toList, none⟩) =
      some ⟨9, "game-1".toList, none⟩ := by
  obtain ⟨hrequest, hresponse, hnotification, htimeout, hcreation, hcreated, -⟩ := service_codecs_round_trip
  exact ⟨hrequest _ (by decide) (by decide +kernel), hresponse _ (by decide),
    hnotification _ (by decide) (by decide +kernel) (by decide), htimeout _ (by decide), hcreation _ (by decide),
    hcreated _ (by decide) (by decide +kernel) (by simp)⟩

end KungFuChess
