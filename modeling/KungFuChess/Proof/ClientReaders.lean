import KungFuChess.Model.ClientReaders
import KungFuChess.Proof.NetworkInput
import KungFuChess.Proof.Stores

/-!
# What the server writes, a client reads

The messages are lines of words, so the readers find the words that were written. The port of an address is read
digit by digit and given up once it is too large, so its value never reaches the width of its type.
-/

namespace KungFuChess

/-! ### Lines -/

theorem firstLine_append {line : Text} (hline : ∀ c ∈ line, c ≠ '\r' ∧ c ≠ '\n') (rest : Text) :
    firstLine (line ++ rest) = line ++ firstLine rest := by
  induction line with
  | nil => rfl
  | cons c line ih =>
      obtain ⟨hreturn, hnewline⟩ := hline c List.mem_cons_self
      rw [List.cons_append, firstLine, if_neg hreturn, if_neg hnewline,
        ih fun c hc => hline c (List.mem_cons_of_mem _ hc), List.cons_append]

/-- The words of a message, whether or not a line break ends it. -/
theorem splitTokens_firstLine {tokens : List Text} (htokens : ∀ token ∈ tokens, IsWord token) {rest : Text}
    (hrest : firstLine rest = []) : splitTokens (firstLine (joinTokens tokens ++ rest)) = tokens := by
  rw [firstLine_append (noBreak_of_isWord htokens), hrest, List.append_nil, splitTokens_joinTokens _ htokens]

theorem isWord_signedDecimal (i : Int) : IsWord (signedDecimal i) := by
  obtain ⟨hne, hspace⟩ := isWord_decimal i.natAbs
  unfold signedDecimal
  split
  · exact ⟨List.cons_ne_nil _ _, List.forall_mem_cons.mpr ⟨by decide, hspace⟩⟩
  · exact ⟨hne, hspace⟩

theorem parseSideToken_sideToken (side : PieceColor) : parseSideToken (sideToken side) = some side := by
  cases side <;> rfl

theorem redirect_text (endpoint : Text) (roomId : Nat) (side : PieceColor) :
    (ServerMessage.gameRedirect endpoint roomId side).text =
      joinTokens ["game_redirect".toList, endpoint, decimal roomId, sideToken side] ++ [] := by
  have hcommand : "game_redirect ".toList = "game_redirect".toList ++ [' '] := by decide
  change "game_redirect ".toList ++ endpoint ++ [' '] ++ decimal roomId ++ [' '] ++ sideToken side = _
  simp only [joinTokens, hcommand, List.append_assoc, List.cons_append, List.nil_append, List.append_nil]

theorem result_text (won : Bool) (reason : FinishReason) (rating : Int) :
    (ServerMessage.gameResult won reason rating).text =
      joinTokens ["game_result".toList, if won then "win".toList else "loss".toList, finishReasonToken reason,
        signedDecimal rating] ++ ['\n'] := by
  have hcommand : "game_result ".toList = "game_result".toList ++ [' '] := by decide
  change "game_result ".toList ++ (if won then "win".toList else "loss".toList) ++ [' '] ++ finishReasonToken reason
    ++ [' '] ++ signedDecimal rating ++ ['\n'] = _
  simp only [joinTokens, hcommand, List.append_assoc, List.cons_append, List.nil_append]

theorem read_redirect {endpoint : Text} {roomId : Nat} (hendpoint : IsWord endpoint) (hroom : roomId < 2 ^ 64)
    (side : PieceColor) :
    readGameRedirectMessage (ServerMessage.gameRedirect endpoint roomId side).text =
      some ⟨endpoint, roomId, side⟩ := by
  have hside : IsWord (sideToken side) := by cases side <;> decide
  have hwords : ∀ token ∈ ["game_redirect".toList, endpoint, decimal roomId, sideToken side], IsWord token := by
    rw [List.forall_mem_cons, List.forall_mem_cons, List.forall_mem_cons, List.forall_mem_singleton]
    exact ⟨by decide, hendpoint, isWord_decimal roomId, hside⟩
  have hread : parseRoomIdToken (decimal roomId) = some roomId := parseNonNegativeInt_decimal ⟨roomId, hroom⟩
  rw [readGameRedirectMessage, redirect_text, splitTokens_firstLine hwords rfl]
  dsimp only
  rw [if_neg (not_not.mpr rfl), parseSideToken_sideToken, hread, Option.bind_eq_bind, Option.bind_some,
    Option.bind_eq_bind, Option.bind_some, List.isEmpty_eq_false_iff.mpr hendpoint.1]
  rfl

theorem read_result (won : Bool) (reason : FinishReason) {rating : Int} (hrating : IsInt32 rating) :
    readGameResultMessage (ServerMessage.gameResult won reason rating).text =
      some ⟨won, finishReasonToken reason, rating⟩ := by
  have houtcome : IsWord (if won then "win".toList else "loss".toList) := by cases won <;> decide
  have hreason : IsWord (finishReasonToken reason) := by cases reason <;> decide
  have hwords : ∀ token ∈ ["game_result".toList, if won then "win".toList else "loss".toList,
      finishReasonToken reason, signedDecimal rating], IsWord token := by
    rw [List.forall_mem_cons, List.forall_mem_cons, List.forall_mem_cons, List.forall_mem_singleton]
    exact ⟨by decide, houtcome, hreason, isWord_signedDecimal rating⟩
  rw [readGameResultMessage, result_text, splitTokens_firstLine hwords rfl]
  dsimp only
  rw [if_neg (not_not.mpr rfl), stoi_signedDecimal hrating]
  cases won with
  | true => rfl
  | false => rfl

/-! ### Ports -/

/-- The loop stops as soon as the value is too large, so it never wraps around. -/
theorem parsePort_digits {digits : Text} (hdigits : ∀ c ∈ digits, c.isDigit = true) :
    ∀ value, value ≤ 65535 → Nat.ofDigitChars 10 digits value ≤ 65535 →
      parsePort value digits = some (Nat.ofDigitChars 10 digits value) := by
  induction digits with
  | nil => exact fun _ _ _ => rfl
  | cons c digits ih =>
      intro value hvalue hport
      rw [Nat.ofDigitChars_cons] at hport ⊢
      have hstep := (le_ofDigitChars digits (10 * value + (c.toNat - '0'.toNat))).trans hport
      have hwidth : (value * 10 + (c.toNat - '0'.toNat)) % 2 ^ 32 = 10 * value + (c.toNat - '0'.toNat) := by
        rw [Nat.mul_comm value, Nat.mod_eq_of_lt (lt_of_le_of_lt hstep (by decide))]
      rw [parsePort, hdigits c List.mem_cons_self, if_neg (by decide), hwidth]
      dsimp only
      rw [if_neg (by omega), ih (fun c hc => hdigits c (List.mem_cons_of_mem _ hc)) _ hstep hport]

/-- No value above the greatest port is returned. -/
theorem parsePort_le {text : Text} {value port : Nat} (hvalue : value ≤ 65535) (h : parsePort value text = some port) :
    port ≤ 65535 := by
  induction text generalizing value with
  | nil =>
      obtain rfl := Option.some.inj h
      exact hvalue
  | cons c text ih =>
      rw [parsePort] at h
      split at h
      · cases h
      · dsimp only at h
        split at h
        · cases h
        · rename_i hle
          exact ih (not_lt.mp hle) h

/-! ### Addresses -/

/-- The last colon is the one before a text without colons. -/
theorem rfind_append {tail : Text} (htail : ':' ∉ tail) (host : Text) :
    rfind (host ++ ':' :: tail) ':' = some host.length := by
  have hidx : (tail.reverse ++ ':' :: host.reverse).idxOf? ':' = some tail.length := by
    rw [List.idxOf?_eq_some_iff]
    refine ⟨by simp, by simp, fun j hj => ?_⟩
    rw [List.getElem_append_left (by simpa using hj)]
    intro heq
    exact htail (List.mem_reverse.mp (heq ▸ List.getElem_mem _))
  rw [rfind, List.reverse_append, List.reverse_cons, List.append_assoc, List.singleton_append, hidx]
  simp

theorem parse_stripped {host : Text} {port : Nat} {endpoint : Text} (hhost : host ≠ []) (hlow : 1 ≤ port)
    (hhigh : port ≤ 65535) (hstrip : stripScheme endpoint = host ++ ':' :: decimal port) :
    parseWebSocketEndpoint endpoint = some ⟨host, port⟩ := by
  have hvalue : Nat.ofDigitChars 10 (decimal port) 0 = port := Nat.ofDigitChars_ten_toDigits
  have hpos : 0 < (decimal port).length := List.length_pos_of_ne_nil (isWord_decimal port).1
  have hport : parsePort 0 (decimal port) = some port := by
    have := parsePort_digits (fun c hc => isDigit_of_mem_decimal hc) 0 (by decide) (hvalue.trans_le hhigh)
    rwa [hvalue] at this
  have hdrop : (host ++ ':' :: decimal port).drop (host.length + 1) = decimal port := by
    rw [List.drop_append, List.drop_eq_nil_of_le (by omega), Nat.add_sub_cancel_left]
    rfl
  have hne : host ++ ':' :: decimal port ≠ [] := by simp
  unfold parseWebSocketEndpoint
  rw [hstrip]
  dsimp only
  rw [List.isEmpty_eq_false_iff.mpr hne, if_neg (by decide), rfind_append (notMem_decimal rfl port),
    Option.bind_eq_bind, Option.bind_some, if_neg, hdrop, hport, Option.bind_some, if_neg (by omega), List.take_left]
  simp only [List.length_append, List.length_cons, List.length_eq_zero_iff, hhost, false_or]
  omega

/-- The character after the first colon is a digit, so no scheme is found where none was put. -/
theorem stripScheme_of_plain {host : Text} (hhost : ':' ∉ host) (port : Nat) :
    stripScheme (host ++ ':' :: decimal port) = host ++ ':' :: decimal port := by
  have hno : ∀ word scheme : Text, scheme = word ++ ':' :: "//".toList → ':' ∉ word →
      ¬scheme.isPrefixOf (host ++ ':' :: decimal port) = true := by
    intro word scheme h
    obtain rfl := h
    intro hword hprefix
    obtain ⟨rest, hrest⟩ := List.isPrefixOf_iff_prefix.mp hprefix
    rw [List.append_assoc, List.cons_append] at hrest
    obtain ⟨-, -, htail⟩ := (List.append_cons_inj_of_notMem hhost (notMem_decimal rfl port)).mp hrest.symm
    have hslash : '/' ∈ decimal port := htail ▸ List.mem_cons_self
    exact notMem_decimal rfl port hslash
  unfold stripScheme
  rw [if_neg (hno "ws".toList "ws://".toList rfl (by decide)), if_neg (hno "wss".toList "wss://".toList rfl (by decide))]

theorem stripScheme_of_scheme {scheme : Text} (hscheme : scheme ∈ ["ws://".toList, "wss://".toList]) (rest : Text) :
    stripScheme (scheme ++ rest) = rest := by
  simp only [List.mem_cons, List.not_mem_nil, or_false] at hscheme
  rcases hscheme with rfl | rfl
  · rfl
  · rfl

theorem parse_endpoint {scheme host : Text} {port : Nat} (hscheme : scheme ∈ [[], "ws://".toList, "wss://".toList])
    (hne : host ≠ []) (hcolon : ':' ∉ host) (hlow : 1 ≤ port) (hhigh : port ≤ 65535) :
    parseWebSocketEndpoint (scheme ++ host ++ [':'] ++ decimal port) = some ⟨host, port⟩ := by
  apply parse_stripped hne hlow hhigh
  rw [List.append_assoc, List.append_assoc, List.singleton_append]
  rcases List.mem_cons.mp hscheme with rfl | hscheme
  · exact stripScheme_of_plain hcolon port
  · exact stripScheme_of_scheme hscheme _

theorem port_of_parse {text : Text} {endpoint : WebSocketEndpoint} (h : parseWebSocketEndpoint text = some endpoint) :
    1 ≤ endpoint.port ∧ endpoint.port ≤ 65535 := by
  unfold parseWebSocketEndpoint at h
  dsimp only at h
  split at h
  · cases h
  obtain ⟨colon, -, h⟩ := Option.bind_eq_some_iff.mp h
  split at h
  · cases h
  obtain ⟨port, hport, h⟩ := Option.bind_eq_some_iff.mp h
  split at h
  · cases h
  · rename_i hzero
    obtain rfl := Option.some.inj h
    exact ⟨Nat.one_le_iff_ne_zero.mpr hzero, parsePort_le (by decide) hport⟩

/-! ### Intact -/

theorem messages_reach_the_client :
    (∀ endpoint roomId side, IsWord endpoint → roomId < 2 ^ 64 →
      readGameRedirectMessage (ServerMessage.gameRedirect endpoint roomId side).text =
        some ⟨endpoint, roomId, side⟩) ∧
    (∀ won reason rating, IsInt32 rating →
      readGameResultMessage (ServerMessage.gameResult won reason rating).text =
        some ⟨won, finishReasonToken reason, rating⟩) ∧
    (∀ scheme ∈ [[], "ws://".toList, "wss://".toList], ∀ host port, host ≠ [] → ':' ∉ host → 1 ≤ port → port ≤ 65535 →
      parseWebSocketEndpoint (scheme ++ host ++ [':'] ++ decimal port) = some ⟨host, port⟩) ∧
    ∀ text endpoint, parseWebSocketEndpoint text = some endpoint → 1 ≤ endpoint.port ∧ endpoint.port ≤ 65535 := by
  refine ⟨?_, ?_, ?_, fun _ _ => port_of_parse⟩
  · exact fun endpoint roomId side hendpoint hroom => read_redirect hendpoint hroom side
  · exact fun won reason rating hrating => read_result won reason hrating
  · exact fun scheme hscheme host port hne hcolon hlow hhigh => parse_endpoint hscheme hne hcolon hlow hhigh

theorem messages_reach_the_client_sent :
    readGameRedirectMessage (ServerMessage.gameRedirect "ws://host:8765".toList 5 .white).text =
        some ⟨"ws://host:8765".toList, 5, .white⟩ ∧
      readGameResultMessage (ServerMessage.gameResult false .resign (-5)).text =
        some ⟨false, finishReasonToken .resign, -5⟩ ∧
      parseWebSocketEndpoint ("ws://".toList ++ "host".toList ++ [':'] ++ decimal 8765) = some ⟨"host".toList, 8765⟩ ∧
      1 ≤ 8765 ∧ 8765 ≤ 65535 := by
  obtain ⟨hredirect, hresult, hendpoint, hport⟩ := messages_reach_the_client
  have hparsed := hendpoint "ws://".toList (by decide) "host".toList 8765 (by decide) (by decide) (by decide) (by decide)
  exact ⟨hredirect _ 5 .white (by decide) (by decide), hresult false .resign (-5) (by decide), hparsed,
    hport _ _ hparsed⟩

end KungFuChess
