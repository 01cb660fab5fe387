import Mathlib.Data.Nat.Bitwise
import Mathlib.Tactic.IntervalCases
import KungFuChess.Proof.Grammar
import KungFuChess.Proof.KeyDerivation
import KungFuChess.Proof.Stores

/-!
# Stored hashes

A new hash verifies, so that a player who has registered logs in again. A stored hash is read leniently, though: what
`stoi` takes for a number and `from_hex` for bytes counts, and the key is derived at whatever length the digest has, so
an empty digest fits every password.
-/

namespace KungFuChess

open Hashing

/-! ### Hexadecimal text -/

/-- Bytes as lower-case hexadecimal digits. -/
def lowerHex (data : List UInt8) : Text :=
  data.flatMap fun byte => [Nat.digitChar (byte.toNat / 16), Nat.digitChar (byte.toNat % 16)]

/-- The bytes that pairs of digits stand for. -/
def hexBytes : Text → List UInt8
  | high :: low :: rest => UInt8.ofNat (hexValue high * 16 + hexValue low) :: hexBytes rest
  | _ => []

/-- Pairs of hexadecimal digits. -/
structure IsHexText (text : Text) : Prop where
  even : text.length % 2 = 0
  digit : ∀ c ∈ text, isHexDigit c = true

theorem toHex_eq (data : List UInt8) : toHex data = lowerHex data := by
  have hbyte : ∀ n < 256, List.replicate (2 - (Nat.toDigits 16 n).length) '0' ++ Nat.toDigits 16 n =
      [Nat.digitChar (n / 16), Nat.digitChar (n % 16)] := by decide +kernel
  apply List.flatMap_congr
  intro byte _
  exact hbyte byte.toNat byte.toNat_lt

theorem length_lowerHex (data : List UInt8) : (lowerHex data).length = 2 * data.length := by
  induction data with
  | nil => rfl
  | cons byte data ih =>
      rw [lowerHex, List.flatMap_cons, List.length_append, ← lowerHex, ih, List.length_cons]
      simp
      omega

theorem mem_hexDigits {c : Char} (hc : isHexDigit c = true) : c ∈ "0123456789abcdefABCDEF".toList := by
  have hranges : (48 ≤ c.toNat ∧ c.toNat ≤ 57) ∨ (97 ≤ c.toNat ∧ c.toNat ≤ 102) ∨ (65 ≤ c.toNat ∧ c.toNat ≤ 70) := by
    simp only [isHexDigit, Char.isDigit, Bool.or_eq_true, Bool.and_eq_true, decide_eq_true_eq, or_assoc] at hc
    exact hc
  rw [← Char.ofNat_toNat c]
  generalize c.toNat = n at hranges ⊢
  rcases hranges with ⟨hlow, hhigh⟩ | ⟨hlow, hhigh⟩ | ⟨hlow, hhigh⟩ <;> interval_cases n <;> decide

theorem stoiHex_pair {high low : Char} (hhigh : isHexDigit high = true) (hlow : isHexDigit low = true) :
    stoiHex [high, low] = some ((hexValue high * 16 + hexValue low : Nat) : Int) := by
  have hall : ("0123456789abcdefABCDEF".toList.all fun high => "0123456789abcdefABCDEF".toList.all fun low =>
      stoiHex [high, low] == some ((hexValue high * 16 + hexValue low : Nat) : Int)) = true := by decide +kernel
  have hrow := List.all_eq_true.mp hall high (mem_hexDigits hhigh)
  exact beq_iff_eq.mp (List.all_eq_true.mp hrow low (mem_hexDigits hlow))

theorem fromHexPairs_eq (text : Text) (heven : text.length % 2 = 0) (hdigits : ∀ c ∈ text, isHexDigit c = true) :
    fromHexPairs text = some (hexBytes text) := by
  induction text using hexBytes.induct with
  | case1 high low rest ih =>
      rw [List.length_cons, List.length_cons] at heven
      have hrest := ih (by omega) fun c hc => hdigits c (List.mem_cons_of_mem _ (List.mem_cons_of_mem _ hc))
      have hpair := stoiHex_pair (hdigits high List.mem_cons_self)
        (hdigits low (List.mem_cons_of_mem _ List.mem_cons_self))
      have hbyte : (((hexValue high * 16 + hexValue low : Nat) : Int) % 256).toNat =
          (hexValue high * 16 + hexValue low) % 256 := by omega
      rw [fromHexPairs, hpair, hrest, hexBytes]
      simp only [Option.bind_eq_bind, Option.bind_some, hbyte]
      exact congrArg (fun byte => some (byte :: hexBytes rest)) UInt8.ofNat_mod_size
  | case2 text hnot =>
      rcases text with _ | ⟨c, _ | ⟨d, rest⟩⟩
      · rfl
      · simp at heven
      · exact absurd rfl (hnot c d rest)

theorem fromHex_eq {text : Text} (h : IsHexText text) : fromHex text = some (hexBytes text) := by
  rw [fromHex, if_neg (by rw [h.even]; decide), fromHexPairs_eq text h.even h.digit]

/-- Two characters for every byte. -/
theorem length_fromHex {text : Text} {bytes : List UInt8} (h : fromHex text = some bytes) :
    bytes.length = text.length / 2 := by
  unfold fromHex at h
  split at h
  · cases h
  induction text using fromHexPairs.induct generalizing bytes with
  | case1 high low rest ih =>
      rename_i heven
      obtain ⟨value, -, h⟩ := Option.bind_eq_some_iff.mp h
      obtain ⟨others, hothers, h⟩ := Option.bind_eq_some_iff.mp h
      obtain rfl := Option.some.inj h
      simp only [List.length_cons, not_not] at heven ⊢
      rw [ih (by omega) hothers]
      omega
  | case2 text hnot =>
      rcases text with _ | ⟨c, _ | ⟨d, rest⟩⟩
      · obtain rfl := Option.some.inj h
        rfl
      · obtain rfl := Option.some.inj h
        simp
      · exact absurd rfl (hnot c d rest)

theorem isHexText_lowerHex (data : List UInt8) : IsHexText (lowerHex data) where
  even := by
    rw [length_lowerHex]
    omega
  digit := by
    have hdigit : ∀ n < 16, isHexDigit (Nat.digitChar n) = true := by decide
    intro c hc
    obtain ⟨byte, -, hc⟩ := List.mem_flatMap.mp hc
    have hlt := byte.toNat_lt
    rcases List.mem_pair.mp hc with rfl | rfl
    · exact hdigit _ (by omega)
    · exact hdigit _ (by omega)

theorem hexBytes_lowerHex (data : List UInt8) : hexBytes (lowerHex data) = data := by
  have hbyte : ∀ n < 256, UInt8.ofNat (hexValue (Nat.digitChar (n / 16)) * 16 + hexValue (Nat.digitChar (n % 16))) =
      UInt8.ofNat n := by decide +kernel
  induction data with
  | nil => rfl
  | cons byte data ih =>
      have hfirst := hbyte byte.toNat byte.toNat_lt
      rw [UInt8.ofNat_toNat] at hfirst
      rw [lowerHex, List.flatMap_cons, ← lowerHex]
      change UInt8.ofNat _ :: hexBytes (lowerHex data) = _
      rw [hfirst, ih]

/-! ### Comparison -/

theorem foldl_or_eq_zero (values : List Nat) (acc : Nat) :
    values.foldl (· ||| ·) acc = 0 ↔ acc = 0 ∧ ∀ value ∈ values, value = 0 := by
  induction values generalizing acc with
  | nil => simp
  | cons value values ih => rw [List.foldl_cons, ih, Nat.or_eq_zero_iff, List.forall_mem_cons, and_assoc]

theorem constantTimeEquals_iff {left right : Text} : constantTimeEquals left right = true ↔ left = right := by
  unfold constantTimeEquals
  by_cases hlength : left.length = right.length
  · rw [if_neg (not_not.mpr hlength), beq_iff_eq, foldl_or_eq_zero]
    simp only [true_and]
    induction left generalizing right with
    | nil => simp [List.length_eq_zero_iff.mp hlength.symm]
    | cons a left ih =>
        obtain ⟨b, right, rfl⟩ := List.exists_cons_of_length_eq_add_one hlength.symm
        rw [List.zipWith_cons_cons, List.forall_mem_cons, ih (Nat.succ.inj hlength), List.cons.injEq,
          Nat.xor_eq_zero_iff, Char.toNat_inj]
  · rw [if_pos hlength]
    simp only [Bool.false_eq_true, false_iff]
    exact fun heq => hlength (congrArg List.length heq)

/-! ### Fields -/

theorem findFrom_append {field : Text} {ch : Char} (hfield : ch ∉ field) (before rest : Text) :
    findFrom (before ++ (field ++ ch :: rest)) ch before.length = some (before.length + field.length) := by
  have hidx : (field ++ ch :: rest).idxOf? ch = some field.length := by
    rw [List.idxOf?_eq_some_iff]
    refine ⟨by simp, by simp, fun j hj => ?_⟩
    rw [List.getElem_append_left hj]
    exact fun heq => hfield (heq ▸ List.getElem_mem _)
  rw [findFrom, List.drop_left, hidx, Option.map_some, Nat.add_comm]

theorem findFrom_none {rest : Text} {ch : Char} (hrest : ch ∉ rest) (before : Text) :
    findFrom (before ++ rest) ch before.length = none := by
  rw [findFrom, List.drop_left, List.idxOf?_eq_none_iff.mpr hrest]
  rfl

/-- A stored hash in its four fields. -/
def joinHash (scheme iterations salt digest : Text) : Text :=
  scheme ++ '$' :: (iterations ++ '$' :: (salt ++ '$' :: digest))

theorem verify_joinHash {scheme iterations salt : Text} (hscheme : '$' ∉ scheme) (hiterations : '$' ∉ iterations)
    (hsalt : '$' ∉ salt) (password digest : Text) :
    verifyPassword password (joinHash scheme iterations salt digest) = true ↔
      scheme = "pbkdf2_sha256".toList ∧ ∃ count bytes, stoi iterations = some count ∧ fromHex salt = some bytes ∧
        digest = lowerHex (pbkdf2Sha256 (bytesOf password) bytes count (digest.length / 2)) := by
  -- the text from every dollar sign on
  have htext1 : joinHash scheme iterations salt digest =
      (scheme ++ ['$']) ++ (iterations ++ '$' :: (salt ++ '$' :: digest)) := by simp [joinHash]
  have htext2 : joinHash scheme iterations salt digest =
      (scheme ++ ['$'] ++ iterations ++ ['$']) ++ (salt ++ '$' :: digest) := by simp [joinHash]
  have htext3 : joinHash scheme iterations salt digest =
      (scheme ++ ['$'] ++ iterations ++ ['$'] ++ salt ++ ['$']) ++ digest := by simp [joinHash]
  have hlength1 : (scheme ++ ['$']).length = scheme.length + 1 := by simp
  have hlength2 : (scheme ++ ['$'] ++ iterations ++ ['$']).length = scheme.length + 1 + iterations.length + 1 := by
    simp
    omega
  have hlength3 : (scheme ++ ['$'] ++ iterations ++ ['$'] ++ salt ++ ['$']).length =
      scheme.length + 1 + iterations.length + 1 + salt.length + 1 := by
    simp
    omega
  have hfirst : findFrom (joinHash scheme iterations salt digest) '$' 0 = some scheme.length := by
    have h := findFrom_append hscheme [] (iterations ++ '$' :: (salt ++ '$' :: digest))
    rwa [List.nil_append, List.length_nil, Nat.zero_add] at h
  have hsecond : findFrom (joinHash scheme iterations salt digest) '$' (scheme.length + 1) =
      some (scheme.length + 1 + iterations.length) := by
    rw [htext1, ← hlength1]
    exact findFrom_append hiterations _ _
  have hthird : findFrom (joinHash scheme iterations salt digest) '$' (scheme.length + 1 + iterations.length + 1) =
      some (scheme.length + 1 + iterations.length + 1 + salt.length) := by
    rw [htext2, ← hlength2]
    exact findFrom_append hsalt _ _
  have hdrop1 : (joinHash scheme iterations salt digest).drop (scheme.length + 1) =
      iterations ++ '$' :: (salt ++ '$' :: digest) := by rw [htext1, ← hlength1, List.drop_left]
  have hdrop2 : (joinHash scheme iterations salt digest).drop (scheme.length + 1 + iterations.length + 1) =
      salt ++ '$' :: digest := by rw [htext2, ← hlength2, List.drop_left]
  have hdrop3 : (joinHash scheme iterations salt digest).drop
      (scheme.length + 1 + iterations.length + 1 + salt.length + 1) = digest := by
    rw [htext3, ← hlength3, List.drop_left]
  have hsize1 : scheme.length + 1 + iterations.length - scheme.length - 1 = iterations.length := by omega
  have hsize2 : scheme.length + 1 + iterations.length + 1 + salt.length - (scheme.length + 1 + iterations.length) - 1 =
      salt.length := by omega
  have htake : (joinHash scheme iterations salt digest).take scheme.length = scheme := List.take_left
  unfold verifyPassword
  rw [hfirst]
  simp only [afterFound, Option.map_some, Option.getD_some, hsecond, hthird, htake, hdrop1, hdrop2, hdrop3, hsize1, hsize2,
    List.take_left]
  by_cases hname : scheme = "pbkdf2_sha256".toList
  · rw [if_neg (not_not.mpr hname)]
    simp only [hname, true_and]
    cases hcount : stoi iterations with
    | none => simp
    | some count =>
        cases hbytes : fromHex salt with
        | none => simp
        | some bytes =>
            simp only [Option.some.injEq, exists_and_left, exists_eq_left']
            cases hdigest : fromHex digest with
            | none =>
                simp only [Bool.false_eq_true, false_iff]
                intro heq
                rw [heq, fromHex_eq (isHexText_lowerHex _)] at hdigest
                cases hdigest
            | some expected =>
                dsimp only
                rw [constantTimeEquals_iff, length_fromHex hdigest, toHex_eq, eq_comm]
  · rw [if_pos hname]
    simp only [hname, false_and, Bool.false_eq_true]

/-! ### New hashes -/

theorem notMem_of_isHexText {c : Char} (hdigit : isHexDigit c = false) {text : Text} (h : IsHexText text) : c ∉ text := by
  intro hmem
  rw [h.digit c hmem] at hdigit
  cases hdigit

theorem hashPassword_eq (salt : Vector UInt8 16) (password : Text) (iterations : Int) :
    hashPassword salt password iterations =
      joinHash "pbkdf2_sha256".toList (signedDecimal iterations) (lowerHex salt.toList)
        (lowerHex (pbkdf2Sha256 (bytesOf password) salt.toList iterations kHashBytes)) := by
  have hscheme : "pbkdf2_sha256$".toList = "pbkdf2_sha256".toList ++ ['$'] := by decide
  unfold hashPassword
  dsimp only
  rw [hscheme, toHex_eq, toHex_eq]
  simp only [joinHash, List.append_assoc, List.cons_append, List.nil_append]

/-- A hash as it is written fits its password. -/
theorem verify_written (salt : List UInt8) (password : Text) {iterations : Int} (hiterations : IsInt32 iterations) :
    verifyPassword password (joinHash "pbkdf2_sha256".toList (signedDecimal iterations) (lowerHex salt)
      (lowerHex (pbkdf2Sha256 (bytesOf password) salt iterations kHashBytes))) = true := by
  rw [verify_joinHash (by decide) (notMem_signedDecimal rfl (by decide) _)
    (notMem_of_isHexText rfl (isHexText_lowerHex _))]
  refine ⟨rfl, iterations, salt, stoi_signedDecimal hiterations, ?_, ?_⟩
  · rw [fromHex_eq (isHexText_lowerHex _), hexBytes_lowerHex]
  · rw [length_lowerHex, length_pbkdf2Sha256, Nat.mul_div_cancel_left _ (by decide)]

theorem verify_hashPassword (salt : Vector UInt8 16) (password : Text) {iterations : Int}
    (hiterations : IsInt32 iterations) :
    verifyPassword password (hashPassword salt password iterations) = true := by
  rw [hashPassword_eq]
  exact verify_written salt.toList password hiterations

theorem verify_hashPassword_default :
    verifyPassword "secret".toList (hashPassword (Vector.replicate 16 0xa5) "secret".toList kDefaultIterations) = true :=
  verify_hashPassword _ _ (by decide)

/-! ### Registration -/

theorem cString_eq {text : Text} (h : '\x00' ∉ text) : cString text = text := by
  apply List.takeWhile_eq_self_iff.mpr
  intro c hc
  simp only [bne_iff_ne, ne_eq]
  intro heq
  exact h (heq ▸ hc)

theorem nul_notMem_hashPassword (salt : Vector UInt8 16) (password : Text) (iterations : Int) :
    '\x00' ∉ hashPassword salt password iterations := by
  have hdecimal := @notMem_signedDecimal '\x00' rfl (by decide) iterations
  have hhex : ∀ data, '\x00' ∉ lowerHex data := fun data => notMem_of_isHexText rfl (isHexText_lowerHex data)
  have hscheme : '\x00' ∉ "pbkdf2_sha256".toList := by decide
  rw [hashPassword_eq]
  simp only [joinHash, List.mem_append, List.mem_cons, hdecimal, hhex, hscheme, or_false, false_or, not_or]
  decide

/-- The row of a new user is found under the name. -/
theorem findCredentials_of_create {users users' : UserRepository} {username hash : Text} {rating : Int} {player : Player}
    (h : users.createUserWithPassword username rating hash = (some player, users')) :
    users'.findCredentialsByUsername username = some ⟨player.id, cString username, rating, cString hash⟩ := by
  unfold UserRepository.createUserWithPassword at h
  split at h
  · cases h
  · rename_i hconnected
    split at h
    · cases h
    · rename_i hunique
      obtain ⟨hplayer, hrows⟩ := Prod.mk.inj h
      obtain rfl := Option.some.inj hplayer
      subst hrows
      have hnone : users.rows.find? (fun row => row.username == cString username) = none :=
        List.find?_eq_none.mpr fun row hrow hname => hunique (List.any_eq_true.mpr ⟨row, hrow, hname⟩)
      unfold UserRepository.findCredentialsByUsername
      rw [if_neg hconnected, List.find?_append, hnone, Option.none_or, List.find?_cons_of_pos (by simp)]

/-- A player who has registered logs in with the same name and password. -/
theorem login_after_registration {randomSalt : Int → Vector UInt8 16} {users users' : UserRepository}
    {request : LoginRequest} {player : Player} (hnew : users.findCredentialsByUsername request.username = none)
    (h : authenticate (pbkdf2Hasher randomSalt) users request = (.ok player, users')) :
    ∃ again, authenticate (pbkdf2Hasher randomSalt) users' request = (.ok again, users') ∧ again.id = player.id := by
  unfold authenticate at h ⊢
  split at h
  · cases h
  · rename_i hname
    split at h
    · cases h
    · rename_i hpassword
      rw [hnew] at h
      dsimp only at h
      rw [if_neg hname, if_neg hpassword]
      split at h
      · rename_i created users'' hcreated
        obtain ⟨hplayer, rfl⟩ := Prod.mk.inj h
        obtain rfl := Except.ok.inj hplayer
        have hkept : cString ((pbkdf2Hasher randomSalt).hashPassword users.nextId request.password) =
            hashPassword (randomSalt users.nextId) request.password kDefaultIterations :=
          cString_eq (nul_notMem_hashPassword _ _ _)
        have hverified : (pbkdf2Hasher randomSalt).verifyPassword request.password
            (hashPassword (randomSalt users.nextId) request.password kDefaultIterations) = true := by
          rw [hashPassword_eq]
          exact verify_written _ _ (by decide)
        have hwritten : ¬(hashPassword (randomSalt users.nextId) request.password kDefaultIterations).isEmpty = true := by
          rw [hashPassword_eq]
          exact Bool.false_ne_true
        rw [findCredentials_of_create hcreated, hkept]
        dsimp only
        rw [if_neg hwritten, if_neg (by rw [hverified]; decide)]
        exact ⟨_, rfl, rfl⟩
      · split at h
        · cases h
        · cases h

/-! ### What is accepted -/

/-- A stored hash has four fields. -/
theorem exists_joinHash {password stored : Text} (h : verifyPassword password stored = true) :
    ∃ scheme iterations salt digest, '$' ∉ scheme ∧ '$' ∉ iterations ∧ '$' ∉ salt ∧
      stored = joinHash scheme iterations salt digest := by
  by_cases hfirst : '$' ∈ stored
  · obtain ⟨scheme, rest, rfl, hscheme⟩ := List.eq_append_cons_of_mem hfirst
    have hfound1 : findFrom (scheme ++ '$' :: rest) '$' 0 = some scheme.length := by
      have hfound := findFrom_append hscheme [] rest
      rwa [List.nil_append, List.length_nil, Nat.zero_add] at hfound
    by_cases hsecond : '$' ∈ rest
    · obtain ⟨iterations, rest, rfl, hiterations⟩ := List.eq_append_cons_of_mem hsecond
      by_cases hthird : '$' ∈ rest
      · obtain ⟨salt, digest, rfl, hsalt⟩ := List.eq_append_cons_of_mem hthird
        exact ⟨scheme, iterations, salt, digest, hscheme, hiterations, hsalt, rfl⟩
      · have hsplit : scheme ++ '$' :: (iterations ++ '$' :: rest) =
            (scheme ++ ['$']) ++ (iterations ++ '$' :: rest) := by simp
        have hsplit2 : scheme ++ '$' :: (iterations ++ '$' :: rest) =
            (scheme ++ ['$'] ++ iterations ++ ['$']) ++ rest := by simp
        have hfound2 := findFrom_append hiterations (scheme ++ ['$']) rest
        have hfound3 := findFrom_none hthird (scheme ++ ['$'] ++ iterations ++ ['$'])
        rw [← hsplit, List.length_append, List.length_singleton] at hfound2
        rw [← hsplit2, List.length_append, List.length_append, List.length_append, List.length_singleton] at hfound3
        unfold verifyPassword at h
        rw [hfound1] at h
        simp only [afterFound, Option.map_some, Option.getD_some, hfound2, hfound3] at h
        cases h
    · have hsplit : scheme ++ '$' :: rest = (scheme ++ ['$']) ++ rest := by simp
      have hfound2 := findFrom_none hsecond (scheme ++ ['$'])
      rw [← hsplit, List.length_append, List.length_singleton] at hfound2
      unfold verifyPassword at h
      rw [hfound1] at h
      simp only [afterFound, Option.map_some, Option.getD_some, hfound2] at h
      cases h
  · have hfound1 : findFrom stored '$' 0 = none := findFrom_none hfirst []
    unfold verifyPassword at h
    rw [hfound1] at h
    cases h

/-- The fields as `hash_password` writes them. -/
structure WellWritten (iterations salt digest : Text) : Prop where
  iterations : ∃ n, IsNumeral iterations n ∧ 1 ≤ n
  salt : IsHexText salt
  digest : digest.length = 64

/-- The digest is that of the password, with count and salt as they are read and a key of the digest's own length. -/
def DigestFits (password iterations salt digest : Text) : Prop :=
  ∃ count bytes, stoi iterations = some count ∧ fromHex salt = some bytes ∧
    digest = lowerHex (keyOfLength (bytesOf password) bytes (max count 1).toNat (digest.length / 2))

/-- A hash whose fields fit, but not as they are written. -/
def LooselyAccepted (password stored : Text) : Prop :=
  ∃ iterations salt digest, '$' ∉ iterations ∧ '$' ∉ salt ∧
    stored = joinHash "pbkdf2_sha256".toList iterations salt digest ∧ DigestFits password iterations salt digest ∧
    ¬WellWritten iterations salt digest

/-- The hash of a password: a count of at least one, a salt, and the standard's key of 32 bytes. -/
def IsHashOf (password stored : Text) : Prop :=
  ∃ iterations salt n, stored = joinHash "pbkdf2_sha256".toList iterations salt
      (lowerHex (pbkdf2 (hmac Sha256.hash 64) 32 (bytesOf password) (hexBytes salt) n 32)) ∧
    IsNumeral iterations n ∧ 1 ≤ n ∧ IsHexText salt

theorem verify_joinHash_iff {iterations salt : Text} (hiterations : '$' ∉ iterations) (hsalt : '$' ∉ salt)
    (password digest : Text) :
    verifyPassword password (joinHash "pbkdf2_sha256".toList iterations salt digest) = true ↔
      DigestFits password iterations salt digest := by
  rw [verify_joinHash (by decide) hiterations hsalt]
  simp only [true_and, pbkdf2Sha256_eq_keyOfLength]
  rfl

theorem joinHash_injective {scheme iterations salt digest iterations' salt' digest' : Text}
    (hiterations : '$' ∉ iterations) (hiterations' : '$' ∉ iterations') (hsalt : '$' ∉ salt) (hsalt' : '$' ∉ salt')
    (h : joinHash scheme iterations salt digest = joinHash scheme iterations' salt' digest') :
    iterations = iterations' ∧ salt = salt' ∧ digest = digest' := by
  have hfields : ∀ {field field' rest rest' : Text}, '$' ∉ field → '$' ∉ field' →
      field ++ '$' :: rest = field' ++ '$' :: rest' → field = field' ∧ rest = rest' := by
    intro field field' rest rest' hfield hfield' heq
    have hlength := (findFrom_append hfield [] rest).symm.trans
      ((congrArg (findFrom · '$' 0) heq).trans (findFrom_append hfield' [] rest'))
    rw [List.length_nil, Nat.zero_add, Nat.zero_add, Option.some.injEq] at hlength
    obtain ⟨rfl, hrest⟩ := List.append_inj heq hlength
    exact ⟨rfl, List.tail_eq_of_cons_eq hrest⟩
  have hall := List.tail_eq_of_cons_eq (List.append_cancel_left h)
  obtain ⟨rfl, hrest⟩ := hfields hiterations hiterations' hall
  obtain ⟨rfl, rfl⟩ := hfields hsalt hsalt' hrest
  exact ⟨rfl, rfl, rfl⟩

theorem dollar_notMem_of_isNumeral {digits : Text} {n : Nat} (h : IsNumeral digits n) : '$' ∉ digits := fun hmem => by
  cases h.digit _ hmem

theorem stoi_numeral {digits : Text} {n : Nat} {count : Int} (hnumeral : IsNumeral digits n)
    (h : stoi digits = some count) : count = n := by
  unfold stoi readSigned at h
  rw [readNumber_digits hnumeral.ne_nil hnumeral.digit, hnumeral.value] at h
  dsimp only at h
  rw [if_neg Bool.false_ne_true] at h
  split at h
  · exact (Option.some.inj h).symm
  · cases h

theorem length_digest (password salt : List UInt8) {n : Nat} (hn : 1 ≤ n) :
    (lowerHex (pbkdf2 (hmac Sha256.hash 64) 32 password salt n 32)).length = 64 := by
  have hmax : (max (n : Int) 1).toNat = n := by omega
  have hkey := pbkdf2Sha256_eq password salt n (show 32 < 2 ^ 31 by decide)
  rw [hmax] at hkey
  change (lowerHex (pbkdf2 prf 32 password salt n 32)).length = 64
  rw [length_lowerHex, ← hkey, length_pbkdf2Sha256]

theorem stored_hash_accepts_iff (password stored : Text) :
    (verifyPassword password stored = true → IsHashOf password stored) ↔ ¬LooselyAccepted password stored := by
  constructor
  · intro hclaim hloose
    obtain ⟨iterations, salt, digest, hiterations, hsalt, rfl, hfits, hnot⟩ := hloose
    obtain ⟨iterations', salt', n, hstored, hnumeral, hn, hhex⟩ :=
      hclaim ((verify_joinHash_iff hiterations hsalt _ _).mpr hfits)
    obtain ⟨rfl, rfl, hdigest⟩ := joinHash_injective hiterations (dollar_notMem_of_isNumeral hnumeral) hsalt
      (notMem_of_isHexText rfl hhex) hstored
    apply hnot
    refine ⟨⟨n, hnumeral, hn⟩, hhex, ?_⟩
    rw [hdigest, length_digest _ _ hn]
  · intro hnot hverify
    obtain ⟨scheme, iterations, salt, digest, hscheme, hiterations, hsalt, rfl⟩ := exists_joinHash hverify
    obtain ⟨rfl, -⟩ := (verify_joinHash hscheme hiterations hsalt _ _).mp hverify
    have hfits := (verify_joinHash_iff hiterations hsalt _ _).mp hverify
    have hwritten : WellWritten iterations salt digest := by
      by_contra hwritten
      exact hnot ⟨iterations, salt, digest, hiterations, hsalt, rfl, hfits, hwritten⟩
    obtain ⟨⟨n, hnumeral, hn⟩, hhex, hlength⟩ := hwritten
    obtain ⟨count, bytes, hcount, hbytes, hdigest⟩ := hfits
    obtain rfl := stoi_numeral hnumeral hcount
    obtain rfl := Option.some.inj ((fromHex_eq hhex).symm.trans hbytes)
    rw [hlength, ← pbkdf2Sha256_eq_keyOfLength, pbkdf2Sha256_eq _ _ _ (by decide)] at hdigest
    have hmax : (max (n : Int) 1).toNat = n := by omega
    rw [hmax] at hdigest
    exact ⟨iterations, salt, n, congrArg (joinHash _ iterations salt) hdigest, hnumeral, hn, hhex⟩

theorem empty_digest_fits :
    (∀ password, verifyPassword password "pbkdf2_sha256$1$00$".toList = true) ∧
      ∀ password, ¬IsHashOf password "pbkdf2_sha256$1$00$".toList := by
  have hfields : "pbkdf2_sha256$1$00$".toList = joinHash "pbkdf2_sha256".toList "1".toList "00".toList [] := by decide
  rw [hfields]
  constructor
  · intro password
    rw [verify_joinHash (by decide) (by decide) (by decide)]
    exact ⟨rfl, 1, [0], by decide, by decide, rfl⟩
  · intro password hhash
    obtain ⟨iterations, salt, n, hstored, hnumeral, hn, hhex⟩ := hhash
    obtain ⟨-, -, hdigest⟩ := joinHash_injective (by decide) (dollar_notMem_of_isNumeral hnumeral) (by decide)
      (notMem_of_isHexText rfl hhex) hstored
    have hlength := length_digest (bytesOf password) (hexBytes salt) hn
    rw [← hdigest] at hlength
    cases hlength

end KungFuChess
