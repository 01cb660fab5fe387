import KungFuChess.Model.Config
import KungFuChess.Proof.Grammar

/-!
# Numeric settings

What the loader reads from a variable is the value of its digits up to the size of `unsigned long`, unless that falls from
one digit to the next; the field takes the number with a cast. So a setting is exact or keeps its default, but for
numerals that slip through the test for overflow or do not fit the field.
-/

namespace KungFuChess.App

/-! ### Casts -/

theorem toInt_of_le {n : Nat} (hn : n ≤ 2 ^ 31 - 1) : toInt n = n := Int.bmod_eq_of_le_mul_two (by omega) (by omega)

theorem toInt_le (n : Nat) : toInt n ≤ (2 ^ 31 - 1 : Nat) := by
  have hlt := Int.bmod_lt (x := n) (show 0 < 2 ^ 32 by decide)
  unfold toInt
  omega

theorem toDuration_of_le {n : Nat} (hn : n ≤ 2 ^ 63 - 1) : toDuration n = n :=
  Int.bmod_eq_of_le_mul_two (by omega) (by omega)

theorem toDuration_le (n : Nat) : toDuration n ≤ (2 ^ 63 - 1 : Nat) := by
  have hlt := Int.bmod_lt (x := n) (show 0 < 2 ^ 64 by decide)
  unfold toDuration
  omega

/-! ### The settings -/

/-- A numeric field: the variables that may set it, the largest number of its type, what the type makes of a number, and
the check that a number has to pass. -/
structure NumericSetting where
  value : AppConfig → Int
  names : List String
  max : Nat
  narrow : Nat → Int
  accepts : Nat → Bool
  max_lt : max < 2 ^ 64
  narrow_of_le : ∀ n ≤ max, narrow n = n
  narrow_le : ∀ n, narrow n ≤ max

/-- A port, an `unsigned short`. -/
def portSetting (value : AppConfig → Nat) (name : String) : NumericSetting where
  value config := value config
  names := [name]
  max := 2 ^ 16 - 1
  narrow n := toUnsignedShort n
  accepts := isPort
  max_lt := by decide
  narrow_of_le n hn := by
    unfold toUnsignedShort
    omega
  narrow_le n := by
    unfold toUnsignedShort
    omega

/-- A count, a `std::size_t`. -/
def countSetting (value : AppConfig → Nat) (name : String) : NumericSetting where
  value config := value config
  names := [name]
  max := 2 ^ 64 - 1
  narrow n := toSize n
  accepts := isPositive
  max_lt := by decide
  narrow_of_le n hn := by
    unfold toSize
    omega
  narrow_le n := by
    unfold toSize
    omega

/-- An `int`. -/
def intSetting (value : AppConfig → Int) (names : List String) (accepts : Nat → Bool) : NumericSetting where
  value := value
  names := names
  max := 2 ^ 31 - 1
  narrow := toInt
  accepts := accepts
  max_lt := by decide
  narrow_of_le n hn := toInt_of_le hn
  narrow_le n := toInt_le n

/-- A duration, counted in 64 bits. -/
def durationSetting (value : AppConfig → Int) (names : List String) : NumericSetting where
  value := value
  names := names
  max := 2 ^ 63 - 1
  narrow := toDuration
  accepts := isPositive
  max_lt := by decide
  narrow_of_le n hn := toDuration_of_le hn
  narrow_le n := toDuration_le n

def portSettings : List NumericSetting :=
  [portSetting (·.server.port) "KFC_PORT", portSetting (·.server.gamePort) "KFC_GAME_PORT",
    portSetting (·.server.healthPort) "KFC_HEALTH_PORT", portSetting (·.server.gameHealthPort) "KFC_GAME_HEALTH_PORT",
    portSetting (·.server.gameInternalPort) "KFC_GAME_INTERNAL_PORT",
    portSetting (·.server.matchmakerPort) "KFC_MATCHMAKER_PORT",
    portSetting (·.server.matchmakerHealthPort) "KFC_MATCHMAKER_HEALTH_PORT",
    portSetting (·.server.gatewayInternalPort) "KFC_GATEWAY_INTERNAL_PORT",
    intSetting (·.database.port) ["KFC_POSTGRES_PORT", "KFC_DB_PORT"] isPort,
    intSetting (·.redis.port) ["KFC_REDIS_PORT"] isPort]

/-- The settings with other checks than that of a port. -/
def quantitySettings : List NumericSetting :=
  [countSetting (·.server.maxClients) "KFC_MAX_CLIENTS", countSetting (·.server.gameMaxClients) "KFC_GAME_MAX_CLIENTS",
    countSetting (·.allocation.allocationRetryCount) "KFC_ALLOCATION_RETRY_COUNT",
    intSetting (·.matchmaking.maxRatingDifference) ["KFC_MATCH_MAX_RATING_DIFF"] isPositive,
    intSetting (·.redis.database) ["KFC_REDIS_DATABASE"] fun _ => true,
    durationSetting (·.matchmaking.queueTimeout) ["KFC_MATCH_QUEUE_TIMEOUT_SEC"],
    durationSetting (·.allocation.allocationTimeout) ["KFC_ALLOCATION_TIMEOUT_MS"],
    durationSetting (·.allocation.gameServerTtl) ["KFC_GAME_SERVER_TTL_SECONDS"],
    durationSetting (·.redis.heartbeatInterval) []]

def numericSettings : List NumericSetting := portSettings ++ quantitySettings

namespace NumericSetting

variable (setting : NumericSetting) (env : Environment)

def default : Int := setting.value makeDefaultConfig

/-- The text of the first of its variables that is set. -/
def text : Option Text := setting.names.findSome? (readEnvironment env)

/-- The default or the exact value of the variable, which passes the check; and the default where no number of the type
is written. -/
structure IsExactOrDefault : Prop where
  value : setting.value (loadConfigFromEnvironment env) = setting.default ∨
    ∃ text n, setting.text env = some text ∧ IsNumeral text n ∧ setting.accepts n = true ∧
      setting.value (loadConfigFromEnvironment env) = n
  unreadable : ∀ text, setting.text env = some text → (¬∃ n, IsNumeral text n ∧ n ≤ setting.max) →
    setting.value (loadConfigFromEnvironment env) = setting.default

end NumericSetting

/-- The values of the prefixes, up to the size of `unsigned long`, never fall. -/
def PrefixesRise (value : Nat) (digits : Text) : Prop :=
  ∀ k < digits.length,
    Nat.ofDigitChars 10 (digits.take k) value % 2 ^ 64 ≤ Nat.ofDigitChars 10 (digits.take (k + 1)) value % 2 ^ 64

/-- A numeral too large for the type is taken for another number than the default. -/
def NumericSetting.Misread (setting : NumericSetting) (env : Environment) : Prop :=
  ∃ text n, setting.text env = some text ∧ IsNumeral text n ∧ setting.max < n ∧ PrefixesRise 0 text ∧
    setting.accepts (n % 2 ^ 64) = true ∧ setting.narrow (n % 2 ^ 64) ≠ setting.default

/-! ### What is read -/

section Reading

variable {value : Nat} {c : Char} {digits : Text}

theorem prefixesRise_cons :
    PrefixesRise value (c :: digits) ↔
      value % 2 ^ 64 ≤ (10 * value + (c.toNat - '0'.toNat)) % 2 ^ 64 ∧
        PrefixesRise (10 * value + (c.toNat - '0'.toNat)) digits := by
  unfold PrefixesRise
  rw [List.length_cons, Nat.forall_lt_succ_left]
  simp only [List.take_succ_cons, List.take_zero, Nat.ofDigitChars_cons, Nat.ofDigitChars_nil]

theorem isDigit_iff : c.isDigit = true ↔ ¬(c < '0' ∨ c > '9') := by
  simp only [Char.isDigit, Bool.and_eq_true, decide_eq_true_eq, not_or, gt_iff_lt, not_lt]
  rfl

theorem digit_le (h : c.isDigit = true) : c.toNat - '0'.toNat ≤ 9 := by
  simp only [Char.isDigit, Bool.and_eq_true, decide_eq_true_eq] at h
  have hnine : c.toNat ≤ 57 := h.2
  exact Nat.sub_le_sub_right hnine 48

theorem parseUnsignedFrom_eq_some_iff {number : Nat} :
    parseUnsignedFrom (value % 2 ^ 64) digits = some number ↔
      (∀ c ∈ digits, c.isDigit = true) ∧ PrefixesRise value digits ∧
        number = Nat.ofDigitChars 10 digits value % 2 ^ 64 := by
  induction digits generalizing value with
  | nil =>
      rw [parseUnsignedFrom, Nat.ofDigitChars_nil, Option.some.injEq]
      constructor
      · intro h
        exact ⟨List.forall_mem_nil _, fun k hk => absurd hk (Nat.not_lt_zero k), h.symm⟩
      · intro h
        exact h.2.2.symm
  | cons c digits ih =>
      have hnext : (value % 2 ^ 64 * 10 + (c.toNat - '0'.toNat)) % 2 ^ 64 =
          (10 * value + (c.toNat - '0'.toNat)) % 2 ^ 64 := by omega
      rw [parseUnsignedFrom, List.forall_mem_cons, prefixesRise_cons, Nat.ofDigitChars_cons]
      by_cases hdigit : c.isDigit = true
      · rw [if_neg (isDigit_iff.mp hdigit)]
        dsimp only
        rw [hnext]
        by_cases hrise : value % 2 ^ 64 ≤ (10 * value + (c.toNat - '0'.toNat)) % 2 ^ 64
        · rw [if_neg (not_lt.mpr hrise), ih]
          simp only [hdigit, hrise, true_and]
        · rw [if_pos (not_le.mp hrise)]
          simp only [hrise, false_and, and_false, reduceCtorEq]
      · rw [if_pos (not_not.mp (mt isDigit_iff.mpr hdigit))]
        simp only [hdigit, false_and, reduceCtorEq]

theorem parseUnsigned_eq_some_iff {number : Nat} :
    parseUnsigned digits = some number ↔ ∃ n, IsNumeral digits n ∧ PrefixesRise 0 digits ∧ number = n % 2 ^ 64 := by
  unfold parseUnsigned
  cases digits with
  | nil =>
      simp only [List.isEmpty_nil, if_true, reduceCtorEq, false_iff]
      intro h
      obtain ⟨n, hnumeral, -⟩ := h
      exact hnumeral.ne_nil rfl
  | cons c digits =>
      have hread := @parseUnsignedFrom_eq_some_iff 0 (c :: digits) number
      rw [Nat.zero_mod] at hread
      rw [List.isEmpty_cons, if_neg Bool.false_ne_true, hread]
      constructor
      · intro h
        obtain ⟨hdigits, hrise, hnumber⟩ := h
        exact ⟨_, ⟨List.cons_ne_nil _ _, hdigits, rfl⟩, hrise, hnumber⟩
      · intro h
        obtain ⟨n, hnumeral, hrise, rfl⟩ := h
        exact ⟨hnumeral.digit, hrise, by rw [hnumeral.value]⟩

/-- Values that never fall and end low have not wrapped around. -/
theorem lt_of_prefixesRise (hdigits : ∀ c ∈ digits, c.isDigit = true) (hrise : PrefixesRise value digits)
    (hvalue : value < 2 ^ 64) (hlow : Nat.ofDigitChars 10 digits value % 2 ^ 64 < 2 ^ 60) :
    Nat.ofDigitChars 10 digits value < 2 ^ 64 := by
  have hrest : ∀ {digits value}, PrefixesRise value digits →
      value % 2 ^ 64 ≤ Nat.ofDigitChars 10 digits value % 2 ^ 64 := by
    intro digits
    induction digits with
    | nil =>
        intro value _
        exact le_rfl
    | cons c digits ih =>
        intro value hrise
        rw [Nat.ofDigitChars_cons]
        exact (prefixesRise_cons.mp hrise).1.trans (ih (prefixesRise_cons.mp hrise).2)
  induction digits generalizing value with
  | nil => exact hvalue
  | cons c digits ih =>
      have hbefore := hrest hrise
      rw [Nat.ofDigitChars_cons] at hlow hbefore ⊢
      obtain ⟨hc, hdigits⟩ := List.forall_mem_cons.mp hdigits
      have hdigit := digit_le hc
      exact ih hdigits (prefixesRise_cons.mp hrise).2 (by omega) hlow

/-- What is read of a numeral below 2^64 is its value. -/
theorem prefixesRise_of_lt (hlt : Nat.ofDigitChars 10 digits value < 2 ^ 64) : PrefixesRise value digits := by
  induction digits generalizing value with
  | nil => exact fun k hk => absurd hk (Nat.not_lt_zero k)
  | cons c digits ih =>
      rw [Nat.ofDigitChars_cons] at hlt
      have hnext := (le_ofDigitChars digits (10 * value + (c.toNat - '0'.toNat))).trans_lt hlt
      exact prefixesRise_cons.mpr ⟨by omega, ih hlt⟩

end Reading

/-! ### What a field is set to -/

section Fields

variable (env : Environment)

/-- The number that a setting takes from the environment. -/
def NumericSetting.loaded (setting : NumericSetting) : Int :=
  overrideNumber (setting.text env) setting.accepts setting.narrow setting.default

theorem overrideNumber_cast {value : Option Text} {accepts : Nat → Bool} {cast : Nat → Nat} {field : Nat} :
    ((overrideNumber value accepts cast field : Nat) : Int) =
      overrideNumber value accepts (fun n => (cast n : Int)) (field : Int) := by
  unfold overrideNumber override
  cases value with
  | none => rfl
  | some text =>
      dsimp only
      cases parseUnsigned text with
      | none => rfl
      | some number =>
          dsimp only
          by_cases haccepts : accepts number = true
          · rw [if_pos haccepts, if_pos haccepts]
            rfl
          · rw [if_neg haccepts, if_neg haccepts]
            rfl

theorem findSome?_singleton (name : String) : [name].findSome? (readEnvironment env) = readEnvironment env name := by
  rw [List.findSome?_cons, List.findSome?_nil]
  cases readEnvironment env name with
  | none => rfl
  | some value => rfl

theorem findSome?_pair (name other : String) :
    [name, other].findSome? (readEnvironment env) = readEither env name other := by
  unfold readEither
  rw [List.findSome?_cons, findSome?_singleton]
  cases readEnvironment env name with
  | none => rfl
  | some value => rfl

theorem loaded_portSetting (value : AppConfig → Nat) (name : String) :
    (portSetting value name).loaded env = overridePort env name (value makeDefaultConfig) := by
  unfold NumericSetting.loaded NumericSetting.text NumericSetting.default portSetting overridePort
  dsimp only
  rw [overrideNumber_cast, findSome?_singleton]

theorem loaded_countSetting (value : AppConfig → Nat) (name : String) :
    (countSetting value name).loaded env = overrideCount env name (value makeDefaultConfig) := by
  unfold NumericSetting.loaded NumericSetting.text NumericSetting.default countSetting overrideCount
  dsimp only
  rw [overrideNumber_cast, findSome?_singleton]

theorem loaded_durationSetting (value : AppConfig → Int) (name : String) :
    (durationSetting value [name]).loaded env = overrideDuration env name (value makeDefaultConfig) := by
  unfold NumericSetting.loaded NumericSetting.text NumericSetting.default durationSetting overrideDuration
  dsimp only
  rw [findSome?_singleton]

/-- A field that no variable sets. -/
theorem loaded_durationSetting_nil (value : AppConfig → Int) :
    (durationSetting value []).loaded env = value makeDefaultConfig := rfl

theorem loaded_intSetting (value : AppConfig → Int) (name : String) (accepts : Nat → Bool) :
    (intSetting value [name] accepts).loaded env =
      overrideNumber (readEnvironment env name) accepts toInt (value makeDefaultConfig) := by
  unfold NumericSetting.loaded NumericSetting.text NumericSetting.default intSetting
  dsimp only
  rw [findSome?_singleton]

theorem loaded_intSetting_pair (value : AppConfig → Int) (name other : String) (accepts : Nat → Bool) :
    (intSetting value [name, other] accepts).loaded env =
      overrideNumber (readEither env name other) accepts toInt (value makeDefaultConfig) := by
  unfold NumericSetting.loaded NumericSetting.text NumericSetting.default intSetting
  dsimp only
  rw [findSome?_pair]

theorem value_load : ∀ setting ∈ numericSettings, setting.value (loadConfigFromEnvironment env) = setting.loaded env := by
  simp only [numericSettings, portSettings, quantitySettings, List.cons_append, List.nil_append, List.forall_mem_cons,
    loaded_portSetting, loaded_countSetting, loaded_durationSetting,
    loaded_durationSetting_nil, loaded_intSetting, loaded_intSetting_pair]
  exact ⟨rfl, rfl, rfl, rfl, rfl, rfl, rfl, rfl, rfl, rfl, rfl, rfl, rfl, rfl, rfl, rfl, rfl, rfl, rfl,
    List.forall_mem_nil _⟩

end Fields

/-! ### Exact or default -/

section

variable {env : Environment} {setting : NumericSetting}

theorem isExactOrDefault_iff (hsetting : setting ∈ numericSettings) :
    setting.IsExactOrDefault env ↔ ¬setting.Misread env := by
  have hload := value_load env setting hsetting
  constructor
  · intro hclaim hmisread
    obtain ⟨text, n, htext, hnumeral, hlarge, hrise, haccepts, hdifferent⟩ := hmisread
    -- no number of the type is written, and yet the field takes one
    have hunreadable : ¬∃ n, IsNumeral text n ∧ n ≤ setting.max := by
      intro h
      obtain ⟨n', hnumeral', hle⟩ := h
      obtain rfl := hnumeral.unique hnumeral'
      omega
    have hread : parseUnsigned text = some (n % 2 ^ 64) := parseUnsigned_eq_some_iff.mpr ⟨n, hnumeral, hrise, rfl⟩
    apply hdifferent
    rw [← hclaim.unreadable text htext hunreadable, hload, NumericSetting.loaded, htext, overrideNumber, override]
    simp only [hread, haccepts, if_true, Option.getD_some]
  · intro hnot
    unfold NumericSetting.loaded overrideNumber override at hload
    cases htext : setting.text env with
    | none =>
        rw [htext] at hload
        exact ⟨Or.inl hload, fun text h => by rw [htext] at h; cases h⟩
    | some text =>
        rw [htext] at hload
        dsimp only at hload
        cases hread : parseUnsigned text with
        | none =>
            rw [hread] at hload
            exact ⟨Or.inl hload, fun _ _ _ => hload⟩
        | some number =>
            rw [hread] at hload
            dsimp only at hload
            by_cases haccepts : setting.accepts number = true
            · rw [if_pos haccepts, Option.getD_some] at hload
              obtain ⟨n, hnumeral, hrise, rfl⟩ := parseUnsigned_eq_some_iff.mp hread
              by_cases hle : n ≤ setting.max
              · have hmod : n % 2 ^ 64 = n := Nat.mod_eq_of_lt (hle.trans_lt setting.max_lt)
                rw [hmod, setting.narrow_of_le n hle] at hload
                rw [hmod] at haccepts
                refine ⟨Or.inr ⟨text, n, htext, hnumeral, haccepts, hload⟩, fun text' htext' hunreadable => ?_⟩
                obtain rfl := Option.some.inj (htext.symm.trans htext')
                exact absurd ⟨n, hnumeral, hle⟩ hunreadable
              · have hdefault : setting.narrow (n % 2 ^ 64) = setting.default := by
                  by_contra hdifferent
                  exact hnot ⟨text, n, htext, hnumeral, not_le.mp hle, hrise, haccepts, hdifferent⟩
                rw [hdefault] at hload
                exact ⟨Or.inl hload, fun _ _ _ => hload⟩
            · rw [if_neg haccepts] at hload
              exact ⟨Or.inl hload, fun _ _ _ => hload⟩

/-- A number of the type that passes the check is taken. -/
theorem value_of_isNumeral (hsetting : setting ∈ numericSettings) {text : Text} {n : Nat}
    (htext : setting.text env = some text) (hnumeral : IsNumeral text n) (hle : n ≤ setting.max)
    (haccepts : setting.accepts n = true) :
    setting.value (loadConfigFromEnvironment env) = n := by
  have hlt := hle.trans_lt setting.max_lt
  have hread : parseUnsigned text = some n := by
    refine parseUnsigned_eq_some_iff.mpr ⟨n, hnumeral, prefixesRise_of_lt ?_, (Nat.mod_eq_of_lt hlt).symm⟩
    rw [hnumeral.value]
    exact hlt
  rw [value_load env setting hsetting, NumericSetting.loaded, htext, overrideNumber, override]
  simp only [hread, haccepts, if_true, Option.getD_some, setting.narrow_of_le n hle]

/-- A number that is low enough for a port has been read exactly. -/
theorem not_misread_of_port (hmax : 65535 ≤ setting.max) (haccepts : setting.accepts = isPort) :
    ¬setting.Misread env := by
  intro hmisread
  obtain ⟨text, n, -, hnumeral, hlarge, hrise, hport, -⟩ := hmisread
  simp only [haccepts, isPort, decide_eq_true_eq] at hport
  have hlow : Nat.ofDigitChars 10 text 0 % 2 ^ 64 < 2 ^ 60 := by
    rw [hnumeral.value]
    omega
  have hlt := lt_of_prefixesRise hnumeral.digit hrise (by decide) hlow
  rw [hnumeral.value] at hlt
  rw [Nat.mod_eq_of_lt hlt] at hport
  omega

theorem portSettings_accept : ∀ setting ∈ portSettings, 65535 ≤ setting.max ∧ setting.accepts = isPort := by
  simp only [portSettings, List.forall_mem_cons]
  have hshort : 65535 ≤ 2 ^ 16 - 1 := le_rfl
  have hint : 65535 ≤ 2 ^ 31 - 1 := by decide
  exact ⟨⟨hshort, rfl⟩, ⟨hshort, rfl⟩, ⟨hshort, rfl⟩, ⟨hshort, rfl⟩, ⟨hshort, rfl⟩, ⟨hshort, rfl⟩, ⟨hshort, rfl⟩,
    ⟨hshort, rfl⟩, ⟨hint, rfl⟩, ⟨hint, rfl⟩, List.forall_mem_nil _⟩

end

theorem numeric_settings_iff (env : Environment) :
    (∀ setting ∈ numericSettings, setting.IsExactOrDefault env) ↔ ∀ setting ∈ quantitySettings, ¬setting.Misread env := by
  constructor
  · intro h setting hsetting
    have hmem := List.mem_append_right portSettings hsetting
    exact (isExactOrDefault_iff hmem).mp (h setting hmem)
  · intro h setting hsetting
    apply (isExactOrDefault_iff hsetting).mpr
    rcases List.mem_append.mp hsetting with hport | hquantity
    · obtain ⟨hmax, haccepts⟩ := portSettings_accept setting hport
      exact not_misread_of_port hmax haccepts
    · exact h setting hquantity

theorem rating_difference_wraps :
    ¬∀ setting ∈ numericSettings, setting.IsExactOrDefault fun name =>
      if name = "KFC_MATCH_MAX_RATING_DIFF" then some "4294967297".toList else none := by
  intro h
  have hmem : intSetting (·.matchmaking.maxRatingDifference) ["KFC_MATCH_MAX_RATING_DIFF"] isPositive ∈
      quantitySettings := List.mem_of_getElem? (show quantitySettings[3]? = some _ from rfl)
  have hsetting := List.mem_append_right portSettings hmem
  refine (isExactOrDefault_iff hsetting).mp (h _ hsetting) ⟨"4294967297".toList, 4294967297, ?_, ?_, ?_, ?_, ?_, ?_⟩
  · rfl
  · exact ⟨by decide, List.all_eq_true.mp (by decide), by decide⟩
  · decide
  · exact prefixesRise_of_lt (by decide)
  · decide
  · decide

end KungFuChess.App
