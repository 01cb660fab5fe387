import Mathlib.Data.List.Nodup
import KungFuChess.Lib.Json
import KungFuChess.Model.Logger
import KungFuChess.Proof.Snapshot

/-!
# A line for each call

What a call writes is the object of its entries, quotes and backslashes escaped. Control characters come out as they
are, and a field may have the key of another entry: these are the calls whose line does not say what was logged.
-/

namespace KungFuChess

open Json

section

variable (logger : StructuredLogger) (now : UtcTime) (correlationId : Text) (level : LogLevel) (event : Text)
  (fields : OrdMap Text Text)

/-- The entries that the logger adds by itself. -/
def ownEntries : List (Text × Text) :=
  [("timestamp".toList, utcTimestamp now), ("service".toList, logger.service), ("server_id".toList, logger.serverId),
    ("level".toList, levelName level), ("event".toList, event)] ++
    if correlationId.isEmpty then [] else [("correlation_id".toList, correlationId)]

def logEntries : List (Text × Text) := ownEntries logger now correlationId level event ++ fields.entries

/-- The text is one line, and what is read from it are these strings, each under its key. -/
structure IsLineOf (entries : List (Text × Text)) (text : Text) : Prop where
  object : ∃ line members, text = line ++ ['\n'] ∧ '\n' ∉ line ∧ readObject line = some members ∧
    ∀ entry, entry ∈ members ↔ entry ∈ entries
  unambiguous : ∀ key value value', (key, value) ∈ entries → (key, value') ∈ entries → value = value'

/-- No control characters, and no other string under a key of the logger's own. -/
structure IsLoggable : Prop where
  texts : ∀ text ∈ [logger.service, logger.serverId, event, correlationId], IsPlain text
  entries : ∀ entry ∈ fields.entries, IsPlainMember entry
  keys : ∀ key value value', (key, value) ∈ fields.entries →
    (key, value') ∈ ownEntries logger now correlationId level event → value = value'

/-! ### The text of a line -/

theorem escapeJson_eq (value : Text) : escapeJson value = value.flatMap escapeChar := by
  suffices hfold : ∀ (value escaped : Text), value.foldl (fun escaped c =>
      if c = '\\' then escaped ++ ['\\', '\\'] else if c = '"' then escaped ++ ['\\', '"'] else escaped ++ [c]) escaped =
      escaped ++ value.flatMap escapeChar from hfold value []
  intro value
  induction value with
  | nil => exact fun escaped => (List.append_nil escaped).symm
  | cons c value ih =>
      intro escaped
      rw [List.foldl_cons, ih, List.flatMap_cons, ← List.append_assoc]
      congr 1
      unfold escapeChar
      by_cases hbackslash : c = '\\'
      · rw [if_pos hbackslash, if_pos (Or.inl hbackslash), hbackslash]
      · by_cases hquote : c = '"'
        · rw [if_neg hbackslash, if_pos hquote, if_pos (Or.inr hquote), hquote]
        · rw [if_neg hbackslash, if_neg hquote, if_neg (not_or.mpr ⟨hbackslash, hquote⟩)]

variable {now} in
theorem mem_utcTimestamp {c : Char} (h : c ∈ utcTimestamp now) :
    c.isDigit = true ∨ c = '-' ∨ c = 'T' ∨ c = ':' ∨ c = 'Z' := by
  have hdigits : ∀ n, c ∈ twoDigits n → c.isDigit = true := by
    intro n hc
    rcases List.mem_append.mp hc with hzero | hdecimal
    · rw [List.eq_of_mem_replicate hzero]
      rfl
    · exact isDigit_of_mem_decimal hdecimal
  simp only [utcTimestamp, List.mem_append, List.mem_singleton, or_assoc] at h
  rcases h with hyear | hdash | hmonth | hdash | hday | ht | hhour | hcolon | hminute | hcolon | hsecond | hz
  · exact Or.inl (isDigit_of_mem_decimal hyear)
  · exact Or.inr (Or.inl hdash)
  · exact Or.inl (hdigits _ hmonth)
  · exact Or.inr (Or.inl hdash)
  · exact Or.inl (hdigits _ hday)
  · exact Or.inr (Or.inr (Or.inl ht))
  · exact Or.inl (hdigits _ hhour)
  · exact Or.inr (Or.inr (Or.inr (Or.inl hcolon)))
  · exact Or.inl (hdigits _ hminute)
  · exact Or.inr (Or.inr (Or.inr (Or.inl hcolon)))
  · exact Or.inl (hdigits _ hsecond)
  · exact Or.inr (Or.inr (Or.inr (Or.inr hz)))

theorem le_of_isDigit {c : Char} (h : c.isDigit = true) : ' ' ≤ c := by
  simp only [Char.isDigit, Bool.and_eq_true, decide_eq_true_eq] at h
  exact le_trans (show ' ' ≤ '0' by decide) h.1

theorem isPlain_utcTimestamp : IsPlain (utcTimestamp now) := by
  intro c hc
  rcases mem_utcTimestamp hc with hdigit | rfl | rfl | rfl | rfl
  · exact le_of_isDigit hdigit
  · decide
  · decide
  · decide
  · decide

theorem escape_utcTimestamp : (utcTimestamp now).flatMap escapeChar = utcTimestamp now := by
  apply escape_of_notMem
  · intro hc
    rcases mem_utcTimestamp hc with h | h | h | h | h <;> cases h
  · intro hc
    rcases mem_utcTimestamp hc with h | h | h | h | h <;> cases h

theorem isPlain_levelName : IsPlain (levelName level) := by
  cases level with
  | info => decide
  | warn => decide
  | error => decide

theorem escape_levelName : (levelName level).flatMap escapeChar = levelName level := by
  cases level with
  | info => rfl
  | warn => rfl
  | error => rfl

theorem foldl_fields (entries : List (Text × Text)) (stream : Text) :
    entries.foldl (fun stream (key, value) =>
      stream ++ ",\"".toList ++ escapeJson key ++ "\":\"".toList ++ escapeJson value ++ ['"']) stream =
      stream ++ entries.flatMap fun entry => ',' :: writeMember entry := by
  have hcomma : ",\"".toList = [',', '"'] := by decide
  have hcolon : "\":\"".toList = ['"', ':', '"'] := by decide
  induction entries generalizing stream with
  | nil => rw [List.foldl_nil, List.flatMap_nil, List.append_nil]
  | cons entry entries ih =>
      rw [List.foldl_cons, ih, List.flatMap_cons]
      simp [hcomma, hcolon, escapeJson_eq, writeMember, quote]

/-- An entry is written after a comma. -/
theorem append_entry {name text : Text} (htext : text = ',' :: (quote name ++ [':', '"'])) (stream value : Text) :
    stream ++ text ++ escapeJson value ++ ['"'] = stream ++ ',' :: writeMember (name, value) := by
  rw [htext, escapeJson_eq]
  simp [writeMember, quote]

theorem log_eq :
    logger.log now correlationId level event fields =
      writeObject (logEntries logger now correlationId level event fields) ++ ['\n'] := by
  have htimestamp : "\"timestamp\":\"".toList = quote "timestamp".toList ++ [':', '"'] := by decide
  have hservice : ",\"service\":\"".toList = ',' :: (quote "service".toList ++ [':', '"']) := by decide
  have hserver : ",\"server_id\":\"".toList = ',' :: (quote "server_id".toList ++ [':', '"']) := by decide
  have hlevel : ",\"level\":\"".toList = ',' :: (quote "level".toList ++ [':', '"']) := by decide
  have hevent : ",\"event\":\"".toList = ',' :: (quote "event".toList ++ [':', '"']) := by decide
  have hcorrelation : ",\"correlation_id\":\"".toList = ',' :: (quote "correlation_id".toList ++ [':', '"']) := by
    decide
  -- the time and the level are written as they are
  have hfirst : ['{'] ++ "\"timestamp\":\"".toList ++ utcTimestamp now ++ ['"'] =
      '{' :: writeMember ("timestamp".toList, utcTimestamp now) := by
    simp [htimestamp, writeMember, quote, escape_utcTimestamp]
  have hname : levelName level = escapeJson (levelName level) := by rw [escapeJson_eq, escape_levelName]
  unfold StructuredLogger.log logEntries ownEntries
  dsimp only
  rw [hfirst, append_entry hservice, append_entry hserver, hname, append_entry hlevel, append_entry hevent,
    append_entry hcorrelation, foldl_fields, ← hname, writeObject]
  by_cases hnone : correlationId.isEmpty = true
  · rw [if_pos hnone, if_pos hnone]
    simp only [List.cons_append, List.nil_append, List.append_nil, List.append_assoc, writeMembers_cons,
      List.flatMap_cons]
  · rw [if_neg hnone, if_neg hnone]
    simp only [List.cons_append, List.nil_append, List.append_assoc, writeMembers_cons, List.flatMap_cons]

/-! ### When a line says what was logged -/

/-- The keys of the logger's own entries. -/
def ownKeys : List Text :=
  ["timestamp".toList, "service".toList, "server_id".toList, "level".toList, "event".toList, "correlation_id".toList]

theorem keys_ownEntries : (ownEntries logger now correlationId level event).map Prod.fst <+: ownKeys := by
  unfold ownEntries
  by_cases hnone : correlationId.isEmpty = true
  · rw [if_pos hnone]
    exact ⟨["correlation_id".toList], rfl⟩
  · rw [if_neg hnone]
    exact List.prefix_rfl

theorem ownEntries_unambiguous {key value value' : Text}
    (h : (key, value) ∈ ownEntries logger now correlationId level event)
    (h' : (key, value') ∈ ownEntries logger now correlationId level event) : value = value' := by
  have hkeys : ownKeys.Nodup := by decide
  have hnodup := hkeys.sublist (keys_ownEntries logger now correlationId level event).sublist
  exact congrArg Prod.snd (List.inj_on_of_nodup_map hnodup h h' rfl)

theorem isPlainMember_ownEntries :
    (∀ entry ∈ ownEntries logger now correlationId level event, IsPlainMember entry) ↔
      ∀ text ∈ [logger.service, logger.serverId, event, correlationId], IsPlain text := by
  have hkeys : ∀ key ∈ ownKeys, IsPlain key := by decide
  have hmember : ∀ entry ∈ ownEntries logger now correlationId level event, IsPlainMember entry ↔ IsPlain entry.2 := by
    intro entry hentry
    have hkey := (keys_ownEntries logger now correlationId level event).subset (List.mem_map_of_mem hentry)
    exact and_iff_right (hkeys _ hkey)
  rw [forall₂_congr hmember]
  unfold ownEntries
  by_cases hnone : correlationId.isEmpty = true
  · have hempty : IsPlain correlationId := by
      rw [List.isEmpty_iff.mp hnone]
      exact List.forall_mem_nil _
    rw [if_pos hnone]
    simp [isPlain_utcTimestamp, isPlain_levelName, hempty]
  · rw [if_neg hnone]
    simp [isPlain_utcTimestamp, isPlain_levelName]

theorem log_line_iff :
    IsLineOf (logEntries logger now correlationId level event fields) (logger.log now correlationId level event fields) ↔
      IsLoggable logger now correlationId level event fields := by
  have hown := isPlainMember_ownEntries logger now correlationId level event
  rw [log_eq]
  constructor
  · intro h
    obtain ⟨⟨line, members, hline, hbreak, hread, hmembers⟩, hunambiguous⟩ := h
    obtain rfl := List.append_cancel_right hline
    rw [readObject_write] at hread
    split at hread
    · rename_i hplain
      obtain ⟨hplainOwn, hplainFields⟩ := List.forall_mem_append.mp hplain
      refine ⟨hown.mp hplainOwn, hplainFields, fun key value value' hfield hkey => ?_⟩
      exact hunambiguous key value value' (List.mem_append_right _ hfield) (List.mem_append_left _ hkey)
    · cases hread
  · intro h
    have hplain : ∀ entry ∈ logEntries logger now correlationId level event fields, IsPlainMember entry :=
      List.forall_mem_append.mpr ⟨hown.mpr h.texts, h.entries⟩
    have hbreak : '\n' ∉ writeObject (logEntries logger now correlationId level event fields) := by
      intro hmem
      exact absurd (isPlain_writeObject hplain _ hmem) (by decide)
    refine ⟨⟨_, _, rfl, hbreak, ?_, fun _ => Iff.rfl⟩, fun key value value' hvalue hvalue' => ?_⟩
    · rw [readObject_write, if_pos hplain]
    · rcases List.mem_append.mp hvalue with hvalue | hvalue
      · rcases List.mem_append.mp hvalue' with hvalue' | hvalue'
        · exact ownEntries_unambiguous _ _ _ _ _ hvalue hvalue'
        · exact (h.keys key value' value hvalue' hvalue).symm
      · rcases List.mem_append.mp hvalue' with hvalue' | hvalue'
        · exact h.keys key value value' hvalue hvalue'
        · have hfind := OrdMap.find?_eq_some_iff.mpr hvalue
          rw [OrdMap.find?_eq_some_iff.mpr hvalue'] at hfind
          exact (Option.some.inj hfind).symm

end

theorem log_line_broken :
    ¬IsLineOf (logEntries (.configure "gateway".toList "gw-1".toList) ⟨2024, 1, 2, 3, 4, 5⟩ [] .info "player_login".toList
        (OrdMap.empty.insert "username".toList "eve\n".toList))
      (StructuredLogger.log (.configure "gateway".toList "gw-1".toList) ⟨2024, 1, 2, 3, 4, 5⟩ [] .info
        "player_login".toList (OrdMap.empty.insert "username".toList "eve\n".toList)) := by
  intro h
  obtain ⟨⟨line, members, hline, hbreak, -, -⟩, -⟩ := h
  have hdropped := congrArg List.dropLast hline
  rw [List.dropLast_concat] at hdropped
  rw [← hdropped] at hbreak
  revert hbreak
  decide +kernel

end KungFuChess
