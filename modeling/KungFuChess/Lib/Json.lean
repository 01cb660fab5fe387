import Mathlib.Data.List.Basic

/-!
# Objects of strings

RFC 8259 for the objects whose values are strings: white space between the tokens, and strings with their escapes, the
code units of UTF-16 among them. The writer escapes quotes and backslashes, and leaves the rest as it is.
-/

namespace Json

/-! ### Reading -/

/-- A number below 2^16, in four hexadecimal digits. -/
def hexUnit (digits : List Char) : Option Nat :=
  digits.foldlM (fun unit c =>
    if c.isDigit then some (unit * 16 + (c.toNat - '0'.toNat))
    else if 'a' ≤ c ∧ c ≤ 'f' then some (unit * 16 + (c.toNat - 'a'.toNat + 10))
    else if 'A' ≤ c ∧ c ≤ 'F' then some (unit * 16 + (c.toNat - 'A'.toNat + 10))
    else none) 0

/-- The character that a backslash and another one stand for. -/
def shortEscape (c : Char) : Option Nat :=
  if c = '"' ∨ c = '\\' ∨ c = '/' then some c.toNat
  else if c = 'b' then some 0x08
  else if c = 'f' then some 0x0c
  else if c = 'n' then some 0x0a
  else if c = 'r' then some 0x0d
  else if c = 't' then some 0x09
  else none

/-- What comes after an opening quote: the characters up to the closing one, as code points and code units, and what
comes after that. -/
def readUnits : List Char → Option (List Nat × List Char)
  | [] => none
  | c :: text =>
      if c = '"' then some ([], text)
      else if c = '\\' then
        match text with
        | 'u' :: w :: x :: y :: z :: text => do
            let unit ← hexUnit [w, x, y, z]
            let (units, rest) ← readUnits text
            some (unit :: units, rest)
        | c :: text => do
            let unit ← shortEscape c
            let (units, rest) ← readUnits text
            some (unit :: units, rest)
        | [] => none
      else if c < ' ' then none
      else do
        let (units, rest) ← readUnits text
        some (c.toNat :: units, rest)

/-- Two surrogates make a character, and none stands alone. -/
def joinUnits : List Nat → Option (List Char)
  | [] => some []
  | unit :: units =>
      if 0xd800 ≤ unit ∧ unit < 0xdc00 then
        match units with
        | low :: units =>
            if 0xdc00 ≤ low ∧ low < 0xe000 then do
              let text ← joinUnits units
              some (Char.ofNat (0x10000 + (unit - 0xd800) * 0x400 + (low - 0xdc00)) :: text)
            else none
        | [] => none
      else if 0xdc00 ≤ unit ∧ unit < 0xe000 then none
      else do
        let text ← joinUnits units
        some (Char.ofNat unit :: text)

def readString (text : List Char) : Option (List Char × List Char) := do
  let (units, rest) ← readUnits text
  let value ← joinUnits units
  some (value, rest)

def skipSpace (text : List Char) : List Char :=
  text.dropWhile fun c => c = ' ' || c = '\t' || c = '\n' || c = '\r'

/-- A token of one character. -/
def expect (c : Char) (text : List Char) : Option (List Char) :=
  match skipSpace text with
  | d :: rest => if d = c then some rest else none
  | [] => none

def readMember (text : List Char) : Option ((List Char × List Char) × List Char) := do
  let (key, text) ← readString (← expect '"' text)
  let (value, text) ← readString (← expect '"' (← expect ':' text))
  some ((key, value), text)

/-- The members of an object up to its end, at most `count` of them. -/
def readMembers : Nat → List Char → Option (List (List Char × List Char))
  | 0, _ => none
  | count + 1, text => do
      let (member, text) ← readMember text
      match expect ',' text with
      | some text => do
          let members ← readMembers count text
          some (member :: members)
      | none => if skipSpace (← expect '}' text) = [] then some [member] else none

/-- The members of an object, in their order. -/
def readObject (text : List Char) : Option (List (List Char × List Char)) := do
  let text ← expect '{' text
  match expect '}' text with
  | some rest => if skipSpace rest = [] then some [] else none
  | none => readMembers text.length text

/-! ### Writing -/

def escapeChar (c : Char) : List Char := if c = '\\' ∨ c = '"' then ['\\', c] else [c]

def quote (text : List Char) : List Char := '"' :: (text.flatMap escapeChar ++ ['"'])

def writeMember (member : List Char × List Char) : List Char := quote member.1 ++ ':' :: quote member.2

def writeObject (members : List (List Char × List Char)) : List Char :=
  '{' :: (List.intercalate [','] (members.map writeMember) ++ ['}'])

theorem escape_of_notMem {text : List Char} (hbackslash : '\\' ∉ text) (hquote : '"' ∉ text) :
    text.flatMap escapeChar = text := by
  induction text with
  | nil => rfl
  | cons c text ih =>
      rw [List.mem_cons, not_or] at hbackslash hquote
      have hc : escapeChar c = [c] := if_neg (not_or.mpr ⟨fun h => hbackslash.1 h.symm, fun h => hquote.1 h.symm⟩)
      rw [List.flatMap_cons, hc, ih hbackslash.2 hquote.2, List.singleton_append]

theorem writeMembers_cons (member : List Char × List Char) (members : List (List Char × List Char)) :
    List.intercalate [','] ((member :: members).map writeMember) =
      writeMember member ++ members.flatMap fun member => ',' :: writeMember member := by
  induction members generalizing member with
  | nil => simp
  | cons next members ih =>
      rw [List.map_cons, List.map_cons, List.intercalate_cons_cons, ← List.map_cons, ih, List.flatMap_cons]
      simp

/-! ### Reading what was written -/

/-- No control characters. -/
def IsPlain (text : List Char) : Prop := ∀ c ∈ text, ' ' ≤ c

instance (text : List Char) : Decidable (IsPlain text) := List.decidableBAll (fun c => ' ' ≤ c) text

theorem isPlain_cons {c : Char} {text : List Char} : IsPlain (c :: text) ↔ ' ' ≤ c ∧ IsPlain text :=
  List.forall_mem_cons

theorem isPlain_append {text more : List Char} : IsPlain (text ++ more) ↔ IsPlain text ∧ IsPlain more :=
  List.forall_mem_append

theorem readUnits_escaped (text rest : List Char) :
    readUnits (text.flatMap escapeChar ++ '"' :: rest) =
      if IsPlain text then some (text.map Char.toNat, rest) else none := by
  induction text with
  | nil =>
      rw [if_pos (show IsPlain [] from List.forall_mem_nil _), List.flatMap_nil, List.nil_append, readUnits.eq_def]
      rfl
  | cons c text ih =>
      -- one character written, and read again
      have hread : readUnits (escapeChar c ++ (text.flatMap escapeChar ++ '"' :: rest)) =
          if ' ' ≤ c then
            (readUnits (text.flatMap escapeChar ++ '"' :: rest)).bind fun (units, rest) => some (c.toNat :: units, rest)
          else none := by
        generalize text.flatMap escapeChar ++ '"' :: rest = more
        by_cases hescaped : c = '\\' ∨ c = '"'
        · rcases hescaped with rfl | rfl
          · rfl
          · rfl
        · obtain ⟨hbackslash, hquote⟩ := not_or.mp hescaped
          rw [escapeChar, if_neg hescaped, List.singleton_append, readUnits.eq_def]
          dsimp only
          rw [if_neg hquote, if_neg hbackslash]
          by_cases hplain : ' ' ≤ c
          · rw [if_neg (Char.not_lt.mpr hplain), if_pos hplain]
            rfl
          · rw [if_pos (Char.not_le.mp hplain), if_neg hplain]
      rw [List.flatMap_cons, List.append_assoc, hread, ih]
      by_cases hc : ' ' ≤ c
      · by_cases htext : IsPlain text
        · rw [if_pos hc, if_pos htext, if_pos (isPlain_cons.mpr ⟨hc, htext⟩)]
          rfl
        · rw [if_pos hc, if_neg htext, if_neg fun h => htext (isPlain_cons.mp h).2]
          rfl
      · rw [if_neg hc, if_neg fun h => hc (isPlain_cons.mp h).1]

theorem joinUnits_map (text : List Char) : joinUnits (text.map Char.toNat) = some text := by
  induction text with
  | nil => rfl
  | cons c text ih =>
      have hvalid : c.toNat < 0xd800 ∨ 0xdfff < c.toNat ∧ c.toNat < 0x110000 := c.valid
      rw [List.map_cons, joinUnits.eq_def]
      dsimp only
      rw [if_neg (by omega), if_neg (by omega), ih, Char.ofNat_toNat]
      rfl

theorem readString_escaped (text rest : List Char) :
    readString (text.flatMap escapeChar ++ '"' :: rest) = if IsPlain text then some (text, rest) else none := by
  rw [readString, readUnits_escaped]
  by_cases htext : IsPlain text
  · rw [if_pos htext, if_pos htext]
    simp [joinUnits_map]
  · rw [if_neg htext, if_neg htext]
    rfl

def IsPlainMember (member : List Char × List Char) : Prop := IsPlain member.1 ∧ IsPlain member.2

instance (member : List Char × List Char) : Decidable (IsPlainMember member) :=
  inferInstanceAs (Decidable (IsPlain member.1 ∧ IsPlain member.2))

theorem readMember_write (member : List Char × List Char) (rest : List Char) :
    readMember (writeMember member ++ rest) = if IsPlainMember member then some (member, rest) else none := by
  obtain ⟨key, value⟩ := member
  have hkey : expect '"' (writeMember (key, value) ++ rest) =
      some (key.flatMap escapeChar ++ '"' :: ':' :: (quote value ++ rest)) := by
    simp [writeMember, quote, expect, skipSpace]
  have hvalue : (expect ':' (':' :: (quote value ++ rest))).bind (expect '"') =
      some (value.flatMap escapeChar ++ '"' :: rest) := by
    simp [quote, expect, skipSpace]
  obtain ⟨text, hcolon, htext⟩ := Option.bind_eq_some_iff.mp hvalue
  unfold readMember IsPlainMember
  dsimp only
  rw [hkey]
  by_cases hplain : IsPlain key
  · by_cases hplain' : IsPlain value
    · simp [readString_escaped, hcolon, htext, hplain, hplain']
    · simp [readString_escaped, hcolon, htext, hplain, hplain']
  · simp [readString_escaped, hplain]

theorem readMembers_write {members : List (List Char × List Char)} (hne : members ≠ []) {count : Nat}
    (hcount : members.length ≤ count) :
    readMembers count (List.intercalate [','] (members.map writeMember) ++ ['}']) =
      if ∀ member ∈ members, IsPlainMember member then some members else none := by
  induction members generalizing count with
  | nil => exact absurd rfl hne
  | cons member members ih =>
      obtain ⟨count, rfl⟩ : ∃ n, count = n + 1 := ⟨count - 1, by simp at hcount; omega⟩
      have hsplit : (∀ member' ∈ member :: members, IsPlainMember member') ↔
          IsPlainMember member ∧ ∀ member' ∈ members, IsPlainMember member' := List.forall_mem_cons
      rw [if_congr hsplit rfl rfl, readMembers]
      cases members with
      | nil =>
          have hcomma : expect ',' ['}'] = none := rfl
          have hclose : expect '}' ['}'] = some [] := rfl
          have hend : skipSpace [] = [] := rfl
          rw [List.map_singleton, List.intercalate_singleton, readMember_write]
          by_cases hplain : IsPlainMember member
          · simp [hplain, hcomma, hclose, hend]
          · simp [hplain]
      | cons next members =>
          rw [List.map_cons, List.map_cons, List.intercalate_cons_cons, List.append_assoc, List.append_assoc,
            readMember_write]
          have hrest := ih (List.cons_ne_nil _ _) (Nat.le_of_succ_le_succ hcount)
          rw [List.map_cons] at hrest
          by_cases hplain : IsPlainMember member
          · have hcomma : ∀ text, expect ',' ([','] ++ text) = some text := by
              intro text
              simp [expect, skipSpace]
            simp only [hplain, if_true, true_and, Option.bind_eq_bind, Option.bind_some, hcomma, hrest]
            split
            · rfl
            · rfl
          · simp [hplain]

theorem isPlain_writeObject {members : List (List Char × List Char)} (h : ∀ member ∈ members, IsPlainMember member) :
    IsPlain (writeObject members) := by
  have hescaped : ∀ text, IsPlain text → IsPlain (text.flatMap escapeChar) := by
    intro text htext c hc
    obtain ⟨d, hd, hc⟩ := List.mem_flatMap.mp hc
    unfold escapeChar at hc
    split at hc
    · rcases List.mem_pair.mp hc with rfl | rfl
      · decide
      · exact htext c hd
    · obtain rfl := List.mem_singleton.mp hc
      exact htext c hd
  have hquote : ∀ text, IsPlain text → IsPlain (quote text) := by
    intro text htext
    exact isPlain_cons.mpr ⟨by decide, isPlain_append.mpr ⟨hescaped text htext, by decide⟩⟩
  have hmember : ∀ member ∈ members, IsPlain (writeMember member) := by
    intro member hmem
    obtain ⟨hkey, hvalue⟩ := h member hmem
    exact isPlain_append.mpr ⟨hquote _ hkey, isPlain_cons.mpr ⟨by decide, hquote _ hvalue⟩⟩
  refine isPlain_cons.mpr ⟨by decide, isPlain_append.mpr ⟨?_, by decide⟩⟩
  cases members with
  | nil => exact List.forall_mem_nil _
  | cons member members =>
      rw [writeMembers_cons]
      refine isPlain_append.mpr ⟨hmember _ List.mem_cons_self, fun c hc => ?_⟩
      obtain ⟨other, hother, hc⟩ := List.mem_flatMap.mp hc
      exact isPlain_cons.mpr ⟨by decide, hmember _ (List.mem_cons_of_mem _ hother)⟩ c hc

theorem length_le_members (members : List (List Char × List Char)) :
    members.length ≤ (List.intercalate [','] (members.map writeMember)).length := by
  induction members with
  | nil => exact Nat.zero_le _
  | cons member members ih =>
      have hmember : 1 ≤ (writeMember member).length := by simp [writeMember, quote]
      cases members with
      | nil =>
          rw [List.map_singleton, List.intercalate_singleton]
          exact hmember
      | cons next members =>
          rw [List.map_cons, List.map_cons, List.intercalate_cons_cons, ← List.map_cons, List.length_append,
            List.length_append, List.length_cons]
          omega

/-- An object that was written is read exactly if it has no control characters. -/
theorem readObject_write (members : List (List Char × List Char)) :
    readObject (writeObject members) =
      if ∀ member ∈ members, IsPlainMember member then some members else none := by
  cases members with
  | nil => rfl
  | cons member members =>
      have hopen : expect '{' (writeObject (member :: members)) =
          some (List.intercalate [','] ((member :: members).map writeMember) ++ ['}']) := by
        simp [writeObject, expect, skipSpace]
      -- the first member starts with a quote
      have hmember : expect '}' (List.intercalate [','] ((member :: members).map writeMember) ++ ['}']) = none := by
        have hquote : ∃ rest, writeMember member = '"' :: rest := ⟨_, rfl⟩
        obtain ⟨rest, hrest⟩ := hquote
        rw [List.map_cons, hrest, List.intercalate_cons_cons_left]
        rfl
      have hcount := length_le_members (member :: members)
      unfold readObject
      rw [hopen]
      simp only [Option.bind_eq_bind, Option.bind_some, hmember]
      apply readMembers_write (List.cons_ne_nil _ _)
      rw [List.length_append]
      omega

end Json
