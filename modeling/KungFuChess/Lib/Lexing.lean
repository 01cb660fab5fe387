import Mathlib.Data.List.DropRight
import Mathlib.Data.List.TakeWhile

/-!
# Words on a line

A reader skips blanks and takes what comes before the next stop. A stop is a blank, but not every blank need be one. From
a line that was put together of words without blanks these words are read, and such a reading comes from no other line.
-/

namespace Lexing

variable {α : Type*} (blank stop : α → Bool)

/-- The next word and what follows it. -/
def next (text : List α) : Option (List α × List α) :=
  let rest := text.dropWhile blank
  if rest.isEmpty then none else some (rest.takeWhile (!stop ·), rest.dropWhile (!stop ·))

/-- The words that `next` hands out until there are none left. -/
inductive Reads : List α → List (List α) → Prop
  | done {text} : next blank stop text = none → Reads text []
  | word {text word rest words} : next blank stop text = some (word, rest) → Reads rest words → Reads text (word :: words)

def trim (text : List α) : List α := (text.dropWhile blank).rdropWhile blank

def Blanks (text : List α) : Prop := ∀ c ∈ text, blank c = true

instance : DecidablePred (Blanks blank) := fun text => inferInstanceAs (Decidable (∀ c ∈ text, blank c = true))

def IsWord (word : List α) : Prop := word ≠ [] ∧ ∀ c ∈ word, blank c = false

/-- What stands between two words: blanks, and a stop first. -/
def IsGap (gap : List α) : Prop := (∃ c ∈ gap.head?, stop c = true) ∧ Blanks blank gap

/-- Words with a gap before each. -/
inductive Parted : List (List α) → List α → Prop
  | nil : Parted [] []
  | cons {gap word words tail} : IsGap blank stop gap → Parted words tail → Parted (word :: words) (gap ++ (word ++ tail))

/-- A line of words, with blanks around it. -/
def Line (text word : List α) (words : List (List α)) : Prop :=
  ∃ lead tail trail, text = lead ++ (word ++ tail) ++ trail ∧ Blanks blank lead ∧ Blanks blank trail ∧
    Parted blank stop words tail

variable {blank stop} {text word rest gap tail : List α} {words : List (List α)}

/-! ### One word -/

theorem head?_word (hword : IsWord blank word) : ∀ c ∈ (word ++ tail).head?, blank c = false := by
  obtain ⟨hne, hplain⟩ := hword
  cases word with
  | nil => exact absurd rfl hne
  | cons c word =>
      intro d h
      obtain ⟨⟩ := h
      exact hplain c List.mem_cons_self

theorem dropWhile_eq_self (hhead : ∀ c ∈ text.head?, blank c = false) : text.dropWhile blank = text := by
  cases text with
  | nil => rfl
  | cons c text => exact List.dropWhile_cons_of_neg (Bool.eq_false_iff.mp (hhead c rfl))

theorem next_eq_none_iff : next blank stop text = none ↔ Blanks blank text := by
  unfold next Blanks
  rw [← List.dropWhile_eq_nil_iff]
  cases text.dropWhile blank <;> simp

theorem next_append (hstop : ∀ c, stop c = true → blank c = true) (hgap : Blanks blank gap) (hword : IsWord blank word)
    (htail : ∀ c ∈ tail.head?, stop c = true) : next blank stop (gap ++ (word ++ tail)) = some (word, tail) := by
  have hkeep : ∀ c ∈ word, (!stop c) = true := by
    intro c hc
    cases hend : stop c with
    | false => rfl
    | true => cases (hstop c hend).symm.trans (hword.2 c hc)
  have hskip : (gap ++ (word ++ tail)).dropWhile blank = word ++ tail := by
    rw [List.dropWhile_append_of_pos hgap, dropWhile_eq_self (head?_word hword)]
  have hends : tail.takeWhile (!stop ·) = [] ∧ tail.dropWhile (!stop ·) = tail := by
    cases tail with
    | nil => exact ⟨rfl, rfl⟩
    | cons c tail =>
        have hc : ¬(!stop c) = true := by simp [htail c rfl]
        exact ⟨List.takeWhile_cons_of_neg hc, List.dropWhile_cons_of_neg hc⟩
  have hne : (word ++ tail).isEmpty = false := by simp [hword.1]
  simp only [next, hskip, hne, Bool.false_eq_true, if_false, List.takeWhile_append_of_pos hkeep,
    List.dropWhile_append_of_pos hkeep, hends.1, hends.2, List.append_nil]

/-- The word is taken off from where it stands, up to a stop or the end. -/
theorem next_eq_some (h : next blank stop text = some (word, rest)) :
    ∃ gap, text = gap ++ (word ++ rest) ∧ Blanks blank gap ∧ ∀ c ∈ rest.head?, stop c = true := by
  unfold next at h
  dsimp only at h
  split at h
  · cases h
  · obtain ⟨rfl, rfl⟩ := Prod.mk.inj (Option.some.inj h)
    refine ⟨text.takeWhile blank, ?_, fun c hc => List.mem_takeWhile_imp hc, ?_⟩
    · rw [List.takeWhile_append_dropWhile, List.takeWhile_append_dropWhile]
    · intro c hc
      have hnot := List.head?_dropWhile_not (!stop ·) (text.dropWhile blank)
      rw [Option.mem_def.mp hc] at hnot
      simpa using hnot

/-! ### All words -/

theorem reads_nil_iff : Reads blank stop text [] ↔ next blank stop text = none := by
  constructor
  · intro h
    rcases h with h | _
    exact h
  · exact .done

theorem reads_cons_iff :
    Reads blank stop text (word :: words) ↔
      ∃ rest, next blank stop text = some (word, rest) ∧ Reads blank stop rest words := by
  constructor
  · intro h
    rcases h with _ | ⟨h, hrest⟩
    exact ⟨_, h, hrest⟩
  · intro h
    obtain ⟨rest, h, hrest⟩ := h
    exact .word h hrest

theorem Reads.unique {words' : List (List α)} (h : Reads blank stop text words) (h' : Reads blank stop text words') :
    words = words' := by
  induction h generalizing words' with
  | done hnone =>
      cases h' with
      | done => rfl
      | word hsome => cases hnone.symm.trans hsome
  | word hsome _ ih =>
      cases h' with
      | done hnone => cases hnone.symm.trans hsome
      | word hsome' hrest =>
          cases hsome.symm.trans hsome'
          rw [ih hrest]

theorem Parted.head (h : Parted blank stop words tail) : ∀ c ∈ tail.head?, stop c = true := by
  cases h with
  | nil => exact fun c hc => absurd hc (Option.not_mem_none c)
  | cons hgap _ =>
      obtain ⟨⟨c, hc, hstop⟩, -⟩ := hgap
      intro d hd
      rw [List.head?_append, Option.mem_def.mp hc] at hd
      cases hd
      exact hstop

theorem Parted.reads (hstop : ∀ c, stop c = true → blank c = true) (h : Parted blank stop words tail)
    (hwords : ∀ word ∈ words, IsWord blank word) : Reads blank stop tail words := by
  induction h with
  | nil => exact .done rfl
  | cons hgap htail ih =>
      obtain ⟨hword, hwords⟩ := List.forall_mem_cons.mp hwords
      exact .word (next_append hstop hgap.2 hword htail.head) (ih hwords)

/-- A text that starts with a stop and does not end in a blank is parted as it is read. -/
theorem Reads.parted (hstop : ∀ c, stop c = true → blank c = true) (h : Reads blank stop text words)
    (hwords : ∀ word ∈ words, IsWord blank word) (hhead : ∀ c ∈ text.head?, stop c = true)
    (hlast : ∀ c ∈ text.getLast?, blank c = false) : Parted blank stop words text := by
  induction h with
  | @done text hnone =>
      have hblanks := next_eq_none_iff.mp hnone
      cases hend : text.getLast? with
      | none =>
          rw [List.getLast?_eq_none_iff.mp hend]
          exact .nil
      | some c => cases (hblanks c (List.mem_of_getLast? hend)).symm.trans (hlast c hend)
  | @word text word rest words hsome _ ih =>
      obtain ⟨hword, hwords⟩ := List.forall_mem_cons.mp hwords
      obtain ⟨gap, rfl, hgap, hrest⟩ := next_eq_some hsome
      have hfirst : ∃ c ∈ gap.head?, stop c = true := by
        cases gap with
        | cons c gap => exact ⟨c, rfl, hhead c rfl⟩
        | nil =>
            -- the word itself would start with a stop
            obtain ⟨hne, hplain⟩ := hword
            cases word with
            | nil => exact absurd rfl hne
            | cons c word => cases (hstop c (hhead c rfl)).symm.trans (hplain c List.mem_cons_self)
      refine .cons ⟨hfirst, hgap⟩ (ih hwords hrest fun c hc => hlast c ?_)
      rw [List.getLast?_append, List.getLast?_append, Option.mem_def.mp hc]
      rfl

/-! ### A line -/

theorem Parted.getLast? (h : Parted blank stop words tail) (hword : IsWord blank word)
    (hwords : ∀ word ∈ words, IsWord blank word) : ∀ c ∈ (word ++ tail).getLast?, blank c = false := by
  induction h generalizing word with
  | nil =>
      intro c hc
      rw [List.append_nil] at hc
      exact hword.2 c (List.mem_of_getLast? hc)
  | @cons gap next words tail hgap _ ih =>
      obtain ⟨hnext, hwords⟩ := List.forall_mem_cons.mp hwords
      intro c hc
      refine ih hnext hwords c ?_
      have hne : next ++ tail ≠ [] := fun hnil => hnext.1 (List.append_eq_nil_iff.mp hnil).1
      rwa [List.getLast?_append_of_ne_nil _ (List.append_ne_nil_of_right_ne_nil _ hne),
        List.getLast?_append_of_ne_nil _ hne] at hc

theorem trim_append {lead body trail : List α} (hlead : Blanks blank lead) (htrail : Blanks blank trail)
    (hhead : ∀ c ∈ body.head?, blank c = false) (hlast : ∀ c ∈ body.getLast?, blank c = false) :
    trim blank (lead ++ body ++ trail) = body := by
  cases body with
  | nil =>
      have hblanks : Blanks blank (lead ++ [] ++ trail) := by simpa [Blanks, or_imp, forall_and] using ⟨hlead, htrail⟩
      rw [trim, List.dropWhile_eq_nil_iff.mpr hblanks, List.rdropWhile_nil]
  | cons c body =>
      have hskip : (lead ++ (c :: body) ++ trail).dropWhile blank = c :: body ++ trail := by
        rw [List.append_assoc, List.dropWhile_append_of_pos hlead]
        exact dropWhile_eq_self hhead
      have hbody : (c :: body).rdropWhile blank = c :: body :=
        List.rdropWhile_eq_self_iff.mpr fun hne => by simp [hlast _ (List.getLast?_eq_some_getLast hne)]
      have htail : ∀ d ∈ trail.reverse, blank d = true := fun d hd => htrail d (List.mem_reverse.mp hd)
      rw [trim, hskip, List.rdropWhile, List.reverse_append, List.dropWhile_append_of_pos htail, ← List.rdropWhile, hbody]

theorem getLast?_trim : ∀ c ∈ (trim blank text).getLast?, blank c = false := by
  intro c hc
  have hne : trim blank text ≠ [] := by
    intro hnil
    rw [hnil] at hc
    cases hc
  have hnot := List.rdropWhile_last_not blank _ hne
  rw [List.getLast?_eq_some_getLast hne, Option.mem_def, Option.some.injEq] at hc
  rw [← hc]
  exact Bool.eq_false_iff.mpr hnot

theorem reads_trim_iff (hstop : ∀ c, stop c = true → blank c = true) (hword : IsWord blank word)
    (hwords : ∀ word ∈ words, IsWord blank word) :
    Reads blank stop (trim blank text) (word :: words) ↔ Line blank stop text word words := by
  constructor
  · intro hreads
    cases hreads with
    | @word _ _ rest _ hsome hrest =>
        obtain ⟨gap, hgap, hblanks, hhead⟩ := next_eq_some hsome
        refine ⟨text.takeWhile blank ++ gap, rest, (text.dropWhile blank).rtakeWhile blank, ?_, ?_, ?_, ?_⟩
        · rw [List.append_assoc _ gap, ← hgap, trim, List.append_assoc, List.rdropWhile_append_rtakeWhile,
            List.takeWhile_append_dropWhile]
        · exact fun c hc => (List.mem_append.mp hc).elim List.mem_takeWhile_imp (hblanks c)
        · exact fun c hc => List.mem_rtakeWhile_imp hc
        · refine hrest.parted hstop hwords hhead fun c hc => ?_
          have hlast : c ∈ (trim blank text).getLast? := by
            rw [hgap, List.getLast?_append, List.getLast?_append, Option.mem_def.mp hc]
            rfl
          exact getLast?_trim c hlast
  · intro h
    obtain ⟨lead, tail, trail, rfl, hlead, htrail, hparted⟩ := h
    rw [trim_append hlead htrail (head?_word hword) (hparted.getLast? hword hwords)]
    have hnone : Blanks blank [] := fun c hc => absurd hc List.not_mem_nil
    exact .word (next_append hstop hnone hword hparted.head) (hparted.reads hstop hwords)

theorem Line.unique (hstop : ∀ c, stop c = true → blank c = true) {word' : List α} {words' : List (List α)}
    (h : Line blank stop text word words) (h' : Line blank stop text word' words')
    (hwords : ∀ w ∈ word :: words, IsWord blank w) (hwords' : ∀ w ∈ word' :: words', IsWord blank w) :
    word = word' ∧ words = words' := by
  obtain ⟨hword, hwords⟩ := List.forall_mem_cons.mp hwords
  obtain ⟨hword', hwords'⟩ := List.forall_mem_cons.mp hwords'
  have hsame := ((reads_trim_iff hstop hword hwords).mpr h).unique ((reads_trim_iff hstop hword' hwords').mpr h')
  exact List.cons.inj hsame

end Lexing
