import Mathlib.Data.List.Count
import Mathlib.Data.List.Nodup
import Mathlib.Data.List.Perm.Basic

/-!
# Lines in which the first who suits is served

Entries wait in the order in which they came, each under a key. Whoever comes gives up the place held under the
same key, and is matched with the first in the line who suits; if nobody does, the entry waits at the end.

Nobody ever looks at two entries that both wait. That no two of them suit each other follows from the way
the line has come about.
-/

namespace WaitingLine

variable {α κ : Type} (key : α → κ) (suits : α → α → Bool)

/-- No key waits twice, and nobody suits one who came before. -/
structure Valid (line : List α) : Prop where
  distinct : (line.map key).Nodup
  unmatched : line.Pairwise fun x y => suits y x = false

theorem Valid.nil : Valid key suits [] := ⟨List.nodup_nil, List.Pairwise.nil⟩

theorem Valid.sublist {key : α → κ} {suits : α → α → Bool} {line log : List α} (h : Valid key suits line)
    (hsub : log.Sublist line) : Valid key suits log :=
  ⟨h.distinct.sublist (hsub.map key), h.unmatched.sublist hsub⟩

variable [DecidableEq κ]

/-- Whoever waits under the key leaves. -/
def leave (k : κ) (line : List α) : List α := line.filter fun x => key x ≠ k

/-- The first who suits, if there is one, and the line afterwards. -/
def serve (x : α) (line : List α) : Option α × List α :=
  match line.find? (suits x) with
  | some y => (some y, line.eraseP (suits x))
  | none => (none, line ++ [x])

def enter (x : α) (line : List α) : Option α × List α := serve suits x (leave key (key x) line)

/-- The latest entry under each key, in the order in which they came. -/
def record (log : List α) (x : α) : List α := leave key (key x) log ++ [x]

/-- How often the key waits. -/
def places (k : κ) (line : List α) : Nat := line.countP fun x => key x = k

variable {key suits} {x : α} {k k' : κ} {line log : List α}

/-! ### Leaving -/

/-- What is taken out of a list is what it has less. -/
theorem countP_eraseIdx {xs : List α} {index : Nat} (h : xs[index]? = some x) (p : α → Bool) :
    (xs.eraseIdx index).countP p + (if p x then 1 else 0) = xs.countP p := by
  obtain ⟨hlt, rfl⟩ := List.getElem?_eq_some_iff.mp h
  rw [← (List.getElem_cons_eraseIdx_perm hlt).countP_eq p, List.countP_cons]

theorem leave_sublist (k : κ) (line : List α) : (leave key k line).Sublist line := List.filter_sublist

theorem mem_leave {y : α} : y ∈ leave key k line ↔ y ∈ line ∧ key y ≠ k := by simp [leave]

theorem places_leave (k k' : κ) (line : List α) :
    places key k (leave key k' line) = if k = k' then 0 else places key k line := by
  unfold places leave
  rw [List.countP_filter]
  split
  · rename_i heq
    subst heq
    rw [List.countP_eq_zero]
    simp
  · rename_i hne
    apply List.countP_congr
    intro x _
    simp only [Bool.and_eq_true, decide_eq_true_eq]
    constructor
    · exact fun h => h.1
    · exact fun h => ⟨h, fun heq => hne (h.symm.trans heq)⟩

theorem places_append (k : κ) (line line' : List α) :
    places key k (line ++ line') = places key k line + places key k line' := List.countP_append

theorem places_singleton (k : κ) (x : α) : places key k [x] = if key x = k then 1 else 0 := by
  simp [places, List.countP_singleton]

theorem places_eq_zero : places key k line = 0 ↔ ∀ y ∈ line, key y ≠ k := by
  simp [places, List.countP_eq_zero]

theorem places_pos : 0 < places key k line ↔ ∃ y ∈ line, key y = k := by
  simp [places, List.countP_pos_iff]

variable (key) in
/-- Those who stay and those who go are all who were there. -/
theorem places_filter_add (k : κ) (stays : α → Bool) (line : List α) :
    places key k (line.filter stays) + places key k (line.filter fun x => !stays x) = places key k line := by
  unfold places
  rw [← List.countP_eq_countP_filter_add]

/-! ### Being served -/

theorem serve_fst (x : α) (line : List α) : (serve suits x line).1 = line.find? (suits x) := by
  unfold serve
  cases line.find? (suits x) with
  | none => rfl
  | some y => rfl

variable (key)

/-- Whoever suits takes up one place, and gives it up. -/
theorem places_eraseP {y : α} (hfind : line.find? (suits x) = some y) (k : κ) :
    places key k (line.eraseP (suits x)) + places key k [y] = places key k line := by
  obtain ⟨hsuits, before, after, rfl, hbefore⟩ := List.find?_eq_some_iff_append.mp hfind
  rw [List.eraseP_append_right _ (by simpa using hbefore), List.eraseP_cons_of_pos hsuits]
  unfold places
  rw [List.countP_append, List.countP_append, ← List.singleton_append (l := after), List.countP_append]
  omega

variable (suits)

theorem places_serve (k : κ) (x : α) (line : List α) :
    places key k (serve suits x line).2 + places key k (line.find? (suits x)).toList =
      places key k line + if (line.find? (suits x)).isSome then 0 else places key k [x] := by
  unfold serve
  cases hfind : line.find? (suits x) with
  | none => exact (places_append k line [x])
  | some y => exact (places_eraseP key hfind k).trans (Nat.add_zero _).symm

omit [DecidableEq κ] in
/-- The first who suits has a property if and only if nobody who suits without it has no one before them
who suits with it. -/
theorem first_iff (line : List α) {p : α → Bool} {q : α → Prop} :
    (∀ y, line.find? p = some y → q y) ↔
      ∀ before y after, line = before ++ y :: after → p y = true → ¬q y → ∃ z ∈ before, p z = true ∧ q z := by
  constructor
  · intro hfirst before y after h
    obtain rfl := h
    intro hsuits hnot
    rw [List.find?_append] at hfirst
    cases hbefore : before.find? p with
    | some z =>
        rw [hbefore] at hfirst
        exact ⟨z, List.mem_of_find?_eq_some hbefore, List.find?_some hbefore, hfirst z rfl⟩
    | none =>
        rw [hbefore, List.find?_cons_of_pos hsuits] at hfirst
        exact absurd (hfirst y rfl) hnot
  · intro hbefore y hfind
    by_contra hnot
    obtain ⟨hsuits, before, after, hline, hnone⟩ := List.find?_eq_some_iff_append.mp hfind
    obtain ⟨z, hz, hsuitsz, _⟩ := hbefore before y after hline hsuits hnot
    have hneither := hnone z hz
    rw [hsuitsz] at hneither
    cases hneither

/-! ### Entering -/

/-- A key that enters ends up waiting, or is served at once. -/
theorem places_enter_self (x : α) (line : List α) :
    places key (key x) (enter key suits x line).2 = if (enter key suits x line).1.isSome then 0 else 1 := by
  have hserved := places_serve key suits (key x) x (leave key (key x) line)
  rw [places_leave, if_pos rfl, places_singleton, if_pos rfl] at hserved
  rw [enter, serve_fst]
  cases hfind : (leave key (key x) line).find? (suits x) with
  | none => simpa [hfind, places] using hserved
  | some y =>
      rw [hfind] at hserved
      simp only [Option.isSome_some, if_true] at hserved ⊢
      omega

/-- Every other key keeps its places, unless it is served. -/
theorem places_enter_of_ne (hne : k ≠ key x) (line : List α) :
    places key k (enter key suits x line).2 + places key k (enter key suits x line).1.toList = places key k line := by
  have hserved := places_serve key suits k x (leave key (key x) line)
  rw [places_leave, if_neg hne, places_singleton, if_neg hne.symm] at hserved
  rw [enter, serve_fst]
  simpa using hserved

variable {key suits}

theorem serve_sublist (x : α) (line : List α) : (serve suits x line).2.Sublist (line ++ [x]) := by
  unfold serve
  cases line.find? (suits x) with
  | none => exact List.Sublist.refl _
  | some y => exact List.eraseP_sublist.trans (List.sublist_append_left _ _)

/-- The line is in the order in which its entries came. -/
theorem enter_sublist_record (hlog : line.Sublist log) (x : α) :
    (enter key suits x line).2.Sublist (record key log x) :=
  (serve_sublist x _).trans ((hlog.filter _).append (List.Sublist.refl _))

namespace Valid

omit [DecidableEq κ] in
theorem serve (h : Valid key suits line) (hnew : ∀ y ∈ line, key y ≠ key x) :
    Valid key suits (serve suits x line).2 := by
  unfold WaitingLine.serve
  cases hfind : line.find? (suits x) with
  | some y => exact h.sublist List.eraseP_sublist
  | none =>
      have hnone := List.find?_eq_none.mp hfind
      refine ⟨?_, ?_⟩
      · rw [List.map_append, List.map_singleton]
        apply List.Nodup.append h.distinct (List.nodup_singleton _)
        rw [List.disjoint_singleton]
        intro hmem
        obtain ⟨y, hy, hkey⟩ := List.mem_map.mp hmem
        exact hnew y hy hkey
      · rw [List.pairwise_append]
        refine ⟨h.unmatched, List.pairwise_singleton _ _, ?_⟩
        intro y hy z hz
        rw [List.mem_singleton.mp hz]
        simpa using hnone y hy

theorem enter (h : Valid key suits line) (x : α) : Valid key suits (enter key suits x line).2 :=
  (h.sublist (leave_sublist _ _)).serve fun _ hy => (mem_leave.mp hy).2

end Valid

end WaitingLine
