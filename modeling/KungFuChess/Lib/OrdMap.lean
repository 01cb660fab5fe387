import Mathlib.Order.Lattice
import Mathlib.Data.List.Pairwise

/-!
# Finite maps with one representation

A finite map kept as an association list in increasing key order. The order is a field of the map, so
two maps with the same lookups are the same value: equality of maps is equality of lookups, and both
can be decided by evaluation.
-/

/-- A finite map from `κ` to `ν`. -/
structure OrdMap (κ ν : Type) [LinearOrder κ] where
  entries : List (κ × ν)
  sorted : entries.Pairwise fun left right => left.1 < right.1

namespace OrdMap

variable {κ ν : Type} [LinearOrder κ]

instance [DecidableEq ν] : DecidableEq (OrdMap κ ν) := fun left right =>
  decidable_of_iff (left.entries = right.entries) (by
    cases left
    cases right
    simp only [OrdMap.mk.injEq])

def empty : OrdMap κ ν := ⟨[], List.Pairwise.nil⟩

def lookup (key : κ) : List (κ × ν) → Option ν
  | [] => none
  | entry :: rest => if entry.1 = key then some entry.2 else lookup key rest

def find? (map : OrdMap κ ν) (key : κ) : Option ν := lookup key map.entries

def insertEntry (key : κ) (value : ν) : List (κ × ν) → List (κ × ν)
  | [] => [(key, value)]
  | entry :: rest =>
      if key < entry.1 then (key, value) :: entry :: rest
      else if key = entry.1 then (key, value) :: rest
      else entry :: insertEntry key value rest

theorem mem_insertEntry {key : κ} {value : ν} {entries : List (κ × ν)} {entry : κ × ν}
    (hmem : entry ∈ insertEntry key value entries) : entry = (key, value) ∨ entry ∈ entries := by
  induction entries with
  | nil => simpa [insertEntry] using hmem
  | cons first rest ih =>
      unfold insertEntry at hmem
      split at hmem
      · simpa using hmem
      · split at hmem
        · rcases List.mem_cons.mp hmem with hhead | htail
          · exact Or.inl hhead
          · exact Or.inr (List.mem_cons_of_mem _ htail)
        · rcases List.mem_cons.mp hmem with hhead | htail
          · exact Or.inr (hhead ▸ List.mem_cons_self)
          · rcases ih htail with hnew | hold
            · exact Or.inl hnew
            · exact Or.inr (List.mem_cons_of_mem _ hold)

theorem sorted_insertEntry (key : κ) (value : ν) {entries : List (κ × ν)}
    (hsorted : entries.Pairwise fun left right => left.1 < right.1) :
    (insertEntry key value entries).Pairwise fun left right => left.1 < right.1 := by
  induction entries with
  | nil => simp [insertEntry]
  | cons first rest ih =>
      obtain ⟨hfirst, hrest⟩ := List.pairwise_cons.mp hsorted
      unfold insertEntry
      split
      · rename_i hlt
        refine List.pairwise_cons.mpr ⟨fun entry hentry => ?_, hsorted⟩
        rcases List.mem_cons.mp hentry with rfl | htail
        · exact hlt
        · exact hlt.trans (hfirst entry htail)
      · split
        · rename_i heq
          exact List.pairwise_cons.mpr ⟨fun entry hentry => heq ▸ hfirst entry hentry, hrest⟩
        · rename_i hnlt hne
          refine List.pairwise_cons.mpr ⟨fun entry hentry => ?_, ih hrest⟩
          rcases mem_insertEntry hentry with rfl | hold
          · exact lt_of_le_of_ne (not_lt.mp hnlt) (Ne.symm hne)
          · exact hfirst entry hold

def insert (map : OrdMap κ ν) (key : κ) (value : ν) : OrdMap κ ν :=
  ⟨insertEntry key value map.entries, sorted_insertEntry key value map.sorted⟩

/-- Keep the entries that satisfy a test. -/
def filter (map : OrdMap κ ν) (keep : κ → ν → Bool) : OrdMap κ ν :=
  ⟨map.entries.filter fun entry => keep entry.1 entry.2, map.sorted.filter _⟩

def erase (map : OrdMap κ ν) (key : κ) : OrdMap κ ν := map.filter fun other _ => other ≠ key

/-! ### Lookups after an update -/

private theorem lookup_insertEntry (key other : κ) (value : ν) (entries : List (κ × ν)) :
    lookup other (insertEntry key value entries) =
      if other = key then some value else lookup other entries := by
  induction entries with
  | nil => simp only [insertEntry, lookup, eq_comm]
  | cons first rest ih =>
      unfold insertEntry
      split
      · simp only [lookup, eq_comm (a := key)]
      · split
        · rename_i heq
          simp only [lookup, ← heq]
          by_cases hother : other = key
          · simp [hother]
          · simp [hother, Ne.symm hother]
        · rename_i hne
          simp only [lookup, ih]
          by_cases hfirst : first.1 = other
          · have hother : other ≠ key := fun h => hne (h.symm.trans hfirst.symm)
            simp [hfirst, hother]
          · simp [hfirst]

@[simp] theorem find?_insert (map : OrdMap κ ν) (key other : κ) (value : ν) :
    (map.insert key value).find? other = if other = key then some value else map.find? other :=
  lookup_insertEntry key other value map.entries

theorem lookup_eq_some_iff {key : κ} {value : ν} {entries : List (κ × ν)}
    (hsorted : entries.Pairwise fun left right => left.1 < right.1) :
    lookup key entries = some value ↔ (key, value) ∈ entries := by
  induction entries with
  | nil => simp [lookup]
  | cons first rest ih =>
      obtain ⟨hfirst, hrest⟩ := List.pairwise_cons.mp hsorted
      rw [lookup, List.mem_cons]
      split
      · rename_i hkey
        have hout : (key, value) ∉ rest := fun hmem => absurd (hfirst _ hmem) (by simp [hkey])
        simp only [hout, or_false, Option.some.injEq]
        constructor
        · intro h
          obtain rfl := h
          exact Prod.ext hkey.symm rfl
        · intro heq
          rw [← heq]
      · rename_i hkey
        have hout : (key, value) ≠ first := fun heq => hkey (heq ▸ rfl)
        simp only [hout, false_or]
        exact ih hrest

theorem find?_eq_some_iff {map : OrdMap κ ν} {key : κ} {value : ν} :
    map.find? key = some value ↔ (key, value) ∈ map.entries :=
  lookup_eq_some_iff map.sorted

@[simp] theorem find?_filter (map : OrdMap κ ν) (keep : κ → ν → Bool) (key : κ) :
    (map.filter keep).find? key = (map.find? key).filter (keep key) := by
  cases hfind : map.find? key with
  | none =>
      refine Option.eq_none_iff_forall_ne_some.mpr fun value hvalue => ?_
      have hmem := (List.mem_filter.mp (find?_eq_some_iff.mp hvalue)).1
      rw [find?_eq_some_iff.mpr hmem] at hfind
      cases hfind
  | some value =>
      have hmem := find?_eq_some_iff.mp hfind
      by_cases hkeep : keep key value = true
      · rw [Option.filter_some_pos hkeep]
        exact find?_eq_some_iff.mpr (List.mem_filter.mpr ⟨hmem, hkeep⟩)
      · rw [Option.filter_some_neg (by simpa using hkeep)]
        refine Option.eq_none_iff_forall_ne_some.mpr fun other hother => ?_
        obtain ⟨hin, hother⟩ := List.mem_filter.mp (find?_eq_some_iff.mp hother)
        rw [find?_eq_some_iff.mpr hin] at hfind
        cases hfind
        exact hkeep hother

@[simp] theorem find?_erase (map : OrdMap κ ν) (key other : κ) :
    (map.erase key).find? other = if other = key then none else map.find? other := by
  rw [erase, find?_filter]
  by_cases hother : other = key
  · cases map.find? other <;> simp [hother, Option.filter]
  · cases map.find? other <;> simp [hother, Option.filter]

theorem nodup_keys (map : OrdMap κ ν) : (map.entries.map Prod.fst).Nodup :=
  List.pairwise_map.mpr (map.sorted.imp fun hlt heq => absurd hlt (by simp [heq]))

theorem mem_keys {map : OrdMap κ ν} {key : κ} : key ∈ map.entries.map Prod.fst ↔ (map.find? key).isSome = true := by
  rw [List.mem_map, Option.isSome_iff_exists]
  constructor
  · intro h
    obtain ⟨⟨_, value⟩, hmem, rfl⟩ := h
    exact ⟨value, find?_eq_some_iff.mpr hmem⟩
  · intro h
    obtain ⟨value, hfind⟩ := h
    exact ⟨(key, value), find?_eq_some_iff.mp hfind, rfl⟩

/-- Maps with the same lookups are equal: the sorted list is determined by the lookups. -/
theorem ext_find? {left right : OrdMap κ ν} (h : ∀ key, left.find? key = right.find? key) :
    left = right := by
  obtain ⟨leftEntries, hleft⟩ := left
  obtain ⟨rightEntries, hright⟩ := right
  have hmem : ∀ entry, entry ∈ leftEntries ↔ entry ∈ rightEntries := fun entry => by
    rw [← Prod.eta entry, ← lookup_eq_some_iff hleft, ← lookup_eq_some_iff hright]
    exact iff_of_eq (congrArg (· = some entry.2) (h entry.1))
  have hasymm : ∀ a b : κ × ν, a.1 < b.1 → b.1 < a.1 → a = b :=
    fun a b hab hba => absurd hab (lt_asymm hba)
  have hperm : leftEntries.Perm rightEntries :=
    (List.perm_ext_iff_of_nodup
      (hleft.imp fun hlt heq => absurd hlt (by simp [heq]))
      (hright.imp fun hlt heq => absurd hlt (by simp [heq]))).mpr hmem
  have hentries : leftEntries = rightEntries :=
    hperm.eq_of_pairwise (fun a b _ _ hab hba => hasymm a b hab hba) hleft hright
  subst hentries
  rfl

end OrdMap
