import Mathlib.Data.List.Basic

/-!
# Two readers of one line

Two readers take turns at a line, each taking the first item. Items of one kind are meant for the first reader.
They all get to it if they stand at every other place at most, counted from the place that it takes next.
-/

namespace Alternation

variable {α : Type} {p : α → Bool} {before : Nat} {items : List α} {item : α}

/-- The items of the kind `p` are taken by the first reader, if `before` of the items are taken before it is its
turn again: none, or one. -/
def Spaced (p : α → Bool) (before : Nat) (items : List α) : Prop :=
  ∀ i item, items[i]? = some item → p item = true → (i + before) % 2 = 0

theorem spaced_of_none (h : ∀ item ∈ items, p item = false) : Spaced p before items := by
  intro i item hi hp
  rw [h item (List.mem_of_getElem? hi)] at hp
  cases hp

theorem Spaced.take_first (h : Spaced p 0 items) : Spaced p 1 items.tail := by
  intro i item hi hp
  rw [List.getElem?_tail] at hi
  exact h (i + 1) item hi hp

theorem Spaced.take_second (h : Spaced p 1 items) : Spaced p 0 items.tail := by
  intro i item hi hp
  rw [List.getElem?_tail] at hi
  have hplace := h (i + 1) item hi hp
  omega

/-- The second reader takes nothing that is meant for the first. -/
theorem Spaced.head_second (h : Spaced p 1 items) (hitem : item ∈ items.take 1) : p item = false := by
  cases items with
  | nil => cases hitem
  | cons first rest =>
      obtain rfl := List.mem_singleton.mp hitem
      by_contra hp
      have hplace := h 0 item rfl (Bool.not_eq_false _ ▸ hp)
      omega

theorem Spaced.concat (h : Spaced p before items) (hitem : p item = true → (items.length + before) % 2 = 0) :
    Spaced p before (items ++ [item]) := by
  intro i other hi hp
  rw [List.getElem?_append] at hi
  split at hi
  · exact h i other hi hp
  · rename_i hlast
    rw [List.getElem?_singleton] at hi
    split at hi
    · cases hi
      have hplace := hitem hp
      omega
    · cases hi

end Alternation
