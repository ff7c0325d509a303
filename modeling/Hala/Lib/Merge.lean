import Mathlib.Data.List.Basic

/-! Sequences that are merged into one, in which each item carries its source. -/

namespace Merge
variable {ι α : Type*} [DecidableEq ι] {i j : ι} {a : α} {items later : List (ι × α)}

/-- What source `i` has put into the sequence, in its order. -/
def part (i : ι) (items : List (ι × α)) : List α := (items.filter fun item => item.1 = i).map Prod.snd

@[simp] theorem part_nil (i : ι) : part i ([] : List (ι × α)) = [] := rfl

@[simp] theorem part_append (i : ι) (items later : List (ι × α)) : part i (items ++ later) = part i items ++ part i later := by
  simp [part]

@[simp] theorem part_cons_self (i : ι) (a : α) (items : List (ι × α)) : part i ((i, a) :: items) = a :: part i items := by
  simp [part]

theorem part_cons_of_ne (h : j ≠ i) (a : α) (items : List (ι × α)) : part i ((j, a) :: items) = part i items := by
  simp [part, h]

/-- The first item of a sequence is the first of the part of its source, and those of the others are as they were. -/
theorem part_cons (i j : ι) (a : α) (items : List (ι × α)) :
    part i ((j, a) :: items) = (if j = i then [a] else []) ++ part i items := by
  by_cases h : j = i
  · subst h
    rw [part_cons_self, if_pos rfl]
    rfl
  · rw [part_cons_of_ne h, if_neg h]
    rfl

end Merge
