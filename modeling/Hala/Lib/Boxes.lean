import Mathlib.Logic.Function.Basic

/-! Boxes on a heap, each with the number of its allocation. A number is not given twice. -/

namespace Boxes

@[ext] structure Heap (β : Type*) where
  boxes : Nat → Option β
  next : Nat
  fresh : ∀ i, next ≤ i → boxes i = none

namespace Heap
variable {β : Type*} {h : Heap β} {i j : Nat} {b : β}

def empty : Heap β where
  boxes _ := none
  next := 0
  fresh _ _ := rfl

/-- A new box has the number `next`. -/
def alloc (h : Heap β) (b : β) : Heap β where
  boxes := Function.update h.boxes h.next (some b)
  next := h.next + 1
  fresh i hi := by rw [Function.update_of_ne (by omega), h.fresh i (by omega)]

/-- Writes to the box, if it is there. -/
def set (h : Heap β) (i : Nat) (b : β) : Heap β where
  boxes j := if j = i then (h.boxes j).map fun _ => b else h.boxes j
  next := h.next
  fresh j hj := by
    rw [h.fresh j hj]
    split <;> rfl

def free (h : Heap β) (i : Nat) : Heap β where
  boxes := Function.update h.boxes i none
  next := h.next
  fresh j hj := by
    rcases eq_or_ne j i with rfl | hne
    · exact Function.update_self ..
    · rw [Function.update_of_ne hne, h.fresh j hj]

theorem lt_next (h : Heap β) (hi : h.boxes i = some b) : i < h.next := by
  by_contra hge
  rw [h.fresh i (Nat.le_of_not_lt hge)] at hi
  cases hi

@[simp] theorem alloc_self (h : Heap β) (b : β) : (h.alloc b).boxes h.next = some b := Function.update_self ..

theorem set_same (hi : h.boxes i = some b) : h.set i b = h := by
  ext j : 2
  · dsimp only [set]
    split
    · next heq => rw [heq, hi, Option.map_some]
    · rfl
  · rfl

theorem set_boxes (hi : h.boxes i = some b) (b' : β) : (h.set i b').boxes = Function.update h.boxes i (some b') := by
  funext j
  rcases eq_or_ne j i with rfl | hne
  · simp [set, hi]
  · simp [set, hne]

@[simp] theorem free_self (h : Heap β) (i : Nat) : (h.free i).boxes i = none := Function.update_self ..

end Heap

/-! ### Holders -/

/-- A box that is there has one holder, and nothing else is held. -/
def Held {β ι : Type*} (box : Option β) (P : ι → Prop) : Prop := (box = none ∧ ∀ k, ¬P k) ∨ (box ≠ none ∧ ∃! k, P k)

/-- Every box has one holder; `Holds k i` is that `k` holds box `i`. -/
def Exact {β ι : Type*} (boxes : Nat → Option β) (Holds : ι → Nat → Prop) : Prop := ∀ i, Held (boxes i) (Holds · i)

section Exact
variable {β ι : Type*} {boxes boxes' : Nat → Option β} {Holds Holds' : ι → Nat → Prop} {i j : Nat} {k k' : ι} {b : β}

theorem Exact.box (h : Exact boxes Holds) (hk : Holds k i) : boxes i ≠ none :=
  (h i).elim (fun hnone => absurd hk (hnone.2 k)) And.left

theorem Exact.unique (h : Exact boxes Holds) (hk : Holds k i) (hk' : Holds k' i) : k = k' :=
  (h i).elim (fun hnone => absurd hk (hnone.2 k)) fun hsome => hsome.2.unique hk hk'

/-- Nothing changes but box `i`. -/
theorem Exact.update (h : Exact boxes Holds) {box : Option β} (hothers : ∀ j, j ≠ i → ∀ k, Holds' k j ↔ Holds k j)
    (hi : Held box (Holds' · i)) : Exact (Function.update boxes i box) Holds' := by
  intro j
  rcases eq_or_ne j i with rfl | hne
  · rwa [Function.update_self]
  · rw [Function.update_of_ne hne]
    have hholds : (Holds' · j) = (Holds · j) := funext fun k => propext (hothers j hne k)
    rw [hholds]
    exact h j

/-- A box gets its first holder. -/
theorem Exact.insert (h : Exact boxes Holds) (hfree : boxes i = none)
    (hholds : ∀ k' j, Holds' k' j ↔ Holds k' j ∨ (k' = k ∧ j = i)) (b : β) :
    Exact (Function.update boxes i (some b)) Holds' := by
  refine h.update (fun j hne k' => (hholds k' j).trans (or_iff_left fun hkj => hne hkj.2)) (.inr ⟨by simp, k, ?_, ?_⟩)
  · exact (hholds k i).mpr (.inr ⟨rfl, rfl⟩)
  · intro k' hk'
    exact ((hholds k' i).mp hk').elim (fun hold => absurd hfree (h.box hold)) And.left

/-- A box and its holder go. -/
theorem Exact.remove (h : Exact boxes Holds) (hholds : ∀ k j, Holds' k j ↔ Holds k j ∧ j ≠ i) :
    Exact (Function.update boxes i none) Holds' :=
  h.update (fun j hne k => (hholds k j).trans (and_iff_left hne)) (.inl ⟨rfl, fun k hk => ((hholds k i).mp hk).2 rfl⟩)

/-- A box changes its holder. -/
theorem Exact.move (h : Exact boxes Holds) (hk : Holds k i) (k' : ι)
    (hholds : ∀ k'' j, Holds' k'' j ↔ (Holds k'' j ∧ j ≠ i) ∨ (k'' = k' ∧ j = i)) : Exact boxes Holds' := by
  intro j
  rcases eq_or_ne j i with rfl | hne
  · refine .inr ⟨h.box hk, k', (hholds k' j).mpr (.inr ⟨rfl, rfl⟩), fun k'' hk'' => ?_⟩
    exact ((hholds k'' j).mp hk'').elim (fun hold => absurd rfl hold.2) And.left
  · have hsame : (Holds' · j) = (Holds · j) :=
      funext fun k => propext ((hholds k j).trans (by simp [hne]))
    rw [hsame]
    exact h j

end Exact

end Boxes
