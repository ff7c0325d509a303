import Mathlib.Algebra.BigOperators.Group.Finset.Piecewise
import Mathlib.Algebra.BigOperators.Ring.Finset
import Mathlib.Algebra.Order.BigOperators.Group.Finset
import Mathlib.Order.Interval.Finset.Nat

/-! Sums over a table of which one entry moves at a time, and the sizes of regions that do not overlap. -/

namespace Tally

section Sums
variable {ι π M : Type*} [DecidableEq ι] [AddCommGroup M] {entries : ι → π} {s : Finset ι} {i : ι} {entry : π}

/-- The sum of a view of the entries changes by what the entry that moves shows. -/
theorem sum_update (view : π → M) (hi : i ∈ s) :
    ∑ j ∈ s, view (Function.update entries i entry j) = ∑ j ∈ s, view (entries j) - view (entries i) + view entry := by
  have hrest : ∑ j ∈ s.erase i, view (Function.update entries i entry j) = ∑ j ∈ s.erase i, view (entries j) := by
    refine Finset.sum_congr rfl ?_
    intro j hj
    rw [Function.update_of_ne (Finset.ne_of_mem_erase hj)]
  rw [← Finset.add_sum_erase s _ hi, Function.update_self, hrest, ← Finset.add_sum_erase s _ hi]
  rw [add_sub_cancel_left, add_comm]

/-- Entries that are not summed may move. -/
theorem sum_update_of_notMem (view : π → M) (hi : i ∉ s) :
    ∑ j ∈ s, view (Function.update entries i entry j) = ∑ j ∈ s, view (entries j) := by
  refine Finset.sum_congr rfl ?_
  intro j hj
  rw [Function.update_of_ne]
  rintro rfl
  exact hi hj

end Sums

section Counts
variable {ι π : Type*} [DecidableEq ι] {s : Finset ι} {i : ι}

/-- The number of the entries that meet `p` changes by the entry that moves. -/
theorem card_update (entries : ι → π) (entry : π) (p : π → Bool) (hi : i ∈ s) :
    (s.filter fun j => p (Function.update entries i entry j)).card + (p (entries i)).toNat =
      (s.filter fun j => p (entries j)).card + (p entry).toNat := by
  have hrest : ∑ j ∈ s.erase i, (p (Function.update entries i entry j)).toNat = ∑ j ∈ s.erase i, (p (entries j)).toNat := by
    refine Finset.sum_congr rfl ?_
    intro j hj
    rw [Function.update_of_ne (Finset.ne_of_mem_erase hj)]
  have hcard : ∀ q : ι → Bool, (s.filter fun j => q j).card = ∑ j ∈ s, (q j).toNat := by
    intro q
    rw [Finset.card_filter]
    refine Finset.sum_congr rfl ?_
    intro j _
    cases q j <;> rfl
  rw [hcard, hcard, ← Finset.add_sum_erase s _ hi, Function.update_self, hrest,
    ← Finset.add_sum_erase s (fun j => (p (entries j)).toNat) hi]
  omega

/-- The entries below `n`, and a new one. -/
theorem card_update_succ (entries : ℕ → π) (entry : π) (p : π → Bool) (n : ℕ) :
    ((Finset.range (n + 1)).filter fun j => p (Function.update entries n entry j)).card =
      ((Finset.range n).filter fun j => p (entries j)).card + (p entry).toNat := by
  have hold : ((Finset.range n).filter fun j => p (Function.update entries n entry j)) =
      (Finset.range n).filter fun j => p (entries j) := by
    refine Finset.filter_congr ?_
    intro j hj
    rw [Function.update_of_ne (Finset.mem_range.mp hj).ne]
  rw [Finset.range_add_one, Finset.filter_insert, Function.update_self]
  cases p entry with
  | false => simpa using congrArg Finset.card hold
  | true =>
    rw [if_pos rfl, Finset.card_insert_of_notMem (by simp), hold]
    rfl

end Counts

section Regions
variable {ι : Type*} {s : Finset ι} {low high : ℕ}

/-- Regions that lie in a range and do not overlap are no larger together than the range. -/
theorem sum_size_le (start size : ι → ℕ) (hlow : ∀ i ∈ s, low ≤ start i) (hhigh : ∀ i ∈ s, start i + size i ≤ high)
    (hapart : ∀ i ∈ s, ∀ j ∈ s, i ≠ j → start i + size i ≤ start j ∨ start j + size j ≤ start i) :
    ∑ i ∈ s, size i ≤ high - low := by
  have hdisjoint : (s : Set ι).PairwiseDisjoint fun i => Finset.Ico (start i) (start i + size i) := by
    intro i hi j hj hne
    rw [Function.onFun, Finset.disjoint_left]
    intro a ha ha'
    rw [Finset.mem_Ico] at ha ha'
    have := hapart i hi j hj hne
    omega
  have hsubset : (s.biUnion fun i => Finset.Ico (start i) (start i + size i)) ⊆ Finset.Ico low high := by
    rw [Finset.biUnion_subset]
    intro i hi
    exact Finset.Ico_subset_Ico (hlow i hi) (hhigh i hi)
  calc ∑ i ∈ s, size i = ∑ i ∈ s, (Finset.Ico (start i) (start i + size i)).card := by simp
    _ = (s.biUnion fun i => Finset.Ico (start i) (start i + size i)).card := (Finset.card_biUnion hdisjoint).symm
    _ ≤ (Finset.Ico low high).card := Finset.card_le_card hsubset
    _ = high - low := Nat.card_Ico low high

end Regions

end Tally
