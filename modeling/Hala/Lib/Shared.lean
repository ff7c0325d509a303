import Mathlib.Data.Finset.Card
import Mathlib.Logic.Function.Basic

/-! Reference counts.

Who owns a shared value is a view of the state, `owns`: a step that clones or drops the value changes it at one owner. -/

namespace Shared

/-- The count of a value, and how often the value has been dropped. -/
structure Arc where
  strong : Nat := 1
  drops : Nat := 0
  deriving DecidableEq, Repr

namespace Arc

def clone (a : Arc) : Arc := { a with strong := a.strong + 1 }

/-- The last owner drops the value. -/
def drop (a : Arc) : Arc :=
  if a.strong = 1 then { strong := 0, drops := a.drops + 1 } else { a with strong := a.strong - 1 }

variable {ι : Type*}

/-- The count is the number of owners, and the value has been dropped once there is none. -/
structure OwnedBy (a : Arc) (owns : ι → Bool) : Prop where
  count : ∃ owners : Finset ι, (∀ o, o ∈ owners ↔ owns o = true) ∧ owners.card = a.strong
  drops : a.drops = if a.strong = 0 then 1 else 0

namespace OwnedBy
variable {a : Arc} {owns : ι → Bool} {o p : ι}

theorem strong_pos (h : a.OwnedBy owns) (ho : owns o = true) : 0 < a.strong := by
  obtain ⟨owners, hmem, hcard⟩ := h.count
  rw [← hcard]
  exact Finset.card_pos.mpr ⟨o, (hmem o).mpr ho⟩

theorem strong_eq_zero (h : a.OwnedBy owns) : a.strong = 0 ↔ ∀ o, owns o = false := by
  obtain ⟨owners, hmem, hcard⟩ := h.count
  rw [← hcard, Finset.card_eq_zero, Finset.eq_empty_iff_forall_notMem]
  exact forall_congr' fun o => by rw [hmem, Bool.not_eq_true]

/-- The value is not dropped while it has an owner. -/
theorem not_dropped (h : a.OwnedBy owns) (ho : owns o = true) : a.drops = 0 := by
  rw [h.drops, if_neg (h.strong_pos ho).ne']

theorem dropped_le (h : a.OwnedBy owns) : a.drops ≤ 1 := by
  rw [h.drops]
  split <;> omega

theorem dropped_iff (h : a.OwnedBy owns) : a.drops = 1 ↔ ∀ o, owns o = false := by
  rw [← h.strong_eq_zero, h.drops]
  split <;> simp [*]

variable [DecidableEq ι]

theorem new (o : ι) : ({} : Arc).OwnedBy (Function.update (fun _ => false) o true) where
  count := by
    refine ⟨{o}, fun o' => ?_, Finset.card_singleton o⟩
    rcases eq_or_ne o' o with rfl | hne
    · simp
    · simp [hne]
  drops := rfl

/-- An owner makes another. -/
theorem clone (h : a.OwnedBy owns) (ho : owns o = true) (hnew : owns p = false) :
    a.clone.OwnedBy (Function.update owns p true) where
  count := by
    obtain ⟨owners, hmem, hcard⟩ := h.count
    have hnot : p ∉ owners := fun hin => absurd ((hmem p).mp hin) (by simp [hnew])
    refine ⟨insert p owners, fun x => ?_, ?_⟩
    · rcases eq_or_ne x p with rfl | hne
      · simp
      · simp [hne, hmem]
    · rw [Finset.card_insert_of_notMem hnot, hcard]
      rfl
  drops := (h.not_dropped ho).trans (if_neg (Nat.succ_ne_zero _)).symm

theorem keep {b : Bool} (h : a.OwnedBy owns) (ho : owns o = b) : a.OwnedBy (Function.update owns o b) := by
  rwa [← ho, Function.update_eq_self]

theorem drop (h : a.OwnedBy owns) (ho : owns o = true) : a.drop.OwnedBy (Function.update owns o false) where
  count := by
    obtain ⟨owners, hmem, hcard⟩ := h.count
    refine ⟨owners.erase o, fun x => ?_, ?_⟩
    · rcases eq_or_ne x o with rfl | hne
      · simp
      · simp [hne, hmem]
    · rw [Finset.card_erase_of_mem ((hmem o).mpr ho), hcard, Arc.drop]
      split
      · next hlast => rw [hlast]
      · rfl
  drops := by
    have hpos := h.strong_pos ho
    rw [Arc.drop]
    split
    · rw [h.not_dropped ho]
      rfl
    · next hmore =>
      rw [if_neg (show a.strong - 1 ≠ 0 by omega)]
      exact h.not_dropped ho

/-- An owner gives what it owns to another. -/
theorem move (h : a.OwnedBy owns) (ho : owns o = true) (hnew : owns p = false) :
    a.OwnedBy (Function.update (Function.update owns o false) p true) where
  count := by
    obtain ⟨owners, hmem, hcard⟩ := h.count
    have hnot : p ∉ owners.erase o := fun hin => absurd ((hmem p).mp (Finset.mem_of_mem_erase hin)) (by simp [hnew])
    refine ⟨insert p (owners.erase o), fun x => ?_, ?_⟩
    · rcases eq_or_ne x p with rfl | hx
      · simp
      · rcases eq_or_ne x o with rfl | hx'
        · simp [hx]
        · simp [hx, hx', hmem]
    · rw [Finset.card_insert_of_notMem hnot, Finset.card_erase_add_one ((hmem o).mpr ho), hcard]
  drops := h.drops

end OwnedBy

end Arc

end Shared
