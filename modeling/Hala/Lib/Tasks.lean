import Mathlib.Logic.Function.Basic

/-! Tasks that share a lock.

A machine keeps the place of each of its tasks in a table, and a step moves one of them. What is asked of a place, such
as whether the lock is held there, is a view of it. -/

namespace Tasks

section Views
variable {ι π γ : Type} [DecidableEq ι]

variable {place : ι → π} {i : ι} {p p' : π}

/-- A place of the table is that of the task that moved, or as it was. -/
theorem update_cases {j : ι} {q : π} (h : Function.update place i p j = q) : (j = i ∧ p = q) ∨ (j ≠ i ∧ place j = q) := by
  by_cases hj : j = i
  · subst hj
    rw [Function.update_self] at h
    exact Or.inl ⟨rfl, h⟩
  · rw [Function.update_of_ne hj] at h
    exact Or.inr ⟨hj, h⟩

/-- A view that does not tell the new place of a task from its old one is the same for all tasks. -/
theorem view_update (view : π → γ) (hplace : place i = p) (h : view p' = view p) (j : ι) :
    view (Function.update place i p' j) = view (place j) := by
  by_cases hj : j = i
  · rw [hj, Function.update_self, hplace, h]
  · rw [Function.update_of_ne hj]

/-- What holds at the new place of a task held at its old one, so it did for all tasks. -/
theorem view_of_update (view : π → Bool) (hplace : place i = p) (h : view p' = true → view p = true) (j : ι)
    (hj : view (Function.update place i p' j) = true) : view (place j) = true := by
  by_cases hij : j = i
  · subst hij
    rw [Function.update_self] at hj
    rw [hplace]
    exact h hj
  · rwa [Function.update_of_ne hij] at hj

/-- What another task shows, it still shows. -/
theorem exists_update (view : π → γ) {x : γ} (hplace : place i = p) (hp : view p ≠ x) (h : ∃ j, view (place j) = x) :
    ∃ j, view (Function.update place i p' j) = x := by
  obtain ⟨j, hj⟩ := h
  refine ⟨j, ?_⟩
  have hne : j ≠ i := by
    rintro rfl
    rw [hplace] at hj
    exact hp hj
  rwa [Function.update_of_ne hne]

/-- What the task shows at its new place. -/
theorem exists_update_self (view : π → γ) {x : γ} (hp : view p' = x) : ∃ j, view (Function.update place i p' j) = x :=
  ⟨i, by rwa [Function.update_self]⟩

end Views

section Locks
variable {H : Type} {lock lock' : Option H} {holds holds' : H → Bool} {holder other : H}

/-- Whoever stands where the lock is held holds it. -/
def Held (lock : Option H) (holds : H → Bool) : Prop := ∀ holder, holds holder = true → lock = some holder

theorem Held.exclusive (hinv : Held lock holds) (h : holds holder = true) (h' : holds other = true) : holder = other := by
  have := hinv holder h
  rw [hinv other h'] at this
  exact (Option.some.inj this).symm

theorem Held.not_holds (hinv : Held lock holds) (hfree : lock = none) : holds holder ≠ true := by
  intro h
  have := hinv holder h
  rw [hfree] at this
  cases this

theorem Held.keep (hinv : Held lock holds) (hholds : ∀ other, holds' other = true → holds other = true) :
    Held lock holds' := by
  intro other h
  exact hinv other (hholds other h)

theorem Held.acquire (hinv : Held lock holds) (hfree : lock = none)
    (hholds : ∀ other, other ≠ holder → holds' other = true → holds other = true) : Held (some holder) holds' := by
  intro other h
  by_cases hother : other = holder
  · rw [hother]
  · exact absurd (hholds other hother h) (hinv.not_holds hfree)

theorem Held.release (hinv : Held lock holds) (hheld : holds holder = true) (hreleased : holds' holder = false)
    (hholds : ∀ other, other ≠ holder → holds' other = true → holds other = true) : Held lock' holds' := by
  intro other h
  by_cases hother : other = holder
  · rw [hother, hreleased] at h
    cases h
  · exact absurd (hinv.exclusive (hholds other hother h) hheld) hother

/-- The lock is passed on to another holder. -/
theorem Held.pass (hinv : Held lock holds) (hheld : holds holder = true) (hpassed : holds' holder = false)
    (hholds : ∀ place, place ≠ other → holds' place = true → holds place = true) : Held (some other) holds' := by
  intro place h
  by_cases hplace : place = other
  · rw [hplace]
  · obtain rfl := hinv.exclusive (hholds place hplace h) hheld
    rw [hpassed] at h
    cases h

end Locks

end Tasks
