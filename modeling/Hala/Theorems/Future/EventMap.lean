import Hala.Future.EventMap
import Mathlib.Order.Basic
import Mathlib.Data.Nat.Basic

/-! What notifications do to a `Wait` that is registered for an event. -/

namespace Hala.EventMap
variable {E : Type} [DecidableEq E] {m m' m'' : EventMap E} {event e : E} {cell : Cell} {reason : Reason}

theorem notify_of_none (h : m.wakers.lookup event = none) : m.notify event reason = m := by
  simp [notify, notifyOne, h]

theorem notify_of_some (h : m.wakers.lookup event = some cell) :
    m.notify event reason =
      { m with wakers := m.wakers.erase event, reasons := Function.update m.reasons cell reason } := by
  simp [notify, notifyOne, h]

/-- No `Wait` of `m` that is registered for `event` has lost its entry without being notified, and no reason has
    been taken back. -/
structure Keeps (event : E) (m m' : EventMap E) : Prop where
  cells_le : m.cells ≤ m'.cells
  none_before : ∀ cell < m.cells, m'.reasons cell = .none → m.reasons cell = .none
  lookup : ∀ cell < m.cells, m'.reasons cell = .none → m.wakers.lookup event = some cell →
    m'.wakers.lookup event = some cell

theorem Keeps.refl : Keeps event m m :=
  ⟨le_rfl, fun _ _ h => h, fun _ _ _ h => h⟩

theorem Keeps.trans (h : Keeps event m m') (h' : Keeps event m' m'') : Keeps event m m'' where
  cells_le := h.cells_le.trans h'.cells_le
  none_before cell hlt hnone := h.none_before cell hlt (h'.none_before cell (hlt.trans_le h.cells_le) hnone)
  lookup cell hlt hnone hlookup :=
    have hlt' := hlt.trans_le h.cells_le
    h'.lookup cell hlt' hnone (h.lookup cell hlt (h'.none_before cell hlt' hnone) hlookup)

theorem Keeps.notify (hreason : reason ≠ .none) : Keeps event m (m.notify e reason) := by
  rcases hlookup : m.wakers.lookup e with _ | woken
  · rw [notify_of_none hlookup]
    exact .refl
  · rw [notify_of_some hlookup]
    refine ⟨le_rfl, fun cell _ hnone => ?_, fun cell _ hnone hcell => ?_⟩
    · by_cases hc : cell = woken
      · subst hc
        simp [hreason] at hnone
      · simpa [hc] using hnone
    · have hc : cell ≠ woken := by
        rintro rfl
        simp [hreason] at hnone
      have he : event ≠ e := by
        rintro rfl
        rw [hcell] at hlookup
        exact hc (Option.some.inj hlookup)
      simpa [AList.lookup_erase_ne he] using hcell

theorem Keeps.notifyAll (hreason : reason ≠ .none) (events : List E) : Keeps event m (m.notifyAll events reason) := by
  induction events generalizing m with
  | nil => exact .refl
  | cons e events ih => exact (Keeps.notify hreason).trans ih

theorem Keeps.notifyAny (hreason : reason ≠ .none) : Keeps event m (m.notifyAny reason) :=
  .notifyAll hreason _

/-- A `Wait` for another event does not touch the entry of this one. -/
theorem Keeps.wait (he : event ≠ e) : Keeps event m (m.wait e).1 := by
  refine ⟨Nat.le_succ _, fun cell hlt hnone => ?_, fun cell hlt hnone hcell => ?_⟩
  · simpa [EventMap.wait, Nat.ne_of_lt hlt] using hnone
  · simpa [EventMap.wait, AList.lookup_insert_ne he] using hcell

/-- Whoever was registered for `event` has been notified. -/
def Wakes (event : E) (m m' : EventMap E) : Prop :=
  ∀ cell < m.cells, m.wakers.lookup event = some cell → m'.reasons cell ≠ .none

theorem Wakes.then (h : Wakes event m m') (h' : Keeps event m' m'') (hle : m.cells ≤ m'.cells) : Wakes event m m'' :=
  fun cell hlt hcell hnone => h cell hlt hcell (h'.none_before cell (hlt.trans_le hle) hnone)

theorem Wakes.after (h : Keeps event m m') (h' : Wakes event m' m'') (h'' : Keeps event m' m'') : Wakes event m m'' := by
  intro cell hlt hcell hnone
  have hlt' := hlt.trans_le h.cells_le
  exact h' cell hlt' (h.lookup cell hlt (h''.none_before cell hlt' hnone) hcell) hnone

theorem wakes_notify (hreason : reason ≠ .none) : Wakes event m (m.notify event reason) := by
  intro cell _ hcell
  rw [notify_of_some hcell]
  simpa using hreason

theorem wakes_notifyAll (hreason : reason ≠ .none) {events : List E} (hmem : event ∈ events) :
    Wakes event m (m.notifyAll events reason) := by
  induction events generalizing m with
  | nil => cases hmem
  | cons e events ih =>
    rcases List.mem_cons.mp hmem with rfl | hmem
    · exact (wakes_notify hreason).then (.notifyAll hreason events) (Keeps.notify hreason : Keeps event m _).cells_le
    · exact .after (.notify hreason) (ih hmem) (.notifyAll hreason events)

theorem wakes_notifyAny (hreason : reason ≠ .none) : Wakes event m (m.notifyAny reason) := by
  intro cell hlt hcell
  have hmem : event ∈ m.wakers.keys := AList.lookup_isSome.mp (Option.isSome_of_eq_some hcell)
  exact wakes_notifyAll hreason hmem cell hlt hcell

/-- The entry of every event is that of one `Wait`, which nobody has notified. -/
structure WellFormed (m : EventMap E) : Prop where
  lt : ∀ e cell, m.wakers.lookup e = some cell → cell < m.cells
  unset : ∀ e cell, m.wakers.lookup e = some cell → m.reasons cell = .none
  unique : ∀ e e' cell, m.wakers.lookup e = some cell → m.wakers.lookup e' = some cell → e = e'

theorem wellFormed_init : WellFormed ({} : EventMap E) := by
  constructor <;> simp

/-- A notification for another event passes by the entry of this one. -/
theorem WellFormed.notify_other (h : WellFormed m) (hne : event ≠ e) (hcell : m.wakers.lookup event = some cell) :
    (m.notify e reason).wakers.lookup event = some cell ∧ (m.notify e reason).reasons cell = .none := by
  rcases hlookup : m.wakers.lookup e with _ | woken
  · rw [notify_of_none hlookup]
    exact ⟨hcell, h.unset event cell hcell⟩
  · have hc : cell ≠ woken := by
      rintro rfl
      exact hne (h.unique event e cell hcell hlookup)
    rw [notify_of_some hlookup]
    exact ⟨by simpa [AList.lookup_erase_ne hne] using hcell, by simpa [hc] using h.unset event cell hcell⟩

/-- The entries after a notification are those of the other events. -/
theorem lookup_of_notify (h : (m.notify e reason).wakers.lookup event = some cell) :
    m.wakers.lookup event = some cell ∧ event ≠ e := by
  rcases hlookup : m.wakers.lookup e with _ | woken
  · rw [notify_of_none hlookup] at h
    refine ⟨h, ?_⟩
    rintro rfl
    rw [hlookup] at h
    cases h
  · rw [notify_of_some hlookup] at h
    have hne : event ≠ e := by
      rintro rfl
      simp at h
    exact ⟨by simpa [AList.lookup_erase_ne hne] using h, hne⟩

@[simp] theorem notify_cells : (m.notify e reason).cells = m.cells := by
  rcases hlookup : m.wakers.lookup e with _ | woken
  · rw [notify_of_none hlookup]
  · rw [notify_of_some hlookup]

theorem WellFormed.notify (h : WellFormed m) : WellFormed (m.notify e reason) where
  lt e' cell hcell := by
    rw [notify_cells]
    exact h.lt e' cell (lookup_of_notify hcell).1
  unset e' cell hcell := by
    obtain ⟨hcell', hne⟩ := lookup_of_notify hcell
    exact (h.notify_other hne hcell').2
  unique e' e'' cell hcell hcell' := h.unique e' e'' cell (lookup_of_notify hcell).1 (lookup_of_notify hcell').1

/-- A reason that has been left stays. -/
theorem WellFormed.reasons_notify (h : WellFormed m) (hset : m.reasons cell ≠ .none) :
    (m.notify e reason).reasons cell = m.reasons cell := by
  rcases hlookup : m.wakers.lookup e with _ | woken
  · rw [notify_of_none hlookup]
  · have hne : cell ≠ woken := by
      rintro rfl
      exact hset (h.unset e cell hlookup)
    rw [notify_of_some hlookup]
    exact Function.update_of_ne hne _ _

theorem WellFormed.notifyAll (h : WellFormed m) (events : List E) : WellFormed (m.notifyAll events reason) := by
  induction events generalizing m with
  | nil => exact h
  | cons e events ih => exact ih h.notify

theorem WellFormed.reasons_notifyAll (h : WellFormed m) (hset : m.reasons cell ≠ .none) (events : List E) :
    (m.notifyAll events reason).reasons cell = m.reasons cell := by
  induction events generalizing m with
  | nil => rfl
  | cons e events ih =>
    have hkept : (m.notify e reason).reasons cell = m.reasons cell := h.reasons_notify hset
    exact (ih h.notify (hkept ▸ hset)).trans hkept

/-- Whoever is registered for one of the events is left the reason. -/
theorem WellFormed.notified_by_all (h : WellFormed m) (hreason : reason ≠ .none) {events : List E} (hmem : event ∈ events)
    (hcell : m.wakers.lookup event = some cell) : (m.notifyAll events reason).reasons cell = reason := by
  induction events generalizing m with
  | nil => cases hmem
  | cons e events ih =>
    by_cases he : event = e
    · subst he
      have hleft : (m.notify event reason).reasons cell = reason := by
        rw [notify_of_some hcell]
        exact Function.update_self _ _ _
      exact (h.notify.reasons_notifyAll (hleft.symm ▸ hreason) events).trans hleft
    · exact ih h.notify (List.mem_of_ne_of_mem he hmem) (h.notify_other he hcell).1

/-- The entries after a `Wait` has registered itself are the new one and those of the other events. -/
theorem lookup_of_wait (h : (m.wait e).1.wakers.lookup event = some cell) :
    (event = e ∧ cell = m.cells) ∨ (event ≠ e ∧ m.wakers.lookup event = some cell) := by
  by_cases he : event = e
  · subst he
    simp only [EventMap.wait, AList.lookup_insert, Option.some.injEq] at h
    exact Or.inl ⟨rfl, h.symm⟩
  · simp only [EventMap.wait, AList.lookup_insert_ne he] at h
    exact Or.inr ⟨he, h⟩

theorem WellFormed.wait (h : WellFormed m) : WellFormed (m.wait e).1 where
  lt e' cell hcell := by
    rcases lookup_of_wait hcell with ⟨-, rfl⟩ | ⟨-, hcell'⟩
    · exact Nat.lt_succ_self _
    · exact (h.lt e' cell hcell').trans (Nat.lt_succ_self _)
  unset e' cell hcell := by
    rcases lookup_of_wait hcell with ⟨-, rfl⟩ | ⟨-, hcell'⟩
    · simp [EventMap.wait]
    · have hne : cell ≠ m.cells := Nat.ne_of_lt (h.lt e' cell hcell')
      simpa [EventMap.wait, hne] using h.unset e' cell hcell'
  unique e' e'' cell hcell hcell' := by
    rcases lookup_of_wait hcell with ⟨he, rfl⟩ | ⟨-, hold⟩ <;> rcases lookup_of_wait hcell' with ⟨he', hc⟩ | ⟨-, hold'⟩
    · rw [he, he']
    · exact absurd (h.lt e'' _ hold') (Nat.lt_irrefl _)
    · subst hc
      exact absurd (h.lt e' _ hold) (Nat.lt_irrefl _)
    · exact h.unique e' e'' cell hold hold'

/-- The map has come from `m` by notifications. -/
inductive Notifies (m : EventMap E) : EventMap E → Prop
  | refl : Notifies m m
  | notify {m' : EventMap E} (e : E) {reason : Reason} : Notifies m m' → reason ≠ .none → Notifies m (m'.notify e reason)

theorem Notifies.trans (h : Notifies m m') (h' : Notifies m' m'') : Notifies m m'' := by
  induction h' with
  | refl => exact h
  | notify e _ hreason ih => exact ih.notify e hreason

theorem Notifies.notifyAll (h : Notifies m m') (hreason : reason ≠ .none) (events : List E) :
    Notifies m (m'.notifyAll events reason) := by
  induction events generalizing m' with
  | nil => exact h
  | cons e events ih => exact ih (h.notify e hreason)

theorem Notifies.notifyAny (h : Notifies m m') (hreason : reason ≠ .none) : Notifies m (m'.notifyAny reason) :=
  h.notifyAll hreason _

theorem Notifies.wellFormed (h : Notifies m m') (hm : WellFormed m) : WellFormed m' := by
  induction h with
  | refl => exact hm
  | notify e _ _ ih => exact ih.notify

theorem Notifies.keeps (h : Notifies m m') (event : E) : Keeps event m m' := by
  induction h with
  | refl => exact .refl
  | notify e _ hreason ih => exact ih.trans (.notify hreason)

/-- Nobody is registered. -/
def Empty (m : EventMap E) : Prop := ∀ e, m.wakers.lookup e = none

theorem Empty.notify (h : m.Empty) : (m.notify e reason) = m := notify_of_none (h e)

theorem Notifies.of_empty (h : Notifies m m') (hm : m.Empty) : m' = m := by
  induction h with
  | refl => rfl
  | notify e _ _ ih => rw [ih, hm.notify]

theorem lookup_notifyAll {events : List E} (h : (m.notifyAll events reason).wakers.lookup event = some cell) :
    m.wakers.lookup event = some cell ∧ event ∉ events := by
  induction events generalizing m with
  | nil => exact ⟨h, List.not_mem_nil⟩
  | cons e events ih =>
    obtain ⟨hcell, hmem⟩ := ih h
    obtain ⟨hcell', hne⟩ := lookup_of_notify hcell
    exact ⟨hcell', by simp [hne, hmem]⟩

theorem empty_notifyAny : (m.notifyAny reason).Empty := by
  intro e
  rcases hlookup : (m.notifyAny reason).wakers.lookup e with _ | cell
  · rfl
  · obtain ⟨hcell, hmem⟩ := lookup_notifyAll hlookup
    exact absurd (AList.lookup_isSome.mp (Option.isSome_of_eq_some hcell)) hmem

theorem Empty.wakers_eq (h : m.Empty) : m.wakers = ∅ := by
  have hkeys : m.wakers.keys = [] := by
    refine List.eq_nil_iff_forall_not_mem.mpr fun e hmem => ?_
    exact AList.lookup_eq_none.mp (h e) hmem
  refine AList.ext ?_
  exact List.map_eq_nil_iff.mp hkeys

end Hala.EventMap
