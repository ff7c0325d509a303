import Mathlib.Data.Set.Insert
import Mathlib.Logic.Function.Basic

/-! Waiting for an edge-triggered event.

A task stores its waker, tries, and is blocked if the source is not ready. Each change of the source to ready queues one
event. Pollers take the event from the queue, look for the stored waker and wake it. A poller may remove the waker for an
event that is older than the try, so that the waker and the latest event can be with two pollers. -/

namespace EdgeTriggered
variable {ω ι : Type}

/-- Where the task is: it is between two tries, it has stored the waker and tries, or its last try was blocked. -/
inductive Phase (ω : Type) where
  | idle
  | trying (w : ω)
  | blocked (w : ω)

structure State (ω ι : Type) where
  ready : Bool
  queued : Bool
  phase : Phase ω
  stored : Option ω
  /-- The poller has an event for which it has not looked. -/
  holds : ι → Bool
  /-- The waker that the poller has removed and not woken. -/
  waking : ι → Option ω
  /-- The poller has taken the event of the latest change to ready. -/
  latest : ι → Bool
  woken : Set ω

/-- The steps; in a `serial` run no poller looks for the waker while another has removed it and not woken it. -/
inductive Step [DecidableEq ι] (serial : Prop) : State ω ι → State ω ι → Prop
  | skip {s} : Step serial s s
  | store {s} (w : ω) : s.phase = .idle → Step serial s { s with phase := .trying w, stored := some w }
  | block {s} {w : ω} : s.phase = .trying w → s.ready = false → Step serial s { s with phase := .blocked w }
  | leave {s} (ready : Bool) : (ready = true → s.ready = true) → Step serial s { s with phase := .idle, ready }
  | forget {s} : s.phase = .idle → Step serial s { s with stored := none }
  | rise {s} : s.ready = false → Step serial s { s with ready := true, queued := true, latest := fun _ => false }
  | fall {s} : Step serial s { s with ready := false }
  | take {s} (j : ι) (reported held : Bool) : s.holds j = false → s.waking j = none → (reported = true → held = true) →
    Step serial s { s with
      queued := s.queued && !reported
      holds := Function.update s.holds j held
      latest := Function.update s.latest j (s.queued && reported) }
  /-- An event that comes from elsewhere. -/
  | find {s} (j : ι) : Step serial s { s with holds := Function.update s.holds j true }
  | look {s} (j : ι) (more : Bool) : s.waking j = none → (serial → ∀ k, s.waking k = none) →
    Step serial s { s with
      stored := none
      holds := Function.update s.holds j more
      waking := Function.update s.waking j s.stored }
  | wake {s} (j : ι) {w : ω} : s.waking j = some w →
    Step serial s { s with waking := Function.update s.waking j none, woken := insert w s.woken }
  | woke {s} (w : ω) : Step serial s { s with woken := insert w s.woken }

/-- The event of the latest change to ready is in the queue, or with a poller that has not looked for the waker, or not
    woken it. -/
def State.Unprocessed (s : State ω ι) (w : ω) : Prop :=
  s.queued = true ∨ ∃ j, s.latest j = true ∧ (s.holds j = true ∨ s.waking j = some w)

def State.Waking (s : State ω ι) (w : ω) : Prop := ∃ j, s.waking j = some w

structure Inv (serial : Prop) (s : State ω ι) : Prop where
  kept : ∀ w, s.phase = .trying w ∨ s.phase = .blocked w → s.stored = some w ∨ s.Waking w ∨ w ∈ s.woken
  event : ∀ w, s.phase = .blocked w → s.ready = true → s.stored = some w ∨ serial ∧ s.Waking w →
    s.Unprocessed w ∨ w ∈ s.woken

section Results
variable {serial : Prop} {s : State ω ι} {w : ω}

theorem Inv.of_idle (h : s.phase = .idle) : Inv serial s where
  kept w hw := by rw [h] at hw; simp at hw
  event w hw := by rw [h] at hw; cases hw

/-- A blocked task whose source is ready has not been forgotten. -/
theorem Inv.not_lost (h : Inv serial s) (hblocked : s.phase = .blocked w) (hready : s.ready = true) :
    s.Unprocessed w ∨ s.Waking w ∨ w ∈ s.woken := by
  rcases h.kept w (.inr hblocked) with hstored | hrest
  · rcases h.event w hblocked hready (.inl hstored) with hevent | hwoken
    · exact .inl hevent
    · exact .inr (.inr hwoken)
  · exact .inr hrest

theorem Inv.not_lost_of_serial (h : Inv serial s) (hserial : serial) (hblocked : s.phase = .blocked w)
    (hready : s.ready = true) : s.Unprocessed w ∨ w ∈ s.woken := by
  rcases h.kept w (.inr hblocked) with hstored | hwaking | hwoken
  · exact h.event w hblocked hready (.inl hstored)
  · exact h.event w hblocked hready (.inr ⟨hserial, hwaking⟩)
  · exact .inr hwoken

end Results

section Steps
variable [DecidableEq ι] {serial : Prop} {s s' : State ω ι} {j : ι} {w : ω}

/-- What a poller that is not `j` is waking. -/
theorem State.Waking.update {waker : Option ω} (h : s.Waking w) (hj : s.waking j ≠ some w) :
    { s with waking := Function.update s.waking j waker }.Waking w := by
  obtain ⟨k, hk⟩ := h
  have hne : k ≠ j := fun heq => hj (heq ▸ hk)
  exact ⟨k, (Function.update_of_ne hne _ _).trans hk⟩

theorem Inv.take (h : Inv serial s) {reported held : Bool} (hholds : s.holds j = false) (hwaking : s.waking j = none)
    (hheld : reported = true → held = true) :
    Inv serial { s with
      queued := s.queued && !reported
      holds := Function.update s.holds j held
      latest := Function.update s.latest j (s.queued && reported) } where
  kept := h.kept
  event w hblocked hready hw := by
    rcases h.event w hblocked hready hw with (hqueued | ⟨k, hlatest, hk⟩) | hwoken
    · -- The event stays in the queue, or the poller has it now.
      left
      cases reported with
      | false => exact .inl (by simp [hqueued])
      | true => exact .inr ⟨j, by simp [hqueued, hheld rfl]⟩
    · have hne : k ≠ j := by
        rintro rfl
        rcases hk with hk | hk
        · rw [hholds] at hk
          cases hk
        · rw [hwaking] at hk
          cases hk
      refine .inl (.inr ⟨k, (Function.update_of_ne hne _ _).trans hlatest, ?_⟩)
      rcases hk with hk | hk
      · exact .inl ((Function.update_of_ne hne _ _).trans hk)
      · exact .inr hk
    · exact .inr hwoken

theorem Inv.find (h : Inv serial s) : Inv serial { s with holds := Function.update s.holds j true } where
  kept := h.kept
  event w hblocked hready hw := by
    rcases h.event w hblocked hready hw with (hqueued | ⟨k, hlatest, hk⟩) | hwoken
    · exact .inl (.inl hqueued)
    · refine .inl (.inr ⟨k, hlatest, ?_⟩)
      rcases hk with hk | hk
      · left
        rcases eq_or_ne k j with rfl | hne
        · exact Function.update_self _ _ _
        · exact (Function.update_of_ne hne _ _).trans hk
      · exact .inr hk
    · exact .inr hwoken

theorem Inv.look (h : Inv serial s) (more : Bool) (hwaking : s.waking j = none)
    (hserial : serial → ∀ k, s.waking k = none) :
    Inv serial { s with
      stored := none
      holds := Function.update s.holds j more
      waking := Function.update s.waking j s.stored } where
  kept w hw := by
    rcases h.kept w hw with hstored | hother | hwoken
    · exact .inr (.inl ⟨j, (Function.update_self _ _ _).trans hstored⟩)
    · refine .inr (.inl (hother.update ?_))
      rw [hwaking]
      nofun
    · exact .inr (.inr hwoken)
  event w hblocked hready hw := by
    obtain hnone | ⟨hs, k, hk⟩ := hw
    · cases hnone
    -- Only this poller can have removed the waker, and it has done so now.
    have hstored : s.stored = some w := by
      have hk' : Function.update s.waking j s.stored k = some w := hk
      rcases eq_or_ne k j with rfl | hne
      · rwa [Function.update_self] at hk'
      · rw [Function.update_of_ne hne, hserial hs k] at hk'
        cases hk'
    rcases h.event w hblocked hready (.inl hstored) with (hqueued | ⟨i, hlatest, hi⟩) | hwoken
    · exact .inl (.inl hqueued)
    · refine .inl (.inr ⟨i, hlatest, ?_⟩)
      rcases eq_or_ne i j with rfl | hne
      · exact .inr ((Function.update_self _ _ _).trans hstored)
      · rcases hi with hi | hi
        · exact .inl ((Function.update_of_ne hne _ _).trans hi)
        · exact .inr ((Function.update_of_ne hne _ _).trans hi)
    · exact .inr hwoken

theorem Inv.wake (h : Inv serial s) {w₀ : ω} (hwaking : s.waking j = some w₀) :
    Inv serial { s with waking := Function.update s.waking j none, woken := insert w₀ s.woken } where
  kept w hw := by
    rcases h.kept w hw with hstored | hother | hwoken
    · exact .inl hstored
    · by_cases heq : s.waking j = some w
      · rw [hwaking] at heq
        cases heq
        exact .inr (.inr (Set.mem_insert _ _))
      · exact .inr (.inl (hother.update heq))
    · exact .inr (.inr (Set.mem_insert_of_mem _ hwoken))
  event w hblocked hready hw := by
    have hw' : s.stored = some w ∨ serial ∧ s.Waking w := by
      rcases hw with hstored | ⟨hs, k, hk⟩
      · exact .inl hstored
      · have hne : k ≠ j := by
          rintro rfl
          cases (Function.update_self _ _ _).symm.trans hk
        exact .inr ⟨hs, k, (Function.update_of_ne hne _ _).symm.trans hk⟩
    rcases h.event w hblocked hready hw' with (hqueued | ⟨i, hlatest, hi⟩) | hwoken
    · exact .inl (.inl hqueued)
    · rcases hi with hi | hi
      · exact .inl (.inr ⟨i, hlatest, .inl hi⟩)
      · rcases eq_or_ne i j with rfl | hne
        · rw [hwaking] at hi
          cases hi
          exact .inr (Set.mem_insert _ _)
        · exact .inl (.inr ⟨i, hlatest, .inr ((Function.update_of_ne hne _ _).trans hi)⟩)
    · exact .inr (Set.mem_insert_of_mem _ hwoken)

theorem Step.inv (h : Step serial s s') (hinv : Inv serial s) : Inv serial s' := by
  cases h with
  | skip => exact hinv
  | store w hidle =>
    refine ⟨fun w' hw => ?_, nofun⟩
    rcases hw with hw | hw
    · cases hw
      exact .inl rfl
    · cases hw
  | block htrying hready =>
    refine ⟨fun w' hw => ?_, fun w' _ hready' => ?_⟩
    · rcases hw with hw | hw
      · cases hw
      · cases hw
        exact hinv.kept _ (.inl htrying)
    · rw [hready] at hready'
      cases hready'
  | leave ready hready => exact .of_idle rfl
  | forget hidle => exact .of_idle hidle
  | rise hready => exact ⟨hinv.kept, fun w _ _ _ => .inl (.inl rfl)⟩
  | fall => exact ⟨hinv.kept, nofun⟩
  | take j reported held hholds hwaking hheld => exact hinv.take hholds hwaking hheld
  | find j => exact hinv.find
  | look j more hwaking hserial => exact hinv.look more hwaking hserial
  | wake j hwaking => exact hinv.wake hwaking
  | woke w =>
    refine ⟨fun w' hw => ?_, fun w' hblocked hready hw => ?_⟩
    · rcases hinv.kept w' hw with hstored | hwaking | hwoken
      · exact .inl hstored
      · exact .inr (.inl hwaking)
      · exact .inr (.inr (Set.mem_insert_of_mem _ hwoken))
    · rcases hinv.event w' hblocked hready hw with hevent | hwoken
      · exact .inl hevent
      · exact .inr (Set.mem_insert_of_mem _ hwoken)

end Steps

end EdgeTriggered
