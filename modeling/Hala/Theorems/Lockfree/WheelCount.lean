import Hala.Theorems.Lockfree.WheelCalls

/-! The counter of the time wheel counts the timers that were ever accepted.

`new_timer` adds to it and nothing takes from it, so that `timers()` is the number of the timers in the wheel until the
first of them has been returned. -/

namespace Hala.TimeWheel
open Machine
variable {tick : Nat}

/-! ### The calls -/

theorem newTimer_cases (tick now : Nat) (w : Wheel) (timer : Timer) (duration : Nat) :
    (tickOf tick (now + duration) = none ∧ w.newTimer tick now timer duration = (.panicked, w)) ∨
    (∃ t, tickOf tick (now + duration) = some t ∧ t < w.ticks ∧ w.newTimer tick now timer duration = (.returned none, w)) ∨
    ∃ t, tickOf tick (now + duration) = some t ∧ w.ticks ≤ t ∧ w.newTimer tick now timer duration =
      (.returned (some t), { w.pushTimer t timer with timerCount := (w.timerCount + 1) % 2 ^ 64 }) := by
  cases ht : tickOf tick (now + duration) with
  | none => exact .inl ⟨rfl, by simp [Wheel.newTimer, ht]⟩
  | some t =>
    rcases Nat.lt_or_ge t w.ticks with hlt | hge
    · exact .inr (.inl ⟨t, rfl, hlt, by simp [Wheel.newTimer, ht, hlt]⟩)
    · exact .inr (.inr ⟨t, rfl, hge, newTimer_eq ht hge⟩)

theorem nextTick_cases (tick now : Nat) (w : Wheel) :
    (∃ result, (w.nextTick tick now) = (result, w) ∧ (result = .panicked ∨ result = .returned none) ∧
      ∀ t, tickOf tick now = some t → t ≤ w.ticks) ∨
    ∃ t, tickOf tick now = some t ∧ w.ticks < t ∧ w.nextTick tick now =
      (.returned (some (Wheel.drainSlots w.timers w.ticks (t - w.ticks)).1),
        { w with ticks := t, timers := (Wheel.drainSlots w.timers w.ticks (t - w.ticks)).2 }) := by
  cases ht : tickOf tick now with
  | none => exact .inl ⟨.panicked, by simp [Wheel.nextTick, ht], .inl rfl, nofun⟩
  | some t =>
    rcases Nat.lt_trichotomy t w.ticks with hlt | heq | hgt
    · refine .inl ⟨.panicked, by simp [Wheel.nextTick, ht, hlt], .inl rfl, fun t' ht' => ?_⟩
      cases ht'
      exact Nat.le_of_lt hlt
    · refine .inl ⟨.returned none, ?_, .inr rfl, fun t' ht' => ?_⟩
      · rw [heq] at ht
        exact nextTick_eq_none ht
      · cases ht'
        exact Nat.le_of_eq heq
    · exact .inr ⟨t, rfl, hgt, nextTick_eq_some ht hgt⟩

theorem mem_drainSlots {timers : Nat → Option (List Timer)} {i n : Nat} {timer : Timer} :
    timer ∈ (Wheel.drainSlots timers i n).1 ↔ ∃ k, i ≤ k ∧ k < i + n ∧ timer ∈ (timers k).getD [] := by
  induction n generalizing timers i with
  | zero =>
    rw [Wheel.drainSlots]
    simp only [List.not_mem_nil, Nat.add_zero, false_iff]
    rintro ⟨k, hle, hlt, -⟩
    exact absurd hle (Nat.not_le.mpr hlt)
  | succ n ih =>
    rw [Wheel.drainSlots]
    dsimp only
    rw [List.mem_append, ih]
    constructor
    · rintro (hfirst | ⟨k, hle, hlt, hmem⟩)
      · exact ⟨i, Nat.le_refl _, by omega, hfirst⟩
      · rw [Function.update_of_ne (by omega)] at hmem
        exact ⟨k, by omega, by omega, hmem⟩
    · rintro ⟨k, hle, hlt, hmem⟩
      rcases Nat.eq_or_lt_of_le hle with rfl | hgt
      · exact .inl hmem
      · refine .inr ⟨k, hgt, by omega, ?_⟩
        rwa [Function.update_of_ne (by omega)]

/-- What the drained slots leave is what they had. -/
theorem mem_drained {timers : Nat → Option (List Timer)} {i n t : Nat} {timer : Timer}
    (h : timer ∈ ((Wheel.drainSlots timers i n).2 t).getD []) : timer ∈ (timers t).getD [] := by
  induction n generalizing timers i with
  | zero => exact h
  | succ n ih =>
    rw [Wheel.drainSlots] at h
    have hrest := ih h
    rcases eq_or_ne t i with rfl | hne
    · rw [Function.update_self] at hrest
      cases hrest
    · rwa [Function.update_of_ne hne] at hrest

/-! ### The counter -/

section Count
variable {s s' : Calls} {past : List CallEvent}

/-- Before the first timer is returned: every timer in the wheel was accepted, and the counter counts them. -/
structure CountInv (s : Calls) (past : List CallEvent) : Prop where
  stored : ∀ t timer, timer ∈ ((s.wheel.timers t).getD []) → timer ∈ past.filterMap CallEvent.accepted
  none : ∀ timer, ∀ e ∈ past, e.returned timer = 0
  count : s.wheel.timerCount = (past.filterMap CallEvent.accepted).length
  lt : s.wheel.timerCount < 2 ^ 64

theorem alive_of_none (h : ∀ timer, ∀ e ∈ past, e.returned timer = 0) : alive past = past.filterMap CallEvent.accepted := by
  refine List.filter_eq_self.mpr fun timer _ => List.all_eq_true.mpr fun e he => ?_
  exact beq_iff_eq.mpr (h timer e he)

theorem CountInv.aliveTimers_eq (h : CountInv s past) : s.wheel.aliveTimers = (alive past).length := by
  rw [alive_of_none h.none]
  exact h.count

theorem CountInv.init : CountInv {} [] where
  stored t timer h := by cases h
  none _ _ h := by cases h
  count := rfl
  lt := by decide

/-- A call that stores no timer and returns none. -/
theorem CountInv.frame (h : CountInv s past) {e : CallEvent} (htimers : s'.wheel.timers = s.wheel.timers)
    (hcount : s'.wheel.timerCount = s.wheel.timerCount) (haccepted : e.accepted = .none)
    (hreturned : ∀ timer, e.returned timer = 0) : CountInv s' (e :: past) where
  stored t timer hmem := by
    rw [htimers] at hmem
    rw [List.filterMap_cons_none haccepted]
    exact h.stored t timer hmem
  none timer := List.forall_mem_cons.mpr ⟨hreturned timer, h.none timer⟩
  count := by rw [List.filterMap_cons_none haccepted, hcount, h.count]
  lt := hcount ▸ h.lt

theorem accepted_added {timer : Timer} {now duration t : Nat} :
    (CallEvent.added timer now duration (.returned (some t)) :: past).filterMap CallEvent.accepted =
      timer :: past.filterMap CallEvent.accepted := rfl

theorem CountInv.accept (h : CountInv s past) {w : Wheel} {t now duration : Nat}
    (htimers : w.timers = (s.wheel.pushTimer t s.added).timers) (hcount : w.timerCount = s.wheel.timerCount + 1)
    (hlt : w.timerCount < 2 ^ 64) :
    CountInv { s with wheel := w, added := s.added + 1 } (.added s.added now duration (.returned (some t)) :: past) where
  stored u timer hmem := by
    rw [accepted_added, List.mem_cons]
    rw [htimers] at hmem
    rcases eq_or_ne u t with rfl | hne
    · simp only [Wheel.pushTimer, Function.update_self, Option.getD_some, List.mem_append, List.mem_singleton] at hmem
      rcases hmem with hmem | rfl
      · exact .inr (h.stored u timer hmem)
      · exact .inl rfl
    · simp only [Wheel.pushTimer, Function.update_of_ne hne] at hmem
      exact .inr (h.stored u timer hmem)
  none timer := List.forall_mem_cons.mpr ⟨rfl, h.none timer⟩
  count := by rw [accepted_added, List.length_cons, ← h.count, hcount]
  lt := hlt

/-- The slots that a `next_tick` drains are empty, or it returns a timer. -/
theorem keepsCount_nextTick {t : Nat} (ht : tickOf tick s.clock = some t) :
    s.keepsCount tick .nextTick = true ↔ ∀ timer, timer ∉ (Wheel.drainSlots s.wheel.timers s.wheel.ticks (t - s.wheel.ticks)).1 := by
  simp only [Calls.keepsCount, ht, List.all_eq_true, List.mem_range'_1, List.isEmpty_iff]
  constructor
  · intro h timer hmem
    obtain ⟨k, hle, hlt, hk⟩ := mem_drainSlots.mp hmem
    rw [h k ⟨hle, hlt⟩] at hk
    cases hk
  · intro h k hk
    exact List.eq_nil_iff_forall_not_mem.mpr fun timer hmem => h timer (mem_drainSlots.mpr ⟨k, hk.1, hk.2, hmem⟩)

theorem CountInv.step {a : CallAction} (h : CountInv s past) (hkeeps : s.keepsCount tick a = true)
    (hs : s.step tick a = some s') : CountInv s' ((s.events tick a).reverse ++ past) := by
  cases a with
  | wait nanos =>
    cases hs
    exact ⟨h.stored, h.none, h.count, h.lt⟩
  | newTimer duration =>
    cases hs
    rw [Calls.events]
    rcases newTimer_cases tick s.clock s.wheel s.added duration with ⟨-, heq⟩ | ⟨t, -, -, heq⟩ | ⟨t, ht, hge, heq⟩
    · rw [heq]
      exact h.frame rfl rfl rfl fun _ => rfl
    · rw [heq]
      exact h.frame rfl rfl rfl fun _ => rfl
    · have hroom : s.wheel.timerCount + 1 < 2 ^ 64 := by
        simpa [Calls.keepsCount, ht, Nat.not_lt.mpr hge] using hkeeps
      rw [heq, Nat.mod_eq_of_lt hroom]
      exact h.accept rfl rfl hroom
  | nextTick =>
    cases hs
    rw [Calls.events]
    rcases nextTick_cases tick s.clock s.wheel with ⟨result, heq, hresult, -⟩ | ⟨t, ht, -, heq⟩
    · rw [heq]
      refine h.frame rfl rfl rfl fun timer => ?_
      rcases hresult with rfl | rfl <;> rfl
    · rw [heq]
      have hnone := (keepsCount_nextTick ht).mp hkeeps
      refine ⟨fun u timer hmem => ?_, fun timer => List.forall_mem_cons.mpr ⟨?_, h.none timer⟩, h.count, h.lt⟩
      · exact h.stored u timer (mem_drained hmem)
      · exact List.count_eq_zero.mpr (hnone timer)

/-- A step that does not keep the count leaves the counter ahead of the timers, or wraps it. -/
theorem CountInv.step_ne {a : CallAction} (h : CountInv s past) (hkeeps : s.keepsCount tick a = false)
    (hs : s.step tick a = some s') : s'.wheel.aliveTimers ≠ (alive ((s.events tick a).reverse ++ past)).length := by
  cases a with
  | wait nanos => cases hkeeps
  | newTimer duration =>
    cases hs
    rw [Calls.events]
    rcases newTimer_cases tick s.clock s.wheel s.added duration with ⟨ht, -⟩ | ⟨t, ht, hlt, -⟩ | ⟨t, ht, -, heq⟩
    · simp [Calls.keepsCount, ht] at hkeeps
    · simp [Calls.keepsCount, ht, hlt] at hkeeps
    · have hfull : ¬s.wheel.timerCount + 1 < 2 ^ 64 := by
        simp only [Calls.keepsCount, ht, Bool.or_eq_false_iff, decide_eq_false_iff_not] at hkeeps
        exact hkeeps.2
      have hmax : s.wheel.timerCount + 1 = 2 ^ 64 := by
        have hlt := h.lt
        omega
      have hnone : ∀ timer, ∀ e ∈ CallEvent.added s.added s.clock duration (.returned (some t)) :: past,
          e.returned timer = 0 := fun timer => List.forall_mem_cons.mpr ⟨rfl, h.none timer⟩
      rw [heq, hmax, Nat.mod_self, List.reverse_singleton, List.singleton_append, alive_of_none hnone, accepted_added]
      exact (Nat.succ_ne_zero _).symm
  | nextTick =>
    cases hs
    rw [Calls.events]
    rcases nextTick_cases tick s.clock s.wheel with ⟨result, -, -, hle⟩ | ⟨t, ht, -, heq⟩
    · cases ht : tickOf tick s.clock with
      | none => simp [Calls.keepsCount, ht] at hkeeps
      | some t => simp [Calls.keepsCount, ht, Nat.sub_eq_zero_of_le (hle t ht)] at hkeeps
    · have hreturns := mt (keepsCount_nextTick ht).mpr (Bool.eq_false_iff.mp hkeeps)
      obtain ⟨timer, hmem⟩ := not_forall_not.mp hreturns
      obtain ⟨k, -, -, hk⟩ := mem_drainSlots.mp hmem
      rw [heq]
      refine Nat.ne_of_gt ?_
      refine Nat.lt_of_lt_of_eq (List.length_filter_lt_length_iff_exists.mpr ⟨timer, h.stored k timer hk, ?_⟩) h.count.symm
      -- The call that has just returned the timer speaks against it.
      have hcount : 0 < List.count timer (Wheel.drainSlots s.wheel.timers s.wheel.ticks (t - s.wheel.ticks)).1 :=
        List.count_pos_iff.mpr hmem
      simp [CallEvent.returned, Nat.ne_of_gt hcount]

end Count

/-- In every run in which no `next_tick` finds a timer to return, and fewer than `2 ^ 64` are accepted, `timers()` is the
    number of the timers in the wheel; the first step that is different ends this. -/
theorem alive_timers_counted (tick : Nat) (s : Calls) (past : List CallEvent)
    (h : Reaches (traced (Calls.step tick) (Calls.events tick)) (fun s a => s.1.keepsCount tick a = true) ({}, []) (s, past)) :
    s.wheel.aliveTimers = (alive past).length ∧
    ∀ a s', s.step tick a = some s' → s.keepsCount tick a = false →
      s'.wheel.aliveTimers ≠ (alive ((s.events tick a).reverse ++ past)).length := by
  have hinv : CountInv s past := h.traced_invariant .init fun hinv hok hs => hinv.step hok hs
  exact ⟨hinv.aliveTimers_eq, fun a s' hs hkeeps => hinv.step_ne hkeeps hs⟩

/-- A timer under tick 3, and a `next_tick` that drains the slot before. -/
theorem alive_timers_counted_early :
    ∃ s, runIf (traced (Calls.step 1) (Calls.events 1)) (fun s a => s.1.keepsCount 1 a) ({}, [])
        [.newTimer 3000, .wait 1000, .nextTick] = some s ∧ s.1.wheel.aliveTimers = (alive s.2).length ∧
      (alive s.2).length = 1 := by
  obtain ⟨s, hs⟩ : ∃ s, runIf (traced (Calls.step 1) (Calls.events 1)) (fun s a => s.1.keepsCount 1 a) ({}, [])
      [.newTimer 3000, .wait 1000, .nextTick] = some s := ⟨_, rfl⟩
  have hcounted := (alive_timers_counted 1 s.1 s.2 (Reaches.of_runIf _ (fun _ _ hok => hok) hs)).1
  refine ⟨s, hs, hcounted, ?_⟩
  cases hs
  rfl

/-- The timer has been returned, and is still counted. -/
theorem returned_timer_counted :
    ∃ s, run (traced (Calls.step 1) (Calls.events 1)) ({}, []) [.newTimer 0, .wait 1000, .nextTick] =
        some (s, [.ticked 1000 (.returned (some [0])), .added 0 0 0 (.returned (some 0))]) ∧
      s.wheel.aliveTimers = 1 ∧
      alive [.ticked 1000 (.returned (some [0])), .added 0 0 0 (.returned (some 0))] = [] :=
  ⟨_, rfl, rfl, rfl⟩

end Hala.TimeWheel
