import Hala.Lockfree.WheelCalls
import Hala.Theorems.Lockfree.TimeWheel

/-! The time wheel delivers each timer once when its calls are made one at a time.

A timer waits in the slot of its tick, which is not behind `ticks`, until a `next_tick` has a greater tick number; that
call drains every slot between, so that nothing is skipped when several ticks have elapsed. -/

namespace Hala.TimeWheel
open Machine
variable {tick : Nat}

/-! ### The calls -/

theorem tickOf_eq {nanos : Nat} (htick : 0 < tick) (hduration : nanos ≤ maxDuration) (hfits : nanos / 1000 / tick < 2 ^ 64) :
    tickOf tick nanos = some (nanos / 1000 / tick) := by
  rw [tickOf, if_neg (by omega), Nat.mod_eq_of_lt hfits]

theorem ticks_of_tickOf {nanos ticks : Nat} (h : tickOf tick nanos = some ticks) (hfits : nanos / 1000 / tick < 2 ^ 64) :
    ticks = nanos / 1000 / tick := by
  rw [tickOf, Option.ite_none_left_eq_some] at h
  rw [Nat.mod_eq_of_lt hfits] at h
  exact (Option.some.inj h.2).symm

/-- A timer whose tick is not behind the wheel's is stored. -/
theorem newTimer_eq {w : Wheel} {now duration t : Nat} {timer : Timer} (ht : tickOf tick (now + duration) = some t)
    (hle : w.ticks ≤ t) :
    w.newTimer tick now timer duration =
      (.returned (some t), { w.pushTimer t timer with timerCount := (w.timerCount + 1) % 2 ^ 64 }) := by
  have hnot : ¬t < w.ticks := Nat.not_lt_of_le hle
  unfold Wheel.newTimer
  rw [ht]
  dsimp only
  rw [if_neg hnot, if_neg (fun h => hnot h.1), if_neg (fun h => hnot h.1)]
  rfl

theorem nextTick_eq_none {w : Wheel} {now : Nat} (ht : tickOf tick now = some w.ticks) :
    w.nextTick tick now = (.returned none, w) := by
  unfold Wheel.nextTick
  rw [ht]
  dsimp only
  rw [if_neg (Nat.lt_irrefl _), if_pos rfl]

theorem nextTick_eq_some {w : Wheel} {now t : Nat} (ht : tickOf tick now = some t) (hlt : w.ticks < t) :
    w.nextTick tick now =
      (.returned (some (Wheel.drainSlots w.timers w.ticks (t - w.ticks)).1),
        { w with ticks := t, timers := (Wheel.drainSlots w.timers w.ticks (t - w.ticks)).2 }) := by
  unfold Wheel.nextTick
  rw [ht]
  dsimp only
  rw [if_neg (Nat.not_lt_of_gt hlt), if_neg (Nat.ne_of_lt hlt)]

/-! ### A call that runs alone -/

section Alone
variable {s init : State} {i j : Nat}

theorem add_alone {s' : State} (h : Reaches (step tick) (fun _ a => a.ofAdd i = true) init s)
    (hs : addStep s i false = some s') : Reaches (step tick) (fun _ a => a.ofAdd i = true) init s' := by
  have hstep : step tick s (.add i false) = some s' := hs
  refine .step h ?_ hstep
  exact beq_self_eq_true i

theorem pop_alone {s' : State} (h : Reaches (step tick) (fun _ a => a.ofPop j = true) init s)
    (hs : popStep tick s j = some s') : Reaches (step tick) (fun _ a => a.ofPop j = true) init s' := by
  have hstep : step tick s (.pop j) = some s' := hs
  refine .step h ?_ hstep
  exact beq_self_eq_true j

/-- `new_timer` from its first load on, when the tick of the timer is not behind the wheel's. -/
theorem store_alone {t : Nat} (hle : s.ticks ≤ t)
    (h : Reaches (step tick) (fun _ a => a.ofAdd i = true) init (s.setAdd i (.firstLoad t))) :
    Reaches (step tick) (fun _ a => a.ofAdd i = true) init
      ({ s.pushTimer t i with timerCount := (s.timerCount + 1) % 2 ^ 64 }.setAdd i (.done (some t))) := by
  have hnot : ¬t < s.ticks := Nat.not_lt.mpr hle
  have hfirstLoad : addStep (s.setAdd i (.firstLoad t)) i false = some (s.setAdd i (.firstExchange t s.ticks)) := by
    simp [addStep, firstCheck, hnot, State.setAdd]
  have hfirstExchange : addStep (s.setAdd i (.firstExchange t s.ticks)) i false = some (s.setAdd i (.push t)) := by
    simp [addStep, State.setAdd]
  have hpush : addStep (s.setAdd i (.push t)) i false = some ((s.pushTimer t i).setAdd i (.load t)) := by
    simp [addStep, State.setAdd, State.pushTimer]
  generalize hpushed : s.pushTimer t i = p at hpush ⊢
  have hticks : p.ticks = s.ticks := by rw [← hpushed]; rfl
  have hcount : p.timerCount = s.timerCount := by rw [← hpushed]; rfl
  have hload : addStep (p.setAdd i (.load t)) i false = some (p.setAdd i (.secondLoad t)) := by
    simp [addStep, State.setAdd, hticks, hnot]
  have hsecondLoad : addStep (p.setAdd i (.secondLoad t)) i false = some (p.setAdd i (.secondApply t s.ticks)) := by
    simp [addStep, State.setAdd, hticks]
  have hsecondApply :
      addStep (p.setAdd i (.secondApply t s.ticks)) i false = some (p.setAdd i (.secondExchange t s.ticks)) := by
    simp [addStep, State.setAdd, hnot]
  have hsecondExchange : addStep (p.setAdd i (.secondExchange t s.ticks)) i false = some (p.setAdd i (.count t)) := by
    simp [addStep, State.setAdd, hticks]
  have hdone : addStep (p.setAdd i (.count t)) i false =
      some ({ p with timerCount := (s.timerCount + 1) % 2 ^ 64 }.setAdd i (.done (some t))) := by
    simp [addStep, State.setAdd, hcount]
  exact add_alone (add_alone (add_alone (add_alone (add_alone (add_alone (add_alone (add_alone h hfirstLoad)
    hfirstExchange) hpush) hload) hsecondLoad) hsecondApply) hsecondExchange) hdone

/-- A call of `new_timer` that runs alone does what the whole call does. -/
theorem newTimer_alone (hidle : s.adds i = .idle) (duration : Nat) :
    Reaches (step tick) (fun _ a => a.ofAdd i = true) s
      ((s.setWheel (s.wheel.newTimer tick s.clock i duration).2).setAdd i
        (s.wheel.newTimer tick s.clock i duration).1.add) := by
  cases ht : tickOf tick (s.clock + duration) with
  | none =>
    have hcall : step tick s (.newTimer i duration) = some (s.setAdd i .panicked) := by simp [step, hidle, ht]
    have heq : s.wheel.newTimer tick s.clock i duration = (.panicked, s.wheel) := by simp [Wheel.newTimer, ht]
    rw [heq]
    refine .step .refl ?_ hcall
    exact beq_self_eq_true i
  | some t =>
    have hcall : step tick s (.newTimer i duration) = some (s.setAdd i (.firstLoad t)) := by simp [step, hidle, ht]
    have hbegun : Reaches (step tick) (fun _ a => a.ofAdd i = true) s (s.setAdd i (.firstLoad t)) := by
      refine .step .refl ?_ hcall
      exact beq_self_eq_true i
    rcases Nat.lt_or_ge t s.ticks with hlt | hge
    · have heq : s.wheel.newTimer tick s.clock i duration = (.returned none, s.wheel) := by
        simp [Wheel.newTimer, ht, State.wheel, hlt]
      have hlate : addStep (s.setAdd i (.firstLoad t)) i false = some (s.setAdd i (.done none)) := by
        simp [addStep, firstCheck, hlt, State.setAdd]
      rw [heq]
      exact add_alone hbegun hlate
    · have heq : s.wheel.newTimer tick s.clock i duration = _ := newTimer_eq ht hge
      rw [heq]
      exact store_alone hge hbegun

/-- The loop of `next_tick` that runs alone, before slot `k`. -/
theorem drain_alone {k n : Nat} {timers : List Timer} (hc : s.pops j = .drain k (k + n) timers)
    (h : Reaches (step tick) (fun _ a => a.ofPop j = true) init s) :
    Reaches (step tick) (fun _ a => a.ofPop j = true) init
      ({ s with timers := (Wheel.drainSlots s.timers k n).2 }.setPop j
        (.done (some (timers ++ (Wheel.drainSlots s.timers k n).1)))) := by
  induction n generalizing s k timers with
  | zero =>
    have hdone : popStep tick s j = some (s.setPop j (.done (some timers))) := by simp [popStep, hc]
    have hend := pop_alone h hdone
    rw [Wheel.drainSlots, List.append_nil]
    exact hend
  | succ n ih =>
    have hslot : popStep tick s j =
        some ((s.removeSlot k).setPop j (.drain (k + 1) (k + 1 + n) (timers ++ (s.timers k).getD []))) := by
      simp [popStep, hc, Nat.add_assoc, Nat.add_comm 1 n]
    have hrest := ih (setPop_self _ _ _) (pop_alone h hslot)
    rw [List.append_assoc] at hrest
    simpa [Wheel.drainSlots, State.setPop, State.removeSlot] using hrest

/-- A call of `next_tick` that runs alone does what the whole call does. -/
theorem nextTick_alone (hidle : s.pops j = .idle) :
    Reaches (step tick) (fun _ a => a.ofPop j = true) s
      ((s.setWheel (s.wheel.nextTick tick s.clock).2).setPop j (s.wheel.nextTick tick s.clock).1.pop) := by
  have hcall : step tick s (.nextTick j) = some (s.setPop j .load) := by simp [step, hidle]
  have hbegun : Reaches (step tick) (fun _ a => a.ofPop j = true) s (s.setPop j .load) := by
    refine .step .refl ?_ hcall
    exact beq_self_eq_true j
  have hload : popStep tick (s.setPop j .load) j = some (s.setPop j (.now s.ticks)) := by
    simp [popStep, State.setPop]
  have hloaded := pop_alone hbegun hload
  cases ht : tickOf tick s.clock with
  | none =>
    have hnow : popStep tick (s.setPop j (.now s.ticks)) j = some (s.setPop j .panicked) := by
      simp [popStep, State.setPop, ht]
    have heq : s.wheel.nextTick tick s.clock = (.panicked, s.wheel) := by simp [Wheel.nextTick, ht]
    rw [heq]
    exact pop_alone hloaded hnow
  | some t =>
    rcases Nat.lt_trichotomy t s.ticks with hlt | rfl | hgt
    · have hnow : popStep tick (s.setPop j (.now s.ticks)) j = some (s.setPop j .panicked) := by
        simp [popStep, State.setPop, ht, hlt]
      have heq : s.wheel.nextTick tick s.clock = (.panicked, s.wheel) := by
        simp [Wheel.nextTick, ht, State.wheel, hlt]
      rw [heq]
      exact pop_alone hloaded hnow
    · have hnow : popStep tick (s.setPop j (.now s.ticks)) j = some (s.setPop j (.done none)) := by
        simp [popStep, State.setPop, ht]
      have heq : s.wheel.nextTick tick s.clock = (.returned none, s.wheel) := nextTick_eq_none ht
      rw [heq]
      exact pop_alone hloaded hnow
    · have hnow : popStep tick (s.setPop j (.now s.ticks)) j = some (s.setPop j (.exchange s.ticks t)) := by
        simp [popStep, State.setPop, ht, Nat.lt_asymm hgt, Nat.ne_of_lt hgt]
      have hexchange : popStep tick (s.setPop j (.exchange s.ticks t)) j =
          some ({ s with ticks := t }.setPop j (.drain s.ticks (s.ticks + (t - s.ticks)) [])) := by
        simp [popStep, State.setPop, Nat.add_sub_cancel' (Nat.le_of_lt hgt)]
      have heq : s.wheel.nextTick tick s.clock = _ := nextTick_eq_some ht hgt
      have hend := drain_alone (setPop_self _ _ _) (pop_alone (pop_alone hloaded hnow) hexchange)
      rw [heq]
      simpa [State.setPop, State.setWheel, State.wheel, Outcome.pop] using hend

/-- The machine after the same calls, each of which has run alone; calls of `next_tick` have the numbers below `popped`. -/
structure RunsAlone (m : State) (s : Calls) (past : List CallEvent) (popped : Nat) : Prop where
  clock : m.clock = s.clock
  wheel : m.wheel = s.wheel
  adds : ∀ i, s.added ≤ i → m.adds i = .idle
  pops : ∀ j, popped ≤ j → m.pops j = .idle
  added : ∀ i now duration result, .added i now duration result ∈ past → i < s.added ∧ m.adds i = result.add
  ticked : ∀ now result, .ticked now result ∈ past → ∃ j < popped, m.pops j = result.pop

variable {m : State} {calls calls' : Calls} {past : List CallEvent} {popped : Nat} {a : CallAction}

theorem RunsAlone.step (h : RunsAlone m calls past popped) (hs : calls.step tick a = some calls') :
    ∃ m' popped', (∀ init, Reachable (step tick) init m → Reachable (step tick) init m') ∧
      RunsAlone m' calls' ((calls.events tick a).reverse ++ past) popped' := by
  cases a with
  | wait nanos =>
    cases hs
    have hwait : TimeWheel.step tick m (.wait nanos) = some { m with clock := m.clock + nanos } := rfl
    refine ⟨_, popped, fun init hm => hm.step trivial hwait, ?_⟩
    exact { h with clock := congrArg (· + nanos) h.clock }
  | newTimer duration =>
    cases hs
    refine ⟨_, popped, fun init hm => (newTimer_alone (h.adds _ (Nat.le_refl _)) duration).reachable_trans hm, ?_⟩
    rw [h.wheel, h.clock]
    refine {
      clock := h.clock
      wheel := rfl
      adds := fun i hi => (setAdd_of_ne _ _ (Nat.ne_of_gt hi)).trans (h.adds i (Nat.le_of_succ_le hi))
      pops := h.pops
      added := fun i now d result hmem => ?_
      ticked := fun now result hmem => ?_ }
    · rcases List.mem_cons.mp hmem with heq | hmem
      · cases heq
        exact ⟨Nat.lt_succ_self _, setAdd_self _ _ _⟩
      · obtain ⟨hlt, hadd⟩ := h.added i now d result hmem
        exact ⟨Nat.lt_succ_of_lt hlt, (setAdd_of_ne _ _ (Nat.ne_of_lt hlt)).trans hadd⟩
    · rcases List.mem_cons.mp hmem with heq | hmem
      · cases heq
      · exact h.ticked now result hmem
  | nextTick =>
    cases hs
    refine ⟨_, popped + 1, fun init hm => (nextTick_alone (h.pops _ (Nat.le_refl _))).reachable_trans hm, ?_⟩
    rw [h.wheel, h.clock]
    refine {
      clock := h.clock
      wheel := rfl
      adds := h.adds
      pops := fun j hj => (setPop_of_ne _ _ (Nat.ne_of_gt hj)).trans (h.pops j (Nat.le_of_succ_le hj))
      added := fun i now d result hmem => ?_
      ticked := fun now result hmem => ?_ }
    · rcases List.mem_cons.mp hmem with heq | hmem
      · cases heq
      · exact h.added i now d result hmem
    · rcases List.mem_cons.mp hmem with heq | hmem
      · cases heq
        exact ⟨popped, Nat.lt_succ_self _, setPop_self _ _ _⟩
      · obtain ⟨j, hlt, hpop⟩ := h.ticked now result hmem
        exact ⟨j, Nat.lt_succ_of_lt hlt, (setPop_of_ne _ _ (Nat.ne_of_lt hlt)).trans hpop⟩

/-- Every run of whole calls is a run of the machine, with the same results. -/
theorem calls_run_alone {s : Calls × List CallEvent} (h : Reachable (traced (Calls.step tick) (Calls.events tick)) ({}, []) s) :
    ∃ m popped, Reachable (step tick) {} m ∧ RunsAlone m s.1 s.2 popped := by
  induction h with
  | refl =>
    exact ⟨{}, 0, .refl, rfl, rfl, fun _ _ => rfl, fun _ _ => rfl, nofun, nofun⟩
  | step _ _ hs ih =>
    obtain ⟨s₁, hs₁, rfl⟩ := Option.map_eq_some_iff.mp hs
    obtain ⟨m, popped, hm, hruns⟩ := ih
    obtain ⟨m', popped', hreach, hruns'⟩ := hruns.step hs₁
    exact ⟨m', popped', hreach {} hm, hruns'⟩

end Alone

/-! ### Calls that overlap

The assertion of `next_tick` holds for any number of calls beside each other, as a call reads the ticks before the clock. -/

/-- What the call has read is not ahead of tick `n`. -/
def Pop.behind (n : Nat) : Pop → Prop
  | .now current => current ≤ n
  | .exchange _ ticks => ticks ≤ n
  | .panicked => False
  | .idle | .load | .drain .. | .done _ => True

theorem Pop.behind.mono {pop : Pop} {n n' : Nat} (h : pop.behind n) (hle : n ≤ n') : pop.behind n' := by
  cases pop with
  | now current => exact Nat.le_trans h hle
  | exchange current ticks => exact Nat.le_trans h hle
  | panicked => exact h
  | _ => trivial

structure Punctual (tick : Nat) (s : State) : Prop where
  ticks : s.ticks ≤ s.clock / 1000 / tick
  pops : ∀ j, (s.pops j).behind (s.clock / 1000 / tick)

section Overlap
variable {s s' : State} {i j : Nat}

theorem Punctual.frame (h : Punctual tick s) (hclock : s.clock ≤ s'.clock) (hticks : s'.ticks = s.ticks)
    (hpops : s'.pops = s.pops) : Punctual tick s' := by
  have hle : s.clock / 1000 / tick ≤ s'.clock / 1000 / tick := Nat.div_le_div_right (Nat.div_le_div_right hclock)
  refine ⟨?_, fun j => ?_⟩
  · rw [hticks]
    exact Nat.le_trans h.ticks hle
  · rw [hpops]
    exact (h.pops j).mono hle

theorem Punctual.setPop (h : Punctual tick s) {pop : Pop} (hpop : pop.behind (s.clock / 1000 / tick)) :
    Punctual tick (s.setPop j pop) where
  ticks := h.ticks
  pops k := by
    rcases eq_or_ne k j with rfl | hne
    · rw [setPop_self]
      exact hpop
    · rw [setPop_of_ne _ _ hne]
      exact h.pops k

theorem newTimer_ticks {duration : Nat} (h : step tick s (.newTimer i duration) = some s') :
    s'.clock = s.clock ∧ s'.ticks = s.ticks := by
  obtain ⟨-, ⟨-, rfl⟩ | ⟨-, -, rfl⟩⟩ := newTimerStep_cases h
  all_goals
    exact ⟨rfl, rfl⟩

theorem addStep_ticks {spurious : Bool} (h : addStep s i spurious = some s') :
    s'.clock = s.clock ∧ s'.ticks = s.ticks := by
  cases add_cases h with
  | _ => exact ⟨rfl, rfl⟩

theorem Punctual.popStep (h : Punctual tick s) (ht : tickOf tick s.clock = some (s.clock / 1000 / tick))
    (hs : popStep tick s j = some s') : Punctual tick s' := by
  have hpop := h.pops j
  obtain ⟨-, rfl⟩ | ⟨current, pop, hc, rfl, hnext⟩ | ⟨ticks, hc, rfl⟩ | ⟨-, -, -, -, rfl⟩ | ⟨k, -, -, -, -, rfl⟩ |
    ⟨-, -, -, -, -, rfl⟩ := popStep_cases hs
  · exact h.setPop h.ticks
  · rw [hc] at hpop
    rcases hnext with ⟨-, hahead⟩ | ⟨rfl, -⟩ | ⟨ticks, ht', -, rfl⟩
    · exact absurd hpop (Nat.not_le.mpr (hahead _ ht))
    · exact h.setPop trivial
    · rw [ht] at ht'
      cases ht'
      exact h.setPop (Nat.le_refl _)
  · rw [hc] at hpop
    have hmoved : Punctual tick { s with ticks } := ⟨hpop, h.pops⟩
    exact hmoved.setPop trivial
  · exact h.setPop trivial
  · have hremoved : Punctual tick (s.removeSlot k) := ⟨h.ticks, h.pops⟩
    exact hremoved.setPop trivial
  · exact h.setPop trivial

end Overlap

/-! ### Where a timer is -/

/-- How often the timer is in slot `t`. -/
def slotCount (timers : Nat → Option (List Timer)) (t : Nat) (timer : Timer) : Nat := ((timers t).getD []).count timer

/-- The timer is in the slot `w` and in no other, once, or in none. -/
def InSlot (timers : Nat → Option (List Timer)) (timer : Timer) (w : Option Nat) : Prop :=
  ∀ t, slotCount timers t timer = if w = some t then 1 else 0

theorem slotCount_update_none {timers : Nat → Option (List Timer)} {i t : Nat} {timer : Timer} :
    slotCount (Function.update timers i none) t timer = if t = i then 0 else slotCount timers t timer := by
  unfold slotCount
  rcases eq_or_ne t i with rfl | hne
  · rw [Function.update_self, if_pos rfl]
    rfl
  · rw [Function.update_of_ne hne, if_neg hne]

theorem InSlot.removeSlot {timers : Nat → Option (List Timer)} {timer : Timer} {w : Option Nat} (h : InSlot timers timer w)
    (i : Nat) : InSlot (Function.update timers i none) timer (if w = some i then none else w) := by
  intro t
  rw [slotCount_update_none, h t]
  by_cases hw : w = some i
  · rw [if_pos hw, hw]
    simp [eq_comm]
  · rw [if_neg hw]
    split
    · next heq => rw [heq, if_neg hw]
    · rfl

/-- One of the `n` slots from slot `i` on. -/
def amongSlots (i n : Nat) : Option Nat → Bool
  | some t => i ≤ t && t < i + n
  | none => false

theorem amongSlots_zero {i : Nat} {w : Option Nat} : amongSlots i 0 w = false := by
  cases w with
  | none => rfl
  | some t => simp [amongSlots]

/-- Draining the slots from `i` on takes the timer out once if its slot is one of them, and leaves it otherwise. -/
theorem InSlot.drainSlots {timers : Nat → Option (List Timer)} {timer : Timer} {w : Option Nat} (h : InSlot timers timer w)
    (i n : Nat) :
    (Wheel.drainSlots timers i n).1.count timer = (if amongSlots i n w then 1 else 0) ∧
      InSlot (Wheel.drainSlots timers i n).2 timer (if amongSlots i n w then none else w) := by
  induction n generalizing timers i w with
  | zero =>
    rw [amongSlots_zero]
    exact ⟨rfl, h⟩
  | succ n ih =>
    obtain ⟨hcount, hleft⟩ := ih (h.removeSlot i) (i + 1)
    have hfirst : ((timers i).getD []).count timer = if w = some i then 1 else 0 := h i
    rw [Wheel.drainSlots]
    dsimp only
    rw [List.count_append, hcount, hfirst]
    by_cases hw : w = some i
    · subst hw
      have hsome : amongSlots i (n + 1) (some i) = true := by simp [amongSlots]
      rw [if_pos rfl] at hleft
      rw [hsome, if_pos rfl, if_pos rfl]
      exact ⟨rfl, hleft⟩
    · have hsame : amongSlots (i + 1) n w = amongSlots i (n + 1) w := by
        cases w with
        | none => rfl
        | some t =>
          have hne : t ≠ i := fun heq => hw (congrArg some heq)
          simp only [amongSlots, ← Bool.decide_and, decide_eq_decide]
          omega
      rw [if_neg hw, hsame] at hleft
      rw [if_neg hw, if_neg hw, hsame]
      exact ⟨Nat.zero_add _, hleft⟩

theorem slotCount_pushTimer {w : Wheel} {t u : Nat} {timer timer' : Timer} :
    slotCount (w.pushTimer t timer).timers u timer' =
      slotCount w.timers u timer' + if u = t ∧ timer' = timer then 1 else 0 := by
  unfold slotCount Wheel.pushTimer
  dsimp only
  rcases eq_or_ne u t with rfl | hne
  · rw [Function.update_self, Option.getD_some, List.count_append, List.count_singleton]
    rcases eq_or_ne timer' timer with rfl | hother
    · simp
    · simp [hother, Ne.symm hother]
  · rw [Function.update_of_ne hne]
    simp [hne]

/-! ### The history -/

/-- The slot in which the timer waits: it has been added, and no call of `next_tick` since then had a greater tick number. -/
def waiting (tick : Nat) (timer : Timer) : List CallEvent → Option Nat
  | [] => none
  | .added timer' now duration _ :: past =>
    if timer' = timer then some ((now + duration) / 1000 / tick) else waiting tick timer past
  | .ticked now _ :: past => (waiting tick timer past).filter fun t => decide (now / 1000 / tick ≤ t)

/-- The call is one that adds the timer. -/
def CallEvent.adds (timer : Timer) : CallEvent → Bool
  | .added timer' .. => timer' == timer
  | .ticked .. => false

/-- What a call does, by what has happened before it. -/
def Expected (tick : Nat) (before : List CallEvent) : CallEvent → Prop
  | .added timer now duration result =>
    result = .returned (some ((now + duration) / 1000 / tick)) ∧
      ∀ e ∈ before, e.adds timer = false ∧ e.returned timer = 0
  | .ticked now result =>
    result ≠ .panicked ∧ ∀ timer,
      (CallEvent.ticked now result).returned timer =
        if (waiting tick timer before).any fun t => t < now / 1000 / tick then 1 else 0

theorem waiting_eq_none {timer : Timer} {past : List CallEvent} (h : ∀ e ∈ past, e.adds timer = false) :
    waiting tick timer past = none := by
  induction past with
  | nil => rfl
  | cons e past ih =>
    have hrest := ih fun e' he' => h e' (List.mem_cons_of_mem _ he')
    cases e with
    | added timer' now duration result =>
      have hne : timer' ≠ timer := by
        have hadds := h _ List.mem_cons_self
        simpa [CallEvent.adds] using hadds
      rw [waiting, if_neg hne, hrest]
    | ticked now result =>
      rw [waiting, hrest]
      rfl

/-- The wheel after a history. -/
structure CallsInv (tick : Nat) (s : Calls) (past : List CallEvent) : Prop where
  clock : s.wheel.ticks ≤ s.clock / 1000 / tick
  stored : ∀ timer, InSlot s.wheel.timers timer (waiting tick timer past)
  ahead : ∀ timer t, waiting tick timer past = some t → s.wheel.ticks ≤ t
  fresh : ∀ timer, s.added ≤ timer → ∀ e ∈ past, e.adds timer = false ∧ e.returned timer = 0
  expected : Throughout (Expected tick) past

section Steps
variable {s : Calls} {past : List CallEvent}

theorem CallsInv.wait (h : CallsInv tick s past) (nanos : Nat) : CallsInv tick { s with clock := s.clock + nanos } past where
  clock := Nat.le_trans h.clock (Nat.div_le_div_right (Nat.div_le_div_right (Nat.le_add_right _ _)))
  stored := h.stored
  ahead := h.ahead
  fresh := h.fresh
  expected := h.expected

theorem CallsInv.newTimer (h : CallsInv tick s past) {duration : Nat} {w : Wheel} {t : Nat}
    (ht : t = (s.clock + duration) / 1000 / tick) (hticks : w.ticks = s.wheel.ticks)
    (htimers : w.timers = (s.wheel.pushTimer t s.added).timers) :
    CallsInv tick { s with wheel := w, added := s.added + 1 }
      (.added s.added s.clock duration (.returned (some t)) :: past) := by
  have hle : s.wheel.ticks ≤ t := by
    rw [ht]
    exact (h.wait duration).clock
  have hnone : waiting tick s.added past = none := waiting_eq_none fun e he => (h.fresh s.added (Nat.le_refl _) e he).1
  refine {
    clock := hticks ▸ h.clock
    stored := fun timer u => ?_
    ahead := fun timer u hu => ?_
    fresh := fun timer hlt e he => ?_
    expected := ⟨⟨by rw [ht], h.fresh s.added (Nat.le_refl _)⟩, h.expected⟩ }
  · rw [htimers, slotCount_pushTimer, h.stored timer u, waiting]
    rcases eq_or_ne s.added timer with rfl | hne
    · rw [hnone, if_pos rfl, ← ht]
      simp [eq_comm]
    · rw [if_neg hne]
      simp [Ne.symm hne]
  · rw [waiting] at hu
    rw [hticks]
    split at hu
    · cases hu
      rw [← ht]
      exact hle
    · exact h.ahead timer u hu
  · have hle' : s.added ≤ timer := Nat.le_of_succ_le hlt
    rcases List.mem_cons.mp he with rfl | he
    · exact ⟨beq_eq_false_iff_ne.mpr (Nat.ne_of_lt hlt), rfl⟩
    · exact h.fresh timer hle' e he

/-- What a call of `next_tick` with the tick number `n` leaves. -/
theorem CallsInv.nextTick (h : CallsInv tick s past) {w : Wheel} {result : Option (List Timer)} (hticks : w.ticks = s.clock / 1000 / tick)
    (hreturned : ∀ timer, (CallEvent.ticked s.clock (.returned result)).returned timer =
      if (waiting tick timer past).any fun t => t < s.clock / 1000 / tick then 1 else 0)
    (hstored : ∀ timer, InSlot w.timers timer
      ((waiting tick timer past).filter fun t => decide (s.clock / 1000 / tick ≤ t))) :
    CallsInv tick { s with wheel := w } (.ticked s.clock (.returned result) :: past) where
  clock := Nat.le_of_eq hticks
  stored := hstored
  ahead timer t ht := by
    rw [waiting, Option.filter_eq_some_iff] at ht
    rw [hticks]
    exact of_decide_eq_true ht.2
  fresh timer hle e he := by
    rcases List.mem_cons.mp he with rfl | he
    · refine ⟨rfl, ?_⟩
      rw [hreturned, waiting_eq_none fun e he => (h.fresh timer hle e he).1]
      rfl
    · exact h.fresh timer hle e he
  expected := ⟨⟨nofun, hreturned⟩, h.expected⟩

/-- A timer that is not behind slot `i` is among the slots before slot `n`, or stays. -/
theorem amongSlots_ahead {w : Option Nat} {i n : Nat} (hle : i ≤ n) (hahead : ∀ t, w = some t → i ≤ t) :
    amongSlots i (n - i) w = (w.any fun t => decide (t < n)) ∧
      (if amongSlots i (n - i) w then none else w) = w.filter fun t => decide (n ≤ t) := by
  cases w with
  | none => exact ⟨rfl, rfl⟩
  | some t =>
    have hi := hahead t rfl
    have hiff : amongSlots i (n - i) (some t) = decide (t < n) := by
      simp only [amongSlots, ← Bool.decide_and, decide_eq_decide]
      omega
    refine ⟨hiff, ?_⟩
    rw [hiff]
    rcases Nat.lt_or_ge t n with hlt | hge
    · simp [Option.filter, hlt]
    · simp [Option.filter, hge, Nat.not_lt.mpr hge]

theorem CallsInv.step {s' : Calls} {a : CallAction} (h : CallsInv tick s past) (htick : 0 < tick) (hfits : s.fits tick a = true)
    (hduration : s.isDuration a = true) (hs : s.step tick a = some s') : CallsInv tick s' ((s.events tick a).reverse ++ past) := by
  cases a with
  | wait nanos =>
    cases hs
    exact h.wait nanos
  | newTimer duration =>
    have ht := tickOf_eq htick (of_decide_eq_true hduration) (of_decide_eq_true hfits)
    have hcall : s.wheel.newTimer tick s.clock s.added duration = _ := newTimer_eq ht (h.wait duration).clock
    cases hs
    rw [Calls.events, hcall]
    exact h.newTimer rfl rfl rfl
  | nextTick =>
    have ht := tickOf_eq htick (of_decide_eq_true hduration) (of_decide_eq_true hfits)
    have hslots := fun timer => amongSlots_ahead h.clock (h.ahead timer)
    cases hs
    rw [Calls.events]
    rcases Nat.eq_or_lt_of_le h.clock with heq | hlt
    · -- No slot lies between, and every timer that waits is ahead.
      rw [← heq] at ht
      rw [nextTick_eq_none ht]
      refine h.nextTick heq (fun timer => ?_) fun timer => ?_
      · rw [← (hslots timer).1, ← heq, Nat.sub_self, amongSlots_zero]
        rfl
      · rw [← (hslots timer).2, ← heq, Nat.sub_self, amongSlots_zero]
        exact h.stored timer
    · rw [nextTick_eq_some ht hlt]
      refine h.nextTick rfl (fun timer => ?_) fun timer => ?_
      · rw [← (hslots timer).1]
        exact ((h.stored timer).drainSlots _ _).1
      · rw [← (hslots timer).2]
        exact ((h.stored timer).drainSlots _ _).2

end Steps

theorem CallsInv.init : CallsInv tick {} [] where
  clock := Nat.zero_le _
  stored _ _ := rfl
  ahead _ _ := nofun
  fresh _ _ _ := nofun
  expected := trivial

theorem callsInv_of_reaches {s : Calls × List CallEvent} (htick : 0 < tick)
    (h : Reaches (traced (Calls.step tick) (Calls.events tick))
      (fun s a => s.1.fits tick a = true ∧ s.1.isDuration a = true) ({}, []) s) :
    CallsInv tick s.1 s.2 :=
  h.traced_invariant .init fun hinv hok hs => hinv.step htick hok.1 hok.2 hs

/-! ### Delivery -/

section Delivery
variable {timer : Timer} {now duration t : Nat} {result : Outcome (Option Nat)} {later before : List CallEvent}

theorem adds_eq_false_of_expected {e : CallEvent}
    (h : Expected tick (later ++ .added timer now duration result :: before) e) : e.adds timer = false := by
  cases e with
  | ticked => rfl
  | added timer' now' duration' result' =>
    -- A timer is added once, as the call that adds it finds no earlier one.
    rcases eq_or_ne timer' timer with rfl | hne
    · have hself := (h.2 _ (List.mem_append_right _ List.mem_cons_self)).1
      simp [CallEvent.adds] at hself
    · exact beq_eq_false_iff_ne.mpr hne

/-- A call returns the timer if it waits in a slot that is due. -/
theorem returned_of_expected {past : List CallEvent} {e : CallEvent} (h : Expected tick past e) :
    e.returned timer = if (waiting tick timer past).any fun t => e.due tick t then 1 else 0 := by
  cases e with
  | added => simp [CallEvent.returned, CallEvent.due]
  | ticked now result => exact h.2 timer

theorem waiting_cons {past : List CallEvent} {e : CallEvent} (h : e.adds timer = false) :
    waiting tick timer (e :: past) = (waiting tick timer past).filter fun t => !e.due tick t := by
  cases e with
  | added timer' now duration result =>
    rw [waiting, if_neg (beq_eq_false_iff_ne.mp h)]
    cases waiting tick timer past with
    | none => rfl
    | some t => rfl
  | ticked now result =>
    rw [waiting]
    congr 1
    funext t
    rw [CallEvent.due, ← decide_not, decide_eq_decide]
    omega

/-- Since it was added a timer has waited, or one call has returned it and it waits no more. -/
theorem waits_or_returned (ht : t = (now + duration) / 1000 / tick)
    (h : Throughout (Expected tick) (later ++ .added timer now duration result :: before)) :
    (waiting tick timer (later ++ .added timer now duration result :: before) = some t ∧
      ∀ e ∈ later, e.due tick t = false ∧ e.returned timer = 0) ∨
    waiting tick timer (later ++ .added timer now duration result :: before) = none ∧
      ∃ after e between, later = after ++ e :: between ∧ e.due tick t = true ∧ e.returned timer = 1 ∧
        (∀ e' ∈ between, e'.due tick t = false ∧ e'.returned timer = 0) ∧ ∀ e' ∈ after, e'.returned timer = 0 := by
  induction later with
  | nil => exact .inl ⟨by simp [waiting, ht], nofun⟩
  | cons e later ih =>
    rw [List.cons_append] at h ⊢
    obtain ⟨hexpected, hrest⟩ := h
    have hreturned : e.returned timer = _ := returned_of_expected hexpected
    rw [waiting_cons (adds_eq_false_of_expected hexpected)]
    rcases ih hrest with ⟨hsome, hnone⟩ | ⟨hgone, after, e', between, rfl, hdue, hone, hbetween, hafter⟩
    · rw [hsome] at hreturned ⊢
      cases hdue : e.due tick t with
      | false =>
        rw [Option.any_some, hdue] at hreturned
        exact .inl ⟨by simp [Option.filter, hdue], List.forall_mem_cons.mpr ⟨⟨hdue, hreturned⟩, hnone⟩⟩
      | true =>
        rw [Option.any_some, hdue] at hreturned
        exact .inr ⟨by simp [Option.filter, hdue], [], e, later, rfl, hdue, hreturned, hnone, nofun⟩
    · rw [hgone] at hreturned ⊢
      exact .inr ⟨rfl, e :: after, e', between, rfl, hdue, hone, hbetween, List.forall_mem_cons.mpr ⟨hreturned, hafter⟩⟩

theorem delivered_of_throughout (ht : t = (now + duration) / 1000 / tick)
    (h : Throughout (Expected tick) (later ++ .added timer now duration result :: before)) :
    Delivered tick timer t later := by
  rcases waits_or_returned ht h with ⟨_, hwaits⟩ | ⟨_, hreturned⟩
  · exact .inl hwaits
  · exact .inr hreturned

/-- Only a call that is due returns the timer. -/
theorem Delivered.due_of_returned {e : CallEvent} (h : Delivered tick timer t later) (he : e ∈ later)
    (hreturned : e.returned timer ≠ 0) : e.due tick t = true := by
  rcases h with hwaits | ⟨after, e', between, rfl, hdue, _, hbetween, hafter⟩
  · exact absurd (hwaits e he).2 hreturned
  · rcases List.mem_append.mp he with he | he
    · exact absurd (hafter e he) hreturned
    · rcases List.mem_cons.mp he with rfl | he
      · exact hdue
      · exact absurd (hbetween e he).2 hreturned

end Delivery

theorem lt_of_tick_lt {a b : Nat} (h : a / 1000 / tick < b / 1000 / tick) : a < b := by
  rcases Nat.lt_or_ge a b with hlt | hge
  · exact hlt
  · exact absurd h (Nat.not_lt.mpr (Nat.div_le_div_right (Nat.div_le_div_right hge)))

/-- A tick duration of whole microseconds is not cut. -/
theorem div_tickMicros {tickDuration : Nat} (h : 1000 ∣ tickDuration) (nanos : Nat) :
    nanos / 1000 / tickMicros tickDuration = nanos / tickDuration := by
  rw [tickMicros, Nat.div_div_eq_div_mul, Nat.mul_div_cancel' h]

/-- In every run of calls one at a time: `new_timer` returns the tick at which the timer expires, `next_tick` does not
    panic, and a timer is returned once, by the first `next_tick` with a greater tick number; by then its time is over. A
    tick is the tick duration cut to whole microseconds. -/
theorem timers_delivered_once (tickDuration : Nat) (htick : 1000 ≤ tickDuration) (s : Calls) (past : List CallEvent)
    (h : Reaches (traced (Calls.step (tickMicros tickDuration)) (Calls.events (tickMicros tickDuration)))
      (fun s a => s.1.fits (tickMicros tickDuration) a = true ∧ s.1.isDuration a = true) ({}, []) (s, past)) :
    (∀ timer now duration result, .added timer now duration result ∈ past →
      result = .returned (some ((now + duration) / 1000 / tickMicros tickDuration))) ∧
    (∀ now, .ticked now .panicked ∉ past) ∧
    (∀ later before timer now duration result, past = later ++ .added timer now duration result :: before →
      (∀ e ∈ before, e.returned timer = 0) ∧
      Delivered (tickMicros tickDuration) timer ((now + duration) / 1000 / tickMicros tickDuration) later ∧
      ∀ now' timers, .ticked now' (.returned (some timers)) ∈ later → timer ∈ timers → now + duration < now') ∧
    (1000 ∣ tickDuration → ∀ nanos, nanos / 1000 / tickMicros tickDuration = nanos / tickDuration) := by
  have hinv := callsInv_of_reaches (Nat.div_pos htick (by decide)) h
  refine ⟨fun timer now duration result hadded => ?_, fun now hticked => ?_,
    fun later before timer now duration result hpast => ?_, div_tickMicros⟩
  · obtain ⟨later, before, hpast⟩ := List.append_of_mem hadded
    exact (hpast ▸ hinv.expected).of_append.1
  · obtain ⟨later, before, hpast⟩ := List.append_of_mem hticked
    exact (hpast ▸ hinv.expected).of_append.1 rfl
  · have hexpected : Throughout _ (later ++ .added timer now duration result :: before) := hpast ▸ hinv.expected
    have hdelivered := delivered_of_throughout rfl hexpected
    refine ⟨fun e he => (hexpected.of_append.2 e he).2, hdelivered, fun now' timers hticked hmem => ?_⟩
    have hdue := hdelivered.due_of_returned hticked (Nat.ne_of_gt (List.count_pos_iff.mpr hmem))
    exact lt_of_tick_lt (of_decide_eq_true hdue)

/-- Two timers under tick 3; the call that returns them comes four ticks late. -/
def callsRun : List CallAction := [.newTimer 3000, .wait 2500, .nextTick, .newTimer 500, .wait 5000, .nextTick, .nextTick]

def callsPast : List CallEvent :=
  [.ticked 7500 (.returned none), .ticked 7500 (.returned (some [0, 1])), .added 1 2500 500 (.returned (some 3)),
    .ticked 2500 (.returned (some [])), .added 0 0 3000 (.returned (some 3))]

theorem timers_delivered_once_callsRun :
    (∃ s, runIf (traced (Calls.step (tickMicros 1000)) (Calls.events (tickMicros 1000)))
        (fun s a => s.1.fits (tickMicros 1000) a && s.1.isDuration a) ({}, []) callsRun = some (s, callsPast)) ∧
      Delivered (tickMicros 1000) 0 3 (callsPast.take 4) := by
  have hrun : ∃ s, runIf (traced (Calls.step (tickMicros 1000)) (Calls.events (tickMicros 1000)))
      (fun s a => s.1.fits (tickMicros 1000) a && s.1.isDuration a) ({}, []) callsRun = some (s, callsPast) := ⟨_, rfl⟩
  refine ⟨hrun, ?_⟩
  obtain ⟨s, hs⟩ := hrun
  have hreaches := Reaches.of_runIf callsRun (fun s a hok => (Bool.and_eq_true_iff.mp hok)) hs
  exact ((timers_delivered_once 1000 (Nat.le_refl _) s callsPast hreaches).2.2.1 (callsPast.take 4) [] 0 0 3000 _ rfl).2.1

/-- A tick of 1500 ns counts as one of 1000 ns, so that 3 µs are three ticks and not two; and a `new_timer` that expires
    past the longest `Duration` panics although its tick number fits. -/
theorem newTimer_ne_floor :
    (∃ s, runIf (traced (Calls.step (tickMicros 1500)) (Calls.events (tickMicros 1500)))
        (fun s a => s.1.fits 1 a) ({}, []) [.newTimer 3000] = some (s, [.added 0 0 3000 (.returned (some 3))]) ∧
      (0 + 3000) / 1500 ≠ 3) ∧
    ∃ s, runIf (traced (Calls.step (tickMicros 2000000000)) (Calls.events (tickMicros 2000000000)))
        (fun s a => s.1.fits (tickMicros 2000000000) a) ({}, []) [.wait 1, .newTimer maxDuration] =
      some (s, [.added 0 1 maxDuration .panicked]) ∧ (1 + maxDuration) / 2000000000 < 2 ^ 64 :=
  ⟨⟨_, rfl, by decide⟩, _, rfl, by decide⟩

end Hala.TimeWheel
