import Hala.Theorems.Lockfree.WheelCalls

/-! The wheel gives no timer back before its deadline.

A timer is stored under the tick of its deadline or a later one. A `next_tick` that drains it has a greater tick number,
and so does a `new_timer` that refuses it. -/

namespace Hala.TimeWheel
open Machine
variable {tick : Nat} {deadline : Timer → Nat} {s s' : State} {i j : Nat}

/-- The tick of the timer is not before its deadline, and what the call has seen of the wheel has come. -/
def Add.notEarly (tick clock deadline : Nat) : Add → Prop
  | .firstLoad t | .firstExchange t _ | .push t | .load t | .secondLoad t | .secondExchange t _ | .count t =>
    deadline / 1000 / tick ≤ t
  | .remove t => deadline / 1000 / tick ≤ t ∧ t < clock / 1000 / tick
  | .secondApply t prev => deadline / 1000 / tick ≤ t ∧ prev ≤ clock / 1000 / tick
  | .done none => deadline ≤ clock
  | .idle | .done (some _) | .panicked => True

/-- The deadlines of the timers that the call has drained have passed. -/
def Pop.notEarly (tick clock : Nat) (deadline : Timer → Nat) : Pop → Prop
  | .exchange _ ticks => ticks ≤ clock / 1000 / tick
  | .drain _ ticks timers => ticks ≤ clock / 1000 / tick ∧ ∀ i ∈ timers, deadline i ≤ clock
  | .done (some timers) => ∀ i ∈ timers, deadline i ≤ clock
  | .idle | .load | .now _ | .done none | .panicked => True

structure NotEarly (tick : Nat) (deadline : Timer → Nat) (s : State) : Prop where
  ticks : s.ticks ≤ s.clock / 1000 / tick
  adds : ∀ i, (s.adds i).notEarly tick s.clock (deadline i)
  stored : ∀ t i, Stored s t i → deadline i / 1000 / tick ≤ t
  pops : ∀ j, (s.pops j).notEarly tick s.clock deadline
  fresh : ∀ i, s.adds i = .idle → (∀ t, ¬Stored s t i) ∧ ¬Taken s i

/-- A deadline whose tick the clock has passed. -/
theorem passed {deadline clock t : Nat} (hdeadline : deadline / 1000 / tick ≤ t) (hclock : t < clock / 1000 / tick) :
    deadline ≤ clock := by
  by_contra hlt
  have hle : clock / 1000 / tick ≤ deadline / 1000 / tick := Nat.div_le_div_right (Nat.div_le_div_right (by omega))
  omega

theorem ticks_mono {clock clock' : Nat} (h : clock ≤ clock') : clock / 1000 / tick ≤ clock' / 1000 / tick :=
  Nat.div_le_div_right (Nat.div_le_div_right h)

theorem Add.notEarly.mono {add : Add} {clock clock' deadline : Nat} (h : add.notEarly tick clock deadline)
    (hclock : clock ≤ clock') : add.notEarly tick clock' deadline := by
  cases add with
  | remove t => exact ⟨h.1, Nat.lt_of_lt_of_le h.2 (ticks_mono hclock)⟩
  | secondApply t prev => exact ⟨h.1, Nat.le_trans h.2 (ticks_mono hclock)⟩
  | done result =>
    cases result with
    | none => exact Nat.le_trans h hclock
    | some t => trivial
  | _ => exact h

theorem Pop.notEarly.mono {pop : Pop} {clock clock' : Nat} (h : pop.notEarly tick clock deadline) (hclock : clock ≤ clock') :
    pop.notEarly tick clock' deadline := by
  cases pop with
  | exchange current ticks => exact Nat.le_trans h (ticks_mono hclock)
  | drain k ticks timers => exact ⟨Nat.le_trans h.1 (ticks_mono hclock), fun i hi => Nat.le_trans (h.2 i hi) hclock⟩
  | done result =>
    cases result with
    | none => trivial
    | some timers => exact fun i hi => Nat.le_trans (h i hi) hclock
  | _ => trivial

theorem Pop.notEarly.of_taken {pop : Pop} {clock : Nat} (h : pop.notEarly tick clock deadline) :
    ∀ i ∈ pop.taken, deadline i ≤ clock := by
  cases pop with
  | drain k ticks timers => exact h.2
  | done result =>
    cases result with
    | none => nofun
    | some timers => exact h
  | _ => nofun

theorem NotEarly.init : NotEarly tick deadline {} where
  ticks := Nat.zero_le _
  adds _ := trivial
  stored t i h := by
    obtain ⟨_, htimers, -⟩ := h
    cases htimers
  pops _ := trivial
  fresh i _ := by
    refine ⟨?_, ?_⟩
    · rintro t ⟨_, htimers, -⟩
      cases htimers
    · rintro ⟨j, hj⟩
      cases hj

/-- The deadline of a timer that has not been given to the wheel does not matter. -/
theorem NotEarly.setDeadline (h : NotEarly tick deadline s) {deadline' : Timer → Nat}
    (hdeadline : ∀ i, deadline' i = deadline i ∨ s.adds i = .idle) : NotEarly tick deadline' s where
  ticks := h.ticks
  adds i := by
    rcases hdeadline i with heq | hidle
    · rw [heq]
      exact h.adds i
    · rw [hidle]
      trivial
  stored t i hstored := by
    rcases hdeadline i with heq | hidle
    · rw [heq]
      exact h.stored t i hstored
    · exact absurd hstored ((h.fresh i hidle).1 t)
  pops j := by
    have htaken : ∀ i ∈ (s.pops j).taken, deadline' i ≤ s.clock := by
      intro i hi
      rcases hdeadline i with heq | hidle
      · rw [heq]
        exact (h.pops j).of_taken i hi
      · exact absurd ⟨j, hi⟩ (h.fresh i hidle).2
    have hpop := h.pops j
    cases hc : s.pops j with
    | exchange current ticks =>
      rw [hc] at hpop
      exact hpop
    | drain k ticks timers =>
      rw [hc] at hpop htaken
      exact ⟨hpop.1, htaken⟩
    | done result =>
      rw [hc] at htaken
      cases result with
      | none => trivial
      | some timers => exact htaken
    | _ => trivial
  fresh := h.fresh

theorem NotEarly.wait (h : NotEarly tick deadline s) (nanos : Nat) :
    NotEarly tick deadline { s with clock := s.clock + nanos } where
  ticks := Nat.le_trans h.ticks (ticks_mono (Nat.le_add_right _ _))
  adds i := (h.adds i).mono (Nat.le_add_right _ _)
  stored := h.stored
  pops j := (h.pops j).mono (Nat.le_add_right _ _)
  fresh := h.fresh

theorem NotEarly.setAdd (h : NotEarly tick deadline s) {add : Add} (hadd : add.notEarly tick s.clock (deadline i))
    (hbusy : add ≠ .idle) : NotEarly tick deadline (s.setAdd i add) where
  ticks := h.ticks
  adds k := by
    rcases eq_or_ne k i with rfl | hne
    · rw [setAdd_self]
      exact hadd
    · rw [setAdd_of_ne _ _ hne]
      exact h.adds k
  stored := h.stored
  pops := h.pops
  fresh k hk := by
    rcases eq_or_ne k i with rfl | hne
    · rw [setAdd_self] at hk
      exact absurd hk hbusy
    · rw [setAdd_of_ne _ _ hne] at hk
      exact h.fresh k hk

theorem NotEarly.setPop (h : NotEarly tick deadline s) {pop : Pop} (hpop : pop.notEarly tick s.clock deadline)
    (htaken : ∀ i ∈ pop.taken, Taken s i) : NotEarly tick deadline (s.setPop j pop) where
  ticks := h.ticks
  adds := h.adds
  stored := h.stored
  pops k := by
    rcases eq_or_ne k j with rfl | hne
    · rw [setPop_self]
      exact hpop
    · rw [setPop_of_ne _ _ hne]
      exact h.pops k
  fresh i hi := by
    refine ⟨(h.fresh i hi).1, ?_⟩
    rintro ⟨k, hk⟩
    rcases eq_or_ne k j with rfl | hne
    · rw [setPop_self] at hk
      exact (h.fresh i hi).2 (htaken i hk)
    · rw [setPop_of_ne _ _ hne] at hk
      exact (h.fresh i hi).2 ⟨k, hk⟩

theorem NotEarly.push (h : NotEarly tick deadline s) {t : Nat} (hc : s.adds i = .push t) :
    NotEarly tick deadline ((s.pushTimer t i).setAdd i (.load t)) := by
  have hadd := h.adds i
  rw [hc] at hadd
  refine ⟨h.ticks, fun k => ?_, fun u k hk => ?_, h.pops, fun k hk => ?_⟩
  · rcases eq_or_ne k i with rfl | hne
    · rw [setAdd_self]
      exact hadd
    · rw [setAdd_of_ne _ _ hne]
      exact h.adds k
  · rcases stored_pushTimer.mp hk with hold | ⟨rfl, rfl⟩
    · exact h.stored u k hold
    · exact hadd
  · rcases eq_or_ne k i with rfl | hne
    · rw [setAdd_self] at hk
      cases hk
    · rw [setAdd_of_ne _ _ hne] at hk
      refine ⟨fun u hu => ?_, (h.fresh k hk).2⟩
      rcases stored_pushTimer.mp hu with hold | ⟨-, heq⟩
      · exact (h.fresh k hk).1 u hold
      · exact hne heq

theorem NotEarly.removeSlot (h : NotEarly tick deadline s) (t : Nat) : NotEarly tick deadline (s.removeSlot t) where
  ticks := h.ticks
  adds := h.adds
  stored u k hk := h.stored u k (stored_removeSlot.mp hk).1
  pops := h.pops
  fresh k hk := ⟨fun u hu => (h.fresh k hk).1 u (stored_removeSlot.mp hu).1, (h.fresh k hk).2⟩

theorem NotEarly.firstCheck (h : NotEarly tick deadline s) {t : Nat} (ht : deadline i / 1000 / tick ≤ t) :
    NotEarly tick deadline (s.setAdd i (firstCheck t s.ticks)) := by
  rw [TimeWheel.firstCheck]
  split
  · next hlt => exact h.setAdd (passed ht (Nat.lt_of_lt_of_le hlt h.ticks)) (by simp)
  · exact h.setAdd ht (by simp)

theorem NotEarly.addStep (h : NotEarly tick deadline s) {spurious : Bool} (hs : addStep s i spurious = some s') :
    NotEarly tick deadline s' := by
  have hadd := h.adds i
  cases add_cases hs with
  | @checked t hc =>
    rcases hc with hc | ⟨prev, hc⟩
    all_goals
      rw [hc] at hadd
      exact h.firstCheck hadd
  | accepted hc | foundAhead hc =>
    rw [hc] at hadd
    exact h.setAdd hadd (by simp)
  | pushed hc => exact h.push hc
  | foundPassed hc hlt =>
    rw [hc] at hadd
    exact h.setAdd ⟨hadd, Nat.lt_of_lt_of_le hlt h.ticks⟩ (by simp)
  | notThere hc | notThereAgain hc | appliedAhead hc =>
    rw [hc] at hadd
    exact h.setAdd hadd.1 (by simp)
  | @removed t hc =>
    rw [hc] at hadd
    exact (h.removeSlot t).setAdd (passed hadd.1 hadd.2) (by simp)
  | loaded hc | lostExchange hc =>
    rw [hc] at hadd
    exact h.setAdd ⟨hadd, h.ticks⟩ (by simp)
  | @removedAgain t prev hc hlt =>
    rw [hc] at hadd
    exact (h.removeSlot t).setAdd (passed hadd.1 (Nat.lt_of_lt_of_le hlt hadd.2)) (by simp)
  | confirmed hc =>
    rw [hc] at hadd
    exact h.setAdd hadd (by simp)
  | counted =>
    have hcounted : NotEarly tick deadline { s with timerCount := (s.timerCount + 1) % 2 ^ 64 } :=
      ⟨h.ticks, h.adds, h.stored, h.pops, h.fresh⟩
    exact hcounted.setAdd trivial (by simp)

theorem le_of_tickOf {nanos ticks : Nat} (h : tickOf tick nanos = some ticks) : ticks ≤ nanos / 1000 / tick := by
  rw [tickOf, Option.ite_none_left_eq_some] at h
  rw [← Option.some.inj h.2]
  exact Nat.mod_le _ _

theorem NotEarly.drain (h : NotEarly tick deadline s) {k ticks : Nat} {timers : List Timer}
    (hc : s.pops j = .drain k ticks timers) (hlt : k < ticks) :
    NotEarly tick deadline ((s.removeSlot k).setPop j (.drain (k + 1) ticks (timers ++ (s.timers k).getD []))) := by
  have hpop := h.pops j
  rw [hc] at hpop
  have hd := drained hc
  refine ⟨h.ticks, h.adds, fun t i hi => h.stored t i ((hd.stored t i).mp hi).1, fun l => ?_, fun i hi => ⟨fun t ht => ?_, ?_⟩⟩
  · rcases eq_or_ne l j with rfl | hne
    · rw [setPop_self]
      refine ⟨hpop.1, fun i hi => ?_⟩
      rcases List.mem_append.mp hi with hold | hslot
      · exact hpop.2 i hold
      · exact passed (h.stored k i (mem_slot.mp hslot)) (Nat.lt_of_lt_of_le hlt hpop.1)
    · rw [setPop_of_ne _ _ hne]
      exact h.pops l
  · exact (h.fresh i hi).1 t ((hd.stored t i).mp ht).1
  · rintro ⟨l, hl⟩
    rcases (hd.taken l i).mp hl with hold | ⟨-, hslot⟩
    · exact (h.fresh i hi).2 ⟨l, hold⟩
    · exact (h.fresh i hi).1 k hslot

theorem NotEarly.popStep (h : NotEarly tick deadline s) (hs : popStep tick s j = some s') : NotEarly tick deadline s' := by
  have hpop := h.pops j
  obtain ⟨-, rfl⟩ | ⟨current, pop, -, rfl, hnext⟩ | ⟨ticks, hc, rfl⟩ | ⟨-, -, -, -, rfl⟩ | ⟨k, ticks, timers, hc, hlt, rfl⟩ |
    ⟨k, ticks, timers, hc, -, rfl⟩ := popStep_cases hs
  · exact h.setPop trivial nofun
  · rcases hnext with ⟨rfl, -⟩ | ⟨rfl, -⟩ | ⟨ticks, ht, -, rfl⟩
    · exact h.setPop trivial nofun
    · exact h.setPop trivial nofun
    · exact h.setPop (le_of_tickOf ht) nofun
  · rw [hc] at hpop
    have hmoved : NotEarly tick deadline { s with ticks } := ⟨hpop, h.adds, h.stored, h.pops, h.fresh⟩
    exact hmoved.setPop ⟨hpop, nofun⟩ nofun
  · exact h.setPop trivial nofun
  · exact h.drain hc hlt
  · rw [hc] at hpop
    refine h.setPop hpop.2 fun i hi => ⟨j, ?_⟩
    rwa [hc]

/-- A `new_timer` whose deadline is not behind the one that it computes the tick of. -/
theorem NotEarly.newTimer (h : NotEarly tick deadline s) {duration : Nat} (hdeadline : deadline i ≤ s.clock + duration)
    (hfits : (s.clock + duration) / 1000 / tick < 2 ^ 64) (hs : step tick s (.newTimer i duration) = some s') :
    NotEarly tick deadline s' := by
  obtain ⟨-, ⟨-, rfl⟩ | ⟨t, ht, rfl⟩⟩ := newTimerStep_cases hs
  · exact h.setAdd trivial (by simp)
  · have hle : deadline i / 1000 / tick ≤ (s.clock + duration) / 1000 / tick := ticks_mono hdeadline
    rw [← ticks_of_tickOf ht hfits] at hle
    exact h.setAdd hle (by simp)

/-! ### What stays -/

/-- A call of `next_tick` has drained the timer, or `new_timer` has refused it. -/
def Over (s : State) (i : Timer) : Prop := Taken s i ∨ s.adds i = .done none

theorem taken_popStep (hs : popStep tick s j = some s') (h : Taken s i) : Taken s' i := by
  obtain ⟨l, hl⟩ := h
  have hself : ∀ (u : State) (pop : Pop), u.pops = s.pops → (∀ k ∈ (s.pops j).taken, k ∈ pop.taken) → Taken (u.setPop j pop) i := by
    intro u pop hu hpop
    refine ⟨l, ?_⟩
    rcases eq_or_ne l j with rfl | hne
    · rw [setPop_self]
      exact hpop i hl
    · rw [setPop_of_ne _ _ hne, hu]
      exact hl
  obtain ⟨hc, rfl⟩ | ⟨current, pop, hc, rfl, -⟩ | ⟨ticks, hc, rfl⟩ | ⟨current, ticks, hc, -, rfl⟩ |
    ⟨k, ticks, timers, hc, -, rfl⟩ | ⟨k, ticks, timers, hc, -, rfl⟩ := popStep_cases hs
  · exact hself _ _ rfl (by simp [hc, Pop.taken])
  · exact hself _ _ rfl (by simp [hc, Pop.taken])
  · exact hself _ _ rfl (by simp [hc, Pop.taken])
  · exact hself _ _ rfl (by simp [hc, Pop.taken])
  · refine hself _ _ rfl fun k hk => ?_
    rw [hc] at hk
    exact List.mem_append_left _ hk
  · refine hself _ _ rfl fun k hk => ?_
    rwa [hc] at hk

/-- A timer that is over stays so. -/
theorem over_step {a : Action} (hs : step tick s a = some s') (h : Over s i) : Over s' i := by
  cases a with
  | wait nanos =>
    cases hs
    exact h
  | newTimer k duration =>
    obtain ⟨hidle, hadds, -⟩ := newTimer_adds hs
    rcases h with ⟨j, hj⟩ | hdone
    · exact .inl ⟨j, by rwa [newTimer_pops hs]⟩
    · have hne : i ≠ k := by
        rintro rfl
        rw [hdone] at hidle
        cases hidle
      exact .inr ((hadds i hne).trans hdone)
  | add k spurious =>
    rcases h with ⟨j, hj⟩ | hdone
    · exact .inl ⟨j, by rwa [addStep_pops hs]⟩
    · have hne : i ≠ k := by
        rintro rfl
        simp [step, addStep, hdone] at hs
      exact .inr (((addStep_adds hs).1 i hne).trans hdone)
  | nextTick j =>
    rw [step, Option.ite_none_right_eq_some] at hs
    obtain ⟨hidle, hs⟩ := hs
    cases hs
    rcases h with ⟨l, hl⟩ | hdone
    · have hne : l ≠ j := by
        rintro rfl
        rw [hidle] at hl
        cases hl
      exact .inl ⟨l, by rwa [setPop_of_ne _ _ hne]⟩
    · exact .inr hdone
  | pop j =>
    rcases h with htaken | hdone
    · exact .inl (taken_popStep hs htaken)
    · exact .inr ((congrFun (popStep_adds hs) i).trans hdone)

end Hala.TimeWheel
