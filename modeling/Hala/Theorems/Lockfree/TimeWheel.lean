import Hala.Lockfree.TimeWheel

/-! No timer is lost by the time wheel as long as no `new_timer` takes back a slot that others use too.

The invariant says where a timer is between its insertion and the return of its `new_timer`: in its slot or in
the hands of one `next_tick`. A timer that `new_timer` has confirmed is in a slot that is still ahead of `ticks`,
or a `next_tick` has it or is on its way to it. -/

namespace Hala.TimeWheel
open Machine

/-- The slot of a timer that has been inserted and not been taken back. -/
def Add.home : Add → Option Nat
  | .load t | .remove t | .secondLoad t | .secondApply t _ | .secondExchange t _ | .count t => some t
  | .done result => result
  | _ => none

/-- The tick under which `new_timer` has confirmed its timer. -/
def Add.confirmed : Add → Option Nat
  | .count t => some t
  | .done result => result
  | _ => none

/-- The timers that a `next_tick` has taken out of the slots. -/
def Pop.taken : Pop → List Timer
  | .drain _ _ timers | .done (some timers) => timers
  | _ => []

/-- The slots that a `next_tick` has still to drain. -/
def Pop.claims (t : Nat) : Pop → Prop
  | .drain i ticks _ => i ≤ t ∧ t < ticks
  | _ => False

def Taken (s : State) (i : Timer) : Prop := ∃ j, i ∈ (s.pops j).taken

structure Inv (s : State) : Prop where
  slot_ne_nil : ∀ t, s.timers t ≠ some []
  stored_home : ∀ t i, Stored s t i → (s.adds i).home = some t
  taken_home : ∀ j i, i ∈ (s.pops j).taken → (s.adds i).home ≠ none
  stored_not_taken : ∀ t i j, Stored s t i → i ∉ (s.pops j).taken
  taken_unique : ∀ i j k, i ∈ (s.pops j).taken → i ∈ (s.pops k).taken → j = k
  present : ∀ i t, (s.adds i).home = some t → Stored s t i ∨ Taken s i
  late : ∀ i t prev, s.adds i = .secondExchange t prev → t < prev → Taken s i
  ahead : ∀ i t, (s.adds i).confirmed = some t → Taken s i ∨ s.ticks ≤ t ∨ ∃ j, (s.pops j).claims t

theorem home_of_confirmed {add : Add} {t : Nat} (h : add.confirmed = some t) : add.home = some t := by
  cases add <;> first | exact h | cases h

theorem inv_init : Inv {} := by
  constructor <;> simp [Stored, Pop.taken, Add.home, Add.confirmed]

section Steps
variable {s s' : State} {i j : Nat}

@[simp] theorem setAdd_self (s : State) (i : Nat) (add : Add) : (s.setAdd i add).adds i = add := by
  simp [State.setAdd]

theorem setAdd_of_ne (s : State) (add : Add) {i k : Nat} (h : k ≠ i) : (s.setAdd i add).adds k = s.adds k := by
  simp [State.setAdd, h]

/-- What the call that moved does not show now was shown by another one, which still stands where it did. -/
theorem adds_of_setAdd (P : Add → Prop) {add : Add} {k : Nat} (hadd : ¬P add) (hk : P ((s.setAdd i add).adds k)) :
    P (s.adds k) := by
  rcases eq_or_ne k i with rfl | hki
  · rw [setAdd_self] at hk
    exact absurd hk hadd
  · rwa [setAdd_of_ne _ _ hki] at hk

@[simp] theorem setPop_self (s : State) (j : Nat) (pop : Pop) : (s.setPop j pop).pops j = pop := by
  simp [State.setPop]

theorem setPop_of_ne (s : State) (pop : Pop) {j k : Nat} (h : k ≠ j) : (s.setPop j pop).pops k = s.pops k := by
  simp [State.setPop, h]

/-- What the beginning of a `new_timer` can do. -/
theorem newTimerStep_cases {tick duration : Nat} (h : step tick s (.newTimer i duration) = some s') :
    s.adds i = .idle ∧ ((tickOf tick (s.clock + duration) = none ∧ s' = s.setAdd i .panicked) ∨
      ∃ t, tickOf tick (s.clock + duration) = some t ∧ s' = s.setAdd i (.firstLoad t)) := by
  rw [step, Option.ite_none_right_eq_some] at h
  obtain ⟨hidle, h⟩ := h
  refine ⟨hidle, ?_⟩
  cases ht : tickOf tick (s.clock + duration) with
  | none =>
    simp only [ht, Option.some.injEq] at h
    exact .inl ⟨rfl, h.symm⟩
  | some t =>
    simp only [ht, Option.some.injEq] at h
    exact .inr ⟨t, rfl, h.symm⟩

theorem newTimer_pops {tick duration : Nat} (h : step tick s (.newTimer i duration) = some s') : s'.pops = s.pops := by
  obtain ⟨-, ⟨-, rfl⟩ | ⟨-, -, rfl⟩⟩ := newTimerStep_cases h
  all_goals
    rfl

/-- What a step of `new_timer` can do. -/
inductive AddCases (i : Nat) (s : State) : State → Prop
  | checked {t : Nat} : (s.adds i = .firstLoad t ∨ ∃ prev, s.adds i = .firstExchange t prev) →
      AddCases i s (s.setAdd i (firstCheck t s.ticks))
  | accepted {t prev : Nat} : s.adds i = .firstExchange t prev → AddCases i s (s.setAdd i (.push t))
  | pushed {t : Nat} : s.adds i = .push t → AddCases i s ((s.pushTimer t i).setAdd i (.load t))
  | foundPassed {t : Nat} : s.adds i = .load t → t < s.ticks → AddCases i s (s.setAdd i (.remove t))
  | foundAhead {t : Nat} : s.adds i = .load t → s.ticks ≤ t → AddCases i s (s.setAdd i (.secondLoad t))
  | notThere {t : Nat} : s.adds i = .remove t → s.timers t = none → AddCases i s (s.setAdd i (.secondLoad t))
  | removed {t : Nat} : s.adds i = .remove t → s.timers t ≠ none → AddCases i s ((s.removeSlot t).setAdd i (.done none))
  | loaded {t : Nat} : s.adds i = .secondLoad t → AddCases i s (s.setAdd i (.secondApply t s.ticks))
  | notThereAgain {t prev : Nat} : s.adds i = .secondApply t prev → t < prev → s.timers t = none →
      AddCases i s (s.setAdd i (.secondExchange t prev))
  | removedAgain {t prev : Nat} : s.adds i = .secondApply t prev → t < prev → s.timers t ≠ none →
      AddCases i s ((s.removeSlot t).setAdd i (.done none))
  | appliedAhead {t prev : Nat} : s.adds i = .secondApply t prev → prev ≤ t →
      AddCases i s (s.setAdd i (.secondExchange t prev))
  | confirmed {t : Nat} : s.adds i = .secondExchange t s.ticks → AddCases i s (s.setAdd i (.count t))
  | lostExchange {t prev : Nat} : s.adds i = .secondExchange t prev →
      AddCases i s (s.setAdd i (.secondApply t s.ticks))
  | counted {t : Nat} : s.adds i = .count t →
      AddCases i s ({ s with timerCount := (s.timerCount + 1) % 2 ^ 64 }.setAdd i (.done (some t)))

theorem add_cases {spurious : Bool} (h : addStep s i spurious = some s') : AddCases i s s' := by
  cases hc : s.adds i with
  | idle | done _ | panicked =>
    simp only [addStep, hc] at h
    cases h
  | firstLoad t =>
    simp only [addStep, hc] at h
    cases h
    exact .checked (.inl hc)
  | firstExchange t prev =>
    simp only [addStep, hc] at h
    split at h <;> cases h
    · exact .accepted hc
    · exact .checked (.inr ⟨prev, hc⟩)
  | push t =>
    simp only [addStep, hc] at h
    cases h
    exact .pushed hc
  | load t =>
    simp only [addStep, hc] at h
    split at h <;> cases h
    · next hlt => exact .foundPassed hc hlt
    · next hge => exact .foundAhead hc (Nat.not_lt.mp hge)
  | remove t =>
    simp only [addStep, hc] at h
    split at h <;> cases h
    · next hslot => exact .notThere hc hslot
    · next hslot => exact .removed hc (by simp [hslot])
  | secondLoad t =>
    simp only [addStep, hc] at h
    cases h
    exact .loaded hc
  | secondApply t prev =>
    simp only [addStep, hc] at h
    split at h
    · next hlt =>
      split at h <;> cases h
      · next hslot => exact .notThereAgain hc hlt hslot
      · next hslot => exact .removedAgain hc hlt (by simp [hslot])
    · next hge =>
      cases h
      exact .appliedAhead hc (Nat.not_lt.mp hge)
  | secondExchange t prev =>
    simp only [addStep, hc] at h
    split at h <;> cases h
    · next heq => exact .confirmed (heq.1 ▸ hc)
    · exact .lostExchange hc
  | count t =>
    simp only [addStep, hc] at h
    cases h
    exact .counted hc

theorem addStep_pops {spurious : Bool} (h : addStep s i spurious = some s') : s'.pops = s.pops := by
  cases add_cases h with
  | _ => rfl

/-- What a step of `next_tick` can do. -/
theorem popStep_cases {tick : Nat} (h : popStep tick s j = some s') :
    (s.pops j = .load ∧ s' = s.setPop j (.now s.ticks)) ∨
    (∃ current pop, s.pops j = .now current ∧ s' = s.setPop j pop ∧
      ((pop = .panicked ∧ ∀ ticks, tickOf tick s.clock = some ticks → ticks < current) ∨
        (pop = .done none ∧ tickOf tick s.clock = some current) ∨
        ∃ ticks, tickOf tick s.clock = some ticks ∧ current < ticks ∧ pop = .exchange current ticks)) ∨
    (∃ ticks, s.pops j = .exchange s.ticks ticks ∧ s' = { s with ticks }.setPop j (.drain s.ticks ticks [])) ∨
    (∃ current ticks, s.pops j = .exchange current ticks ∧ s.ticks ≠ current ∧ s' = s.setPop j .load) ∨
    (∃ k ticks timers, s.pops j = .drain k ticks timers ∧ k < ticks ∧
      s' = (s.removeSlot k).setPop j (.drain (k + 1) ticks (timers ++ (s.timers k).getD []))) ∨
    ∃ k ticks timers, s.pops j = .drain k ticks timers ∧ ticks ≤ k ∧ s' = s.setPop j (.done (some timers)) := by
  cases hc : s.pops j with
  | idle => simp [popStep, hc] at h
  | done result => simp [popStep, hc] at h
  | panicked => simp [popStep, hc] at h
  | load =>
    simp only [popStep, hc, Option.some.injEq] at h
    exact .inl ⟨rfl, h.symm⟩
  | now current =>
    refine .inr (.inl ?_)
    simp only [popStep, hc] at h
    cases ht : tickOf tick s.clock with
    | none =>
      simp only [ht, Option.some.injEq] at h
      exact ⟨current, _, rfl, h.symm, .inl ⟨rfl, nofun⟩⟩
    | some ticks =>
      simp only [ht] at h
      split at h
      · next hlt =>
        refine ⟨current, _, rfl, (Option.some.inj h).symm, .inl ⟨rfl, fun ticks' heq => ?_⟩⟩
        cases heq
        exact hlt
      · split at h
        · next heq => exact ⟨current, _, rfl, (Option.some.inj h).symm, .inr (.inl ⟨rfl, congrArg some heq.symm⟩)⟩
        · next hge hne =>
          have hlt : current < ticks := Nat.lt_of_le_of_ne (Nat.not_lt.mp hge) hne
          exact ⟨current, _, rfl, (Option.some.inj h).symm, .inr (.inr ⟨ticks, rfl, hlt, rfl⟩)⟩
  | exchange current ticks =>
    simp only [popStep, hc] at h
    split at h
    · next heq =>
      subst heq
      exact .inr (.inr (.inl ⟨ticks, rfl, (Option.some.inj h).symm⟩))
    · next hne => exact .inr (.inr (.inr (.inl ⟨current, ticks, rfl, hne, (Option.some.inj h).symm⟩)))
  | drain k ticks timers =>
    simp only [popStep, hc] at h
    split at h
    · next hlt => exact .inr (.inr (.inr (.inr (.inl ⟨k, ticks, timers, rfl, hlt, (Option.some.inj h).symm⟩))))
    · next hge =>
      exact .inr (.inr (.inr (.inr (.inr ⟨k, ticks, timers, rfl, Nat.not_lt.mp hge, (Option.some.inj h).symm⟩))))

/-- A step of a `new_timer` leaves the other ones alone. -/
theorem addStep_adds {spurious : Bool} (h : addStep s i spurious = some s') :
    (∀ k, k ≠ i → s'.adds k = s.adds k) ∧ s'.adds i ≠ .idle := by
  have hset : ∀ (u : State) (add : Add), u.adds = s.adds → add ≠ .idle →
      (∀ k, k ≠ i → (u.setAdd i add).adds k = s.adds k) ∧ (u.setAdd i add).adds i ≠ .idle := by
    intro u add hu hadd
    refine ⟨fun k hk => ?_, ?_⟩
    · rw [setAdd_of_ne u add hk, hu]
    · rwa [setAdd_self]
  cases add_cases h with
  | @checked t =>
    refine hset _ _ rfl ?_
    unfold firstCheck
    split
    all_goals
      simp
  | _ => exact hset _ _ rfl (by simp)

theorem newTimer_adds {tick duration : Nat} (h : step tick s (.newTimer i duration) = some s') :
    s.adds i = .idle ∧ (∀ k, k ≠ i → s'.adds k = s.adds k) ∧ s'.adds i ≠ .idle := by
  obtain ⟨hidle, ⟨-, rfl⟩ | ⟨-, -, rfl⟩⟩ := newTimerStep_cases h
  all_goals
    refine ⟨hidle, fun k hk => setAdd_of_ne _ _ hk, ?_⟩
    rw [setAdd_self]
    simp

theorem popStep_clock {tick : Nat} (h : popStep tick s j = some s') : s'.clock = s.clock := by
  obtain ⟨-, rfl⟩ | ⟨-, -, -, rfl, -⟩ | ⟨-, -, rfl⟩ | ⟨-, -, -, -, rfl⟩ | ⟨-, -, -, -, -, rfl⟩ | ⟨-, -, -, -, -, rfl⟩ :=
    popStep_cases h
  all_goals
    rfl

theorem popStep_adds {tick : Nat} (h : popStep tick s j = some s') : s'.adds = s.adds := by
  obtain ⟨-, rfl⟩ | ⟨-, -, -, rfl, -⟩ | ⟨-, -, rfl⟩ | ⟨-, -, -, -, rfl⟩ | ⟨-, -, -, -, -, rfl⟩ | ⟨-, -, -, -, -, rfl⟩ :=
    popStep_cases h
  all_goals
    rfl

/-- A step of a `next_tick` leaves the other ones alone. -/
theorem popStep_pops {tick : Nat} (h : popStep tick s j = some s') :
    (∀ k, k ≠ j → s'.pops k = s.pops k) ∧ s'.pops j ≠ .idle := by
  have hset : ∀ (u : State) (pop : Pop), u.pops = s.pops → pop ≠ .idle →
      (∀ k, k ≠ j → (u.setPop j pop).pops k = s.pops k) ∧ (u.setPop j pop).pops j ≠ .idle := by
    intro u pop hu hpop
    refine ⟨fun k hk => ?_, ?_⟩
    · rw [setPop_of_ne u pop hk, hu]
    · rwa [setPop_self]
  obtain ⟨-, rfl⟩ | ⟨current, pop, -, rfl, hpop⟩ | ⟨-, -, rfl⟩ | ⟨-, -, -, -, rfl⟩ | ⟨-, -, -, -, -, rfl⟩ | ⟨-, -, -, -, -, rfl⟩ :=
    popStep_cases h
  · exact hset _ _ rfl (by simp)
  · refine hset _ _ rfl ?_
    rcases hpop with ⟨rfl, -⟩ | ⟨rfl, -⟩ | ⟨ticks, -, -, rfl⟩
    all_goals
      simp
  all_goals
    exact hset _ _ rfl (by simp)

/-- A step of `new_timer` that leaves the slots and where its timer belongs. -/
theorem Inv.setAdd (hi : Inv s) {add : Add} (hhome : add.home = (s.adds i).home)
    (hlate : ∀ t prev, add = .secondExchange t prev → t < prev → Taken s i)
    (hahead : ∀ t, add.confirmed = some t → (s.adds i).confirmed = some t ∨ Taken s i ∨ s.ticks ≤ t) :
    Inv (s.setAdd i add) := by
  have hhomes : ∀ k, ((s.setAdd i add).adds k).home = (s.adds k).home := by
    intro k
    rcases eq_or_ne k i with rfl | hk
    · rw [setAdd_self, hhome]
    · rw [setAdd_of_ne _ _ hk]
  refine ⟨hi.slot_ne_nil, ?_, ?_, hi.stored_not_taken, hi.taken_unique, ?_, ?_, ?_⟩
  · intro t k hk
    rw [hhomes]
    exact hi.stored_home t k hk
  · intro j k hk
    rw [hhomes]
    exact hi.taken_home j k hk
  · intro k t hk
    rw [hhomes] at hk
    exact hi.present k t hk
  · intro k t prev hk hlt
    rcases eq_or_ne k i with rfl | hki
    · rw [setAdd_self] at hk
      exact hlate t prev hk hlt
    · rw [setAdd_of_ne _ _ hki] at hk
      exact hi.late k t prev hk hlt
  · intro k t hk
    rcases eq_or_ne k i with rfl | hki
    · rw [setAdd_self] at hk
      rcases hahead t hk with h | h | h
      · exact hi.ahead k t h
      · exact Or.inl h
      · exact Or.inr (Or.inl h)
    · rw [setAdd_of_ne _ _ hki] at hk
      exact hi.ahead k t hk

/-- A step of `next_tick` that takes no timer and leaves the ticks. -/
theorem Inv.setPop (hi : Inv s) {pop : Pop} (htaken : pop.taken = (s.pops j).taken)
    (hclaims : ∀ t, (s.pops j).claims t → pop.claims t) : Inv (s.setPop j pop) := by
  have htakens : ∀ k, ((s.setPop j pop).pops k).taken = (s.pops k).taken := by
    intro k
    rcases eq_or_ne k j with rfl | hk
    · rw [setPop_self, htaken]
    · rw [setPop_of_ne _ _ hk]
  have htaken' : ∀ k, Taken s k → Taken (s.setPop j pop) k := by
    rintro k ⟨l, hl⟩
    exact ⟨l, by rw [htakens]; exact hl⟩
  refine ⟨hi.slot_ne_nil, hi.stored_home, ?_, ?_, ?_, ?_, ?_, ?_⟩
  · intro l k hk
    rw [htakens] at hk
    exact hi.taken_home l k hk
  · intro t k l hk
    rw [htakens]
    exact hi.stored_not_taken t k l hk
  · intro k l m hl hm
    rw [htakens] at hl hm
    exact hi.taken_unique k l m hl hm
  · intro k t hk
    exact (hi.present k t hk).imp_right (htaken' k)
  · intro k t prev hk hlt
    exact htaken' k (hi.late k t prev hk hlt)
  · intro k t hk
    rcases hi.ahead k t hk with h | h | ⟨l, hl⟩
    · exact Or.inl (htaken' k h)
    · exact Or.inr (Or.inl h)
    · refine Or.inr (Or.inr ⟨l, ?_⟩)
      rcases eq_or_ne l j with rfl | hlj
      · rw [setPop_self]
        exact hclaims t hl
      · rw [setPop_of_ne _ _ hlj]
        exact hl

theorem stored_pushTimer {t u : Nat} {k : Timer} :
    Stored (s.pushTimer t i) u k ↔ Stored s u k ∨ u = t ∧ k = i := by
  unfold Stored State.pushTimer
  rcases eq_or_ne u t with rfl | hu
  · cases s.timers u <;> simp
  · simp [hu]

theorem stored_removeSlot {t u : Nat} {k : Timer} : Stored (s.removeSlot t) u k ↔ Stored s u k ∧ u ≠ t := by
  unfold Stored State.removeSlot
  rcases eq_or_ne u t with rfl | hu
  · simp
  · simp [hu]

/-- A new timer is put in its slot; nobody had it before. -/
theorem Inv.push (hi : Inv s) {t : Nat} (hc : s.adds i = .push t) : Inv ((s.pushTimer t i).setAdd i (.load t)) := by
  have hnone : (s.adds i).home = none := by rw [hc]; rfl
  have hnot : ∀ j, i ∉ (s.pops j).taken := fun j h => hi.taken_home j i h hnone
  refine ⟨?_, ?_, ?_, ?_, hi.taken_unique, ?_, ?_, ?_⟩
  · intro u h
    rcases eq_or_ne u t with rfl | hu
    · simp [State.setAdd, State.pushTimer] at h
    · exact hi.slot_ne_nil u (by simpa [State.setAdd, State.pushTimer, hu] using h)
  · intro u k hk
    rcases stored_pushTimer.mp hk with hold | ⟨rfl, rfl⟩
    · have hki : k ≠ i := by
        rintro rfl
        rw [hi.stored_home u k hold] at hnone
        cases hnone
      rw [setAdd_of_ne _ _ hki]
      exact hi.stored_home u k hold
    · rw [setAdd_self]
      rfl
  · intro j k hk
    rcases eq_or_ne k i with rfl | hki
    · exact absurd hk (hnot j)
    · rw [setAdd_of_ne _ _ hki]
      exact hi.taken_home j k hk
  · intro u k j hk
    rcases stored_pushTimer.mp hk with hk | ⟨rfl, rfl⟩
    · exact hi.stored_not_taken u k j hk
    · exact hnot j
  · intro k u hk
    rcases eq_or_ne k i with rfl | hki
    · rw [setAdd_self] at hk
      cases hk
      exact Or.inl (stored_pushTimer.mpr (Or.inr ⟨rfl, rfl⟩))
    · rw [setAdd_of_ne _ _ hki] at hk
      exact (hi.present k u hk).imp_left fun h => stored_pushTimer.mpr (Or.inl h)
  · intro k u prev hk hlt
    exact hi.late k u prev (adds_of_setAdd (· = .secondExchange u prev) (by simp) hk) hlt
  · intro k u hk
    exact hi.ahead k u (adds_of_setAdd (·.confirmed = some u) (by simp [Add.confirmed]) hk)

/-- `new_timer` takes its slot back, and there was nothing but its own timer in it. -/
theorem Inv.takeBack (hi : Inv s) {t : Nat} (hhome : (s.adds i).home = some t) (hslot : s.timers t ≠ none)
    (hown : ∀ k, Stored s t k → k = i) : Inv ((s.removeSlot t).setAdd i (.done none)) := by
  -- The slot is there and not empty, so its timer is the own one, and no `next_tick` has it.
  have hstored : Stored s t i := by
    obtain ⟨timers, htimers⟩ := Option.ne_none_iff_exists'.mp hslot
    obtain ⟨k, rest, rfl⟩ := List.exists_cons_of_ne_nil fun h => hi.slot_ne_nil t (h ▸ htimers)
    have hk : Stored s t k := ⟨_, htimers, List.mem_cons_self⟩
    exact hown k hk ▸ hk
  have hnot : ∀ j, i ∉ (s.pops j).taken := fun j => hi.stored_not_taken t i j hstored
  have hgone : ∀ u k, Stored (s.removeSlot t) u k → k ≠ i := by
    rintro u k hk rfl
    obtain ⟨hk, hu⟩ := stored_removeSlot.mp hk
    have := hi.stored_home u k hk
    rw [hhome] at this
    exact hu (Option.some.inj this).symm
  refine ⟨?_, ?_, ?_, ?_, hi.taken_unique, ?_, ?_, ?_⟩
  · intro u h
    rcases eq_or_ne u t with rfl | hu
    · simp [State.setAdd, State.removeSlot] at h
    · exact hi.slot_ne_nil u (by simpa [State.setAdd, State.removeSlot, hu] using h)
  · intro u k hk
    rw [setAdd_of_ne _ _ (hgone u k hk)]
    exact hi.stored_home u k (stored_removeSlot.mp hk).1
  · intro j k hk
    rcases eq_or_ne k i with rfl | hki
    · exact absurd hk (hnot j)
    · rw [setAdd_of_ne _ _ hki]
      exact hi.taken_home j k hk
  · intro u k j hk
    exact hi.stored_not_taken u k j (stored_removeSlot.mp hk).1
  · intro k u hk
    rcases eq_or_ne k i with rfl | hki
    · rw [setAdd_self] at hk
      cases hk
    · rw [setAdd_of_ne _ _ hki] at hk
      refine (hi.present k u hk).imp_left fun h => stored_removeSlot.mpr ⟨h, ?_⟩
      rintro rfl
      exact hki (hown k h)
  · intro k u prev hk hlt
    exact hi.late k u prev (adds_of_setAdd (· = .secondExchange u prev) (by simp) hk) hlt
  · intro k u hk
    exact hi.ahead k u (adds_of_setAdd (·.confirmed = some u) (by simp [Add.confirmed]) hk)

/-- A `next_tick` moves the ticks on and claims the slots it passed. -/
theorem Inv.exchange (hi : Inv s) {ticks : Nat} (hc : s.pops j = .exchange s.ticks ticks) :
    Inv ({ s with ticks }.setPop j (.drain s.ticks ticks [])) := by
  have hi' : Inv (s.setPop j (.drain s.ticks ticks [])) := hi.setPop (by rw [hc]; rfl) (by simp [hc, Pop.claims])
  refine ⟨hi'.slot_ne_nil, hi'.stored_home, hi'.taken_home, hi'.stored_not_taken, hi'.taken_unique, hi'.present, hi'.late, ?_⟩
  intro k t hk
  rcases hi'.ahead k t hk with h | h | h
  · exact Or.inl h
  · rcases Nat.lt_or_ge t ticks with hlt | hge
    · exact Or.inr (Or.inr ⟨j, by rw [setPop_self]; exact ⟨h, hlt⟩⟩)
    · exact Or.inr (Or.inl hge)
  · exact Or.inr (Or.inr h)

/-- What draining slot `t` does: its timers go to call `j`, which has passed it. -/
structure Drained (s s' : State) (j t : Nat) : Prop where
  adds : s'.adds = s.adds
  ticks : s'.ticks = s.ticks
  ne_nil : ∀ u, s'.timers u = some [] → s.timers u = some []
  stored : ∀ u k, Stored s' u k ↔ Stored s u k ∧ u ≠ t
  taken : ∀ l k, k ∈ (s'.pops l).taken ↔ k ∈ (s.pops l).taken ∨ l = j ∧ Stored s t k
  claims : ∀ l u, (s.pops l).claims u → (s'.pops l).claims u ∨ l = j ∧ u = t

theorem mem_slot {t : Nat} {k : Timer} : k ∈ (s.timers t).getD [] ↔ Stored s t k := by
  unfold Stored
  cases s.timers t <;> simp

theorem drained {t ticks : Nat} {timers : List Timer} (hc : s.pops j = .drain t ticks timers) :
    Drained s ((s.removeSlot t).setPop j (.drain (t + 1) ticks (timers ++ (s.timers t).getD []))) j t := by
  refine ⟨rfl, rfl, fun u h => ?_, fun u k => stored_removeSlot, fun l k => ?_, fun l u h => ?_⟩
  · rcases eq_or_ne u t with rfl | hu
    · simp [State.setPop, State.removeSlot] at h
    · simpa [State.setPop, State.removeSlot, hu] using h
  · rcases eq_or_ne l j with rfl | hl
    · rw [setPop_self, hc, ← mem_slot]
      simp [Pop.taken]
    · rw [setPop_of_ne _ _ hl]
      simp [hl, State.removeSlot]
  · rcases eq_or_ne l j with rfl | hl
    · rw [hc] at h
      rw [setPop_self]
      rcases eq_or_ne u t with rfl | hu
      · exact Or.inr ⟨rfl, rfl⟩
      · exact Or.inl ⟨Nat.lt_of_le_of_ne h.1 (Ne.symm hu), h.2⟩
    · rw [setPop_of_ne _ _ hl]
      exact Or.inl h

/-- Draining a slot puts its timers in the hands of the call. -/
theorem Inv.drained (hi : Inv s) {t : Nat} (hd : Drained s s' j t) : Inv s' := by
  have htaken : ∀ k, Taken s k ∨ Stored s t k → Taken s' k := by
    rintro k (⟨l, hl⟩ | hk)
    · exact ⟨l, (hd.taken l k).mpr (Or.inl hl)⟩
    · exact ⟨j, (hd.taken j k).mpr (Or.inr ⟨rfl, hk⟩)⟩
  refine ⟨fun u h => hi.slot_ne_nil u (hd.ne_nil u h), ?_, ?_, ?_, ?_, ?_, ?_, ?_⟩
  · intro u k hk
    rw [hd.adds]
    exact hi.stored_home u k ((hd.stored u k).mp hk).1
  · intro l k hk
    rw [hd.adds]
    rcases (hd.taken l k).mp hk with h | ⟨-, h⟩
    · exact hi.taken_home l k h
    · rw [hi.stored_home t k h]
      exact Option.some_ne_none t
  · intro u k l hk hl
    obtain ⟨hk, hu⟩ := (hd.stored u k).mp hk
    rcases (hd.taken l k).mp hl with h | ⟨-, h⟩
    · exact hi.stored_not_taken u k l hk h
    · have := (hi.stored_home u k hk).symm.trans (hi.stored_home t k h)
      exact hu (Option.some.inj this)
  · intro k l m hl hm
    rcases (hd.taken l k).mp hl with hl | ⟨rfl, hl⟩ <;> rcases (hd.taken m k).mp hm with hm | ⟨rfl, hm⟩
    · exact hi.taken_unique k l m hl hm
    · exact absurd hl (hi.stored_not_taken t k l hm)
    · exact absurd hm (hi.stored_not_taken t k m hl)
    · rfl
  · intro k u hk
    rw [hd.adds] at hk
    rcases hi.present k u hk with h | h
    · rcases eq_or_ne u t with rfl | hu
      · exact Or.inr (htaken k (Or.inr h))
      · exact Or.inl ((hd.stored u k).mpr ⟨h, hu⟩)
    · exact Or.inr (htaken k (Or.inl h))
  · intro k u prev hk hlt
    rw [hd.adds] at hk
    exact htaken k (Or.inl (hi.late k u prev hk hlt))
  · intro k u hk
    rw [hd.adds] at hk
    rw [hd.ticks]
    rcases hi.ahead k u hk with h | h | ⟨l, hl⟩
    · exact Or.inl (htaken k (Or.inl h))
    · exact Or.inr (Or.inl h)
    · rcases hd.claims l u hl with h | ⟨-, rfl⟩
      · exact Or.inr (Or.inr ⟨l, h⟩)
      · -- The drained slot is settled: the timer was there, or someone has it.
        rcases hi.present k u (home_of_confirmed hk) with h | h
        · exact Or.inl (htaken k (Or.inr h))
        · exact Or.inl (htaken k (Or.inl h))

theorem firstCheck_home (t prev : Nat) : (firstCheck t prev).home = none ∧ (firstCheck t prev).confirmed = none := by
  unfold firstCheck
  split <;> exact ⟨rfl, rfl⟩

theorem firstCheck_ne (t prev t' prev' : Nat) : firstCheck t prev ≠ .secondExchange t' prev' := by
  unfold firstCheck
  split <;> nofun

/-- A step before the insertion. -/
theorem Inv.beforePush (hi : Inv s) {add : Add} (hold : (s.adds i).home = none) (hhome : add.home = none)
    (hne : ∀ t prev, add ≠ .secondExchange t prev) : Inv (s.setAdd i add) := by
  refine hi.setAdd (hhome.trans hold.symm) (fun t prev h => absurd h (hne t prev)) fun t h => ?_
  rw [home_of_confirmed h] at hhome
  cases hhome

/-- A step behind the insertion that does not confirm the timer. -/
theorem Inv.afterPush (hi : Inv s) {add : Add} (hhome : add.home = (s.adds i).home)
    (hlate : ∀ t prev, add = .secondExchange t prev → t < prev → Taken s i) (hconf : add.confirmed = none) :
    Inv (s.setAdd i add) :=
  hi.setAdd hhome hlate fun t h => by
    rw [hconf] at h
    cases h

theorem own_of_all {t : Nat} (h : ((s.timers t).getD []).all (· == i) = true) : ∀ k, Stored s t k → k = i := by
  rintro k ⟨timers, htimers, hk⟩
  rw [htimers] at h
  exact beq_iff_eq.mp (List.all_eq_true.mp h k hk)

theorem Inv.addStep (hi : Inv s) {spurious : Bool} (hok : ownSlot s (.add i spurious) = true) (h : addStep s i spurious = some s') :
    Inv s' := by
  simp only [ownSlot] at hok
  cases add_cases h with
  | @checked t hc =>
    refine hi.beforePush ?_ (firstCheck_home t _).1 (firstCheck_ne t _)
    rcases hc with hc | ⟨prev, hc⟩
    all_goals
      rw [hc]
      rfl
  | accepted hc => exact hi.beforePush (by rw [hc]; rfl) rfl (by simp)
  | pushed hc => exact hi.push hc
  | foundPassed hc | foundAhead hc | notThere hc | loaded hc | lostExchange hc =>
    exact hi.afterPush (by rw [hc]; rfl) (by simp) rfl
  | removed hc hslot =>
    rw [hc] at hok
    exact hi.takeBack (by rw [hc]; rfl) hslot (own_of_all hok)
  | @notThereAgain t prev hc hlt hslot =>
    have hhome : (s.adds i).home = some t := by rw [hc]; rfl
    -- The slot has been drained, and with it this timer.
    refine hi.afterPush hhome.symm (fun t' prev' _ _ => ?_) rfl
    rcases hi.present i t hhome with ⟨timers, htimers, -⟩ | htaken
    · rw [hslot] at htimers
      cases htimers
    · exact htaken
  | @removedAgain t prev hc hlt hslot =>
    rw [hc] at hok
    have hown : ((s.timers t).getD []).all (· == i) = true := by
      simpa [Nat.not_le.mpr hlt] using hok
    exact hi.takeBack (by rw [hc]; rfl) hslot (own_of_all hown)
  | appliedAhead hc hge =>
    refine hi.afterPush (by rw [hc]; rfl) (fun t' prev' he hlt => ?_) rfl
    cases he
    exact absurd hlt (Nat.not_lt.mpr hge)
  | @confirmed t hc =>
    -- The ticks are still what the closure saw: not past `t`, or the timer has been taken.
    refine hi.setAdd (by rw [hc]; rfl) (by simp) fun t' ht' => ?_
    cases ht'
    rcases Nat.lt_or_ge t s.ticks with hlt | hge
    · exact Or.inr (Or.inl (hi.late i t s.ticks hc hlt))
    · exact Or.inr (Or.inr hge)
  | @counted t hc =>
    have hi' : Inv (s.setAdd i (.done (some t))) :=
      hi.setAdd (by rw [hc]; rfl) (by simp) fun t' ht' => Or.inl (by rw [hc]; exact ht')
    exact ⟨hi'.slot_ne_nil, hi'.stored_home, hi'.taken_home, hi'.stored_not_taken, hi'.taken_unique, hi'.present, hi'.late,
      hi'.ahead⟩

theorem Inv.popStep (hi : Inv s) {tick : Nat} (h : popStep tick s j = some s') : Inv s' := by
  obtain ⟨hc, rfl⟩ | ⟨current, pop, hc, rfl, hpop⟩ | ⟨ticks, hc, rfl⟩ | ⟨current, ticks, hc, -, rfl⟩ |
    ⟨t, ticks, timers, hc, -, rfl⟩ | ⟨t, ticks, timers, hc, hle, rfl⟩ := popStep_cases h
  · exact hi.setPop (by rw [hc]; rfl) (by simp [hc, Pop.claims])
  · refine hi.setPop ?_ (by simp [hc, Pop.claims])
    rw [hc]
    rcases hpop with ⟨rfl, -⟩ | ⟨rfl, -⟩ | ⟨ticks, -, -, rfl⟩
    all_goals
      rfl
  · exact hi.exchange hc
  · exact hi.setPop (by rw [hc]; rfl) (by simp [hc, Pop.claims])
  · exact hi.drained (TimeWheel.drained hc)
  · refine hi.setPop (by rw [hc]; rfl) fun u hu => ?_
    rw [hc] at hu
    exact absurd (Nat.lt_of_le_of_lt hu.1 hu.2) (Nat.not_lt.mpr hle)

theorem Inv.step (hi : Inv s) {tick : Nat} {a : Action} (hok : ownSlot s a = true) (h : step tick s a = some s') : Inv s' := by
  cases a with
  | wait nanos =>
    cases h
    exact ⟨hi.slot_ne_nil, hi.stored_home, hi.taken_home, hi.stored_not_taken, hi.taken_unique, hi.present, hi.late, hi.ahead⟩
  | newTimer i duration =>
    obtain ⟨hc, ⟨-, rfl⟩ | ⟨t, -, rfl⟩⟩ := newTimerStep_cases h
    · exact hi.beforePush (by rw [hc]; rfl) rfl (by simp)
    · exact hi.beforePush (by rw [hc]; rfl) rfl (by simp)
  | add i spurious => exact hi.addStep hok h
  | nextTick j =>
    simp only [TimeWheel.step, Option.ite_none_right_eq_some, Option.some.injEq] at h
    obtain ⟨hc, rfl⟩ := h
    exact hi.setPop (by rw [hc]; rfl) (by simp [hc, Pop.claims])
  | pop j => exact hi.popStep h

end Steps

section Quiet
variable {s : State} {i j t : Nat}

theorem Quiet.returnedBy_iff (hq : Quiet s) : ReturnedBy s j i ↔ i ∈ (s.pops j).taken := by
  unfold ReturnedBy
  rcases hq.2 j with h | ⟨r, h⟩ | h
  · simp [h, Pop.taken]
  · cases r <;> simp [h, Pop.taken]
  · simp [h, Pop.taken]

theorem Quiet.not_claims (hq : Quiet s) : ¬(s.pops j).claims t := by
  rcases hq.2 j with h | ⟨r, h⟩ | h <;> simp [h, Pop.claims]

end Quiet

/-- In every run in which `new_timer` never takes back a slot that holds the timer of another call, whenever no
    call is in progress: a timer that was confirmed under tick `t` is in slot `t`, which is not behind `ticks`, or
    exactly one `next_tick` has returned it; and a timer that was refused has been returned by none. -/
theorem no_lost_timer (tick : Nat) (s : State) (h : Reaches (step tick) (fun s a => ownSlot s a = true) {} s)
    (hq : Quiet s) :
    (∀ i t, s.adds i = .done (some t) →
      (Stored s t i ∧ s.ticks ≤ t) ∨ ∃ j, ReturnedBy s j i ∧ ∀ k, ReturnedBy s k i → k = j) ∧
    ∀ i, s.adds i = .done none → ∀ j, ¬ReturnedBy s j i := by
  have hi : Inv s := h.invariant inv_init fun hi hok hs => hi.step hok hs
  refine ⟨?_, ?_⟩
  · intro i t hadd
    have hhome : (s.adds i).home = some t := by rw [hadd]; rfl
    rcases hi.present i t hhome with hstored | ⟨j, hj⟩
    · refine Or.inl ⟨hstored, ?_⟩
      rcases hi.ahead i t (by rw [hadd]; rfl) with ⟨j, hj⟩ | hle | ⟨j, hj⟩
      · exact absurd hj (hi.stored_not_taken t i j hstored)
      · exact hle
      · exact absurd hj hq.not_claims
    · exact Or.inr ⟨j, hq.returnedBy_iff.mpr hj, fun k hk => hi.taken_unique i k j (hq.returnedBy_iff.mp hk) hj⟩
  · intro i hadd j hret
    refine hi.taken_home j i (hq.returnedBy_iff.mp hret) ?_
    rw [hadd]
    rfl

/-- Timer 0 is confirmed under tick 0; timer 1 is put in the same slot; a `next_tick` moves the ticks on; timer 1
    sees this and takes the slot back before it is drained. -/
def lostRun : List Action :=
  [.newTimer 0 0] ++ List.replicate 8 (.add 0 false) ++ [.newTimer 1 0] ++ List.replicate 3 (.add 1 false) ++
    [.wait 1000, .nextTick 0, .pop 0, .pop 0, .pop 0, .add 1 false, .add 1 false, .pop 0, .pop 0]

/-- What the calls and slot 0 are at the end of the run. -/
theorem lostRun_ends :
    ∃ s, run (step 1) {} lostRun = some s ∧ s.adds 0 = .done (some 0) ∧ s.adds 1 = .done none ∧
      (∀ n, s.adds (n + 2) = .idle) ∧ s.pops 0 = .done (some []) ∧ (∀ n, s.pops (n + 1) = .idle) ∧ s.timers 0 = none :=
  ⟨_, rfl, rfl, rfl, fun _ => rfl, rfl, fun _ => rfl, rfl⟩

/-- Nobody has timer 0 at the end of this run. -/
theorem lost_timer :
    ∃ s, Reachable (step 1) {} s ∧ Quiet s ∧ s.adds 0 = .done (some 0) ∧ ¬Stored s 0 0 ∧ ∀ j, ¬ReturnedBy s j 0 := by
  obtain ⟨s, hrun, hadd0, hadd1, hadds, hpop0, hpops, hslot⟩ := lostRun_ends
  refine ⟨s, Reachable.of_run lostRun hrun, ⟨fun i => ?_, fun j => ?_⟩, hadd0, ?_, fun j => ?_⟩
  · match i with
    | 0 => exact Or.inr (Or.inl ⟨some 0, hadd0⟩)
    | 1 => exact Or.inr (Or.inl ⟨none, hadd1⟩)
    | n + 2 => exact Or.inl (hadds n)
  · match j with
    | 0 => exact Or.inr (Or.inl ⟨some [], hpop0⟩)
    | n + 1 => exact Or.inl (hpops n)
  · rintro ⟨timers, htimers, -⟩
    rw [hslot] at htimers
    cases htimers
  · rintro ⟨timers, hpop, hmem⟩
    match j with
    | 0 =>
      rw [hpop0] at hpop
      cases hpop
      cases hmem
    | n + 1 =>
      rw [hpops n] at hpop
      cases hpop

/-- Timer 0 is confirmed, and a later `next_tick` returns it. -/
def tickedRun : List Action :=
  [.newTimer 0 0] ++ List.replicate 8 (.add 0 false) ++ [.wait 1000, .nextTick 0] ++ List.replicate 5 (.pop 0)

theorem tickedRun_ends :
    ∃ s, runIf (step 1) ownSlot {} tickedRun = some s ∧ s.adds 0 = .done (some 0) ∧
      (∀ n, s.adds (n + 1) = .idle) ∧ s.pops 0 = .done (some [0]) ∧ ∀ n, s.pops (n + 1) = .idle :=
  ⟨_, rfl, rfl, fun _ => rfl, rfl, fun _ => rfl⟩

theorem no_lost_timer_ticked :
    ∃ s, runIf (step 1) ownSlot {} tickedRun = some s ∧ s.adds 0 = .done (some 0) ∧
      ((Stored s 0 0 ∧ s.ticks ≤ 0) ∨ ∃ j, ReturnedBy s j 0 ∧ ∀ k, ReturnedBy s k 0 → k = j) := by
  obtain ⟨s, hrun, hadd0, hadds, hpop0, hpops⟩ := tickedRun_ends
  refine ⟨s, hrun, hadd0, (no_lost_timer 1 s (.of_runIf tickedRun (fun _ _ h => h) hrun) ⟨fun i => ?_, fun j => ?_⟩).1 0 0 hadd0⟩
  · match i with
    | 0 => exact Or.inr (Or.inl ⟨some 0, hadd0⟩)
    | n + 1 => exact Or.inl (hadds n)
  · match j with
    | 0 => exact Or.inr (Or.inl ⟨some [0], hpop0⟩)
    | n + 1 => exact Or.inl (hpops n)

end Hala.TimeWheel
