import Hala.Theorems.Lockfree.WheelCalls

/-! Calls of `next_tick` beside each other drain every slot once.

A successful exchange moves `ticks` from the `current` that was loaded to the tick of a clock that was read later, so the
claimed ranges follow one another. A call that has claimed a range removes its slots one by one. -/

namespace Hala.TimeWheel
open Machine
variable {tick : Nat} {s s' : State} {i j : Nat}

/-! ### The claimed ranges -/

/-- The claims of the history, the latest first, go from tick 0 to tick `n` without a gap. -/
def Chain : (n : Nat) → List TickEvent → Prop
  | n, [] => n = 0
  | n, .claimed _ current ticks :: past => n = ticks ∧ current < ticks ∧ Chain current past
  | n, .drained .. :: past => Chain n past

section Chains
variable {n k : Nat} {past : List TickEvent}

theorem Chain.covers (h : Chain n past) : k < n ↔ ∃ j current ticks, .claimed j current ticks ∈ past ∧ current ≤ k ∧ k < ticks := by
  induction past generalizing n with
  | nil =>
    cases h
    simp
  | cons e past ih =>
    cases e with
    | drained j i =>
      rw [ih h]
      simp
    | claimed j current ticks =>
      obtain ⟨rfl, hlt, hrest⟩ := h
      constructor
      · intro hk
        rcases Nat.lt_or_ge k current with hbefore | hin
        · obtain ⟨j', current', ticks', hmem, hrange⟩ := (ih hrest).mp hbefore
          exact ⟨j', current', ticks', List.mem_cons_of_mem _ hmem, hrange⟩
        · exact ⟨j, current, n, List.mem_cons_self, hin, hk⟩
      · rintro ⟨j', current', ticks', hmem, hle, hk⟩
        rcases List.mem_cons.mp hmem with heq | hmem
        · cases heq
          exact hk
        · exact Nat.lt_trans ((ih hrest).mpr ⟨j', current', ticks', hmem, hle, hk⟩) hlt

/-- Two claims that have a slot in common are the same. -/
theorem Chain.unique (h : Chain n past) {j j' current current' ticks ticks' : Nat} (hmem : .claimed j current ticks ∈ past)
    (hmem' : .claimed j' current' ticks' ∈ past) (hk : current ≤ k ∧ k < ticks) (hk' : current' ≤ k ∧ k < ticks') :
    TickEvent.claimed j current ticks = .claimed j' current' ticks' := by
  induction past generalizing n with
  | nil => cases hmem
  | cons e past ih =>
    cases e with
    | drained i l =>
      have hne : ∀ j c t, TickEvent.claimed j c t ∈ TickEvent.drained i l :: past → .claimed j c t ∈ past := by
        intro j c t hmem
        simpa using hmem
      exact ih h (hne _ _ _ hmem) (hne _ _ _ hmem')
    | claimed i c t =>
      obtain ⟨rfl, -, hrest⟩ := h
      -- An earlier claim ends where the latest begins.
      have hearlier : ∀ {j current ticks}, TickEvent.claimed j current ticks ∈ past → current ≤ k ∧ k < ticks → k < c :=
        fun hmem hk => hrest.covers.mpr ⟨_, _, _, hmem, hk⟩
      rcases List.mem_cons.mp hmem with heq | hpast
      · rcases List.mem_cons.mp hmem' with heq' | hpast'
        · rw [heq, heq']
        · cases heq
          exact absurd (hearlier hpast' hk') (Nat.not_lt.mpr hk.1)
      · rcases List.mem_cons.mp hmem' with heq' | hpast'
        · cases heq'
          exact absurd (hearlier hpast hk) (Nat.not_lt.mpr hk'.1)
        · exact ih hrest hpast hpast'

theorem mem_ranges {r : Nat × Nat} : r ∈ past.filterMap TickEvent.range ↔ ∃ j, .claimed j r.1 r.2 ∈ past := by
  rw [List.mem_filterMap]
  constructor
  · rintro ⟨e, hmem, he⟩
    cases e with
    | drained => cases he
    | claimed j current ticks =>
      cases he
      exact ⟨j, hmem⟩
  · rintro ⟨j, hmem⟩
    exact ⟨_, hmem, rfl⟩

theorem Chain.disjoint (h : Chain n past) :
    (past.filterMap TickEvent.range).Pairwise fun r r' => ∀ k, ¬((r.1 ≤ k ∧ k < r.2) ∧ r'.1 ≤ k ∧ k < r'.2) := by
  induction past generalizing n with
  | nil => exact .nil
  | cons e past ih =>
    cases e with
    | drained j i => exact ih h
    | claimed j current ticks =>
      obtain ⟨rfl, -, hrest⟩ := h
      refine .cons (fun r hr k hk => ?_) (ih hrest)
      obtain ⟨j', hmem⟩ := mem_ranges.mp hr
      exact absurd (hrest.covers.mpr ⟨j', r.1, r.2, hmem, hk.2⟩) (Nat.not_lt.mpr hk.1.1)

end Chains

/-! ### Runs -/

/-- How far the call has drained the range that it claimed up to `ticks`. -/
def Pop.progress (ticks : Nat) : Pop → Nat
  | .drain k _ _ => k
  | _ => ticks

/-- The call has claimed a range that ends at `ticks`. -/
def Pop.hasClaimed (ticks : Nat) : Pop → Prop
  | .drain k ticks' _ => ticks' = ticks ∧ k ≤ ticks
  | .done (some _) => True
  | _ => False

/-- What the call has read was not ahead of tick `n`, and it wants to move the ticks forward. -/
def Pop.forward (n : Nat) : Pop → Prop
  | .now current => current ≤ n
  | .exchange current ticks => current < ticks ∧ ticks ≤ n
  | _ => True

theorem Pop.forward.mono {pop : Pop} {n n' : Nat} (h : pop.forward n) (hle : n ≤ n') : pop.forward n' := by
  cases pop with
  | now current => exact Nat.le_trans h hle
  | exchange current ticks => exact ⟨h.1, Nat.le_trans h.2 hle⟩
  | _ => trivial

structure TickingInv (tick : Nat) (s : State) (past : List TickEvent) : Prop where
  ticks : s.ticks ≤ s.clock / 1000 / tick
  forward : ∀ j, (s.pops j).forward (s.clock / 1000 / tick)
  chain : Chain s.ticks past
  claims : ∀ j current ticks, .claimed j current ticks ∈ past → (s.pops j).hasClaimed ticks
  unique : ∀ j current ticks current' ticks', .claimed j current ticks ∈ past → .claimed j current' ticks' ∈ past →
    current = current' ∧ ticks = ticks'
  draining : ∀ j k ticks timers, s.pops j = .drain k ticks timers → ∃ current, .claimed j current ticks ∈ past ∧ current ≤ k
  drained : ∀ j k, .drained j k ∈ past ↔
    ∃ current ticks, .claimed j current ticks ∈ past ∧ current ≤ k ∧ k < (s.pops j).progress ticks
  slots : (past.filterMap TickEvent.slot).Nodup

section Steps
variable {past : List TickEvent}

theorem TickingInv.init : TickingInv tick {} [] where
  ticks := Nat.zero_le _
  forward _ := trivial
  chain := rfl
  claims := nofun
  unique := nofun
  draining := nofun
  drained j k := by simp
  slots := .nil

/-- A step that leaves the ticks and the calls of `next_tick`. -/
theorem TickingInv.frame (h : TickingInv tick s past) (hclock : s.clock ≤ s'.clock) (hticks : s'.ticks = s.ticks)
    (hpops : s'.pops = s.pops) : TickingInv tick s' past := by
  have hle : s.clock / 1000 / tick ≤ s'.clock / 1000 / tick := Nat.div_le_div_right (Nat.div_le_div_right hclock)
  refine ⟨?_, fun j => ?_, ?_, ?_, h.unique, ?_, ?_, h.slots⟩
  · rw [hticks]
    exact Nat.le_trans h.ticks hle
  · rw [hpops]
    exact (h.forward j).mono hle
  · rw [hticks]
    exact h.chain
  · rw [hpops]
    exact h.claims
  · rw [hpops]
    exact h.draining
  · rw [hpops]
    exact h.drained

/-- A call that goes on and has claimed nothing. -/
theorem TickingInv.setPop (h : TickingInv tick s past) {pop : Pop} (hfree : ∀ ticks, ¬(s.pops j).hasClaimed ticks)
    (hforward : pop.forward (s.clock / 1000 / tick)) (hdrain : ∀ k ticks timers, pop ≠ .drain k ticks timers) :
    TickingInv tick (s.setPop j pop) past := by
  have hnone : ∀ current ticks, .claimed j current ticks ∉ past := fun current ticks hmem =>
    hfree ticks (h.claims j current ticks hmem)
  refine ⟨h.ticks, fun i => ?_, h.chain, fun i current ticks hmem => ?_, h.unique, fun i k ticks timers hi => ?_,
    fun i k => ?_, h.slots⟩
  · rcases eq_or_ne i j with rfl | hne
    · rw [setPop_self]
      exact hforward
    · rw [setPop_of_ne _ _ hne]
      exact h.forward i
  · rcases eq_or_ne i j with rfl | hne
    · exact absurd hmem (hnone current ticks)
    · rw [setPop_of_ne _ _ hne]
      exact h.claims i current ticks hmem
  · rcases eq_or_ne i j with rfl | hne
    · rw [setPop_self] at hi
      exact absurd hi (hdrain k ticks timers)
    · rw [setPop_of_ne _ _ hne] at hi
      exact h.draining i k ticks timers hi
  · rw [h.drained i k]
    rcases eq_or_ne i j with rfl | hne
    · constructor
      · rintro ⟨current, ticks, hmem, -⟩
        exact absurd hmem (hnone current ticks)
      · rintro ⟨current, ticks, hmem, -⟩
        exact absurd hmem (hnone current ticks)
    · rw [setPop_of_ne _ _ hne]

/-- The exchange claims the slots from the ticks on. -/
theorem TickingInv.claim (h : TickingInv tick s past) {ticks : Nat} (hc : s.pops j = .exchange s.ticks ticks) :
    TickingInv tick ({ s with ticks }.setPop j (.drain s.ticks ticks [])) (.claimed j s.ticks ticks :: past) := by
  have hforward := h.forward j
  rw [hc] at hforward
  have hnone : ∀ current ticks, .claimed j current ticks ∉ past := by
    intro current ticks hmem
    have hclaimed := h.claims j current ticks hmem
    rwa [hc] at hclaimed
  have hmem_of_ne : ∀ {i current ticks'}, i ≠ j → TickEvent.claimed i current ticks' ∈ TickEvent.claimed j s.ticks ticks :: past →
      .claimed i current ticks' ∈ past := by
    intro i current ticks' hne hmem
    rcases List.mem_cons.mp hmem with heq | hpast
    · cases heq
      exact absurd rfl hne
    · exact hpast
  have hmem_self : ∀ {current ticks'}, TickEvent.claimed j current ticks' ∈ TickEvent.claimed j s.ticks ticks :: past →
      current = s.ticks ∧ ticks' = ticks := by
    intro current ticks' hmem
    rcases List.mem_cons.mp hmem with heq | hpast
    · cases heq
      exact ⟨rfl, rfl⟩
    · exact absurd hpast (hnone _ _)
  refine ⟨hforward.2, fun i => ?_, ⟨rfl, hforward.1, h.chain⟩, fun i current ticks' hmem => ?_,
    fun i current ticks₁ current' ticks₂ hmem hmem' => ?_, fun i k ticks' timers hi => ?_, fun i k => ?_, h.slots⟩
  · rcases eq_or_ne i j with rfl | hne
    · rw [setPop_self]
      trivial
    · rw [setPop_of_ne _ _ hne]
      exact h.forward i
  · rcases eq_or_ne i j with rfl | hne
    · obtain ⟨-, rfl⟩ := hmem_self hmem
      rw [setPop_self]
      exact ⟨rfl, Nat.le_of_lt hforward.1⟩
    · rw [setPop_of_ne _ _ hne]
      exact h.claims i current ticks' (hmem_of_ne hne hmem)
  · rcases eq_or_ne i j with rfl | hne
    · obtain ⟨rfl, rfl⟩ := hmem_self hmem
      obtain ⟨rfl, rfl⟩ := hmem_self hmem'
      exact ⟨rfl, rfl⟩
    · exact h.unique i _ _ _ _ (hmem_of_ne hne hmem) (hmem_of_ne hne hmem')
  · rcases eq_or_ne i j with rfl | hne
    · rw [setPop_self] at hi
      cases hi
      exact ⟨s.ticks, List.mem_cons_self, Nat.le_refl _⟩
    · rw [setPop_of_ne _ _ hne] at hi
      obtain ⟨current, hmem, hle⟩ := h.draining i k ticks' timers hi
      exact ⟨current, List.mem_cons_of_mem _ hmem, hle⟩
  · have hold : TickEvent.drained i k ∈ TickEvent.claimed j s.ticks ticks :: past ↔ .drained i k ∈ past := by simp
    rw [hold, h.drained i k]
    rcases eq_or_ne i j with rfl | hne
    · constructor
      · rintro ⟨current, ticks', hmem, -⟩
        exact absurd hmem (hnone current ticks')
      · rintro ⟨current, ticks', hmem, hle, hlt⟩
        obtain ⟨rfl, rfl⟩ := hmem_self hmem
        rw [setPop_self] at hlt
        exact absurd hle (Nat.not_le.mpr hlt)
    · rw [setPop_of_ne _ _ hne]
      constructor
      · rintro ⟨current, ticks', hmem, hrange⟩
        exact ⟨current, ticks', List.mem_cons_of_mem _ hmem, hrange⟩
      · rintro ⟨current, ticks', hmem, hrange⟩
        exact ⟨current, ticks', hmem_of_ne hne hmem, hrange⟩

theorem TickingInv.progress_le (h : TickingInv tick s past) {current ticks : Nat} (hmem : .claimed j current ticks ∈ past) :
    (s.pops j).progress ticks ≤ ticks := by
  have hclaimed := h.claims j current ticks hmem
  cases hc : s.pops j with
  | drain k ticks' timers =>
    rw [hc] at hclaimed
    exact hclaimed.2
  | _ => exact Nat.le_refl _

/-- The call that drains slot `k` is the first. -/
theorem TickingInv.not_drained (h : TickingInv tick s past) {k ticks : Nat} {timers : List Timer}
    (hc : s.pops j = .drain k ticks timers) (hlt : k < ticks) : ∀ i, .drained i k ∉ past := by
  intro i hmem
  obtain ⟨current, hclaimed, hle⟩ := h.draining j k ticks timers hc
  obtain ⟨current', ticks', hclaimed', hle', hlt'⟩ := (h.drained i k).mp hmem
  have hk' : k < ticks' := Nat.lt_of_lt_of_le hlt' (h.progress_le hclaimed')
  cases h.chain.unique hclaimed hclaimed' ⟨hle, hlt⟩ ⟨hle', hk'⟩
  rw [hc] at hlt'
  exact absurd hlt' (Nat.lt_irrefl _)

theorem TickingInv.drain (h : TickingInv tick s past) {k ticks : Nat} {timers timers' : List Timer}
    (hc : s.pops j = .drain k ticks timers) (hlt : k < ticks) :
    TickingInv tick ((s.removeSlot k).setPop j (.drain (k + 1) ticks timers')) (.drained j k :: past) := by
  obtain ⟨current, hclaimed, hle⟩ := h.draining j k ticks timers hc
  have hmem_iff : ∀ {i current ticks'}, TickEvent.claimed i current ticks' ∈ TickEvent.drained j k :: past ↔
      .claimed i current ticks' ∈ past := by
    intro i current ticks'
    simp
  have hpops : (s.removeSlot k).pops = s.pops := rfl
  refine ⟨h.ticks, fun i => ?_, h.chain, fun i current' ticks' hmem => ?_,
    fun i _ _ _ _ hmem hmem' => h.unique i _ _ _ _ (hmem_iff.mp hmem) (hmem_iff.mp hmem'),
    fun i k' ticks' timers'' hi => ?_, fun i k' => ?_, ?_⟩
  · rcases eq_or_ne i j with rfl | hne
    · rw [setPop_self]
      trivial
    · rw [setPop_of_ne _ _ hne]
      exact h.forward i
  · rcases eq_or_ne i j with rfl | hne
    · obtain ⟨-, rfl⟩ := h.unique i _ _ _ _ (hmem_iff.mp hmem) hclaimed
      rw [setPop_self]
      exact ⟨rfl, hlt⟩
    · rw [setPop_of_ne _ _ hne]
      exact h.claims i current' ticks' (hmem_iff.mp hmem)
  · rcases eq_or_ne i j with rfl | hne
    · rw [setPop_self] at hi
      cases hi
      exact ⟨current, hmem_iff.mpr hclaimed, Nat.le_succ_of_le hle⟩
    · rw [setPop_of_ne _ _ hne] at hi
      obtain ⟨current', hmem, hle'⟩ := h.draining i k' ticks' timers'' hi
      exact ⟨current', hmem_iff.mpr hmem, hle'⟩
  · simp only [hmem_iff]
    rw [List.mem_cons, h.drained i k']
    rcases eq_or_ne i j with rfl | hne
    · rw [setPop_self, hc]
      constructor
      · rintro (heq | ⟨current', ticks', hmem, hle', hlt'⟩)
        · cases heq
          exact ⟨current, ticks, hclaimed, hle, Nat.lt_succ_self _⟩
        · exact ⟨current', ticks', hmem, hle', Nat.lt_succ_of_lt hlt'⟩
      · rintro ⟨current', ticks', hmem, hle', hlt'⟩
        rcases Nat.eq_or_lt_of_le (Nat.lt_succ_iff.mp hlt') with rfl | hbefore
        · exact .inl rfl
        · exact .inr ⟨current', ticks', hmem, hle', hbefore⟩
    · rw [setPop_of_ne _ _ hne, hpops]
      constructor
      · rintro (heq | hrange)
        · cases heq
          exact absurd rfl hne
        · exact hrange
      · exact .inr
  · refine List.nodup_cons.mpr ⟨fun hmem => ?_, h.slots⟩
    obtain ⟨e, he, hslot⟩ := List.mem_filterMap.mp hmem
    cases e with
    | claimed => cases hslot
    | drained i l =>
      cases hslot
      exact h.not_drained hc hlt i he

/-- The loop of the call is over. -/
theorem TickingInv.finish (h : TickingInv tick s past) {k ticks : Nat} {timers : List Timer}
    (hc : s.pops j = .drain k ticks timers) (hle : ticks ≤ k) : TickingInv tick (s.setPop j (.done (some timers))) past := by
  obtain ⟨current, hclaimed, -⟩ := h.draining j k ticks timers hc
  have hk : k = ticks := by
    have hprogress := h.progress_le hclaimed
    rw [hc] at hprogress
    exact Nat.le_antisymm hprogress hle
  refine ⟨h.ticks, fun i => ?_, h.chain, fun i current' ticks' hmem => ?_, h.unique, fun i k' ticks' timers' hi => ?_,
    fun i k' => ?_, h.slots⟩
  · rcases eq_or_ne i j with rfl | hne
    · rw [setPop_self]
      trivial
    · rw [setPop_of_ne _ _ hne]
      exact h.forward i
  · rcases eq_or_ne i j with rfl | hne
    · rw [setPop_self]
      trivial
    · rw [setPop_of_ne _ _ hne]
      exact h.claims i current' ticks' hmem
  · rcases eq_or_ne i j with rfl | hne
    · rw [setPop_self] at hi
      cases hi
    · rw [setPop_of_ne _ _ hne] at hi
      exact h.draining i k' ticks' timers' hi
  · rw [h.drained i k']
    rcases eq_or_ne i j with rfl | hne
    · rw [setPop_self, hc]
      refine exists_congr fun current' => exists_congr fun ticks' => and_congr_right fun hmem => ?_
      obtain ⟨-, rfl⟩ := h.unique i _ _ _ _ hmem hclaimed
      have hprogress : (Pop.drain k ticks' timers).progress ticks' = (Pop.done (some timers)).progress ticks' := hk
      rw [hprogress]
    · rw [setPop_of_ne _ _ hne]

theorem TickingInv.step {a : Action} (h : TickingInv tick s past) (hfits : tickFits tick s a = true)
    (hs : step tick s a = some s') : TickingInv tick s' ((tickEvents s a).reverse ++ past) := by
  cases a with
  | wait nanos =>
    cases hs
    exact h.frame (Nat.le_add_right _ _) rfl rfl
  | newTimer i duration =>
    obtain ⟨hclock, hticks⟩ := newTimer_ticks hs
    exact h.frame (Nat.le_of_eq hclock.symm) hticks (newTimer_pops hs)
  | add i spurious =>
    obtain ⟨hclock, hticks⟩ := addStep_ticks hs
    exact h.frame (Nat.le_of_eq hclock.symm) hticks (addStep_pops hs)
  | nextTick j =>
    rw [TimeWheel.step, Option.ite_none_right_eq_some] at hs
    obtain ⟨hidle, hs⟩ := hs
    cases hs
    refine h.setPop (fun ticks => ?_) trivial (by simp)
    rw [hidle]
    exact id
  | pop j =>
    have hpop : popStep tick s j = some s' := hs
    obtain ⟨hc, rfl⟩ | ⟨current, pop, hc, rfl, hnext⟩ | ⟨ticks, hc, rfl⟩ | ⟨current, ticks, hc, hne, rfl⟩ |
      ⟨k, ticks, timers, hc, hlt, rfl⟩ | ⟨k, ticks, timers, hc, hle, rfl⟩ := popStep_cases hpop
    · rw [tickEvents, hc]
      refine h.setPop (fun ticks => ?_) h.ticks (by simp)
      rw [hc]
      exact id
    · rw [tickFits, hc, decide_eq_true_eq] at hfits
      have hfree : ∀ ticks, ¬(s.pops j).hasClaimed ticks := by
        rw [hc]
        exact fun _ => id
      rw [tickEvents, hc]
      rcases hnext with ⟨rfl, -⟩ | ⟨rfl, -⟩ | ⟨ticks, ht, hlt, rfl⟩
      · exact h.setPop hfree trivial (by simp)
      · exact h.setPop hfree trivial (by simp)
      · exact h.setPop hfree ⟨hlt, Nat.le_of_eq (ticks_of_tickOf ht hfits)⟩ (by simp)
    · rw [tickEvents, hc]
      simpa using h.claim hc
    · rw [tickEvents, hc]
      dsimp only
      rw [if_neg hne]
      refine h.setPop (fun ticks => ?_) trivial (by simp)
      rw [hc]
      exact id
    · rw [tickEvents, hc]
      dsimp only
      rw [if_pos hlt]
      exact h.drain hc hlt
    · rw [tickEvents, hc]
      dsimp only
      rw [if_neg (Nat.not_lt.mpr hle)]
      exact h.finish hc hle

theorem TickingInv.claimed_once (h : TickingInv tick s past) {k : Nat} (hk : k < s.ticks) :
    ∃! j, ∃ current ticks, .claimed j current ticks ∈ past ∧ current ≤ k ∧ k < ticks ∧ (∀ i, .drained i k ∈ past → i = j) ∧
      ∀ timers, s.pops j = .done (some timers) → .drained j k ∈ past := by
  obtain ⟨j, current, ticks, hmem, hle, hlt⟩ := h.chain.covers.mp hk
  refine ⟨j, ⟨current, ticks, hmem, hle, hlt, fun i hi => ?_, fun timers hdone => ?_⟩, ?_⟩
  · obtain ⟨current', ticks', hmem', hle', hlt'⟩ := (h.drained i k).mp hi
    have hk' : k < ticks' := Nat.lt_of_lt_of_le hlt' (h.progress_le hmem')
    cases h.chain.unique hmem hmem' ⟨hle, hlt⟩ ⟨hle', hk'⟩
    rfl
  · refine (h.drained j k).mpr ⟨current, ticks, hmem, hle, ?_⟩
    rw [hdone]
    exact hlt
  · rintro j' ⟨current', ticks', hmem', hle', hlt', -⟩
    cases h.chain.unique hmem hmem' ⟨hle, hlt⟩ ⟨hle', hlt'⟩
    rfl

theorem TickingInv.ticks_le {a : Action} (h : TickingInv tick s past) (hs : TimeWheel.step tick s a = some s') : s.ticks ≤ s'.ticks := by
  cases a with
  | wait nanos =>
    cases hs
    exact Nat.le_refl _
  | newTimer i duration => exact Nat.le_of_eq (newTimer_ticks hs).2.symm
  | add i spurious => exact Nat.le_of_eq (addStep_ticks hs).2.symm
  | nextTick j =>
    rw [TimeWheel.step, Option.ite_none_right_eq_some] at hs
    cases hs.2
    exact Nat.le_refl _
  | pop j =>
    have hpop : popStep tick s j = some s' := hs
    obtain ⟨-, rfl⟩ | ⟨-, -, -, rfl, -⟩ | ⟨ticks, hc, rfl⟩ | ⟨-, -, -, -, rfl⟩ | ⟨-, -, -, -, -, rfl⟩ | ⟨-, -, -, -, -, rfl⟩ :=
      popStep_cases hpop
    · exact Nat.le_refl _
    · exact Nat.le_refl _
    · have hforward := h.forward j
      rw [hc] at hforward
      exact Nat.le_of_lt hforward.1
    · exact Nat.le_refl _
    · exact Nat.le_refl _
    · exact Nat.le_refl _

end Steps

/-- Any number of calls of `next_tick` beside each other, with tick numbers that fit in 64 bits: the assertion holds, the
    ticks do not go back, and the claimed ranges are disjoint, cover the slots below `ticks` and are drained once. -/
theorem ticks_drained_once (tick : Nat) (s : State) (past : List TickEvent)
    (h : Reaches (traced (step tick) tickEvents) (fun s a => tickFits tick s.1 a = true) ({}, []) (s, past)) :
    (∀ j current ticks, s.pops j = .now current → tickFits tick s (.pop j) = true → tickOf tick s.clock = some ticks →
      current ≤ ticks) ∧
    (∀ a s', step tick s a = some s' → s.ticks ≤ s'.ticks) ∧
    (past.filterMap TickEvent.range).Pairwise (fun r r' => ∀ k, ¬((r.1 ≤ k ∧ k < r.2) ∧ r'.1 ≤ k ∧ k < r'.2)) ∧
    (∀ k, k < s.ticks ↔ ∃ r ∈ past.filterMap TickEvent.range, r.1 ≤ k ∧ k < r.2) ∧
    (past.filterMap TickEvent.slot).Nodup ∧
    (∀ k ∈ past.filterMap TickEvent.slot, k < s.ticks) ∧
    ∀ k, k < s.ticks →
      ∃! j, ∃ current ticks, .claimed j current ticks ∈ past ∧ current ≤ k ∧ k < ticks ∧ (∀ i, .drained i k ∈ past → i = j) ∧
        ∀ timers, s.pops j = .done (some timers) → .drained j k ∈ past := by
  have hs : TickingInv tick s past := h.traced_invariant .init fun hinv hok hs => hinv.step hok hs
  refine ⟨fun j current ticks hc hfits ht => ?_, fun a s' => hs.ticks_le, hs.chain.disjoint, fun k => ?_, hs.slots,
    fun k hk => ?_, fun k => hs.claimed_once⟩
  · have hforward := hs.forward j
    rw [hc] at hforward
    rw [tickFits, hc, decide_eq_true_eq] at hfits
    rw [ticks_of_tickOf ht hfits]
    exact hforward
  · rw [hs.chain.covers]
    constructor
    · rintro ⟨j, current, ticks, hmem, hrange⟩
      exact ⟨(current, ticks), mem_ranges.mpr ⟨j, hmem⟩, hrange⟩
    · rintro ⟨r, hr, hrange⟩
      obtain ⟨j, hmem⟩ := mem_ranges.mp hr
      exact ⟨j, r.1, r.2, hmem, hrange⟩
  · obtain ⟨e, he, hslot⟩ := List.mem_filterMap.mp hk
    cases e with
    | claimed => cases hslot
    | drained j i =>
      cases hslot
      obtain ⟨current, ticks, hmem, hle, hlt⟩ := (hs.drained j k).mp he
      exact hs.chain.covers.mpr ⟨j, current, ticks, hmem, hle, Nat.lt_of_lt_of_le hlt (hs.progress_le hmem)⟩

/-- Two calls load the same ticks; the second one loses the exchange and claims what is left. -/
theorem ticks_drained_once_race :
    ∃ s, runIf (traced (step 1) tickEvents) (fun s a => tickFits 1 s.1 a) ({}, [])
        [.nextTick 0, .pop 0, .nextTick 1, .pop 1, .wait 1000, .pop 0, .wait 1000, .pop 1, .pop 0, .pop 1, .pop 1, .pop 1, .pop 1,
          .pop 0, .pop 1] = some s ∧
      s.2 = [.drained 1 1, .drained 0 0, .claimed 1 1 2, .claimed 0 0 1] ∧ (s.2.filterMap TickEvent.slot).Nodup := by
  obtain ⟨s, hs⟩ : ∃ s, runIf (traced (step 1) tickEvents) (fun s a => tickFits 1 s.1 a) ({}, [])
      [.nextTick 0, .pop 0, .nextTick 1, .pop 1, .wait 1000, .pop 0, .wait 1000, .pop 1, .pop 0, .pop 1, .pop 1, .pop 1, .pop 1,
        .pop 0, .pop 1] = some s := ⟨_, rfl⟩
  have hdrained := ticks_drained_once 1 s.1 s.2 (Reaches.of_runIf _ (fun _ _ hok => hok) hs)
  refine ⟨s, hs, ?_, hdrained.2.2.2.2.1⟩
  cases hs
  rfl

/-- Past `2 ^ 64` microseconds the tick number starts again, and the assertion of `next_tick` fails. -/
theorem tick_number_wraps :
    ∃ s, run (step 1) {} [.wait 1000, .nextTick 0, .pop 0, .pop 0, .pop 0, .nextTick 1, .pop 1, .wait (2 ^ 64 * 1000 - 1000)] =
        some s ∧
      s.pops 1 = .now 1 ∧ tickOf 1 s.clock = some 0 ∧ (popStep 1 s 1).map (·.pops 1) = some .panicked := by
  have ht : tickOf 1 (1000 + (2 ^ 64 * 1000 - 1000)) = some 0 := by decide
  refine ⟨_, rfl, rfl, ht, ?_⟩
  simp only [popStep]
  rfl

end Hala.TimeWheel
