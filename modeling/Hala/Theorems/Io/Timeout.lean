import Hala.Io.Sleep
import Hala.Theorems.Io.Poller
import Hala.Theorems.Lockfree.Deadlines

/-! The timers of the mio driver and the wheel agree on when a timer expires.

`start` reads the clock for the timer and `new_timer` reads it again for the wheel, so that the deadline by the timer's clock
is never behind the one that the wheel rounds to a tick. -/

namespace Hala.Io
open Machine TimeWheel

/-! ### The tick of a timer -/

section Ticks
variable {tickDuration n : Nat}

/-- How far the tick of whole microseconds, which is the shorter one, is ahead. -/
theorem div_micros (htick : 1000 ≤ tickDuration) :
    n / (1000 * (tickDuration / 1000)) = n / tickDuration +
      (n / tickDuration * (tickDuration % 1000) + n % tickDuration) / (1000 * (tickDuration / 1000)) := by
  have hpos : 0 < 1000 * (tickDuration / 1000) := by omega
  have hn : n = 1000 * (tickDuration / 1000) * (n / tickDuration) +
      (n / tickDuration * (tickDuration % 1000) + n % tickDuration) := by
    calc n = tickDuration * (n / tickDuration) + n % tickDuration := (Nat.div_add_mod n tickDuration).symm
      _ = (1000 * (tickDuration / 1000) + tickDuration % 1000) * (n / tickDuration) + n % tickDuration := by
        rw [Nat.div_add_mod tickDuration 1000]
      _ = _ := by rw [Nat.add_mul, Nat.mul_comm (tickDuration % 1000), Nat.add_assoc]
  conv_lhs => rw [hn]
  exact Nat.mul_add_div hpos _ _

theorem div_micros_eq_iff (htick : 1000 ≤ tickDuration) :
    n / (1000 * (tickDuration / 1000)) = n / tickDuration ↔
      n / tickDuration * (tickDuration % 1000) + n % tickDuration < tickDuration - tickDuration % 1000 := by
  have hmicros : 1000 * (tickDuration / 1000) = tickDuration - tickDuration % 1000 := by omega
  have hpos : 0 < tickDuration - tickDuration % 1000 := by omega
  rw [div_micros htick, hmicros, Nat.add_eq_left, Nat.div_eq_zero_iff_lt hpos]

/-- What is cut off never makes up for what the shorter tick is ahead. -/
theorem mod_div_micros_eq_iff (htick : 1000 ≤ tickDuration) :
    n / (1000 * (tickDuration / 1000)) % 2 ^ 64 = n / tickDuration ↔
      n / tickDuration < 2 ^ 64 ∧ n / (1000 * (tickDuration / 1000)) = n / tickDuration := by
  constructor
  · intro heq
    have hlt : n / tickDuration < 2 ^ 64 := heq ▸ Nat.mod_lt _ (by decide)
    refine ⟨hlt, ?_⟩
    rw [div_micros htick] at heq ⊢
    generalize hahead : (n / tickDuration * (tickDuration % 1000) + n % tickDuration) / (1000 * (tickDuration / 1000)) = ahead
      at heq ⊢
    by_contra hne
    have hwrap : 2 ^ 64 ≤ ahead := by omega
    have hmul : 2 ^ 64 * (1000 * (tickDuration / 1000)) ≤ n / tickDuration * (tickDuration % 1000) + n % tickDuration := by
      refine Nat.le_trans (Nat.mul_le_mul_right _ hwrap) ?_
      rw [← hahead]
      exact Nat.div_mul_le_self _ _
    have hrest : n / tickDuration * (tickDuration % 1000) ≤ (2 ^ 64 - 1) * 999 :=
      Nat.mul_le_mul (by omega) (by omega)
    have hmod : n % tickDuration < tickDuration := Nat.mod_lt _ (by omega)
    omega
  · rintro ⟨hlt, heq⟩
    rw [heq, Nat.mod_eq_of_lt hlt]

theorem tickOf_eq_some_iff {tick t : Nat} (htick : 0 < tick) :
    tickOf tick n = some t ↔ n ≤ maxDuration ∧ n / (1000 * tick) % 2 ^ 64 = t := by
  rw [tickOf, Option.ite_none_left_eq_some, Option.some.injEq, Nat.div_div_eq_div_mul, not_or, Nat.not_lt]
  exact and_congr_left fun _ => and_iff_right (Nat.ne_of_gt htick)

end Ticks

namespace Sleeps
variable {tickDuration : Nat} {s s' : Sleeps} {i : Token} {waker : Waker} {sleep : Sleep} {timer : MioTimer}

/-- The call of `new_timer` of a sleep begins with the tick `t`, or panics. -/
theorem newTimer_firstLoad_iff {spurious : Bool} {t : Nat} (hsleep : s.sleeps i = some sleep) (hfd : sleep.fd = some timer)
    (hstate : sleep.state = .newTimer waker) (hadd : s.poller.wheel.adds i = .idle) :
    (step tickDuration s (.sleep i spurious)).map (·.poller.wheel.adds i) = some (.firstLoad t) ↔
      tickOf (tickMicros tickDuration) (s.poller.wheel.clock + timer.duration) = some t := by
  have hstep : step tickDuration s (.sleep i spurious) = sleepStep tickDuration s i spurious sleep timer := by
    simp [step, hsleep, hfd]
  rw [hstep, sleepStep, hstate, tickMicros]
  simp only [TimeWheel.step, hadd, if_true]
  cases tickOf (tickDuration / 1000) (s.poller.wheel.clock + timer.duration) with
  | none => simp [Sleeps.setSleep, setWheel]
  | some t' => simp [Sleeps.setSleep, setWheel]

/-- The tick of a timer is the floor of its deadline by the tick, exactly if the deadline is a `Duration` and the tick fits in
    64 bits; by a tick duration that is no whole number of microseconds, if the rounding does not add up to a tick either. -/
theorem timer_tick_exact_iff (tickDuration : Nat) (htick : 1000 ≤ tickDuration) (s : Sleeps) (i : Token) (spurious : Bool)
    (sleep : Sleep) (timer : MioTimer) (waker : Waker) (hsleep : s.sleeps i = some sleep) (hfd : sleep.fd = some timer)
    (hstate : sleep.state = .newTimer waker) (hadd : s.poller.wheel.adds i = .idle) (deadline : Nat)
    (hdeadline : deadline = s.poller.wheel.clock + timer.duration) :
    ((step tickDuration s (.sleep i spurious)).map (·.poller.wheel.adds i) =
        some (.firstLoad (deadline / (1000 * (tickDuration / 1000)))) ↔
      deadline ≤ maxDuration ∧ deadline / (1000 * (tickDuration / 1000)) < 2 ^ 64) ∧
    ((step tickDuration s (.sleep i spurious)).map (·.poller.wheel.adds i) = some (.firstLoad (deadline / tickDuration)) ↔
      deadline ≤ maxDuration ∧ deadline / tickDuration < 2 ^ 64 ∧
        deadline / tickDuration * (tickDuration % 1000) + deadline % tickDuration < tickDuration - tickDuration % 1000) := by
  subst hdeadline
  have hpos : 0 < tickMicros tickDuration := by
    rw [tickMicros]
    omega
  constructor
  · rw [newTimer_firstLoad_iff hsleep hfd hstate hadd, tickOf_eq_some_iff hpos, tickMicros]
    refine and_congr_right fun _ => ?_
    exact Nat.mod_eq_iff_lt (by decide)
  · rw [newTimer_firstLoad_iff hsleep hfd hstate hadd, tickOf_eq_some_iff hpos, tickMicros, mod_div_micros_eq_iff htick,
      div_micros_eq_iff htick]

theorem timer_tick_exact_iff_sleep :
    ∃ s, run (step 1500) {} [.new 0 4000, .wait 3000, .poll 0 7, .sleep 0 false] = some s ∧
      (step 1500 s (.sleep 0 false)).map (·.poller.wheel.adds 0) = some (.firstLoad 7) ∧
      (step 1500 s (.sleep 0 false)).map (·.poller.wheel.adds 0) ≠ some (.firstLoad 4) := by
  obtain ⟨s, sleep, timer, hs, hsleep, hfd, hstate, hadd, hdeadline⟩ : ∃ s sleep timer,
      run (step 1500) {} [.new 0 4000, .wait 3000, .poll 0 7, .sleep 0 false] = some s ∧ s.sleeps 0 = some sleep ∧
        sleep.fd = some timer ∧ sleep.state = .newTimer 7 ∧ s.poller.wheel.adds 0 = .idle ∧
        7000 = s.poller.wheel.clock + timer.duration := ⟨_, _, _, rfl, rfl, rfl, rfl, rfl, rfl⟩
  have hexact := timer_tick_exact_iff 1500 (by decide) s 0 false sleep timer 7 hsleep hfd hstate hadd 7000 hdeadline
  exact ⟨s, hs, hexact.1.mpr (by decide), fun h => absurd (hexact.2.mp h) (by decide)⟩

/-- A sleep for ever panics when it begins, and one of `2 ^ 64` microseconds gets tick 0. -/
theorem long_sleeps_fail :
    (∃ s, run (step 1000) {} [.new 0 maxDuration, .wait 1, .poll 0 7, .sleep 0 false, .sleep 0 false, .sleep 0 false] = some s ∧
      (s.sleeps 0).map Sleep.state = some .panicked) ∧
    ∃ s, run (step 1000) {} [.new 0 (2 ^ 64 * 1000), .poll 0 7, .sleep 0 false, .sleep 0 false] = some s ∧
      s.poller.wheel.adds 0 = .firstLoad 0 := by
  refine ⟨⟨_, rfl, ?_⟩, _, rfl, ?_⟩
  · decide
  · decide

/-! ### Wake-ups -/

end Sleeps

/-- When the timer expires by its own clock; a timer that has not been started has no deadline. -/
def MioTimer.deadline (timer : MioTimer) : Nat := timer.startInstant.elim 0 (· + timer.duration)

/-- The sleep has not called `new_timer`. -/
def SleepState.unregistered : SleepState → Bool
  | .created | .start _ | .newTimer _ => true
  | _ => false

/-- What the poller knows of the timer of a sleep and what the timer knows of the poller; `add` is its call of `new_timer`. -/
structure Sleep.Timely (tickDuration clock : Nat) (add : Add) (sleep : Sleep) : Prop where
  idle : sleep.state.unregistered = true → add = .idle
  started : add ≠ .idle ∨ (∃ waker, sleep.state = .newTimer waker) →
    ∃ timer startInstant, sleep.fd = some timer ∧ timer.startInstant = some startInstant
  timer : ∀ timer startInstant, sleep.fd = some timer → timer.startInstant = some startInstant →
    startInstant ≤ clock ∧ timer.tickDuration = some tickDuration

theorem Sleep.Timely.mono {tickDuration clock clock' : Nat} {add : Add} {sleep : Sleep}
    (h : sleep.Timely tickDuration clock add) (hclock : clock ≤ clock') : sleep.Timely tickDuration clock' add where
  idle := h.idle
  started := h.started
  timer timer startInstant hfd hstart :=
    ⟨Nat.le_trans (h.timer timer startInstant hfd hstart).1 hclock, (h.timer timer startInstant hfd hstart).2⟩

/-- A sleep goes on behind its call of `new_timer`. -/
theorem Sleep.Timely.next {tickDuration clock : Nat} {add : Add} {sleep sleep' : Sleep}
    (h : sleep.Timely tickDuration clock add) (hfd : sleep'.fd = sleep.fd) (hstate : sleep'.state.unregistered = false) : sleep'.Timely tickDuration clock add where
  idle hunregistered := by
    rw [hstate] at hunregistered
    cases hunregistered
  started hadd := by
    rw [hfd]
    refine h.started (hadd.imp_right ?_)
    rintro ⟨waker, hnew⟩
    rw [hnew] at hstate
    cases hstate
  timer := by
    rw [hfd]
    exact h.timer

namespace Sleeps
variable {tickDuration : Nat} {s s' : Sleeps} {i : Token} {waker : Waker} {sleep : Sleep} {timer : MioTimer}

/-- The deadline by the clock of the timer, as far as there is one. -/
def deadline (s : Sleeps) (i : Token) : Nat := ((s.sleeps i).bind Sleep.fd).elim 0 MioTimer.deadline

structure Timely (tickDuration : Nat) (s : Sleeps) : Prop where
  wheel : NotEarly (tickDuration / 1000) s.deadline s.poller.wheel
  none : ∀ i, s.sleeps i = none → s.poller.wheel.adds i = .idle
  sleeps : ∀ i sleep, s.sleeps i = some sleep → sleep.Timely tickDuration s.poller.wheel.clock (s.poller.wheel.adds i)
  polls : ∀ j, s.polls j = .idle → s.poller.wheel.pops j = .idle

theorem Timely.init : Timely tickDuration {} where
  wheel := .init
  none _ _ := rfl
  sleeps i sleep h := by cases h
  polls _ _ := rfl

/-- A step that leaves the sleeps and their calls of `new_timer`. -/
theorem Timely.frame (h : Timely tickDuration s) (hsleeps : s'.sleeps = s.sleeps)
    (hwheel : NotEarly (tickDuration / 1000) s.deadline s'.poller.wheel) (hadds : s'.poller.wheel.adds = s.poller.wheel.adds)
    (hclock : s.poller.wheel.clock ≤ s'.poller.wheel.clock) (hpolls : ∀ j, s'.polls j = .idle → s'.poller.wheel.pops j = .idle) :
    Timely tickDuration s' := by
  have hdeadline : s'.deadline = s.deadline := by
    funext i
    rw [deadline, deadline, hsleeps]
  refine ⟨?_, ?_, fun i sleep hsleep => ?_, hpolls⟩
  · rwa [hdeadline]
  · rw [hsleeps, hadds]
    exact h.none
  · rw [hsleeps] at hsleep
    rw [hadds]
    exact (h.sleeps i sleep hsleep).mono hclock

/-- A step of sleep `i`, which may get its deadline as long as the wheel does not have its timer. -/
theorem Timely.update (h : Timely tickDuration s) (hself : s'.sleeps i = some sleep) (hother : ∀ k, k ≠ i → s'.sleeps k = s.sleeps k)
    (hdeadline : sleep.fd.elim 0 MioTimer.deadline = s.deadline i ∨ s'.poller.wheel.adds i = .idle)
    (hwheel : NotEarly (tickDuration / 1000) s.deadline s'.poller.wheel)
    (hadds : ∀ k, k ≠ i → s'.poller.wheel.adds k = s.poller.wheel.adds k)
    (hclock : s.poller.wheel.clock ≤ s'.poller.wheel.clock) (hpops : s'.poller.wheel.pops = s.poller.wheel.pops)
    (hpolls : s'.polls = s.polls) (hsleep : sleep.Timely tickDuration s'.poller.wheel.clock (s'.poller.wheel.adds i)) :
    Timely tickDuration s' := by
  refine ⟨hwheel.setDeadline fun k => ?_, fun k hk => ?_, fun k sleep' hk => ?_, ?_⟩
  · rcases eq_or_ne k i with rfl | hne
    · rw [deadline, hself]
      exact hdeadline
    · rw [deadline, deadline, hother k hne]
      exact .inl rfl
  · have hne : k ≠ i := by
      rintro rfl
      rw [hself] at hk
      cases hk
    rw [hother k hne] at hk
    rw [hadds k hne]
    exact h.none k hk
  · rcases eq_or_ne k i with rfl | hne
    · rw [hself] at hk
      cases hk
      exact hsleep
    · rw [hother k hne] at hk
      rw [hadds k hne]
      exact (h.sleeps k sleep' hk).mono hclock
  · rw [hpops, hpolls]
    exact h.polls

/-- A step of sleep `i` that leaves the poller. -/
theorem Timely.setSleep (h : Timely tickDuration s)
    (hdeadline : sleep.fd.elim 0 MioTimer.deadline = s.deadline i ∨ s.poller.wheel.adds i = .idle)
    (hsleep : sleep.Timely tickDuration s.poller.wheel.clock (s.poller.wheel.adds i)) : Timely tickDuration (s.setSleep i sleep) :=
  h.update (Function.update_self ..) (fun _ hk => Function.update_of_ne hk ..) hdeadline h.wheel (fun _ _ => rfl) (Nat.le_refl _)
    rfl rfl hsleep

theorem deadline_of_sleep (hsleep : s.sleeps i = some sleep) : s.deadline i = sleep.fd.elim 0 MioTimer.deadline := by
  rw [deadline, hsleep]
  rfl

theorem Timely.poll (h : Timely tickDuration s) {sleep' : Sleep} (hsleep : s.sleeps i = some sleep)
    (hs : poll sleep waker = some sleep') : Timely tickDuration (s.setSleep i sleep') := by
  have hold := h.sleeps i sleep hsleep
  have hdeadline := deadline_of_sleep hsleep
  unfold Sleeps.poll at hs
  cases hstate : sleep.state with
  | created =>
    have hidle : s.poller.wheel.adds i = .idle := hold.idle (by rw [hstate]; rfl)
    cases hfd : sleep.fd with
    | some timer => simp [hstate, hfd] at hs
    | none =>
      simp only [hstate, hfd] at hs
      split at hs <;> cases hs
      · exact h.setSleep (.inr hidle) (hold.next hfd.symm rfl)
      · refine h.setSleep (.inr hidle) ⟨fun _ => hidle, ?_, ?_⟩
        · rintro (hadd | ⟨_, hnew⟩)
          · exact absurd hidle hadd
          · cases hnew
        · intro timer startInstant hfd' hstart
          cases hfd'
          cases hstart
  | pending | ready =>
    cases hfd : sleep.fd with
    | none => simp [hstate, hfd] at hs
    | some timer =>
      simp only [hstate, hfd, Option.some.injEq] at hs
      subst hs
      refine h.setSleep (.inl ?_) (hold.next ?_ rfl)
      · rw [hdeadline, hfd]
      · exact hfd.symm
  | _ => simp [hstate] at hs

theorem Timely.sleepStep (h : Timely tickDuration s) {spurious : Bool} (hsleep : s.sleeps i = some sleep)
    (hfd : sleep.fd = some timer)
    (hfits : s.tickFits tickDuration (.sleep i spurious) = true)
    (hs : sleepStep tickDuration s i spurious sleep timer = some s') : Timely tickDuration s' := by
  have hold := h.sleeps i sleep hsleep
  have hdeadline := deadline_of_sleep hsleep
  unfold Sleeps.sleepStep at hs
  cases hstate : sleep.state with
  | created | pending | ready | panicked => simp [hstate] at hs
  | start waker =>
    simp only [hstate, Option.some.injEq] at hs
    subst hs
    have hidle : s.poller.wheel.adds i = .idle := hold.idle (by rw [hstate]; rfl)
    refine h.setSleep (.inr hidle) ⟨fun _ => hidle, fun _ => ⟨_, _, rfl, rfl⟩, ?_⟩
    intro timer' startInstant hfd' hstart
    cases hfd'
    cases hstart
    exact ⟨Nat.le_refl _, rfl⟩
  | newTimer waker =>
    simp only [hstate, Option.map_eq_some_iff] at hs
    obtain ⟨wheel, hwheel, rfl⟩ := hs
    obtain ⟨timer', startInstant, hfd', hstart⟩ := hold.started (.inr ⟨waker, hstate⟩)
    have hbegun := hold.timer timer' startInstant hfd' hstart
    rw [hfd] at hfd'
    cases hfd'
    -- The clock is read for the timer before it is read for the wheel.
    have hle : s.deadline i ≤ s.poller.wheel.clock + timer.duration := by
      rw [hdeadline, hfd, Option.elim_some, MioTimer.deadline, hstart]
      exact Nat.add_le_add_right hbegun.1 _
    have hfits : (s.poller.wheel.clock + timer.duration) / 1000 / (tickDuration / 1000) < 2 ^ 64 := by
      obtain ⟨expired, fd, state⟩ := sleep
      cases hfd
      cases hstate
      simpa [tickFits, hsleep] using hfits
    obtain ⟨-, hadds, -⟩ := newTimer_adds hwheel
    obtain ⟨hclock, -⟩ := newTimer_ticks hwheel
    refine h.update (Function.update_self ..) (fun _ hk => Function.update_of_ne hk ..) (.inl hdeadline.symm)
      (h.wheel.newTimer hle hfits hwheel) hadds (Nat.le_of_eq hclock.symm) (newTimer_pops hwheel) rfl ⟨nofun, ?_, ?_⟩
    · exact fun _ => ⟨timer, startInstant, hfd, hstart⟩
    · intro timer' startInstant' hfd' hstart'
      rw [hfd] at hfd'
      cases hfd'
      rw [hstart] at hstart'
      cases hstart'
      exact ⟨Nat.le_trans hbegun.1 (Nat.le_of_eq hclock.symm), hbegun.2⟩
  | inNewTimer waker =>
    simp only [hstate] at hs
    split at hs
    · next ticks hdone =>
      cases hs
      have hbusy : s.poller.wheel.adds i ≠ .idle := by simp [hdone]
      obtain ⟨timer', startInstant, hfd', hstart⟩ := hold.started (.inl hbusy)
      have hbegun := hold.timer timer' startInstant hfd' hstart
      rw [hfd] at hfd'
      cases hfd'
      refine h.setSleep (.inl ?_) ⟨nofun, fun _ => ⟨_, startInstant, rfl, hstart⟩, ?_⟩
      · rw [hdeadline, hfd]
        rfl
      · intro timer' startInstant' hfd' hstart'
        cases hfd'
        rw [show startInstant' = startInstant from Option.some.inj (hstart'.symm.trans hstart)]
        exact hbegun
    · cases hs
      exact h.setSleep (.inl hdeadline.symm) (hold.next rfl rfl)
    · obtain ⟨wheel, hwheel, rfl⟩ := Option.map_eq_some_iff.mp hs
      obtain ⟨hclock, -⟩ := addStep_ticks hwheel
      have hbusy : s.poller.wheel.adds i ≠ .idle := by
        intro hidle
        simp [addStep, hidle] at hwheel
      refine h.update hsleep (fun _ _ => rfl) (.inl hdeadline.symm) (h.wheel.addStep hwheel) (addStep_adds hwheel).1
        (Nat.le_of_eq hclock.symm) (addStep_pops hwheel) rfl ⟨?_, fun _ => hold.started (.inl hbusy), ?_⟩
      · intro hunregistered
        rw [hstate] at hunregistered
        cases hunregistered
      · exact (hold.mono (Nat.le_of_eq hclock.symm)).timer
  | isExpired waker =>
    simp only [hstate] at hs
    split at hs
    all_goals
      cases hs
      exact h.setSleep (.inl hdeadline.symm) (hold.next rfl rfl)
  | addWaker waker =>
    simp only [hstate, Option.some.injEq] at hs
    subst hs
    exact h.update (Function.update_self ..) (fun _ hk => Function.update_of_ne hk ..) (.inl hdeadline.symm) h.wheel
      (fun _ _ => rfl) (Nat.le_refl _) rfl rfl (hold.next rfl rfl)

theorem Timely.step {a : SleepsAction} (h : Timely tickDuration s) (hfits : s.tickFits tickDuration a = true)
    (hs : step tickDuration s a = some s') : Timely tickDuration s' := by
  cases a with
  | wait nanos =>
    cases hs
    exact h.frame rfl (h.wheel.wait nanos) rfl (Nat.le_add_right _ _) h.polls
  | new i expired =>
    rw [Sleeps.step, Option.ite_none_right_eq_some] at hs
    obtain ⟨hnone, hs⟩ := hs
    cases hs
    have hidle := h.none i hnone
    refine h.setSleep (.inr hidle) ⟨fun _ => hidle, ?_, nofun⟩
    rintro (hadd | ⟨_, hnew⟩)
    · exact absurd hidle hadd
    · cases hnew
  | poll i waker =>
    simp only [Sleeps.step, Option.bind_eq_bind, Option.bind_eq_some_iff] at hs
    obtain ⟨sleep, hsleep, sleep', hpoll, hs⟩ := hs
    cases hs
    exact h.poll hsleep hpoll
  | sleep i spurious =>
    simp only [Sleeps.step, Option.bind_eq_bind, Option.bind_eq_some_iff] at hs
    obtain ⟨sleep, hsleep, timer, hfd, hs⟩ := hs
    exact h.sleepStep hsleep hfd hfits hs
  | pollOnce j events =>
    rw [Sleeps.step, Option.ite_none_right_eq_some] at hs
    cases hs.2
    refine h.frame rfl (h.wheel.setPop trivial nofun) rfl (Nat.le_refl _) fun k hk => ?_
    rcases eq_or_ne k j with rfl | hne
    · simp [setPoll] at hk
    · have hk' : s.polls k = .idle := (Function.update_of_ne hne ..).symm.trans hk
      exact (setPop_of_ne _ _ hne).trans (h.polls k hk')
  | poller j =>
    obtain ⟨⟨m, poll⟩, hpoll, heq⟩ := Option.map_eq_some_iff.mp hs
    obtain ⟨hbusy, hwheel, -⟩ := MioPoller.pollOnceStep_wheel hpoll
    cases heq
    have hpolls : ∀ k, ({ s with poller := m }.setPoll j poll).polls k = .idle → k ≠ j ∧ s.polls k = .idle := by
      intro k hk
      rcases eq_or_ne k j with rfl | hne
      · exact absurd ((Function.update_self ..).symm.trans hk) hbusy
      · exact ⟨hne, (Function.update_of_ne hne ..).symm.trans hk⟩
    rcases hwheel with hsame | hpop
    · refine h.frame rfl ?_ ?_ ?_ fun k hk => ?_
      · exact hsame ▸ h.wheel
      · exact congrArg State.adds hsame
      · exact Nat.le_of_eq (congrArg State.clock hsame).symm
      · exact (congrFun (congrArg State.pops hsame) k).trans (h.polls k (hpolls k hk).2)
    · refine h.frame rfl (h.wheel.popStep hpop) (popStep_adds hpop) (Nat.le_of_eq (popStep_clock hpop).symm) fun k hk => ?_
      exact ((popStep_pops hpop).1 k (hpolls k hk).1).trans (h.polls k (hpolls k hk).2)

theorem sleepStep_wheel {spurious : Bool} (hs : sleepStep tickDuration s i spurious sleep timer = some s') :
    s'.poller.wheel = s.poller.wheel ∨ ∃ a, TimeWheel.step (tickDuration / 1000) s.poller.wheel a = some s'.poller.wheel := by
  unfold Sleeps.sleepStep at hs
  cases hstate : sleep.state with
  | created | pending | ready | panicked => simp [hstate] at hs
  | start waker | addWaker waker =>
    simp only [hstate, Option.some.injEq] at hs
    subst hs
    exact .inl rfl
  | newTimer waker =>
    simp only [hstate, Option.map_eq_some_iff] at hs
    obtain ⟨wheel, hwheel, rfl⟩ := hs
    exact .inr ⟨_, hwheel⟩
  | inNewTimer waker =>
    simp only [hstate] at hs
    split at hs
    · cases hs
      exact .inl rfl
    · cases hs
      exact .inl rfl
    · obtain ⟨wheel, hwheel, rfl⟩ := Option.map_eq_some_iff.mp hs
      exact .inr ⟨.add i spurious, hwheel⟩
  | isExpired waker =>
    simp only [hstate] at hs
    split at hs
    all_goals
      cases hs
      exact .inl rfl

/-- A step is one of the wheel, or leaves it. -/
theorem Timely.step_wheel {a : SleepsAction} (h : Timely tickDuration s) (hs : Sleeps.step tickDuration s a = some s') :
    s'.poller.wheel = s.poller.wheel ∨ ∃ a, TimeWheel.step (tickDuration / 1000) s.poller.wheel a = some s'.poller.wheel := by
  cases a with
  | wait nanos =>
    cases hs
    exact .inr ⟨.wait nanos, rfl⟩
  | new i expired =>
    rw [Sleeps.step, Option.ite_none_right_eq_some] at hs
    cases hs.2
    exact .inl rfl
  | poll i waker =>
    simp only [Sleeps.step, Option.bind_eq_bind, Option.bind_eq_some_iff] at hs
    obtain ⟨sleep, -, sleep', -, hs⟩ := hs
    cases hs
    exact .inl rfl
  | sleep i spurious =>
    simp only [Sleeps.step, Option.bind_eq_bind, Option.bind_eq_some_iff] at hs
    obtain ⟨sleep, -, timer, -, hs⟩ := hs
    exact sleepStep_wheel hs
  | pollOnce j events =>
    rw [Sleeps.step, Option.ite_none_right_eq_some] at hs
    obtain ⟨hidle, hs⟩ := hs
    cases hs
    exact .inr ⟨.nextTick j, if_pos (h.polls j hidle)⟩
  | poller j =>
    obtain ⟨⟨m, poll⟩, hpoll, heq⟩ := Option.map_eq_some_iff.mp hs
    cases heq
    exact (MioPoller.pollOnceStep_wheel hpoll).2.1.imp_right fun hpop => ⟨.pop j, hpop⟩

/-- A timer that is over stays so. -/
theorem Timely.over_step {a : SleepsAction} (h : Timely tickDuration s) (hs : Sleeps.step tickDuration s a = some s')
    (hover : Over s.poller.wheel i) : Over s'.poller.wheel i := by
  rcases h.step_wheel hs with heq | ⟨b, hb⟩
  · rwa [heq]
  · exact TimeWheel.over_step hb hover

theorem Timely.over_isExpired (h : Timely tickDuration s) (hover : Over s.poller.wheel i) :
    ∃ sleep timer, s.sleeps i = some sleep ∧ sleep.fd = some timer ∧ timer.startInstant ≠ .none ∧
      timer.isExpired s.poller.wheel.clock = some true := by
  have hbusy : s.poller.wheel.adds i ≠ .idle := by
    intro hidle
    rcases hover with htaken | hrefused
    · exact (h.wheel.fresh i hidle).2 htaken
    · rw [hidle] at hrefused
      cases hrefused
  obtain ⟨sleep, hsleep⟩ : ∃ sleep, s.sleeps i = some sleep :=
    Option.ne_none_iff_exists'.mp fun hnone => hbusy (h.none i hnone)
  obtain ⟨timer, startInstant, hfd, hstart⟩ := (h.sleeps i sleep hsleep).started (.inl hbusy)
  have hdeadline : startInstant + timer.duration ≤ s.poller.wheel.clock := by
    have hle : s.deadline i ≤ s.poller.wheel.clock := by
      rcases hover with ⟨j, hj⟩ | hrefused
      · exact (h.wheel.pops j).of_taken i hj
      · have hadd := h.wheel.adds i
        rw [hrefused] at hadd
        exact hadd
    rwa [deadline_of_sleep hsleep, hfd, Option.elim_some, MioTimer.deadline, hstart] at hle
  refine ⟨sleep, timer, hsleep, hfd, ?_, ?_⟩
  · rw [hstart]
    exact Option.some_ne_none _
  · rw [MioTimer.isExpired, hstart]
    exact if_pos (Nat.le_sub_of_add_le' hdeadline)

/-- From when `next_tick` has drained the timer of a sleep, or `new_timer` has refused it, `is_expired` is true, and a `poll`
    that asks it is ready; and `is_expired` is not true more than a tick before the time. -/
theorem wake_not_premature (tickDuration : Nat) (woken s : Sleeps) (i : Token)
    (hwoken : Reaches (step tickDuration) (fun s a => s.tickFits tickDuration a = true) {} woken)
    (h : Reaches (step tickDuration) (fun s a => s.tickFits tickDuration a = true) woken s) :
    (Over woken.poller.wheel i →
      ∃ sleep timer, s.sleeps i = some sleep ∧ sleep.fd = some timer ∧ timer.startInstant ≠ .none ∧
        timer.isExpired s.poller.wheel.clock = some true ∧
        ∀ waker spurious s', sleep.state = .isExpired waker → step tickDuration s (.sleep i spurious) = some s' →
          (s'.sleeps i).map Sleep.state = some .ready) ∧
    ∀ sleep timer, s.sleeps i = some sleep → sleep.fd = some timer → timer.isExpired s.poller.wheel.clock = some true →
      ∃ startInstant, timer.startInstant = some startInstant ∧
        startInstant + timer.duration - tickDuration ≤ s.poller.wheel.clock := by
  have hbefore : Timely tickDuration woken := hwoken.invariant .init fun h hfits hs => h.step hfits hs
  have hruns : Timely tickDuration s ∧ (Over woken.poller.wheel i → Over s.poller.wheel i) := by
    induction h with
    | refl => exact ⟨hbefore, id⟩
    | step _ hfits hs ih => exact ⟨ih.1.step hfits hs, fun hover => ih.1.over_step hs (ih.2 hover)⟩
  obtain ⟨htimely, hkept⟩ := hruns
  refine ⟨fun hover => ?_, fun sleep timer hsleep hfd hexpired => ?_⟩
  · obtain ⟨sleep, timer, hsleep, hfd, hstart, hexpired⟩ := htimely.over_isExpired (hkept hover)
    refine ⟨sleep, timer, hsleep, hfd, hstart, hexpired, fun waker spurious s' hstate hs => ?_⟩
    simp only [step, hsleep, hfd, Option.bind_eq_bind, Option.bind_some, sleepStep, hstate, hexpired, Option.some.injEq] at hs
    subst hs
    simp [Sleeps.setSleep]
  · cases hstart : timer.startInstant with
    | none => simp [MioTimer.isExpired, hstart] at hexpired
    | some startInstant =>
      obtain ⟨hle, htick⟩ := (htimely.sleeps i sleep hsleep).timer timer startInstant hfd hstart
      refine ⟨startInstant, rfl, ?_⟩
      rw [MioTimer.isExpired, hstart] at hexpired
      simp only [htick, Option.map_some] at hexpired
      split at hexpired
      · omega
      · have hnear : timer.duration - (s.poller.wheel.clock - startInstant) < tickDuration := by simpa using hexpired
        omega

/-- A sleep of one tick that starts within a tick is drained by the first `poll_once` after its slot, and expired. -/
theorem wake_not_premature_drained :
    ∃ s, Reaches (step 1000) (fun s a => s.tickFits 1000 a = true) {} s ∧ Over s.poller.wheel 0 ∧
      ∃ sleep timer, s.sleeps 0 = some sleep ∧ sleep.fd = some timer ∧ timer.isExpired s.poller.wheel.clock = some true := by
  obtain ⟨s, hs, hdrained⟩ : ∃ s, runIf (step 1000) (tickFits 1000) {}
      ([.wait 700, .new 0 1000, .poll 0 7] ++ List.replicate 13 (.sleep 0 false) ++ [.wait 1300, .pollOnce 0 []] ++
        List.replicate 5 (.poller 0)) = some s ∧ 0 ∈ (s.poller.wheel.pops 0).taken := ⟨_, rfl, by decide⟩
  have hreaches := Reaches.of_runIf _ (fun _ _ hfits => hfits) hs
  have hover : Over s.poller.wheel 0 := .inl ⟨0, hdrained⟩
  obtain ⟨sleep, timer, hsleep, hfd, -, hexpired, -⟩ := (wake_not_premature 1000 s s 0 hreaches .refl).1 hover
  exact ⟨s, hreaches, hover, sleep, timer, hsleep, hfd, hexpired⟩

end Sleeps

end Hala.Io
