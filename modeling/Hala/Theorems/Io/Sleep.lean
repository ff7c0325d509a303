import Hala.Io.Sleep
import Hala.Theorems.Lockfree.TimeWheel

/-! A `Sleep` is woken by the event of its timer, as long as no `poll` stores its waker behind the back of the
`poll_once` that looks for it.

The wheel hands a timer out once, and a `poll_once` that finds no waker for it goes on. So everything rests on the
order of two accesses to `read_wakers`. `is_expired`, which a `poll` evaluates before its own, does not decide it: the
clock can go on in between. -/

namespace Hala.Io
open Machine

namespace Sleeps
variable {s t : Sleeps} {i j : Nat} {waker : Waker}

/-- Whoever waits can be found, and nobody has been looked for in vain. -/
structure Inv (s : Sleeps) : Prop where
  idle : ∀ j, s.polls j = .idle → s.poller.wheel.pops j = .idle
  pending : ∀ i waker, s.Pending i waker → s.poller.readWakers i = some waker ∨ s.Rung i waker
  looked : ∀ i waker, s.Looked i → s.poller.readWakers i = some waker → s.Rung i waker

theorem inv_init : Inv {} := by
  refine ⟨fun _ _ => rfl, ?_, ?_⟩
  · rintro i waker ⟨sleep, hsleep, -⟩
    cases hsleep
  · rintro i waker - hread
    cases hread

/-! ### What a step leaves alone -/

/-- A step that stores no waker, and wakes those that it removes. -/
theorem Inv.frame (hinv : Inv s) (hidle : ∀ j, t.polls j = .idle → t.poller.wheel.pops j = .idle)
    (hpending : ∀ i waker, t.Pending i waker → s.Pending i waker)
    (hkept : ∀ i waker, s.poller.readWakers i = some waker → t.poller.readWakers i = some waker ∨ t.Rung i waker)
    (hstored : ∀ i waker, t.poller.readWakers i = some waker → s.poller.readWakers i = some waker)
    (hlooked : ∀ i, t.Looked i → s.Looked i ∨ t.poller.readWakers i = none)
    (hrung : ∀ i waker, s.Rung i waker → t.Rung i waker) : Inv t := by
  refine ⟨hidle, ?_, ?_⟩
  · intro i waker h
    obtain hread | hr := hinv.pending i waker (hpending i waker h)
    · exact hkept i waker hread
    · exact .inr (hrung i waker hr)
  · intro i waker h hread
    obtain hl | hnone := hlooked i h
    · exact hrung i waker (hinv.looked i waker hl (hstored i waker hread))
    · rw [hnone] at hread
      cases hread

/-- A step of a sleep, or of its call of `new_timer`. -/
theorem Inv.frameSleep (hinv : Inv s) (hpolls : t.polls = s.polls) (hpops : t.poller.wheel.pops = s.poller.wheel.pops)
    (hread : t.poller.readWakers = s.poller.readWakers) (hwoken : t.poller.woken = s.poller.woken)
    (hpending : ∀ i waker, t.Pending i waker → s.Pending i waker) : Inv t := by
  refine hinv.frame ?_ hpending ?_ ?_ ?_ ?_
  · rw [hpolls, hpops]
    exact hinv.idle
  · intro i waker h
    exact .inl (by rwa [hread])
  · intro i waker h
    rwa [hread] at h
  · intro i h
    simp only [Looked, Unseen, TimeWheel.ReturnedBy, hpolls, hpops] at h
    exact .inl h
  · intro i waker h
    simpa only [Rung, hpolls, hwoken] using h

theorem pending_setSleep {sleep : Sleep} (hsleep : ∀ waker, sleep.state ≠ .pending waker)
    (h : (s.setSleep i sleep).Pending j waker) : s.Pending j waker := by
  obtain ⟨sleep', hsleep', hstate⟩ := h
  by_cases hj : j = i
  · subst hj
    simp only [setSleep, Function.update_self, Option.some.injEq] at hsleep'
    subst hsleep'
    exact absurd hstate (hsleep waker)
  · simp only [setSleep, Function.update_of_ne hj] at hsleep'
    exact ⟨sleep', hsleep', hstate⟩

theorem Inv.setSleep (hinv : Inv s) {sleep : Sleep} (hsleep : ∀ waker, sleep.state ≠ .pending waker) :
    Inv (s.setSleep i sleep) :=
  hinv.frameSleep rfl rfl rfl rfl fun _ _ h => pending_setSleep hsleep h

theorem Inv.setWheel (hinv : Inv s) {wheel : TimeWheel.State} (hpops : wheel.pops = s.poller.wheel.pops) :
    Inv (s.setWheel wheel) :=
  hinv.frameSleep rfl hpops rfl rfl fun _ _ h => h

/-- A `poll` stores its waker. -/
theorem Inv.addWaker (hinv : Inv s) {sleep : Sleep} (hsleep : sleep.state = .pending waker)
    (hin : s.Looked i → s.Rung i waker) :
    Inv ({ s with poller := s.poller.addWaker i .onlyReadable waker }.setSleep i sleep) := by
  refine ⟨hinv.idle, ?_, ?_⟩
  · rintro k w ⟨sleep', hsleep', hstate⟩
    by_cases hk : k = i
    · subst hk
      simp only [Sleeps.setSleep, Function.update_self, Option.some.injEq] at hsleep'
      subst hsleep'
      rw [hsleep] at hstate
      cases hstate
      exact .inl (Function.update_self ..)
    · simp only [Sleeps.setSleep, Function.update_of_ne hk] at hsleep'
      obtain hread | hrung := hinv.pending k w ⟨sleep', hsleep', hstate⟩
      · exact .inl ((Function.update_of_ne hk ..).trans hread)
      · exact .inr hrung
  · intro k w hlooked hread
    have hread : Function.update s.poller.readWakers i (some waker) k = some w := hread
    by_cases hk : k = i
    · subst hk
      rw [Function.update_self] at hread
      cases hread
      exact hin hlooked
    · rw [Function.update_of_ne hk] at hread
      exact hinv.looked k w hlooked hread

/-! ### `poll_once` -/

/-- A step of a `poll_once`: the other ones see the wheel as before. What it has got from the wheel it has looked for
    before, or it finds no waker for it any more. -/
theorem Inv.framePoll (hinv : Inv s) {poller : MioPoller} {poll : PollOnce}
    (hpops : ∀ k, k ≠ j → poller.wheel.pops k = s.poller.wheel.pops k) (hbusy : poll ≠ .idle)
    (hkept : ∀ i waker, s.poller.readWakers i = some waker →
      poller.readWakers i = some waker ∨ poll.waking? = some (i, waker))
    (hstored : ∀ i waker, poller.readWakers i = some waker → s.poller.readWakers i = some waker)
    (hlooked : ∀ i, TimeWheel.ReturnedBy poller.wheel j i → (∀ events, poll ≠ .tick events) → i ∉ poll.unread →
      s.Looked i ∨ poller.readWakers i = none)
    (hwoken : ∀ key ∈ s.poller.woken, key ∈ poller.woken)
    (hwaking : ∀ key, (s.polls j).waking? = some key → key ∈ poller.woken) : Inv ({ s with poller }.setPoll j poll) := by
  have hself : ({ s with poller }.setPoll j poll).polls j = poll := Function.update_self ..
  have hother : ∀ k, k ≠ j → ({ s with poller }.setPoll j poll).polls k = s.polls k := fun k hk => Function.update_of_ne hk ..
  refine hinv.frame ?_ (fun _ _ h => h) ?_ hstored ?_ ?_
  · intro k hk
    by_cases hkj : k = j
    · subst hkj
      rw [hself] at hk
      exact absurd hk hbusy
    · rw [hother k hkj] at hk
      exact (hpops k hkj).trans (hinv.idle k hk)
  · intro i waker h
    obtain h | h := hkept i waker h
    · exact .inl h
    · exact .inr (.inr ⟨j, by rwa [hself]⟩)
  · rintro i ⟨k, ⟨timers, htimers, hi⟩, hseen⟩
    by_cases hkj : k = j
    · subst hkj
      rw [Unseen, hself, not_or] at hseen
      refine hlooked i ⟨timers, htimers, hi⟩ ?_ hseen.2
      intro events hevents
      exact hseen.1 ⟨events, hevents⟩
    · refine .inl ⟨k, ⟨timers, (hpops k hkj).symm.trans htimers, hi⟩, ?_⟩
      rwa [Unseen, hother k hkj] at hseen
  · rintro i waker (h | ⟨k, h⟩)
    · exact .inl (hwoken _ h)
    · by_cases hkj : k = j
      · subst hkj
        exact .inl (hwaking _ h)
      · exact .inr ⟨k, by rwa [hother k hkj]⟩

/-- A step that neither touches the wheel nor the read wakers, and has no event behind it that was before it. -/
theorem Inv.passPoll (hinv : Inv s) {poller : MioPoller} {poll : PollOnce} (hwheel : poller.wheel = s.poller.wheel)
    (hread : poller.readWakers = s.poller.readWakers) (hbusy : poll ≠ .idle) (htick : ∀ events, s.polls j ≠ .tick events)
    (hunread : ∀ i ∈ (s.polls j).unread, i ∈ poll.unread ∨ poller.readWakers i = none)
    (hwoken : ∀ key ∈ s.poller.woken, key ∈ poller.woken)
    (hwaking : ∀ key, (s.polls j).waking? = some key → key ∈ poller.woken) : Inv ({ s with poller }.setPoll j poll) := by
  refine hinv.framePoll (fun k _ => by rw [hwheel]) hbusy ?_ ?_ ?_ hwoken hwaking
  · intro i waker h
    exact .inl (by rwa [hread])
  · intro i waker h
    rwa [hread] at h
  · intro i hreturned _ hseen
    rw [hwheel] at hreturned
    by_cases hi : i ∈ (s.polls j).unread
    · exact .inr ((hunread i hi).resolve_left hseen)
    · refine .inl ⟨j, hreturned, ?_⟩
      rintro (⟨events, h⟩ | h)
      · exact htick events h
      · exact hi h

/-- Someone is woken; if the waker was one for reading, it is that one. -/
theorem Inv.wakePoll (hinv : Inv s) {woken : Token × Waker} {poll : PollOnce} (hbusy : poll ≠ .idle)
    (htick : ∀ events, s.polls j ≠ .tick events) (hunread : poll.unread = (s.polls j).unread)
    (hwaking : ∀ key, (s.polls j).waking? = some key → key = woken) :
    Inv ({ s with poller := { s.poller with woken := woken :: s.poller.woken } }.setPoll j poll) := by
  refine hinv.passPoll rfl rfl hbusy htick ?_ ?_ ?_
  · intro i hi
    exact .inl (hunread ▸ hi)
  · intro key hkey
    exact List.mem_cons_of_mem _ hkey
  · intro key hkey
    rw [hwaking key hkey]
    exact List.mem_cons_self

/-- `next_tick` goes on, or hands its timers over to the loop. -/
theorem inv_tick {tickDuration : Nat} {poller : MioPoller} {poll : PollOnce} {events : List (Token × Interest)}
    (hinv : Inv s) (hpoll : s.polls j = .tick events)
    (h : s.poller.pollOnceStep tickDuration j (.tick events) = some (poller, poll)) :
    Inv ({ s with poller }.setPoll j poll) := by
  have hwaking : ∀ key, (s.polls j).waking? = some key → key ∈ s.poller.woken := by
    intro key hkey
    rw [hpoll] at hkey
    cases hkey
  have hover : ∀ poll : PollOnce, poll ≠ .idle → (∀ i, TimeWheel.ReturnedBy s.poller.wheel j i → i ∈ poll.unread) →
      Inv ({ s with poller := s.poller }.setPoll j poll) := by
    intro poll hbusy hreturned
    refine hinv.framePoll (fun _ _ => rfl) hbusy (fun _ _ h => .inl h) (fun _ _ h => h) ?_ (fun _ h => h) hwaking
    intro i hi _ hseen
    exact absurd (hreturned i hi) hseen
  simp only [MioPoller.pollOnceStep] at h
  split at h
  · next hpop =>
    cases h
    refine hover _ (by simp) ?_
    rintro i ⟨timers, htimers, -⟩
    rw [hpop] at htimers
    cases htimers
  · next timers hpop =>
    cases h
    refine hover _ (by simp) ?_
    rintro i ⟨timers', htimers, hi⟩
    rw [hpop] at htimers
    cases htimers
    simp [PollOnce.unread, Interest.onlyReadable, hi]
  · next hpop =>
    cases h
    refine hover _ (by simp) ?_
    rintro i ⟨timers, htimers, -⟩
    rw [hpop] at htimers
    cases htimers
  · obtain ⟨wheel, hwheel, hstep⟩ := Option.map_eq_some_iff.mp h
    cases hstep
    refine hinv.framePoll (TimeWheel.popStep_pops hwheel).1 (by simp) (fun _ _ h => .inl h) (fun _ _ h => h) ?_
      (fun _ h => h) hwaking
    intro i _ htick
    exact absurd rfl (htick events)

/-- The loop looks for the read waker of the next event. -/
theorem inv_read {tickDuration : Nat} {poller : MioPoller} {poll : PollOnce} {events : List (Token × Interest)}
    (hinv : Inv s) (hpoll : s.polls j = .read events)
    (h : s.poller.pollOnceStep tickDuration j (.read events) = some (poller, poll)) :
    Inv ({ s with poller }.setPoll j poll) := by
  have htick : ∀ events, s.polls j ≠ .tick events := by simp [hpoll]
  have hwaking : ∀ key, (s.polls j).waking? = some key → key ∈ s.poller.woken := by
    intro key hkey
    rw [hpoll] at hkey
    cases hkey
  obtain _ | ⟨event, events⟩ := events
  · cases h
    refine hinv.passPoll rfl rfl (by simp) htick ?_ (fun _ h => h) hwaking
    intro i hi
    rw [hpoll] at hi
    cases hi
  · have hunread : ∀ i ∈ (s.polls j).unread, (event.2.readable = true ∧ i = event.1) ∨ i ∈ (PollOnce.write event events).unread := by
      intro i hi
      rw [hpoll] at hi
      simp only [PollOnce.unread, List.filter_cons] at hi ⊢
      split at hi
      · next hreadable =>
        rw [List.map_cons, List.mem_cons] at hi
        exact hi.imp_left fun h => ⟨hreadable, h⟩
      · exact .inr hi
    simp only [MioPoller.pollOnceStep] at h
    split at h
    · split at h
      · next hnone =>
        cases h
        refine hinv.passPoll rfl rfl (by simp) htick ?_ (fun _ h => h) hwaking
        intro i hi
        obtain ⟨-, rfl⟩ | hi := hunread i hi
        · exact .inr hnone
        · exact .inl hi
      · next waker hsome =>
        cases h
        refine hinv.framePoll (fun _ _ => rfl) (by simp) ?_ ?_ ?_ (fun _ h => h) hwaking
        · intro i w hread
          by_cases hi : i = event.1
          · subst hi
            rw [hsome] at hread
            cases hread
            exact .inr rfl
          · exact .inl ((Function.update_of_ne hi ..).trans hread)
        · intro i w hread
          by_cases hi : i = event.1
          · subst hi
            simp only [Function.update_self] at hread
            cases hread
          · simpa only [Function.update_of_ne hi] using hread
        · intro i hreturned _ hseen
          by_cases hi : i ∈ (s.polls j).unread
          · obtain ⟨-, rfl⟩ | hi := hunread i hi
            · exact .inr (Function.update_self ..)
            · exact absurd hi hseen
          · refine .inl ⟨j, hreturned, ?_⟩
            rintro (⟨events, h⟩ | h)
            · exact htick events h
            · exact hi h
    · next hreadable =>
      cases h
      refine hinv.passPoll rfl rfl (by simp) htick ?_ (fun _ h => h) hwaking
      intro i hi
      obtain ⟨h, -⟩ | hi := hunread i hi
      · exact absurd h hreadable
      · exact .inl hi

theorem inv_pollOnceStep {tickDuration : Nat} {poller : MioPoller} {poll : PollOnce} (hinv : Inv s)
    (h : s.poller.pollOnceStep tickDuration j (s.polls j) = some (poller, poll)) :
    Inv ({ s with poller }.setPoll j poll) := by
  unfold MioPoller.pollOnceStep at h
  cases hpoll : s.polls j with
  | idle => simp [hpoll] at h
  | done => simp [hpoll] at h
  | panicked => simp [hpoll] at h
  | tick events =>
    simp only [hpoll] at h
    exact inv_tick hinv hpoll h
  | read events =>
    simp only [hpoll] at h
    exact inv_read hinv hpoll h
  | wakeRead event waker events =>
    simp only [hpoll, Option.some.injEq, Prod.mk.injEq] at h
    obtain ⟨rfl, rfl⟩ := h
    refine hinv.wakePoll (by simp) (by simp [hpoll]) (by rw [hpoll]; rfl) ?_
    intro key hkey
    rw [hpoll] at hkey
    cases hkey
    rfl
  | write event events =>
    have hpass : ∀ (poller : MioPoller) (poll : PollOnce), poller.wheel = s.poller.wheel →
        poller.readWakers = s.poller.readWakers → poller.woken = s.poller.woken → poll ≠ .idle →
        poll.unread = (s.polls j).unread → Inv ({ s with poller }.setPoll j poll) := by
      intro poller poll hwheel hread hwoken hbusy hunread
      refine hinv.passPoll hwheel hread hbusy (by simp [hpoll]) ?_ ?_ ?_
      · intro i hi
        exact .inl (hunread ▸ hi)
      · intro key hkey
        rwa [hwoken]
      · intro key hkey
        rw [hpoll] at hkey
        cases hkey
    simp only [hpoll] at h
    split at h
    · split at h
      all_goals
        cases h
        exact hpass _ _ rfl rfl rfl (by simp) (by rw [hpoll]; rfl)
    · cases h
      exact hpass _ _ rfl rfl rfl (by simp) (by rw [hpoll]; rfl)
  | wakeWrite event waker events =>
    simp only [hpoll, Option.some.injEq, Prod.mk.injEq] at h
    obtain ⟨rfl, rfl⟩ := h
    refine hinv.wakePoll (by simp) (by simp [hpoll]) (by rw [hpoll]; rfl) ?_
    intro key hkey
    rw [hpoll] at hkey
    cases hkey

/-! ### `Sleep::poll` -/

theorem poll_state {sleep sleep' : Sleep} (h : poll sleep waker = some sleep') : ∀ w, sleep'.state ≠ .pending w := by
  unfold poll at h
  repeat' split at h
  all_goals
    cases h
  all_goals
    intro w hw
    cases hw

theorem inv_sleepStep {tickDuration : Nat} {spurious : Bool} {sleep : Sleep} {timer : MioTimer} (hinv : Inv s)
    (hin : ∀ waker, sleep.state = .addWaker waker → s.Looked i → s.Rung i waker)
    (h : sleepStep tickDuration s i spurious sleep timer = some t) : Inv t := by
  unfold sleepStep at h
  cases hstate : sleep.state with
  | created => simp [hstate] at h
  | pending waker => simp [hstate] at h
  | ready => simp [hstate] at h
  | panicked => simp [hstate] at h
  | start waker =>
    simp only [hstate, Option.some.injEq] at h
    subst h
    exact hinv.setSleep (by simp)
  | newTimer waker =>
    simp only [hstate, Option.map_eq_some_iff] at h
    obtain ⟨wheel, hwheel, rfl⟩ := h
    exact (hinv.setWheel (TimeWheel.newTimer_pops hwheel)).setSleep (by simp)
  | inNewTimer waker =>
    simp only [hstate] at h
    split at h
    · cases h
      exact hinv.setSleep (by simp)
    · cases h
      exact hinv.setSleep (by simp)
    · obtain ⟨wheel, hwheel, rfl⟩ := Option.map_eq_some_iff.mp h
      exact hinv.setWheel (TimeWheel.addStep_pops hwheel)
  | isExpired waker =>
    simp only [hstate] at h
    split at h
    all_goals
      cases h
      exact hinv.setSleep (by simp)
  | addWaker waker =>
    simp only [hstate, Option.some.injEq] at h
    subst h
    exact hinv.addWaker rfl (hin waker hstate)

theorem inv_step {tickDuration : Nat} {a : SleepsAction} (hinv : Inv s) (hin : s.InTime a)
    (h : step tickDuration s a = some t) : Inv t := by
  cases a with
  | wait nanos =>
    cases h
    exact hinv.setWheel rfl
  | new i expired =>
    simp only [step, Option.ite_none_right_eq_some, Option.some.injEq] at h
    obtain ⟨-, rfl⟩ := h
    exact hinv.setSleep (by simp)
  | poll i waker =>
    simp only [step, Option.bind_eq_bind, Option.bind_eq_some_iff] at h
    obtain ⟨sleep, -, sleep', hpoll, h⟩ := h
    cases h
    exact hinv.setSleep (poll_state hpoll)
  | sleep i spurious =>
    simp only [step, Option.bind_eq_bind, Option.bind_eq_some_iff] at h
    obtain ⟨sleep, hsleep, timer, -, h⟩ := h
    exact inv_sleepStep hinv (fun waker hstate => hin sleep waker hsleep hstate) h
  | pollOnce j events =>
    simp only [step, Option.ite_none_right_eq_some, Option.some.injEq] at h
    obtain ⟨hidle, rfl⟩ := h
    refine hinv.framePoll ?_ (by simp [MioPoller.pollOnce]) (fun _ _ h => .inl h) (fun _ _ h => h) ?_ (fun _ h => h) ?_
    · intro k hk
      exact TimeWheel.setPop_of_ne _ _ hk
    · intro i _ htick
      exact absurd rfl (htick _)
    · intro key hkey
      rw [hidle] at hkey
      cases hkey
  | poller j =>
    simp only [step, Option.map_eq_some_iff] at h
    obtain ⟨⟨poller, poll⟩, hpoll, rfl⟩ := h
    exact inv_pollOnceStep hinv hpoll

/-- A sleep whose timer has been drained and whose event has been processed has been woken, if no `poll` has stored its
    waker after a `poll_once` had looked for it and not found it. -/
theorem sleep_woken (tickDuration : Nat) (s : Sleeps) (h : Reaches (step tickDuration) InTime {} s) (i : Token)
    (waker : Waker) (hprocessed : s.Processed i) (hpending : s.Pending i waker) : (i, waker) ∈ s.poller.woken := by
  have hinv : Inv s := h.invariant inv_init fun hinv hin hstep => inv_step hinv hin hstep
  have hrung : s.Rung i waker := by
    obtain hread | hrung := hinv.pending i waker hpending
    · exact hinv.looked i waker hprocessed.1 hread
    · exact hrung
  obtain hwoken | ⟨j, hwaking⟩ := hrung
  · exact hwoken
  · exact absurd hwaking ((hprocessed.2 j).2 waker)

/-! ### Two runs

The tick is a microsecond long, and the sleep three of them. -/

/-- The first `poll` of sleep 0 up to the storing of its waker. -/
def untilAddWaker : List SleepsAction := [.new 0 3000, .poll 0 7] ++ List.replicate 12 (.sleep 0 false)

/-- Four microseconds pass, and a `poll_once` runs for so many steps. -/
def lateTick (steps : Nat) : List SleepsAction := [.wait 4000, .pollOnce 0 []] ++ List.replicate steps (.poller 0)

theorem processed_of_done (hpop : s.poller.wheel.pops 0 = .done (some [0])) (hpoll : s.polls 0 = .done)
    (hpolls : ∀ n, s.polls (n + 1) = .idle) : s.Processed 0 := by
  have hseen : ∀ j, ¬s.Unseen j 0 ∧ ∀ waker, (s.polls j).waking? ≠ some (0, waker) := by
    intro j
    obtain _ | n := j
    · simp [Unseen, hpoll, PollOnce.unread, PollOnce.waking?]
    · simp [Unseen, hpolls n, PollOnce.unread, PollOnce.waking?]
  exact ⟨⟨0, ⟨[0], hpop, List.mem_cons_self⟩, (hseen 0).1⟩, fun j => ⟨fun _ => (hseen j).1, (hseen j).2⟩⟩

/-- No waker is stored in the step. -/
def storesNone (s : Sleeps) : SleepsAction → Bool
  | .sleep i _ => (s.sleeps i).all fun sleep => match sleep.state with | .addWaker _ => false | _ => true
  | _ => true

theorem inTime_of_storesNone {a : SleepsAction} (h : storesNone s a = true) : s.InTime a := by
  cases a with
  | sleep i spurious =>
    intro sleep waker hsleep hstate
    simp [storesNone, hsleep, hstate] at h
  | _ => trivial

theorem sleep_woken_inTime :
    ∃ s, Reaches (step 1000) InTime {} s ∧ s.Processed 0 ∧ s.Pending 0 7 ∧ (0, 7) ∈ s.poller.woken := by
  obtain ⟨s₁, s₂, s, hrun₁, hpops, hstep, hrun₂, hpop, hpoll, hpolls, hsleep⟩ :
      ∃ s₁ s₂ s, runIf (step 1000) storesNone {} untilAddWaker = some s₁ ∧ (∀ j, s₁.poller.wheel.pops j = .idle) ∧
        step 1000 s₁ (.sleep 0 false) = some s₂ ∧ runIf (step 1000) storesNone s₂ (lateTick 13) = some s ∧
        s.poller.wheel.pops 0 = .done (some [0]) ∧ s.polls 0 = .done ∧ (∀ n, s.polls (n + 1) = .idle) ∧
        (s.sleeps 0).map Sleep.state = some (.pending 7) :=
    ⟨_, _, _, rfl, fun _ => rfl, rfl, rfl, rfl, rfl, fun _ => rfl, rfl⟩
  -- Nobody has called `poll_once` when the waker is stored.
  have hin : s₁.InTime (.sleep 0 false) := by
    rintro sleep waker - - ⟨j, ⟨timers, htimers, -⟩, -⟩
    rw [hpops] at htimers
    cases htimers
  have hreaches : Reaches (step 1000) InTime {} s := by
    have hreaches := Reaches.of_runIf untilAddWaker (fun _ _ => inTime_of_storesNone) hrun₁
    exact Reaches.of_runIf_from (hreaches.step hin hstep) (fun _ _ => inTime_of_storesNone) hrun₂
  have hprocessed := processed_of_done hpop hpoll hpolls
  have hpending : s.Pending 0 7 := Option.map_eq_some_iff.mp hsleep
  exact ⟨s, hreaches, hprocessed, hpending, sleep_woken 1000 s hreaches 0 7 hprocessed hpending⟩

/-- The sleep waits with its waker in the map, and its event is over. -/
theorem sleep_missed :
    ∃ s, Reachable (step 1000) {} s ∧ s.Processed 0 ∧ s.Pending 0 7 ∧ s.poller.woken = [] := by
  obtain ⟨s, hrun, hpop, hpoll, hpolls, hsleep, hwoken⟩ :
      ∃ s, run (step 1000) {} (untilAddWaker ++ lateTick 12 ++ [.sleep 0 false]) = some s ∧
        s.poller.wheel.pops 0 = .done (some [0]) ∧ s.polls 0 = .done ∧ (∀ n, s.polls (n + 1) = .idle) ∧
        (s.sleeps 0).map Sleep.state = some (.pending 7) ∧ s.poller.woken = [] :=
    ⟨_, rfl, rfl, rfl, fun _ => rfl, rfl, rfl⟩
  exact ⟨s, Reachable.of_run _ hrun, processed_of_done hpop hpoll hpolls, Option.map_eq_some_iff.mp hsleep, hwoken⟩

end Sleeps

end Hala.Io
