import Hala.Theorems.Future.Batching

/-! A poll that finds the `FutureBatcher` closed leaves it counted.

`poll` takes itself out of `await_counter` where it returns an output and where the queue is empty. The two exits before,
at which it finds the batcher closed, do not: the next poll takes the one that has returned for a second poller. -/

namespace Hala.Batching
open Machine
variable {s s' : State}

/-- The counter counts the running poll and nothing else. -/
structure Counted (s : State) : Prop where
  notPanicked : s.poller ≠ .panicked
  counter : s.awaitCounter = s.poller.counted

theorem Counted.init : Counted {} where
  notPanicked := nofun
  counter := rfl

theorem Counted.frame (h : Counted s) (hpoller : s'.poller = s.poller) (hcounter : s'.awaitCounter = s.awaitCounter) :
    Counted s' where
  notPanicked := hpoller ▸ h.notPanicked
  counter := by rw [hcounter, hpoller, h.counter]

theorem Counted.callStep (h : Counted s) {c : Nat} {choice : Choice} (hs : CallCases c choice s s') : Counted s' := by
  cases hs with
  | _ => exact h.frame rfl rfl

/-- A step of the poll that leaves the counter. -/
theorem Counted.next (h : Counted s) (hcounter : s'.awaitCounter = s.awaitCounter) (hpanic : s'.poller ≠ .panicked)
    (hcounted : s'.poller.counted = s.poller.counted) : Counted s' where
  notPanicked := hpanic
  counter := by rw [hcounter, hcounted, h.counter]

theorem Counted.pollStep (h : Counted s) {choice : Choice} (hrestores : restores s (.next choice) = true)
    (hs : PollCases choice s s') : Counted s' := by
  cases hs with
  | foundClosed hp hclosed =>
    rw [restores] at hrestores
    rcases hp with ⟨waker, hp⟩ | ⟨id, hp⟩ | hp
    · simp [hp, hclosed] at hrestores
    · simp [hp, hclosed] at hrestores
    · exact h.next rfl nofun (by rw [hp]; rfl)
  | panicked hp hne =>
    rcases hp with ⟨fut, hp⟩ | hp
    · exact absurd (by rw [h.counter, hp]; rfl) hne
    · exact absurd (by rw [h.counter, hp]; rfl) hne
  | leftReady hp => exact ⟨nofun, rfl⟩
  | leftPending hp => exact ⟨nofun, rfl⟩
  | began hp | addedWaker hp | loadedHead hp | foundEmpty hp | foundTicket hp | lostClaim hp | claimed hp | emptiedSlot hp
  | stillOpen hp | notThere hp | tookFuture hp | ready hp | notReady hp | putBack hp | noWaker hp | foundWaker hp
  | lostExchange hp | tookWaker hp | returnedPending hp => exact h.next rfl nofun (by rw [hp]; rfl)

theorem Counted.step (h : Counted s) {a : Action} (hrestores : restores s a = true) (hs : step s a = some s') : Counted s' := by
  cases a with
  | push c =>
    rw [Batching.step, Option.ite_none_right_eq_some] at hs
    cases hs.2
    exact h.frame rfl rfl
  | wake c id =>
    rw [Batching.step, Option.ite_none_right_eq_some] at hs
    cases hs.2
    exact h.frame rfl rfl
  | close c =>
    rw [Batching.step, Option.ite_none_right_eq_some] at hs
    obtain ⟨-, hs⟩ := hs
    split at hs
    all_goals
      cases hs
      exact h.frame rfl rfl
  | call c choice => exact h.callStep (call_cases hs)
  | poll waker =>
    rw [Batching.step, Option.ite_none_right_eq_some] at hs
    obtain ⟨hidle, hs⟩ := hs
    cases hs
    have hzero : s.awaitCounter = 0 := by
      rw [h.counter, hidle]
      rfl
    refine ⟨?_, ?_⟩
    · simp [hzero]
    · simp [hzero, Poller.counted]
  | next choice => exact h.pollStep hrestores (poll_cases hs)

/-- The step that is not allowed: the poll has returned and is still counted. -/
theorem Counted.leftBehind (h : Counted s) {a : Action} (hrestores : restores s a = false) (hs : Batching.step s a = some s') :
    s'.poller = .idle ∧ s'.last = some .readyNone ∧ s'.awaitCounter = 1 := by
  cases a with
  | push | wake | close | call | poll => cases hrestores
  | next choice =>
    have hcount := h.counter
    rw [restores] at hrestores
    split at hrestores
    · next waker hp =>
      have hclosed : s.closed = true := by simpa using hrestores
      rw [Batching.step, Batching.pollStep, hp] at hs
      rw [hp] at hcount
      simp only [hclosed, if_true, Option.some.injEq] at hs
      subst hs
      exact ⟨rfl, rfl, hcount⟩
    · next id hp =>
      have hclosed : s.closed = true := by simpa using hrestores
      rw [Batching.step, Batching.pollStep, hp] at hs
      rw [hp] at hcount
      simp only [hclosed, if_true, Option.some.injEq] at hs
      subst hs
      exact ⟨rfl, rfl, hcount⟩
    · cases hrestores

/-- In every run in which no poll leaves where it finds the batcher closed early, no assertion fails, the counter is 0
    between the polls, and a poll that begins on a closed batcher returns `Ready(None)`; a poll that leaves there is the
    last one, and the next panics. -/
theorem counter_restored (s : State) (h : Reaches step (fun s a => restores s a = true) {} s) :
    s.poller ≠ .panicked ∧ (s.poller = .idle → s.awaitCounter = 0) ∧
    (s.poller = .idle → s.closed = true → ∀ waker choice,
      (run step s [.poll waker, .next choice]).map State.last = some (some .readyNone)) ∧
    ∀ a s', step s a = some s' → restores s a = false →
      s'.poller = .idle ∧ s'.last = some .readyNone ∧ s'.awaitCounter = 1 ∧
      ∀ waker, (step s' (.poll waker)).map State.poller = some .panicked := by
  have hc : Counted s := h.invariant .init fun hc hrestores hs => hc.step hrestores hs
  have hzero : s.poller = .idle → s.awaitCounter = 0 := by
    intro hidle
    rw [hc.counter, hidle]
    rfl
  refine ⟨hc.notPanicked, hzero, fun hidle hclosed waker choice => ?_, fun a s' hs hrestores => ?_⟩
  · simp [run, runIf, step, hidle, hzero hidle, pollStep, hclosed]
  · obtain ⟨hidle, hlast, hone⟩ := hc.leftBehind hrestores hs
    refine ⟨hidle, hlast, hone, fun waker => ?_⟩
    simp [step, hidle, hone]

/-- A batcher that is closed behind the last look at the queue. -/
theorem counter_restored_late :
    ∃ s, runIf step restores {} ([.poll 5] ++ List.replicate 5 (.next {}) ++ [.close 0, .next {}]) = some s ∧
      s.closed = true ∧ s.last = some .readyNone ∧ s.awaitCounter = 0 := by
  obtain ⟨s, hs, hclosed, hlast, hidle⟩ : ∃ s, runIf step restores {}
      ([.poll 5] ++ List.replicate 5 (.next {}) ++ [.close 0, .next {}]) = some s ∧ s.closed = true ∧
        s.last = some .readyNone ∧ s.poller = .idle := ⟨_, rfl, rfl, rfl, rfl⟩
  exact ⟨s, hs, hclosed, hlast, (counter_restored s (.of_runIf _ (fun _ _ hok => hok) hs)).2.1 hidle⟩

/-- The second poll of a closed batcher fails the assertion. -/
theorem second_poll_panics :
    ∃ s, run step {} [.close 0, .poll 5, .next {}] = some s ∧ s.poller = .idle ∧ s.last = some .readyNone ∧
      (step s (.poll 5)).map State.poller = some .panicked :=
  ⟨_, rfl, rfl, rfl, rfl⟩

end Hala.Batching
