import Hala.Future.Waits

/-! When an `EventMap` forgets nobody.

The map has one entry for an event, and only the first poll of a `Wait` writes it. A second `Wait` for the event and a
poll with another waker therefore leave a waiter that no notification finds. -/

namespace Hala.Waits
open Machine
variable {E : Type} {s s' : Waits E}

/-- Every waiting `Wait` has an entry with its own cell and the waker of its latest poll. -/
def Remembered (s : Waits E) : Prop :=
  ∀ w event waker, s.Waiting w event waker → s.map.wakers event = some { waker, reason := w }

/-- The condition on a step: a first poll finds nobody else waiting for its event, a later poll of one that waits comes
    with the waker of the poll before, and nobody is notified with `Reason::None`. -/
def Careful (s : Waits E) : WaitsAction E → Prop
  | .poll w waker =>
    match s.waits w with
    | some (event, .guarded) => ∀ w' waker', w' ≠ w → ¬s.Waiting w' event waker'
    | some (_, .pending waker') => s.map.reasons w = .none → waker = waker'
    | _ => True
  | .notifyOne _ reason | .notifyAll _ reason => reason ≠ .none
  | _ => True

/-- What a run keeps. A `Wait` that has been resolved has a reason. -/
structure Inv (s : Waits E) : Prop where
  remembered : s.Remembered
  ready : ∀ w event result, s.waits w = some (event, .ready result) → s.map.reasons w ≠ .none

theorem inv_init : Inv ({} : Waits E) := by
  constructor
  · rintro w event waker ⟨hwait, -⟩
    cases hwait
  · intro w event result hwait
    cases hwait

/-- A `Wait` goes on: it is remembered if it waits now, and has a reason if it is resolved. -/
theorem Inv.setWait {w : Cell} {event : E} {state : WaitState} (h : Inv s)
    (hwaiting : ∀ waker, state = .pending waker → s.map.reasons w = .none → s.map.wakers event = some { waker, reason := w })
    (hready : ∀ result, state = .ready result → s.map.reasons w ≠ .none) : Inv (s.setWait w event state) := by
  constructor
  · rintro w' event' waker' ⟨hwait, hnone⟩
    by_cases hw : w' = w
    · subst hw
      simp only [Waits.setWait, Function.update_self, Option.some.injEq, Prod.mk.injEq] at hwait
      obtain ⟨rfl, hstate⟩ := hwait
      exact hwaiting waker' hstate hnone
    · simp only [Waits.setWait, Function.update_of_ne hw] at hwait
      exact h.remembered w' event' waker' ⟨hwait, hnone⟩
  · intro w' event' result hwait
    by_cases hw : w' = w
    · subst hw
      simp only [Waits.setWait, Function.update_self, Option.some.injEq, Prod.mk.injEq] at hwait
      exact hready result hwait.2
    · simp only [Waits.setWait, Function.update_of_ne hw] at hwait
      exact h.ready w' event' result hwait

theorem load_eq_none_iff {m : WakerMap E} {w : Cell} : m.load w = none ↔ m.reasons w = .none := by
  unfold WakerMap.load
  split <;> simp_all

/-- The end of a poll. -/
theorem Inv.loaded {w : Cell} {event : E} {waker : TaskWaker} (h : Inv s)
    (hself : s.map.reasons w = .none → s.map.wakers event = some { waker, reason := w }) : Inv (s.loaded w event waker) := by
  unfold Waits.loaded
  rcases hload : s.map.load w with _ | result
  · refine h.setWait (fun waker' hwaker => ?_) (by simp)
    cases hwaker
    exact hself
  · refine h.setWait (by simp) fun _ _ => ?_
    rw [ne_eq, ← load_eq_none_iff, hload]
    simp

section
variable [DecidableEq E]

/-- A first poll overwrites the entry of the event, which is nobody else's. -/
theorem Inv.insert {w : Cell} {event : E} {waker : TaskWaker} (h : Inv s) (hwait : s.waits w = some (event, .guarded))
    (hnobody : ∀ w' waker', w' ≠ w → ¬s.Waiting w' event waker') :
    Inv { s with map := s.map.insert event { waker, reason := w } } := by
  refine ⟨?_, h.ready⟩
  rintro w' event' waker' ⟨hwait', hnone⟩
  have hw : w' ≠ w := by
    rintro rfl
    rw [hwait] at hwait'
    cases hwait'
  have he : event' ≠ event := by
    rintro rfl
    exact hnobody w' waker' hw ⟨hwait', hnone⟩
  simpa [WakerMap.insert, Function.update_of_ne he] using h.remembered w' event' waker' ⟨hwait', hnone⟩

theorem Inv.notifyOne {event : E} {reason : Reason} (h : Inv s) (hreason : reason ≠ .none) :
    Inv { s with map := (s.map.notifyOne event reason).1 } := by
  rcases hentry : s.map.wakers event with _ | entry
  · simpa [WakerMap.notifyOne, hentry] using h
  · have hmap : (s.map.notifyOne event reason).1 = ((s.map.remove event).store entry.reason reason).wake entry.waker := by
      simp [WakerMap.notifyOne, hentry]
    rw [hmap]
    have hreasons : ∀ w, Function.update s.map.reasons entry.reason reason w = .none → w ≠ entry.reason ∧ s.map.reasons w = .none := by
      intro w hnone
      by_cases hw : w = entry.reason
      · subst hw
        simp [hreason] at hnone
      · exact ⟨hw, by rwa [Function.update_of_ne hw] at hnone⟩
    constructor
    · rintro w event' waker ⟨hwait, hnone⟩
      obtain ⟨hw, hnone'⟩ := hreasons w hnone
      have hremembered := h.remembered w event' waker ⟨hwait, hnone'⟩
      have he : event' ≠ event := by
        rintro rfl
        rw [hentry, Option.some.injEq] at hremembered
        exact hw (congrArg WakerWithReason.reason hremembered).symm
      simpa [WakerMap.wake, WakerMap.store, WakerMap.remove, Function.update_of_ne he] using hremembered
    · intro w event' result hwait hnone
      exact h.ready w event' result hwait (hreasons w hnone).2

theorem Inv.notifyAll {events : List E} {reason : Reason} (h : Inv s) (hreason : reason ≠ .none) :
    Inv { s with map := s.map.notifyAll events reason } := by
  induction events generalizing s with
  | nil => exact h
  | cons event events ih => exact ih (h.notifyOne hreason)

theorem Inv.poll {w : Cell} {waker : TaskWaker} (h : Inv s) (hok : s.Careful (.poll w waker))
    (hs : s.poll w waker = some s') : Inv s' := by
  rcases hwait : s.waits w with _ | ⟨event, _ | waker' | result | _⟩
  · simp only [Waits.poll, hwait] at hs
    cases hs
  · simp only [Waits.poll, hwait] at hs
    simp only [Careful, hwait] at hok
    cases hs
    refine (h.insert hwait hok).loaded fun _ => ?_
    simp [WakerMap.insert]
  · simp only [Waits.poll, hwait] at hs
    simp only [Careful, hwait] at hok
    cases hs
    refine h.loaded fun hnone => ?_
    rw [hok hnone]
    exact h.remembered w event waker' ⟨hwait, hnone⟩
  · simp only [Waits.poll, hwait] at hs
    cases hs
    exact h.loaded fun hnone => absurd hnone (h.ready w event result hwait)
  · simp only [Waits.poll, hwait] at hs
    cases hs

theorem Inv.step {a : WaitsAction E} (h : Inv s) (hok : s.Careful a) (hs : s.step a = some s') : Inv s' := by
  cases a with
  | wait w event =>
    simp only [Waits.step] at hs
    split at hs <;> cases hs
    exact h.setWait (by simp) (by simp)
  | poll w waker => exact h.poll hok hs
  | notifyOne event reason =>
    cases hs
    exact h.notifyOne hok
  | notifyAll events reason =>
    cases hs
    exact h.notifyAll hok
  | drop w =>
    simp only [Waits.step] at hs
    split at hs <;> cases hs
    exact h.setWait (by simp) (by simp)

/-- In every run whose steps meet the condition, every live `Wait` whose latest poll returned `Pending` and whose reason
    is unset has an entry under its event, with its own cell and the waker of that poll. -/
theorem nobody_forgotten (s : Waits E) (h : Reaches step Careful {} s) (w : Cell) (event : E) (waker : TaskWaker)
    (hwaiting : s.Waiting w event waker) : s.map.wakers event = some { waker, reason := w } := by
  have hinv : Inv s := h.invariant inv_init fun hinv hok hs => hinv.step hok hs
  exact hinv.remembered w event waker hwaiting

end

/-- A `Wait` is polled, and polled again by the same task. -/
theorem nobody_forgotten_repolled :
    ∃ s : Waits Nat, run step {} [.wait 0 7, .poll 0 10, .poll 0 10] = some s ∧
      s.map.wakers 7 = some { waker := 10, reason := 0 } := by
  have hreaches : Reaches step Careful ({} : Waits Nat) _ := .refl
  have hreaches := hreaches.step (a := WaitsAction.wait 0 7) trivial rfl
  have halone : ∀ w' waker', w' ≠ 0 → ¬(({} : Waits Nat).setWait 0 7 .guarded).Waiting w' 7 waker' := by
    rintro w' waker' hw ⟨hwait, -⟩
    simp [setWait, Function.update_of_ne hw] at hwait
  have hreaches := hreaches.step (a := WaitsAction.poll 0 10) halone rfl
  have hreaches := hreaches.step (a := WaitsAction.poll 0 10) (fun _ => rfl) rfl
  exact ⟨_, rfl, nobody_forgotten _ hreaches 0 7 10 ⟨rfl, rfl⟩⟩

/-- Two tasks wait for the same event. -/
def sameEvent : List (WaitsAction Nat) := [.wait 0 7, .poll 0 10, .wait 1 7, .poll 1 11]

/-- The entry of the first is gone. -/
theorem first_forgotten :
    ∃ s : Waits Nat, Reachable step {} s ∧ s.Waiting 0 7 10 ∧ s.map.wakers 7 ≠ some { waker := 10, reason := 0 } :=
  ⟨_, Reachable.of_run sameEvent rfl, ⟨rfl, rfl⟩, by decide⟩

end Hala.Waits
