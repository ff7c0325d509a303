import Hala.Lockfree.TimeWheel

/-! `HashedTimeWheel` (`crates/lockfree/src/timewheel.rs`) with calls that are made one at a time.

A call is one step. The wheel counts its ticks in whole microseconds: `new` keeps `tick_duration.as_micros()`. -/

namespace Hala.TimeWheel

/-- What a call comes to. -/
inductive Outcome (α : Type) where
  | returned (a : α)
  | panicked
  deriving DecidableEq, Repr

structure Wheel where
  ticks : Nat := 0
  timers : Nat → Option (List Timer) := fun _ => none
  timerCount : Nat := 0

/-- The length of a tick, for a `Duration` in nanoseconds. -/
def tickMicros (tickDuration : Nat) : Nat := tickDuration / 1000

namespace Wheel

def pushTimer (w : Wheel) (t : Nat) (timer : Timer) : Wheel :=
  { w with timers := Function.update w.timers t (some ((w.timers t).getD [] ++ [timer])) }

def removeSlot (w : Wheel) (t : Nat) : Wheel := { w with timers := Function.update w.timers t none }

/-- `new_timer`; the last check is the one in the second `fetch_update`. -/
def newTimer (tick now : Nat) (w : Wheel) (timer : Timer) (duration : Nat) : Outcome (Option Nat) × Wheel :=
  match tickOf tick (now + duration) with
  | none => (.panicked, w)
  | some ticks =>
    if w.ticks > ticks then (.returned none, w)
    else
      let w := w.pushTimer ticks timer
      if w.ticks > ticks ∧ w.timers ticks ≠ none then (.returned none, w.removeSlot ticks)
      else if w.ticks > ticks ∧ w.timers ticks ≠ none then (.returned none, w.removeSlot ticks)
      else (.returned (some ticks), { w with timerCount := (w.timerCount + 1) % 2 ^ 64 })

/-- `timers()`; the map has its name here. -/
def aliveTimers (w : Wheel) : Nat := w.timerCount

/-- The loop of `next_tick` over `n` slots from slot `i` on. -/
def drainSlots : (timers : Nat → Option (List Timer)) → (i n : Nat) → List Timer × (Nat → Option (List Timer))
  | timers, _, 0 => ([], timers)
  | timers, i, n + 1 =>
    let (rest, left) := drainSlots (Function.update timers i none) (i + 1) n
    ((timers i).getD [] ++ rest, left)

/-- `next_tick`; `compare_exchange` finds what was loaded. -/
def nextTick (tick now : Nat) (w : Wheel) : Outcome (Option (List Timer)) × Wheel :=
  match tickOf tick now with
  | none => (.panicked, w)
  | some ticks =>
    if ticks < w.ticks then (.panicked, w)
    else if w.ticks = ticks then (.returned none, w)
    else
      let (timeoutTimers, timers) := drainSlots w.timers w.ticks (ticks - w.ticks)
      (.returned (some timeoutTimers), { w with ticks, timers })

end Wheel

/-- The wheel of the machine that takes one atomic access at a time. -/
def State.wheel (s : State) : Wheel where
  ticks := s.ticks
  timers := s.timers
  timerCount := s.timerCount

def State.setWheel (s : State) (w : Wheel) : State :=
  { s with ticks := w.ticks, timers := w.timers, timerCount := w.timerCount }

/-- A step of call `i` of `new_timer`. -/
def Action.ofAdd (i : Nat) : Action → Bool
  | .newTimer k _ | .add k _ => k == i
  | _ => false

/-- A step of call `j` of `next_tick`. -/
def Action.ofPop (j : Nat) : Action → Bool
  | .nextTick k | .pop k => k == j
  | _ => false

/-- Where a call of `new_timer` stands that has come to its end. -/
def Outcome.add : Outcome (Option Nat) → Add
  | .returned result => .done result
  | .panicked => .panicked

/-- Where a call of `next_tick` stands that has come to its end. -/
def Outcome.pop : Outcome (Option (List Timer)) → Pop
  | .returned result => .done result
  | .panicked => .panicked

/-- A wheel under a clock; the timer of a call of `new_timer` is the number of calls before it. -/
structure Calls where
  clock : Nat := 0
  wheel : Wheel := {}
  added : Nat := 0

inductive CallAction where
  | wait (nanos : Nat)
  | newTimer (duration : Nat)
  | nextTick
  deriving DecidableEq, Repr

/-- A call, the time at which it reads the clock, and what it comes to. -/
inductive CallEvent where
  | added (timer : Timer) (now duration : Nat) (result : Outcome (Option Nat))
  | ticked (now : Nat) (result : Outcome (Option (List Timer)))
  deriving DecidableEq, Repr

namespace Calls

def step (tick : Nat) (s : Calls) : CallAction → Option Calls
  | .wait nanos => some { s with clock := s.clock + nanos }
  | .newTimer duration => some { s with wheel := (s.wheel.newTimer tick s.clock s.added duration).2, added := s.added + 1 }
  | .nextTick => some { s with wheel := (s.wheel.nextTick tick s.clock).2 }

def events (tick : Nat) (s : Calls) : CallAction → List CallEvent
  | .wait _ => []
  | .newTimer duration => [.added s.added s.clock duration (s.wheel.newTimer tick s.clock s.added duration).1]
  | .nextTick => [.ticked s.clock (s.wheel.nextTick tick s.clock).1]

/-- The tick number of the call fits in 64 bits. -/
def fits (tick : Nat) (s : Calls) : CallAction → Bool
  | .wait _ => true
  | .newTimer duration => (s.clock + duration) / 1000 / tick < 2 ^ 64
  | .nextTick => s.clock / 1000 / tick < 2 ^ 64

/-- The time since the wheel was made, and the time at which a new timer expires, are `Duration`s. -/
def isDuration (s : Calls) : CallAction → Bool
  | .wait _ => true
  | .newTimer duration => s.clock + duration ≤ maxDuration
  | .nextTick => s.clock ≤ maxDuration

/-- `next_tick` finds no timer to return, and the counter has room for the timer that `new_timer` accepts. -/
def keepsCount (tick : Nat) (s : Calls) : CallAction → Bool
  | .wait _ => true
  | .newTimer duration =>
    match tickOf tick (s.clock + duration) with
    | none => true
    | some t => t < s.wheel.ticks || s.wheel.timerCount + 1 < 2 ^ 64
  | .nextTick =>
    match tickOf tick s.clock with
    | none => true
    | some t => (List.range' s.wheel.ticks (t - s.wheel.ticks)).all fun i => ((s.wheel.timers i).getD []).isEmpty

end Calls

namespace CallEvent

/-- How often a call of `next_tick` has returned the timer. -/
def returned (timer : Timer) : CallEvent → Nat
  | .ticked _ (.returned (some timers)) => timers.count timer
  | _ => 0

/-- The timer that a call of `new_timer` has accepted. -/
def accepted : CallEvent → Option Timer
  | .added timer _ _ (.returned (some _)) => some timer
  | _ => none

/-- A call of `next_tick` whose tick number is greater than `t`. -/
def due (tick t : Nat) : CallEvent → Bool
  | .ticked now _ => t < now / 1000 / tick
  | .added .. => false

end CallEvent

/-- The timers that `new_timer` accepted and that no `next_tick` has returned. -/
def alive (past : List CallEvent) : List Timer :=
  (past.filterMap CallEvent.accepted).filter fun timer => past.all fun e => e.returned timer == 0

/-- What has happened to the timer under tick `t` since it was added, the latest call first: it was returned once, by the
    first `next_tick` with a greater tick number, and not at all if there was none. -/
def Delivered (tick : Nat) (timer : Timer) (t : Nat) (later : List CallEvent) : Prop :=
  (∀ e ∈ later, e.due tick t = false ∧ e.returned timer = 0) ∨
  ∃ after e between, later = after ++ e :: between ∧ e.due tick t = true ∧ e.returned timer = 1 ∧
    (∀ e' ∈ between, e'.due tick t = false ∧ e'.returned timer = 0) ∧ ∀ e' ∈ after, e'.returned timer = 0

end Hala.TimeWheel
