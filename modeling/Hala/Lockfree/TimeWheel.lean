import Mathlib.Algebra.Group.Nat.Defs
import Hala.Lib.Machine

/-! `HashedTimeWheel` (`crates/lockfree/src/timewheel.rs`).

Any number of calls of `new_timer` and `next_tick` run beside each other under a clock that does not go back;
the machine takes one atomic access of one of them at a time. Timer `i` is the one that call `i` of `new_timer`
adds. The clock counts the nanoseconds since the wheel was made, a tick is a number of microseconds. -/

namespace Hala.TimeWheel
open Machine

abbrev Timer := Nat

/-- A call of `new_timer`, with its tick `t`. A name says what the next step does; `prev` is the value that
    `fetch_update` has read last. -/
inductive Add where
  | idle
  | firstLoad (t : Nat)
  | firstExchange (t prev : Nat)
  | push (t : Nat)
  | load (t : Nat)
  | remove (t : Nat)
  | secondLoad (t : Nat)
  | secondApply (t prev : Nat)
  | secondExchange (t prev : Nat)
  | count (t : Nat)
  | done (result : Option Nat)
  | panicked
  deriving DecidableEq, Repr

/-- A call of `next_tick`; `drain i ticks timers` is its loop before it removes slot `i`. -/
inductive Pop where
  | idle
  | load
  | now (current : Nat)
  | exchange (current ticks : Nat)
  | drain (i ticks : Nat) (timers : List Timer)
  | done (result : Option (List Timer))
  | panicked
  deriving DecidableEq, Repr

structure State where
  clock : Nat := 0
  ticks : Nat := 0
  timers : Nat → Option (List Timer) := fun _ => none
  timerCount : Nat := 0
  adds : Nat → Add := fun _ => .idle
  pops : Nat → Pop := fun _ => .idle

namespace State

def setAdd (s : State) (i : Nat) (add : Add) : State := { s with adds := Function.update s.adds i add }

def setPop (s : State) (j : Nat) (pop : Pop) : State := { s with pops := Function.update s.pops j pop }

/-- `timers.entry(t).or_default().push(timer)`. -/
def pushTimer (s : State) (t : Nat) (i : Timer) : State :=
  { s with timers := Function.update s.timers t (some ((s.timers t).getD [] ++ [i])) }

/-- `timers.remove(&t)`. -/
def removeSlot (s : State) (t : Nat) : State := { s with timers := Function.update s.timers t none }

end State

/-- `u64::MAX` seconds and 999999999 nanoseconds. -/
def maxDuration : Nat := 2 ^ 64 * 10 ^ 9 - 1

/-- The tick of a time in nanoseconds: whole microseconds, divided by the length of a tick and cut to 64 bits.
    A tick of no microseconds and a time past the longest `Duration` panic. -/
def tickOf (tick nanos : Nat) : Option Nat :=
  if tick = 0 ∨ maxDuration < nanos then none else some (nanos / 1000 / tick % 2 ^ 64)

/-- The closure of the first `fetch_update`, and the exchange that follows it. -/
def firstCheck (t prev : Nat) : Add := if t < prev then .done none else .firstExchange t prev

/-- The next step of `new_timer` behind the computation of its tick. -/
def addStep (s : State) (i : Nat) (spurious : Bool) : Option State :=
  match s.adds i with
  | .idle | .done _ | .panicked => none
  | .firstLoad t => some (s.setAdd i (firstCheck t s.ticks))
  | .firstExchange t prev =>
    if s.ticks = prev ∧ spurious = false then some (s.setAdd i (.push t)) else some (s.setAdd i (firstCheck t s.ticks))
  | .push t => some ((s.pushTimer t i).setAdd i (.load t))
  | .load t => some (s.setAdd i (if t < s.ticks then .remove t else .secondLoad t))
  | .remove t =>
    match s.timers t with
    | none => some (s.setAdd i (.secondLoad t))
    | some _ => some ((s.removeSlot t).setAdd i (.done none))
  | .secondLoad t => some (s.setAdd i (.secondApply t s.ticks))
  | .secondApply t prev =>
    if t < prev then
      match s.timers t with
      | none => some (s.setAdd i (.secondExchange t prev))
      | some _ => some ((s.removeSlot t).setAdd i (.done none))
    else some (s.setAdd i (.secondExchange t prev))
  | .secondExchange t prev =>
    if s.ticks = prev ∧ spurious = false then some (s.setAdd i (.count t)) else some (s.setAdd i (.secondApply t s.ticks))
  | .count t => some ({ s with timerCount := (s.timerCount + 1) % 2 ^ 64 }.setAdd i (.done (some t)))

/-- The next step of `next_tick`. -/
def popStep (tick : Nat) (s : State) (j : Nat) : Option State :=
  match s.pops j with
  | .idle | .done _ | .panicked => none
  | .load => some (s.setPop j (.now s.ticks))
  | .now current =>
    match tickOf tick s.clock with
    | none => some (s.setPop j .panicked)
    | some ticks =>
      if ticks < current then some (s.setPop j .panicked)
      else if current = ticks then some (s.setPop j (.done none))
      else some (s.setPop j (.exchange current ticks))
  | .exchange current ticks =>
    if s.ticks = current then some ({ s with ticks }.setPop j (.drain current ticks []))
    else some (s.setPop j .load)
  | .drain i ticks timers =>
    if i < ticks then some ((s.removeSlot i).setPop j (.drain (i + 1) ticks (timers ++ (s.timers i).getD [])))
    else some (s.setPop j (.done (some timers)))

inductive Action where
  | wait (nanos : Nat)
  /-- `new_timer` is called with a duration in nanoseconds, and reads the clock. -/
  | newTimer (i : Nat) (duration : Nat)
  | add (i : Nat) (spurious : Bool)
  | nextTick (j : Nat)
  | pop (j : Nat)
  deriving DecidableEq, Repr

def step (tick : Nat) (s : State) : Action → Option State
  | .wait nanos => some { s with clock := s.clock + nanos }
  | .newTimer i duration =>
    if s.adds i = .idle then
      match tickOf tick (s.clock + duration) with
      | none => some (s.setAdd i .panicked)
      | some t => some (s.setAdd i (.firstLoad t))
    else none
  | .add i spurious => addStep s i spurious
  | .nextTick j => if s.pops j = .idle then some (s.setPop j .load) else none
  | .pop j => popStep tick s j

/-- What a call of `next_tick` does to the slots: its exchange claims those from `current` on up to `ticks`, and its loop
    removes one after the other. -/
inductive TickEvent where
  | claimed (j current ticks : Nat)
  | drained (j i : Nat)
  deriving DecidableEq, Repr

def tickEvents (s : State) : Action → List TickEvent
  | .pop j =>
    match s.pops j with
    | .exchange current ticks => if s.ticks = current then [.claimed j current ticks] else []
    | .drain i ticks _ => if i < ticks then [.drained j i] else []
    | _ => []
  | _ => []

/-- The tick number that `next_tick` is about to compute fits in 64 bits. -/
def tickFits (tick : Nat) (s : State) : Action → Bool
  | .pop j =>
    match s.pops j with
    | .now _ => s.clock / 1000 / tick < 2 ^ 64
    | _ => true
  | _ => true

namespace TickEvent

/-- The range of slots that was claimed. -/
def range : TickEvent → Option (Nat × Nat)
  | .claimed _ current ticks => some (current, ticks)
  | .drained .. => none

/-- The slot that was removed. -/
def slot : TickEvent → Option Nat
  | .claimed .. => none
  | .drained _ i => some i

end TickEvent

/-- No call has begun and not ended. -/
def Quiet (s : State) : Prop :=
  (∀ i, s.adds i = .idle ∨ (∃ r, s.adds i = .done r) ∨ s.adds i = .panicked) ∧
  ∀ j, s.pops j = .idle ∨ (∃ r, s.pops j = .done r) ∨ s.pops j = .panicked

/-- Call `j` of `next_tick` has returned timer `i`. -/
def ReturnedBy (s : State) (j i : Nat) : Prop := ∃ timers, s.pops j = .done (some timers) ∧ i ∈ timers

/-- Timer `i` is stored in slot `t`. -/
def Stored (s : State) (t i : Nat) : Prop := ∃ timers, s.timers t = some timers ∧ i ∈ timers

/-- A step in which `new_timer` takes its slot back finds no timer of another call in it. -/
def ownSlot (s : State) : Action → Bool
  | .add i _ =>
    match s.adds i with
    | .remove t => ((s.timers t).getD []).all (· == i)
    | .secondApply t prev => prev ≤ t || ((s.timers t).getD []).all (· == i)
    | _ => true
  | _ => true

end Hala.TimeWheel
