import Hala.Future.Waits

/-! An `EventMap` together with an async mutex, used as a condition variable.

Each event has a predicate that the lock protects. One task waits for it: it locks, looks at the predicate, and as long
as that is false waits for the event with the guard in its hand, and tries again. Any number of notifiers lock, make
the predicate true, call `notify_one` and unlock. A step is one atomic access, and the tasks take them in any order. -/

namespace Hala
open Machine

/-- The task that waits for an event. A name says what the next step does. Each `Wait` has a cell of its own, by which
    its waker is known as well. -/
inductive CondWaiter where
  | idle
  | lock
  | check
  /-- The first poll of a `Wait`. -/
  | insert (cell : Cell)
  | unlock (cell : Cell)
  | load (cell : Cell)
  | pending (cell : Cell)
  /-- The predicate is true, and the lock is held. -/
  | found
  deriving DecidableEq, Repr

/-- A notifier. From `store` on it has the cell of the `Wait` whose entry it has removed. -/
inductive CondNotifier (E : Type) where
  | idle
  | lock (event : E) (reason : Reason)
  | setPredicate (event : E) (reason : Reason)
  | remove (event : E) (reason : Reason)
  | store (event : E) (reason : Reason) (cell : Cell)
  | wake (reason : Reason) (cell : Cell)
  | unlock (reason : Reason) (took : Option Cell)
  | done (reason : Reason) (took : Option Cell)
  deriving DecidableEq, Repr

inductive Holder (E : Type) where
  | waiter (event : E)
  | notifier (n : Nat)
  deriving DecidableEq, Repr

structure CondVar (E : Type) where
  map : WakerMap E := {}
  predicate : E → Bool := fun _ => false
  lock : Option (Holder E) := none
  waiters : E → CondWaiter := fun _ => .idle
  notifiers : Nat → CondNotifier E := fun _ => .idle
  /-- The number of cells that have been allocated. -/
  cells : Nat := 0
  /-- What the `Wait`s have returned. -/
  results : Cell → Option (Except EventMapError Unit) := fun _ => none

inductive CondAction (E : Type) where
  | start (event : E)
  /-- A step of the task that waits for the event. With the lock it can take away what makes the predicate true. -/
  | waiter (event : E) (consume : Bool)
  | notify (n : Nat) (event : E) (reason : Reason)
  | notifier (n : Nat)
  deriving DecidableEq, Repr

namespace CondVar
variable {E : Type} [DecidableEq E]

def setWaiter (s : CondVar E) (event : E) (waiter : CondWaiter) : CondVar E :=
  { s with waiters := Function.update s.waiters event waiter }

def setNotifier (s : CondVar E) (n : Nat) (notifier : CondNotifier E) : CondVar E :=
  { s with notifiers := Function.update s.notifiers n notifier }

def setPredicate (s : CondVar E) (event : E) (value : Bool) : CondVar E :=
  { s with predicate := Function.update s.predicate event value }

def waiterStep (s : CondVar E) (event : E) (consume : Bool) : Option (CondVar E) :=
  match s.waiters event with
  | .idle => none
  | .lock => if s.lock = none then some ({ s with lock := some (.waiter event) }.setWaiter event .check) else none
  | .check =>
    if s.predicate event then some (s.setWaiter event .found)
    else some ({ s with cells := s.cells + 1 }.setWaiter event (.insert s.cells))
  | .insert cell =>
    some ({ s with map := s.map.insert event { waker := cell, reason := cell } }.setWaiter event (.unlock cell))
  | .unlock cell => some ({ s with lock := none }.setWaiter event (.load cell))
  | .load cell =>
    match s.map.load cell with
    | none => some (s.setWaiter event (.pending cell))
    | some (.ok ()) => some ({ s with results := Function.update s.results cell (some (.ok ())) }.setWaiter event .lock)
    | some (.error err) =>
      some ({ s with results := Function.update s.results cell (some (.error err)) }.setWaiter event .idle)
  -- The `Wait` can be polled again at any time, whether or not it has been woken.
  | .pending cell => some (s.setWaiter event (.load cell))
  | .found => some (({ s with lock := none }.setPredicate event (!consume)).setWaiter event .idle)

def notifierStep (s : CondVar E) (n : Nat) : Option (CondVar E) :=
  match s.notifiers n with
  | .idle | .done _ _ => none
  | .lock event reason =>
    if s.lock = none then some ({ s with lock := some (.notifier n) }.setNotifier n (.setPredicate event reason)) else none
  | .setPredicate event reason => some ((s.setPredicate event true).setNotifier n (.remove event reason))
  | .remove event reason =>
    match s.map.wakers event with
    | none => some (s.setNotifier n (.unlock reason none))
    | some entry => some ({ s with map := s.map.remove event }.setNotifier n (.store event reason entry.reason))
  | .store _ reason cell => some ({ s with map := s.map.store cell reason }.setNotifier n (.wake reason cell))
  | .wake reason cell => some ({ s with map := s.map.wake cell }.setNotifier n (.unlock reason (some cell)))
  | .unlock reason took => some ({ s with lock := none }.setNotifier n (.done reason took))

def step (s : CondVar E) : CondAction E → Option (CondVar E)
  | .start event => if s.waiters event = .idle then some (s.setWaiter event .lock) else none
  | .waiter event consume => s.waiterStep event consume
  | .notify n event reason =>
    if s.notifiers n = .idle ∧ reason ≠ .none then some (s.setNotifier n (.lock event reason)) else none
  | .notifier n => s.notifierStep n

end CondVar

end Hala
