import Mathlib.Data.List.AList

/-! `EventMap` (`crates/future/src/event_map.rs`), at the level of whole calls.

A `Wait` that has registered itself is named by its cell, the atomic byte in which the notifier leaves the
reason. -/

namespace Hala

inductive EventMapError where
  | cancel
  | destroy
  deriving DecidableEq, Repr

inductive Reason where
  | none
  | on
  | cancel
  | destroy
  deriving DecidableEq, Repr

abbrev Cell := Nat

structure EventMap (E : Type) where
  wakers : AList fun _ : E => Cell := ∅
  reasons : Cell → Reason := fun _ => .none
  /-- The number of cells that have been allocated. -/
  cells : Nat := 0

namespace EventMap
variable {E : Type} [DecidableEq E]

/-- `notify_one`, with its answer. -/
def notifyOne (m : EventMap E) (event : E) (reason : Reason) : EventMap E × Bool :=
  match m.wakers.lookup event with
  | none => (m, false)
  | some cell => ({ m with wakers := m.wakers.erase event, reasons := Function.update m.reasons cell reason }, true)

/-- `notify_one` as a statement. -/
def notify (m : EventMap E) (event : E) (reason : Reason) : EventMap E := (m.notifyOne event reason).1

def notifyAll (m : EventMap E) (events : List E) (reason : Reason) : EventMap E :=
  events.foldl (fun m event => m.notify event reason) m

def notifyAny (m : EventMap E) (reason : Reason) : EventMap E := m.notifyAll m.wakers.keys reason

/-- `wait` and the first poll of its future, which registers the waker in place of the one the event had. -/
def wait (m : EventMap E) (event : E) : EventMap E × Cell :=
  ({ m with wakers := m.wakers.insert event m.cells, reasons := Function.update m.reasons m.cells .none
            cells := m.cells + 1 }, m.cells)

/-- A later poll of a `Wait`: what its cell says. -/
def poll (m : EventMap E) (cell : Cell) : Option (Except EventMapError Unit) :=
  match m.reasons cell with
  | .none => none
  | .cancel => some (.error .cancel)
  | .destroy => some (.error .destroy)
  | .on => some (.ok ())

end EventMap

end Hala
