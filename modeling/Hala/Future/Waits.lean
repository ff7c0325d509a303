import Hala.Lib.Machine
import Hala.Future.EventMap

/-! The entries of an `EventMap` with their wakers, and the `Wait` futures that tasks poll
(`crates/future/src/event_map.rs`). -/

namespace Hala
open Machine

/-- What names a task for those that wake it. -/
abbrev TaskWaker := Nat

/-- `WakerWithReason`. -/
structure WakerWithReason where
  waker : TaskWaker
  reason : Cell
  deriving DecidableEq, Repr

/-- The atomic accesses to the map and to the cells. -/
structure WakerMap (E : Type) where
  wakers : E → Option WakerWithReason := fun _ => none
  reasons : Cell → Reason := fun _ => .none
  /-- The wakers that have been woken, the latest first. -/
  woken : List TaskWaker := []

namespace WakerMap
variable {E : Type} [DecidableEq E]

/-- `wakers.insert(event, ..)`. -/
def insert (m : WakerMap E) (event : E) (entry : WakerWithReason) : WakerMap E :=
  { m with wakers := Function.update m.wakers event (some entry) }

/-- `wakers.remove(event)`. -/
def remove (m : WakerMap E) (event : E) : WakerMap E := { m with wakers := Function.update m.wakers event none }

/-- `reason.store(..)`. -/
def store (m : WakerMap E) (cell : Cell) (reason : Reason) : WakerMap E :=
  { m with reasons := Function.update m.reasons cell reason }

/-- `waker.wake()`. -/
def wake (m : WakerMap E) (waker : TaskWaker) : WakerMap E := { m with woken := waker :: m.woken }

/-- What a poll makes of the reason that it has loaded; `none` is `Pending`. -/
def load (m : WakerMap E) (cell : Cell) : Option (Except EventMapError Unit) :=
  match m.reasons cell with
  | .none => none
  | .cancel => some (.error .cancel)
  | .destroy => some (.error .destroy)
  | .on => some (.ok ())

/-- `notify_one`, as a whole. -/
def notifyOne (m : WakerMap E) (event : E) (reason : Reason) : WakerMap E × Bool :=
  match m.wakers event with
  | some entry => (((m.remove event).store entry.reason reason).wake entry.waker, true)
  | none => (m, false)

/-- `notify_all`, and `notify_any` where `events` are the keys of the map. -/
def notifyAll (m : WakerMap E) (events : List E) (reason : Reason) : WakerMap E :=
  events.foldl (fun m event => (m.notifyOne event reason).1) m

end WakerMap

/-- The life of a `Wait`. -/
inductive WaitState where
  /-- It holds the guard, and has not been polled. -/
  | guarded
  /-- The latest poll was made with this waker, and returned `Pending`. -/
  | pending (waker : TaskWaker)
  | ready (result : Except EventMapError Unit)
  | dropped

/-- Tasks that share an event map. The `Wait` number `w` has the cell `w`. -/
structure Waits (E : Type) where
  map : WakerMap E := {}
  waits : Cell → Option (E × WaitState) := fun _ => none

inductive WaitsAction (E : Type) where
  | wait (w : Cell) (event : E)
  | poll (w : Cell) (waker : TaskWaker)
  | notifyOne (event : E) (reason : Reason)
  | notifyAll (events : List E) (reason : Reason)
  | drop (w : Cell)
  deriving DecidableEq, Repr

namespace Waits
variable {E : Type} [DecidableEq E]

def setWait (s : Waits E) (w : Cell) (event : E) (state : WaitState) : Waits E :=
  { s with waits := Function.update s.waits w (some (event, state)) }

/-- The end of a poll. -/
def loaded (s : Waits E) (w : Cell) (event : E) (waker : TaskWaker) : Waits E :=
  match s.map.load w with
  | none => s.setWait w event (.pending waker)
  | some result => s.setWait w event (.ready result)

/-- `Wait::poll`. -/
def poll (s : Waits E) (w : Cell) (waker : TaskWaker) : Option (Waits E) :=
  match s.waits w with
  | none | some (_, .dropped) => none
  | some (event, .guarded) =>
    -- The guard is taken: the entry is inserted, and the lock released.
    some ({ s with map := s.map.insert event { waker, reason := w } }.loaded w event waker)
  | some (event, _) => some (s.loaded w event waker)

def step (s : Waits E) : WaitsAction E → Option (Waits E)
  | .wait w event => if s.waits w = none then some (s.setWait w event .guarded) else none
  | .poll w waker => s.poll w waker
  | .notifyOne event reason => some { s with map := (s.map.notifyOne event reason).1 }
  | .notifyAll events reason => some { s with map := s.map.notifyAll events reason }
  | .drop w =>
    match s.waits w with
    | none | some (_, .dropped) => none
    | some (event, _) => some (s.setWait w event .dropped)

/-- The `Wait` is live, its latest poll returned `Pending`, and nobody has left a reason. -/
def Waiting (s : Waits E) (w : Cell) (event : E) (waker : TaskWaker) : Prop :=
  s.waits w = some (event, .pending waker) ∧ s.map.reasons w = .none

end Waits

end Hala
