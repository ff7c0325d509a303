import Mathlib.Logic.Function.Basic

/-! The lock-free `Queue` of `crates/lockfree/src/queue.rs`: two counters and a map from tickets to values.
Its operations are sequences of the atomic accesses below. The counters do not wrap: there are fewer than `2 ^ 64`
pushes. -/

namespace Hala.Lockfree

structure Queue (T : Type) where
  head : Nat := 0
  tail : Nat := 0
  slots : Nat → Option T := fun _ => none

namespace Queue
variable {T : Type}

/-- `tail.fetch_add(1)`: the ticket of a push. -/
def takeTicket (q : Queue T) : Nat × Queue T := (q.tail, { q with tail := q.tail + 1 })

/-- `slots.insert(offset, value)`. -/
def insertSlot (q : Queue T) (offset : Nat) (value : T) : Queue T :=
  { q with slots := Function.update q.slots offset (some value) }

/-- `head.compare_exchange(header, header + 1)`: claims the ticket of a pop. -/
def claim (q : Queue T) (header : Nat) : Option (Queue T) :=
  if q.head = header then some { q with head := header + 1 } else none

/-- `slots.remove(&index)`. -/
def removeSlot (q : Queue T) (index : Nat) : Option (T × Queue T) :=
  (q.slots index).map fun value => (value, { q with slots := Function.update q.slots index none })

/-! ### Calls of `push` and `pop` beside each other -/

/-- A call of `push`. A name says what the next step does. -/
inductive Push (T : Type) where
  | idle
  | takeTicket (value : T)
  | insertSlot (value : T) (offset : Nat)
  | done (value : T) (offset : Nat)
  deriving DecidableEq, Repr

/-- A call of `pop`. Beside the value that it returns stands the ticket it has claimed. -/
inductive Pop (T : Type) where
  | idle
  | loadHead
  | loadTail (header : Nat)
  | claim (header : Nat)
  | removeSlot (index : Nat)
  | done (result : Option (Nat × T))
  deriving DecidableEq, Repr

structure Calls (T : Type) where
  queue : Queue T := {}
  pushes : Nat → Push T := fun _ => .idle
  pops : Nat → Pop T := fun _ => .idle

inductive Action (T : Type) where
  | callPush (c : Nat) (value : T)
  | push (c : Nat)
  | callPop (c : Nat)
  | pop (c : Nat)
  deriving DecidableEq, Repr

namespace Calls

def setPush (s : Calls T) (c : Nat) (push : Push T) : Calls T := { s with pushes := Function.update s.pushes c push }

def setPop (s : Calls T) (c : Nat) (pop : Pop T) : Calls T := { s with pops := Function.update s.pops c pop }

/-- The next step of a call of `push`. -/
def pushStep (s : Calls T) (c : Nat) : Option (Calls T) :=
  match s.pushes c with
  | .idle | .done _ _ => none
  | .takeTicket value =>
    let (offset, queue) := s.queue.takeTicket
    some ({ s with queue }.setPush c (.insertSlot value offset))
  | .insertSlot value offset =>
    some ({ s with queue := s.queue.insertSlot offset value }.setPush c (.done value offset))

/-- The next step of a call of `pop`. -/
def popStep (s : Calls T) (c : Nat) : Option (Calls T) :=
  match s.pops c with
  | .idle | .done _ => none
  | .loadHead => some (s.setPop c (.loadTail s.queue.head))
  | .loadTail header =>
    if header = s.queue.tail then some (s.setPop c (.done none)) else some (s.setPop c (.claim header))
  | .claim header =>
    match s.queue.claim header with
    | none => some (s.setPop c .loadHead)
    | some queue => some ({ s with queue }.setPop c (.removeSlot header))
  | .removeSlot index =>
    -- `spin_pop_by_offset` tries again until the slot has been filled.
    match s.queue.removeSlot index with
    | none => some s
    | some (value, queue) => some ({ s with queue }.setPop c (.done (some (index, value))))

def step (s : Calls T) : Action T → Option (Calls T)
  | .callPush c value => match s.pushes c with
    | .idle => some (s.setPush c (.takeTicket value))
    | _ => none
  | .push c => s.pushStep c
  | .callPop c => match s.pops c with
    | .idle => some (s.setPop c .loadHead)
    | _ => none
  | .pop c => s.popStep c

end Calls

/-! ### Calls of `len` beside them -/

/-- A call of `len`, with the number of tickets that no pop had claimed when it loaded the tail. -/
inductive Len where
  | idle
  | loadTail
  | loadHead (tail unclaimed : Nat)
  | done (result unclaimed : Nat)
  /-- The head is past the tail that was loaded, so that the subtraction overflows. -/
  | overflow
  deriving DecidableEq, Repr

structure Lens (T : Type) where
  calls : Calls T := {}
  lens : Nat → Len := fun _ => .idle

inductive LenAction (T : Type) where
  | queue (a : Action T)
  | callLen (c : Nat)
  | len (c : Nat)
  deriving DecidableEq, Repr

namespace Lens

def setLen (s : Lens T) (c : Nat) (len : Len) : Lens T := { s with lens := Function.update s.lens c len }

/-- The next step of a call of `len`. -/
def lenStep (s : Lens T) (c : Nat) : Option (Lens T) :=
  match s.lens c with
  | .idle | .done .. | .overflow => none
  | .loadTail =>
    some (s.setLen c (.loadHead s.calls.queue.tail (s.calls.queue.tail - s.calls.queue.head)))
  | .loadHead tail unclaimed =>
    if tail < s.calls.queue.head then some (s.setLen c .overflow)
    else some (s.setLen c (.done (tail - s.calls.queue.head) unclaimed))

def step (s : Lens T) : LenAction T → Option (Lens T)
  | .queue a => (s.calls.step a).map fun calls => { s with calls }
  | .callLen c => if s.lens c = .idle then some (s.setLen c .loadTail) else none
  | .len c => s.lenStep c

/-- A pop that claims a ticket claims one from before the tail that any call of `len` has loaded, as long as this call has
    not loaded the head. -/
def inFront (s : Lens T) : LenAction T → Prop
  | .queue (.pop c) => ∀ header, s.calls.pops c = .claim header → s.calls.queue.head = header →
    ∀ d tail unclaimed, s.lens d = .loadHead tail unclaimed → header < tail
  | _ => True

end Lens

end Queue

end Hala.Lockfree
