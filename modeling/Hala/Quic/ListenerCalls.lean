import Hala.Future.Batching
import Hala.Future.Waits
import Hala.Quic.Listener

/-! The calls of `accept`, `close` and `read` on one `QuicListenerState` (`crates/net/quic/src/state/listener.rs`).

Any number of tasks are in `accept` and in `close`, and one is in `read`: the batch of the connections' reads is an
assertion away from a second one. A step is one access to what the calls share. Connections are numbers; a `write` that
brings one takes the lock for one step, and then notifies in another. -/

namespace Hala.Quic
open Machine

/-- A call of `accept`. A name says what the next step does. -/
inductive AcceptCall where
  | idle
  | lock
  | check
  /-- The first poll of its `Wait`, with the guard. -/
  | insert (cell : Cell)
  | unlock (cell : Cell)
  | load (cell : Cell)
  | pending (cell : Cell)
  | returned (conn : Option Nat)
  | panicked
  deriving DecidableEq, Repr

/-- A call of `close`. The one that sets the flag goes through the queue, and every other one through the batch. -/
inductive CloseCall where
  | idle
  | exchange
  | lock
  | dropIncoming
  | remove
  | store (cell : Cell)
  | wake (cell : Cell)
  | unlock
  | returned
  | closeReads
  /-- In call `c` of the batch. -/
  | inCloseReads (c : Nat)
  | returnedLater
  deriving DecidableEq, Repr

/-- The task in `read`. -/
inductive ReadCall where
  | idle
  | handleStatus
  | wait
  | polling
  | suspended
  /-- The batch has answered with the output of a future, or with `None`. -/
  | handleStatusAgain (fut : Option Batching.Fut)
  /-- `none` is the error of a closed listener. -/
  | returned (fut : Option Batching.Fut)
  deriving DecidableEq, Repr

/-- The task has passed the check of the status and has no answer of the batch yet. -/
def ReadCall.inBatch : ReadCall → Bool
  | wait | polling | suspended => true
  | _ => false

/-- Who holds the lock of the queue. -/
inductive ListenerHolder where
  | accept (i : Nat)
  | close (k : Nat)
  deriving DecidableEq, Repr

structure ListenerCalls where
  closed : Bool := false
  incoming : Option (List Nat) := some []
  lock : Option ListenerHolder := none
  mediator : WakerMap ListenerEvent := {}
  /-- The number of cells that have been allocated. -/
  cells : Nat := 0
  connsRead : Batching.State := {}
  accepts : Nat → AcceptCall := fun _ => .idle
  closes : Nat → CloseCall := fun _ => .idle
  /-- The `write`s that have brought a connection and not notified. -/
  writes : Nat := 0
  reader : ReadCall := .idle

/-- What a step of `read` leaves open, next to the choices of the batch: the waker of the poll, and whether the read of
    the connection has ended with a packet. -/
structure ReadChoice where
  waker : Batching.TaskWaker := 0
  packet : Bool := true
  batch : Batching.Choice := {}
  deriving DecidableEq, Repr

inductive ListenerAction where
  | callAccept (i : Nat)
  | accept (i : Nat)
  | callClose (k : Nat)
  | close (k : Nat) (c : Nat)
  | callRead
  | read (choice : ReadChoice)
  /-- A `write` puts a connection into the queue. -/
  | arrive (conn : Nat)
  | notifyIncoming
  /-- A read is pushed to the batch. -/
  | push (c : Nat)
  /-- A connection wakes its read. -/
  | wake (c : Nat) (id : Batching.FutureId)
  /-- A step of such a call, or of the batch's `close`. -/
  | batch (c : Nat) (choice : Batching.Choice)
  deriving DecidableEq, Repr

namespace ListenerCalls

def setAccept (s : ListenerCalls) (i : Nat) (accept : AcceptCall) : ListenerCalls :=
  { s with accepts := Function.update s.accepts i accept }

def setClose (s : ListenerCalls) (k : Nat) (close : CloseCall) : ListenerCalls :=
  { s with closes := Function.update s.closes k close }

def acceptStep (s : ListenerCalls) (i : Nat) : Option ListenerCalls :=
  match s.accepts i with
  | .idle | .returned _ | .panicked => none
  | .lock => if s.lock = none then some ({ s with lock := some (.accept i) }.setAccept i .check) else none
  | .check =>
    match s.incoming with
    | none => some ({ s with lock := none }.setAccept i (.returned none))
    | some (conn :: incoming) =>
      some ({ s with lock := none, incoming := some incoming }.setAccept i (.returned (some conn)))
    | some [] => some ({ s with cells := s.cells + 1 }.setAccept i (.insert s.cells))
  | .insert cell =>
    some ({ s with mediator := s.mediator.insert .incoming { waker := cell, reason := cell } }.setAccept i (.unlock cell))
  | .unlock cell => some ({ s with lock := none }.setAccept i (.load cell))
  | .load cell =>
    match s.mediator.load cell with
    | none => some (s.setAccept i (.pending cell))
    | some (.ok ()) => some (s.setAccept i .lock)
    | some (.error _) => some (s.setAccept i .panicked)
  -- The `Wait` can be polled again at any time, whether or not it has been woken.
  | .pending cell => some (s.setAccept i (.load cell))

def closeStep (s : ListenerCalls) (k c : Nat) : Option ListenerCalls :=
  match s.closes k with
  | .idle | .returned | .returnedLater => none
  | .exchange => if s.closed then some (s.setClose k .closeReads) else some ({ s with closed := true }.setClose k .lock)
  | .lock => if s.lock = none then some ({ s with lock := some (.close k) }.setClose k .dropIncoming) else none
  | .dropIncoming => some ({ s with incoming := none }.setClose k .remove)
  | .remove =>
    match s.mediator.wakers .incoming with
    | none => some (s.setClose k .unlock)
    | some entry => some ({ s with mediator := s.mediator.remove .incoming }.setClose k (.store entry.reason))
  | .store cell => some ({ s with mediator := s.mediator.store cell .on }.setClose k (.wake cell))
  | .wake cell => some ({ s with mediator := s.mediator.wake cell }.setClose k .unlock)
  | .unlock => some ({ s with lock := none }.setClose k .returned)
  | .closeReads =>
    (Batching.step s.connsRead (.close c)).map fun connsRead => { s with connsRead }.setClose k (.inCloseReads c)
  | .inCloseReads c => if s.connsRead.calls c = .done then some (s.setClose k .returnedLater) else none

def readStep (s : ListenerCalls) (choice : ReadChoice) : Option ListenerCalls :=
  match s.reader with
  | .idle | .returned _ => none
  | .handleStatus => some { s with reader := if s.closed then .returned none else .wait }
  | .wait =>
    (Batching.step s.connsRead (.poll choice.waker)).map fun connsRead => { s with connsRead, reader := .polling }
  | .polling =>
    if s.connsRead.poller = .idle then
      match s.connsRead.last with
      | none => none
      | some .pending => some { s with reader := .suspended }
      | some .readyNone => some { s with reader := .handleStatusAgain none }
      | some (.readySome fut) => some { s with reader := .handleStatusAgain (some fut) }
    else (Batching.step s.connsRead (.next choice.batch)).map fun connsRead => { s with connsRead }
  -- The task polls again at any time, whether or not it has been woken.
  | .suspended => some { s with reader := .wait }
  | .handleStatusAgain fut =>
    if s.closed then some { s with reader := .returned none }
    else
      match fut with
      -- With a packet, the read of the connection is pushed again in steps of its own.
      | some fut => some { s with reader := if choice.packet then .returned (some fut) else .wait }
      | none => some { s with reader := .wait }

def step (s : ListenerCalls) : ListenerAction → Option ListenerCalls
  | .callAccept i => if s.accepts i = .idle then some (s.setAccept i .lock) else none
  | .accept i => s.acceptStep i
  | .callClose k => if s.closes k = .idle then some (s.setClose k .exchange) else none
  | .close k c => s.closeStep k c
  | .callRead =>
    match s.reader with
    | .idle | .returned _ => some { s with reader := .handleStatus }
    | _ => none
  | .read choice => s.readStep choice
  | .arrive conn =>
    match s.lock, s.incoming with
    | none, some incoming => some { s with incoming := some (incoming ++ [conn]), writes := s.writes + 1 }
    | _, _ => none
  | .notifyIncoming =>
    if s.writes = 0 then none
    else some { s with mediator := (s.mediator.notifyOne .incoming .on).1, writes := s.writes - 1 }
  | .push c => (Batching.step s.connsRead (.push c)).map fun connsRead => { s with connsRead }
  | .wake c id => (Batching.step s.connsRead (.wake c id)).map fun connsRead => { s with connsRead }
  | .batch c choice => (Batching.step s.connsRead (.call c choice)).map fun connsRead => { s with connsRead }

/-- No `accept` takes the place of another one in the map, and the flag is not set while the task in `read` waits for the
    batch. -/
def nobodyHidden (s : ListenerCalls) : ListenerAction → Bool
  | .accept i =>
    match s.accepts i with
    | .insert _ => (s.mediator.wakers .incoming).isNone
    | _ => true
  | .close k _ =>
    match s.closes k with
    | .exchange => s.closed || !s.reader.inBatch
    | _ => true
  | _ => true

end ListenerCalls

end Hala.Quic
