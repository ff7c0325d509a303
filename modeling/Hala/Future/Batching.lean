import Hala.Lib.Machine
import Hala.Lockfree.Queue

/-! `FutureBatcher` (`crates/future/src/batching.rs`).

Any number of calls of `push`, of a batcher waker's `wake` and of `close` run beside one poller of `Wait`; the
machine takes one atomic access of one of them at a time. A pushed future is named by the call that pushed it.
What an inner future answers, where `add_waker` puts its box and whether a weak exchange fails for no reason
are choices of the step. -/

namespace Hala.Batching
open Machine Lockfree

abbrev TaskWaker := Nat
abbrev Addr := Nat
abbrev FutureId := Nat
abbrev Fut := Nat

/-- A call of `push`, `wake` or `close`. A name says what the next step does. -/
inductive Call where
  | idle
  | insertPending (id : FutureId)
  | takeTicket (id : FutureId)
  | insertSlot (id : FutureId) (offset : Nat)
  | loadWaker
  | exchangeWaker (ptr : Addr)
  | wakeTask (waker : TaskWaker)
  | done
  deriving DecidableEq, Repr

/-- The call has begun and has not returned. -/
def Call.midway : Call → Bool
  | .idle | .done => false
  | _ => true

/-- The poller of `Wait`: outside of a poll it is idle. -/
inductive Poller where
  | idle
  | loadClosed (waker : TaskWaker)
  | addWaker (waker : TaskWaker)
  | loadHead
  | loadTail (header : Nat)
  | claim (header : Nat)
  | removeSlot (index : Nat)
  | loadClosedAgain (id : FutureId)
  | removePending (id : FutureId)
  | pollFuture (id : FutureId) (fut : Fut)
  | insertPending (id : FutureId) (fut : Fut)
  | loadWaker (fut : Fut)
  | exchangeWaker (fut : Fut) (ptr : Addr)
  | leaveReady (fut : Fut)
  | leavePending
  | loadClosedLast
  | panicked
  deriving DecidableEq, Repr

/-- What a poll of `Wait` returned. -/
inductive Polled where
  | readyNone
  | readySome (fut : Fut)
  | pending
  deriving DecidableEq, Repr

structure State where
  idgen : Nat := 0
  pendingFutures : FutureId → Option Fut := fun _ => none
  wakeupFutures : Queue FutureId := {}
  /-- The boxed task waker and its address. -/
  rawWaker : Option (Addr × TaskWaker) := none
  awaitCounter : Nat := 0
  closed : Bool := false
  calls : Nat → Call := fun _ => .idle
  poller : Poller := .idle
  /-- The ids under which the pushing calls have stored their futures. -/
  pushed : Fut → Option FutureId := fun _ => none
  /-- Ids whose batcher waker was handed to an inner future. -/
  handed : FutureId → Bool := fun _ => false
  /-- The futures that returned `Ready`, and those whose output a poll of `Wait` returned. -/
  finished : List Fut := []
  returned : List Fut := []
  last : Option Polled := none
  /-- The task waker of the latest poll, and whether it has been woken since that poll began. -/
  taskWaker : TaskWaker := 0
  woken : Bool := false

/-- What a step leaves open: the answer of the inner future, a weak exchange that fails although the words are
    equal, and the address of a new box. -/
structure Choice where
  ready : Bool := false
  spurious : Bool := false
  addr : Addr := 0
  deriving DecidableEq, Repr

namespace State

def setCall (s : State) (c : Nat) (call : Call) : State := { s with calls := Function.update s.calls c call }

/-- `compare_exchange_weak(ptr, null)` on the waker word: the waker that was taken. -/
def exchange (s : State) (ptr : Addr) (spurious : Bool) : Option (TaskWaker × State) :=
  match s.rawWaker with
  | none => none
  | some (ptr', waker) => if ptr' = ptr ∧ spurious = false then some (waker, { s with rawWaker := none }) else none

end State

/-- The next step of a call: of `push` behind `fetch_add` on the id generator, of `wake`, or of `close` behind
    its exchange of the flag. -/
def callStep (s : State) (c : Nat) (choice : Choice) : Option State :=
  match s.calls c with
  | .idle | .done => none
  | .insertPending id =>
    some ({ s with pendingFutures := Function.update s.pendingFutures id (some c)
                   pushed := Function.update s.pushed c (some id) }.setCall c (.takeTicket id))
  | .takeTicket id =>
    let (offset, wakeupFutures) := s.wakeupFutures.takeTicket
    some ({ s with wakeupFutures }.setCall c (.insertSlot id offset))
  | .insertSlot id offset =>
    some ({ s with wakeupFutures := s.wakeupFutures.insertSlot offset id }.setCall c .loadWaker)
  | .loadWaker =>
    match s.rawWaker with
    | none => some (s.setCall c .done)
    | some (ptr, _) => some (s.setCall c (.exchangeWaker ptr))
  | .exchangeWaker ptr =>
    match s.exchange ptr choice.spurious with
    | none => some (s.setCall c .loadWaker)
    | some (waker, s) => some (s.setCall c (.wakeTask waker))
  | .wakeTask waker => some ({ s with woken := s.woken || waker == s.taskWaker }.setCall c .done)

/-- The next step of the running poll. -/
def pollStep (s : State) (choice : Choice) : Option State :=
  match s.poller with
  | .idle | .panicked => none
  | .loadClosed waker =>
    if s.closed then some { s with poller := .idle, last := some .readyNone } else some { s with poller := .addWaker waker }
  | .addWaker waker => some { s with rawWaker := some (choice.addr, waker), poller := .loadHead }
  | .loadHead => some { s with poller := .loadTail s.wakeupFutures.head }
  | .loadTail header =>
    if header = s.wakeupFutures.tail then some { s with poller := .leavePending } else some { s with poller := .claim header }
  | .claim header =>
    match s.wakeupFutures.claim header with
    | none => some { s with poller := .loadHead }
    | some wakeupFutures => some { s with wakeupFutures, poller := .removeSlot header }
  | .removeSlot index =>
    -- `spin_pop_by_offset` tries again until the slot has been filled.
    match s.wakeupFutures.removeSlot index with
    | none => none
    | some (id, wakeupFutures) => some { s with wakeupFutures, poller := .loadClosedAgain id }
  | .loadClosedAgain id =>
    if s.closed then some { s with poller := .idle, last := some .readyNone }
    else some { s with poller := .removePending id }
  | .removePending id =>
    match s.pendingFutures id with
    | none => some { s with poller := .loadHead }
    | some fut =>
      some { s with pendingFutures := Function.update s.pendingFutures id none
                    handed := Function.update s.handed id true
                    poller := .pollFuture id fut }
  | .pollFuture id fut =>
    if choice.ready then some { s with finished := fut :: s.finished, poller := .loadWaker fut }
    else some { s with poller := .insertPending id fut }
  | .insertPending id fut =>
    some { s with pendingFutures := Function.update s.pendingFutures id (some fut), poller := .loadHead }
  | .loadWaker fut =>
    match s.rawWaker with
    | none => some { s with poller := .leaveReady fut }
    | some (ptr, _) => some { s with poller := .exchangeWaker fut ptr }
  | .exchangeWaker fut ptr =>
    match s.exchange ptr choice.spurious with
    | none => some { s with poller := .loadWaker fut }
    | some (_, s) => some { s with poller := .leaveReady fut }
  | .leaveReady fut =>
    if s.awaitCounter = 1 then
      some { s with awaitCounter := 0, returned := fut :: s.returned, poller := .idle, last := some (.readySome fut) }
    else some { s with awaitCounter := s.awaitCounter - 1, poller := .panicked }
  | .leavePending =>
    if s.awaitCounter = 1 then some { s with awaitCounter := 0, poller := .loadClosedLast }
    else some { s with awaitCounter := s.awaitCounter - 1, poller := .panicked }
  | .loadClosedLast =>
    if s.closed then some { s with poller := .idle, last := some .readyNone }
    else some { s with poller := .idle, last := some .pending }

inductive Action where
  /-- `push` is called: `fetch_add` on the id generator. -/
  | push (c : Nat)
  /-- The batcher waker of `id` is woken, by value or by reference. -/
  | wake (c : Nat) (id : FutureId)
  /-- `close` is called: the exchange of the flag. -/
  | close (c : Nat)
  | call (c : Nat) (choice : Choice)
  /-- `Wait` is polled with a task waker: `fetch_add` on the counter. -/
  | poll (waker : TaskWaker)
  | next (choice : Choice)
  deriving DecidableEq, Repr

def step (s : State) : Action → Option State
  | .push c =>
    if s.calls c = .idle then some ({ s with idgen := s.idgen + 1 }.setCall c (.insertPending s.idgen)) else none
  | .wake c id => if s.calls c = .idle ∧ s.handed id = true then some (s.setCall c (.takeTicket id)) else none
  | .close c =>
    if s.calls c = .idle then
      if s.closed then some (s.setCall c .done) else some ({ s with closed := true }.setCall c .loadWaker)
    else none
  | .call c choice => callStep s c choice
  | .poll waker =>
    if s.poller = .idle then
      some { s with awaitCounter := s.awaitCounter + 1, taskWaker := waker, woken := false
                    poller := if s.awaitCounter = 0 then .loadClosed waker else .panicked }
    else none
  | .next choice => pollStep s choice

/-- The batcher is not closed by this step. -/
def notClose (_ : State) : Action → Bool
  | .close _ => false
  | _ => true

/-- The poll does not find the batcher closed where it leaves without `fetch_sub` on the counter. -/
def restores (s : State) : Action → Bool
  | .next _ =>
    match s.poller with
    | .loadClosed _ | .loadClosedAgain _ => !s.closed
    | _ => true
  | _ => true

end Hala.Batching
