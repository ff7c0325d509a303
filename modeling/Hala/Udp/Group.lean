import Hala.Future.Batching
import Hala.Net.Sockets

/-! `UdpGroup` (`crates/net/udp/src/group.rs`): `bind` over the mio driver, and the calls of `recv_from` and of `send_to`.

The calls of one direction are made one after another, and a call that is pending may be dropped. A step is one access to
the slot with the boxed buffer, one call of the driver or one step of the batcher; wakers are woken at any time. What the
driver answers is a choice of the step. -/

namespace Hala.Udp
open Machine
open Io (Handle Mio Os)
open Net (ErrorInfo IoError)

abbrev SocketAddr := Nat

abbrev Addr := Nat

structure PathInfo where
  /-- `from` in the source. -/
  fromAddr : SocketAddr
  /-- `to` in the source. -/
  toAddr : SocketAddr
  deriving DecidableEq, Repr

/-! ### `bind` -/

structure UdpGroup where
  fds : List (SocketAddr × Handle) := []
  laddrs : Handle → Option SocketAddr := fun _ => none

namespace UdpGroup

/-- `fds.insert(laddr, fd)` and `addrs.insert(fd, laddr)`. -/
def insert (group : UdpGroup) (laddr : SocketAddr) (fd : Handle) : UdpGroup where
  fds := group.fds.filter (·.1 != laddr) ++ [(laddr, fd)]
  laddrs := Function.update group.laddrs fd (some laddr)

def handleToLaddr (group : UdpGroup) (fd : Handle) : Option SocketAddr := group.laddrs fd

end UdpGroup

section Bind
variable {O ε : Type} (os : Os O SocketAddr ε) (info : ErrorInfo SocketAddr ε)

/-- The loop of `bind`. What it has opened is in maps of plain handles, which close nothing when they are dropped. -/
def bindAll (poller : Handle) : Mio O → UdpGroup → List SocketAddr → Mio O × Except (IoError ε) UdpGroup
  | mio, group, [] => (mio, .ok group)
  | mio, group, addr :: addrs =>
    match Net.openRegistered os info mio poller .udpSocket (.bind [addr]) .all with
    | (mio, .error err) => (mio, .error err)
    | (mio, .ok fd) =>
      match Net.cntlAs os mio fd .localAddr (·.tryIntoSockaddr info.resp) with
      | (mio, .error err) => (mio, .error err)
      | (mio, .ok laddr) => bindAll poller mio (group.insert laddr fd) addrs

/-- `bind`, before it pushes the operations; `laddrs` is what `to_socket_addrs` returns. -/
def bind (mio : Mio O) (poller : Handle) (laddrs : Except ε (List SocketAddr)) : Mio O × Except (IoError ε) UdpGroup :=
  match laddrs with
  | .error err => (mio, .error (.inner (.inner (.os err))))
  | .ok addrs => bindAll os info poller mio {} addrs

/-- The handle is open: its box is there. -/
def Opened (mio : Mio O) (fd : Handle) : Prop := ∃ b, mio.heap.boxes fd.token = some b ∧ b.desc = fd.desc

/-- The system refuses to open or to register a socket for the address, and in the second case it deregisters it. -/
def refuses (mio : Mio O) (addr : SocketAddr) : Bool :=
  match os.call mio.os (.udpSocketBind [addr]) with
  | (_, .error _) => true
  | (o, .ok ()) =>
    match os.call o (.register mio.heap.next .all) with
    | (_, .ok ()) => false
    | (o, .error _) => (os.call o (.deregister mio.heap.next)).2.isOk

/-- The addresses are not resolved, or the first of them is refused. -/
def failsEarly (mio : Mio O) : Except ε (List SocketAddr) → Bool
  | .error _ => true
  | .ok [] => false
  | .ok (addr :: _) => refuses os mio addr

end Bind

/-! ### The operations of the batcher -/

/-- What the closures of `push_batch_read` and `push_batch_write` differ in: the path of a datagram, by the local address of
    the socket, what is boxed with the buffer and what the driver returns with the length. -/
structure BatchOp (Req Resp : Type) where
  path : SocketAddr → Req → Resp → PathInfo

def pushBatchRead : BatchOp Unit SocketAddr where
  path laddr _ raddr := { fromAddr := raddr, toAddr := laddr }

def pushBatchWrite : BatchOp SocketAddr Unit where
  path laddr raddr _ := { fromAddr := laddr, toAddr := raddr }

/-- The content of the box: the buffer of a call, which has the number of the call, and for a write the peer. -/
structure Boxed (Req : Type) where
  buf : Nat
  req : Req
  deriving DecidableEq, Repr

/-- What `fd_cntl` returns. -/
inductive Answer (Resp ε : Type) where
  | ok (size : Nat) (resp : Resp)
  | wouldBlock
  | error (e : ε)
  deriving DecidableEq, Repr

abbrev Result (ε : Type) := Except ε (Nat × PathInfo)

/-- The paths that a result may name, by the local address of the socket, the request and the response of the driver. -/
abbrev Names (Req Resp : Type) := SocketAddr → Req → Resp → PathInfo → Prop

/-- A datagram of the peer that the driver names, to the socket. -/
def receivedBy : Names Unit SocketAddr := fun laddr _ raddr path => path.fromAddr = raddr ∧ path.toAddr = laddr

/-- A datagram from the socket to the peer that the call names. -/
def sentBy : Names SocketAddr Unit := fun laddr raddr _ path => path.fromAddr = laddr ∧ path.toAddr = raddr

/-- The result is the answer, with one of the paths. -/
def Answer.Gives {Resp ε : Type} (names : Resp → PathInfo → Prop) : Answer Resp ε → Result ε → Prop
  | .ok size resp, .ok (size', path) => size' = size ∧ names resp path
  | .error e, .error e' => e' = e
  | _, _ => False

/-- `BatchRead` and `BatchWrite`. -/
structure Batched (ε : Type) where
  handle : Handle
  result : Result ε

/-- What the closure makes of the answer, unless it has to wait. -/
def BatchOp.result {Req Resp ε : Type} (op : BatchOp Req Resp) (laddr : SocketAddr) (req : Req) :
    Answer Resp ε → Option (Result ε)
  | .ok size resp => some (.ok (size, op.path laddr req resp))
  | .wouldBlock => none
  | .error e => some (.error e)

/-- The closure that the poller is in. A name says what the next step does. -/
inductive Op (ε : Type) where
  | load
  | take (ptr : Addr)
  | fdCntl (ptr : Addr)
  | giveBack (ptr : Addr)
  | ready (ptr : Addr) (output : Batched ε)

inductive Failure where
  /-- "set batching_read_buf before calling batching_reader await." -/
  | notSet
  /-- "Only one poll read ops should be executing at a time" -/
  | busy
  /-- "The mapping handle -> address not found." -/
  | notMapped
  /-- "No one call closed" -/
  | closed
  /-- A box is used that has been freed. -/
  | dangling
  deriving DecidableEq, Repr

/-- The task that makes the calls, one after another. `ended` is the call that returns behind its push; the push of the
    operations by `bind` is none. -/
inductive Task (ε : Type) where
  | push (handles : List Handle) (ended : Option (Nat × Result ε))
  /-- In call `c` of the batcher's `push`. -/
  | inPush (c : Nat) (handles : List Handle) (ended : Option (Nat × Result ε))
  | idle
  /-- Before the first poll of `wait()`. -/
  | wait (call : Nat)
  | polling (call : Nat)
  | suspended (call : Nat)
  | failed (failure : Failure)

structure Calls (Req ε : Type) where
  batch : Batching.State := {}
  /-- `batching_read_buf` or `batching_write_buf`. -/
  slot : Option Addr := none
  boxes : Addr → Option (Boxed Req) := fun _ => none
  /-- The closures that have been pushed: the handle and its address. -/
  ops : Batching.Fut → Option (Handle × SocketAddr) := fun _ => none
  op : Op ε := .load
  outputs : Batching.Fut → Option (Batched ε) := fun _ => none
  task : Task ε
  /-- The number of the calls that have been made. -/
  called : Nat := 0

/-- The choices of a step of the task: the call of the batcher that it makes, how this goes on, and what the driver
    answers. -/
structure TaskChoice (Resp ε : Type) where
  c : Nat := 0
  batch : Batching.Choice := {}
  answer : Answer Resp ε := .wouldBlock

inductive Action (Req Resp ε : Type) where
  /-- `recv_from` or `send_to` is called, and boxes its buffer at the address. -/
  | call (ptr : Addr) (req : Req)
  | poll (waker : Batching.TaskWaker)
  | drop
  | task (choice : TaskChoice Resp ε)
  /-- The waker of an operation is woken. -/
  | wake (c : Nat) (id : Batching.FutureId)
  | waker (c : Nat) (choice : Batching.Choice)

namespace Calls
variable {Req Resp ε : Type}

/-- The group as `bind` has it, before it pushes the operations of the handles, in the order of the iterator. -/
def init (handles : List Handle) : Calls Req ε where
  task := .push handles none

def setBatch (s : Calls Req ε) (batch : Batching.State) : Calls Req ε := { s with batch }

def fail (s : Calls Req ε) (failure : Failure) : Calls Req ε := { s with task := .failed failure }

/-- A call boxes its buffer at `ptr`, swaps it into the slot and frees the box that it finds there. -/
def swap (s : Calls Req ε) (ptr : Addr) (req : Req) : Calls Req ε :=
  let swapped := { s with slot := some ptr, boxes := Function.update s.boxes ptr (some { buf := s.called, req })
                          task := .wait s.called, called := s.called + 1 }
  match s.slot with
  | none => swapped
  | some old =>
    if s.boxes old = none then s.fail .dangling else { swapped with boxes := Function.update swapped.boxes old none }

/-- The next step of the closure of the operation. -/
def opStep (op : BatchOp Req Resp) (s : Calls Req ε) (fut : Batching.Fut) (choice : TaskChoice Resp ε) :
    Option (Calls Req ε) :=
  match s.op with
  | .load =>
    match s.slot with
    | none => some (s.fail .notSet)
    | some ptr => some { s with op := .take ptr }
  | .take ptr => if s.slot = some ptr then some { s with slot := none, op := .fdCntl ptr } else some (s.fail .busy)
  | .fdCntl ptr =>
    match s.ops fut with
    | none => none
    | some (handle, laddr) =>
      match s.boxes ptr with
      | none => some (s.fail .dangling)
      | some boxed =>
        match op.result laddr boxed.req choice.answer with
        | none => some { s with op := .giveBack ptr }
        | some result => some { s with op := .ready ptr { handle, result } }
  | .giveBack ptr =>
    if s.slot = none then
      (Batching.step s.batch (.next { choice.batch with ready := false })).map fun batch =>
        { s with batch, slot := some ptr, op := .load }
    else some (s.fail .busy)
  | .ready ptr output =>
    match s.boxes ptr with
    | none => some (s.fail .dangling)
    | some _ =>
      (Batching.step s.batch (.next { choice.batch with ready := true })).map fun batch =>
        { s with batch
                 boxes := Function.update s.boxes ptr none
                 outputs := Function.update s.outputs fut (some output)
                 op := .load }

/-- The next step of a poll of `wait()`, or what the task does with its result. -/
def pollingStep (op : BatchOp Req Resp) (s : Calls Req ε) (call : Nat) (choice : TaskChoice Resp ε) :
    Option (Calls Req ε) :=
  match s.batch.poller with
  | .idle =>
    match s.batch.last with
    | none => none
    | some .pending => some { s with task := .suspended call }
    | some .readyNone => some (s.fail .closed)
    | some (.readySome fut) =>
      (s.outputs fut).map fun output => { s with task := .push [output.handle] (some (call, output.result)) }
  | .pollFuture _ fut => s.opStep op fut choice
  | _ => (Batching.step s.batch (.next choice.batch)).map s.setBatch

def taskStep (op : BatchOp Req Resp) (group : UdpGroup) (s : Calls Req ε) (choice : TaskChoice Resp ε) :
    Option (Calls Req ε) :=
  match s.task with
  | .idle | .wait _ | .suspended _ | .failed _ => none
  | .push [] _ => some { s with task := .idle }
  | .push (handle :: handles) ended =>
    match group.handleToLaddr handle with
    | none => some (s.fail .notMapped)
    | some laddr =>
      (Batching.step s.batch (.push choice.c)).map fun batch =>
        { s with batch
                 ops := Function.update s.ops choice.c (some (handle, laddr))
                 task := .inPush choice.c handles ended }
  | .inPush c handles ended =>
    if s.batch.calls c = .done then some { s with task := .push handles ended }
    else (Batching.step s.batch (.call c choice.batch)).map s.setBatch
  | .polling call => s.pollingStep op call choice

def step (op : BatchOp Req Resp) (group : UdpGroup) (s : Calls Req ε) : Action Req Resp ε → Option (Calls Req ε)
  | .call ptr req =>
    match s.task with
    | .idle => if s.boxes ptr = none then some (s.swap ptr req) else none
    | _ => none
  | .poll waker =>
    match s.task with
    | .wait call | .suspended call =>
      (Batching.step s.batch (.poll waker)).map fun batch => { s with batch, task := .polling call }
    | _ => none
  | .drop =>
    match s.task with
    | .suspended _ => some { s with task := .idle }
    | _ => none
  | .task choice => s.taskStep op group choice
  | .wake c id => (Batching.step s.batch (.wake c id)).map s.setBatch
  | .waker c choice => (Batching.step s.batch (.call c choice)).map s.setBatch

end Calls

/-- What happens to the calls: `fdCntl` is a call of the driver in a poll of the call. -/
inductive Event (Req Resp ε : Type) where
  | begun (call : Nat) (req : Req)
  | fdCntl (call : Nat) (handle : Handle) (boxed : Boxed Req) (answer : Answer Resp ε)
  | returned (call : Nat) (result : Result ε)
  | dropped (call : Nat)

section Events
variable {Req Resp ε : Type}

def events (s : Calls Req ε) : Action Req Resp ε → List (Event Req Resp ε)
  | .call _ req => [.begun s.called req]
  | .drop =>
    match s.task with
    | .suspended call => [.dropped call]
    | _ => []
  | .task choice =>
    match s.task with
    | .push [] (some (call, result)) => [.returned call result]
    | .polling call =>
      match s.batch.poller, s.op with
      | .pollFuture _ fut, .fdCntl ptr =>
        match s.ops fut, s.boxes ptr with
        | some (handle, _), some boxed => [.fdCntl call handle boxed choice.answer]
        | _, _ => []
      | _, _ => []
    | _ => []
  | _ => []

/-- The call that has begun and not ended, with its request. -/
def current : List (Event Req Resp ε) → Option (Nat × Req)
  | [] | .returned .. :: _ | .dropped _ :: _ => none
  | .begun call req :: _ => some (call, req)
  | .fdCntl .. :: past => current past

/-- The driver gets the buffer and the request of the call that has not ended, and a call returns what the driver has
    answered it last, on a path that `names` allows for the local address of the handle and the request. -/
def Proper (names : Names Req Resp) (group : UdpGroup) (past : List (Event Req Resp ε)) : Event Req Resp ε → Prop
  | .fdCntl call _ boxed _ => boxed.buf = call ∧ current past = some (call, boxed.req)
  | .returned call result => ∃ handle laddr boxed answer before,
    past = .fdCntl call handle boxed answer :: before ∧ group.handleToLaddr handle = some laddr ∧
      answer.Gives (names laddr boxed.req) result
  | .begun .. | .dropped _ => True

/-- Every handle that is bound has one operation in the batcher. -/
def AllPending (group : UdpGroup) (s : Calls Req ε) : Prop :=
  ∀ laddr fd, (laddr, fd) ∈ group.fds →
    ∃! id, ∃ fut, s.batch.pendingFutures id = some fut ∧ s.ops fut = some (fd, laddr)

/-- No assertion and no `expect` has failed, every call has had its own buffer and path, and between two calls each handle
    is pending. -/
structure Served (names : Names Req Resp) (group : UdpGroup) (s : Calls Req ε) (past : List (Event Req Resp ε)) : Prop where
  notFailed : ∀ failure, s.task ≠ .failed failure
  notPanicked : s.batch.poller ≠ .panicked
  proper : Throughout (Proper names group) past
  pending : s.task = .idle → AllPending group s

end Events

end Hala.Udp
