import Hala.Lib.Machine
import Hala.Quic.Conn

/-! The tasks that share one `QuicConnState`.

One task reads the packets that are to be sent; the listener's batch and the client's send loop are such a
task. Any number of calls of the other operations run beside it. A step is what a task does while it holds the
lock, or the way out of a wait that has been resolved. -/

namespace Hala.Quic
open Machine

/-- The operations that can suspend. -/
inductive LoopOp where
  | streamSend (id : StreamId) (buf : Bytes) (fin : Bool)
  | streamRecv (id : StreamId) (size : Nat)
  | accept
  deriving DecidableEq, Repr

inductive Op where
  | loop (op : LoopOp)
  | write (buf : Bytes) (info : PathInfo)
  | openStream
  | closeStream (id : StreamId)
  | streamShutdown (id : StreamId) (err : Nat)
  | close (app : Bool) (err : Nat) (reason : Bytes)
  deriving DecidableEq, Repr

/-- What the operations return. -/
inductive Return where
  | size (result : Except IoError Nat)
  | data (result : Except IoError (Bytes × Bool))
  | accepted (result : Option StreamId)
  | opened (result : Except IoError StreamId)
  | unit (result : Except IoError Unit)

inductive Call where
  | idle
  | lock (op : Op)
  | wait (op : LoopOp) (cell : Cell)
  /-- `stream_shutdown` has released the lock. -/
  | shutdown (id : StreamId) (result : Except IoError Unit)
  | returned (result : Return)

/-- The task in `read`, with a buffer of `size` bytes. -/
inductive Reader where
  | idle
  | lock (size : Nat)
  | wait (size : Nat) (cell : Cell) (expired : Option Nanos)
  | expired (size : Nat)
  | returned (result : Except IoError (Bytes × PathInfo))

structure ConnTasks (Q : Type) where
  conn : QuicConnState Q
  clock : Nanos := 0
  reader : Reader := .idle
  calls : Nat → Call := fun _ => .idle

inductive ConnAction where
  | elapse (nanos : Nanos)
  /-- `read` is called. -/
  | read (size : Nat)
  | reader
  /-- The timer of the suspended reader fires before it is notified. -/
  | timeout
  | call (i : Nat) (op : Op)
  | task (i : Nat) (fuel : Nat) (order : List StreamId)

def Flow.toCall {α : Type} (op : LoopOp) (result : α → Return) : Flow α → Call
  | .ret a => .returned (result a)
  | .again => .lock (.loop op)
  | .wait cell _ => .wait op cell

def Flow.toReader (size : Nat) : Flow (Except IoError (Bytes × PathInfo)) → Reader
  | .ret a => .returned a
  | .again => .lock size
  | .wait cell expired => .wait size cell expired

/-- What an operation returns when its wait has been cancelled. -/
def LoopOp.cancelled (err : EventMapError) : LoopOp → Return
  | .streamSend .. => .size (.error (eventMapIoError err))
  | .streamRecv .. => .data (.error (eventMapIoError err))
  | .accept => .accepted none

variable {Q : Type} (quiche : Quiche Q)

/-- One pass of an operation under the lock, and where it leaves the call. -/
def Op.pass (fuel : Nat) (order : List StreamId) (c : QuicConnState Q) : Op → Option (QuicConnState Q × Call)
  | .loop (.streamSend id buf fin) =>
    let (c, flow) := c.streamSend quiche id buf fin
    some (c, flow.toCall (.streamSend id buf fin) .size)
  | .loop (.streamRecv id size) =>
    let (c, flow) := c.streamRecv quiche id size
    some (c, flow.toCall (.streamRecv id size) .data)
  | .loop .accept =>
    let (c, flow) := c.accept quiche
    some (c, flow.toCall .accept .accepted)
  | .write buf info => (c.write quiche fuel order buf info).map fun (c, result) => (c, .returned (.size result))
  | .openStream =>
    let (c, result) := c.openStream quiche
    some (c, .returned (.opened result))
  | .closeStream id =>
    let (c, result) := c.closeStream quiche id
    some (c, .returned (.unit result))
  | .streamShutdown id err =>
    let (c, result) := c.streamShutdown quiche id err
    some (c, .shutdown id result)
  | .close app err reason =>
    let (c, result) := c.close quiche app err reason
    some (c, .returned (.unit result))

namespace ConnTasks

def setCall (s : ConnTasks Q) (i : Nat) (call : Call) : ConnTasks Q := { s with calls := Function.update s.calls i call }

/-- The next step of a call. -/
def taskStep (s : ConnTasks Q) (i fuel : Nat) (order : List StreamId) : Option (ConnTasks Q) :=
  match s.calls i with
  | .idle | .returned _ => none
  | .lock op => (op.pass quiche fuel order s.conn).map fun (conn, call) => { s with conn }.setCall i call
  | .wait op cell =>
    match s.conn.mediator.poll cell with
    | none => none
    | some (.ok ()) => some (s.setCall i (.lock (.loop op)))
    | some (.error err) => some (s.setCall i (.returned (op.cancelled err)))
  | .shutdown id result => some ({ s with conn := s.conn.streamShutdownNotify id }.setCall i (.returned (.unit result)))

/-- The next step of the reader. -/
def readerStep (s : ConnTasks Q) : Option (ConnTasks Q) :=
  match s.reader with
  | .idle | .returned _ => none
  | .lock size =>
    let (conn, flow) := s.conn.read quiche s.clock size
    some { s with conn, reader := flow.toReader size }
  | .wait size cell _ =>
    match s.conn.mediator.poll cell with
    | none => none
    | some (.ok ()) => some { s with reader := .lock size }
    | some (.error err) => some { s with reader := .returned (.error (eventMapIoError err)) }
  | .expired size =>
    let (conn, flow) := s.conn.readExpired quiche s.clock
    some { s with conn, reader := flow.toReader size }

def step (s : ConnTasks Q) : ConnAction → Option (ConnTasks Q)
  | .elapse nanos => some { s with clock := s.clock + nanos }
  | .read size =>
    match s.reader with
    | .idle | .returned _ => some { s with reader := .lock size }
    | _ => none
  | .reader => s.readerStep quiche
  | .timeout =>
    match s.reader with
    | .wait size _ _ => some { s with reader := .expired size }
    | _ => none
  | .call i op =>
    match s.calls i with
    | .idle => some (s.setCall i (.lock op))
    | _ => none
  | .task i fuel order => s.taskStep quiche i fuel order

/-- `quiche` has a packet to send to a reader with a buffer of `size` bytes. -/
def hasPacket (q : Q) (size : Nat) : Bool := (quiche.send q size).2.isOk

/-- A task is suspended in `read` on a `Wait` that nobody has notified. -/
def Asleep (s : ConnTasks Q) (size : Nat) : Prop :=
  ∃ cell expired, s.reader = .wait size cell expired ∧ s.conn.mediator.reasons cell = .none

end ConnTasks

/-- The `quiche` connection with which an operation leaves by an exit that notifies no reader: `write` unless it
    finds the connection gone, `stream_send` and `stream_recv` with an error of `quiche`, `stream_shutdown` and
    `close`. -/
def Op.silentExit (fuel : Nat) (order : List StreamId) (c : QuicConnState Q) : Op → Option Q
  | .write buf info =>
    if QuicConnState.gone quiche c.state.quicheConn then none
    else
      match quiche.recv c.state.quicheConn buf info with
      | (q, .ok _) =>
        (((c.setQuiche q).handleStreamEvents quiche).handleHalfClosedStreams quiche fuel order).map (·.state.quicheConn)
      | (q, .error _) => if QuicConnState.gone quiche q then none else some q
  | .loop (.streamSend id buf fin) =>
    if QuicConnState.gone quiche c.state.quicheConn ∨ id ∈ c.state.halfClosedStreams then none
    else
      match quiche.streamSend c.state.quicheConn id buf fin with
      | (_, .ok _) | (_, .error .done) => none
      | (q, .error _) => if QuicConnState.gone quiche q then none else some q
  | .loop (.streamRecv id size) =>
    if QuicConnState.gone quiche c.state.quicheConn ∨ id ∈ c.state.halfClosedStreams then none
    else
      match quiche.streamRecv c.state.quicheConn id size with
      | (_, .ok _) | (_, .error .done) => none
      | (q, .error (.invalidStreamState _)) => if id ∈ c.state.registerOutgoingStreamIds then none else some q
      | (q, .error _) => some ((c.setQuiche q).handleStreamEvents quiche).state.quicheConn
  | .streamShutdown id err => some (quiche.streamShutdownRead c.state.quicheConn id err).1
  | .close app err reason => some (quiche.close c.state.quicheConn app err reason).1
  | .loop .accept | .openStream | .closeStream _ => none

/-- While a task is asleep in `read`, no operation leaves a packet to send by an exit that notifies no reader. -/
def ConnTasks.Announced (s : ConnTasks Q) : ConnAction → Prop
  | .task i fuel order =>
    ∀ op q size, s.calls i = .lock op → op.silentExit quiche fuel order s.conn = some q → s.Asleep size →
      hasPacket quiche q size = false
  | _ => True

end Hala.Quic
