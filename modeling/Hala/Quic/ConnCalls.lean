import Hala.Quic.ConnTasks

/-! A `QuicConnState` with any number of tasks in `read`.

Each step is one of `ConnTasks`, as it is seen with one of the readers. -/

namespace Hala.Quic

structure ConnCalls (Q : Type) where
  conn : QuicConnState Q
  clock : Nanos := 0
  readers : Nat → Reader := fun _ => .idle
  calls : Nat → Call := fun _ => .idle

namespace ConnCalls
variable {Q : Type} (quiche : Quiche Q)

/-- The connection and the tasks with the reader `r` as the only one. -/
def view (s : ConnCalls Q) (r : Nat) : ConnTasks Q :=
  { conn := s.conn, clock := s.clock, reader := s.readers r, calls := s.calls }

def setReader (s : ConnCalls Q) (r : Nat) (reader : Reader) : ConnCalls Q :=
  { s with readers := Function.update s.readers r reader }

def setCall (s : ConnCalls Q) (i : Nat) (call : Call) : ConnCalls Q := { s with calls := Function.update s.calls i call }

/-- The step `a.2`, where `a.1` is the reader that it can be one of. -/
def step (s : ConnCalls Q) (a : Nat × ConnAction) : Option (ConnCalls Q) :=
  ((s.view a.1).step quiche a.2).map fun t =>
    { conn := t.conn, clock := t.clock, readers := Function.update s.readers a.1 t.reader, calls := t.calls }

end ConnCalls

/-- The event that an operation waits for. -/
def LoopOp.event (scid : ConnId) : LoopOp → ConnEvent
  | .streamSend id _ _ => .streamWritable scid id
  | .streamRecv id _ => .streamReadable scid id
  | .accept => .accept scid

/-- The `Wait` in which a call is suspended. -/
def Call.waiting (scid : ConnId) : Call → Option (ConnEvent × Cell)
  | .wait op cell => some (op.event scid, cell)
  | _ => none

/-- The `Wait` in which a reader is suspended. -/
def Reader.waiting (scid : ConnId) : Reader → Option (ConnEvent × Cell)
  | .wait _ cell _ => some (.readable scid, cell)
  | _ => none

inductive TaskId where
  | reader (r : Nat)
  | call (i : Nat)
  deriving DecidableEq, Repr

/-- The `Wait` in which a task is suspended. -/
def ConnCalls.waiting {Q : Type} (s : ConnCalls Q) : TaskId → Option (ConnEvent × Cell)
  | .reader r => (s.readers r).waiting s.conn.scid
  | .call i => (s.calls i).waiting s.conn.scid

/-- The event does not have two tasks that wait for it and have not been notified. -/
def ConnCalls.OneWaiterFor {Q : Type} (s : ConnCalls Q) (event : ConnEvent) : Prop :=
  ∀ t t' cell cell', s.waiting t = some (event, cell) → s.waiting t' = some (event, cell') →
    s.conn.mediator.reasons cell = .none → s.conn.mediator.reasons cell' = .none → t = t'

/-- No event has two tasks that wait for it and have not been notified. -/
def ConnCalls.OneWaiter {Q : Type} (s : ConnCalls Q) : Prop := ∀ event, s.OneWaiterFor event

/-- The call has returned an error, or no stream. -/
def Call.failed : Call → Bool
  | .returned (.size (.error _)) | .returned (.data (.error _)) | .returned (.opened (.error _))
  | .returned (.unit (.error _)) | .returned (.accepted none) => true
  | _ => false

def Reader.failed : Reader → Bool
  | .returned (.error _) => true
  | _ => false

/-- `stream_shutdown` and `close` do not look at the status of the connection. -/
def Op.checksStatus : Op → Bool
  | .streamShutdown .. | .close .. => false
  | _ => true

/-- The task that finds in a step that the connection is closed, draining or timed out: it leaves the lock with an
    error, or without a stream. -/
def ConnCalls.observed {Q : Type} (quiche : Quiche Q) (s : ConnCalls Q) : Nat × ConnAction → List TaskId
  | (r, .reader) =>
    match s.readers r with
    | .lock size =>
      let (c, flow) := s.conn.read quiche s.clock size
      if (flow.toReader size).failed && QuicConnState.gone quiche c.state.quicheConn then [.reader r] else []
    | _ => []
  | (_, .task i fuel order) =>
    match s.calls i with
    | .lock op =>
      match op.pass quiche fuel order s.conn with
      | some (c, call) =>
        if op.checksStatus && call.failed && QuicConnState.gone quiche c.state.quicheConn then [.call i] else []
      | none => []
    | _ => []
  | _ => []

/-! ### The history of the streams -/

inductive StreamEvent where
  /-- `close_stream(id)` has returned `Ok`. -/
  | closed (id : StreamId)
  /-- Call `i` is a `stream_send` or `stream_recv` on the stream, and begins. -/
  | called (i : Nat) (id : StreamId)
  /-- Call `i`, one of these, has returned `Ok`. -/
  | succeeded (i : Nat)
  deriving DecidableEq, Repr

/-- The stream of a `stream_send` or `stream_recv`. -/
def Op.stream : Op → Option StreamId
  | .loop (.streamSend id _ _) | .loop (.streamRecv id _) => some id
  | _ => none

/-- What the end of a pass means for the streams. -/
def Op.streamEvent (i : Nat) : Op → Call → List StreamEvent
  | .closeStream id, .returned (.unit (.ok ())) => [.closed id]
  | .loop (.streamSend ..), .returned (.size (.ok _)) => [.succeeded i]
  | .loop (.streamRecv ..), .returned (.data (.ok _)) => [.succeeded i]
  | _, _ => []

def ConnCalls.streamEvents {Q : Type} (quiche : Quiche Q) (s : ConnCalls Q) : Nat × ConnAction → List StreamEvent
  | (_, .call i op) => (op.stream.map fun id => .called i id).toList
  | (_, .task i fuel order) =>
    match s.calls i with
    | .lock op =>
      match op.pass quiche fuel order s.conn with
      | some (_, call) => op.streamEvent i call
      | none => []
    | _ => []
  | _ => []

/-- Call `i` has begun after its stream was closed. -/
def late (i : Nat) : List StreamEvent → Bool
  | [] => false
  | .called j id :: past => decide (i = j) && decide (.closed id ∈ past) || late i past
  | _ :: past => late i past

/-- Where a stream is in its life. -/
inductive StreamPlace where
  /-- In `register_outgoing_stream_ids`: it is open and nothing has been sent on it. -/
  | registered
  /-- In `dropping_stream_queue`: it is closed, and `read` has not sent its end yet. -/
  | dropping
  /-- In `half_closed_streams`: its end has been sent, and `write` has not found the end of the peer yet. -/
  | halfClosed
  /-- In none of them: it is in use, or it was closed unused, or both ends have been seen. -/
  | nowhere
  deriving DecidableEq, Repr

/-- A stream that was closed more than once is where its first `close_stream` has brought it. -/
def RawQuicConnState.place {Q : Type} (s : RawQuicConnState Q) (id : StreamId) : StreamPlace :=
  if id ∈ s.halfClosedStreams then .halfClosed
  else if id ∈ s.droppingStreamQueue then .dropping
  else if id ∈ s.registerOutgoingStreamIds then .registered
  else .nowhere

/-- A late call takes the lock while its stream is half closed, or when the connection is gone. -/
def ConnCalls.halfClosedWhenLate {Q : Type} (quiche : Quiche Q) (s : ConnCalls Q × List StreamEvent) :
    Nat × ConnAction → Bool
  | (_, .task i _ _) =>
    match s.1.calls i with
    | .lock op =>
      !late i s.2 || QuicConnState.gone quiche s.1.conn.state.quicheConn ||
        op.stream.any fun id => s.1.conn.state.place id == .halfClosed
    | _ => true
  | _ => true

end Hala.Quic
