import Hala.Quic.ConnCalls

/-! The streams of a connection through its life: how they come into its tables, are handed out, and are closed. -/

namespace Hala.Quic
variable {Q : Type}

/-! ### The tables -/

namespace RawQuicConnState

/-- The state without the `quiche` connection and the time of the last packet. -/
def tables (s : RawQuicConnState Q) : RawQuicConnState Unit :=
  { quicheConn := (), sendAckElicitingInstant := 0, pingTimeout := s.pingTimeout
    registerIncomingStreamIds := s.registerIncomingStreamIds, registerOutgoingStreamIds := s.registerOutgoingStreamIds
    lastestOutgoingStreamId := s.lastestOutgoingStreamId, incoming := s.incoming
    droppingStreamQueue := s.droppingStreamQueue, halfClosedStreams := s.halfClosedStreams }

/-- The ids that `handle_quic_incoming_stream` places in the incoming queue when `quiche` reports a stream as readable. -/
def arrivals (s : RawQuicConnState Q) : Option StreamId → List StreamId
  | some id => if s.lastestOutgoingStreamId % 2 ≠ id % 2 ∧ id ∉ s.registerIncomingStreamIds then [id] else []
  | none => []

def arrive (s : RawQuicConnState Q) (reported : Option StreamId) : RawQuicConnState Q :=
  { s with
    registerIncomingStreamIds := (s.arrivals reported).foldr insert s.registerIncomingStreamIds
    incoming := s.incoming ++ s.arrivals reported }

end RawQuicConnState

variable (quiche : Quiche Q)

/-- The stream that `handle_stream_events` obtains from `stream_readable_next` in a pass. -/
def Op.reported (c : QuicConnState Q) : Op → Option StreamId
  | .loop (.streamSend id buf fin) =>
    if QuicConnState.gone quiche c.state.quicheConn ∨ id ∈ c.state.halfClosedStreams then none
    else
      match quiche.streamSend c.state.quicheConn id buf fin with
      | (q, .ok _) | (q, .error .done) => (quiche.streamReadableNext q).2
      | (_, .error _) => none
  | .loop (.streamRecv id size) =>
    if QuicConnState.gone quiche c.state.quicheConn ∨ id ∈ c.state.halfClosedStreams then none
    else
      match quiche.streamRecv c.state.quicheConn id size with
      | (_, .error (.invalidStreamState _)) => none
      | (q, _) => (quiche.streamReadableNext q).2
  | .write buf info =>
    if QuicConnState.gone quiche c.state.quicheConn then none
    else
      match quiche.recv c.state.quicheConn buf info with
      | (q, .ok _) => (quiche.streamReadableNext q).2
      | (_, .error _) => none
  | .loop .accept | .openStream | .closeStream _ | .streamShutdown .. | .close .. => none

/-- The operation that makes a pass in a step, and where the pass leaves its call. -/
def ConnCalls.passed (s : ConnCalls Q) : Nat × ConnAction → Option (Op × Call)
  | (_, .task i fuel order) =>
    match s.calls i with
    | .lock op => (op.pass quiche fuel order s.conn).map fun (_, call) => (op, call)
    | _ => none
  | _ => none

/-! ### The history of the incoming queue -/

inductive IncomingEvent where
  /-- `handle_stream_events` has obtained the id from `stream_readable_next`. -/
  | reported (id : StreamId)
  /-- The id is placed in the incoming queue. -/
  | placed (id : StreamId)
  /-- `accept` returns the id. -/
  | accepted (id : StreamId)
  /-- `open_stream` returns the id. -/
  | opened (id : StreamId)
  deriving DecidableEq, Repr

/-- The streams that a pass hands out. -/
def Op.handedOut : Op → Call → List IncomingEvent
  | .loop .accept, .returned (.accepted (some id)) => [.accepted id]
  | .openStream, .returned (.opened (.ok id)) => [.opened id]
  | _, _ => []

/-- What a pass that leaves the call in `call` means for the queue. -/
def Op.incomingEvents (c : QuicConnState Q) (op : Op) (call : Call) : List IncomingEvent :=
  (op.reported quiche c).toList.map .reported ++ (c.state.arrivals (op.reported quiche c)).map .placed ++ op.handedOut call

def ConnCalls.incomingEvents (s : ConnCalls Q) (a : Nat × ConnAction) : List IncomingEvent :=
  match s.passed quiche a with
  | some (op, call) => op.incomingEvents quiche s.conn call
  | none => []

def IncomingEvent.placed? : IncomingEvent → Option StreamId
  | .placed id => some id
  | _ => none

def IncomingEvent.accepted? : IncomingEvent → Option StreamId
  | .accepted id => some id
  | _ => none

/-- The ids that have been placed in the queue, the first one first. -/
def placedIds (past : List IncomingEvent) : List StreamId := past.reverse.filterMap IncomingEvent.placed?

/-- The ids that `accept` has returned, the first one first. -/
def acceptedIds (past : List IncomingEvent) : List StreamId := past.reverse.filterMap IncomingEvent.accepted?

/-! ### The history of the closed streams -/

/-- The stream that `close_stream` puts in the dropping queue. -/
def Op.enqueues (c : QuicConnState Q) : Op → Option StreamId
  | .closeStream id =>
    if QuicConnState.gone quiche c.state.quicheConn ∨ id ∈ c.state.registerOutgoingStreamIds then none else some id
  | _ => none

inductive CloseEvent where
  /-- `close_stream` puts the id in the dropping queue. -/
  | enqueued (id : StreamId)
  /-- The ids leave `half_closed_streams`. -/
  | left (ids : Finset StreamId)
  deriving DecidableEq

namespace ConnCalls

/-- The stream that a step puts in the dropping queue. -/
def enqueues (s : ConnCalls Q) (a : Nat × ConnAction) : Option StreamId :=
  (s.passed quiche a).bind fun (op, _) => op.enqueues quiche s.conn

def closeEvents (s : ConnCalls Q) (a : Nat × ConnAction) : List CloseEvent :=
  match s.step quiche a with
  | some s' =>
    (s.enqueues quiche a).toList.map .enqueued ++ [.left (s.conn.state.halfClosedStreams \ s'.conn.state.halfClosedStreams)]
  | none => []

end ConnCalls

/-! ### The streams of the user

A `QuicStream` (`crates/net/quic/src/conn.rs`) is known by the call of `accept` or `open_stream` that has returned its id.
`poll_close` and the drop of its last clone call `close_stream`. -/

def Call.streamId : Call → Option StreamId
  | .returned (.accepted (some id)) | .returned (.opened (.ok id)) => some id
  | _ => none

structure StreamTasks (Q : Type) where
  conn : ConnCalls Q
  /-- How many clones there are of the `QuicStream` of a call, once it has been made. -/
  clones : Nat → Option Nat := fun _ => none

inductive StreamAction where
  /-- Any step of the connection; `close_stream` is only called by the streams. -/
  | conn (a : Nat × ConnAction)
  /-- The `QuicStream` of call `i` is made. -/
  | wrap (i : Nat)
  | clone (i : Nat)
  /-- `poll_close` of the `QuicStream` of call `i` starts `close_stream` as call `j`. -/
  | pollClose (i j : Nat)
  /-- A clone is dropped; the last one spawns `close_stream` as call `j`. -/
  | drop (i j : Nat)

namespace StreamTasks

/-- `close_stream` of the stream of call `i` begins as call `j`. -/
def closes (s : StreamTasks Q) (i j : Nat) : Option (Nat × ConnAction) :=
  (s.conn.calls i).streamId.map fun id => (0, .call j (.closeStream id))

def isClose : Nat × ConnAction → Bool
  | (_, .call _ (.closeStream _)) => true
  | _ => false

/-- What an action does to the clones, and the step of the connection that it is. -/
def effect (s : StreamTasks Q) : StreamAction → Option ((Nat → Option Nat) × Option (Nat × ConnAction))
  | .conn a => if isClose a then none else some (s.clones, some a)
  | .wrap i =>
    match (s.conn.calls i).streamId, s.clones i with
    | some _, none => some (Function.update s.clones i (some 1), none)
    | _, _ => none
  | .clone i =>
    match s.clones i with
    | some (n + 1) => some (Function.update s.clones i (some (n + 2)), none)
    | _ => none
  | .pollClose i j =>
    match s.clones i with
    | some (_ + 1) => (s.closes i j).map fun a => (s.clones, some a)
    | _ => none
  | .drop i j =>
    match s.clones i with
    | some (n + 2) => some (Function.update s.clones i (some (n + 1)), none)
    | some 1 => (s.closes i j).map fun a => (Function.update s.clones i (some 0), some a)
    | _ => none

def step (s : StreamTasks Q) (a : StreamAction) : Option (StreamTasks Q) :=
  match s.effect a with
  | none => none
  | some (clones, none) => some { s with clones }
  | some (clones, some b) => (s.conn.step quiche b).map fun conn => { conn, clones }

def closeEvents (s : StreamTasks Q) (a : StreamAction) : List CloseEvent :=
  match s.effect a with
  | some (_, some b) => s.conn.closeEvents quiche b
  | _ => []

/-- A `close_stream` that puts its stream in the dropping queue is the first one that does. -/
def firstClose (s : StreamTasks Q × List CloseEvent) (a : StreamAction) : Bool :=
  match s.1.effect a with
  | some (_, some b) =>
    match s.1.conn.enqueues quiche b with
    | some id => decide (.enqueued id ∉ s.2)
    | none => true
  | _ => true

end StreamTasks

end Hala.Quic
