import Hala.Quic.Streams

/-! `QuicStream` (`crates/net/quic/src/conn.rs`) as an `AsyncRead`, and the futures that its users drop. -/

namespace Hala.Quic

/-- `std::task::Poll`. -/
inductive Poll (α : Type) where
  | pending
  | ready (a : α)

variable {Q : Type} (quiche : Quiche Q)

/-- `poll_read` with a buffer of `size` bytes, and the bytes that are copied into it. The future of `stream_recv` is made
    for this poll and dropped with it; `locked` says that another task has the lock. -/
def QuicStream.pollRead (id : StreamId) (size : Nat) (locked : Bool) (c : QuicConnState Q) :
    QuicConnState Q × Poll (Except IoError Bytes) :=
  if locked then (c, .pending)
  else
    match c.streamRecv quiche id size with
    | (c, .ret (.ok (data, _))) => (c, .ready (.ok data))
    | (c, .ret (.error err)) => (c, .ready (if err.kind = .brokenPipe then .ok [] else .error err))
    -- The loop of `stream_recv` goes on after a wait only.
    | (c, .again) | (c, .wait ..) => (c, .pending)

/-! ### Calls that are dropped -/

inductive CallAction where
  | conn (a : Nat × ConnAction)
  /-- The future of call `i` is dropped, and its task can begin another call. -/
  | drop (i : Nat)

/-- The stream whose end a pass of `stream_recv` has returned. -/
def Op.finished : Op → Call → List StreamId
  | .loop (.streamRecv id _), .returned (.data (.ok (_, true))) => [id]
  | _, _ => []

namespace ConnCalls

/-- `stream_shutdown` does not suspend between its lock and its notification. -/
def callStep (s : ConnCalls Q) : CallAction → Option (ConnCalls Q)
  | .conn a => s.step quiche a
  | .drop i =>
    match s.calls i with
    | .shutdown .. => none
    | _ => some (s.setCall i .idle)

def finished (s : ConnCalls Q) : CallAction → List StreamId
  | .conn a =>
    match s.passed quiche a with
    | some (op, call) => op.finished call
    | none => []
  | .drop _ => []

/-- A task is suspended in `stream_send` or `stream_recv` of the stream, in a `Wait` that nobody has notified. -/
def Suspended (s : ConnCalls Q) (id : StreamId) (cell : Cell) : Prop :=
  ∃ i op, s.calls i = .wait op cell ∧ (Op.loop op).stream = some id ∧ s.conn.mediator.reasons cell = .none

/-- At most one task is suspended in each direction of the stream. -/
def OnePerDirection (s : ConnCalls Q) (id : StreamId) : Prop :=
  s.OneWaiterFor (.streamReadable s.conn.scid id) ∧ s.OneWaiterFor (.streamWritable s.conn.scid id)

end ConnCalls

end Hala.Quic
