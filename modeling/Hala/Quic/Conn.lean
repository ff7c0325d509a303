import Hala.Quic.Quiche
import Mathlib.Data.Finset.Basic

/-! `QuicConnState` (`crates/net/quic/src/state/conn.rs`).

A definition is what an operation does from `lock` to the end of its guard. An operation with a loop makes one
pass of the loop; it returns, starts another pass, or has registered a `Wait` and is suspended. -/

namespace Hala.Quic

inductive ConnEvent where
  | readable (scid : ConnId)
  | writable (scid : ConnId)
  | streamReadable (scid : ConnId) (id : StreamId)
  | streamWritable (scid : ConnId) (id : StreamId)
  | accept (scid : ConnId)
  deriving DecidableEq, Repr

structure RawQuicConnState (Q : Type) where
  quicheConn : Q
  sendAckElicitingInstant : Nanos
  pingTimeout : Nanos
  registerIncomingStreamIds : Finset StreamId := ∅
  registerOutgoingStreamIds : Finset StreamId := ∅
  lastestOutgoingStreamId : StreamId
  incoming : List StreamId := []
  droppingStreamQueue : List StreamId := []
  halfClosedStreams : Finset StreamId := ∅

structure QuicConnState (Q : Type) where
  state : RawQuicConnState Q
  mediator : EventMap ConnEvent := {}
  scid : ConnId
  dcid : ConnId
  isServer : Bool

/-- How a pass through the loop of an operation ends. A `Wait` under `timeout` has a duration. -/
inductive Flow (α : Type) where
  | ret (a : α)
  | again
  | wait (cell : Cell) (expired : Option Nanos)

variable {Q : Type}

def RawQuicConnState.new (quiche : Quiche Q) (now : Nanos) (q : Q) (pingTimeout : Nanos) (first : StreamId) :
    RawQuicConnState Q :=
  (quiche.readable q).foldl
    (fun this id =>
      { this with
        registerIncomingStreamIds :=
          if id % 2 ≠ first % 2 then insert id this.registerIncomingStreamIds else this.registerIncomingStreamIds
        incoming := this.incoming ++ [id] })
    { quicheConn := q, pingTimeout, sendAckElicitingInstant := now, lastestOutgoingStreamId := first }

namespace QuicConnState

def new (quiche : Quiche Q) (now : Nanos) (q : Q) (pingTimeout : Nanos) (first : StreamId) : QuicConnState Q :=
  { isServer := quiche.isServer q, scid := quiche.sourceId q, dcid := quiche.destinationId q
    state := .new quiche now q pingTimeout first }

/-- The connection with another value for its `quiche` connection. -/
def setQuiche (c : QuicConnState Q) (q : Q) : QuicConnState Q := { c with state := { c.state with quicheConn := q } }

def notify (c : QuicConnState Q) (event : ConnEvent) (reason : Reason) : QuicConnState Q :=
  { c with mediator := c.mediator.notify event reason }

def notifyAll (c : QuicConnState Q) (events : List ConnEvent) (reason : Reason) : QuicConnState Q :=
  { c with mediator := c.mediator.notifyAll events reason }

/-- `mediator.wait`, polled once. -/
def wait {α : Type} (c : QuicConnState Q) (event : ConnEvent) (expired : Option Nanos) : QuicConnState Q × Flow α :=
  ({ c with mediator := (c.mediator.wait event).1 }, .wait (c.mediator.wait event).2 expired)

def debug (c : QuicConnState Q) : String :=
  "QuicConnState, scid=" ++ debugConnId c.scid ++ ", dcid=" ++ debugConnId c.dcid ++ ", is_server=" ++ toString c.isServer

variable (quiche : Quiche Q)

/-- The connection is closed, draining or timed out. -/
def gone (q : Q) : Bool := quiche.isClosed q || quiche.isDraining q || quiche.isTimedOut q

def handleQuicConnStatus (c : QuicConnState Q) : QuicConnState Q × Except IoError Unit :=
  if gone quiche c.state.quicheConn then
    ({ c with mediator := c.mediator.notifyAny .cancel },
      .error { kind := .brokenPipe, source := .text (debugConnId (quiche.sourceId c.state.quicheConn) ++ " closed") })
  else (c, .ok ())

def handleQuicIncomingStream (c : QuicConnState Q) (id : StreamId) : QuicConnState Q :=
  if c.state.lastestOutgoingStreamId % 2 ≠ id % 2 ∧ id ∉ c.state.registerIncomingStreamIds then
    { c with state := { c.state with
        registerIncomingStreamIds := insert id c.state.registerIncomingStreamIds
        incoming := c.state.incoming ++ [id] } }.notify (.accept c.scid) .on
  else c

def notifyReadable (c : QuicConnState Q) : QuicConnState Q × Except IoError Unit :=
  match c.handleQuicConnStatus quiche with
  | (c, .error err) => (c, .error err)
  | (c, .ok ()) => (c.notify (.readable c.scid) .on, .ok ())

def handleStreamStatus (c : QuicConnState Q) (id : StreamId) : Except IoError Unit :=
  if id ∈ c.state.halfClosedStreams then
    .error { kind := .brokenPipe, source := .text (c.debug ++ ", stream_id=" ++ toString id ++ ", closed") }
  else .ok ()

/-- Both loops of the source return in their first round. -/
def handleStreamEvents (c : QuicConnState Q) : QuicConnState Q :=
  match quiche.streamReadableNext c.state.quicheConn with
  | (q, some id) => ((c.setQuiche q).handleQuicIncomingStream id).notify (.streamReadable c.scid id) .on
  | (q, none) =>
    match quiche.streamWritableNext q with
    | (q, some id) => (c.setQuiche q).notify (.streamWritable c.scid id) .on
    | (q, none) => c.setQuiche q

def handleSendTimout (now : Nanos) (c : QuicConnState Q) : QuicConnState Q × Except IoError (Option Nanos) :=
  let elapsed := now - c.state.sendAckElicitingInstant
  if elapsed > c.state.pingTimeout then
    match quiche.sendAckEliciting c.state.quicheConn with
    | (q, .error err) => (c.setQuiche q, .error (intoIoError err))
    | (q, .ok ()) => ({ c with state := { c.state with quicheConn := q, sendAckElicitingInstant := now } }, .ok none)
  else
    let pingTimout := c.state.pingTimeout - elapsed
    match quiche.timeout c.state.quicheConn now with
    | some timeout => (c, .ok (some (if timeout < pingTimout ∧ timeout > 10000000 then timeout else pingTimout)))
    | none => (c, .ok (some pingTimout))

/-- The loop over the dropping queue, and the streams whose `fin` could not be sent yet. -/
def dropStreams (c : QuicConnState Q) : List StreamId → QuicConnState Q × List StreamId
  | [] => (c, [])
  | id :: ids =>
    match quiche.streamSend c.state.quicheConn id [] true with
    | (q, .error .done) =>
      let (c, pending) := dropStreams (c.setQuiche q) ids
      (c, id :: pending)
    | (q, _) =>
      let c := (c.setQuiche q).notifyAll [.streamWritable c.scid id, .streamReadable c.scid id] .cancel
      dropStreams { c with state := { c.state with halfClosedStreams := insert id c.state.halfClosedStreams } } ids

def handleDroppingStreams (c : QuicConnState Q) : QuicConnState Q :=
  let (c, pending) := dropStreams quiche { c with state := { c.state with droppingStreamQueue := [] } } c.state.droppingStreamQueue
  { c with state := { c.state with droppingStreamQueue := pending } }

/-- The loop has no bound of its own: `fuel` is one, and without enough of it there is no answer. -/
def handleHalfClosedStreamResp (q : Q) (id : StreamId) (size : Nat) : (fuel : Nat) → Option (Q × Bool)
  | 0 => none
  | fuel + 1 =>
    match quiche.streamRecv q id size with
    | (q, .ok (_, fin)) => if fin then some (q, true) else handleHalfClosedStreamResp q id size fuel
    | (q, .error .done) => some (q, false)
    | (q, .error _) => some (q, true)

/-- The streams of the drained map, in the order in which the map yields them. -/
def drainHalfClosed (c : QuicConnState Q) (size fuel : Nat) : List StreamId → Option (QuicConnState Q)
  | [] => some c
  | id :: ids =>
    match handleHalfClosedStreamResp quiche c.state.quicheConn id size fuel with
    | none => none
    | some (q, true) => drainHalfClosed (c.setQuiche q) size fuel ids
    | some (q, false) =>
      drainHalfClosed { c with state := { c.state with
        quicheConn := q, halfClosedStreams := insert id c.state.halfClosedStreams } } size fuel ids

/-- `order` is one of the orders in which the hash map can yield its keys. -/
def handleHalfClosedStreams (fuel : Nat) (order : List StreamId) (c : QuicConnState Q) : Option (QuicConnState Q) :=
  if order.Nodup ∧ order.toFinset = c.state.halfClosedStreams then
    drainHalfClosed quiche { c with state := { c.state with halfClosedStreams := ∅ } } (quiche.sendQuantum c.state.quicheConn)
      fuel order
  else none

/-- A pass of `read` from its lock on, with a buffer of `size` bytes. -/
def read (now : Nanos) (size : Nat) (c : QuicConnState Q) : QuicConnState Q × Flow (Except IoError (Bytes × PathInfo)) :=
  match c.handleQuicConnStatus quiche with
  | (c, .error err) => (c, .ret (.error err))
  | (c, .ok ()) =>
    let c := c.handleDroppingStreams quiche
    match quiche.send c.state.quicheConn size with
    | (q, .ok packet) =>
      ({ c with state := { c.state with quicheConn := q, sendAckElicitingInstant := now } }, .ret (.ok packet))
    | (q, .error .done) =>
      match (c.setQuiche q).handleSendTimout quiche now with
      | (c, .error err) => (c, .ret (.error err))
      | (c, .ok none) => (c, .again)
      | (c, .ok (some expired)) => c.wait (.readable c.scid) (some expired)
    | (q, .error err) =>
      match (c.setQuiche q).handleQuicConnStatus quiche with
      | (c, .error err) => (c, .ret (.error err))
      | (c, .ok ()) => (c, .ret (.error (intoIoError err)))

/-- `read` locks again when its wait has timed out; the entry of the event map stays where it is. -/
def readExpired (now : Nanos) (c : QuicConnState Q) : QuicConnState Q × Flow (Except IoError (Bytes × PathInfo)) :=
  if now - c.state.sendAckElicitingInstant > c.state.pingTimeout then
    match quiche.sendAckEliciting c.state.quicheConn with
    | (q, .error err) => (c.setQuiche q, .ret (.error (intoIoError err)))
    | (q, .ok ()) => ({ c with state := { c.state with quicheConn := q, sendAckElicitingInstant := now } }, .again)
  else
    match quiche.timeoutInstant c.state.quicheConn with
    | some instant => if instant ≤ now then (c.setQuiche (quiche.onTimeout c.state.quicheConn now), .again) else (c, .again)
    | none => (c, .again)

def write (fuel : Nat) (order : List StreamId) (buf : Bytes) (info : PathInfo) (c : QuicConnState Q) :
    Option (QuicConnState Q × Except IoError Nat) :=
  match c.handleQuicConnStatus quiche with
  | (c, .error err) => some (c, .error err)
  | (c, .ok ()) =>
    match quiche.recv c.state.quicheConn buf info with
    | (q, .ok writeSize) =>
      (((c.setQuiche q).handleStreamEvents quiche).handleHalfClosedStreams quiche fuel order).map fun c => (c, .ok writeSize)
    | (q, .error err) =>
      match (c.setQuiche q).handleQuicConnStatus quiche with
      | (c, .error err) => some (c, .error err)
      | (c, .ok ()) => some (c, .error (intoIoError err))

def streamSend (id : StreamId) (buf : Bytes) (fin : Bool) (c : QuicConnState Q) : QuicConnState Q × Flow (Except IoError Nat) :=
  match c.handleQuicConnStatus quiche with
  | (c, .error err) => (c, .ret (.error err))
  | (c, .ok ()) =>
    match c.handleStreamStatus id with
    | .error err => (c, .ret (.error err))
    | .ok () =>
      match quiche.streamSend c.state.quicheConn id buf fin with
      | (q, .ok writeSize) =>
        let c := c.setQuiche q
        let outgoing := c.state.registerOutgoingStreamIds
        let c := { c with state := { c.state with
          registerOutgoingStreamIds := if c.state.lastestOutgoingStreamId % 2 = id % 2 then outgoing.erase id else outgoing } }
        match (c.handleStreamEvents quiche).notifyReadable quiche with
        | (c, .error err) => (c, .ret (.error err))
        | (c, .ok ()) => (c, .ret (.ok writeSize))
      | (q, .error .done) =>
        match ((c.setQuiche q).handleStreamEvents quiche).notifyReadable quiche with
        | (c, .error err) => (c, .ret (.error err))
        | (c, .ok ()) => c.wait (.streamWritable c.scid id) none
      | (q, .error err) =>
        match (c.setQuiche q).handleQuicConnStatus quiche with
        | (c, .error err) => (c, .ret (.error err))
        | (c, .ok ()) => (c, .ret (.error (intoIoError err)))

def streamRecvWait {α : Type} (id : StreamId) (c : QuicConnState Q) : QuicConnState Q × Flow (Except IoError α) :=
  match c.notifyReadable quiche with
  | (c, .error err) => (c, .ret (.error err))
  | (c, .ok ()) => c.wait (.streamReadable c.scid id) none

def streamRecv (id : StreamId) (size : Nat) (c : QuicConnState Q) : QuicConnState Q × Flow (Except IoError (Bytes × Bool)) :=
  match c.handleQuicConnStatus quiche with
  | (c, .error err) => (c, .ret (.error err))
  | (c, .ok ()) =>
    match c.handleStreamStatus id with
    | .error err => (c, .ret (.error err))
    | .ok () =>
      match quiche.streamRecv c.state.quicheConn id size with
      | (q, .ok data) =>
        match ((c.setQuiche q).handleStreamEvents quiche).notifyReadable quiche with
        | (c, .error err) => (c, .ret (.error err))
        | (c, .ok ()) => (c, .ret (.ok data))
      | (q, .error .done) => ((c.setQuiche q).handleStreamEvents quiche).streamRecvWait quiche id
      | (q, .error (.invalidStreamState _)) =>
        let c := c.setQuiche q
        if id ∈ c.state.registerOutgoingStreamIds then c.streamRecvWait quiche id
        else (c, .ret (.error (intoIoError (.invalidStreamState id))))
      | (q, .error err) => ((c.setQuiche q).handleStreamEvents quiche, .ret (.error (intoIoError err)))

def accept (c : QuicConnState Q) : QuicConnState Q × Flow (Option StreamId) :=
  match c.handleQuicConnStatus quiche with
  | (c, .error _) => (c, .ret none)
  | (c, .ok ()) =>
    match c.state.incoming with
    | id :: incoming => ({ c with state := { c.state with incoming } }, .ret (some id))
    | [] => c.wait (.accept c.scid) none

def openStream (c : QuicConnState Q) : QuicConnState Q × Except IoError StreamId :=
  match c.handleQuicConnStatus quiche with
  | (c, .error err) => (c, .error err)
  | (c, .ok ()) =>
    let id := c.state.lastestOutgoingStreamId
    ({ c with state := { c.state with
        lastestOutgoingStreamId := id + 4
        registerOutgoingStreamIds := insert id c.state.registerOutgoingStreamIds } }, .ok id)

def closeStream (id : StreamId) (c : QuicConnState Q) : QuicConnState Q × Except IoError Unit :=
  match c.handleQuicConnStatus quiche with
  | (c, .error err) => (c, .error err)
  | (c, .ok ()) =>
    if id ∈ c.state.registerOutgoingStreamIds then
      ({ c with state := { c.state with registerOutgoingStreamIds := c.state.registerOutgoingStreamIds.erase id } }, .ok ())
    else
      let c := { c with state := { c.state with droppingStreamQueue := c.state.droppingStreamQueue ++ [id] } }
      (c.notifyAll [.streamReadable c.scid id, .streamWritable c.scid id] .cancel).notifyReadable quiche

/-- `stream_shutdown` up to the end of its guard. -/
def streamShutdown (id : StreamId) (err : Nat) (c : QuicConnState Q) : QuicConnState Q × Except IoError Unit :=
  match quiche.streamShutdownRead c.state.quicheConn id err with
  | (q, result) => (c.setQuiche q, result.mapError intoIoError)

/-- What `stream_shutdown` does without the lock. -/
def streamShutdownNotify (id : StreamId) (c : QuicConnState Q) : QuicConnState Q :=
  c.notify (.streamReadable c.scid id) .cancel

def close (app : Bool) (err : Nat) (reason : Bytes) (c : QuicConnState Q) : QuicConnState Q × Except IoError Unit :=
  match quiche.close c.state.quicheConn app err reason with
  | (q, .ok ()) | (q, .error .done) => (c.setQuiche q, .ok ())
  | (q, .error err) => (c.setQuiche q, .error (intoIoError err))

end QuicConnState

end Hala.Quic
