import Hala.Lib.Machine
import Hala.Quic.Conn

/-! `timeout` (`crates/io/src/timeout.rs`), and the handshake of a client under it: `QuicConnectorState`
(`crates/net/quic/src/state/connector.rs`) and `QuicConn::connect_with` (`crates/net/quic/src/conn.rs`).

A step of the handshake is what the task does from one await to the next. The socket decides what the awaits of it
return; any time can pass between two steps. -/

namespace Hala.Io

/-- The sleep against which `timeout` races its future; none where it awaits the future alone. -/
def timeout (expired : Option Nat) : Option Nat :=
  match expired with
  | some expired => if expired ≠ 0 then some expired else none
  | none => none

end Hala.Io

namespace Hala.Quic
open Machine

structure QuicConnectorState (Q : Type) where
  quicheConn : Q
  pingTimeout : Nanos

def connectionRefused (source : ErrorSource) : IoError := { kind := .connectionRefused, source }

namespace QuicConnectorState
variable {Q : Type} (quiche : Quiche Q)

def send (size : Nat) (c : QuicConnectorState Q) : QuicConnectorState Q × Except IoError (Option (Bytes × PathInfo)) :=
  match quiche.send c.quicheConn size with
  | (q, .ok packet) => ({ c with quicheConn := q }, .ok (some packet))
  | (q, .error .done) => ({ c with quicheConn := q }, .ok none)
  | (q, .error err) => ({ c with quicheConn := q }, .error (connectionRefused (.quiche err)))

def recv (buf : Bytes) (info : PathInfo) (c : QuicConnectorState Q) : QuicConnectorState Q × Except IoError Nat :=
  match quiche.recv c.quicheConn buf info with
  | (q, .error err) => ({ c with quicheConn := q }, .error (connectionRefused (.quiche err)))
  | (q, .ok len) =>
    if quiche.isClosed q then
      ({ c with quicheConn := q },
        .error (connectionRefused (.text ("Early stage reject, conn_id=" ++ debugConnId (quiche.sourceId q)))))
    else ({ c with quicheConn := q }, .ok len)

def isEstablished (c : QuicConnectorState Q) : Bool := quiche.isEstablished c.quicheConn

def isClosed (c : QuicConnectorState Q) : Bool := quiche.isClosed c.quicheConn

def timeout (now : Nanos) (c : QuicConnectorState Q) : Option Nanos := quiche.timeout c.quicheConn now

def onTimeout (now : Nanos) (c : QuicConnectorState Q) : QuicConnectorState Q :=
  { c with quicheConn := quiche.onTimeout c.quicheConn now }

def toConn (now : Nanos) (c : QuicConnectorState Q) : QuicConnState Q := .new quiche now c.quicheConn c.pingTimeout 4

end QuicConnectorState

/-- Where `connect_with` is, from the loop on. -/
inductive ConnectTask (Q : Type) where
  | loop
  /-- In `send_to_on_path`. -/
  | sending (packet : Bytes) (info : PathInfo)
  /-- In `timeout(recv_from, expired)` since the given time. -/
  | receiving (since : Nanos) (expired : Option Nanos)
  | returned (result : Except IoError (QuicConnState Q))

/-- `raddr` is the address of the server as it is printed. -/
structure ConnectWith (Q : Type) where
  connectorState : QuicConnectorState Q
  maxDatagramSize : Nat
  raddr : String
  clock : Nanos := 0
  task : ConnectTask Q := .loop

inductive ConnectAction where
  | elapse (nanos : Nanos)
  | task
  /-- What `send_to_on_path` returns. -/
  | sent (result : Except IoError Unit)
  /-- What `recv_from` returns. -/
  | received (result : Except IoError (Bytes × PathInfo))
  /-- The sleep of `timeout` ends first. -/
  | timer

namespace ConnectWith
variable {Q : Type} (quiche : Quiche Q)

/-- From the end of the sending to the next await. -/
def afterSend (s : ConnectWith Q) : ConnectWith Q :=
  if s.connectorState.isClosed quiche then
    { s with task := .returned (.error
        { kind := .timedOut, source := .text ("Connect to remove server timeout, raddr=" ++ s.raddr) }) }
  else { s with task := .receiving s.clock (s.connectorState.timeout quiche s.clock) }

/-- `recv_from` or its sleep has timed out. -/
def timedOut (s : ConnectWith Q) : ConnectWith Q :=
  { s with connectorState := s.connectorState.onTimeout quiche s.clock, task := .loop }

def step (s : ConnectWith Q) : ConnectAction → Option (ConnectWith Q)
  | .elapse nanos => some { s with clock := s.clock + nanos }
  | .task =>
    match s.task with
    | .loop =>
      match s.connectorState.send quiche s.maxDatagramSize with
      | (c, .error err) => some { s with connectorState := c, task := .returned (.error err) }
      | (c, .ok (some (packet, info))) => some { s with connectorState := c, task := .sending packet info }
      | (c, .ok none) => some (afterSend quiche { s with connectorState := c })
    | _ => none
  | .sent result =>
    match s.task, result with
    | .sending .., .ok () => some (s.afterSend quiche)
    | .sending .., .error err => some { s with task := .returned (.error err) }
    | _, _ => none
  | .received result =>
    match s.task, result with
    | .receiving .., .error err =>
      if err.kind = .timedOut then some (s.timedOut quiche) else some { s with task := .returned (.error err) }
    | .receiving .., .ok (buf, info) =>
      match s.connectorState.recv quiche buf info with
      | (c, .error err) => some { s with connectorState := c, task := .returned (.error err) }
      | (c, .ok _) =>
        if c.isEstablished quiche then
          some { s with connectorState := c, task := .returned (.ok (c.toConn quiche s.clock)) }
        else some { s with connectorState := c, task := .loop }
    | _, _ => none
  | .timer =>
    match s.task with
    | .receiving since expired =>
      match Io.timeout expired with
      | some duration => if since + duration ≤ s.clock then some (s.timedOut quiche) else none
      | none => none
    | _ => none

end ConnectWith

end Hala.Quic
