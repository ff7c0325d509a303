import Hala.Lib.Machine
import Hala.Quic.Listener

/-! The tasks of a server: `run_recv_event_loop` and `run_send_event_loop` (`crates/net/quic/src/listener.rs`),
and calls of `accept` and `close`.

The machine takes one access to the shared state at a time. What the application and the batched reads do with
an established connection is a choice of the step, and so is what the sockets answer. -/

namespace Hala.Quic
open Machine

/-- `run_recv_event_loop`, with `write` inlined. A name says what the next step does. -/
inductive Recv (Q : Type) where
  | recvFrom
  | handleStatus (buf : Bytes) (info : PathInfo)
  | handshake (buf : Bytes) (info : PathInfo)
  | getConn (dcid : ConnId) (buf : Bytes) (info : PathInfo)
  | connWrite (dcid : ConnId) (number : Nat) (buf : Bytes) (info : PathInfo)
  | removeConn (dcid : ConnId) (writeSize : Nat)
  | insertConn (conn : Accepted Q) (pingTimeout : Nanos) (writeSize : Nat) (packet : Bytes) (sendInfo : PathInfo)
  | pushIncoming (number : Nat) (writeSize : Nat) (packet : Bytes) (sendInfo : PathInfo)
  | notifyIncoming (number : Nat) (writeSize : Nat) (packet : Bytes) (sendInfo : PathInfo)
  | batchRead (number : Nat) (writeSize : Nat) (packet : Bytes) (sendInfo : PathInfo)
  /-- `write` has returned. -/
  | written (result : Except Fault QuicListenerWriteResult)
  | sendTo (packet : Bytes) (info : PathInfo)
  | stopped (fault : Option Fault)

/-- The loop has ended because of its socket. -/
abbrev Recv.socketFailed {Q : Type} : Recv Q := .stopped none

/-- A call of `close`. -/
inductive Close where
  | idle
  | exchange
  | dropIncoming
  | closeReads
  | returned
  deriving DecidableEq, Repr

/-- A call of `accept`. -/
inductive Accept where
  | idle
  | lock
  | wait (cell : Cell)
  | returned (conn : Option Nat)
  | panicked
  deriving DecidableEq, Repr

structure Server (Q : Type) where
  listener : QuicListenerState Q
  clock : Nanos := 0
  recv : Recv Q := .recvFrom
  /-- `run_send_event_loop` has ended. -/
  sendStopped : Bool := false
  closes : Nat → Close := fun _ => .idle
  accepts : Nat → Accept := fun _ => .idle
  /-- The packets that were given to the sockets. -/
  sent : List (Bytes × PathInfo) := []

inductive ServerAction (Q : Type) where
  | elapse (nanos : Nanos)
  /-- `recv_from` returns a datagram. -/
  | datagram (buf : Bytes) (info : PathInfo)
  /-- `recv_from` or `send_to_on_path` of the receiving loop fails. -/
  | socketError
  | recv (fuel : Nat) (order : List StreamId)
  | callClose (i : Nat)
  | close (i : Nat)
  | callAccept (i : Nat)
  | accept (i : Nat)
  /-- The application, or a batched read, changes an established connection. -/
  | use (number : Nat) (state : RawQuicConnState Q) (mediator : EventMap ConnEvent)
  /-- A batched read has finished, with a packet or with an error. -/
  | readReady (number : Nat) (packet : Option (Bytes × PathInfo))
  /-- `wait` of the batch returns `None`. -/
  | readNone

variable {Q : Type} (quiche : Quiche Q)

namespace Server

def setClose (s : Server Q) (i : Nat) (close : Close) : Server Q := { s with closes := Function.update s.closes i close }

def setAccept (s : Server Q) (i : Nat) (accept : Accept) : Server Q := { s with accepts := Function.update s.accepts i accept }

/-- Where `write` goes with the answer of the acceptor. -/
def afterHandshake (buf : Bytes) (info : PathInfo) : Except Fault (QuicAcceptorHandshake Q) → Recv Q
  | .error fault => .written (.error fault)
  | .ok (.unhandled dcid) => .getConn dcid buf info
  | .ok (.incoming conn pingTimeout writeSize packet sendInfo) => .insertConn conn pingTimeout writeSize packet sendInfo
  | .ok (.internal writeSize packet sendInfo) => .written (.ok (.internal writeSize packet sendInfo))

/-- The next step of the receiving loop. -/
def recvStep (s : Server Q) (fuel : Nat) (order : List StreamId) : Option (Server Q) :=
  let l := s.listener
  match s.recv with
  | .recvFrom | .stopped _ => none
  | .handleStatus buf info =>
    if l.closed then some { s with recv := .written (.error (brokenPipe "Listener closed")) }
    else some { s with recv := .handshake buf info }
  | .handshake buf info =>
    let (acceptor, answer) := l.acceptor.handshake quiche l.maxDatagramSize buf info
    some { s with listener := { l with acceptor }, recv := afterHandshake buf info answer }
  | .getConn dcid buf info =>
    match l.conns dcid with
    | none => some { s with recv := .written (.ok (.writeSize buf.length)) }
    | some number => some { s with recv := .connWrite dcid number buf info }
  | .connWrite dcid number buf info =>
    match l.objects number with
    | none => none
    | some conn =>
      match conn.write quiche fuel order buf info with
      | none => none
      | some (conn, .ok _) =>
        some { s with listener := l.setObject number conn, recv := .written (.ok (.writeSize buf.length)) }
      | some (conn, .error _) => some { s with listener := l.setObject number conn, recv := .removeConn dcid buf.length }
  | .removeConn dcid writeSize =>
    some { s with listener := l.setConn dcid none, recv := .written (.ok (.writeSize writeSize)) }
  | .insertConn conn pingTimeout writeSize packet sendInfo =>
    let state := QuicConnState.new quiche s.clock conn.conn pingTimeout 5
    some { s with listener := (l.setObject conn.number state).setConn (quiche.sourceId conn.conn) (some conn.number)
                  recv := .pushIncoming conn.number writeSize packet sendInfo }
  | .pushIncoming number writeSize packet sendInfo =>
    match l.incoming with
    | none => some { s with recv := .written (.error (brokenPipe "quic listener state closed.")) }
    | some incoming =>
      some { s with listener := { l with incoming := some (incoming ++ [number]) }
                    recv := .notifyIncoming number writeSize packet sendInfo }
  | .notifyIncoming number writeSize packet sendInfo =>
    some { s with listener := l.notifyIncoming, recv := .batchRead number writeSize packet sendInfo }
  | .batchRead number writeSize packet sendInfo =>
    some { s with listener := l.batchRead number, recv := .written (.ok (.incoming number writeSize packet sendInfo)) }
  | .written (.error fault) => some { s with recv := .stopped (some fault) }
  | .written (.ok (.internal _ packet sendInfo)) =>
    if packet = [] then some { s with recv := .recvFrom } else some { s with recv := .sendTo packet sendInfo }
  | .written (.ok _) => some { s with recv := .recvFrom }
  | .sendTo packet info => some { s with sent := s.sent ++ [(packet, info)], recv := .recvFrom }

/-- The next step of a call of `close`; the guard of the queue is held to its end. -/
def closeStep (s : Server Q) (i : Nat) : Option (Server Q) :=
  let l := s.listener
  match s.closes i with
  | .idle | .returned => none
  | .exchange =>
    if l.closed then some (s.setClose i .closeReads)
    else some ({ s with listener := { l with closed := true } }.setClose i .dropIncoming)
  | .dropIncoming =>
    some ({ s with listener := { l with incoming := none }.notifyIncoming }.setClose i .returned)
  | .closeReads => some ({ s with listener := { l with connsReadClosed := true } }.setClose i .returned)

/-- The next step of a call of `accept`. -/
def acceptStep (s : Server Q) (i : Nat) : Option (Server Q) :=
  let l := s.listener
  match s.accepts i with
  | .idle | .returned _ | .panicked => none
  | .lock =>
    match l.incoming with
    | none => some (s.setAccept i (.returned none))
    | some (number :: incoming) =>
      some ({ s with listener := { l with incoming := some incoming } }.setAccept i (.returned (some number)))
    | some [] =>
      some ({ s with listener := { l with mediator := (l.mediator.wait .incoming).1 } }.setAccept i
        (.wait (l.mediator.wait .incoming).2))
  | .wait cell =>
    match l.mediator.poll cell with
    | none => none
    | some (.ok ()) => some (s.setAccept i .lock)
    | some (.error _) => some (s.setAccept i .panicked)

/-- What the sending loop does when the batch has an answer for it. -/
def readReady (s : Server Q) (number : Nat) (packet : Option (Bytes × PathInfo)) : Option (Server Q) :=
  let l := s.listener
  if number ∈ l.connsRead ∧ s.sendStopped = false then
    let l := { l with connsRead := l.connsRead.erase number }
    if l.closed then some { s with listener := l, sendStopped := true }
    else
      match packet, l.objects number with
      | _, none => none
      | some packet, some _ => some { s with listener := l.batchRead number, sent := s.sent ++ [packet] }
      | none, some conn => some { s with listener := l.setConn conn.scid none }
  else none

def step (s : Server Q) : ServerAction Q → Option (Server Q)
  | .elapse nanos => some { s with clock := s.clock + nanos }
  | .datagram buf info =>
    match s.recv with
    | .recvFrom => some { s with recv := .handleStatus buf info }
    | _ => none
  | .socketError =>
    match s.recv with
    | .recvFrom | .sendTo _ _ => some { s with recv := .socketFailed }
    | _ => none
  | .recv fuel order => s.recvStep quiche fuel order
  | .callClose i => if s.closes i = .idle then some (s.setClose i .exchange) else none
  | .close i => s.closeStep i
  | .callAccept i => if s.accepts i = .idle then some (s.setAccept i .lock) else none
  | .accept i => s.acceptStep i
  | .use number state mediator =>
    match s.listener.objects number with
    | none => none
    | some conn => some { s with listener := s.listener.setObject number { conn with state, mediator } }
  | .readReady number packet => s.readReady number packet
  | .readNone =>
    if s.listener.connsReadClosed = true ∧ s.sendStopped = false then
      if s.listener.closed then some { s with sendStopped := true } else some s
    else none

/-- A server with an acceptor that has no connections. -/
def start (sendPingInterval : Nanos) (sign : Bytes → Bytes) (maxDatagramSize : Nat) : Server Q :=
  { listener := { acceptor := { sendPingInterval, sign }, maxDatagramSize } }

end Server

end Hala.Quic
