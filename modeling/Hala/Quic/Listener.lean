import Hala.Quic.Conn

/-! `QuicAcceptor` and the tables of `QuicListenerState` (`crates/net/quic/src/state/listener.rs`).

A connection that `quiche::accept` has made is numbered by that call. The packet that a call leaves at the front
of the buffer stands for its `read_size`: no packet is a size of zero. -/

namespace Hala.Quic

/-- An `Err`, or an `unwrap` that fails. -/
inductive Fault where
  | err (err : IoError)
  | panicked
  deriving DecidableEq, Repr

/-- A `quiche::Connection` of the acceptor. -/
structure Accepted (Q : Type) where
  number : Nat
  conn : Q

inductive QuicAcceptorHandshake (Q : Type) where
  | unhandled (dcid : ConnId)
  | incoming (conn : Accepted Q) (pingTimeout : Nanos) (writeSize : Nat) (packet : Bytes) (sendInfo : PathInfo)
  | internal (writeSize : Nat) (packet : Bytes) (sendInfo : PathInfo)

structure QuicAcceptor (Q : Type) where
  /-- `send_ping_interval` of the configuration. -/
  sendPingInterval : Nanos
  /-- `ring::hmac::sign` under the connection id seed. -/
  sign : Bytes → Bytes
  preEstablishedConns : ConnId → Option (Accepted Q) := fun _ => none
  /-- The number of connections that have been made. -/
  accepted : Nat := 0

/-! ### Tokens -/

def IpAddr.octets : IpAddr → Bytes
  | .v4 octets => octets.toList
  | .v6 octets => octets.toList

/-- `b"quiche"`. -/
def tokenTag : Bytes := [113, 117, 105, 99, 104, 101]

def mintToken (header : Header) (src : SocketAddr) : Bytes := tokenTag ++ src.ip.octets ++ header.dcid

def interrupted (message : String) : IoError := { kind := .interrupted, source := .text message }

def validateToken (token : Bytes) (src : SocketAddr) : Except IoError ConnId :=
  if token.length < 6 then .error (interrupted "Invalid token, token length < 6")
  else if token.take 6 ≠ tokenTag then .error (interrupted "Invalid token, not start with 'quiche'")
  else
    let token := token.drop 6
    let addr := src.ip.octets
    if token.length < addr.length ∨ token.take addr.length ≠ addr then
      .error (interrupted "Invalid token, address mismatch")
    else .ok (token.drop addr.length)

/-- `validate_token` with its slices, each of which panics where it is out of range. -/
def validateTokenSliced (token : Bytes) (src : SocketAddr) : Except (Abort IoError) ConnId :=
  if token.length < 6 then .error (.error (interrupted "Invalid token, token length < 6"))
  else do
    let tag ← Io.sliceTo token 6
    if tag ≠ tokenTag then .error (.error (interrupted "Invalid token, not start with 'quiche'"))
    else
      let token ← Io.sliceFrom token 6
      let addr := src.ip.octets
      -- The right side of `||` is looked at only when the left one is false.
      if token.length < addr.length then .error (.error (interrupted "Invalid token, address mismatch"))
      else
        let tokenAddr ← Io.sliceTo token addr.length
        if tokenAddr ≠ addr then .error (.error (interrupted "Invalid token, address mismatch"))
        else Io.sliceFrom token addr.length

variable {Q : Type} (quiche : Quiche Q)

/-- A datagram is given to a connection and its next packet is taken: what `handshake` and `client_hello` both do,
    with a buffer of `size` bytes. -/
def recvAndSend (size : Nat) (q : Q) (buf : Bytes) (info : PathInfo) : Except IoError (Q × Nat × Bytes × PathInfo) :=
  match quiche.recv q buf info with
  | (_, .error err) => .error (intoIoError err)
  | (q, .ok writeSize) =>
    match quiche.send q size with
    | (q, .ok (packet, sendInfo)) => .ok (q, writeSize, packet, sendInfo)
    | (q, .error .done) => .ok (q, writeSize, [], info.back)
    | (_, .error err) => .error (intoIoError err)

namespace QuicAcceptor

def setPreEstablished (a : QuicAcceptor Q) (id : ConnId) (conn : Option (Accepted Q)) : QuicAcceptor Q :=
  { a with preEstablishedConns := Function.update a.preEstablishedConns id conn }

def negotiationVersion (size : Nat) (header : Header) (buf : Bytes) (info : PathInfo) :
    Except Fault (QuicAcceptorHandshake Q) :=
  match quiche.negotiateVersion header.scid header.dcid size with
  | .error err => .error (.err (intoIoError err))
  | .ok packet => .ok (.internal buf.length packet info.back)

def retry (size : Nat) (a : QuicAcceptor Q) (header : Header) (buf : Bytes) (info : PathInfo) :
    Except Fault (QuicAcceptorHandshake Q) :=
  let token := mintToken header info.fromAddr
  let newScid := (a.sign header.dcid).take maxConnIdLen
  match quiche.retry header.scid header.dcid newScid token header.version size with
  | .error err => .error (.err (intoIoError err))
  | .ok packet => .ok (.internal buf.length packet info.back)

/-- The end of `client_hello`, for a token that names `odcid`. -/
def acceptConn (size : Nat) (a : QuicAcceptor Q) (header : Header) (odcid : ConnId) (buf : Bytes) (info : PathInfo) :
    QuicAcceptor Q × Except Fault (QuicAcceptorHandshake Q) :=
  let scid := header.dcid
  if maxConnIdLen ≠ scid.length then
    (a, .error (.err (interrupted ("Check dcid length error, len=" ++ toString scid.length))))
  else
    match quiche.accept a.accepted scid odcid info with
    | .error err => (a, .error (.err (intoIoError err)))
    | .ok q =>
      let number := a.accepted
      let a := { a with accepted := number + 1 }
      match recvAndSend quiche size q buf info with
      | .error err => (a, .error (.err err))
      | .ok (q, writeSize, packet, sendInfo) =>
        if quiche.isEstablished q then
          (a, .ok (.incoming { number, conn := q } a.sendPingInterval writeSize packet sendInfo))
        else (a.setPreEstablished scid (some { number, conn := q }), .ok (.internal writeSize packet sendInfo))

def clientHello (size : Nat) (a : QuicAcceptor Q) (header : Header) (buf : Bytes) (info : PathInfo) :
    QuicAcceptor Q × Except Fault (QuicAcceptorHandshake Q) :=
  if quiche.versionIsSupported header.version = false then (a, negotiationVersion quiche size header buf info)
  else
    match header.token with
    | none => (a, .error .panicked)
    | some token =>
      if token = [] then (a, a.retry quiche size header buf info)
      else
        match validateToken token info.fromAddr with
        | .error err => (a, .error (.err err))
        | .ok odcid => a.acceptConn quiche size header odcid buf info

def handshake (size : Nat) (a : QuicAcceptor Q) (buf : Bytes) (info : PathInfo) :
    QuicAcceptor Q × Except Fault (QuicAcceptorHandshake Q) :=
  match quiche.fromSlice buf with
  | .error err => (a, .error (.err (intoIoError err)))
  | .ok header =>
    match a.preEstablishedConns header.dcid with
    | some conn =>
      -- The connection has left the table before the calls that can fail.
      let a := a.setPreEstablished header.dcid none
      match recvAndSend quiche size conn.conn buf info with
      | .error err => (a, .error (.err err))
      | .ok (q, writeSize, packet, sendInfo) =>
        if quiche.isEstablished q then
          (a, .ok (.incoming { conn with conn := q } a.sendPingInterval writeSize packet sendInfo))
        else
          (a.setPreEstablished header.dcid (some { conn with conn := q }), .ok (.internal writeSize packet sendInfo))
    | none =>
      if header.ty = .initial then a.clientHello quiche size header buf info
      else (a, .ok (.unhandled header.dcid))

end QuicAcceptor

inductive ListenerEvent where
  | incoming
  deriving DecidableEq, Repr

/-- The result of `write`; a connection is named by its number. -/
inductive QuicListenerWriteResult where
  | writeSize (writeSize : Nat)
  | internal (writeSize : Nat) (packet : Bytes) (sendInfo : PathInfo)
  | incoming (conn : Nat) (writeSize : Nat) (packet : Bytes) (sendInfo : PathInfo)
  deriving DecidableEq, Repr

structure QuicListenerState (Q : Type) where
  closed : Bool := false
  acceptor : QuicAcceptor Q
  conns : ConnId → Option Nat := fun _ => none
  /-- The `QuicConnState`s that the handles share, by the number of their connection. -/
  objects : Nat → Option (QuicConnState Q) := fun _ => none
  incoming : Option (List Nat) := some []
  mediator : EventMap ListenerEvent := {}
  /-- The connections with a pending read in the batch. -/
  connsRead : List Nat := []
  connsReadClosed : Bool := false
  maxDatagramSize : Nat

namespace QuicListenerState

def setConn (l : QuicListenerState Q) (id : ConnId) (conn : Option Nat) : QuicListenerState Q :=
  { l with conns := Function.update l.conns id conn }

def setObject (l : QuicListenerState Q) (number : Nat) (conn : QuicConnState Q) : QuicListenerState Q :=
  { l with objects := Function.update l.objects number (some conn) }

/-- `batch_read`. -/
def batchRead (l : QuicListenerState Q) (number : Nat) : QuicListenerState Q := { l with connsRead := l.connsRead ++ [number] }

def notifyIncoming (l : QuicListenerState Q) : QuicListenerState Q :=
  { l with mediator := l.mediator.notify .incoming .on }

end QuicListenerState

def brokenPipe (message : String) : Fault := .err { kind := .brokenPipe, source := .text message }

end Hala.Quic
