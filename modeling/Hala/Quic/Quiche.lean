import Hala.Future.EventMap
import Hala.Io.ReadBuf

/-! What the connection and the listener use of `quiche`, and the error type they share.

`quiche` is not part of the repository: a connection of it is a value of an arbitrary type `Q`, and `Quiche Q`
are the calls that are made of it. A call that takes `&mut self` returns the connection next to its answer. -/

namespace Hala.Quic

abbrev ConnId := Bytes
abbrev StreamId := Nat
/-- A time, or a duration, in nanoseconds. -/
abbrev Nanos := Nat

inductive IpAddr where
  | v4 (octets : Vector UInt8 4)
  | v6 (octets : Vector UInt8 16)
  deriving DecidableEq, Repr

structure SocketAddr where
  ip : IpAddr
  port : UInt16
  deriving DecidableEq, Repr

/-- `RecvInfo`, `SendInfo` and `PathInfo`: the two ends of a path. -/
structure PathInfo where
  fromAddr : SocketAddr
  toAddr : SocketAddr
  deriving DecidableEq, Repr

def PathInfo.back (info : PathInfo) : PathInfo := { fromAddr := info.toAddr, toAddr := info.fromAddr }

inductive PacketType where
  | initial
  | retry
  | handshake
  | zeroRTT
  | versionNegotiation
  | short
  deriving DecidableEq, Repr

structure Header where
  ty : PacketType
  version : UInt32
  dcid : ConnId
  scid : ConnId
  token : Option Bytes
  deriving DecidableEq, Repr

/-- `quiche::Error`; those that the code does not tell apart are `other`. -/
inductive QuicheError where
  | done
  | invalidStreamState (id : StreamId)
  | streamStopped (code : Nat)
  | streamLimit
  | other (code : Nat)
  deriving DecidableEq, Repr

/-- `quiche::MAX_CONN_ID_LEN`. -/
def maxConnIdLen : Nat := 20

/-- Calls of `quiche`. -/
structure Quiche (Q : Type) where
  /-- `Header::from_slice` with ids of `maxConnIdLen` bytes in short headers. -/
  fromSlice : Bytes → Except QuicheError Header
  versionIsSupported : UInt32 → Bool
  /-- `accept` draws on a source of randomness: its first argument counts the calls. -/
  accept : Nat → (scid odcid : ConnId) → (info : PathInfo) → Except QuicheError Q
  /-- The packet that is written at the front of a buffer of the given size. -/
  retry : (scid dcid newScid : ConnId) → (token : Bytes) → (version : UInt32) → (size : Nat) → Except QuicheError Bytes
  negotiateVersion : (scid dcid : ConnId) → (size : Nat) → Except QuicheError Bytes
  recv : Q → Bytes → PathInfo → Q × Except QuicheError Nat
  /-- The next packet to be sent, written at the front of a buffer of the given size. -/
  send : Q → (size : Nat) → Q × Except QuicheError (Bytes × PathInfo)
  isEstablished : Q → Bool
  isClosed : Q → Bool
  isDraining : Q → Bool
  isTimedOut : Q → Bool
  isServer : Q → Bool
  sourceId : Q → ConnId
  destinationId : Q → ConnId
  /-- The streams of the iterator `readable`. -/
  readable : Q → List StreamId
  streamReadableNext : Q → Q × Option StreamId
  streamWritableNext : Q → Q × Option StreamId
  streamSend : Q → StreamId → Bytes → (fin : Bool) → Q × Except QuicheError Nat
  /-- The bytes that are copied into a buffer of the given size, and whether they are the last. -/
  streamRecv : Q → StreamId → (size : Nat) → Q × Except QuicheError (Bytes × Bool)
  /-- `stream_shutdown` in the direction `Shutdown::Read`. -/
  streamShutdownRead : Q → StreamId → (err : Nat) → Q × Except QuicheError Unit
  close : Q → (app : Bool) → (err : Nat) → (reason : Bytes) → Q × Except QuicheError Unit
  sendAckEliciting : Q → Q × Except QuicheError Unit
  sendQuantum : Q → Nat
  /-- The time that is left until `on_timeout` has to be called. -/
  timeout : Q → (now : Nanos) → Option Nanos
  timeoutInstant : Q → Option Nanos
  onTimeout : Q → (now : Nanos) → Q

/-- What an `io::Error` carries. -/
inductive ErrorSource where
  | text (message : String)
  | quiche (err : QuicheError)
  | eventMap (err : EventMapError)
  deriving DecidableEq, Repr

structure IoError where
  kind : Io.ErrorKind
  source : ErrorSource
  deriving DecidableEq, Repr

/-- `into_io_error` of an error of `quiche`. -/
def intoIoError (err : QuicheError) : IoError :=
  match err with
  | .streamStopped _ | .invalidStreamState _ => { kind := .brokenPipe, source := .quiche err }
  | _ => { kind := .other, source := .quiche err }

/-- `into_io_error` of an error of the event map. -/
def eventMapIoError (err : EventMapError) : IoError := { kind := .unexpectedEof, source := .eventMap err }

def hexDigit (n : Nat) : Char := "0123456789abcdef".toList.getD n '0'

/-- A `ConnectionId` is printed as two hexadecimal digits a byte. -/
def debugConnId (id : ConnId) : String :=
  String.ofList (id.flatMap fun b => [hexDigit (b.toNat / 16), hexDigit (b.toNat % 16)])

end Hala.Quic
