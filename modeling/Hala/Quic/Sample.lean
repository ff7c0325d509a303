import Hala.Quic.Credit
import Hala.Quic.Server

/-! A small stand-in for `quiche`, for worked runs.

It reads the headers of real packets. A connection answers every packet with an acknowledgement, is established
by the second one, and rejects a packet that ends in `0xff` as if its frames were malformed. -/

namespace Hala.Quic

structure Sample where
  scid : ConnId
  dcid : ConnId
  path : PathInfo
  received : Nat := 0
  /-- Whether there is a packet to send. -/
  pending : Bool := false
  deriving DecidableEq, Repr

namespace Sample

/-- A byte for the length, and as many bytes. -/
def lengthPrefixed : Bytes → Option (Bytes × Bytes)
  | [] => none
  | len :: rest => if len.toNat ≤ rest.length then some (rest.take len.toNat, rest.drop len.toNat) else none

/-- The version, the two ids and, in an `Initial` packet, the token, whose length has one byte here. -/
def longHeader (first : UInt8) : Bytes → Option Header
  | v₃ :: v₂ :: v₁ :: v₀ :: rest => do
    let version := UInt32.ofNat (((v₃.toNat * 256 + v₂.toNat) * 256 + v₁.toNat) * 256 + v₀.toNat)
    let (dcid, rest) ← lengthPrefixed rest
    let (scid, rest) ← lengthPrefixed rest
    if version = 0 then return { ty := .versionNegotiation, version, dcid, scid, token := none }
    match first.toNat / 16 % 4 with
    | 0 =>
      let (token, _) ← lengthPrefixed rest
      return { ty := .initial, version, dcid, scid, token := some token }
    | 1 => return { ty := .zeroRTT, version, dcid, scid, token := none }
    | 2 => return { ty := .handshake, version, dcid, scid, token := none }
    | _ => return { ty := .retry, version, dcid, scid, token := none }
  | _ => none

def fromSlice : Bytes → Option Header
  | [] => none
  | first :: rest =>
    if first.toNat < 128 then
      if maxConnIdLen ≤ rest.length then
        some { ty := .short, version := 0, dcid := rest.take maxConnIdLen, scid := [], token := none }
      else none
    else longHeader first rest

def quiche : Quiche Sample where
  fromSlice buf := (fromSlice buf).elim (.error (.other 1)) .ok
  versionIsSupported version := version == 1
  accept _ scid odcid info := .ok { scid, dcid := odcid, path := info.back }
  retry _ _ newScid token _ _ := .ok (newScid ++ token)
  negotiateVersion scid dcid _ := .ok (scid ++ dcid)
  recv q buf _ :=
    if buf.getLast? = some 0xff then (q, .error (.other 2))
    else ({ q with received := q.received + 1, pending := true }, .ok buf.length)
  send q _ := if q.pending then ({ q with pending := false }, .ok (q.scid, q.path)) else (q, .error .done)
  isEstablished q := 2 ≤ q.received
  isClosed _ := false
  isDraining _ := false
  isTimedOut _ := false
  isServer _ := true
  sourceId q := q.scid
  destinationId q := q.dcid
  readable _ := []
  streamReadableNext q := (q, none)
  streamWritableNext q := (q, none)
  streamSend q _ buf _ := ({ q with pending := true }, .ok buf.length)
  streamRecv q _ _ := (q, .error .done)
  streamShutdownRead q _ _ := ({ q with pending := true }, .ok ())
  close q _ _ _ := ({ q with pending := true }, .ok ())
  sendAckEliciting q := ({ q with pending := true }, .ok ())
  sendQuantum _ := 1200
  timeout _ _ := none
  timeoutInstant _ := none
  onTimeout q _ := q

/-- A path on the loopback interface, from the client's port. -/
def loopback (port : UInt16) : PathInfo :=
  { fromAddr := { ip := .v4 #v[127, 0, 0, 1], port }, toAddr := { ip := .v4 #v[127, 0, 0, 1], port := 4433 } }

/-- The id that the packets of the worked runs carry. -/
def connId : ConnId := List.replicate 20 7

/-- An `Initial` packet for the id, with the token that `retry` gives out to the loopback address. -/
def initialPacket : Bytes :=
  [0xc0, 0, 0, 0, 1, 20] ++ connId ++ [0] ++ [10, 113, 117, 105, 99, 104, 101, 127, 0, 0, 1] ++ [0]

/-- A packet with a short header for the id, and one byte. -/
def shortPacket (byte : UInt8) : Bytes := 0x40 :: connId ++ [byte]

/-- The receiving loop of a server takes a datagram, and then as many steps. -/
def receive (buf : Bytes) (steps : Nat) : List (ServerAction Sample) :=
  .datagram buf (loopback 5000) :: List.replicate steps (.recv 1 [])

end Sample

/-- A second stand-in, a connection of a server with streams. -/
structure StreamSample where
  /-- The streams with a byte to be read. -/
  readable : List StreamId := []
  /-- Those that have not been reported yet. -/
  unreported : List StreamId := []
  /-- How many bidirectional streams the peer allows, and how many are in use. -/
  limit : Nat := 0
  used : Nat := 0
  draining : Bool := false
  /-- Whether there is a packet to send. -/
  pending : Bool := false
  deriving DecidableEq, Repr

namespace StreamSample

/-- The frames `STREAM` with one byte of data, `MAX_STREAMS` for bidirectional streams and `CONNECTION_CLOSE`. -/
def frames (q : StreamSample) : Bytes → StreamSample
  | 0x0a :: id :: 1 :: _ :: rest =>
    frames { q with readable := q.readable ++ [id.toNat], unreported := q.unreported ++ [id.toNat] } rest
  | 0x12 :: limit :: rest => frames { q with limit := max q.limit limit.toNat } rest
  | 0x1c :: _ => { q with draining := true }
  | _ => q

def quiche : Quiche StreamSample where
  fromSlice buf := (Sample.fromSlice buf).elim (.error (.other 1)) .ok
  versionIsSupported version := version == 1
  accept _ _ _ _ := .ok {}
  retry _ _ newScid token _ _ := .ok (newScid ++ token)
  negotiateVersion scid dcid _ := .ok (scid ++ dcid)
  recv q buf _ := ({ q.frames (buf.drop (1 + maxConnIdLen)) with pending := true }, .ok buf.length)
  send q _ := if q.pending then ({ q with pending := false }, .ok ([], Sample.loopback 5000)) else (q, .error .done)
  isEstablished _ := true
  isClosed _ := false
  isDraining q := q.draining
  isTimedOut _ := false
  isServer _ := true
  sourceId _ := Sample.connId
  destinationId _ := [1]
  readable _ := []
  streamReadableNext q :=
    match q.unreported with
    | [] => (q, none)
    | id :: ids => ({ q with unreported := ids.filter (· ≠ id) }, some id)
  streamWritableNext q := (q, none)
  streamSend q id buf _ :=
    -- The streams that the server opens have the ids 1, 5, 9 and so on.
    if id % 4 = 1 then
      if q.limit < id / 4 + 1 then (q, .error .streamLimit)
      else ({ q with used := max q.used (id / 4 + 1), pending := true }, .ok buf.length)
    else ({ q with pending := true }, .ok buf.length)
  streamRecv q id _ :=
    let q' := { q with readable := q.readable.erase id, unreported := q.unreported.filter (· ≠ id) }
    if id ∈ q.readable then (q', .ok ([0], false)) else (q', .error .done)
  streamShutdownRead q _ _ := ({ q with pending := true }, .ok ())
  close q _ _ _ := ({ q with pending := true }, .ok ())
  sendAckEliciting q := ({ q with pending := true }, .ok ())
  sendQuantum _ := 1200
  timeout _ _ := none
  timeoutInstant _ := none
  onTimeout q _ := q

def streamCredit : StreamCredit StreamSample where
  peerStreamsLeftBidi q := q.limit - q.used
  initialMaxStreamsBidi _ := some 4

/-- The stand-in with another `send_quantum`, which looks at the size of the buffer it reads into. -/
def sized (quantum : Nat) : Quiche StreamSample :=
  { quiche with
    streamRecv := fun q id size =>
      if id ∈ q.readable then
        if size = 0 then (q, .ok ([], false))
        else
          ({ q with readable := q.readable.filter (· ≠ id), unreported := q.unreported.filter (· ≠ id) }, .ok ([0], false))
      else (q, .error .done)
    sendQuantum := fun _ => quantum }

/-- A packet with a short header for the connection and the frames. -/
def packet (frames : Bytes) : Bytes := 0x40 :: Sample.connId ++ frames

/-- A server's connection to a peer that allows four streams. -/
def conn : QuicConnState StreamSample := .new quiche 0 { limit := 4 } 1000000000 5

end StreamSample

/-- A third stand-in, a connection of a server with streams that the peer sends to their end. -/
structure FinSample where
  /-- The streams that are left to be read: a byte and the end of the stream. -/
  unread : List StreamId := []
  /-- Those that have not been reported yet. -/
  unreported : List StreamId := []
  /-- The streams that have been read to their end. -/
  read : List StreamId := []
  /-- Those that have been sent on, and those whose end has been sent. -/
  used : List StreamId := []
  sent : List StreamId := []
  /-- Whether there is a packet to send. -/
  pending : Bool := false
  deriving DecidableEq, Repr

namespace FinSample

/-- A frame `STREAM` with one byte of data and the end of the stream; it is nothing new for one that has been read. -/
def frame (q : FinSample) : Bytes → FinSample
  | [0x0b, id, 1, _] =>
    if id.toNat ∈ q.read then q
    else { q with unread := id.toNat :: q.unread, unreported := q.unreported ++ [id.toNat] }
  | _ => q

def quiche : Quiche FinSample where
  fromSlice buf := (Sample.fromSlice buf).elim (.error (.other 1)) .ok
  versionIsSupported version := version == 1
  accept _ _ _ _ := .ok {}
  retry _ _ newScid token _ _ := .ok (newScid ++ token)
  negotiateVersion scid dcid _ := .ok (scid ++ dcid)
  recv q buf _ := ({ q.frame (buf.drop (1 + maxConnIdLen)) with pending := true }, .ok buf.length)
  send q _ := if q.pending then ({ q with pending := false }, .ok ([], Sample.loopback 5000)) else (q, .error .done)
  isEstablished _ := true
  isClosed _ := false
  isDraining _ := false
  isTimedOut _ := false
  isServer _ := true
  sourceId _ := Sample.connId
  destinationId _ := [1]
  readable q := q.unread
  streamReadableNext q :=
    match q.unreported with
    | [] => (q, none)
    | id :: ids => ({ q with unreported := ids }, some id)
  streamWritableNext q := (q, none)
  streamSend q id buf fin :=
    ({ q with used := id :: q.used, sent := if fin then id :: q.sent else q.sent, pending := true }, .ok buf.length)
  streamRecv q id _ :=
    if id ∈ q.unread then
      ({ q with unread := q.unread.filter (· ≠ id), unreported := q.unreported.filter (· ≠ id), read := id :: q.read },
        .ok ([0], true))
    else if id ∈ q.read then (q, .error (if id ∈ q.sent then .invalidStreamState id else .done))
    else (q, .error (if id ∈ q.used then .done else .invalidStreamState id))
  streamShutdownRead q _ _ := ({ q with pending := true }, .ok ())
  close q _ _ _ := ({ q with pending := true }, .ok ())
  sendAckEliciting q := ({ q with pending := true }, .ok ())
  sendQuantum _ := 1200
  timeout _ _ := none
  timeoutInstant _ := none
  onTimeout q _ := q

/-- A server's connection without streams. -/
def conn : QuicConnState FinSample := .new quiche 0 {} 1000000000 5

end FinSample

end Hala.Quic
