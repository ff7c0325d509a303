import Hala.Quic.Conn
import Mathlib.Data.Finset.Card

/-! How many streams can still be opened (`peer_streams_left_bidi` of `crates/net/quic/src/state/conn.rs`). -/

namespace Hala.Quic

/-- What `peer_streams_left_bidi` asks `quiche`. -/
structure StreamCredit (Q : Type) where
  peerStreamsLeftBidi : Q → Nat
  /-- `initial_max_streams_bidi` of `peer_transport_params`, which are there once the handshake is done. -/
  initialMaxStreamsBidi : Q → Option Nat

variable {Q : Type}

/-- Without the transport parameters of the peer, `unwrap` panics. -/
def QuicConnState.peerStreamsLeftBidi (credit : StreamCredit Q) (c : QuicConnState Q) : Option Nat :=
  let peerStreamsLeftBidi := credit.peerStreamsLeftBidi c.state.quicheConn
  let outgoingCached := c.state.registerOutgoingStreamIds.card
  (credit.initialMaxStreamsBidi c.state.quicheConn).map fun initialMaxStreamsBidi =>
    if peerStreamsLeftBidi > outgoingCached then
      if initialMaxStreamsBidi = peerStreamsLeftBidi then peerStreamsLeftBidi - outgoingCached - 1
      else peerStreamsLeftBidi - outgoingCached
    else 0

/-- What changes the number of streams that can be opened. A datagram of the peer can raise its limit. -/
inductive CreditAction where
  | openStream
  | streamSend (id : StreamId) (buf : Bytes) (fin : Bool)
  | closeStream (id : StreamId)
  | write (fuel : Nat) (order : List StreamId) (buf : Bytes) (info : PathInfo)
  deriving DecidableEq, Repr

/-- An operation, or one pass of it, on the connection. -/
def QuicConnState.creditStep (quiche : Quiche Q) (c : QuicConnState Q) : CreditAction → Option (QuicConnState Q)
  | .openStream => some (c.openStream quiche).1
  | .streamSend id buf fin => some (c.streamSend quiche id buf fin).1
  | .closeStream id => some (c.closeStream quiche id).1
  | .write fuel order buf info => (c.write quiche fuel order buf info).map (·.1)

end Hala.Quic
