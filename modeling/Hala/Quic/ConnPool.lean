import Hala.Lib.Machine
import Hala.Quic.Credit
import Mathlib.Data.List.AList

/-! `QuicConnPool` (`crates/net/quic/src/conn_pool.rs`).

The pool is locked during a call, so that calls follow each other; the connections are not. A call asks a connection at
most once for each thing that it wants to know, and the connection may be in any state then. -/

namespace Hala.Quic
open Machine

/-- `is_closed` of a connection. -/
def QuicConnState.isClosed {Q : Type} (quiche : Quiche Q) (c : QuicConnState Q) : Bool :=
  quiche.isClosed c.state.quicheConn || quiche.isDraining c.state.quicheConn

/-- A `QuicConn`, by the number of the connection that its clones share. -/
abbrev QuicConn := Nat

/-- `RawConnPool`; the configuration and the addresses are what `connect` is called with. -/
structure RawConnPool where
  maxConns : Nat
  conns : AList fun _ : ConnId => QuicConn := ∅

/-- What a call of `open_stream` meets: the order in which the map yields its entries, the states in which it finds a
    connection that it asks whether it is closed, for its credit and for a stream, and what `QuicConn::connect` returns. -/
structure PoolCall (Q : Type) where
  order : List (Σ _ : ConnId, QuicConn)
  whenClosed : QuicConn → QuicConnState Q
  whenCredit : QuicConn → QuicConnState Q
  whenOpen : QuicConn → QuicConnState Q
  connect : Except IoError QuicConn

/-- How the loop over the connections ends: at one with credit, or at the end with the ids of the closed ones. -/
inductive PoolScan where
  | found (conn : QuicConn)
  | closed (ids : List ConnId)
  | panicked
  deriving DecidableEq, Repr

/-- How `find_avalid_conn` ends. -/
inductive FindConn where
  | found (conn : QuicConn)
  | limit
  | failed (err : IoError)
  | made (conn : QuicConn)
  | panicked
  deriving DecidableEq, Repr

/-- The error at the limit of the pool. -/
def poolLimit : IoError :=
  { kind := .wouldBlock, source := .text "The number of open streams has reached its limit." }

/-- What `find_avalid_conn` returns, if it does. -/
def FindConn.result : FindConn → Option (Except IoError QuicConn)
  | .found conn | .made conn => some (.ok conn)
  | .limit => some (.error poolLimit)
  | .failed err => some (.error err)
  | .panicked => none

section Calls
variable {Q : Type} (quiche : Quiche Q) (credit : StreamCredit Q)

namespace PoolCall

/-- The call finds the connection closed. -/
def isClosed (call : PoolCall Q) (conn : QuicConn) : Bool := (call.whenClosed conn).isClosed quiche

/-- The credit that the call finds. -/
def leftBidi (call : PoolCall Q) (conn : QuicConn) : Option Nat := (call.whenCredit conn).peerStreamsLeftBidi credit

end PoolCall

namespace RawConnPool

def new (maxConns : Nat) : RawConnPool := { maxConns }

/-- The loop of `find_avalid_conn`. -/
def scan (call : PoolCall Q) : List (Σ _ : ConnId, QuicConn) → List ConnId → PoolScan
  | [], closed => .closed closed
  | ⟨id, conn⟩ :: conns, closed =>
    if call.isClosed quiche conn then scan call conns (closed ++ [id])
    else
      match call.leftBidi credit conn with
      | none => .panicked
      | some leftBidi => if leftBidi > 0 then .found conn else scan call conns closed

def findAvalidConn (pool : RawConnPool) (call : PoolCall Q) : RawConnPool × FindConn :=
  match scan quiche credit call call.order [] with
  | .found conn => (pool, .found conn)
  | .panicked => (pool, .panicked)
  | .closed ids =>
    let pool := { pool with conns := ids.foldl (fun conns id => conns.erase id) pool.conns }
    if pool.conns.entries.length ≥ pool.maxConns then (pool, .limit)
    else
      match call.connect with
      | .error err => (pool, .failed err)
      | .ok conn => ({ pool with conns := pool.conns.insert (call.whenOpen conn).scid conn }, .made conn)

/-- The stream is named by its connection and its id. -/
def openStream (pool : RawConnPool) (call : PoolCall Q) : RawConnPool × Option (Except IoError (QuicConn × StreamId)) :=
  let (pool, find) := pool.findAvalidConn quiche credit call
  match find.result with
  | none => (pool, none)
  | some (.error err) => (pool, some (.error err))
  | some (.ok conn) => (pool, some (((call.whenOpen conn).openStream quiche).2.map fun id => (conn, id)))

/-- The pool after a call; the map yields each of its entries once. -/
def step (pool : RawConnPool) (call : PoolCall Q) : Option RawConnPool :=
  if call.order.Perm pool.conns.entries then some (pool.openStream quiche credit call).1 else none

end RawConnPool

end Calls

end Hala.Quic
