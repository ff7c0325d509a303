import Hala.Lib.Machine
import Hala.Lib.Shared

/-! The handles of a connection: `QuicConn`, `QuicStream` and the tasks that have clones of them
(`crates/net/quic/src/conn.rs`).

The drop of `QuicConnDrop` spawns `close`, that of `QuicStreamDrop` spawns `close_stream`. The block of `close_stream` uses
`conn.state` only, so it takes the state out of the clone and leaves the counter of it behind. A step is one clone or one
drop of a counted value; a clone of a `QuicStream` is one step, as the stream is borrowed until both of its parts are
cloned. -/

namespace Hala.Quic
open Shared

/-- The tasks of `run_client_loop`. -/
inductive EventLoop where
  | recv
  | send
  deriving DecidableEq, Repr

/-- A `QuicStream`. Its connection is dropped before its counter. -/
inductive StreamHandle where
  | unmade
  | live (stream : Nat)
  | dropping (stream : Nat)
  | dropped
  deriving DecidableEq, Repr

def StreamHandle.hasConn : StreamHandle → Bool
  | .live _ => true
  | _ => false

def StreamHandle.counter : StreamHandle → Option Nat
  | .live stream | .dropping stream => some stream
  | .unmade | .dropped => none

/-- A `QuicStreamDrop`, in and after its `drop`. -/
inductive StreamDrop where
  | live
  | drop
  /-- `close_stream` is spawned, and what its block has left of the clone is dropped next. -/
  | spawned
  /-- `drop` has returned, and the fields are dropped next. -/
  | left
  | dropped
  deriving DecidableEq, Repr

/-- The task of `close_stream` that the drop spawns. It has the state of the connection and no `QuicConn`. -/
inductive CloseStream where
  | idle
  | running
  | returned
  deriving DecidableEq, Repr

structure StreamCounter where
  /-- `_stream_counter`. -/
  counter : Arc := {}
  value : StreamDrop := .live
  task : CloseStream := .idle
  deriving DecidableEq, Repr

structure Handles where
  /-- `_conn_counter`. -/
  conn : Arc := {}
  /-- The `QuicConn`s that are not in a stream or a task. -/
  users : Nat → Bool := fun i => i == 0
  loops : EventLoop → Bool := fun _ => false
  handles : Nat → StreamHandle := fun _ => .unmade
  streams : Nat → Option StreamCounter := fun _ => none

inductive HandleAction where
  | clone (i j : Nat)
  | drop (i : Nat)
  /-- `open_stream` or `accept_stream` makes a `QuicStream`. -/
  | stream (i k n : Nat)
  /-- `conn` of a stream is cloned or taken out of it. -/
  | cloneConn (k j : Nat)
  | takeConn (k j : Nat)
  | cloneStream (k l : Nat)
  | dropStream (k : Nat)
  | dropCounter (k : Nat)
  /-- `QuicStreamDrop::drop`. -/
  | spawn (n : Nat)
  /-- The end of this `drop`. -/
  | leave (n : Nat)
  | dropValue (n : Nat)
  /-- `close_stream` has returned. -/
  | returned (n : Nat)
  /-- An event loop has returned with an error. -/
  | stop (loop : EventLoop)
  deriving DecidableEq, Repr

namespace Handles

/-- `QuicConn::from`, as `QuicListener::accept` returns it. -/
def accepted : Handles := {}

/-- What `QuicConn::connect` returns: the event loops have clones. -/
def connected : Handles := { conn := ({} : Arc).clone.clone, loops := fun _ => true }

def setConn (s : Handles) (conn : Arc) : Handles := { s with conn }

def setUser (s : Handles) (i : Nat) (owned : Bool) : Handles := { s with users := Function.update s.users i owned }

def setHandle (s : Handles) (k : Nat) (handle : StreamHandle) : Handles :=
  { s with handles := Function.update s.handles k handle }

def stopLoop (s : Handles) (loop : EventLoop) : Handles := { s with loops := Function.update s.loops loop false }

def setStream (s : Handles) (n : Nat) (stream : StreamCounter) : Handles :=
  { s with streams := Function.update s.streams n (some stream) }

def step (s : Handles) : HandleAction → Option Handles
  | .clone i j =>
    if s.users i && !s.users j then some ((s.setConn s.conn.clone).setUser j true) else none
  | .drop i => if s.users i then some ((s.setConn s.conn.drop).setUser i false) else none
  | .stream i k n =>
    match s.handles k, s.streams n with
    | .unmade, none =>
      if s.users i then some (((s.setConn s.conn.clone.clone).setHandle k (.live n)).setStream n {}) else none
    | _, _ => none
  | .cloneConn k j =>
    match s.handles k with
    | .live _ => if s.users j then none else some ((s.setConn s.conn.clone).setUser j true)
    | _ => none
  | .takeConn k j =>
    match s.handles k with
    | .live n => if s.users j then none else some ((s.setHandle k (.dropping n)).setUser j true)
    | _ => none
  | .cloneStream k l =>
    match s.handles k, s.handles l with
    | .live n, .unmade =>
      (s.streams n).map fun stream =>
        ((s.setConn s.conn.clone).setHandle l (.live n)).setStream n { stream with counter := stream.counter.clone }
    | _, _ => none
  | .dropStream k =>
    match s.handles k with
    | .live n => some ((s.setConn s.conn.drop).setHandle k (.dropping n))
    | _ => none
  | .dropCounter k =>
    match s.handles k with
    | .dropping n =>
      (s.streams n).map fun stream =>
        (s.setHandle k .dropped).setStream n
          { stream with counter := stream.counter.drop, value := if stream.counter.strong = 1 then .drop else stream.value }
    | _ => none
  | .spawn n =>
    match s.streams n with
    | some stream =>
      if stream.value = .drop then
        some ((s.setConn s.conn.clone).setStream n { stream with value := .spawned, task := .running })
      else none
    | none => none
  | .leave n =>
    match s.streams n with
    | some stream =>
      if stream.value = .spawned then some ((s.setConn s.conn.drop).setStream n { stream with value := .left })
      else none
    | none => none
  | .dropValue n =>
    match s.streams n with
    | some stream =>
      if stream.value = .left then some ((s.setConn s.conn.drop).setStream n { stream with value := .dropped })
      else none
    | none => none
  | .returned n =>
    match s.streams n with
    | some stream => if stream.task = .running then some (s.setStream n { stream with task := .returned }) else none
    | none => none
  | .stop loop =>
    if s.loops loop then some ((s.setConn s.conn.drop).stopLoop loop) else none

/-! ### Who owns the connection -/

/-- Where a `QuicConn` is, or the counter of one. -/
inductive Owner where
  | user (i : Nat)
  | loop (loop : EventLoop)
  | handle (k : Nat)
  /-- In the `QuicStreamDrop`. -/
  | value (n : Nat)
  /-- In the `drop` of the `QuicStreamDrop`: what the block of the task has left of the clone. -/
  | clone (n : Nat)
  deriving DecidableEq, Repr

def owns (s : Handles) : Owner → Bool
  | .user i => s.users i
  | .loop loop => s.loops loop
  | .handle k => (s.handles k).hasConn
  | .value n => (s.streams n).any fun stream => stream.value != .dropped
  | .clone n => (s.streams n).any fun stream => stream.value == .spawned

/-- The handle has the counter of the stream. -/
def holds (s : Handles) (n k : Nat) : Bool := (s.handles k).counter == some n

end Handles

end Hala.Quic
