import Hala.Lib.Channel
import Hala.Lib.Merge
import Hala.Rproxy.Rproxy

/-! `Rproxy::accept` on a `QuicStreamListener` (`crates/rproxy/src/listener/quic.rs`).

One task accepts the connections of the `QuicListener`, and spawns for each of them a task that sends the streams of the
connection into the channel, from which the accept loop takes them. The channel is that of `futures::channel::mpsc`, which
is assumed to be a `Fifo`. A sender is ready to send, and done with it, when the channel lets it. -/

namespace Hala.Proxy
open Machine
variable {C S ε : Type}

/-- The task of a connection. It has a clone of the sender until it has ended. -/
inductive Forward (S : Type) where
  | idle
  | acceptStream
  | send (stream : S)
  /-- The stream is in the channel. -/
  | flush
  | ended

def Forward.hand : Forward S → List S
  | .send stream => [stream]
  | _ => []

def Forward.hasSender : Forward S → Bool
  | .acceptStream | .send _ | .flush => true
  | .idle | .ended => false

structure Gateway (C S ε : Type) where
  /-- The task that accepts connections has not ended, and has the first sender. -/
  listening : Bool := true
  established : Nat := 0
  conns : Nat → Forward S := fun _ => .idle
  /-- Its items are streams, each with its connection. -/
  channel : C
  receiver : Bool := true
  rproxy : Rproxy ε := {}
  /-- The connections of the calls of `handshake`: that of call `i` is the one at `i`. -/
  inbound : List (Nat × S) := []

inductive GatewayAction (S ε : Type) where
  /-- What `QuicListener::accept` returns: a connection or `None`. -/
  | listener (conn : Bool)
  /-- What `accept_stream` returns to the task of the connection. -/
  | acceptStream (k : Nat) (stream : Option S)
  | send (k : Nat)
  | sent (k : Nat)
  /-- The accept loop takes the next stream, or finds that there will be none. -/
  | accept
  /-- The future of `Rproxy::accept` is dropped, and the listener with it. -/
  | drop
  /-- A step of a call of `handshake` or `stats`, or a call of `closed_with`. -/
  | rproxy (action : RproxyAction ε)

def GatewayAction.isDrop : GatewayAction S ε → Bool
  | .drop => true
  | _ => false

namespace Gateway
variable (chan : Channel C (Nat × S))

/-- The listener has been made from a `QuicListener`. -/
def start : Gateway C S ε := { channel := chan.new }

def setConn (g : Gateway C S ε) (k : Nat) (conn : Forward S) : Gateway C S ε :=
  { g with conns := Function.update g.conns k conn }

/-- Some task can still send. -/
def hasSender (g : Gateway C S ε) : Bool := g.listening || (List.range g.established).any fun k => (g.conns k).hasSender

/-- The listener is dropped, and with it the receiver and what is in the channel. -/
def dropListener (g : Gateway C S ε) : Gateway C S ε := { g with receiver := false, channel := chan.new }

def step (g : Gateway C S ε) : GatewayAction S ε → Option (Gateway C S ε)
  | .listener conn =>
    if g.listening then
      if conn then some ({ g with established := g.established + 1 }.setConn g.established .acceptStream)
      else some { g with listening := false }
    else none
  | .acceptStream k stream =>
    match g.conns k, stream with
    | .acceptStream, some stream => some (g.setConn k (.send stream))
    | .acceptStream, none => some (g.setConn k .ended)
    | _, _ => none
  | .send k =>
    match g.conns k with
    | .send stream =>
      match chan.send g.channel g.receiver (k, stream) with
      | some channel => some ({ g with channel }.setConn k .flush)
      | none => some (g.setConn k .ended)
    | _ => none
  | .sent k =>
    match g.conns k with
    | .flush => some (g.setConn k .acceptStream)
    | _ => none
  | .accept =>
    if g.receiver && g.rproxy.accepting then
      match chan.next g.channel g.hasSender with
      | none => none
      | some (channel, some (k, stream)) =>
        (g.rproxy.step .accept).map fun rproxy => { g with channel, rproxy, inbound := g.inbound ++ [(k, stream)] }
      | some (_, none) => (g.rproxy.step .stop).map fun rproxy => dropListener chan { g with rproxy }
    else none
  | .drop =>
    if g.receiver && g.rproxy.accepting then (g.rproxy.step .stop).map fun rproxy => dropListener chan { g with rproxy }
    else none
  | .rproxy action =>
    match action with
    | .accept | .stop => none
    | action => (g.rproxy.step action).map fun rproxy => { g with rproxy }

/-- The streams that `accept_stream` has given to the tasks. -/
def accepted (g : Gateway C S ε) : GatewayAction S ε → List (Nat × S)
  | .acceptStream k (some stream) => match g.conns k with
    | .acceptStream => [(k, stream)]
    | _ => []
  | _ => []

/-- The future of `Rproxy::accept` is not dropped. -/
def Kept (_ : Gateway C S ε × List (Nat × S)) (action : GatewayAction S ε) : Prop := action.isDrop = false

end Gateway

end Hala.Proxy
