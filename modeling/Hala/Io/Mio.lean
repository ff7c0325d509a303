import Hala.Io.DriverExt
import Hala.Lib.Boxes

/-! `MioDriver` (`crates/io/src/mio/driver.rs`) on the boxes behind its handles, with `TypedHandle` and `Handle::drop_as`
(`crates/io/src/file.rs`), `MioWithPoller` (`crates/io/src/mio/with_poller.rs`), `register` and `deregister` of `MioPoller`
(`crates/io/src/mio/poller.rs`); and `fd_open` and `fd_close` of `RawDriverExtProxy` (`crates/io/src/driver_ext.rs`).

The token of a handle stands for its `data` pointer too. What the sockets, the registry of mio and the clock answer is given
by `Os`, with `O` as what they know; the wakers of the poller are in `Hala.Io.MioPoller` and `Hala.Io.Driver`. -/

namespace Hala.Io
open Boxes

/-- A call that leaves the driver; an attempt that was interrupted is repeated, and the answer is that of the last. -/
inductive SysCall (A : Type) : Type → Type where
  | tcpListenerBind (laddrs : List A) : SysCall A Unit
  | tcpStreamConnect (raddrs : List A) : SysCall A Unit
  | udpSocketBind (laddrs : List A) : SysCall A Unit
  | newPoller : SysCall A Unit
  | register (token : Token) (interests : Interest) : SysCall A Unit
  | deregister (token : Token) : SysCall A Unit
  | poll (duration : Option Nat) : SysCall A Unit
  | accept (token : Token) : SysCall A A
  | read (token : Token) (buf : SliceMut) : SysCall A Nat
  | write (token : Token) (buf : Bytes) : SysCall A Nat
  | sendTo (token : Token) (buf : Bytes) (raddr : A) : SysCall A Nat
  | recvFrom (token : Token) (buf : SliceMut) : SysCall A (Nat × A)
  | localAddr (token : Token) : SysCall A A
  | peerAddr (token : Token) : SysCall A A
  | shutdown (token : Token) (how : Shutdown) : SysCall A Unit
  | broadcast (token : Token) : SysCall A Bool
  | setBroadcast (token : Token) (on : Bool) : SysCall A Unit

/-- `newTimer` says whether `new_timer` of the time wheel returns; it panics when the sum of its durations overflows. -/
structure Os (O A ε : Type) where
  call : {α : Type} → O → SysCall A α → O × Except ε α
  newTimer : O → Token → Nat → O × Bool
  isExpired : O → Token → O × Bool

/-- The content of a box: a socket or a timer in its `MioWithPoller`, or a poller. `registered` says that
    `register_poller` has been called. -/
inductive Boxed where
  | socket (desc : Description) (registered : Bool)
  | timer (duration : Nat) (started registered : Bool)
  | poller
  deriving DecidableEq, Repr

def Boxed.desc : Boxed → Description
  | .socket desc _ => desc
  | .timer .. => .timeout
  | .poller => .poller

def Boxed.registered : Boxed → Bool
  | .socket _ registered | .timer _ _ registered => registered
  | .poller => false

/-- How a program goes wrong: it reads or drops a box that is gone or holds something else, or it panics. -/
inductive Fault where
  | freed (token : Token)
  | mistyped (token : Token)
  | panicked (message : String)
  deriving DecidableEq, Repr

/-- What a call returns to the program after a fault is `fault`. -/
inductive Failure (ε : Type) where
  | os (err : ε)
  | fault
  deriving DecidableEq, Repr

abbrev MioError (ε : Type) := DriverError (Failure ε)

structure Mio (O : Type) where
  os : O
  heap : Heap Boxed := .empty
  faults : List Fault := []
  /-- The handles of the calls of `fd_close` that have failed, the latest first. -/
  kept : List Token := []

namespace Mio
variable {O A ε α : Type} (os : Os O A ε)

def fault (d : Mio O) (fault : Fault) : Mio O × Except (MioError ε) α :=
  ({ d with faults := fault :: d.faults }, .error (.inner .fault))

def todo (d : Mio O) : Mio O × Except (MioError ε) α := d.fault (.panicked "not yet implemented")

/-- `io::Error::new(InvalidInput, ..)`. -/
def invalid (d : Mio O) (message : String) : Mio O × Except (MioError ε) α := (d, .error (.new .invalidInput message))

def sys (d : Mio O) (call : SysCall A α) : Mio O × Except (MioError ε) α :=
  let (o, result) := os.call d.os call
  ({ d with os := o }, result.mapError fun err => .inner (.os err))

/-- `with_mut` of a `TypedHandle` for what `desc` names. When `f` panics, the box is dropped. -/
def withBox (d : Mio O) (handle : Handle) (desc : Description) (f : Mio O → Boxed → Mio O × Boxed × Except (MioError ε) α) :
    Mio O × Except (MioError ε) α :=
  match d.heap.boxes handle.token with
  | none => d.fault (.freed handle.token)
  | some b =>
    if b.desc ≠ desc then d.fault (.mistyped handle.token)
    else
      match f d b with
      | (d, _, .error (.inner .fault)) => ({ d with heap := d.heap.free handle.token }, .error (.inner .fault))
      | (d, b, result) => ({ d with heap := d.heap.set handle.token b }, result)

/-- `drop_as`. -/
def dropBox (d : Mio O) (handle : Handle) (desc : Description) : Mio O × Except (MioError ε) Unit :=
  match d.heap.boxes handle.token with
  | none => d.fault (.freed handle.token)
  | some b =>
    if b.desc ≠ desc then d.fault (.mistyped handle.token)
    else ({ d with heap := d.heap.free handle.token }, .ok ())

/-- `Handle::from((desc, value))`. -/
def open_ (d : Mio O) (desc : Description) (b : Boxed) : Mio O × Handle :=
  ({ d with heap := d.heap.alloc b }, { token := d.heap.next, desc })

/-- A panic in the box. -/
def panicIn (d : Mio O) (b : Boxed) (message : String) : Mio O × Boxed × Except (MioError ε) α :=
  let (d, result) := d.fault (.panicked message)
  (d, b, result)

/-- What is done with `poller()` of `MioWithPoller`. -/
def withPoller (d : Mio O) (b : Boxed) (f : Mio O → Mio O × Except (MioError ε) α) : Mio O × Boxed × Except (MioError ε) α :=
  if b.registered then let (d, result) := f d; (d, b, result)
  else d.panicIn b "Call register first"

/-- A method of the driver on a handle that it expects to be `desc`; `call` is made with the poller, or without. -/
def onSocket (d : Mio O) (handle : Handle) (desc : Description) (polled : Bool) (call : SysCall A α) :
    Mio O × Except (MioError ε) α :=
  match handle.expect desc with
  | .error err => (d, .error err)
  | .ok () => d.withBox handle desc fun d b =>
    if polled then d.withPoller b (·.sys os call)
    else
      let (d, result) := d.sys os call
      (d, b, result)

/-- `tcp_listener_accept`. -/
def tcpListenerAccept (d : Mio O) (handle : Handle) : Mio O × Except (MioError ε) (Handle × A) :=
  match d.onSocket os handle .tcpListener true (.accept handle.token) with
  | (d, .error err) => (d, .error err)
  | (d, .ok raddr) =>
    let (d, stream) := d.open_ .tcpStream (.socket .tcpStream false)
    (d, .ok (stream, raddr))

/-- `is_expired` of the timer, which is false before its start. -/
def isExpired (d : Mio O) (token : Token) : Boxed → Mio O × Bool
  | .timer _ true _ =>
    let (o, expired) := os.isExpired d.os token
    ({ d with os := o }, expired)
  | _ => (d, false)

def timeout (d : Mio O) (handle : Handle) : Mio O × Except (MioError ε) Bool :=
  match handle.expect .timeout with
  | .error err => (d, .error err)
  | .ok () => d.withBox handle .timeout fun d b =>
    match d.isExpired os handle.token b with
    | (d, true) => (d, b, .ok true)
    | (d, false) => d.withPoller b fun d => (d, .ok false)

/-- What `register` of `MioPoller` does in the box of the source. -/
def registerBox (d : Mio O) (source : Handle) (interests : Interest) (b : Boxed) :
    Mio O × Boxed × Except (MioError ε) Unit :=
  match b with
  | .socket desc false =>
    let (d, result) := d.sys os (.register source.token interests)
    (d, .socket desc true, result)
  | .timer duration false false =>
    let (o, returns) := os.newTimer d.os source.token duration
    if returns then ({ d with os := o }, .timer duration true true, .ok ())
    else { d with os := o }.panicIn b "overflow when adding durations"
  | .timer _ true _ => d.panicIn b "Call poller register twice"
  | b => d.panicIn b "Call register_poller twice"

/-- `register` of `MioPoller`. -/
def register (d : Mio O) (source : Handle) (interests : Interest) : Mio O × Except (MioError ε) Unit :=
  match source.desc with
  | .file => d.todo
  | .tcpListener | .tcpStream | .udpSocket | .timeout =>
    d.withBox source source.desc fun d b => d.registerBox os source interests b
  | .poller | .external _ => d.invalid ("Unsupport file handle type, " ++ source.desc.debug)

/-- `poller_register`. -/
def pollerRegister (d : Mio O) (poller source : Handle) (interests : Interest) : Mio O × Except (MioError ε) Unit :=
  match poller.expect .poller with
  | .error err => (d, .error err)
  | .ok () => d.withBox poller .poller fun d b =>
    let (d, result) := d.register os source interests
    (d, b, result)

/-- `poller_poll_once`. -/
def pollerPollOnce (d : Mio O) (poller : Handle) (duration : Option Nat) : Mio O × Except (MioError ε) Unit :=
  d.onSocket os poller .poller false (.poll duration)

/-- `poller_clone`. -/
def pollerClone (d : Mio O) (poller : Handle) : Mio O × Except (MioError ε) Handle :=
  match poller.expect .poller with
  | .error err => (d, .error err)
  | .ok () =>
    match d.withBox poller .poller fun d b => (d, b, .ok b) with
    | (d, .error err) => (d, .error err)
    | (d, .ok cloned) =>
      let (d, handle) := d.open_ .poller cloned
      (d, .ok handle)

/-- The methods that `fd_cntl` calls. -/
def inner : RawDriverExt A (MioError ε) (Mio O) where
  call
    | d, .fileRead .. => d.todo
    | d, .fileWrite .. => d.todo
    | d, .tcpStreamRead _ handle buf => d.onSocket os handle .tcpStream true (.read handle.token buf)
    | d, .tcpStreamWrite _ handle buf => d.onSocket os handle .tcpStream true (.write handle.token buf)
    | d, .udpSocketSendto _ handle buf raddr => d.onSocket os handle .udpSocket true (.sendTo handle.token buf raddr)
    | d, .udpSocketRecvFrom _ handle buf => d.onSocket os handle .udpSocket true (.recvFrom handle.token buf)
    | d, .pollerRegister poller source interests => d.pollerRegister os poller source interests
    | d, .pollerReregister .. => d.todo
    | d, .tcpListenerAccept _ handle => d.tcpListenerAccept os handle
    | d, .pollerPollOnce handle duration => d.pollerPollOnce os handle duration
    | d, .pollerClone handle => d.pollerClone handle
    | d, .fdUserDefineClone _ => d.todo
    | d, .timeout _ handle => d.timeout os handle
    | d, .tcpListenerLocalAddr handle => d.onSocket os handle .tcpListener false (.localAddr handle.token)
    | d, .tcpStreamLocalAddr handle => d.onSocket os handle .tcpStream false (.localAddr handle.token)
    | d, .udpLocalAddr handle => d.onSocket os handle .udpSocket false (.localAddr handle.token)
    | d, .tcpStreamRemoteAddr handle => d.onSocket os handle .tcpStream false (.peerAddr handle.token)
    | d, .tcpStreamShutdown handle how => d.onSocket os handle .tcpStream false (.shutdown handle.token how)
    | d, .udpSocketGetBroadcast handle => d.onSocket os handle .udpSocket false (.broadcast handle.token)
    | d, .udpSocketSetBroadcast handle on => d.onSocket os handle .udpSocket false (.setBroadcast handle.token on)

/-! ### Opening and closing -/

/-- `tcp_listener_bind`, `tcp_stream_connect` and `udp_socket_bind`. -/
def openSocket (d : Mio O) (desc : Description) (call : SysCall A Unit) : Mio O × Except (MioError ε) Handle :=
  match d.sys os call with
  | (d, .error err) => (d, .error err)
  | (d, .ok ()) =>
    let (d, handle) := d.open_ desc (.socket desc false)
    (d, .ok handle)

def timeoutOpen (d : Mio O) (duration : Nat) : Mio O × Except (MioError ε) Handle :=
  if duration = 0 then d.fault (.panicked "create timeout with zero duration")
  else
    let (d, handle) := d.open_ .timeout (.timer duration false false)
    (d, .ok handle)

def pollerOpen (d : Mio O) : Mio O × Except (MioError ε) Handle :=
  match d.sys os .newPoller with
  | (d, .error err) => (d, .error err)
  | (d, .ok ()) =>
    let (d, handle) := d.open_ .poller .poller
    (d, .ok handle)

/-- The part of `deregister` of `MioPoller` that can fail; the one of a timer does nothing. -/
def deregister (d : Mio O) (handle : Handle) : Mio O × Except (MioError ε) Unit :=
  match handle.desc with
  | .timeout => (d, .ok ())
  | _ => d.sys os (.deregister handle.token)

/-- `tcp_listener_close`, `tcp_stream_close`, `udp_socket_close` and `timeout_close`. -/
def closeRegistered (d : Mio O) (handle : Handle) (desc : Description) : Mio O × Except (MioError ε) Unit :=
  match handle.expect desc with
  | .error err => (d, .error err)
  | .ok () =>
    match d.withBox handle desc fun d b => d.withPoller b (·.deregister os handle) with
    | (d, .error err) => ({ d with kept := handle.token :: d.kept }, .error err)
    | (d, .ok ()) => d.dropBox handle desc

def pollerClose (d : Mio O) (handle : Handle) : Mio O × Except (MioError ε) Unit :=
  match handle.expect .poller with
  | .error err => (d, .error err)
  | .ok () => d.dropBox handle .poller

end Mio

inductive OpenFlags (A : Type) where
  | none
  | openFile (path : String) (mode : Nat)
  | bind (laddrs : List A)
  | connect (raddrs : List A)
  | duration (nanos : Nat)
  | userDefined (buf : Bytes)

namespace OpenFlags
variable {A ε α : Type} (debug : OpenFlags A → String)

/-- The error of a conversion; `debug` is `{:?}` of the flags. -/
def unexpected (expected : String) (flags : OpenFlags A) : Except (DriverError ε) α :=
  .error (.new .invalidInput ("Expect " ++ expected ++ ", but got " ++ debug flags))

def tryIntoOpenFile : OpenFlags A → Except (DriverError ε) (String × Nat)
  | .openFile path mode => .ok (path, mode)
  | flags => unexpected debug "OpenFile" flags

def tryIntoBind : OpenFlags A → Except (DriverError ε) (List A)
  | .bind laddrs => .ok laddrs
  | flags => unexpected debug "Bind" flags

def tryIntoConnect : OpenFlags A → Except (DriverError ε) (List A)
  | .connect raddrs => .ok raddrs
  | flags => unexpected debug "Bind" flags

def tryIntoDuration : OpenFlags A → Except (DriverError ε) Nat
  | .duration nanos => .ok nanos
  | flags => unexpected debug "Bind" flags

def tryIntoUserDefined : OpenFlags A → Except (DriverError ε) Bytes
  | .userDefined buf => .ok buf
  | flags => unexpected debug "UserDefined" flags

end OpenFlags

namespace Mio
variable {O A ε α β : Type} (os : Os O A ε) (debug : OpenFlags A → String)

/-- A conversion of the flags, and then the call. -/
def andThen (d : Mio O) (converted : Except (MioError ε) β) (f : β → Mio O × Except (MioError ε) α) :
    Mio O × Except (MioError ε) α :=
  match converted with
  | .error err => (d, .error err)
  | .ok b => f b

/-- `fd_open` of the proxy over the mio driver. -/
def fdOpen (d : Mio O) (desc : Description) (flags : OpenFlags A) : Mio O × Except (MioError ε) Handle :=
  match desc with
  | .file => d.andThen (flags.tryIntoOpenFile debug) fun _ => d.todo
  | .tcpListener =>
    d.andThen (flags.tryIntoBind debug) fun laddrs => d.openSocket os .tcpListener (.tcpListenerBind laddrs)
  | .tcpStream =>
    d.andThen (flags.tryIntoConnect debug) fun raddrs => d.openSocket os .tcpStream (.tcpStreamConnect raddrs)
  | .udpSocket => d.andThen (flags.tryIntoBind debug) fun laddrs => d.openSocket os .udpSocket (.udpSocketBind laddrs)
  | .timeout => d.andThen (flags.tryIntoDuration debug) fun duration => d.timeoutOpen duration
  | .poller => d.pollerOpen os
  | .external _ => d.andThen (flags.tryIntoUserDefined debug) fun _ => d.todo

/-- `fd_close` of the proxy over the mio driver. -/
def fdClose (d : Mio O) (handle : Handle) : Mio O × Except (MioError ε) Unit :=
  match handle.desc with
  | .file => d.todo
  | .tcpListener => d.closeRegistered os handle .tcpListener
  | .tcpStream => d.closeRegistered os handle .tcpStream
  | .udpSocket => d.closeRegistered os handle .udpSocket
  | .timeout => d.closeRegistered os handle .timeout
  | .poller => d.pollerClose handle
  | .external _ => d.todo

/-- `fd_cntl` of the proxy over the mio driver. -/
def fdCntl (d : Mio O) (handle : Handle) (cmd : Cmd A) : Mio O × Except (DriverError (MioError ε)) (CmdResp A) :=
  (inner os).fdCntl d handle cmd

end Mio

end Hala.Io
