import Hala.Io.Mio
import Hala.Lib.Machine

/-! `TcpListener` and `TcpStream` (`crates/net/tcp/src`), `UdpSocket` (`crates/net/udp/src/udp.rs`) and `Sleep`
(`crates/io/src/sleep.rs`) over the mio driver, with the poller and the thread of `MioContext` (`crates/io/src/context.rs`).

A program makes, uses and drops any number of them; a step is one call. The driver is the one of `io_context()`, and its
handles are in these objects only. A poll that is pending is `none`. -/

namespace Hala.Net
open Io Machine

/-- An `io::Error` of `fd_cntl`. -/
abbrev IoError (ε : Type) := DriverError (MioError ε)

/-- What errors are made of and ask: `{:?}` of the flags and of a response, and whether an error of the system is
    `WouldBlock`. -/
structure ErrorInfo (A ε : Type) where
  flags : OpenFlags A → String
  resp : CmdResp A → String
  wouldBlock : ε → Bool

variable {O A ε α : Type} (os : Os O A ε) (info : ErrorInfo A ε)

/-- `err.kind() == WouldBlock`. -/
def isWouldBlock : IoError ε → Bool
  | .new kind _ | .inner (.new kind _) => kind = .wouldBlock
  | .inner (.inner (.os err)) => info.wouldBlock err
  | .inner (.inner .fault) => false

/-- `poll_would_block` and a poll of `WouldBlock`, on what the closure has returned. -/
def pollWouldBlock : Except (IoError ε) α → Option (Except (IoError ε) α)
  | .ok r => some (.ok r)
  | .error err => if isWouldBlock info err then none else some (.error err)

/-- `fd_cntl(..)?`, and the conversion of the response. -/
def cntlAs (mio : Mio O) (fd : Handle) (cmd : Cmd A) (convert : CmdResp A → Except (IoError ε) α) :
    Mio O × Except (IoError ε) α :=
  let (mio, result) := mio.fdCntl os fd cmd
  (mio, result.bind convert)

/-- `fd_cntl` with `Register`, and `fd_close` when it fails; not when it panics. -/
def registerOrClose (mio : Mio O) (fd poller : Handle) (interests : Interest) : Mio O × Except (IoError ε) Handle :=
  match mio.fdCntl os poller (.register fd interests) with
  | (mio, .error (.inner (.inner .fault))) => (mio, .error (.inner (.inner .fault)))
  | (mio, .error err) => ((mio.fdClose os fd).1, .error err)
  | (mio, .ok _) => (mio, .ok fd)

/-- `fd_open(..)?`, and then `registerOrClose`. -/
def openRegistered (mio : Mio O) (poller : Handle) (desc : Description) (flags : OpenFlags A) (interests : Interest) :
    Mio O × Except (IoError ε) Handle :=
  match mio.fdOpen os info.flags desc flags with
  | (mio, .error err) => (mio, .error (.inner err))
  | (mio, .ok fd) => registerOrClose os mio fd poller interests

/-- The panic of `unwrap`. -/
def unwrapFailed : Fault := .panicked "called `Result::unwrap()` on an `Err` value"

/-- `fd_close(fd).unwrap()`. -/
def closeUnwrap (mio : Mio O) (fd : Handle) : Mio O :=
  match mio.fdClose os fd with
  | (mio, .ok ()) | (mio, .error (.inner .fault)) => mio
  | (mio, .error _) => { mio with faults := unwrapFailed :: mio.faults }

structure TcpStream where
  fd : Handle
  deriving DecidableEq, Repr

structure TcpListener where
  fd : Handle
  deriving DecidableEq, Repr

structure UdpSocket where
  fd : Handle
  deriving DecidableEq, Repr

structure Sleep where
  fd : Option Handle := none
  expired : Nat
  deriving DecidableEq, Repr

namespace TcpStream

def newWith (mio : Mio O) (fd poller : Handle) : Mio O × Except (IoError ε) TcpStream :=
  let (mio, result) := registerOrClose os mio fd poller .all
  (mio, result.map TcpStream.mk)

def connect (mio : Mio O) (poller : Handle) (raddrs : List A) : Mio O × Except (IoError ε) TcpStream :=
  let (mio, result) := openRegistered os info mio poller .tcpStream (.connect raddrs) .all
  (mio, result.map TcpStream.mk)

def pollWrite (s : TcpStream) (mio : Mio O) (waker : Waker) (buf : Bytes) :
    Mio O × Option (Except (IoError ε) Nat) :=
  let (mio, result) := cntlAs os mio s.fd (.write waker buf) (·.tryIntoDatalen info.resp)
  (mio, pollWouldBlock info result)

def pollRead (s : TcpStream) (mio : Mio O) (waker : Waker) (buf : SliceMut) :
    Mio O × Option (Except (IoError ε) Nat) :=
  let (mio, result) := cntlAs os mio s.fd (.read waker buf) (·.tryIntoDatalen info.resp)
  (mio, pollWouldBlock info result)

def shutdown (s : TcpStream) (mio : Mio O) (how : Shutdown) : Mio O × Except (IoError ε) Unit :=
  cntlAs os mio s.fd (.shutdown how) fun _ => .ok ()

def pollClose (s : TcpStream) (mio : Mio O) : Mio O × Option (Except (IoError ε) Unit) :=
  let (mio, result) := s.shutdown os mio .both
  (mio, some result)

def localAddr (s : TcpStream) (mio : Mio O) : Mio O × Except (IoError ε) A :=
  cntlAs os mio s.fd .localAddr (·.tryIntoSockaddr info.resp)

def remoteAddr (s : TcpStream) (mio : Mio O) : Mio O × Except (IoError ε) A :=
  cntlAs os mio s.fd .remoteAddr (·.tryIntoSockaddr info.resp)

end TcpStream

namespace TcpListener

def bind (mio : Mio O) (poller : Handle) (laddrs : List A) : Mio O × Except (IoError ε) TcpListener :=
  let (mio, result) := openRegistered os info mio poller .tcpListener (.bind laddrs) .onlyReadable
  (mio, result.map TcpListener.mk)

/-- A poll of `accept`. -/
def accept (s : TcpListener) (mio : Mio O) (poller : Handle) (waker : Waker) :
    Mio O × Option (Except (IoError ε) (TcpStream × A)) :=
  match mio.fdCntl os s.fd (.accept waker) with
  | (mio, .error err) => (mio, pollWouldBlock info (.error err))
  | (mio, .ok resp) =>
    match resp.tryIntoIncoming info.resp with
    | .error err => (mio, some (.error err))
    | .ok (handle, raddr) =>
      let (mio, result) := TcpStream.newWith os mio handle poller
      (mio, some (result.map fun stream => (stream, raddr)))

def localAddr (s : TcpListener) (mio : Mio O) : Mio O × Except (IoError ε) A :=
  cntlAs os mio s.fd .localAddr (·.tryIntoSockaddr info.resp)

end TcpListener

namespace UdpSocket

def bind (mio : Mio O) (poller : Handle) (laddrs : List A) : Mio O × Except (IoError ε) UdpSocket :=
  let (mio, result) := openRegistered os info mio poller .udpSocket (.bind laddrs) .all
  (mio, result.map UdpSocket.mk)

/-- A poll of what `send_to` awaits for one of the addresses. -/
def pollSendTo (s : UdpSocket) (mio : Mio O) (waker : Waker) (buf : Bytes) (raddr : A) :
    Mio O × Option (Except (IoError ε) Nat) :=
  let (mio, result) := cntlAs os mio s.fd (.sendTo waker buf raddr) (·.tryIntoDatalen info.resp)
  (mio, pollWouldBlock info result)

/-- A poll of `recv_from`. -/
def recvFrom (s : UdpSocket) (mio : Mio O) (waker : Waker) (buf : SliceMut) :
    Mio O × Option (Except (IoError ε) (Nat × A)) :=
  let (mio, result) := cntlAs os mio s.fd (.recvFrom waker buf) (·.tryIntoRecvFrom info.resp)
  (mio, pollWouldBlock info result)

/-- A poll of `broadcast`. -/
def broadcast (s : UdpSocket) (mio : Mio O) : Mio O × Option (Except (IoError ε) Bool) :=
  let (mio, result) := cntlAs os mio s.fd .broadCast (·.tryIntoBroadcast info.resp)
  (mio, pollWouldBlock info result)

/-- A poll of `set_broadcast`. -/
def setBroadcast (s : UdpSocket) (mio : Mio O) (on : Bool) : Mio O × Option (Except (IoError ε) Unit) :=
  let (mio, result) := cntlAs os mio s.fd (.setBroadCast on) (·.tryIntoNone info.resp)
  (mio, pollWouldBlock info result)

def localAddr (s : UdpSocket) (mio : Mio O) : Mio O × Except (IoError ε) A :=
  cntlAs os mio s.fd .localAddr (·.tryIntoSockaddr info.resp)

end UdpSocket

namespace Sleep

/-- The end of `poll`: the status of the timer. -/
def checkTimeout (mio : Mio O) (fd : Handle) (waker : Waker) : Mio O × Option (Except (IoError ε) Unit) :=
  match cntlAs os mio fd (.timeout waker) (·.tryIntoTimeout info.resp) with
  | (mio, .error err) => (mio, some (.error err))
  | (mio, .ok true) => (mio, some (.ok ()))
  | (mio, .ok false) => (mio, none)

/-- `poll`. After an error of the registration the timer stays in `fd`. -/
def poll (s : Sleep) (mio : Mio O) (poller : Handle) (waker : Waker) :
    Mio O × Sleep × Option (Except (IoError ε) Unit) :=
  match s.fd with
  | some fd =>
    let (mio, result) := checkTimeout os info mio fd waker
    (mio, s, result)
  | none =>
    match mio.fdOpen os info.flags .timeout (.duration s.expired) with
    | (mio, .error err) => (mio, s, some (.error (.inner err)))
    | (mio, .ok fd) =>
      let s := { s with fd := some fd }
      match mio.fdCntl os poller (.register fd .onlyReadable) with
      | (mio, .error err) => (mio, s, some (.error err))
      | (mio, .ok _) =>
        let (mio, result) := checkTimeout os info mio fd waker
        (mio, s, result)

/-- `drop`. -/
def drop (s : Sleep) (mio : Mio O) : Mio O :=
  match s.fd with
  | none => mio
  | some fd => closeUnwrap os mio fd

end Sleep

inductive Object where
  | tcpListener (s : TcpListener)
  | tcpStream (s : TcpStream)
  | udpSocket (s : UdpSocket)
  | sleep (s : Sleep)
  deriving DecidableEq, Repr

/-- The handle that the object holds, and its description. -/
def Object.fd? : Object → Option Handle
  | .tcpListener s => some s.fd
  | .tcpStream s => some s.fd
  | .udpSocket s => some s.fd
  | .sleep s => s.fd

def Object.desc : Object → Description
  | .tcpListener _ => .tcpListener
  | .tcpStream _ => .tcpStream
  | .udpSocket _ => .udpSocket
  | .sleep _ => .timeout

/-- `drop` of the object. -/
def Object.drop (mio : Mio O) : Object → Mio O
  | .tcpListener s => closeUnwrap os mio s.fd
  | .tcpStream s => closeUnwrap os mio s.fd
  | .udpSocket s => closeUnwrap os mio s.fd
  | .sleep s => s.drop os mio

/-- A call that makes no object. -/
inductive Method (A : Type) where
  | pollWrite (waker : Waker) (buf : Bytes)
  | pollRead (waker : Waker) (buf : SliceMut)
  | pollClose
  | shutdown (how : Shutdown)
  | pollSendTo (waker : Waker) (buf : Bytes) (raddr : A)
  | recvFrom (waker : Waker) (buf : SliceMut)
  | broadcast
  | setBroadcast (on : Bool)
  | localAddr
  | remoteAddr

/-- The driver after the call, if objects of this type have the method. -/
def Object.call (mio : Mio O) : Object → Method A → Option (Mio O)
  | .tcpStream s, .pollWrite waker buf => some (s.pollWrite os info mio waker buf).1
  | .tcpStream s, .pollRead waker buf => some (s.pollRead os info mio waker buf).1
  | .tcpStream s, .pollClose => some (s.pollClose os mio).1
  | .tcpStream s, .shutdown how => some (s.shutdown os mio how).1
  | .tcpStream s, .localAddr => some (s.localAddr os info mio).1
  | .tcpStream s, .remoteAddr => some (s.remoteAddr os info mio).1
  | .tcpListener s, .localAddr => some (s.localAddr os info mio).1
  | .udpSocket s, .pollSendTo waker buf raddr => some (s.pollSendTo os info mio waker buf raddr).1
  | .udpSocket s, .recvFrom waker buf => some (s.recvFrom os info mio waker buf).1
  | .udpSocket s, .broadcast => some (s.broadcast os info mio).1
  | .udpSocket s, .setBroadcast on => some (s.setBroadcast os info mio on).1
  | .udpSocket s, .localAddr => some (s.localAddr os info mio).1
  | _, _ => none

structure Process (O : Type) where
  mio : Mio O
  /-- The handle of the poller of `io_context()`. -/
  poller : Handle
  /-- The thread of `MioContext` is in its loop. -/
  polling : Bool := true
  objects : Nat → Option Object := fun _ => none

inductive ProcessAction (A : Type) where
  | bindTcp (i : Nat) (laddrs : List A)
  | connect (i : Nat) (raddrs : List A)
  | bindUdp (i : Nat) (laddrs : List A)
  /-- A poll of `accept` of listener `i`, with `j` for the stream. -/
  | accept (i j : Nat) (waker : Waker)
  | newSleep (i : Nat) (expired : Nat)
  | pollSleep (i : Nat) (waker : Waker)
  | call (i : Nat) (method : Method A)
  | drop (i : Nat)
  /-- The thread of `MioContext` polls. -/
  | pollOnce

namespace Process

/-- `MioContext::new().unwrap()`. -/
def new (o : O) : Option (Process O) :=
  match ({ os := o } : Mio O).fdOpen os info.flags .poller .none with
  | (mio, .ok poller) => some { mio, poller }
  | (_, .error _) => none

/-- The object that a call has made, if it has. -/
def made (s : Process O) (i : Nat) (call : Mio O × Except (IoError ε) α) (object : α → Object) : Process O :=
  match call with
  | (mio, .error _) => { s with mio }
  | (mio, .ok a) => { s with mio, objects := Function.update s.objects i (some (object a)) }

/-- A poll that makes an object when it is ready. -/
def madeReady (s : Process O) (i : Nat) (call : Mio O × Option (Except (IoError ε) α)) (object : α → Object) : Process O :=
  match call with
  | (mio, none) => { s with mio }
  | (mio, some result) => s.made i (mio, result) object

def step (s : Process O) : ProcessAction A → Option (Process O)
  | .bindTcp i laddrs =>
    if s.objects i = none then some (s.made i (TcpListener.bind os info s.mio s.poller laddrs) .tcpListener) else none
  | .connect i raddrs =>
    if s.objects i = none then some (s.made i (TcpStream.connect os info s.mio s.poller raddrs) .tcpStream) else none
  | .bindUdp i laddrs =>
    if s.objects i = none then some (s.made i (UdpSocket.bind os info s.mio s.poller laddrs) .udpSocket) else none
  | .accept i j waker =>
    match s.objects i, s.objects j with
    | some (.tcpListener listener), none =>
      some (s.madeReady j (listener.accept os info s.mio s.poller waker) fun (stream, _) => .tcpStream stream)
    | _, _ => none
  | .newSleep i expired =>
    if s.objects i = none then some { s with objects := Function.update s.objects i (some (.sleep { expired })) } else none
  | .pollSleep i waker =>
    match s.objects i with
    | some (.sleep sleep) =>
      let (mio, sleep, _) := sleep.poll os info s.mio s.poller waker
      some { s with mio, objects := Function.update s.objects i (some (.sleep sleep)) }
    | _ => none
  | .call i method =>
    (s.objects i).bind fun object => (object.call os info s.mio method).map fun mio => { s with mio }
  | .drop i =>
    (s.objects i).map fun object =>
      { s with mio := object.drop os s.mio, objects := Function.update s.objects i none }
  | .pollOnce =>
    if s.polling then
      match s.mio.fdCntl os s.poller (.pollOnce none) with
      | (mio, .ok _) => some { s with mio }
      | (mio, .error (.inner (.inner .fault))) => some { s with mio, polling := false }
      | (mio, .error _) => some { s with mio := { mio with faults := unwrapFailed :: mio.faults }, polling := false }
    else none

/-- What a box can be held by: the context, an object, or nothing but the failed `fd_close`. -/
inductive Holder where
  | poller
  | object (i : Nat)
  | kept
  deriving DecidableEq, Repr

def Holds (s : Process O) : Holder → Token → Prop
  | .poller, token => token = s.poller.token
  | .object i, token => ∃ object fd, s.objects i = some object ∧ object.fd? = some fd ∧ fd.token = token
  | .kept, token => token ∈ s.mio.kept

/-- In the first poll of a sleep, `new_timer` of the time wheel does not panic. -/
def starts (s : Process O) : ProcessAction A → Bool
  | .pollSleep i _ =>
    match s.objects i with
    | some (.sleep { fd := none, expired }) => expired = 0 || (os.newTimer s.mio.os s.mio.heap.next expired).2
    | _ => true
  | _ => true

end Process

end Hala.Net
