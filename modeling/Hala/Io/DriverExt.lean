import Hala.Io.Poller
import Hala.Io.ReadBuf

/-! `RawDriverExtProxy::fd_cntl` (`crates/io/src/driver_ext.rs`), with `Handle::expect` (`crates/io/src/file.rs`), the
conversions of its answers (`crates/io/src/driver.rs`), and what the sockets ask with them (`crates/net/udp/src/udp.rs`,
`crates/net/tcp/src`, `crates/io/src/sleep.rs`).

The inner driver is any implementation: `D` is what it can change, which the memory behind a `&mut [u8]` is part of, and `ε`
are the errors that it makes. `A` is the type of socket addresses. -/

namespace Hala.Io

/-- A `&mut [u8]`. -/
structure SliceMut where
  ptr : Nat
  len : Nat
  deriving DecidableEq, Repr

inductive Shutdown where
  | read
  | write
  | both
  deriving DecidableEq, Repr

inductive Cmd (A : Type) where
  | read (waker : Waker) (buf : SliceMut)
  | write (waker : Waker) (buf : Bytes)
  | sendTo (waker : Waker) (buf : Bytes) (raddr : A)
  | recvFrom (waker : Waker) (buf : SliceMut)
  | register (source : Handle) (interests : Interest)
  | reRegister (source : Handle) (interests : Interest)
  | accept (waker : Waker)
  | pollOnce (duration : Option Nat)
  | tryClone
  | timeout (waker : Waker)
  | localAddr
  | remoteAddr
  | shutdown (how : Shutdown)
  | broadCast
  | setBroadCast (on : Bool)
  deriving DecidableEq, Repr

inductive CmdResp (A : Type) where
  | none
  | recvFrom (len : Nat) (raddr : A)
  | incoming (handle : Handle) (raddr : A)
  | dataLen (len : Nat)
  | timeout (status : Bool)
  | cloned (handle : Handle)
  | sockAddr (addr : A)
  | broadCast (status : Bool)
  deriving DecidableEq, Repr

/-- An `io::Error`: one that is made here, or one of the inner driver. -/
inductive DriverError (ε : Type) where
  | new (kind : ErrorKind) (message : String)
  | inner (err : ε)
  deriving DecidableEq, Repr

/-- `{:?}`. -/
def Description.debug : Description → String
  | .file => "File"
  | .tcpListener => "TcpListener"
  | .tcpStream => "TcpStream"
  | .udpSocket => "UdpSocket"
  | .timeout => "Timeout"
  | .poller => "Poller"
  | .external desc => "External(" ++ toString desc ++ ")"

def Handle.expect {ε : Type} (handle : Handle) (desc : Description) : Except (DriverError ε) Unit :=
  if handle.desc ≠ desc then
    .error (.new .invalidInput ("Expect file handle type " ++ desc.debug ++ ", but got " ++ handle.desc.debug))
  else .ok ()

/-! ### The inner driver -/

/-- A call of one of the methods of `RawDriverExt` that `fd_cntl` uses, by the type of its result. -/
inductive ExtCall (A : Type) : Type → Type where
  | fileRead (waker : Waker) (handle : Handle) (buf : SliceMut) : ExtCall A Nat
  | fileWrite (waker : Waker) (handle : Handle) (buf : Bytes) : ExtCall A Nat
  | tcpStreamRead (waker : Waker) (handle : Handle) (buf : SliceMut) : ExtCall A Nat
  | tcpStreamWrite (waker : Waker) (handle : Handle) (buf : Bytes) : ExtCall A Nat
  | udpSocketSendto (waker : Waker) (handle : Handle) (buf : Bytes) (raddr : A) : ExtCall A Nat
  | udpSocketRecvFrom (waker : Waker) (handle : Handle) (buf : SliceMut) : ExtCall A (Nat × A)
  | pollerRegister (poller source : Handle) (interests : Interest) : ExtCall A Unit
  | pollerReregister (poller source : Handle) (interests : Interest) : ExtCall A Unit
  | tcpListenerAccept (waker : Waker) (handle : Handle) : ExtCall A (Handle × A)
  | pollerPollOnce (handle : Handle) (duration : Option Nat) : ExtCall A Unit
  | pollerClone (handle : Handle) : ExtCall A Handle
  | fdUserDefineClone (handle : Handle) : ExtCall A Handle
  | timeout (waker : Waker) (handle : Handle) : ExtCall A Bool
  | tcpListenerLocalAddr (handle : Handle) : ExtCall A A
  | tcpStreamLocalAddr (handle : Handle) : ExtCall A A
  | udpLocalAddr (handle : Handle) : ExtCall A A
  | tcpStreamRemoteAddr (handle : Handle) : ExtCall A A
  | tcpStreamShutdown (handle : Handle) (how : Shutdown) : ExtCall A Unit
  | udpSocketGetBroadcast (handle : Handle) : ExtCall A Bool
  | udpSocketSetBroadcast (handle : Handle) (on : Bool) : ExtCall A Unit

/-- An operation that serves handles of this kind, by its name; any handle can be given to `fd_user_define_clone`. -/
def ExtCall.Takes {A α : Type} (desc : Description) : ExtCall A α → Prop
  | .fileRead .. | .fileWrite .. => desc = .file
  | .tcpStreamRead .. | .tcpStreamWrite .. | .tcpStreamLocalAddr _ | .tcpStreamRemoteAddr _ | .tcpStreamShutdown .. =>
    desc = .tcpStream
  | .udpSocketSendto .. | .udpSocketRecvFrom .. | .udpLocalAddr _ | .udpSocketGetBroadcast _ | .udpSocketSetBroadcast .. =>
    desc = .udpSocket
  | .pollerRegister .. | .pollerReregister .. | .pollerPollOnce .. | .pollerClone _ => desc = .poller
  | .tcpListenerAccept .. | .tcpListenerLocalAddr _ => desc = .tcpListener
  | .timeout .. => desc = .timeout
  | .fdUserDefineClone _ => True

structure RawDriverExt (A ε : Type) (D : Type*) where
  call : {α : Type} → D → ExtCall A α → D × Except ε α

namespace RawDriverExt
variable {A ε : Type} {D : Type*} (inner : RawDriverExt A ε D)

/-- The driver that keeps a log of the calls that are made of it. -/
def logged : RawDriverExt A ε (D × List (Σ α : Type, ExtCall A α)) where
  call := fun {α} (d, log) call => let (d, result) := inner.call d call; ((d, log ++ [⟨α, call⟩]), result)

/-- The inner result, with `map` of its value. -/
def answer {α : Type} (d : D) (call : ExtCall A α) (map : α → CmdResp A) : D × Except (DriverError ε) (CmdResp A) :=
  let (d, result) := inner.call d call
  (d, (result.mapError .inner).map map)

/-- `handle.expect(desc)?`, and then the call. -/
def expectAnswer {α : Type} (d : D) (handle : Handle) (desc : Description) (call : ExtCall A α) (map : α → CmdResp A) :
    D × Except (DriverError ε) (CmdResp A) :=
  match handle.expect desc with
  | .error err => (d, .error err)
  | .ok () => inner.answer d call map

/-- The error of the arms for other kinds of handles. -/
def reject (d : D) (expected : String) (desc : Description) : D × Except (DriverError ε) (CmdResp A) :=
  (d, .error (.new .invalidInput ("Expect " ++ expected ++ " , but got " ++ desc.debug)))

/-- `fd_cntl` of `RawDriverExtProxy`. -/
def fdCntl (d : D) (handle : Handle) : Cmd A → D × Except (DriverError ε) (CmdResp A)
  | .read waker buf =>
    match handle.desc with
    | .file => inner.answer d (.fileRead waker handle buf) .dataLen
    | .tcpStream => inner.answer d (.tcpStreamRead waker handle buf) .dataLen
    | desc => reject d "File / TcpStream" desc
  | .write waker buf =>
    match handle.desc with
    | .file => inner.answer d (.fileWrite waker handle buf) .dataLen
    | .tcpStream => inner.answer d (.tcpStreamWrite waker handle buf) .dataLen
    | desc => reject d "File / TcpStream" desc
  | .sendTo waker buf raddr => inner.expectAnswer d handle .udpSocket (.udpSocketSendto waker handle buf raddr) .dataLen
  | .recvFrom waker buf =>
    inner.expectAnswer d handle .udpSocket (.udpSocketRecvFrom waker handle buf) fun (len, raddr) => .recvFrom len raddr
  | .register source interests =>
    inner.expectAnswer d handle .poller (.pollerRegister handle source interests) fun _ => .none
  | .reRegister source interests =>
    inner.expectAnswer d handle .poller (.pollerReregister handle source interests) fun _ => .none
  | .accept waker =>
    inner.expectAnswer d handle .tcpListener (.tcpListenerAccept waker handle) fun (stream, raddr) => .incoming stream raddr
  | .pollOnce duration => inner.expectAnswer d handle .poller (.pollerPollOnce handle duration) fun _ => .none
  | .tryClone =>
    match handle.desc with
    | .poller => inner.answer d (.pollerClone handle) .cloned
    | _ => inner.answer d (.fdUserDefineClone handle) .cloned
  | .timeout waker => inner.expectAnswer d handle .timeout (.timeout waker handle) .timeout
  | .localAddr =>
    match handle.desc with
    | .tcpListener => inner.answer d (.tcpListenerLocalAddr handle) .sockAddr
    | .tcpStream => inner.answer d (.tcpStreamLocalAddr handle) .sockAddr
    | .udpSocket => inner.answer d (.udpLocalAddr handle) .sockAddr
    | desc => reject d "File / TcpStream" desc
  | .remoteAddr =>
    match handle.desc with
    | .tcpStream => inner.answer d (.tcpStreamRemoteAddr handle) .sockAddr
    | desc => reject d "File / TcpStream" desc
  | .shutdown how =>
    match handle.desc with
    | .tcpStream => inner.answer d (.tcpStreamShutdown handle how) fun _ => .none
    | desc => reject d "File / TcpStream" desc
  | .broadCast =>
    match handle.desc with
    | .udpSocket => inner.answer d (.udpSocketGetBroadcast handle) fun _ => .none
    | desc => reject d "UdpSocket" desc
  | .setBroadCast on =>
    match handle.desc with
    | .udpSocket => inner.answer d (.udpSocketSetBroadcast handle on) fun _ => .none
    | desc => reject d "UdpSocket" desc

end RawDriverExt

/-! ### The conversions -/

namespace CmdResp
variable {A ε : Type} (debug : CmdResp A → String)

/-- The error of a conversion; `debug` is `{:?}` of the response. -/
def unexpected {α : Type} (expected : String) (resp : CmdResp A) : Except (DriverError ε) α :=
  .error (.new .invalidInput ("Expect " ++ expected ++ ", but got " ++ debug resp))

def tryIntoIncoming : CmdResp A → Except (DriverError ε) (Handle × A)
  | .incoming handle raddr => .ok (handle, raddr)
  | resp => unexpected debug "Incoming" resp

def tryIntoRecvFrom : CmdResp A → Except (DriverError ε) (Nat × A)
  | .recvFrom len raddr => .ok (len, raddr)
  | resp => unexpected debug "Incoming" resp

def tryIntoSockaddr : CmdResp A → Except (DriverError ε) A
  | .sockAddr addr => .ok addr
  | resp => unexpected debug "SockAddr" resp

def tryIntoDatalen : CmdResp A → Except (DriverError ε) Nat
  | .dataLen len => .ok len
  | resp => unexpected debug "SockAddr" resp

def tryIntoTimeout : CmdResp A → Except (DriverError ε) Bool
  | .timeout status => .ok status
  | resp => unexpected debug "Timeout" resp

def tryIntoBroadcast : CmdResp A → Except (DriverError ε) Bool
  | .broadCast status => .ok status
  | resp => unexpected debug "Broadcast" resp

def tryIntoNone : CmdResp A → Except (DriverError ε) Unit
  | .none => .ok ()
  | resp => unexpected debug "None" resp

end CmdResp

/-! ### The callers -/

/-- What the inner driver has to answer a command with. -/
abbrev Cmd.Output {A : Type} : Cmd A → Type
  | .read .. | .write .. | .sendTo .. => Nat
  | .recvFrom .. => Nat × A
  | .register .. | .reRegister .. | .pollOnce _ | .shutdown _ | .setBroadCast _ => Unit
  | .accept _ => Handle × A
  | .tryClone => Handle
  | .timeout _ | .broadCast => Bool
  | .localAddr | .remoteAddr => A

/-- The inner operations that do what a command asks of a handle. -/
def Cmd.calls {A : Type} (handle : Handle) : (cmd : Cmd A) → List (ExtCall A cmd.Output)
  | .read waker buf => [.fileRead waker handle buf, .tcpStreamRead waker handle buf]
  | .write waker buf => [.fileWrite waker handle buf, .tcpStreamWrite waker handle buf]
  | .sendTo waker buf raddr => [.udpSocketSendto waker handle buf raddr]
  | .recvFrom waker buf => [.udpSocketRecvFrom waker handle buf]
  | .register source interests => [.pollerRegister handle source interests]
  | .reRegister source interests => [.pollerReregister handle source interests]
  | .accept waker => [.tcpListenerAccept waker handle]
  | .pollOnce duration => [.pollerPollOnce handle duration]
  | .tryClone => [.pollerClone handle, .fdUserDefineClone handle]
  | .timeout waker => [.timeout waker handle]
  | .localAddr => [.tcpListenerLocalAddr handle, .tcpStreamLocalAddr handle, .udpLocalAddr handle]
  | .remoteAddr => [.tcpStreamRemoteAddr handle]
  | .shutdown how => [.tcpStreamShutdown handle how]
  | .broadCast => [.udpSocketGetBroadcast handle]
  | .setBroadCast on => [.udpSocketSetBroadcast handle on]

/-- What the callers of a command take from its response: `TcpStream`, `TcpListener`, `UdpSocket` and `Sleep` by one of the
    conversions. The response to `Register`, `ReRegister`, `PollOnce` and `Shutdown` is dropped, and that to `TryClone` is
    read as it is: nobody sends it. -/
def Cmd.tryInto {A ε : Type} (debug : CmdResp A → String) :
    (cmd : Cmd A) → CmdResp A → Option (Except (DriverError ε) cmd.Output)
  | .read .., resp => some (resp.tryIntoDatalen debug)
  | .write .., resp => some (resp.tryIntoDatalen debug)
  | .sendTo .., resp => some (resp.tryIntoDatalen debug)
  | .recvFrom .., resp => some (resp.tryIntoRecvFrom debug)
  | .accept _, resp => some (resp.tryIntoIncoming debug)
  | .timeout _, resp => some (resp.tryIntoTimeout debug)
  | .localAddr, resp => some (resp.tryIntoSockaddr debug)
  | .remoteAddr, resp => some (resp.tryIntoSockaddr debug)
  | .broadCast, resp => some (resp.tryIntoBroadcast debug)
  | .setBroadCast _, resp => some (resp.tryIntoNone debug)
  | .register .., _ => some (.ok ())
  | .reRegister .., _ => some (.ok ())
  | .pollOnce _, _ => some (.ok ())
  | .shutdown _, _ => some (.ok ())
  | .tryClone, .cloned handle => some (.ok handle)
  | .tryClone, _ => none

end Hala.Io
