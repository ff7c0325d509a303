import Hala.Io.Poller
import Hala.Io.ReadBuf
import Hala.Lib.Program

/-! `AsyncStreamBridge` (`crates/net/tls/src/bridge.rs`) and what boring makes of it.

The stream below is any `AsyncRead` and `AsyncWrite`; `S` is its state. An operation of boring is a program that reads from
the bridge and writes to it, and may ask for the task waker of its `Ssl`. -/

namespace Hala.Tls
open Io (ErrorKind Waker)
open Program

inductive Poll (α : Type) where
  | pending
  | ready (a : α)
  deriving DecidableEq, Repr

/-- An `io::Error` that is its kind, or carries something. -/
inductive IoError (ε : Type) where
  | simple (kind : ErrorKind)
  | custom (kind : ErrorKind) (error : ε)
  deriving DecidableEq, Repr

def IoError.kind {ε : Type} : IoError ε → ErrorKind
  | .simple kind | .custom kind _ => kind

/-- `AsyncRead` and `AsyncWrite`; `poll_read` has a buffer of the given length, and returns what it puts there. -/
structure AsyncStream (S ε : Type) where
  pollRead : S → Waker → Nat → S × Poll (Except (IoError ε) Bytes)
  pollWrite : S → Waker → Bytes → S × Poll (Except (IoError ε) Nat)
  pollFlush : S → Waker → S × Poll (Except (IoError ε) Unit)
  pollClose : S → Waker → S × Poll (Except (IoError ε) Unit)

structure AsyncStreamBridge (S : Type) where
  stream : S
  waker : Option Waker
  deriving DecidableEq, Repr

namespace AsyncStreamBridge
variable {S ε α : Type}

def new (stream : S) : AsyncStreamBridge S := { stream, waker := none }

def setWaker (b : AsyncStreamBridge S) (ctx : Option Waker) : AsyncStreamBridge S := { b with waker := ctx }

/-- `with_context`; `none` is the panic for a missing waker. -/
def withContext (b : AsyncStreamBridge S) (f : S → Waker → S × α) : Option (AsyncStreamBridge S × α) :=
  match b.waker with
  | none => none
  | some waker =>
    let (stream, a) := f b.stream waker
    some ({ b with stream }, a)

/-- What `read`, `write` and `flush` of the bridge make of a poll. -/
def ofPoll : Poll (Except (IoError ε) α) → Except (IoError ε) α
  | .ready r => r
  | .pending => .error (.simple .wouldBlock)

end AsyncStreamBridge

/-! ### Boring -/

/-- What an operation of boring calls. -/
inductive SslOp where
  | read (len : Nat)
  | write (buf : Bytes)
  | flush
  /-- An asynchronous callback needs the task waker of the `Ssl`. -/
  | taskWaker

abbrev SslOp.Ret (ε : Type) : SslOp → Type
  | .read _ => Except (IoError ε) Bytes
  | .write _ => Except (IoError ε) Nat
  | .flush => Except (IoError ε) Unit
  | .taskWaker => Option Waker

abbrev SslCall (ε α : Type) := Prog SslOp (SslOp.Ret ε) α

inductive ErrorCode where
  | zeroReturn
  | wantRead
  | wantWrite
  | other (code : Int)
  deriving DecidableEq, Repr

/-- `boring::ssl::Error`; `error` is what it is as the payload of an `io::Error`. -/
structure SslError (ε : Type) where
  code : ErrorCode
  cause : Option (IoError ε)
  error : ε

def SslError.intoIoError {ε : Type} (e : SslError ε) : Except (SslError ε) (IoError ε) :=
  match e.cause with
  | some io => .ok io
  | none => .error e

inductive ShutdownResult where
  | sent
  | received
  deriving DecidableEq, Repr

/-- What `MidHandshakeSslStream::handshake` returns. -/
inductive HandshakeResult (ε : Type) where
  | ok
  | wouldBlock
  | failure (error : SslError ε)
  | setupFailure (error : ε)

/-- The operations of boring; `E` is the state of an `Ssl`, but for its task waker. -/
structure Boring (E ε : Type) where
  handshake : E → SslCall ε (E × HandshakeResult ε)
  read : E → Nat → SslCall ε (E × Except (IoError ε) Bytes)
  write : E → Bytes → SslCall ε (E × Except (IoError ε) Nat)
  flush : E → SslCall ε (E × Except (IoError ε) Unit)
  shutdown : E → SslCall ε (E × Except (SslError ε) ShutdownResult)

/-- The `SslStream` and the `MidHandshakeSslStream` of boring. -/
structure RawSslStream (E S : Type) where
  ssl : E
  taskWaker : Option Waker
  bridge : AsyncStreamBridge S

/-- `get_mut().set_waker`. -/
def RawSslStream.setWaker {E S : Type} (s : RawSslStream E S) (ctx : Option Waker) : RawSslStream E S :=
  { s with bridge := s.bridge.setWaker ctx }

/-- `ssl_mut().set_task_waker`. -/
def RawSslStream.setTaskWaker {E S : Type} (s : RawSslStream E S) (taskWaker : Option Waker) : RawSslStream E S :=
  { s with taskWaker }

/-- How the bridge answers a call of boring. -/
def AsyncStreamBridge.handle {S ε : Type} (stream : AsyncStream S ε) (taskWaker : Option Waker) (op : SslOp)
    (b : AsyncStreamBridge S) : Option (AsyncStreamBridge S × op.Ret ε) :=
  match op with
  | .read len => (b.withContext fun s waker => stream.pollRead s waker len).map (Prod.map id ofPoll)
  | .write buf => (b.withContext fun s waker => stream.pollWrite s waker buf).map (Prod.map id ofPoll)
  | .flush => (b.withContext stream.pollFlush).map (Prod.map id ofPoll)
  | .taskWaker => some (b, taskWaker)

/-- An operation of boring on its stream; `none` is the panic of the bridge. -/
def RawSslStream.perform {E S ε α : Type} (stream : AsyncStream S ε) (s : RawSslStream E S) (f : E → SslCall ε (E × α)) :
    Option (RawSslStream E S × α) :=
  ((f s.ssl).run (AsyncStreamBridge.handle stream s.taskWaker) s.bridge).map fun (bridge, ssl, a) =>
    ({ s with ssl, bridge }, a)

end Hala.Tls
