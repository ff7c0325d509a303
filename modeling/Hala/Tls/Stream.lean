import Hala.Tls.Bridge

/-! `SslStream` and `HandshakeFuture` (`crates/net/tls/src/lib.rs`), and the life of a connection: `connect` or `accept`
awaits the handshake, and its stream is used from then on. -/

namespace Hala.Tls
open Io (ErrorKind Waker)
variable {E S ε α : Type}

def cvt : Except (IoError ε) α → Poll (Except (IoError ε) α)
  | .ok v => .ready (.ok v)
  | .error e => if e.kind = .wouldBlock then .pending else .ready (.error e)

structure SslStream (E S : Type) where
  raw : RawSslStream E S

namespace SslStream
variable (boring : Boring E ε) (stream : AsyncStream S ε)

/-- `run_in_context`, on an operation of boring. -/
def runInContext (s : SslStream E S) (ctx : Waker) (f : E → SslCall ε (E × α)) : Option (SslStream E S × α) :=
  ((s.raw.setWaker (some ctx)).perform stream f).map fun (raw, result) => ({ raw := raw.setWaker none }, result)

def pollRead (s : SslStream E S) (ctx : Waker) (len : Nat) : Option (SslStream E S × Poll (Except (IoError ε) Bytes)) :=
  (s.runInContext stream ctx fun ssl => boring.read ssl len).map (Prod.map id cvt)

def pollWrite (s : SslStream E S) (ctx : Waker) (buf : Bytes) : Option (SslStream E S × Poll (Except (IoError ε) Nat)) :=
  (s.runInContext stream ctx fun ssl => boring.write ssl buf).map (Prod.map id cvt)

def pollFlush (s : SslStream E S) (ctx : Waker) : Option (SslStream E S × Poll (Except (IoError ε) Unit)) :=
  (s.runInContext stream ctx boring.flush).map (Prod.map id cvt)

/-- The end of `poll_close`: the stream below is closed. -/
def closeStream (s : SslStream E S) (ctx : Waker) : SslStream E S × Poll (Except (IoError ε) Unit) :=
  let (inner, result) := stream.pollClose s.raw.bridge.stream ctx
  ({ raw := { s.raw with bridge := { s.raw.bridge with stream := inner } } }, result)

def pollClose (s : SslStream E S) (ctx : Waker) : Option (SslStream E S × Poll (Except (IoError ε) Unit)) :=
  (s.runInContext stream ctx boring.shutdown).map fun (s, result) =>
    match result with
    | .ok .sent | .ok .received => s.closeStream stream ctx
    | .error e =>
      if e.code = .zeroReturn then s.closeStream stream ctx
      else if e.code = .wantRead ∨ e.code = .wantWrite then (s, .pending)
      else
        match e.intoIoError with
        | .ok io => (s, .ready (.error io))
        | .error e => (s, .ready (.error (.custom .other e.error)))

end SslStream

inductive HandshakeError (E S ε : Type) where
  | failure (mid : RawSslStream E S) (error : SslError ε)
  | setupFailure (error : ε)

/-- What `poll` of a `HandshakeFuture` leaves: the handshake, or its output. -/
inductive HandshakePoll (E S ε : Type) where
  | pending (mid : RawSslStream E S)
  | ready (output : Except (HandshakeError E S ε) (SslStream E S))

/-- `poll` of a `HandshakeFuture` that has its handshake. -/
def pollHandshake (boring : Boring E ε) (stream : AsyncStream S ε) (mid : RawSslStream E S) (ctx : Waker) :
    Option (HandshakePoll E S ε) :=
  (((mid.setWaker (some ctx)).setTaskWaker (some ctx)).perform stream boring.handshake).map fun (mid, result) =>
    match result with
    | .ok => .ready (.ok { raw := (mid.setWaker none).setTaskWaker none })
    | .wouldBlock => .pending ((mid.setWaker none).setTaskWaker none)
    | .failure error => .ready (.error (.failure (mid.setWaker none) error))
    | .setupFailure error => .ready (.error (.setupFailure error))

/-! ### A connection -/

inductive Connection (E S ε : Type) where
  | handshake (mid : RawSslStream E S)
  | established (stream : SslStream E S)
  | failed (error : HandshakeError E S ε)
  | panicked

/-- A poll by a task, with its waker. -/
inductive ConnectionOp where
  | handshake
  | read (len : Nat)
  | write (buf : Bytes)
  | flush
  | close

/-- What a poll returns: nothing yet, or that it is done. -/
inductive Answer (ε : Type) where
  | pending
  | established
  | failed
  | data (result : Except (IoError ε) Bytes)
  | len (result : Except (IoError ε) Nat)
  | unit (result : Except (IoError ε) Unit)

def Poll.answer (map : α → Answer ε) : Poll α → Answer ε
  | .pending => .pending
  | .ready a => map a

namespace Connection
variable (boring : Boring E ε) (stream : AsyncStream S ε)

/-- The connection after a poll of its stream, which may have panicked. -/
def ofStream (result : Option (SslStream E S × Poll α)) (map : α → Answer ε) : Connection E S ε × Answer ε :=
  match result with
  | none => (.panicked, .pending)
  | some (s, poll) => (.established s, poll.answer map)

def poll (c : Connection E S ε) (ctx : Waker) (op : ConnectionOp) : Option (Connection E S ε × Answer ε) :=
  match c, op with
  | .handshake mid, .handshake =>
    match pollHandshake boring stream mid ctx with
    | none => some (.panicked, .pending)
    | some (.pending mid) => some (.handshake mid, .pending)
    | some (.ready (.ok s)) => some (.established s, .established)
    | some (.ready (.error error)) => some (.failed error, .failed)
  | .established s, .read len => some (ofStream (s.pollRead boring stream ctx len) .data)
  | .established s, .write buf => some (ofStream (s.pollWrite boring stream ctx buf) .len)
  | .established s, .flush => some (ofStream (s.pollFlush boring stream ctx) .unit)
  | .established s, .close => some (ofStream (s.pollClose boring stream ctx) .unit)
  | _, _ => none

/-- The connection takes a step with each poll. -/
def step (c : Connection E S ε) (a : Waker × ConnectionOp) : Option (Connection E S ε) :=
  (c.poll boring stream a.1 a.2).map Prod.fst

/-- The handshake begins, as `setup_connect` or `setup_accept` has set it up. -/
def new (ssl : E) (inner : S) : Connection E S ε := .handshake { ssl, taskWaker := none, bridge := .new inner }

/-- What boring works on. -/
def raw? : Connection E S ε → Option (RawSslStream E S)
  | .handshake mid => some mid
  | .established s => some s.raw
  | .failed (.failure mid _) => some mid
  | .failed (.setupFailure _) | .panicked => none

end Connection

/-! ### What is asked of the stream and of boring -/

/-- The stream with the wakers of its polls, the latest first. -/
def AsyncStream.logged (stream : AsyncStream S ε) : AsyncStream (S × List Waker) ε where
  pollRead := fun (s, log) ctx len => let (s, r) := stream.pollRead s ctx len; ((s, ctx :: log), r)
  pollWrite := fun (s, log) ctx buf => let (s, r) := stream.pollWrite s ctx buf; ((s, ctx :: log), r)
  pollFlush := fun (s, log) ctx => let (s, r) := stream.pollFlush s ctx; ((s, ctx :: log), r)
  pollClose := fun (s, log) ctx => let (s, r) := stream.pollClose s ctx; ((s, ctx :: log), r)

inductive Side where
  | read
  | write
  | close
  deriving DecidableEq, Repr

/-- The contract of `AsyncRead` and `AsyncWrite`: a poll that returns `Pending` has parked the waker of its context, which
    the polls of the other side leave there, and no poll returns an error of the kind `WouldBlock`. -/
structure Parks (stream : AsyncStream S ε) (parked : S → Side → Waker → Prop) : Prop where
  read : ∀ s ctx len, (stream.pollRead s ctx len).2 = .pending → parked (stream.pollRead s ctx len).1 .read ctx
  write : ∀ s ctx buf, (stream.pollWrite s ctx buf).2 = .pending → parked (stream.pollWrite s ctx buf).1 .write ctx
  flush : ∀ s ctx, (stream.pollFlush s ctx).2 = .pending → parked (stream.pollFlush s ctx).1 .write ctx
  close : ∀ s ctx, (stream.pollClose s ctx).2 = .pending → parked (stream.pollClose s ctx).1 .close ctx
  readKeeps : ∀ s ctx len, parked s .write ctx → parked (stream.pollRead s ctx len).1 .write ctx
  writeKeeps : ∀ s ctx buf, parked s .read ctx → parked (stream.pollWrite s ctx buf).1 .read ctx
  flushKeeps : ∀ s ctx, parked s .read ctx → parked (stream.pollFlush s ctx).1 .read ctx
  readError : ∀ s ctx len e, (stream.pollRead s ctx len).2 = .ready (.error e) → e.kind ≠ .wouldBlock
  writeError : ∀ s ctx buf e, (stream.pollWrite s ctx buf).2 = .ready (.error e) → e.kind ≠ .wouldBlock
  flushError : ∀ s ctx e, (stream.pollFlush s ctx).2 = .ready (.error e) → e.kind ≠ .wouldBlock

/-- What boring has met in an operation: whether the last call of each side would block, and the task waker it was given. -/
structure Met where
  read : Bool := false
  write : Bool := false
  taskWaker : Option Waker := none

def blocks : Except (IoError ε) α → Bool
  | .ok _ => false
  | .error e => e.kind = .wouldBlock

def Met.track (met : Met) : (op : SslOp) → op.Ret ε → Met
  | .read _, r => { met with read := blocks r }
  | .write _, r => { met with write := blocks r }
  | .flush, r => { met with write := blocks r }
  | .taskWaker, r => { met with taskWaker := r }

/-- There is a reason to wait: a side of the bridge that would block, or a callback of the `Ssl` that has the task waker. -/
def Met.Waits (waiting : E → Waker → Prop) (met : Met) (ssl : E) : Prop :=
  met.read = true ∨ met.write = true ∨ ∃ ctx, met.taskWaker = some ctx ∧ waiting ssl ctx

/-- What is documented of boring: an operation that asks to be called again has met a reason to wait. `waiting` says that an
    asynchronous callback is under way, with the waker it wakes. -/
structure Honest (boring : Boring E ε) (waiting : E → Waker → Prop) : Prop where
  handshake : ∀ ssl, (boring.handshake ssl).Ends Met.track (fun met r => r.2 = .wouldBlock → met.Waits waiting r.1) {}
  read : ∀ ssl len, (boring.read ssl len).Ends Met.track (fun met r => blocks r.2 = true → met.Waits waiting r.1) {}
  write : ∀ ssl buf, (boring.write ssl buf).Ends Met.track (fun met r => blocks r.2 = true → met.Waits waiting r.1) {}
  flush : ∀ ssl, (boring.flush ssl).Ends Met.track (fun met r => blocks r.2 = true → met.Waits waiting r.1) {}
  shutdown : ∀ ssl, (boring.shutdown ssl).Ends Met.track
    (fun met r => ∀ e, r.2 = .error e → e.code = .wantRead ∨ e.code = .wantWrite → met.Waits waiting r.1) {}

end Hala.Tls
