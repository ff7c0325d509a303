import Mathlib.Data.List.Basic

/-! `hala_io::ReadBuf` (`crates/io/src/read_buf.rs`) over `bytes::BytesMut`, and the stream it reads from.

A buffer is its filled bytes and its spare capacity: `BytesMut::split_to` leaves the spare capacity to the
tail, and `BytesMut::chunk_mut` reserves at least 64 more bytes when there is none. -/

namespace Hala

abbrev Bytes := List UInt8

/-- The ways a call ends without a value. A panic and an exhausted loop budget are kept apart from the
    errors the code returns. -/
inductive Abort (ε : Type) where
  | error (e : ε)
  | panic
  | outOfFuel
  deriving DecidableEq, Repr

namespace Io

/-- The kinds of `std::io::Error` that the modelled code creates or passes on. -/
inductive ErrorKind where
  | interrupted
  | brokenPipe
  | timedOut
  | unexpectedEof
  | invalidInput
  | invalidData
  | wouldBlock
  | connectionRefused
  | other
  deriving DecidableEq, Repr

/-- How `BytesMut` grows. `chunk_mut` of a full buffer asks for 64 bytes, and each call may get more. -/
structure Growth where
  room : Nat → Nat
  le_room : ∀ call, 64 ≤ room call

/-- No more than what is asked for. -/
def Growth.least : Growth := ⟨fun _ => 64, fun _ => Nat.le_refl 64⟩

structure ReadBuf where
  bytes : Bytes
  spare : Nat
  deriving DecidableEq, Repr

namespace ReadBuf

def withCapacity (capacity : Nat) : ReadBuf := ⟨[], capacity⟩

def chunk (b : ReadBuf) : Bytes := b.bytes

/-- The unfilled part, `room` bytes if it has to grow; `spare` of the result is its length. -/
def chunkMut (b : ReadBuf) (room : Nat) : ReadBuf := if b.spare = 0 then { b with spare := room } else b

/-- `data` was written to the unfilled part, and the cursor advances past it. -/
def filled (b : ReadBuf) (data : Bytes) : ReadBuf := ⟨b.bytes ++ data, b.spare - data.length⟩

/-- `BytesMut::split_to` panics when `at` is past the filled bytes. -/
def splitTo {ε : Type} (b : ReadBuf) (at_ : Nat) : Except (Abort ε) (Bytes × ReadBuf) :=
  if at_ ≤ b.bytes.length then .ok (b.bytes.take at_, { b with bytes := b.bytes.drop at_ }) else .error .panic

/-- `into_bytes(None)`. -/
def intoBytes (b : ReadBuf) : Bytes := b.bytes

end ReadBuf

/-- `&buf[offset..]`, which panics when `offset` is past the end. -/
def sliceFrom {ε : Type} (buf : Bytes) (offset : Nat) : Except (Abort ε) Bytes :=
  if offset ≤ buf.length then .ok (buf.drop offset) else .error .panic

/-- `&buf[..n]`, which panics when `n` is past the end. -/
def sliceTo {ε : Type} (buf : Bytes) (n : Nat) : Except (Abort ε) Bytes :=
  if n ≤ buf.length then .ok (buf.take n) else .error .panic

/-- An `AsyncRead` stream: the pieces its reads deliver, and the error of the reads after them, if these
    do not report the end of the stream. -/
structure Stream where
  pending : List Bytes
  fault : Option ErrorKind := none
  deriving DecidableEq, Repr

namespace Stream

/-- One read into `n` bytes: at most `n` bytes of the next piece; no bytes at the end of the stream. -/
def read (s : Stream) (n : Nat) : Except ErrorKind (Bytes × Stream) :=
  match s.pending with
  | [] =>
    match s.fault with
    | some e => .error e
    | none => .ok ([], s)
  | piece :: rest =>
    if piece.length ≤ n then .ok (piece, { s with pending := rest })
    else .ok (piece.take n, { s with pending := piece.drop n :: rest })

/-- Everything the stream still delivers. -/
def bytes (s : Stream) : Bytes := s.pending.flatten

end Stream

end Io
end Hala
