import Hala.Http.Parse

/-! The limits on what is read: `BodyReader::into_bytes` (`crates/net/http/src/body.rs`), and what the head parsers take from
their stream. -/

namespace Hala.Http
open Io

/-- How many bytes the outer loop takes from the stream. -/
def Parser.taken {P : Type} (m : Parser P) (grow : Growth) : Nat → P → ReadBuf → Stream → Nat
  | 0, _, _, _ => 0
  | fuel + 1, p, rb, stream =>
    if m.finished p then 0
    else
      let rb := rb.chunkMut (grow.room fuel)
      if rb.spare = 0 then 0
      else
        match stream.read rb.spare with
        | .error _ => 0
        | .ok (data, stream) =>
          if data.length = 0 then 0
          else
            let rb := rb.filled data
            data.length +
              match m.inner (rb.bytes.length + 6) p rb with
              | .error _ => 0
              | .ok (p, rb) => if m.finished p then 0 else m.taken grow fuel p rb stream

/-- How many bytes `parse` takes from the stream. -/
def Requester.taken (http : HttpCrate) (grow : Growth) (config : Config) (stream : Stream) : Nat :=
  (parser http).taken grow (stream.bytes.length + 1) (new http) (ReadBuf.withCapacity config.parsingHeadersMaxBuf) stream

def Responser.taken (http : HttpCrate) (grow : Growth) (config : Config) (stream : Stream) : Nat :=
  (parser http).taken grow (stream.bytes.length + 1) (new http) (ReadBuf.withCapacity config.parsingHeadersMaxBuf) stream

/-- The first `n` bytes of the pieces, cut as these are. -/
def firstBytes : Nat → List Bytes → List Bytes
  | _, [] => []
  | n, piece :: rest =>
    if piece.length ≤ n then piece :: firstBytes (n - piece.length) rest else if n = 0 then [] else [piece.take n]

/-- `futures::io::Chain` of a cursor and a stream. -/
structure Chain where
  first : Bytes
  doneFirst : Bool := false
  second : Stream

/-- The cursor is done when it has nothing for a buffer that is not empty. -/
def Chain.read (c : Chain) (n : Nat) : Except ErrorKind (Bytes × Chain) :=
  if c.doneFirst ∨ (c.first.take n = [] ∧ n ≠ 0) then
    (c.second.read n).map fun (data, second) => (data, { c with doneFirst := true, second })
  else .ok (c.first.take n, { c with first := c.first.drop n })

namespace BodyReader

def intoRead (b : BodyReader) : Chain := { first := b.cached, second := b.stream }

/-- The loop of `into_bytes`. -/
def intoBytesLoop (grow : Growth) (maxBodyLen : Nat) : Nat → ReadBuf → Chain → ParseResult Bytes
  | 0, _, _ => .error .outOfFuel
  | fuel + 1, rb, stream =>
    let rb := rb.chunkMut (grow.room fuel)
    if rb.spare = 0 then .error (.error (.parseBufOverflow maxBodyLen))
    else
      match stream.read rb.spare with
      | .error e => .error (.error (.ioError e))
      | .ok (data, stream) =>
        if data.length = 0 then .ok rb.intoBytes else intoBytesLoop grow maxBodyLen fuel (rb.filled data) stream

/-- `into_bytes`. Every read but the last takes a byte, which bounds the number of iterations. -/
def intoBytes (b : BodyReader) (grow : Growth) (maxBodyLen : Nat) : ParseResult Bytes :=
  intoBytesLoop grow maxBodyLen (b.bytes.length + 1) (ReadBuf.withCapacity maxBodyLen) b.intoRead

end BodyReader

end Hala.Http
