import Hala.Http.Parse

/-! The slices of `crates/net/http/src/parse.rs` with the panics of their bounds, and the byte behind a parser state.

`Parse` takes prefixes and suffixes of the buffer where the source indexes it. Here an index past the end is a panic, a
subtraction below zero too, and a loop that uses up its budget has no answer. -/

namespace Hala.Http
open Io

/-- `buf[i]`. -/
def byteAt {ε : Type} (buf : Bytes) (i : Nat) : Except (Abort ε) UInt8 :=
  match buf[i]? with
  | some b => .ok b
  | none => .error .panic

/-- `a - b` of two `usize`. -/
def checkedSub {ε : Type} (a b : Nat) : Except (Abort ε) Nat := if b ≤ a then .ok (a - b) else .error .panic

namespace Checked

def parseVersion (buf : Bytes) : ParseResult (Option Version) :=
  if 8 ≤ buf.length then do
    let text ← sliceTo buf 8
    if text = Version.text .http09 then return some .http09
    else if text = Version.text .http10 then return some .http10
    else if text = Version.text .http11 then return some .http11
    else if text = Version.text .http2 then return some .http2
    else if text = Version.text .http3 then return some .http3
    else throw (.error .version)
  else return none

def parseCode (http : HttpCrate) (buf : Bytes) : ParseResult (Option http.StatusCode) :=
  if 3 ≤ buf.length then do
    match http.statusFromBytes (← sliceTo buf 3) with
    | some code => return some code
    | none => throw (.error .invalidStatusCode)
  else return none

/-- `_skip_newline` behind its comparisons of two bytes. -/
def skipByte (buf : Bytes) : ParseResult SkipNewLine :=
  if 0 < buf.length then do
    let b ← byteAt buf 0
    return if b = 10 then .one 1 else if b = 13 then .incomplete else .none
  else return .none

def _skipNewline (buf : Bytes) : ParseResult SkipNewLine :=
  if 1 < buf.length then do
    let two ← sliceTo buf 2
    if two = [13, 10] then return .one 2
    else if two = [10, 10] then return .brk 2
    else skipByte buf
  else skipByte buf

def _skipNewlinesLoop (buf : Bytes) : Nat → Nat → Bool → ParseResult SkipNewLine
  | 0, _, _ => .error .outOfFuel
  | fuel + 1, offset, isBreak => do
    match ← _skipNewline (← sliceFrom buf offset) with
    | .incomplete | .none => return if isBreak then .brk offset else if 0 < offset then .one offset else .none
    | .one len => _skipNewlinesLoop buf fuel (offset + len) (isBreak || decide (0 < offset))
    | .brk len => _skipNewlinesLoop buf fuel (offset + len) true

def _skipNewlines (buf : Bytes) : ParseResult SkipNewLine := _skipNewlinesLoop buf (buf.length + 1) 0 false

/-- The suffix goes with `split_off`, which panics when its argument is past the end. -/
def trimSuffixSpaces (buf : Bytes) : ParseResult Bytes :=
  match buf.reverse.findIdx? fun c => !isSpace c with
  | some offset =>
    if 0 < offset then do
      let n ← checkedSub buf.length offset
      sliceTo buf n
    else return buf
  | none => return buf

end Checked

/-- The byte behind a state. -/
def RequestParseState.discriminant : RequestParseState → UInt8
  | .method => 1
  | .uri => 2
  | .version => 3
  | .headers => 4
  | .finished => 5

def ResponseParseState.discriminant : ResponseParseState → UInt8
  | .version => 1
  | .statusCode => 2
  | .reason => 3
  | .headers => 4
  | .finished => 5

/-- `next` on the byte behind the state. -/
def nextDiscriminant (d : UInt8) : UInt8 := if d = 5 then d else d + 1

/-- The call returns a value or an error of its own: no panic, and no loop that goes on. -/
def Ends {ε α : Type} (res : Except (Abort ε) α) : Prop := (∃ a, res = .ok a) ∨ ∃ e, res = .error (.error e)

/-- A step from a state in which the parser can be and after which the inner loop goes on has consumed a byte of the
    buffer or has moved to a later state. -/
def Parser.Progress {P : Type} (m : Parser P) (within : P → Prop) (discriminant : P → UInt8) : Prop :=
  ∀ p rb p' rb', within p → rb.bytes ≠ [] → m.step p rb = .ok (true, p', rb') →
    within p' ∧ (rb'.bytes.length < rb.bytes.length ∨ discriminant p < discriminant p')

end Hala.Http
