import Hala.Io.ReadBuf

/-! The HTTP head parsers (`crates/net/http/src/parse.rs`).

`Requester::parse` and `Responser::parse` read from a stream into one `ReadBuf` and take method, URI,
version, status, reason and headers off its front, one parser state after the other, until an empty line.
The types of the `http` crate and its conversions from bytes are a parameter. -/

namespace Hala.Http
open Io

/-- The supported versions. -/
inductive Version where
  | http09
  | http10
  | http11
  | http2
  | http3
  deriving DecidableEq, Repr

/-- The eight bytes of a version: `HTTP/` and its two digits. -/
def Version.text : Version → Bytes
  | .http09 => [72, 84, 84, 80, 47, 48, 46, 57]
  | .http10 => [72, 84, 84, 80, 47, 49, 46, 48]
  | .http11 => [72, 84, 84, 80, 47, 49, 46, 49]
  | .http2 => [72, 84, 84, 80, 47, 50, 46, 48]
  | .http3 => [72, 84, 84, 80, 47, 51, 46, 48]

/-! ## The `http` crate -/

/-- `http::HeaderMap`. An append fails when the map cannot grow. -/
structure HeaderMap (HeaderName HeaderValue : Type) where
  Map : Type
  new : Map
  tryAppend : Map → HeaderName → HeaderValue → Option Map

/-- The map that headers are appended to one after another, if none of the appends fails. -/
def HeaderMap.appendAll {HeaderName HeaderValue : Type} (headers : HeaderMap HeaderName HeaderValue) (map : headers.Map)
    (hs : List (HeaderName × HeaderValue)) : Option headers.Map :=
  hs.foldlM (fun map h => headers.tryAppend map h.1 h.2) map

/-- `http::request::Parts`. -/
structure RequestParts (Method Uri Map : Type) where
  method : Method
  uri : Uri
  version : Version
  headers : Map

/-- `http::response::Parts`. -/
structure ResponseParts (StatusCode Map : Type) where
  status : StatusCode
  version : Version
  headers : Map

/-- `http::request::Builder`: it has parts, or the error of a `header` that could not be appended, which `body` returns. The
    laws say what its documentation says of the setters. -/
structure RequestBuilder (Method Uri : Type) {HeaderName HeaderValue : Type} (headers : HeaderMap HeaderName HeaderValue) where
  Builder : Type
  new : Builder
  method : Builder → Method → Builder
  uri : Builder → Uri → Builder
  version : Builder → Version → Builder
  header : Builder → HeaderName × HeaderValue → Builder
  parts : Builder → Option (RequestParts Method Uri headers.Map)
  parts_new : ∃ p, parts new = some p ∧ p.headers = headers.new
  parts_method : ∀ b method', parts (method b method') = (parts b).map fun p => { p with method := method' }
  parts_uri : ∀ b uri', parts (uri b uri') = (parts b).map fun p => { p with uri := uri' }
  parts_version : ∀ b version', parts (version b version') = (parts b).map fun p => { p with version := version' }
  parts_header : ∀ b h, parts (header b h) =
    (parts b).bind fun p => (headers.tryAppend p.headers h.1 h.2).map fun headers => { p with headers }

/-- `http::response::Builder`. -/
structure ResponseBuilder (StatusCode : Type) {HeaderName HeaderValue : Type} (headers : HeaderMap HeaderName HeaderValue) where
  Builder : Type
  new : Builder
  status : Builder → StatusCode → Builder
  version : Builder → Version → Builder
  header : Builder → HeaderName × HeaderValue → Builder
  parts : Builder → Option (ResponseParts StatusCode headers.Map)
  parts_new : ∃ p, parts new = some p ∧ p.headers = headers.new
  parts_status : ∀ b status', parts (status b status') = (parts b).map fun p => { p with status := status' }
  parts_version : ∀ b version', parts (version b version') = (parts b).map fun p => { p with version := version' }
  parts_header : ∀ b h, parts (header b h) =
    (parts b).bind fun p => (headers.tryAppend p.headers h.1 h.2).map fun headers => { p with headers }

/-- What the parsers use of the `http` crate. The laws are its documented rules for header names (RFC 7230
    tokens) and status codes (three digits). -/
structure HttpCrate where
  Method : Type
  Uri : Type
  HeaderName : Type
  HeaderValue : Type
  StatusCode : Type
  methodFromBytes : Bytes → Option Method
  uriFromMaybeShared : Bytes → Option Uri
  headerNameFromBytes : Bytes → Option HeaderName
  headerValueFromMaybeShared : Bytes → Option HeaderValue
  statusFromBytes : Bytes → Option StatusCode
  headers : HeaderMap HeaderName HeaderValue
  request : RequestBuilder Method Uri headers
  response : ResponseBuilder StatusCode headers
  name_ne_nil : ∀ {bs n}, headerNameFromBytes bs = some n → bs ≠ []
  name_token : ∀ {bs n}, headerNameFromBytes bs = some n → ∀ b ∈ bs, b ≠ 58 ∧ b ≠ 32 ∧ b ≠ 9 ∧ b ≠ 13 ∧ b ≠ 10
  status_digits : ∀ {bs c}, statusFromBytes bs = some c → ∀ b ∈ bs, 48 ≤ b ∧ b ≤ 57

/-- The token characters of RFC 7230. -/
def isTchar (b : UInt8) : Bool :=
  (48 ≤ b && b ≤ 57) || (65 ≤ b && b ≤ 90) || (97 ≤ b && b ≤ 122) ||
    [33, 35, 36, 37, 38, 39, 42, 43, 45, 46, 94, 95, 96, 124, 126].contains b

def toLower (b : UInt8) : UInt8 := if 65 ≤ b && b ≤ 90 then b + 32 else b

/-- The values of one name are together, in the order in which the names came first. The map has places for 24576 names,
    and wants one free at every append. -/
def asciiHeaders : HeaderMap Bytes Bytes where
  Map := List (Bytes × List Bytes)
  new := []
  tryAppend map name value :=
    if map.length < 24576 then
      if map.any (·.1 == name) then some (map.map fun e => if e.1 == name then (e.1, e.2 ++ [value]) else e)
      else some (map ++ [(name, [value])])
    else none

def asciiRequest : RequestBuilder Bytes Bytes asciiHeaders where
  Builder := Option (RequestParts Bytes Bytes asciiHeaders.Map)
  new := some ⟨[71, 69, 84], [47], .http11, []⟩
  method b method' := b.map fun p => { p with method := method' }
  uri b uri' := b.map fun p => { p with uri := uri' }
  version b version' := b.map fun p => { p with version := version' }
  header b h := b.bind fun p => (asciiHeaders.tryAppend p.headers h.1 h.2).map fun headers => { p with headers }
  parts b := b
  parts_new := ⟨_, rfl, rfl⟩
  parts_method _ _ := rfl
  parts_uri _ _ := rfl
  parts_version _ _ := rfl
  parts_header _ _ := rfl

def asciiResponse : ResponseBuilder Nat asciiHeaders where
  Builder := Option (ResponseParts Nat asciiHeaders.Map)
  new := some ⟨(200 : Nat), .http11, []⟩
  status b status' := b.map fun p => { p with status := status' }
  version b version' := b.map fun p => { p with version := version' }
  header b h := b.bind fun p => (asciiHeaders.tryAppend p.headers h.1 h.2).map fun headers => { p with headers }
  parts b := b
  parts_new := ⟨_, rfl, rfl⟩
  parts_status _ _ := rfl
  parts_version _ _ := rfl
  parts_header _ _ := rfl

/-- The rules of the `http` crate for ASCII messages: methods and lower-cased header names are tokens, URIs
    are origin-form paths, values are printable, and a status is in 100..=999. -/
def asciiCrate : HttpCrate where
  Method := Bytes
  Uri := Bytes
  HeaderName := Bytes
  HeaderValue := Bytes
  StatusCode := Nat
  methodFromBytes bs := if bs ≠ [] ∧ bs.all isTchar then some bs else none
  uriFromMaybeShared bs := if bs.head? = some 47 ∧ bs.all (fun b => 33 ≤ b && b ≤ 126) then some bs else none
  headerNameFromBytes bs := if bs ≠ [] ∧ bs.all isTchar then some (bs.map toLower) else none
  headerValueFromMaybeShared bs := if bs.all fun b => b = 9 || (32 ≤ b && b != 127) then some bs else none
  statusFromBytes
    | [a, b, c] =>
      if 49 ≤ a ∧ a ≤ 57 ∧ 48 ≤ b ∧ b ≤ 57 ∧ 48 ≤ c ∧ c ≤ 57 then
        some ((a.toNat - 48) * 100 + (b.toNat - 48) * 10 + (c.toNat - 48))
      else none
    | _ => none
  headers := asciiHeaders
  request := asciiRequest
  response := asciiResponse
  name_ne_nil {bs n} h := by
    rw [Option.ite_none_right_eq_some] at h
    exact h.1.1
  name_token {bs n} h b hb := by
    rw [Option.ite_none_right_eq_some] at h
    have htchar := List.all_eq_true.mp h.1.2 b hb
    refine ⟨?_, ?_, ?_, ?_, ?_⟩ <;> rintro rfl <;> revert htchar <;> decide
  status_digits {bs c} h b hb := by
    split at h
    · rw [Option.ite_none_right_eq_some] at h
      obtain ⟨⟨h₁, h₂, h₃, h₄, h₅, h₆⟩, -⟩ := h
      simp only [List.mem_cons, List.not_mem_nil, or_false] at hb
      rcases hb with rfl | rfl | rfl
      · exact ⟨UInt8.le_trans (by decide) h₁, h₂⟩
      · exact ⟨h₃, h₄⟩
      · exact ⟨h₅, h₆⟩
    · cases h

inductive ParseError where
  | httpError
  | parseBufOverflow (max : Nat)
  | ioError (e : ErrorKind)
  | eof
  | method
  | invalidMethod
  | uri
  | invalidUri
  | version
  | invalidHeaderName
  | invalidHeaderValue
  | invalidStatusCode
  deriving DecidableEq, Repr

abbrev ParseResult (α : Type) := Except (Abort ParseError) α

structure Config where
  parsingHeadersMaxBuf : Nat := 2048
  deriving DecidableEq, Repr

/-! ## Scanning functions -/

/-- SP or TAB. -/
def isSpace (b : UInt8) : Bool := b == 32 || b == 9

/-- CR or LF. -/
def isNewline (b : UInt8) : Bool := b == 13 || b == 10

def skipSpaces (buf : Bytes) : Nat := buf.findIdx fun b => !isSpace b

def parseToken (buf : Bytes) : Option Nat := buf.findIdx? fun c => isSpace c || isNewline c

def parseHeaderName (buf : Bytes) : Option Nat := buf.findIdx? fun c => c == 58

def parseHeaderValue (buf : Bytes) : Option Nat := buf.findIdx? isNewline

def parseReason (buf : Bytes) : Option Nat := buf.findIdx? isNewline

def parseVersion (buf : Bytes) : ParseResult (Option Version) :=
  if 8 ≤ buf.length then
    if buf.take 8 = Version.text .http09 then .ok (some .http09)
    else if buf.take 8 = Version.text .http10 then .ok (some .http10)
    else if buf.take 8 = Version.text .http11 then .ok (some .http11)
    else if buf.take 8 = Version.text .http2 then .ok (some .http2)
    else if buf.take 8 = Version.text .http3 then .ok (some .http3)
    else .error (.error .version)
  else .ok none

def parseCode (http : HttpCrate) (buf : Bytes) : ParseResult (Option http.StatusCode) :=
  if 3 ≤ buf.length then
    match http.statusFromBytes (buf.take 3) with
    | some code => .ok (some code)
    | none => .error (.error .invalidStatusCode)
  else .ok none

inductive SkipNewLine where
  | none
  | one (len : Nat)
  | brk (len : Nat)
  | incomplete
  deriving DecidableEq, Repr

def _skipNewline (buf : Bytes) : SkipNewLine :=
  if 1 < buf.length ∧ buf.take 2 = [13, 10] then .one 2
  else if 1 < buf.length ∧ buf.take 2 = [10, 10] then .brk 2
  else
    match buf with
    | [] => .none
    | b :: _ => if b = 10 then .one 1 else if b = 13 then .incomplete else .none

/-- The loop of `_skip_newlines` on what is left of the buffer from `offset` on. The budget is never used
    up, since every iteration that goes on passes over a byte. -/
def _skipNewlinesLoop : Nat → Bytes → Nat → Bool → SkipNewLine
  | 0, _, _, _ => .none
  | fuel + 1, buf, offset, isBreak =>
    match _skipNewline buf with
    | .incomplete | .none => if isBreak then .brk offset else if 0 < offset then .one offset else .none
    | .one len => _skipNewlinesLoop fuel (buf.drop len) (offset + len) (isBreak || decide (0 < offset))
    | .brk len => _skipNewlinesLoop fuel (buf.drop len) (offset + len) true

def _skipNewlines (buf : Bytes) : SkipNewLine := _skipNewlinesLoop (buf.length + 1) buf 0 false

def skipNewlines (rb : ReadBuf) : ParseResult (SkipNewLine × ReadBuf) := do
  match _skipNewlines rb.chunk with
  | .one len =>
    let (_, rb) ← rb.splitTo len
    return (.one len, rb)
  | .brk len =>
    let (_, rb) ← rb.splitTo len
    return (.brk len, rb)
  | r => return (r, rb)

def trimSuffixSpaces (buf : Bytes) : Bytes :=
  match buf.reverse.findIdx? fun c => !isSpace c with
  | some offset => if 0 < offset then buf.take (buf.length - offset) else buf
  | none => buf

def parseHeader (http : HttpCrate) (rb : ReadBuf) :
    ParseResult (Option (http.HeaderName × http.HeaderValue) × ReadBuf) := do
  let chunk := rb.chunk
  let nameOffset := skipSpaces chunk
  match parseHeaderName (← sliceFrom chunk nameOffset) with
  | none => return (none, rb)
  | some nameLen =>
    let offset := nameOffset + nameLen + 1
    let valueOffset := skipSpaces (← sliceFrom chunk offset)
    match parseHeaderValue (← sliceFrom chunk (offset + valueOffset)) with
    | none => return (none, rb)
    | some valueLen =>
      let (_, rb) ← rb.splitTo nameOffset
      let (buf, rb) ← rb.splitTo nameLen
      match http.headerNameFromBytes (trimSuffixSpaces buf) with
      | none => throw (.error .invalidHeaderName)
      | some name =>
        let (_, rb) ← rb.splitTo (valueOffset + 1)
        let (buf, rb) ← rb.splitTo valueLen
        match http.headerValueFromMaybeShared (trimSuffixSpaces buf) with
        | none => throw (.error .invalidHeaderValue)
        | some value => return (some (name, value), rb)

/-! ## Messages -/

/-- The bytes the parser had buffered behind the head, and the stream (`crates/net/http/src/body.rs`). -/
structure BodyReader where
  cached : Bytes
  stream : Stream

/-- What `BodyReader::into_read` delivers. -/
def BodyReader.bytes (b : BodyReader) : Bytes := b.cached ++ b.stream.bytes

structure Request (http : HttpCrate) extends RequestParts http.Method http.Uri http.headers.Map where
  body : BodyReader

structure Response (http : HttpCrate) extends ResponseParts http.StatusCode http.headers.Map where
  body : BodyReader

/-! ## The steps that both parsers have

`p` is the parser before the step; what a step sets in it, and that it advances its state, is a parameter. -/

section Steps
variable {P α : Type}

/-- A token behind SP and TAB; `empty` and `invalid` are the errors of a missing and of a rejected one. -/
def takeToken (ofBytes : Bytes → Option α) (empty invalid : ParseError) (set : α → ParseResult P) (p : P) (rb : ReadBuf) :
    ParseResult (Bool × P × ReadBuf) := do
  let (_, rb) ← rb.splitTo (skipSpaces rb.chunk)
  match parseToken rb.chunk with
  | none => return (false, p, rb)
  | some len =>
    if len = 0 then throw (.error empty)
    let (buf, rb) ← rb.splitTo len
    match ofBytes buf with
    | none => throw (.error invalid)
    | some a => return (true, ← set a, rb)

def takeVersion (set : Version → ParseResult P) (p : P) (rb : ReadBuf) : ParseResult (Bool × P × ReadBuf) := do
  let (_, rb) ← rb.splitTo (skipSpaces rb.chunk)
  match ← parseVersion rb.chunk with
  | none => return (false, p, rb)
  | some version =>
    let (_, rb) ← rb.splitTo 8
    return (true, ← set version, rb)

/-- Line breaks and a header, or the empty line after which the parser is `fin`. -/
def takeHeader (http : HttpCrate) (set : http.HeaderName × http.HeaderValue → ParseResult P) (fin p : P) (rb : ReadBuf) :
    ParseResult (Bool × P × ReadBuf) := do
  match ← skipNewlines rb with
  | (.brk _, rb) => return (false, fin, rb)
  | (.incomplete, rb) => return (false, p, rb)
  | (_, rb) =>
    match ← parseHeader http rb with
    | (some h, rb) => return (true, ← set h, rb)
    | (none, rb) => return (false, p, rb)

end Steps

/-! ## The read loop

Both parsers have the same two nested loops around their own parser states. -/

/-- A parser: when it is finished, and one match over its states. The flag of a step says whether the
    inner loop goes on. -/
structure Parser (P : Type) where
  finished : P → Bool
  step : P → ReadBuf → ParseResult (Bool × P × ReadBuf)

namespace Parser
variable {P : Type}

/-- The loop `'inner`, as long as the buffer has something in it. -/
def inner (m : Parser P) : Nat → P → ReadBuf → ParseResult (P × ReadBuf)
  | 0, _, _ => .error .outOfFuel
  | fuel + 1, p, rb =>
    if 0 < rb.chunk.length then
      if m.finished p then .ok (p, rb)
      else
        match m.step p rb with
        | .error e => .error e
        | .ok (true, p, rb) => m.inner fuel p rb
        | .ok (false, p, rb) => .ok (p, rb)
    else .ok (p, rb)

/-- The loop `'out`: one read, and the inner loop over what it brought. The iterations that may follow count the
    calls of `chunk_mut`. -/
def out (m : Parser P) (grow : Growth) (config : Config) : Nat → P → ReadBuf → Stream → ParseResult (P × ReadBuf × Stream)
  | 0, _, _, _ => .error .outOfFuel
  | fuel + 1, p, rb, stream =>
    if m.finished p then .ok (p, rb, stream)
    else
      let rb := rb.chunkMut (grow.room fuel)
      if rb.spare = 0 then .error (.error (.parseBufOverflow config.parsingHeadersMaxBuf))
      else
        match stream.read rb.spare with
        | .error e => .error (.error (.ioError e))
        | .ok (data, stream) =>
          if data.length = 0 then .error (.error .eof)
          else
            let rb := rb.filled data
            match m.inner (rb.bytes.length + 6) p rb with
            | .error e => .error e
            | .ok (p, rb) => if m.finished p then .ok (p, rb, stream) else m.out grow config fuel p rb stream

/-- Both loops on a fresh buffer. Every read but the last takes a byte off the stream, which bounds the
    number of iterations. -/
def run (m : Parser P) (grow : Growth) (config : Config) (p : P) (stream : Stream) : ParseResult (P × ReadBuf × Stream) :=
  m.out grow config (stream.bytes.length + 1) p (ReadBuf.withCapacity config.parsingHeadersMaxBuf) stream

/-- `parse`: both loops, and the message that `finish` makes of the parser and of the body behind the head. -/
def parse {R : Type} (m : Parser P) (finish : P → BodyReader → ParseResult R) (grow : Growth) (config : Config) (p : P)
    (stream : Stream) : ParseResult R := do
  let (p, rb, stream) ← m.run grow config p stream
  finish p ⟨rb.intoBytes, stream⟩

end Parser

/-! ## Requests -/

inductive RequestParseState where
  | method
  | uri
  | version
  | headers
  | finished
  deriving DecidableEq, Repr

def RequestParseState.next : RequestParseState → RequestParseState
  | .method => .uri
  | .uri => .version
  | .version => .headers
  | .headers => .finished
  | .finished => .finished

structure Requester (http : HttpCrate) where
  state : RequestParseState
  builder : Option http.request.Builder

namespace Requester
variable {http : HttpCrate}

def new (http : HttpCrate) : Requester http := ⟨.method, some http.request.new⟩

/-- `self.builder = Some(self.builder.take().unwrap()...)`. -/
def setBuilder (r : Requester http) (f : http.request.Builder → http.request.Builder) : ParseResult (Requester http) :=
  match r.builder with
  | none => .error .panic
  | some b => .ok { r with builder := some (f b) }

def setMethod (r : Requester http) (method : http.Method) : ParseResult (Requester http) :=
  r.setBuilder fun b => http.request.method b method

def setUri (r : Requester http) (uri : http.Uri) : ParseResult (Requester http) :=
  r.setBuilder fun b => http.request.uri b uri

def setVersion (r : Requester http) (version : Version) : ParseResult (Requester http) :=
  r.setBuilder fun b => http.request.version b version

def setHeader (r : Requester http) (h : http.HeaderName × http.HeaderValue) : ParseResult (Requester http) :=
  r.setBuilder fun b => http.request.header b h

def nextState (r : Requester http) : Requester http := { r with state := r.state.next }

def parseMethod (r : Requester http) (rb : ReadBuf) : ParseResult (Bool × Requester http × ReadBuf) :=
  takeToken http.methodFromBytes .method .invalidMethod (fun method => nextState <$> r.setMethod method) r rb

def parseUri (r : Requester http) (rb : ReadBuf) : ParseResult (Bool × Requester http × ReadBuf) :=
  takeToken http.uriFromMaybeShared .uri .invalidUri (fun uri => nextState <$> r.setUri uri) r rb

def parseVersion (r : Requester http) (rb : ReadBuf) : ParseResult (Bool × Requester http × ReadBuf) :=
  takeVersion (fun version => nextState <$> r.setVersion version) r rb

def parseHeader (r : Requester http) (rb : ReadBuf) : ParseResult (Bool × Requester http × ReadBuf) :=
  takeHeader http r.setHeader r.nextState r rb

/-- The match over the parser states; a finished parser takes no step. -/
def parser (http : HttpCrate) : Parser (Requester http) where
  finished r := r.state == .finished
  step r rb :=
    match r.state with
    | .method => r.parseMethod rb
    | .uri => r.parseUri rb
    | .version => r.parseVersion rb
    | .headers => r.parseHeader rb
    | .finished => .ok (false, r, rb)

/-- `self.builder.unwrap().body(..)`. -/
def finish (r : Requester http) (body : BodyReader) : ParseResult (Request http) :=
  match r.builder with
  | none => throw .panic
  | some b =>
    match http.request.parts b with
    | none => throw (.error .httpError)
    | some parts => return ⟨parts, body⟩

/-- `Requester::parse`. -/
def parse (http : HttpCrate) (grow : Growth) (config : Config) (stream : Stream) : ParseResult (Request http) :=
  (parser http).parse finish grow config (new http) stream

end Requester

/-! ## Responses -/

inductive ResponseParseState where
  | version
  | statusCode
  | reason
  | headers
  | finished
  deriving DecidableEq, Repr

def ResponseParseState.next : ResponseParseState → ResponseParseState
  | .version => .statusCode
  | .statusCode => .reason
  | .reason => .headers
  | .headers => .finished
  | .finished => .finished

structure Responser (http : HttpCrate) where
  state : ResponseParseState
  builder : Option http.response.Builder
  reason : Option Bytes

namespace Responser
variable {http : HttpCrate}

def new (http : HttpCrate) : Responser http := ⟨.version, some http.response.new, some []⟩

def setBuilder (r : Responser http) (f : http.response.Builder → http.response.Builder) : ParseResult (Responser http) :=
  match r.builder with
  | none => .error .panic
  | some b => .ok { r with builder := some (f b) }

def setCode (r : Responser http) (status : http.StatusCode) : ParseResult (Responser http) :=
  r.setBuilder fun b => http.response.status b status

def setReason (r : Responser http) (reason : Bytes) : Responser http := { r with reason := some reason }

def setVersion (r : Responser http) (version : Version) : ParseResult (Responser http) :=
  r.setBuilder fun b => http.response.version b version

def setHeader (r : Responser http) (h : http.HeaderName × http.HeaderValue) : ParseResult (Responser http) :=
  r.setBuilder fun b => http.response.header b h

def nextState (r : Responser http) : Responser http := { r with state := r.state.next }

def parseStatusCode (r : Responser http) (rb : ReadBuf) : ParseResult (Bool × Responser http × ReadBuf) := do
  let (_, rb) ← rb.splitTo (skipSpaces rb.chunk)
  match ← parseCode http rb.chunk with
  | none => return (false, r, rb)
  | some code =>
    let r ← r.setCode code
    let (_, rb) ← rb.splitTo 3
    return (true, r.nextState, rb)

def parseReason (r : Responser http) (rb : ReadBuf) : ParseResult (Bool × Responser http × ReadBuf) := do
  let (_, rb) ← rb.splitTo (skipSpaces rb.chunk)
  match Http.parseReason rb.chunk with
  | none => return (false, r, rb)
  | some len =>
    let (buf, rb) ← rb.splitTo len
    return (true, (r.setReason buf).nextState, rb)

def parseVersion (r : Responser http) (rb : ReadBuf) : ParseResult (Bool × Responser http × ReadBuf) :=
  takeVersion (fun version => nextState <$> r.setVersion version) r rb

def parseHeader (r : Responser http) (rb : ReadBuf) : ParseResult (Bool × Responser http × ReadBuf) :=
  takeHeader http r.setHeader r.nextState r rb

def parser (http : HttpCrate) : Parser (Responser http) where
  finished r := r.state == .finished
  step r rb :=
    match r.state with
    | .version => r.parseVersion rb
    | .statusCode => r.parseStatusCode rb
    | .reason => r.parseReason rb
    | .headers => r.parseHeader rb
    | .finished => .ok (false, r, rb)

/-- `self.builder.unwrap().body(..)`. -/
def finish (r : Responser http) (body : BodyReader) : ParseResult (Response http) :=
  match r.builder with
  | none => throw .panic
  | some b =>
    match http.response.parts b with
    | none => throw (.error .httpError)
    | some parts => return ⟨parts, body⟩

/-- `Responser::parse`. -/
def parse (http : HttpCrate) (grow : Growth) (config : Config) (stream : Stream) : ParseResult (Response http) :=
  (parser http).parse finish grow config (new http) stream

end Responser

end Hala.Http
