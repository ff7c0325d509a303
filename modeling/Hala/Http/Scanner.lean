import Hala.Lib.Scan
import Hala.Lib.Incremental
import Hala.Http.Parse

/-! What the head parsers decide about a buffer, without its capacity and its index arithmetic.

`Requester.move` and `Responser.move` are one step of the inner loop on the filled bytes. Below them stand
the texts a head is written with (`RequestHead`, `ResponseHead`): these say what the parsers are for, and
no definition of the parsers is used in them. -/

namespace Hala.Http
open Io Incremental Scan

/-! ## Line breaks -/

/-- What follows the line break (LF or CRLF) at the start of the bytes. -/
def lineBreak : Bytes → Option Bytes
  | [] => none
  | [b] => if b = 10 then some [] else none
  | b :: c :: rest => if b = 10 then some (c :: rest) else if b = 13 ∧ c = 10 then some rest else none

theorem length_of_lineBreak {buf rest : Bytes} (h : lineBreak buf = some rest) : rest.length < buf.length := by
  match buf with
  | [] => cases h
  | [b] =>
    simp only [lineBreak, Option.ite_none_right_eq_some, Option.some.injEq] at h
    simp [← h.2]
  | b :: c :: t =>
    simp only [lineBreak] at h
    split at h
    · cases h
      simp
    · split at h
      · cases h
        simp only [List.length_cons]
        omega
      · cases h

/-- The number of line breaks at the start of the bytes, and what follows them. -/
def breakRun (buf : Bytes) : Nat × Bytes :=
  match h : lineBreak buf with
  | none => (0, buf)
  | some rest =>
    have := length_of_lineBreak h
    ((breakRun rest).1 + 1, (breakRun rest).2)
termination_by buf.length

/-- What follows the first empty line: the first line break that directly follows a line feed. -/
def afterEmptyLine : Bytes → Option Bytes
  | [] => none
  | b :: rest =>
    if b = 10 then
      match lineBreak rest with
      | some body => some body
      | none => afterEmptyLine rest
    else afterEmptyLine rest

/-! ## Steps on the bytes -/

section Moves
variable {http : HttpCrate}

/-- The header line at the start of the bytes: incomplete, rejected by the `http` crate, or the header and
    the bytes from its line break on. -/
def headerLine (http : HttpCrate) (buf : Bytes) :
    Option (Except ParseError ((http.HeaderName × http.HeaderValue) × Bytes)) :=
  match cut (· == 58) (buf.dropWhile isSpace) with
  | none => none
  | some (rawName, rest) =>
    match cut isNewline (rest.tail.dropWhile isSpace) with
    | none => none
    | some (rawValue, rest) =>
      match http.headerNameFromBytes (trimSuffixSpaces rawName) with
      | none => some (.error .invalidHeaderName)
      | some name =>
        match http.headerValueFromMaybeShared (trimSuffixSpaces rawValue) with
        | none => some (.error .invalidHeaderValue)
        | some value => some (.ok ((name, value), rest))

/-- A step in the header section, from `s`: `add` takes a header, `fin` is the state after the empty line. -/
def headersMove {σ : Type} (http : HttpCrate) (add : http.HeaderName × http.HeaderValue → σ) (fin s : σ) (buf : Bytes) :
    Move σ UInt8 ParseError :=
  if 2 ≤ (breakRun buf).1 then .done fin (breakRun buf).2
  else
    match headerLine http (breakRun buf).2 with
    | none => .wait s (breakRun buf).2
    | some (.error e) => .fail e
    | some (.ok (h, rest)) => .go (add h) rest

/-- A step that takes a token: `empty` and `invalid` are the errors of a missing and of a rejected one. -/
def tokenMove {σ α : Type} (ofBytes : Bytes → Option α) (empty invalid : ParseError) (add : α → σ) (s : σ) (buf : Bytes) :
    Move σ UInt8 ParseError :=
  match cut (fun c => isSpace c || isNewline c) (buf.dropWhile isSpace) with
  | none => .wait s (buf.dropWhile isSpace)
  | some (token, rest) =>
    if token = [] then .fail empty
    else
      match ofBytes token with
      | none => .fail invalid
      | some a => .go (add a) rest

/-- A step that takes a field of `n` bytes. -/
def fieldMove {σ α : Type} (n : Nat) (ofBytes : Bytes → Option α) (invalid : ParseError) (add : α → σ) (s : σ)
    (buf : Bytes) : Move σ UInt8 ParseError :=
  if n ≤ (buf.dropWhile isSpace).length then
    match ofBytes ((buf.dropWhile isSpace).take n) with
    | none => .fail invalid
    | some a => .go (add a) ((buf.dropWhile isSpace).drop n)
  else .wait s (buf.dropWhile isSpace)

def Version.ofBytes (bs : Bytes) : Option Version :=
  [Version.http09, .http10, .http11, .http2, .http3].find? fun v => bs = v.text

namespace Requester

/-- The parser with its builder changed and its state advanced or not. -/
def update (r : Requester http) (state : RequestParseState) (f : http.request.Builder → http.request.Builder) :
    Requester http := ⟨state, r.builder.map f⟩

def addHeader (r : Requester http) (h : http.HeaderName × http.HeaderValue) : Requester http :=
  r.update .headers fun b => http.request.header b h

def move (r : Requester http) (buf : Bytes) : Move (Requester http) UInt8 ParseError :=
  match r.state with
  | .method =>
    tokenMove http.methodFromBytes .method .invalidMethod (fun method => r.update .uri fun b => http.request.method b method) r buf
  | .uri =>
    tokenMove http.uriFromMaybeShared .uri .invalidUri (fun uri => r.update .version fun b => http.request.uri b uri) r buf
  | .version => fieldMove 8 Version.ofBytes .version (fun version => r.update .headers fun b => http.request.version b version) r buf
  | .headers => headersMove http r.addHeader r.nextState r buf
  | .finished => .done r buf

end Requester

namespace Responser

def update (r : Responser http) (state : ResponseParseState) (f : http.response.Builder → http.response.Builder) :
    Responser http := { r with state, builder := r.builder.map f }

def addHeader (r : Responser http) (h : http.HeaderName × http.HeaderValue) : Responser http :=
  r.update .headers fun b => http.response.header b h

def move (r : Responser http) (buf : Bytes) : Move (Responser http) UInt8 ParseError :=
  match r.state with
  | .version =>
    fieldMove 8 Version.ofBytes .version (fun version => r.update .statusCode fun b => http.response.version b version) r buf
  | .statusCode =>
    fieldMove 3 http.statusFromBytes .invalidStatusCode (fun status => r.update .reason fun b => http.response.status b status) r buf
  | .reason =>
    match cut isNewline (buf.dropWhile isSpace) with
    | none => .wait r (buf.dropWhile isSpace)
    | some (reason, rest) => .go (r.setReason reason).nextState rest
  | .headers => headersMove http r.addHeader r.nextState r buf
  | .finished => .done r buf

end Responser

end Moves

/-! ## Texts of a head -/

inductive LineEnd where
  | crlf
  | lf
  deriving DecidableEq, Repr

def LineEnd.bytes : LineEnd → Bytes
  | .crlf => [13, 10]
  | .lf => [10]

/-- A run of SP and TAB. -/
abbrev Spaces := { bs : Bytes // ∀ b ∈ bs, isSpace b = true }

/-- A header as it is written on its line: SP and TAB may stand before the name, on both sides of the colon
    and after the value, which has no CR or LF and neither starts nor ends with SP or TAB. -/
structure HeaderText (http : HttpCrate) where
  before : Spaces
  nameText : Bytes
  afterName : Spaces
  beforeValue : Spaces
  valueText : Bytes
  afterValue : Spaces
  name : http.HeaderName
  value : http.HeaderValue
  name_ok : http.headerNameFromBytes nameText = some name
  value_ok : http.headerValueFromMaybeShared valueText = some value
  value_line : ∀ b ∈ valueText, isNewline b = false
  value_first : ∀ b t, valueText = b :: t → isSpace b = false
  value_last : ∀ t b, valueText = t ++ [b] → isSpace b = false

namespace HeaderText
variable {http : HttpCrate}

def bytes (h : HeaderText http) : Bytes :=
  h.before.val ++ (h.nameText ++ (h.afterName.val ++ 58 :: (h.beforeValue.val ++ (h.valueText ++ h.afterValue.val))))

def header (h : HeaderText http) : http.HeaderName × http.HeaderValue := (h.name, h.value)

end HeaderText

/-- The header lines, each with its line end. -/
abbrev HeaderLines (http : HttpCrate) := List (HeaderText http × LineEnd)

namespace HeaderLines
variable {http : HttpCrate}

def bytes (ls : HeaderLines http) : Bytes := ls.flatMap fun l => l.1.bytes ++ l.2.bytes

def headers (ls : HeaderLines http) : List (http.HeaderName × http.HeaderValue) := ls.map fun l => l.1.header

end HeaderLines

/-- A token of a request line that `ofBytes` accepts. -/
structure TokenText {α : Type} (ofBytes : Bytes → Option α) where
  text : Bytes
  value : α
  ne_nil : text ≠ []
  token : ∀ b ∈ text, isSpace b = false ∧ isNewline b = false
  ok : ofBytes text = some value

/-- A complete request head. The parser also takes SP and TAB before the method, and a first header that
    directly follows the version (`lineEnd = none`). -/
structure RequestHead (http : HttpCrate) where
  before : Spaces
  method : TokenText http.methodFromBytes
  gap₁ : Spaces
  uri : TokenText http.uriFromMaybeShared
  gap₂ : Spaces
  version : Version
  lineEnd : Option LineEnd
  lines : HeaderLines http
  emptyLine : LineEnd
  gap₁_ne_nil : gap₁.val ≠ []
  gap₂_ne_nil : gap₂.val ≠ []
  lines_ne_nil : lineEnd = none → lines ≠ []

/-- A complete response head; the reason has no CR or LF. -/
structure ResponseHead (http : HttpCrate) where
  before : Spaces
  version : Version
  gap : Spaces
  statusText : Bytes
  status : http.StatusCode
  reason : Bytes
  lineEnd : LineEnd
  lines : HeaderLines http
  emptyLine : LineEnd
  status_length : statusText.length = 3
  status_ok : http.statusFromBytes statusText = some status
  reason_line : ∀ b ∈ reason, isNewline b = false

/-- The header section from the end of the first line on. -/
def sectionBytes {http : HttpCrate} (lineEnd : Option LineEnd) (lines : HeaderLines http) (emptyLine : LineEnd) : Bytes :=
  (lineEnd.map LineEnd.bytes).getD [] ++ (lines.bytes ++ emptyLine.bytes)

def RequestHead.bytes {http : HttpCrate} (h : RequestHead http) : Bytes :=
  h.before.val ++ (h.method.text ++ (h.gap₁.val ++ (h.uri.text ++ (h.gap₂.val ++
    (h.version.text ++ sectionBytes h.lineEnd h.lines h.emptyLine)))))

def ResponseHead.bytes {http : HttpCrate} (h : ResponseHead http) : Bytes :=
  h.before.val ++ (h.version.text ++ (h.gap.val ++ (h.statusText ++ (h.reason ++
    sectionBytes (some h.lineEnd) h.lines h.emptyLine))))

/-- A request head whose first line ends behind the version. -/
def RequestHead.WellFormed {http : HttpCrate} (h : RequestHead http) : Prop := h.lineEnd ≠ none

/-- A response head that starts with its version, with SP or TAB before the status and before a reason. -/
structure ResponseHead.WellFormed {http : HttpCrate} (h : ResponseHead http) : Prop where
  before_nil : h.before.val = []
  gap_ne_nil : h.gap.val ≠ []
  reason_space : ∀ b t, h.reason = b :: t → isSpace b = true

/-! ## The bytes behind the fields -/

def startsWith (p : UInt8 → Bool) (buf : Bytes) : Bool := buf.head?.any p

/-- What follows the token behind SP and TAB. -/
def skipToken (buf : Bytes) : Bytes :=
  ((cut (fun c => isSpace c || isNewline c) (buf.dropWhile isSpace)).map Prod.snd).getD []

/-- What follows the field of `n` bytes behind SP and TAB. -/
def skipField (n : Nat) (buf : Bytes) : Bytes := (buf.dropWhile isSpace).drop n

/-- The version, the third field, is followed by CR or LF. -/
def requestDelimited (input : Bytes) : Bool := startsWith isNewline (skipField 8 (skipToken (skipToken input)))

/-- No SP or TAB before the version, one behind it, and one or CR or LF behind the status. -/
def responseDelimited (input : Bytes) : Bool :=
  !startsWith isSpace input && startsWith isSpace (skipField 8 input) &&
    startsWith (fun b => isSpace b || isNewline b) (skipField 3 (skipField 8 input))

end Hala.Http
