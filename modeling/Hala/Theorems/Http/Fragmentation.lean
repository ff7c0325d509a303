import Hala.Theorems.Http.Run

/-! How the outcome of `parse` depends on the cuts between the reads.

The parsers forget a line break that they have taken, so that the empty line is only seen when the same
buffer also holds the line break before it. All cuts of an input end alike exactly when it does not start
with a complete head (`fragmentation_iff`). -/

namespace Hala.Http
open Io Incremental Scan

section View
variable {http : HttpCrate}

/-- What a caller sees of a request, its body as the bytes it can read. -/
def Request.view (r : Request http) : http.Method × http.Uri × Version × http.headers.Map × Bytes :=
  (r.method, r.uri, r.version, r.headers, r.body.bytes)

def Response.view (r : Response http) : http.StatusCode × Version × http.headers.Map × Bytes :=
  (r.status, r.version, r.headers, r.body.bytes)

/-- The outcome of `Requester::parse` up to how the body is split between the cache and the stream. -/
def Requester.observe (http : HttpCrate) (grow : Growth) (config : Config) (stream : Stream) :
    ParseResult (http.Method × http.Uri × Version × http.headers.Map × Bytes) :=
  (Requester.parse http grow config stream).map Request.view

def Responser.observe (http : HttpCrate) (grow : Growth) (config : Config) (stream : Stream) :
    ParseResult (http.StatusCode × Version × http.headers.Map × Bytes) :=
  (Responser.parse http grow config stream).map Response.view

end View

section Cuts
variable {http : HttpCrate} {P H R V : Type} {m : Parser P} {move : P → Bytes → Move P UInt8 ParseError} {Ready : P → Prop}
  {size : P → Nat} {start : P} {text : H → Bytes} {final : H → P} {finish : P → BodyReader → ParseResult R} {view : R → V}
  {grow : Growth} {config : Config} {bytes : Bytes} {fault : Option ErrorKind} {stream stream' : Stream} {rb : ReadBuf}

theorem le_firstRead {n : Nat} (h : n ≤ config.parsingHeadersMaxBuf) : n ≤ firstRead config := by
  unfold firstRead
  split <;> omega

theorem cuts_one (h : bytes ≠ []) : Cuts [bytes] bytes := ⟨by simp, by simpa using h⟩

theorem Parser.observe_of_error {e : Abort ParseError} (h : m.run grow config start stream = .error e) :
    (m.parse finish grow config start stream).map view = .error e := by
  rw [parse_of_error h]
  rfl

/-- Behind a head the only error is that of the builder. -/
theorem Parser.error_of_head {h : H} {e : ParseError} (hfinish : ∀ h body e, finish (final h) body = .error (.error e) → e = .httpError)
    (hrun : m.run grow config start stream = .ok (final h, rb, stream'))
    (he : (m.parse finish grow config start stream).map view = .error (.error e)) : e = .httpError := by
  rw [parse_of_ok hrun] at he
  cases hf : finish (final h) ⟨rb.intoBytes, stream'⟩ with
  | ok r =>
    rw [hf] at he
    cases he
  | error e' =>
    rw [hf] at he
    cases he
    exact hfinish h _ e hf

/-- When the message that is made of the parser has no error but that of the builder, all cuts of the bytes end alike
    exactly when they do not start with a complete head. -/
theorem Takes.cuts_iff (t : Takes http m move Ready size start text final)
    (hfinish : ∀ h body e, finish (final h) body = .error (.error e) → e = .httpError)
    (hfits : ∀ h body, bytes = text h ++ body → (text h).length ≤ config.parsingHeadersMaxBuf) :
    (∀ c₁ c₂, Cuts c₁ bytes → Cuts c₂ bytes → (m.parse finish grow config start ⟨c₁, fault⟩).map view =
      (m.parse finish grow config start ⟨c₂, fault⟩).map view) ↔ ¬∃ h body, bytes = text h ++ body := by
  constructor
  · rintro hall ⟨h, body, rfl⟩
    -- The whole input in one read against one read a byte.
    have hne : text h ++ body ≠ [] := List.ne_nil_of_length_pos (by
      have := t.nonempty h
      rw [List.length_append]
      omega)
    have heq := hall _ _ (cuts_one hne) (cuts_bytewise _)
    obtain ⟨e, hbytewise, he⟩ := t.run_bytewise grow config (text h ++ body) fault
    obtain ⟨room, spare, left, -, hone, -⟩ := t.run_head grow h body [] fault (le_firstRead (hfits h body rfl))
    rw [Parser.observe_of_error hbytewise] at heq
    exact he (Parser.error_of_head hfinish hone heq)
  · intro h c₁ c₂ h₁ h₂
    obtain ⟨e, he⟩ := t.run_no_head grow config fault h
    rw [Parser.observe_of_error (he c₁ h₁), Parser.observe_of_error (he c₂ h₂)]

end Cuts

section Finish
variable {http : HttpCrate}

theorem Requester.finish_error (h : RequestHead http) (body : BodyReader) (e : ParseError)
    (he : finish h.requester body = .error (.error e)) : e = .httpError := by
  rw [finish_head] at he
  split at he <;> cases he
  rfl

theorem Responser.finish_error (h : ResponseHead http) (body : BodyReader) (e : ParseError)
    (he : finish h.responser body = .error (.error e)) : e = .httpError := by
  rw [finish_head] at he
  split at he <;> cases he
  rfl

end Finish

/-- All cuts of an input whose head fits in the buffer end alike, with the same message and body bytes or the
    same error, exactly when the input does not start with a complete head. -/
theorem fragmentation_iff (http : HttpCrate) (grow : Growth) (config : Config) (bytes : Bytes) (fault : Option ErrorKind)
    (hreq : ∀ (h : RequestHead http) body, bytes = h.bytes ++ body → h.bytes.length ≤ config.parsingHeadersMaxBuf)
    (hres : ∀ (h : ResponseHead http) body, bytes = h.bytes ++ body → h.bytes.length ≤ config.parsingHeadersMaxBuf) :
    ((∀ c₁ c₂, Cuts c₁ bytes → Cuts c₂ bytes →
        Requester.observe http grow config ⟨c₁, fault⟩ = Requester.observe http grow config ⟨c₂, fault⟩) ↔
      ¬∃ (h : RequestHead http) (body : Bytes), bytes = h.bytes ++ body) ∧
    ((∀ c₁ c₂, Cuts c₁ bytes → Cuts c₂ bytes →
        Responser.observe http grow config ⟨c₁, fault⟩ = Responser.observe http grow config ⟨c₂, fault⟩) ↔
      ¬∃ (h : ResponseHead http) (body : Bytes), bytes = h.bytes ++ body) :=
  ⟨(Requester.takes http).cuts_iff Requester.finish_error hreq, (Responser.takes http).cuts_iff Responser.finish_error hres⟩

/-- `GET / HTTP/1.1`, CRLF and the empty line. -/
def getRoot : Bytes := [71, 69, 84, 32, 47, 32, 72, 84, 84, 80, 47, 49, 46, 49, 13, 10, 13, 10]

theorem head_fits {text body : Bytes} (h : getRoot = text ++ body) : text.length ≤ ({} : Config).parsingHeadersMaxBuf := by
  calc text.length ≤ (text ++ body).length := by simp
    _ = getRoot.length := by rw [h]
    _ ≤ 2048 := by decide

/-- Read in one piece, the request is accepted; cut before its empty line, the parser reports the end of the
    stream. -/
theorem fragmentation_getRoot :
    (∀ (h : RequestHead asciiCrate) body, getRoot = h.bytes ++ body →
      h.bytes.length ≤ ({} : Config).parsingHeadersMaxBuf) ∧
    Cuts [getRoot] getRoot ∧ Cuts [getRoot.take 16, getRoot.drop 16] getRoot ∧
    Requester.observe asciiCrate .least {} ⟨[getRoot], none⟩ = .ok ([71, 69, 84], [47], .http11, [], []) ∧
    Requester.observe asciiCrate .least {} ⟨[getRoot.take 16, getRoot.drop 16], none⟩ = .error (.error .eof) :=
  ⟨fun _ _ h => head_fits h, ⟨rfl, by decide⟩, ⟨rfl, by decide⟩, rfl, rfl⟩

/-- As a request the cuts of these bytes do not all end alike; as a response, which they are not, they do. -/
theorem fragmentation_iff_getRoot :
    (∃ (h : RequestHead asciiCrate) (body : Bytes), getRoot = h.bytes ++ body) ∧
    ∀ c₁ c₂, Cuts c₁ getRoot → Cuts c₂ getRoot →
      Responser.observe asciiCrate .least {} ⟨c₁, none⟩ = Responser.observe asciiCrate .least {} ⟨c₂, none⟩ := by
  obtain ⟨hreq, hres⟩ := fragmentation_iff asciiCrate .least {} getRoot none (fun _ _ h => head_fits h) fun _ _ h => head_fits h
  constructor
  · by_contra hnone
    have h := hreq.mpr hnone [getRoot] [getRoot.take 16, getRoot.drop 16] ⟨rfl, by decide⟩ ⟨rfl, by decide⟩
    cases h
  · refine hres.mpr ?_
    rintro ⟨h, body, heq⟩
    have herr : Responser.observe asciiCrate .least {} ⟨[getRoot], none⟩ = .error (.error .version) := rfl
    obtain ⟨room, spare, left, -, hrun, -⟩ :=
      (Responser.takes asciiCrate).run_head .least h body [] none (le_firstRead (head_fits heq))
    rw [heq] at herr
    cases Parser.error_of_head Responser.finish_error hrun herr

end Hala.Http
