import Hala.Theorems.Http.Head

/-! What the two read loops return on a stream.

An input that does not drain to the end of a head ends with the same error however it is cut
(`HeadMoves.run_not_done`). A head that the first read brings whole is finished by that read
(`Refines.run_first`). Fed byte by byte no input is ever finished (`HeadMoves.run_bytewise`). -/

namespace Hala.Http
open Io Incremental Scan

/-- The pieces are a way of cutting the bytes into non-empty reads. -/
structure Cuts (pieces : List Bytes) (bytes : Bytes) : Prop where
  flatten_eq : pieces.flatten = bytes
  ne_nil : ∀ piece ∈ pieces, piece ≠ []

/-- The room that the first read finds in the buffer at least. -/
def firstRead (config : Config) : Nat := if config.parsingHeadersMaxBuf = 0 then 64 else config.parsingHeadersMaxBuf

section Run
variable {http : HttpCrate} {P : Type} {m : Parser P} {move : P → Bytes → Move P UInt8 ParseError} {Ready : P → Prop}
  {size : P → Nat} {p : P} {grow : Growth} {config : Config} {bytes : Bytes} {fault : Option ErrorKind}

/-- The error of an input that no read finishes: the error of a step, or that of the read at its end. -/
def verdict (fault : Option ErrorKind) : Move P UInt8 ParseError → ParseError
  | .fail e => e
  | _ => fault.elim .eof .ioError

theorem HeadMoves.run_not_done (hm : HeadMoves http move Ready) (ref : Refines m move Ready size) (hp : Ready p)
    {d : Move P UInt8 ParseError} (h : Drains move p bytes d) (hd : d.isDone = false) {pieces : List Bytes}
    (hcut : Cuts pieces bytes) : m.run grow config p ⟨pieces, fault⟩ = .error (.error (verdict fault d)) := by
  obtain ⟨hflat, hne⟩ := hcut
  obtain ⟨hreads, hne'⟩ := @reads_spec grow (pieces.flatten.length + 1) config.parsingHeadersMaxBuf pieces (Nat.lt_succ_self _) hne
  obtain ⟨r, hr⟩ := ref.exists_feeds hp [] (reads grow (pieces.flatten.length + 1) config.parsingHeadersMaxBuf pieces)
  have hend : Ended fault r (m.run grow config p ⟨pieces, fault⟩) := ref.out_eq config hp (Nat.lt_succ_self _) hne hr
  have hv : Verdict d r := Feeds.eq hm.stable hd hr (.empty p) hne' (by rw [List.nil_append, hreads, hflat]; exact h)
  cases d with
  | fail e =>
    cases r with
    | fail e' =>
      obtain rfl : e = e' := hv
      exact hend
    | done => exact hv.elim
    | starved => exact hv.elim
  | wait s rest =>
    cases r with
    | fail => exact hv.elim
    | done => exact hv.elim
    | starved => exact hend
  | go s rest => cases h.not_go
  | done s rest => cases hd

/-- The room that the first read of a stream finds. -/
def firstRoom (grow : Growth) (config : Config) (stream : Stream) : Nat :=
  if config.parsingHeadersMaxBuf = 0 then grow.room stream.bytes.length else config.parsingHeadersMaxBuf

theorem firstRead_pos (config : Config) : 0 < firstRead config := by
  unfold firstRead
  split <;> omega

theorem firstRead_le (grow : Growth) (config : Config) (stream : Stream) : firstRead config ≤ firstRoom grow config stream := by
  unfold firstRead firstRoom
  split
  · exact grow.le_room _
  · exact Nat.le_refl _

/-- When the first read brings enough to finish the head, the loops end after it. -/
theorem Refines.run_first (ref : Refines m move Ready size) (hp : Ready p) {p' : P} {piece rest : Bytes} {pieces : List Bytes}
    {n : Nat} (hn : firstRoom grow config ⟨piece :: pieces, fault⟩ = n) (hne : piece ≠ [])
    (h : Drains move p (piece.take n) (.done p' rest)) :
    ∃ spare left, m.run grow config p ⟨piece :: pieces, fault⟩ = .ok (p', ⟨rest, spare⟩, ⟨left, fault⟩) ∧
      left.flatten = piece.drop n ++ pieces.flatten := by
  have hpos : 0 < n := hn ▸ (firstRead_pos config).trans_le (firstRead_le ..)
  have hchunk : (ReadBuf.withCapacity config.parsingHeadersMaxBuf).chunkMut
      (grow.room (⟨piece :: pieces, fault⟩ : Stream).bytes.length) = ⟨[], n⟩ := by
    rw [← hn]
    unfold ReadBuf.chunkMut ReadBuf.withCapacity firstRoom
    split <;> rfl
  have hread : ∃ left, (⟨piece :: pieces, fault⟩ : Stream).read n = .ok (piece.take n, ⟨left, fault⟩) ∧
      left.flatten = piece.drop n ++ pieces.flatten := by
    by_cases hle : piece.length ≤ n
    · exact ⟨pieces, by simp [Stream.read, hle, List.take_of_length_le hle], by simp [List.drop_of_length_le hle]⟩
    · exact ⟨piece.drop n :: pieces, by simp [Stream.read, hle], rfl⟩
  obtain ⟨left, hread, hleft⟩ := hread
  have hdata : (piece.take n).length ≠ 0 := by
    have := List.length_pos_iff.mpr hne
    rw [List.length_take]
    omega
  have hsize := ref.size_le p
  have hinner : m.inner ((piece.take n).length + 6) p ⟨piece.take n, n - (piece.take n).length⟩ = .ok (p', ⟨rest, _⟩) :=
    ref.inner_eq hp h (by omega)
  refine ⟨n - (piece.take n).length, left, ?_, hleft⟩
  unfold Parser.run
  rw [Parser.out, if_neg (by simp [ref.notFinished hp])]
  simp only [hchunk, Nat.ne_of_gt hpos, if_false, hread, hdata, ReadBuf.filled, List.nil_append, hinner,
    ref.finished_of_drains hp h, if_true]

theorem reads_bytewise {fuel spare : Nat} (h : bytes.length < fuel) :
    reads grow fuel spare (bytes.map fun b => [b]) = bytes.map fun b => [b] := by
  induction fuel generalizing bytes spare with
  | zero => omega
  | succ fuel ih =>
    cases bytes with
    | nil => rfl
    | cons b bytes =>
      have hn : 1 ≤ if spare = 0 then grow.room fuel else spare := room_pos grow fuel spare
      simp only [List.map_cons, reads, List.length_singleton, hn, if_true]
      rw [ih (by simpa using h)]

theorem flatten_bytewise (bytes : Bytes) : (bytes.map fun b => [b]).flatten = bytes := by
  induction bytes with
  | nil => rfl
  | cons b bytes ih => rw [List.map_cons, List.flatten_cons, ih, List.singleton_append]

theorem cuts_bytewise (bytes : Bytes) : Cuts (bytes.map fun b => [b]) bytes where
  flatten_eq := flatten_bytewise bytes
  ne_nil piece h := by
    obtain ⟨b, -, rfl⟩ := List.mem_map.mp h
    exact List.cons_ne_nil b []

theorem Drains.error_of_fail {e : ParseError} {buf : Bytes} (h : Drains move p buf (.fail e)) :
    ∃ p' buf', move p' buf' = .fail e := by
  generalize hm : Move.fail e = d at h
  induction h with
  | empty => cases hm
  | @stop p buf _ _ => exact ⟨p, buf, rfl⟩
  | go _ _ _ ih => exact ih hm

theorem Feeds.error_of_fail {e : ParseError} {buf : Bytes} {pieces : List Bytes}
    (h : Feeds move p buf pieces (.fail e)) : ∃ p' buf', move p' buf' = .fail e := by
  generalize hr : Ending.fail e = r at h
  induction h with
  | starved => cases hr
  | done => cases hr
  | wait _ _ ih => exact ih hr
  | fail hd =>
    cases hr
    exact Drains.error_of_fail hd

/-- Byte by byte, every input ends with the error of a step or of the read at its end. -/
theorem HeadMoves.run_bytewise (hm : HeadMoves http move Ready) (ref : Refines m move Ready size) (hp : Ready p)
    (bytes : Bytes) : ∃ e, m.run grow config p ⟨bytes.map fun b => [b], fault⟩ = .error (.error e) ∧
      ((∃ p' buf, move p' buf = .fail e) ∨ e = fault.elim .eof .ioError) := by
  obtain ⟨r, hr⟩ := ref.exists_feeds hp [] (bytes.map fun b => [b])
  have hflat := flatten_bytewise bytes
  have hend : Ended fault r (m.run grow config p ⟨bytes.map fun b => [b], fault⟩) :=
    ref.out_eq config hp (Nat.lt_succ_self _) (cuts_bytewise bytes).ne_nil (by
      rw [Stream.bytes, hflat, reads_bytewise (Nat.lt_succ_self _)]
      exact hr)
  cases r with
  | fail e => exact ⟨e, hend, Or.inl (Feeds.error_of_fail hr)⟩
  | starved s rest => exact ⟨_, hend, Or.inr rfl⟩
  | done p' rest left => exact absurd rfl (hm.not_done_bytewise ref hp (Or.inl rfl) hr p' rest left)

end Run

/-! ## Parsers that take the heads of a grammar -/

section Takes
variable {http : HttpCrate} {P H : Type} {m : Parser P} {move : P → Bytes → Move P UInt8 ParseError} {Ready : P → Prop}
  {size : P → Nat} {start : P} {text : H → Bytes} {final : H → P} {grow : Growth} {config : Config} {bytes : Bytes}
  {fault : Option ErrorKind}

/-- From `start` the parser takes exactly the heads in `H`, written as `text`, and is in `final` behind one. -/
structure Takes (http : HttpCrate) (m : Parser P) (move : P → Bytes → Move P UInt8 ParseError) (Ready : P → Prop)
    (size : P → Nat) (start : P) (text : H → Bytes) (final : H → P) : Prop where
  refines : Refines m move Ready size
  moves : HeadMoves http move Ready
  ready : Ready start
  nonempty : ∀ h, 0 < (text h).length
  takes : ∀ h body, Drains move start (text h ++ body) (.done (final h) (breakRun body).2)
  taken : ∀ {buf p rest}, Drains move start buf (.done p rest) →
    ∃ h body, buf = text h ++ body ∧ p = final h ∧ rest = (breakRun body).2
  stepError : ∀ {p buf e}, move p buf = .fail e → e ≠ .httpError

theorem take_head {head body : Bytes} {n : Nat} (h : head.length ≤ n) :
    (head ++ body).take n = head ++ body.take (n - head.length) := by
  rw [List.take_append, List.take_of_length_le h]

/-- A head that the first read brings whole is finished by it. -/
theorem Takes.run_head (t : Takes http m move Ready size start text final) (grow : Growth) (h : H) (body : Bytes)
    (rest : List Bytes) (fault : Option ErrorKind) (hle : (text h).length ≤ firstRead config) :
    ∃ room spare left, firstRead config ≤ room ∧
      m.run grow config start ⟨(text h ++ body) :: rest, fault⟩ =
        .ok (final h, ⟨(breakRun (body.take (room - (text h).length))).2, spare⟩, ⟨left, fault⟩) ∧
      left.flatten = (text h ++ body).drop room ++ rest.flatten := by
  have hroom := firstRead_le grow config ⟨(text h ++ body) :: rest, fault⟩
  have hne : text h ++ body ≠ [] := by
    have := t.nonempty h
    exact List.ne_nil_of_length_pos (by rw [List.length_append]; omega)
  have hdrains := t.takes h (body.take (firstRoom grow config ⟨(text h ++ body) :: rest, fault⟩ - (text h).length))
  rw [← take_head (hle.trans hroom)] at hdrains
  obtain ⟨spare, left, hrun, hleft⟩ := t.refines.run_first t.ready rfl hne hdrains
  exact ⟨_, spare, left, hroom, hrun, hleft⟩

/-- Bytes that do not start with a head end with one error for all cuts. -/
theorem Takes.run_no_head (t : Takes http m move Ready size start text final) (grow : Growth) (config : Config)
    (fault : Option ErrorKind) (h : ¬∃ h body, bytes = text h ++ body) :
    ∃ e, ∀ pieces, Cuts pieces bytes → m.run grow config start ⟨pieces, fault⟩ = .error (.error e) := by
  obtain ⟨d, hd⟩ := t.refines.exists_drains t.ready bytes
  have hnot : d.isDone = false := by
    cases d with
    | done p rest =>
      obtain ⟨h', body, hbytes, -, -⟩ := t.taken hd
      exact absurd ⟨h', body, hbytes⟩ h
    | fail | go | wait => rfl
  exact ⟨verdict fault d, fun pieces hcut => t.moves.run_not_done t.refines t.ready hd hnot hcut⟩

/-- Byte by byte, nothing is accepted. -/
theorem Takes.run_bytewise (t : Takes http m move Ready size start text final) (grow : Growth) (config : Config)
    (bytes : Bytes) (fault : Option ErrorKind) :
    ∃ e, m.run grow config start ⟨bytes.map fun b => [b], fault⟩ = .error (.error e) ∧ e ≠ .httpError := by
  obtain ⟨e, hrun, he⟩ := t.moves.run_bytewise t.refines t.ready bytes
  refine ⟨e, hrun, ?_⟩
  rcases he with ⟨p, buf, hmove⟩ | rfl
  · exact t.stepError hmove
  · cases fault <;> simp

end Takes

/-! ## Errors of a step -/

section Errors
variable {http : HttpCrate} {σ α : Type} {s : σ} {buf : Bytes} {e : ParseError}

theorem tokenMove_error {ofBytes : Bytes → Option α} {empty invalid : ParseError} {add : α → σ}
    (h : tokenMove ofBytes empty invalid add s buf = .fail e) : e = empty ∨ e = invalid := by
  unfold tokenMove at h
  split at h
  · cases h
  · split at h
    · cases h
      exact Or.inl rfl
    · split at h <;> cases h
      exact Or.inr rfl

theorem fieldMove_error {n : Nat} {ofBytes : Bytes → Option α} {invalid : ParseError} {add : α → σ}
    (h : fieldMove n ofBytes invalid add s buf = .fail e) : e = invalid := by
  unfold fieldMove at h
  split at h
  · split at h <;> cases h
    rfl
  · cases h

theorem headersMove_error {add : http.HeaderName × http.HeaderValue → σ} {fin : σ}
    (h : headersMove http add fin s buf = .fail e) : e = .invalidHeaderName ∨ e = .invalidHeaderValue := by
  unfold headersMove at h
  split at h
  · cases h
  · split at h
    · cases h
    · next e' hl =>
      cases h
      unfold headerLine at hl
      split at hl
      · cases hl
      · split at hl
        · cases hl
        · split at hl
          · cases hl
            exact Or.inl rfl
          · split at hl <;> cases hl
            exact Or.inr rfl
    · cases h

/-- The errors that a step returns. -/
def ParseError.ofStep : ParseError → Bool
  | .method | .invalidMethod | .uri | .invalidUri | .version | .invalidHeaderName | .invalidHeaderValue
  | .invalidStatusCode => true
  | .httpError | .parseBufOverflow _ | .ioError _ | .eof => false

theorem Requester.ofStep_of_move {r : Requester http} (h : r.move buf = .fail e) : e.ofStep = true := by
  unfold move at h
  split at h
  · rcases tokenMove_error h with rfl | rfl <;> rfl
  · rcases tokenMove_error h with rfl | rfl <;> rfl
  · rw [fieldMove_error h]
    rfl
  · rcases headersMove_error h with rfl | rfl <;> rfl
  · cases h

theorem Responser.ofStep_of_move {r : Responser http} (h : r.move buf = .fail e) : e.ofStep = true := by
  unfold move at h
  split at h
  · rw [fieldMove_error h]
    rfl
  · rw [fieldMove_error h]
    rfl
  · split at h <;> cases h
  · rcases headersMove_error h with rfl | rfl <;> rfl
  · cases h

/-- The builder's error is not one of a step. -/
theorem ParseError.ne_httpError_of_ofStep (h : e.ofStep = true) : e ≠ .httpError := by
  rintro rfl
  cases h

end Errors

/-! ## The two parsers -/

section Parsers
variable {http : HttpCrate} {grow : Growth} {config : Config} {stream stream' : Stream} {rb : ReadBuf}

theorem RequestHead.length_pos (h : RequestHead http) : 0 < h.bytes.length := by
  have := List.length_pos_iff.mpr h.method.ne_nil
  simp only [bytes, List.length_append]
  omega

theorem ResponseHead.length_pos (h : ResponseHead http) : 0 < h.bytes.length := by
  have := h.version.length_text
  simp only [bytes, List.length_append]
  omega

theorem Requester.takes (http : HttpCrate) :
    Takes http (parser http) move Ready size (new http) RequestHead.bytes RequestHead.requester where
  refines := refines http
  moves := headMoves http
  ready := new_ready http
  nonempty := RequestHead.length_pos
  takes := drains_head
  taken := head_of_drains
  stepError h := ParseError.ne_httpError_of_ofStep (ofStep_of_move h)

theorem Responser.takes (http : HttpCrate) :
    Takes http (parser http) move Ready size (new http) ResponseHead.bytes ResponseHead.responser where
  refines := refines http
  moves := headMoves http
  ready := new_ready http
  nonempty := ResponseHead.length_pos
  takes := drains_head
  taken := head_of_drains
  stepError h := ParseError.ne_httpError_of_ofStep (ofStep_of_move h)

theorem Parser.parse_of_error {P R : Type} {m : Parser P} {finish : P → BodyReader → ParseResult R} {p : P}
    {e : Abort ParseError} (h : m.run grow config p stream = .error e) : m.parse finish grow config p stream = .error e := by
  rw [parse, h]
  rfl

theorem Parser.parse_of_ok {P R : Type} {m : Parser P} {finish : P → BodyReader → ParseResult R} {p p' : P}
    (h : m.run grow config p stream = .ok (p', rb, stream')) :
    m.parse finish grow config p stream = finish p' ⟨rb.intoBytes, stream'⟩ := by
  rw [parse, h]
  rfl

/-! ### The message of a head -/

section Parts
variable {hs : List (http.HeaderName × http.HeaderValue)}

theorem request_parts_foldl (b : http.request.Builder) : http.request.parts (hs.foldl http.request.header b) =
    (http.request.parts b).bind fun p => (http.headers.appendAll p.headers hs).map fun headers => { p with headers } := by
  induction hs generalizing b with
  | nil => cases h : http.request.parts b <;> simp [HeaderMap.appendAll, h]
  | cons h hs ih =>
    rw [List.foldl_cons, ih, http.request.parts_header]
    cases http.request.parts b with
    | none => rfl
    | some p =>
      simp only [Option.bind_some, HeaderMap.appendAll, List.foldlM_cons]
      cases http.headers.tryAppend p.headers h.1 h.2 <;> rfl

theorem response_parts_foldl (b : http.response.Builder) : http.response.parts (hs.foldl http.response.header b) =
    (http.response.parts b).bind fun p => (http.headers.appendAll p.headers hs).map fun headers => { p with headers } := by
  induction hs generalizing b with
  | nil => cases h : http.response.parts b <;> simp [HeaderMap.appendAll, h]
  | cons h hs ih =>
    rw [List.foldl_cons, ih, http.response.parts_header]
    cases http.response.parts b with
    | none => rfl
    | some p =>
      simp only [Option.bind_some, HeaderMap.appendAll, List.foldlM_cons]
      cases http.headers.tryAppend p.headers h.1 h.2 <;> rfl

/-- The request of a head, if the map takes its headers. -/
def RequestHead.parts (h : RequestHead http) : Option (RequestParts http.Method http.Uri http.headers.Map) :=
  (http.headers.appendAll http.headers.new h.lines.headers).map fun headers =>
    ⟨h.method.value, h.uri.value, h.version, headers⟩

def ResponseHead.parts (h : ResponseHead http) : Option (ResponseParts http.StatusCode http.headers.Map) :=
  (http.headers.appendAll http.headers.new h.lines.headers).map fun headers => ⟨h.status, h.version, headers⟩

theorem RequestHead.parts_builder (h : RequestHead http) :
    http.request.parts (h.lines.headers.foldl http.request.header h.line) = h.parts := by
  obtain ⟨p, hp, hnew⟩ := http.request.parts_new
  rw [request_parts_foldl, line, http.request.parts_version, http.request.parts_uri, http.request.parts_method, hp]
  simp only [Option.map_some, Option.bind_some, hnew, parts]

theorem ResponseHead.parts_builder (h : ResponseHead http) :
    http.response.parts (h.lines.headers.foldl http.response.header h.line) = h.parts := by
  obtain ⟨p, hp, hnew⟩ := http.response.parts_new
  rw [response_parts_foldl, line, http.response.parts_status, http.response.parts_version, hp]
  simp only [Option.map_some, Option.bind_some, hnew, parts]

/-- What `parse` returns behind the loops that have taken the head. -/
theorem Requester.finish_head (h : RequestHead http) (body : BodyReader) :
    finish h.requester body =
      match h.parts with
      | none => .error (.error .httpError)
      | some parts => .ok ⟨parts, body⟩ := by
  rw [← h.parts_builder]
  rfl

theorem Responser.finish_head (h : ResponseHead http) (body : BodyReader) :
    finish h.responser body =
      match h.parts with
      | none => .error (.error .httpError)
      | some parts => .ok ⟨parts, body⟩ := by
  rw [← h.parts_builder]
  rfl

end Parts

end Parsers

end Hala.Http
