import Hala.Theorems.Http.Fragmentation

/-! What `parse` returns for a written head, and what it hands over as the body.

A head that the first read brings whole comes back as it was written (`Requester.parse_written`). The body
comes back without the line breaks at its start: it is intact exactly when it does not start with one
(`body_intact_iff`). -/

namespace Hala.Http
open Io Incremental Scan

/-! ## The empty line -/

section EmptyLine
variable {http : HttpCrate} {body : Bytes}

theorem afterEmptyLine_append {pre : Bytes} (h : ∀ b ∈ pre, isNewline b = false) (t : Bytes) :
    afterEmptyLine (pre ++ t) = afterEmptyLine t := by
  induction pre with
  | nil => rfl
  | cons b pre ih =>
    have hb : b ≠ 10 := fun hb => by
      have := h b List.mem_cons_self
      rw [hb] at this
      cases this
    rw [List.cons_append, afterEmptyLine, if_neg hb]
    exact ih fun c hc => h c (List.mem_cons_of_mem _ hc)

theorem afterEmptyLine_lineEnd (e : LineEnd) (t : Bytes) :
    afterEmptyLine (e.bytes ++ t) = (lineBreak t).or (afterEmptyLine t) := by
  cases e <;> cases h : lineBreak t <;> simp [LineEnd.bytes, afterEmptyLine, h]

theorem afterEmptyLine_lines (e' : LineEnd) (ls : HeaderLines http) (e : LineEnd) (body : Bytes) :
    afterEmptyLine (e'.bytes ++ (ls.bytes ++ (e.bytes ++ body))) = some body := by
  induction ls generalizing e' with
  | nil =>
    rw [afterEmptyLine_lineEnd]
    simp [HeaderLines.bytes, lineBreak_lineEnd]
  | cons l ls ih =>
    have hbytes : HeaderLines.bytes (l :: ls) ++ (e.bytes ++ body) =
        l.1.bytes ++ (l.2.bytes ++ (HeaderLines.bytes ls ++ (e.bytes ++ body))) := by
      simp [HeaderLines.bytes]
    rw [afterEmptyLine_lineEnd, hbytes, l.1.lineBreak_bytes]
    exact (afterEmptyLine_append l.1.bytes_line _).trans (ih l.2)

/-- The header section ends at the first empty line. -/
theorem afterEmptyLine_section (lineEnd : Option LineEnd) (ls : HeaderLines http) (hls : lineEnd = none → ls ≠ [])
    (e : LineEnd) (body : Bytes) : afterEmptyLine (sectionBytes lineEnd ls e ++ body) = some body := by
  cases lineEnd with
  | some e' =>
    have := afterEmptyLine_lines e' ls e body
    simpa [sectionBytes] using this
  | none =>
    cases ls with
    | nil => exact absurd rfl (hls rfl)
    | cons l ls =>
      have hbytes : sectionBytes none (l :: ls) e ++ body = l.1.bytes ++ (l.2.bytes ++ (HeaderLines.bytes ls ++ (e.bytes ++ body))) := by
        simp [sectionBytes, HeaderLines.bytes]
      rw [hbytes, afterEmptyLine_append l.1.bytes_line]
      exact afterEmptyLine_lines l.2 ls e body

theorem RequestHead.afterEmptyLine_bytes (h : RequestHead http) (body : Bytes) :
    afterEmptyLine (h.bytes ++ body) = some body := by
  simp only [RequestHead.bytes, List.append_assoc]
  rw [afterEmptyLine_append fun b hb => isNewline_of_isSpace (h.before.property b hb),
    afterEmptyLine_append fun b hb => (h.method.token b hb).2,
    afterEmptyLine_append fun b hb => isNewline_of_isSpace (h.gap₁.property b hb),
    afterEmptyLine_append fun b hb => (h.uri.token b hb).2,
    afterEmptyLine_append fun b hb => isNewline_of_isSpace (h.gap₂.property b hb),
    afterEmptyLine_append fun b hb => (h.version.text_byte b hb).2]
  exact afterEmptyLine_section h.lineEnd h.lines h.lines_ne_nil h.emptyLine body

theorem ResponseHead.afterEmptyLine_bytes (h : ResponseHead http) (body : Bytes) :
    afterEmptyLine (h.bytes ++ body) = some body := by
  simp only [ResponseHead.bytes, List.append_assoc]
  rw [afterEmptyLine_append fun b hb => isNewline_of_isSpace (h.before.property b hb),
    afterEmptyLine_append fun b hb => (h.version.text_byte b hb).2,
    afterEmptyLine_append fun b hb => isNewline_of_isSpace (h.gap.property b hb),
    afterEmptyLine_append fun b hb => (Responser.status_byte h.status_ok b hb).2,
    afterEmptyLine_append h.reason_line]
  exact afterEmptyLine_section (some h.lineEnd) h.lines (by simp) h.emptyLine body

theorem breakRun_eq_self_iff : (breakRun body).2 = body ↔ lineBreak body = none := by
  constructor
  · intro h
    cases hb : lineBreak body with
    | none => rfl
    | some rest =>
      have h₁ := length_of_lineBreak hb
      have h₂ := length_breakRun_le rest
      rw [breakRun_of_some hb] at h
      have h₃ : (breakRun rest).2.length = body.length := congrArg List.length h
      omega
  · intro h
    rw [breakRun_of_none h]

end EmptyLine

/-! ## Written heads -/

/-- A request head that the first read brings whole is parsed into the method, the URI and the version it was written
    with, and the map that its headers are appended to in their order; the `http` crate may not take them all. -/
theorem Requester.parse_written (http : HttpCrate) (grow : Growth) (config : Config) (hd : RequestHead http) (body : Bytes)
    (rest : List Bytes) (fault : Option ErrorKind) (hread : hd.bytes.length ≤ firstRead config) :
    ∃ reader, parse http grow config ⟨(hd.bytes ++ body) :: rest, fault⟩ =
      match http.headers.appendAll http.headers.new hd.lines.headers with
      | none => .error (.error .httpError)
      | some headers => .ok ⟨⟨hd.method.value, hd.uri.value, hd.version, headers⟩, reader⟩ := by
  obtain ⟨room, spare, left, -, hrun, -⟩ := (takes http).run_head grow hd body rest fault hread
  let reader : BodyReader := ⟨(breakRun (body.take (room - hd.bytes.length))).2, ⟨left, fault⟩⟩
  have hparse : parse http grow config ⟨(hd.bytes ++ body) :: rest, fault⟩ = finish hd.requester reader := Parser.parse_of_ok hrun
  refine ⟨reader, hparse.trans ?_⟩
  rw [finish_head, RequestHead.parts]
  cases http.headers.appendAll http.headers.new hd.lines.headers <;> rfl

/-- `Host: a` with a space and a TAB around the colon, ended by a line feed. -/
def hostLine : HeaderText asciiCrate where
  before := ⟨[], by simp⟩
  nameText := [72, 111, 115, 116]
  afterName := ⟨[32], by simp [isSpace]⟩
  beforeValue := ⟨[9], by simp [isSpace]⟩
  valueText := [97]
  afterValue := ⟨[], by simp⟩
  name := [104, 111, 115, 116]
  value := [97]
  name_ok := rfl
  value_ok := rfl
  value_line := by simp [isNewline]
  value_first b t h := by
    cases h
    rfl
  value_last t b h := by
    obtain ⟨-, h⟩ := List.append_inj' (show [] ++ [97] = t ++ [b] from h) rfl
    cases h
    rfl

/-- `Accept:b`. -/
def acceptLine : HeaderText asciiCrate where
  before := ⟨[], by simp⟩
  nameText := [65, 99, 99, 101, 112, 116]
  afterName := ⟨[], by simp⟩
  beforeValue := ⟨[], by simp⟩
  valueText := [98]
  afterValue := ⟨[], by simp⟩
  name := [97, 99, 99, 101, 112, 116]
  value := [98]
  name_ok := rfl
  value_ok := rfl
  value_line := by simp [isNewline]
  value_first b t h := by
    cases h
    rfl
  value_last t b h := by
    obtain ⟨-, h⟩ := List.append_inj' (show [] ++ [98] = t ++ [b] from h) rfl
    cases h
    rfl

/-- A request for `/` with the first header on both sides of the second. -/
def hostHead : RequestHead asciiCrate where
  before := ⟨[], by simp⟩
  method := ⟨[71, 69, 84], [71, 69, 84], by simp, by simp [isSpace, isNewline], rfl⟩
  gap₁ := ⟨[32], by simp [isSpace]⟩
  uri := ⟨[47], [47], by simp, by simp [isSpace, isNewline], rfl⟩
  gap₂ := ⟨[32, 9], by simp [isSpace]⟩
  version := .http10
  lineEnd := some .crlf
  lines := [(hostLine, .lf), (acceptLine, .crlf), (hostLine, .crlf)]
  emptyLine := .crlf
  gap₁_ne_nil := by decide
  gap₂_ne_nil := by decide
  lines_ne_nil := by simp

/-- The map has the two values of `host` together. -/
theorem parse_written_hostHead :
    ∃ reader, Requester.parse asciiCrate .least {} ⟨[hostHead.bytes ++ [97, 98]], none⟩ =
      .ok ⟨⟨[71, 69, 84], [47], .http10,
        [([104, 111, 115, 116], [[97], [97]]), ([97, 99, 99, 101, 112, 116], [[98]])]⟩, reader⟩ :=
  Requester.parse_written asciiCrate .least {} hostHead [97, 98] [] none (by decide)

/-- A response head that the first read brings whole is parsed into the version and the status it was written with, and the
    map that its headers are appended to in their order. Its reason has the spaces before it and may be absent. -/
theorem Responser.parse_of_written (http : HttpCrate) (grow : Growth) (config : Config) (hd : ResponseHead http) (body : Bytes)
    (rest : List Bytes) (fault : Option ErrorKind) (hread : hd.bytes.length ≤ firstRead config) :
    ∃ reader, parse http grow config ⟨(hd.bytes ++ body) :: rest, fault⟩ =
      match http.headers.appendAll http.headers.new hd.lines.headers with
      | none => .error (.error .httpError)
      | some headers => .ok ⟨⟨hd.status, hd.version, headers⟩, reader⟩ := by
  obtain ⟨room, spare, left, -, hrun, -⟩ := (takes http).run_head grow hd body rest fault hread
  let reader : BodyReader := ⟨(breakRun (body.take (room - hd.bytes.length))).2, ⟨left, fault⟩⟩
  have hparse : parse http grow config ⟨(hd.bytes ++ body) :: rest, fault⟩ = finish hd.responser reader := Parser.parse_of_ok hrun
  refine ⟨reader, hparse.trans ?_⟩
  rw [finish_head, ResponseHead.parts]
  cases http.headers.appendAll http.headers.new hd.lines.headers <;> rfl

/-- A response 404 with NUL and a byte that is not UTF-8 as its reason, and the header of `hostLine`. -/
def notFoundHead : ResponseHead asciiCrate where
  before := ⟨[], by simp⟩
  version := .http11
  gap := ⟨[32, 9], by simp [isSpace]⟩
  statusText := [52, 48, 52]
  status := (404 : Nat)
  reason := [9, 0, 255]
  lineEnd := .lf
  lines := [(hostLine, .crlf)]
  emptyLine := .lf
  status_length := rfl
  status_ok := rfl
  reason_line := by simp [isNewline]

theorem parse_written_notFoundHead :
    ∃ reader, Responser.parse asciiCrate .least {} ⟨[notFoundHead.bytes ++ [97, 98]], none⟩ =
      .ok ⟨⟨(404 : Nat), .http11, [([104, 111, 115, 116], [[97]])]⟩, reader⟩ :=
  Responser.parse_of_written asciiCrate .least {} notFoundHead [97, 98] [] none (by decide)

/-! ## The body -/

section Body
variable {http : HttpCrate} {P H R : Type} {m : Parser P} {move : P → Bytes → Move P UInt8 ParseError} {Ready : P → Prop}
  {size : P → Nat} {start : P} {text : H → Bytes} {final : H → P} {finish : P → BodyReader → ParseResult R}
  {bodyOf : R → BodyReader} {grow : Growth} {config : Config} {input : Bytes} {fault : Option ErrorKind} {p : P} {rb : ReadBuf}
  {stream : Stream}

theorem Refines.run_empty (ref : Refines m move Ready size) (hp : Ready p) :
    m.run grow config p ⟨[[]], fault⟩ = .error (.error .eof) := by
  have hspare : ((ReadBuf.withCapacity config.parsingHeadersMaxBuf).chunkMut (grow.room 0)).spare ≠ 0 := by
    have := grow.le_room 0
    unfold ReadBuf.chunkMut ReadBuf.withCapacity
    split
    · dsimp only
      omega
    · assumption
  unfold Parser.run
  rw [Parser.out, if_neg (by simp [ref.notFinished hp])]
  simp [hspare, Stream.read, Stream.bytes]

/-- The loops on an input that one read brings: it starts with a head, and the buffer keeps what follows it
    without the line breaks at its start. -/
theorem Takes.run_one_read (t : Takes http m move Ready size start text final) (hread : input.length ≤ firstRead config)
    (h : m.run grow config start ⟨[input], fault⟩ = .ok (p, rb, stream)) :
    ∃ hd body, input = text hd ++ body ∧ p = final hd ∧ rb.bytes = (breakRun body).2 ∧ stream.bytes = [] := by
  by_cases hex : ∃ hd body, input = text hd ++ body
  · obtain ⟨hd, body, rfl⟩ := hex
    have hall := hread
    rw [List.length_append] at hread
    obtain ⟨room, spare, left, hroom, hrun, hleft⟩ :=
      t.run_head grow hd body [] fault (Nat.le_trans (Nat.le_add_right _ _) hread)
    rw [hrun] at h
    cases h
    refine ⟨hd, body, rfl, rfl, ?_, ?_⟩
    · dsimp only
      rw [List.take_of_length_le (by omega)]
    · rw [Stream.bytes, hleft, List.drop_of_length_le (hall.trans hroom)]
      rfl
  · -- Without a head the run ends with an error, unless there was nothing to read.
    exfalso
    by_cases hnil : input = []
    · subst hnil
      rw [t.refines.run_empty t.ready] at h
      cases h
    · obtain ⟨e, he⟩ := t.run_no_head grow config fault hex
      rw [he [input] (cuts_one hnil)] at h
      cases h

/-- The head of an accepted input that one read brought, and what is handed over as its body. -/
theorem Takes.head_of_parse (t : Takes http m move Ready size start text final)
    (hbody : ∀ p body r, finish p body = .ok r → bodyOf r = body) {r : R} (hread : input.length ≤ firstRead config)
    (h : m.parse finish grow config start ⟨[input], fault⟩ = .ok r) :
    ∃ hd body, input = text hd ++ body ∧ (bodyOf r).bytes = (breakRun body).2 := by
  cases hrun : m.run grow config start ⟨[input], fault⟩ with
  | error e =>
    rw [Parser.parse_of_error hrun] at h
    cases h
  | ok res =>
    obtain ⟨p, rb, stream⟩ := res
    obtain ⟨hd, body, rfl, -, hrb, hstream⟩ := t.run_one_read hread hrun
    rw [Parser.parse_of_ok hrun] at h
    refine ⟨hd, body, rfl, ?_⟩
    rw [hbody _ _ _ h, BodyReader.bytes, ReadBuf.intoBytes, hrb, hstream, List.append_nil]

end Body

theorem Requester.body_of_finish {http : HttpCrate} (r : Requester http) (body : BodyReader) (message : Request http)
    (h : r.finish body = .ok message) : message.body = body := by
  unfold finish at h
  split at h
  · cases h
  · split at h <;> cases h
    rfl

theorem Responser.body_of_finish {http : HttpCrate} (r : Responser http) (body : BodyReader) (message : Response http)
    (h : r.finish body = .ok message) : message.body = body := by
  unfold finish at h
  split at h
  · cases h
  · split at h <;> cases h
    rfl

/-- The body of an input that one read brought and that is accepted is what follows the first empty line,
    exactly when that does not start with a line break. -/
theorem body_intact_iff (http : HttpCrate) (grow : Growth) (config : Config) (input : Bytes) (fault : Option ErrorKind)
    (hread : input.length ≤ firstRead config) :
    (∀ r, Requester.parse http grow config ⟨[input], fault⟩ = .ok r →
      ∃ body, afterEmptyLine input = some body ∧ (r.body.bytes = body ↔ lineBreak body = none)) ∧
    ∀ r, Responser.parse http grow config ⟨[input], fault⟩ = .ok r →
      ∃ body, afterEmptyLine input = some body ∧ (r.body.bytes = body ↔ lineBreak body = none) := by
  refine ⟨fun r h => ?_, fun r h => ?_⟩
  · obtain ⟨hd, body, rfl, heq⟩ := (Requester.takes http).head_of_parse Requester.body_of_finish hread h
    exact ⟨body, hd.afterEmptyLine_bytes body, by rw [heq]; exact breakRun_eq_self_iff⟩
  · obtain ⟨hd, body, rfl, heq⟩ := (Responser.takes http).head_of_parse Responser.body_of_finish hread h
    exact ⟨body, hd.afterEmptyLine_bytes body, by rw [heq]; exact breakRun_eq_self_iff⟩

/-- A body that starts with CRLF loses it. -/
theorem body_loses_lineBreak :
    afterEmptyLine (getRoot ++ [13, 10, 120]) = some [13, 10, 120] ∧
      (Requester.observe asciiCrate .least {} ⟨[getRoot ++ [13, 10, 120]], none⟩) = .ok ([71, 69, 84], [47], .http11, [], [120]) :=
  ⟨rfl, rfl⟩

/-- The body `x` comes back. -/
theorem body_intact_iff_getRoot :
    (getRoot ++ [120]).length ≤ firstRead {} ∧
      ∀ r, Requester.parse asciiCrate .least {} ⟨[getRoot ++ [120]], none⟩ = .ok r → r.body.bytes = [120] := by
  refine ⟨by decide, fun r h => ?_⟩
  obtain ⟨body, hbody, hiff⟩ := (body_intact_iff asciiCrate .least {} (getRoot ++ [120]) none (by decide)).1 r h
  cases hbody
  exact hiff.mpr rfl

end Hala.Http
