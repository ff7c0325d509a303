import Hala.Http.Scanner

/-! The parsers take the steps of `Requester.move` and `Responser.move`: no slice or split is out of bounds,
the builder is always there, and no loop uses up its budget. -/

namespace Hala.Http
open Io Incremental Scan

/-! ## Line breaks -/

section Breaks
variable {buf rest : Bytes}

theorem lineBreak_lf (t : Bytes) : lineBreak (10 :: t) = some t := by
  cases t <;> simp [lineBreak]

theorem lineBreak_crlf (t : Bytes) : lineBreak (13 :: 10 :: t) = some t := by
  simp [lineBreak]

theorem lineBreak_lineEnd (e : LineEnd) (t : Bytes) : lineBreak (e.bytes ++ t) = some t := by
  cases e
  · exact lineBreak_crlf t
  · exact lineBreak_lf t

theorem lineBreak_eq_some_iff : lineBreak buf = some rest ↔ ∃ e : LineEnd, buf = e.bytes ++ rest := by
  constructor
  · intro h
    match buf with
    | [] => cases h
    | [b] =>
      simp only [lineBreak, Option.ite_none_right_eq_some, Option.some.injEq] at h
      exact ⟨.lf, by simp [LineEnd.bytes, h.1, ← h.2]⟩
    | b :: c :: t =>
      simp only [lineBreak] at h
      split at h
      · next hb => exact ⟨.lf, by simp [LineEnd.bytes, hb, ← Option.some.inj h]⟩
      · split at h
        · next hbc => exact ⟨.crlf, by simp [LineEnd.bytes, hbc.1, hbc.2, ← Option.some.inj h]⟩
        · cases h
  · rintro ⟨e, rfl⟩
    exact lineBreak_lineEnd e rest

/-- Without a line feed in its first two bytes, a buffer has no line break at its start. -/
theorem lineBreak_cons_of_ne {b : UInt8} {t : Bytes} (hb : isNewline b = false) : lineBreak (b :: t) = none := by
  simp only [isNewline, Bool.or_eq_false_iff, beq_eq_false_iff_ne] at hb
  cases t <;> simp [lineBreak, hb.1, hb.2]

theorem breakRun_of_none (h : lineBreak buf = none) : breakRun buf = (0, buf) := by
  rw [breakRun]
  split
  · rfl
  · next hs => rw [h] at hs; cases hs

theorem breakRun_of_some (h : lineBreak buf = some rest) : breakRun buf = ((breakRun rest).1 + 1, (breakRun rest).2) := by
  rw [breakRun]
  split
  · next hs => rw [h] at hs; cases hs
  · next hs =>
    rw [h] at hs
    cases hs
    rfl

theorem breakRun_nil : breakRun [] = (0, []) := breakRun_of_none rfl

theorem breakRun_lineEnd (e : LineEnd) (t : Bytes) : breakRun (e.bytes ++ t) = ((breakRun t).1 + 1, (breakRun t).2) :=
  breakRun_of_some (lineBreak_lineEnd e t)

/-- What follows the line breaks starts with none. -/
theorem lineBreak_breakRun (buf : Bytes) : lineBreak (breakRun buf).2 = none := by
  induction hn : buf.length using Nat.strongRecOn generalizing buf with
  | _ n ih =>
    cases h : lineBreak buf with
    | none => rw [breakRun_of_none h]; exact h
    | some rest =>
      rw [breakRun_of_some h]
      exact ih _ (hn ▸ length_of_lineBreak h) rest rfl

theorem breakRun_suffix (buf : Bytes) : ∃ pre, buf = pre ++ (breakRun buf).2 := by
  induction hn : buf.length using Nat.strongRecOn generalizing buf with
  | _ n ih =>
    cases h : lineBreak buf with
    | none => exact ⟨[], by rw [breakRun_of_none h]; rfl⟩
    | some rest =>
      obtain ⟨e, rfl⟩ := lineBreak_eq_some_iff.mp h
      obtain ⟨pre, hpre⟩ := ih _ (hn ▸ length_of_lineBreak h) rest rfl
      exact ⟨e.bytes ++ pre, by rw [breakRun_of_some h, List.append_assoc, ← hpre]⟩

theorem length_breakRun_le (buf : Bytes) : (breakRun buf).2.length ≤ buf.length := by
  obtain ⟨pre, hpre⟩ := breakRun_suffix buf
  rw [congrArg List.length hpre]
  simp

theorem drop_breakRun (buf : Bytes) : buf.drop (buf.length - (breakRun buf).2.length) = (breakRun buf).2 := by
  obtain ⟨pre, hpre⟩ := breakRun_suffix buf
  generalize (breakRun buf).2 = rest at hpre
  subst hpre
  simp

end Breaks

/-! ## Skipping line breaks -/

section SkipNewlines

/-- The result of the loop after `n` line breaks of together `offset` bytes. -/
def skipped (n offset : Nat) : SkipNewLine := if 2 ≤ n then .brk offset else if 1 ≤ n then .one offset else .none

theorem _skipNewline_crlf (t : Bytes) : _skipNewline (13 :: 10 :: t) = .one 2 := by
  simp [_skipNewline]

theorem _skipNewline_lflf (t : Bytes) : _skipNewline (10 :: 10 :: t) = .brk 2 := by
  simp [_skipNewline]

theorem _skipNewline_lf {t : Bytes} (h : ∀ u, t ≠ 10 :: u) : _skipNewline (10 :: t) = .one 1 := by
  cases t with
  | nil => simp [_skipNewline]
  | cons c u =>
    have hc : c ≠ 10 := fun hc => h u (hc ▸ rfl)
    simp [_skipNewline, hc]

theorem _skipNewline_of_none {buf : Bytes} (h : lineBreak buf = none) :
    _skipNewline buf = .none ∨ _skipNewline buf = .incomplete := by
  cases buf with
  | nil => exact Or.inl (by simp [_skipNewline])
  | cons b t =>
    have hb : b ≠ 10 := by
      rintro rfl
      rw [lineBreak_lf] at h
      cases h
    have hbc : ∀ u, ¬(b = 13 ∧ t = 10 :: u) := by
      rintro u ⟨rfl, rfl⟩
      rw [lineBreak_crlf] at h
      cases h
    have hcr : ¬(1 < (b :: t).length ∧ (b :: t).take 2 = [13, 10]) := by
      rintro ⟨-, htake⟩
      cases t with
      | nil => simp at htake
      | cons c u =>
        simp only [List.take_succ_cons, List.take_zero, List.cons.injEq, and_true] at htake
        exact hbc u ⟨htake.1, by rw [htake.2]⟩
    have hlf : ¬(1 < (b :: t).length ∧ (b :: t).take 2 = [10, 10]) := by
      rintro ⟨-, htake⟩
      cases t with
      | nil => simp at htake
      | cons c u => exact hb (List.cons.inj htake).1
    by_cases h13 : b = 13
    · exact Or.inr (by simp only [_skipNewline, hcr, hlf, if_false, hb]; simp [h13])
    · exact Or.inl (by simp only [_skipNewline, hcr, hlf, if_false, hb]; simp [h13])

/-- The loop counts the line breaks: `c` were seen before `buf`, in `offset` bytes. -/
theorem _skipNewlinesLoop_eq {fuel : Nat} {buf : Bytes} (offset c : Nat) (hf : buf.length < fuel) (hc : 0 < offset ↔ 1 ≤ c) :
    _skipNewlinesLoop fuel buf offset (decide (2 ≤ c)) =
      skipped (c + (breakRun buf).1) (offset + (buf.length - (breakRun buf).2.length)) := by
  induction fuel generalizing buf offset c with
  | zero => omega
  | succ fuel ih =>
    cases h : lineBreak buf with
    | none =>
      rw [breakRun_of_none h]
      have stop : _skipNewlinesLoop (fuel + 1) buf offset (decide (2 ≤ c)) =
          if (decide (2 ≤ c)) = true then .brk offset else if 0 < offset then .one offset else .none := by
        rcases _skipNewline_of_none h with hs | hs <;> simp only [_skipNewlinesLoop, hs]
      rw [stop]
      simp only [skipped, decide_eq_true_eq, Nat.add_zero, Nat.sub_self, hc]
    | some rest =>
      obtain ⟨e, rfl⟩ := lineBreak_eq_some_iff.mp h
      rw [breakRun_of_some h]
      have hle := length_breakRun_le rest
      -- A second line break makes it a break.
      have hb : (decide (2 ≤ c) || decide (0 < offset)) = decide (2 ≤ c + 1) := by
        simp only [hc]
        grind
      cases e with
      | crlf =>
        simp only [LineEnd.bytes, List.cons_append, List.nil_append, List.length_cons] at hf ⊢
        rw [_skipNewlinesLoop, _skipNewline_crlf]
        simp only [List.drop_succ_cons, List.drop_zero, hb]
        rw [ih (offset + 2) (c + 1) (by omega) (by omega)]
        congr 1 <;> omega
      | lf =>
        simp only [LineEnd.bytes, List.cons_append, List.nil_append, List.length_cons] at hf ⊢
        by_cases hlf : ∃ u, rest = 10 :: u
        · obtain ⟨u, rfl⟩ := hlf
          rw [_skipNewlinesLoop, _skipNewline_lflf, breakRun_of_some (lineBreak_lf u)]
          have hle' := length_breakRun_le u
          simp only [List.length_cons] at hf hle ⊢
          have hb2 : true = decide (2 ≤ c + 2) := by simp
          simp only [List.drop_succ_cons, List.drop_zero]
          rw [hb2, ih (offset + 2) (c + 2) (by omega) (by omega)]
          congr 1 <;> omega
        · rw [_skipNewlinesLoop, _skipNewline_lf fun u hu => hlf ⟨u, hu⟩]
          simp only [List.drop_succ_cons, List.drop_zero, hb]
          rw [ih (offset + 1) (c + 1) (by omega) (by omega)]
          congr 1 <;> omega

theorem _skipNewlines_eq (buf : Bytes) :
    _skipNewlines buf = skipped (breakRun buf).1 (buf.length - (breakRun buf).2.length) := by
  have h : _skipNewlinesLoop (buf.length + 1) buf 0 (decide (2 ≤ 0)) = _ :=
    _skipNewlinesLoop_eq 0 0 (by omega) (by omega)
  simpa [_skipNewlines] using h

end SkipNewlines

/-! ## Buffer operations -/

section Buffer
variable {ε : Type} {spare : Nat}

theorem splitTo_of_le {buf : Bytes} {n : Nat} (h : n ≤ buf.length) :
    (⟨buf, spare⟩ : ReadBuf).splitTo (ε := ε) n = .ok (buf.take n, ⟨buf.drop n, spare⟩) := by
  simp [ReadBuf.splitTo, h]

theorem splitTo_append (pre post : Bytes) {n : Nat} (h : pre.length = n) :
    (⟨pre ++ post, spare⟩ : ReadBuf).splitTo (ε := ε) n = .ok (pre, ⟨post, spare⟩) := by
  rw [splitTo_of_le (by simp [← h]), ← h]
  simp

theorem sliceFrom_append (pre post : Bytes) {n : Nat} (h : pre.length = n) :
    sliceFrom (ε := ε) (pre ++ post) n = .ok post := by
  simp [sliceFrom, ← h]

/-- The bytes that `skip_spaces` passes over, and those it stops at. -/
theorem skipSpaces_split (buf : Bytes) :
    ∃ pre, buf = pre ++ buf.dropWhile isSpace ∧ pre.length = skipSpaces buf := by
  refine ⟨buf.takeWhile isSpace, List.takeWhile_append_dropWhile.symm, ?_⟩
  rw [List.takeWhile_eq_take_findIdx_not, List.length_take]
  exact Nat.min_eq_left List.findIdx_le_length

theorem skipSpaces_splitTo (buf : Bytes) :
    (⟨buf, spare⟩ : ReadBuf).splitTo (ε := ε) (skipSpaces buf) =
      .ok (buf.takeWhile isSpace, ⟨buf.dropWhile isSpace, spare⟩) := by
  have h : (buf.takeWhile isSpace).length = skipSpaces buf := by
    rw [List.takeWhile_eq_take_findIdx_not, List.length_take]
    exact Nat.min_eq_left List.findIdx_le_length
  calc (⟨buf, spare⟩ : ReadBuf).splitTo (ε := ε) (skipSpaces buf)
      = (⟨buf.takeWhile isSpace ++ buf.dropWhile isSpace, spare⟩ : ReadBuf).splitTo (skipSpaces buf) := by
        rw [List.takeWhile_append_dropWhile]
    _ = .ok (buf.takeWhile isSpace, ⟨buf.dropWhile isSpace, spare⟩) := splitTo_append _ _ h

end Buffer

section Steps
variable {http : HttpCrate} {spare : Nat}

theorem parseVersion_eq (buf : Bytes) :
    parseVersion buf =
      if 8 ≤ buf.length then
        match Version.ofBytes (buf.take 8) with
        | none => .error (.error .version)
        | some v => .ok (some v)
      else .ok none := by
  unfold parseVersion Version.ofBytes
  simp only [List.find?_cons, List.find?_nil]
  split
  · split
    · next h => simp [h]
    · next h =>
      simp only [h, decide_false]
      split
      · next h => simp [h]
      · next h =>
        simp only [h, decide_false]
        split
        · next h => simp [h]
        · next h =>
          simp only [h, decide_false]
          split
          · next h => simp [h]
          · next h =>
            simp only [h, decide_false]
            split <;> simp_all
  · rfl

theorem skipNewlines_eq (buf : Bytes) :
    skipNewlines ⟨buf, spare⟩ =
      .ok (skipped (breakRun buf).1 (buf.length - (breakRun buf).2.length), ⟨(breakRun buf).2, spare⟩) := by
  have hle := length_breakRun_le buf
  have split : (⟨buf, spare⟩ : ReadBuf).splitTo (ε := ParseError) (buf.length - (breakRun buf).2.length) =
      .ok (buf.take (buf.length - (breakRun buf).2.length), ⟨(breakRun buf).2, spare⟩) := by
    rw [splitTo_of_le (by omega), drop_breakRun]
  unfold skipNewlines skipped
  simp only [ReadBuf.chunk, _skipNewlines_eq, skipped]
  by_cases h2 : 2 ≤ (breakRun buf).1
  · simp only [h2, if_true, split]
    rfl
  · by_cases h1 : 1 ≤ (breakRun buf).1
    · simp only [h2, h1, if_true, if_false, split]
      rfl
    · simp only [h2, h1, if_false]
      have hnone : lineBreak buf = none := by
        cases h : lineBreak buf with
        | none => rfl
        | some rest =>
          rw [breakRun_of_some h] at h1
          simp at h1
      rw [breakRun_of_none hnone]
      rfl

theorem parseHeader_eq (buf : Bytes) :
    parseHeader http ⟨buf, spare⟩ =
      match headerLine http buf with
      | none => .ok (none, ⟨buf, spare⟩)
      | some (.error e) => .error (.error e)
      | some (.ok (h, rest)) => .ok (some h, ⟨rest, spare⟩) := by
  obtain ⟨sp, hbuf, hsp⟩ := skipSpaces_split buf
  unfold parseHeader headerLine
  generalize buf.dropWhile isSpace = line at hbuf
  subst hbuf
  simp only [ReadBuf.chunk, ← hsp, sliceFrom_append sp line rfl, parseHeaderName, findIdx?_eq_cut]
  cases hname : cut (· == 58) line with
  | none => simp [hname, bind, Except.bind, pure, Except.pure]
  | some cutName =>
    obtain ⟨rawName, rest⟩ := cutName
    obtain ⟨rfl, -, c, rest, rfl, -⟩ := cut_eq_some_iff.mp hname
    obtain ⟨sp', hrest, hsp'⟩ := skipSpaces_split rest
    generalize hline : rest.dropWhile isSpace = line' at hrest
    have hslice₁ : sliceFrom (ε := ParseError) (sp ++ (rawName ++ c :: rest)) (sp.length + rawName.length + 1) = .ok rest := by
      have := sliceFrom_append (ε := ParseError) (sp ++ (rawName ++ [c])) rest rfl
      simpa [Nat.add_assoc] using this
    have hslice₂ : sliceFrom (ε := ParseError) (sp ++ (rawName ++ c :: rest)) (sp.length + rawName.length + 1 + sp'.length) =
        .ok line' := by
      have := sliceFrom_append (ε := ParseError) (sp ++ (rawName ++ c :: sp')) line' rfl
      rw [hrest]
      simpa [Nat.add_assoc, Nat.add_comm, Nat.add_left_comm] using this
    simp only [hname, Option.map_some, hslice₁, ← hsp', hslice₂, parseHeaderValue, findIdx?_eq_cut, List.tail_cons, hline,
      bind, Except.bind]
    cases hvalue : cut isNewline line' with
    | none => rfl
    | some cutValue =>
      obtain ⟨rawValue, rest'⟩ := cutValue
      obtain ⟨rfl, -, -⟩ := cut_eq_some_iff.mp hvalue
      have hsplit : (⟨c :: rest, spare⟩ : ReadBuf).splitTo (ε := ParseError) (sp'.length + 1) =
          .ok (c :: sp', ⟨rawValue ++ rest', spare⟩) := by
        rw [hrest, ← List.cons_append]
        exact splitTo_append (c :: sp') (rawValue ++ rest') rfl
      simp only [Option.map_some, splitTo_append sp _ rfl, splitTo_append rawName _ rfl, hsplit,
        splitTo_append rawValue _ rfl]
      cases http.headerNameFromBytes (trimSuffixSpaces rawName) with
      | none => rfl
      | some name => cases http.headerValueFromMaybeShared (trimSuffixSpaces rawValue) <;> rfl

/-- What a step of the inner loop returns for a move on the bytes. -/
def outcome {σ : Type} (spare : Nat) : Move σ UInt8 ParseError → ParseResult (Bool × σ × ReadBuf)
  | .fail e => .error (.error e)
  | .go s rest => .ok (true, s, ⟨rest, spare⟩)
  | .wait s rest => .ok (false, s, ⟨rest, spare⟩)
  | .done s rest => .ok (false, s, ⟨rest, spare⟩)

section Take
variable {P α : Type} {p fin : P} {spare : Nat}

theorem takeToken_eq {ofBytes : Bytes → Option α} {empty invalid : ParseError} {set : α → ParseResult P} {add : α → P}
    (hset : ∀ a, set a = .ok (add a)) (buf : Bytes) :
    takeToken ofBytes empty invalid set p ⟨buf, spare⟩ = outcome spare (tokenMove ofBytes empty invalid add p buf) := by
  simp only [takeToken, ReadBuf.chunk, skipSpaces_splitTo, parseToken, findIdx?_eq_cut, tokenMove, bind, Except.bind]
  cases hcut : cut (fun c => isSpace c || isNewline c) (buf.dropWhile isSpace) with
  | none => rfl
  | some c =>
    obtain ⟨token, rest⟩ := c
    obtain ⟨hline, -, -⟩ := cut_eq_some_iff.mp hcut
    by_cases hnil : token = []
    · subst hnil
      rfl
    · have hlen : token.length ≠ 0 := by simpa using hnil
      simp only [Option.map_some, hlen, if_false, hnil, hline, splitTo_append token rest rfl, pure, Except.pure]
      cases ofBytes token with
      | none => rfl
      | some a => simp only [hset, outcome]

theorem takeVersion_eq {set : Version → ParseResult P} {add : Version → P} (hset : ∀ v, set v = .ok (add v)) (buf : Bytes) :
    takeVersion set p ⟨buf, spare⟩ = outcome spare (fieldMove 8 Version.ofBytes .version add p buf) := by
  simp only [takeVersion, ReadBuf.chunk, skipSpaces_splitTo, parseVersion_eq, fieldMove, bind, Except.bind]
  by_cases hlen : 8 ≤ (buf.dropWhile isSpace).length
  · simp only [hlen, if_true]
    cases Version.ofBytes ((buf.dropWhile isSpace).take 8) with
    | none => rfl
    | some v => simp only [splitTo_of_le hlen, hset, pure, Except.pure, outcome]
  · simp only [hlen, if_false]
    rfl

theorem takeHeader_eq {set : http.HeaderName × http.HeaderValue → ParseResult P}
    {add : http.HeaderName × http.HeaderValue → P} (hset : ∀ h, set h = .ok (add h)) (buf : Bytes) :
    takeHeader http set fin p ⟨buf, spare⟩ = outcome spare (headersMove http add fin p buf) := by
  simp only [takeHeader, skipNewlines_eq, headersMove, skipped, bind, Except.bind]
  by_cases h2 : 2 ≤ (breakRun buf).1
  · simp only [h2, if_true]
    rfl
  · -- One line break or none: both go on to the header.
    by_cases h1 : 1 ≤ (breakRun buf).1
    all_goals
      simp only [h2, h1, if_true, if_false, parseHeader_eq]
      cases headerLine http (breakRun buf).2 with
      | none => rfl
      | some r =>
        cases r with
        | error e => rfl
        | ok hr =>
          simp only [hset]
          rfl

end Take

/-- The parser steps as the moves say, from states in which it is ready: not finished, with its builder. -/
structure Refines {P : Type} (m : Parser P) (move : P → Bytes → Move P UInt8 ParseError) (Ready : P → Prop)
    (size : P → Nat) : Prop where
  step : ∀ {p buf spare}, Ready p → m.step p ⟨buf, spare⟩ = outcome spare (move p buf)
  notFinished : ∀ {p}, Ready p → m.finished p = false
  go : ∀ {p buf p' rest}, Ready p → buf ≠ [] → move p buf = .go p' rest →
    Ready p' ∧ size p' + rest.length < size p + buf.length
  wait : ∀ {p buf p' rest}, Ready p → move p buf = .wait p' rest → Ready p'
  done : ∀ {p buf p' rest}, Ready p → move p buf = .done p' rest → m.finished p' = true
  size_le : ∀ p, size p ≤ 5

end Steps

/-! ## The read loop -/

section Loops
variable {P : Type} {m : Parser P} {move : P → Bytes → Move P UInt8 ParseError} {Ready : P → Prop} {size : P → Nat}
  {grow : Growth}

/-- What the inner loop leaves after a drain. -/
def drained (spare : Nat) : Move P UInt8 ParseError → ParseResult (P × ReadBuf)
  | .fail e => .error (.error e)
  | .go s rest => .ok (s, ⟨rest, spare⟩)
  | .wait s rest => .ok (s, ⟨rest, spare⟩)
  | .done s rest => .ok (s, ⟨rest, spare⟩)

theorem Refines.inner_eq (ref : Refines m move Ready size) {p : P} {buf : Bytes} {d : Move P UInt8 ParseError}
    (hp : Ready p) (h : Drains move p buf d) {fuel spare : Nat} (hf : size p + buf.length < fuel) :
    m.inner fuel p ⟨buf, spare⟩ = drained spare d := by
  induction h generalizing fuel with
  | empty p =>
    obtain ⟨fuel, rfl⟩ := Nat.exists_eq_add_one_of_ne_zero (Nat.ne_zero_of_lt hf)
    simp [Parser.inner, ReadBuf.chunk, drained]
  | @stop p buf hne hgo =>
    obtain ⟨fuel, rfl⟩ := Nat.exists_eq_add_one_of_ne_zero (Nat.ne_zero_of_lt hf)
    have hpos : 0 < (⟨buf, spare⟩ : ReadBuf).chunk.length := List.length_pos_iff.mpr hne
    rw [Parser.inner, if_pos hpos, ref.notFinished hp, ref.step hp]
    cases hs : move p buf with
    | go p' rest => rw [hs] at hgo; cases hgo
    | fail e => rfl
    | wait p' rest => rfl
    | done p' rest => rfl
  | @go p p' buf rest d hne hs hd ih =>
    obtain ⟨fuel, rfl⟩ := Nat.exists_eq_add_one_of_ne_zero (Nat.ne_zero_of_lt hf)
    obtain ⟨hp', hlt⟩ := ref.go hp hne hs
    have hpos : 0 < (⟨buf, spare⟩ : ReadBuf).chunk.length := List.length_pos_iff.mpr hne
    rw [Parser.inner, if_pos hpos, ref.notFinished hp, ref.step hp, hs]
    exact ih hp' (by omega)

theorem Refines.ready_of_drains (ref : Refines m move Ready size) {p p' : P} {buf rest : Bytes} (hp : Ready p)
    (h : Drains move p buf (.wait p' rest)) : Ready p' := by
  generalize hd : Move.wait p' rest = d at h
  induction h with
  | empty => cases hd; exact hp
  | stop => exact ref.wait hp hd.symm
  | go hne hs _ ih => exact ih (ref.go hp hne hs).1 hd

theorem Refines.finished_of_drains (ref : Refines m move Ready size) {p p' : P} {buf rest : Bytes} (hp : Ready p)
    (h : Drains move p buf (.done p' rest)) : m.finished p' = true := by
  generalize hd : Move.done p' rest = d at h
  induction h with
  | empty => cases hd
  | stop => exact ref.done hp hd.symm
  | go hne hs _ ih => exact ih (ref.go hp hne hs).1 hd

/-- A ready parser drains every buffer. -/
theorem Refines.exists_drains (ref : Refines m move Ready size) {p : P} (hp : Ready p) (buf : Bytes) :
    ∃ d, Drains move p buf d := by
  induction hn : size p + buf.length using Nat.strongRecOn generalizing p buf with
  | _ n ih =>
    by_cases hne : buf = []
    · subst hne
      exact ⟨_, .empty p⟩
    · cases hs : move p buf with
      | go p' rest =>
        obtain ⟨hp', hlt⟩ := ref.go hp hne hs
        obtain ⟨d, hd⟩ := ih _ (hn ▸ hlt) hp' rest rfl
        exact ⟨d, .go hne hs hd⟩
      | fail e => exact ⟨_, .stop hne (by rw [hs]; rfl)⟩
      | wait p' rest => exact ⟨_, .stop hne (by rw [hs]; rfl)⟩
      | done p' rest => exact ⟨_, .stop hne (by rw [hs]; rfl)⟩

theorem Refines.exists_feeds (ref : Refines m move Ready size) {p : P} (hp : Ready p) (buf : Bytes)
    (pieces : List Bytes) : ∃ r, Feeds move p buf pieces r := by
  induction pieces generalizing p buf with
  | nil => exact ⟨_, .starved p buf⟩
  | cons piece pieces ih =>
    obtain ⟨d, hd⟩ := ref.exists_drains hp (buf ++ piece)
    cases d with
    | fail e => exact ⟨_, .fail hd⟩
    | go p' rest => cases hd.not_go
    | wait p' rest =>
      obtain ⟨r, hr⟩ := ih (ref.ready_of_drains hp hd) rest
      exact ⟨r, .wait hd hr⟩
    | done p' rest => exact ⟨_, .done hd⟩

/-- The reads the outer loop makes of the pieces of a stream, when `spare` bytes of the buffer are free:
    a piece that does not fit is read in several parts. -/
def reads (grow : Growth) : Nat → Nat → List Bytes → List Bytes
  | 0, _, _ => []
  | _ + 1, _, [] => []
  | fuel + 1, spare, piece :: rest =>
    let n := if spare = 0 then grow.room fuel else spare
    if piece.length ≤ n then piece :: reads grow fuel (n - piece.length) rest
    else piece.take n :: reads grow fuel 0 (piece.drop n :: rest)

/-- A buffer that grows has room. -/
theorem room_pos (grow : Growth) (call spare : Nat) : 0 < if spare = 0 then grow.room call else spare := by
  have := grow.le_room call
  split <;> omega

theorem reads_spec {fuel spare : Nat} {pending : List Bytes} (hf : pending.flatten.length < fuel)
    (hne : ∀ piece ∈ pending, piece ≠ []) :
    (reads grow fuel spare pending).flatten = pending.flatten ∧ ∀ piece ∈ reads grow fuel spare pending, piece ≠ [] := by
  induction fuel generalizing spare pending with
  | zero => omega
  | succ fuel ih =>
    cases pending with
    | nil => exact ⟨rfl, by simp [reads]⟩
    | cons piece rest =>
      have hpiece : piece ≠ [] := hne piece List.mem_cons_self
      have hpos := List.length_pos_iff.mpr hpiece
      simp only [List.flatten_cons, List.length_append] at hf
      have hn := room_pos grow fuel spare
      simp only [reads]
      generalize (if spare = 0 then grow.room fuel else spare) = n at hn
      by_cases hle : piece.length ≤ n
      · obtain ⟨hflat, hne'⟩ := @ih (n - piece.length) rest (by omega) fun x hx => hne x (List.mem_cons_of_mem _ hx)
        rw [if_pos hle]
        refine ⟨by rw [List.flatten_cons, hflat, List.flatten_cons], fun x hx => ?_⟩
        rcases List.mem_cons.mp hx with rfl | hx
        · exact hpiece
        · exact hne' x hx
      · obtain ⟨hflat, hne'⟩ := @ih 0 (piece.drop n :: rest)
          (by simp only [List.flatten_cons, List.length_append, List.length_drop]; omega) fun x hx => by
            rcases List.mem_cons.mp hx with rfl | hx
            · exact List.ne_nil_of_length_pos (by rw [List.length_drop]; omega)
            · exact hne x (List.mem_cons_of_mem _ hx)
        rw [if_neg hle]
        refine ⟨by rw [List.flatten_cons, hflat, List.flatten_cons, ← List.append_assoc, List.take_append_drop,
          List.flatten_cons], fun x hx => ?_⟩
        rcases List.mem_cons.mp hx with rfl | hx
        · exact List.ne_nil_of_length_pos (by rw [List.length_take]; omega)
        · exact hne' x hx

/-- How the outer loop ends when the reads of the stream end in `r`. -/
def Ended (fault : Option ErrorKind) (r : Ending P UInt8 ParseError) (res : ParseResult (P × ReadBuf × Stream)) : Prop :=
  match r with
  | .fail e => res = .error (.error e)
  | .starved _ _ => res = .error (.error (fault.elim .eof .ioError))
  | .done p rest left => ∃ spare pending, res = .ok (p, ⟨rest, spare⟩, ⟨pending, fault⟩) ∧ pending.flatten = left.flatten

theorem Refines.out_eq (ref : Refines m move Ready size) (config : Config) {fuel spare : Nat} {p : P} {buf : Bytes}
    {pending : List Bytes} {fault : Option ErrorKind} {r : Ending P UInt8 ParseError} (hp : Ready p)
    (hf : pending.flatten.length < fuel) (hne : ∀ piece ∈ pending, piece ≠ [])
    (h : Feeds move p buf (reads grow fuel spare pending) r) :
    Ended fault r (m.out grow config fuel p ⟨buf, spare⟩ ⟨pending, fault⟩) := by
  induction fuel generalizing spare p buf pending with
  | zero => omega
  | succ fuel ih =>
    have hn := room_pos grow fuel spare
    have hchunk : (⟨buf, spare⟩ : ReadBuf).chunkMut (grow.room fuel) =
        ⟨buf, if spare = 0 then grow.room fuel else spare⟩ := by
      unfold ReadBuf.chunkMut
      split <;> rfl
    cases pending with
    | nil =>
      rw [Parser.out, if_neg (by simp [ref.notFinished hp])]
      simp only [hchunk, Nat.ne_of_gt hn, if_false]
      cases h
      cases fault <;> rfl
    | cons piece rest =>
      have hpos := List.length_pos_iff.mpr (hne piece List.mem_cons_self)
      simp only [List.flatten_cons, List.length_append] at hf
      simp only [reads] at h
      generalize (if spare = 0 then grow.room fuel else spare) = n at hn hchunk h
      -- One iteration: `data` is read and drained, and the loop goes on with the pieces `next`.
      have iter : ∀ (data : Bytes) (next : List Bytes), data ≠ [] →
          Stream.read ⟨piece :: rest, fault⟩ n = .ok (data, ⟨next, fault⟩) →
          Feeds move p buf (data :: reads grow fuel (n - data.length) next) r → next.flatten.length < fuel →
          (∀ piece ∈ next, piece ≠ []) → (reads grow fuel (n - data.length) next).flatten = next.flatten →
          Ended fault r (m.out grow config (fuel + 1) p ⟨buf, spare⟩ ⟨piece :: rest, fault⟩) := by
        intro data next hdata hread hfeeds hlen hnext hflat
        have hsize := ref.size_le p
        rw [Parser.out, if_neg (by simp [ref.notFinished hp])]
        simp only [hchunk, Nat.ne_of_gt hn, if_false, hread, List.length_eq_zero_iff, hdata, ReadBuf.filled]
        cases hfeeds with
        | fail hd =>
          rw [ref.inner_eq hp hd (by omega)]
          rfl
        | done hd =>
          rw [ref.inner_eq hp hd (by omega)]
          simp only [drained, ref.finished_of_drains hp hd, if_true]
          exact ⟨_, _, rfl, hflat.symm⟩
        | wait hd hr =>
          have hp' := ref.ready_of_drains hp hd
          rw [ref.inner_eq hp hd (by omega)]
          simp only [drained, ref.notFinished hp', Bool.false_eq_true, if_false]
          exact ih hp' hlen hnext hr
      by_cases hle : piece.length ≤ n
      · have hnext : ∀ x ∈ rest, x ≠ [] := fun x hx => hne x (List.mem_cons_of_mem _ hx)
        exact iter piece rest (List.ne_nil_of_length_pos hpos) (by simp only [Stream.read, hle, if_true])
          (by rwa [if_pos hle] at h) (by omega) hnext (reads_spec (by omega) hnext).1
      · have hnext : ∀ x ∈ piece.drop n :: rest, x ≠ [] := fun x hx => by
          rcases List.mem_cons.mp hx with rfl | hx
          · exact List.ne_nil_of_length_pos (by rw [List.length_drop]; omega)
          · exact hne x (List.mem_cons_of_mem _ hx)
        have hlen : (piece.take n).length = n := by rw [List.length_take]; omega
        have hlen' : (piece.drop n :: rest).flatten.length < fuel := by
          simp only [List.flatten_cons, List.length_append, List.length_drop]
          omega
        exact iter (piece.take n) (piece.drop n :: rest) (List.ne_nil_of_length_pos (by omega))
          (by simp only [Stream.read, hle, if_false]) (by rw [hlen, Nat.sub_self]; rwa [if_neg hle] at h) hlen' hnext
          (reads_spec hlen' hnext).1

end Loops

/-! ## The two parsers -/

section Parsers
variable {http : HttpCrate}

theorem length_dropWhile_le (buf : Bytes) : (buf.dropWhile isSpace).length ≤ buf.length :=
  (List.dropWhile_suffix isSpace).length_le

theorem length_of_headerLine {buf rest : Bytes} {h : http.HeaderName × http.HeaderValue}
    (hl : headerLine http buf = some (.ok (h, rest))) : rest.length < buf.length := by
  have hle := length_dropWhile_le buf
  unfold headerLine at hl
  split at hl
  · cases hl
  · next rawName rest₁ hname =>
    have h₁ := length_of_cut hname
    split at hl
    · cases hl
    · next rawValue rest₂ hvalue =>
      have h₂ := length_of_cut hvalue
      have h₃ := length_dropWhile_le rest₁.tail
      have h₄ : rest₁.tail.length = rest₁.length - 1 := List.length_tail
      split at hl
      · cases hl
      · split at hl
        · cases hl
        · cases hl
          omega

theorem tokenMove_go {σ α : Type} {ofBytes : Bytes → Option α} {empty invalid : ParseError} {add : α → σ} {s s' : σ}
    {buf rest : Bytes} (h : tokenMove ofBytes empty invalid add s buf = .go s' rest) :
    (∃ a, s' = add a) ∧ rest.length ≤ buf.length := by
  have hle := length_dropWhile_le buf
  unfold tokenMove at h
  split at h
  · cases h
  · next token rest' hcut =>
    have := length_of_cut hcut
    split at h
    · cases h
    · split at h
      · cases h
      · next a _ =>
        cases h
        exact ⟨⟨a, rfl⟩, by omega⟩

theorem fieldMove_go {σ α : Type} {n : Nat} {ofBytes : Bytes → Option α} {invalid : ParseError} {add : α → σ} {s s' : σ}
    {buf rest : Bytes} (h : fieldMove n ofBytes invalid add s buf = .go s' rest) :
    (∃ a, s' = add a) ∧ rest.length ≤ buf.length := by
  have hle := length_dropWhile_le buf
  unfold fieldMove at h
  split at h
  · split at h
    · cases h
    · next a _ =>
      cases h
      exact ⟨⟨a, rfl⟩, by rw [List.length_drop]; omega⟩
  · cases h

theorem headersMove_go {σ : Type} {add : http.HeaderName × http.HeaderValue → σ} {fin s s' : σ} {buf rest : Bytes}
    (h : headersMove http add fin s buf = .go s' rest) : (∃ a, s' = add a) ∧ rest.length < buf.length := by
  have hle := length_breakRun_le buf
  unfold headersMove at h
  split at h
  · cases h
  · split at h
    · cases h
    · cases h
    · next a rest' hl =>
      cases h
      exact ⟨⟨a, rfl⟩, Nat.lt_of_lt_of_le (length_of_headerLine hl) hle⟩

theorem headersMove_wait {σ : Type} {add : http.HeaderName × http.HeaderValue → σ} {fin s s' : σ} {buf rest : Bytes}
    (h : headersMove http add fin s buf = .wait s' rest) : s' = s := by
  unfold headersMove at h
  split at h
  · cases h
  · split at h <;> cases h
    rfl

theorem headersMove_done {σ : Type} {add : http.HeaderName × http.HeaderValue → σ} {fin s s' : σ} {buf rest : Bytes}
    (h : headersMove http add fin s buf = .done s' rest) : s' = fin := by
  unfold headersMove at h
  split at h
  · cases h
    rfl
  · split at h <;> cases h

/-- Only the header section ends a head. -/
theorem tokenMove_wait {σ α : Type} {ofBytes : Bytes → Option α} {empty invalid : ParseError} {add : α → σ} {s s' : σ}
    {buf rest : Bytes} (h : tokenMove ofBytes empty invalid add s buf = .wait s' rest) : s' = s := by
  unfold tokenMove at h
  split at h
  · cases h
    rfl
  · split at h
    · cases h
    · split at h <;> cases h

theorem tokenMove_done {σ α : Type} {ofBytes : Bytes → Option α} {empty invalid : ParseError} {add : α → σ} {s s' : σ}
    {buf rest : Bytes} : tokenMove ofBytes empty invalid add s buf ≠ .done s' rest := by
  intro h
  unfold tokenMove at h
  split at h
  · cases h
  · split at h
    · cases h
    · split at h <;> cases h

theorem fieldMove_wait {σ α : Type} {n : Nat} {ofBytes : Bytes → Option α} {invalid : ParseError} {add : α → σ} {s s' : σ}
    {buf rest : Bytes} (h : fieldMove n ofBytes invalid add s buf = .wait s' rest) : s' = s := by
  unfold fieldMove at h
  split at h
  · split at h <;> cases h
  · cases h
    rfl

theorem fieldMove_done {σ α : Type} {n : Nat} {ofBytes : Bytes → Option α} {invalid : ParseError} {add : α → σ} {s s' : σ}
    {buf rest : Bytes} : fieldMove n ofBytes invalid add s buf ≠ .done s' rest := by
  intro h
  unfold fieldMove at h
  split at h
  · split at h <;> cases h
  · cases h

end Parsers

namespace Requester
variable {http : HttpCrate}

/-- Not finished, and the builder is there. -/
def Ready (r : Requester http) : Prop := r.state ≠ .finished ∧ r.builder.isSome

/-- The states still to come. -/
def size (r : Requester http) : Nat :=
  match r.state with
  | .method => 4
  | .uri => 3
  | .version => 2
  | .headers => 1
  | .finished => 0

theorem setBuilder_eq {r : Requester http} (h : r.builder.isSome) (f : http.request.Builder → http.request.Builder) :
    r.setBuilder f = .ok (r.update r.state f) := by
  obtain ⟨b, hb⟩ := Option.isSome_iff_exists.mp h
  simp [setBuilder, update, hb]

theorem step_eq {r : Requester http} (hr : r.Ready) (buf : Bytes) (spare : Nat) :
    (parser http).step r ⟨buf, spare⟩ = outcome spare (r.move buf) := by
  obtain ⟨hfin, hb⟩ := hr
  simp only [parser, move]
  cases hs : r.state with
  | finished => exact absurd hs hfin
  | method => exact takeToken_eq (fun m => by simp [setMethod, setBuilder_eq hb, nextState, update, hs]; rfl) buf
  | uri => exact takeToken_eq (fun u => by simp [setUri, setBuilder_eq hb, nextState, update, hs]; rfl) buf
  | version => exact takeVersion_eq (fun v => by simp [setVersion, setBuilder_eq hb, nextState, update, hs]; rfl) buf
  | headers => exact takeHeader_eq (fun h => by simp [setHeader, setBuilder_eq hb, addHeader, update, hs]) buf

theorem ready_update {r : Requester http} (hb : r.builder.isSome) {state : RequestParseState} (hs : state ≠ .finished)
    (f : http.request.Builder → http.request.Builder) : (r.update state f).Ready :=
  ⟨hs, by simpa [update] using hb⟩

theorem refines (http : HttpCrate) : Refines (parser http) move Ready size where
  step hr := step_eq hr _ _
  notFinished hr := by simpa [parser] using hr.1
  go {r buf r' rest} hr hne h := by
    obtain ⟨hfin, hb⟩ := hr
    unfold move at h
    split at h
    · next hs =>
      obtain ⟨⟨a, rfl⟩, hle⟩ := tokenMove_go h
      exact ⟨ready_update hb (by simp) _, by simp only [size, update, hs]; omega⟩
    · next hs =>
      obtain ⟨⟨a, rfl⟩, hle⟩ := tokenMove_go h
      exact ⟨ready_update hb (by simp) _, by simp only [size, update, hs]; omega⟩
    · next hs =>
      obtain ⟨⟨a, rfl⟩, hle⟩ := fieldMove_go h
      exact ⟨ready_update hb (by simp) _, by simp only [size, update, hs]; omega⟩
    · next hs =>
      obtain ⟨⟨a, rfl⟩, hlt⟩ := headersMove_go h
      exact ⟨ready_update hb (by simp) _, by simp only [size, addHeader, update, hs]; omega⟩
    · cases h
  wait {r buf r' rest} hr h := by
    have hr' : r' = r := by
      unfold move at h
      split at h
      · exact tokenMove_wait h
      · exact tokenMove_wait h
      · exact fieldMove_wait h
      · exact headersMove_wait h
      · cases h
    exact hr' ▸ hr
  done {r buf r' rest} hr h := by
    unfold move at h
    split at h
    · exact absurd h tokenMove_done
    · exact absurd h tokenMove_done
    · exact absurd h fieldMove_done
    · next hs => simp [headersMove_done h, parser, nextState, RequestParseState.next, hs]
    · next hs => exact absurd hs hr.1
  size_le r := by
    unfold size
    split <;> omega

theorem new_ready (http : HttpCrate) : (new http).Ready := ⟨by simp [new], rfl⟩

end Requester

namespace Responser
variable {http : HttpCrate}

def Ready (r : Responser http) : Prop := r.state ≠ .finished ∧ r.builder.isSome

def size (r : Responser http) : Nat :=
  match r.state with
  | .version => 4
  | .statusCode => 3
  | .reason => 2
  | .headers => 1
  | .finished => 0

theorem setBuilder_eq {r : Responser http} (h : r.builder.isSome) (f : http.response.Builder → http.response.Builder) :
    r.setBuilder f = .ok (r.update r.state f) := by
  obtain ⟨b, hb⟩ := Option.isSome_iff_exists.mp h
  simp [setBuilder, update, hb]

theorem parseStatusCode_eq {r : Responser http} (hb : r.builder.isSome) (hs : r.state = .statusCode) (buf : Bytes)
    (spare : Nat) : r.parseStatusCode ⟨buf, spare⟩ = outcome spare (r.move buf) := by
  simp only [parseStatusCode, ReadBuf.chunk, skipSpaces_splitTo, parseCode, move, hs, fieldMove, bind, Except.bind]
  by_cases hlen : 3 ≤ (buf.dropWhile isSpace).length
  · simp only [hlen, if_true]
    cases http.statusFromBytes ((buf.dropWhile isSpace).take 3) with
    | none => rfl
    | some c =>
      simp only [setCode, setBuilder_eq hb, splitTo_of_le hlen, hs]
      rfl
  · simp only [hlen, if_false]
    rfl

theorem parseReason_eq {r : Responser http} (hs : r.state = .reason) (buf : Bytes) (spare : Nat) :
    r.parseReason ⟨buf, spare⟩ = outcome spare (r.move buf) := by
  simp only [parseReason, ReadBuf.chunk, skipSpaces_splitTo, Http.parseReason, findIdx?_eq_cut, move, hs, bind, Except.bind]
  cases hcut : cut isNewline (buf.dropWhile isSpace) with
  | none => rfl
  | some c =>
    obtain ⟨reason, rest⟩ := c
    obtain ⟨hline, -, -⟩ := cut_eq_some_iff.mp hcut
    simp only [Option.map_some, hline, splitTo_append reason rest rfl]
    rfl

theorem step_eq {r : Responser http} (hr : r.Ready) (buf : Bytes) (spare : Nat) :
    (parser http).step r ⟨buf, spare⟩ = outcome spare (r.move buf) := by
  obtain ⟨hfin, hb⟩ := hr
  cases hs : r.state with
  | finished => exact absurd hs hfin
  | statusCode =>
    simp only [parser, hs]
    exact parseStatusCode_eq hb hs buf spare
  | reason =>
    simp only [parser, hs]
    exact parseReason_eq hs buf spare
  | version =>
    simp only [parser, move, hs]
    exact takeVersion_eq (fun v => by simp [setVersion, setBuilder_eq hb, nextState, update, hs]; rfl) buf
  | headers =>
    simp only [parser, move, hs]
    exact takeHeader_eq (fun h => by simp [setHeader, setBuilder_eq hb, addHeader, update, hs]) buf

theorem ready_update {r : Responser http} (hb : r.builder.isSome) {state : ResponseParseState} (hs : state ≠ .finished)
    (f : http.response.Builder → http.response.Builder) : (r.update state f).Ready :=
  ⟨hs, by simpa [update] using hb⟩

theorem refines (http : HttpCrate) : Refines (parser http) move Ready size where
  step hr := step_eq hr _ _
  notFinished hr := by simpa [parser] using hr.1
  go {r buf r' rest} hr hne h := by
    obtain ⟨hfin, hb⟩ := hr
    unfold move at h
    split at h
    · next hs =>
      obtain ⟨⟨a, rfl⟩, hle⟩ := fieldMove_go h
      exact ⟨ready_update hb (by simp) _, by simp only [size, update, hs]; omega⟩
    · next hs =>
      obtain ⟨⟨a, rfl⟩, hle⟩ := fieldMove_go h
      exact ⟨ready_update hb (by simp) _, by simp only [size, update, hs]; omega⟩
    · next hs =>
      have hle := length_dropWhile_le buf
      split at h
      · cases h
      · next reason rest' hcut =>
        have := length_of_cut hcut
        cases h
        refine ⟨⟨by simp [nextState, setReason, ResponseParseState.next, hs], hb⟩, ?_⟩
        simp only [size, nextState, setReason, ResponseParseState.next, hs]
        omega
    · next hs =>
      obtain ⟨⟨a, rfl⟩, hlt⟩ := headersMove_go h
      exact ⟨ready_update hb (by simp) _, by simp only [size, addHeader, update, hs]; omega⟩
    · cases h
  wait {r buf r' rest} hr h := by
    have hr' : r' = r := by
      unfold move at h
      split at h
      · exact fieldMove_wait h
      · exact fieldMove_wait h
      · split at h <;> cases h
        rfl
      · exact headersMove_wait h
      · cases h
    exact hr' ▸ hr
  done {r buf r' rest} hr h := by
    unfold move at h
    split at h
    · exact absurd h fieldMove_done
    · exact absurd h fieldMove_done
    · split at h <;> cases h
    · next hs => simp [headersMove_done h, parser, nextState, ResponseParseState.next, hs]
    · next hs => exact absurd hs hr.1
  size_le r := by
    unfold size
    split <;> omega

theorem new_ready (http : HttpCrate) : (new http).Ready := ⟨by simp [new], rfl⟩

end Responser

end Hala.Http
