import Hala.Theorems.Http.Refine

/-! How the moves of the parsers react to more input.

They are stable, so an input without a complete head ends alike however it is cut (`Feeds.eq`). And read
byte by byte no input ever comes to an end: the two line breaks of an empty line are never in the buffer
together, since the first one is dropped before the second one arrives. -/

namespace Hala.Http
open Io Incremental Scan

section Breaks
variable {buf rest more : Bytes}

theorem lineBreak_append (h : lineBreak buf = some rest) (more : Bytes) : lineBreak (buf ++ more) = some (rest ++ more) := by
  obtain ⟨e, rfl⟩ := lineBreak_eq_some_iff.mp h
  rw [List.append_assoc]
  exact lineBreak_lineEnd e _

/-- A line break that the next bytes complete starts with the CR at the end of the buffer. -/
theorem lineBreak_append_of_none (h : lineBreak buf = none) (hne : buf ≠ []) (hcr : buf ≠ [13]) (more : Bytes) :
    lineBreak (buf ++ more) = none := by
  match buf with
  | [] => exact absurd rfl hne
  | [b] =>
    have hb : b ≠ 10 := by
      rintro rfl
      cases h
    have hb' : b ≠ 13 := fun hb' => hcr (hb' ▸ rfl)
    exact lineBreak_cons_of_ne (by simp [isNewline, hb, hb'])
  | b :: c :: t =>
    simp only [List.cons_append, lineBreak] at h ⊢
    split at h
    · cases h
    · next hb =>
      split at h
      · cases h
      · next hbc => rw [if_neg hb, if_neg hbc]

/-- The line breaks of a longer buffer are those of its front and those of the rest with what follows. -/
theorem breakRun_append (buf more : Bytes) :
    breakRun (buf ++ more) =
      ((breakRun buf).1 + (breakRun ((breakRun buf).2 ++ more)).1, (breakRun ((breakRun buf).2 ++ more)).2) := by
  induction hn : buf.length using Nat.strongRecOn generalizing buf with
  | _ n ih =>
    cases h : lineBreak buf with
    | none =>
      rw [breakRun_of_none h]
      simp
    | some rest =>
      rw [breakRun_of_some (lineBreak_append h more), ih _ (hn ▸ length_of_lineBreak h) rest rfl, breakRun_of_some h]
      simp only [Prod.mk.injEq, and_true]
      omega

theorem breakRun_fst_le (buf : Bytes) : (breakRun buf).1 + (breakRun buf).2.length ≤ buf.length := by
  induction hn : buf.length using Nat.strongRecOn generalizing buf with
  | _ n ih =>
    cases h : lineBreak buf with
    | none => simp [breakRun_of_none h, hn]
    | some rest =>
      have hlt := length_of_lineBreak h
      have := ih _ (hn ▸ hlt) rest rfl
      simp only [breakRun_of_some h]
      omega

end Breaks

section HeaderLine
variable {http : HttpCrate} {buf rest : Bytes}

/-- The two cuts of a complete header line. -/
theorem headerLine_eq_some {r : Except ParseError ((http.HeaderName × http.HeaderValue) × Bytes)}
    (h : headerLine http buf = some r) :
    ∃ rawName c t rawValue rest, cut (· == 58) (buf.dropWhile isSpace) = some (rawName, c :: t) ∧
      cut isNewline (t.dropWhile isSpace) = some (rawValue, rest) := by
  unfold headerLine at h
  split at h
  · cases h
  · next rawName rest₁ hname =>
    obtain ⟨-, -, c, t, rfl, -⟩ := cut_eq_some_iff.mp hname
    split at h
    · cases h
    · next rawValue rest₂ hvalue => exact ⟨rawName, c, t, rawValue, rest₂, hname, hvalue⟩

theorem headerLine_of_cuts {rawName rawValue t : Bytes} {c : UInt8}
    (hname : cut (· == 58) (buf.dropWhile isSpace) = some (rawName, c :: t))
    (hvalue : cut isNewline (t.dropWhile isSpace) = some (rawValue, rest)) :
    headerLine http buf =
      match http.headerNameFromBytes (trimSuffixSpaces rawName) with
      | none => some (.error .invalidHeaderName)
      | some name =>
        match http.headerValueFromMaybeShared (trimSuffixSpaces rawValue) with
        | none => some (.error .invalidHeaderValue)
        | some value => some (.ok ((name, value), rest)) := by
  unfold headerLine
  cases hn : http.headerNameFromBytes (trimSuffixSpaces rawName) with
  | none => simp only [hname, List.tail_cons, hvalue, hn]
  | some name =>
    cases hv : http.headerValueFromMaybeShared (trimSuffixSpaces rawValue) <;>
      simp only [hname, List.tail_cons, hvalue, hn, hv]

theorem dropWhile_ne_nil_of_cut {p q : UInt8 → Bool} {pre post : Bytes} (h : cut q (buf.dropWhile p) = some (pre, post)) :
    buf.dropWhile p ≠ [] := by
  intro hnil
  rw [hnil, cut_nil] at h
  cases h

theorem cut_dropWhile_append {p q : UInt8 → Bool} {pre post : Bytes} (h : cut q (buf.dropWhile p) = some (pre, post))
    (more : Bytes) : cut q ((buf ++ more).dropWhile p) = some (pre, post ++ more) := by
  rw [dropWhile_append_of_ne_nil (dropWhile_ne_nil_of_cut h)]
  exact cut_append h more

theorem headerLine_append {r : Except ParseError ((http.HeaderName × http.HeaderValue) × Bytes)}
    (h : headerLine http buf = some r) (more : Bytes) :
    headerLine http (buf ++ more) = some (r.map fun hr => (hr.1, hr.2 ++ more)) := by
  obtain ⟨rawName, c, t, rawValue, rest, hname, hvalue⟩ := headerLine_eq_some h
  rw [headerLine_of_cuts hname hvalue] at h
  rw [headerLine_of_cuts (cut_dropWhile_append hname more) (cut_dropWhile_append hvalue more)]
  revert h
  cases http.headerNameFromBytes (trimSuffixSpaces rawName) with
  | none => rintro ⟨⟩; rfl
  | some name =>
    cases http.headerValueFromMaybeShared (trimSuffixSpaces rawValue) with
    | none => rintro ⟨⟩; rfl
    | some value => rintro ⟨⟩; rfl

/-- A complete header line has a colon. -/
theorem headerLine_short (h : buf.length ≤ 1) : headerLine http buf = none := by
  cases hl : headerLine http buf with
  | none => rfl
  | some r =>
    obtain ⟨rawName, c, t, rawValue, rest, hname, hvalue⟩ := headerLine_eq_some hl
    have h₁ := length_of_cut hname
    have h₂ := length_of_cut hvalue
    have h₃ := length_dropWhile_le buf
    have h₄ := length_dropWhile_le t
    simp only [List.length_cons] at h₁
    omega

end HeaderLine

/-! ## Stability -/

section Stability
variable {http : HttpCrate} {σ α : Type} {buf rest : Bytes} {s s' : σ} {e : ParseError}

theorem tokenMove_congr {ofBytes : Bytes → Option α} {empty invalid : ParseError} {add : α → σ} {buf buf' : Bytes}
    (h : buf.dropWhile isSpace = buf'.dropWhile isSpace) :
    tokenMove ofBytes empty invalid add s buf = tokenMove ofBytes empty invalid add s buf' := by
  simp only [tokenMove, h]

theorem fieldMove_congr {n : Nat} {ofBytes : Bytes → Option α} {invalid : ParseError} {add : α → σ} {buf buf' : Bytes}
    (h : buf.dropWhile isSpace = buf'.dropWhile isSpace) :
    fieldMove n ofBytes invalid add s buf = fieldMove n ofBytes invalid add s buf' := by
  simp only [fieldMove, h]

/-- How one move reacts to more input behind the buffer, for the moves before the header section. -/
structure Settled (f : Bytes → Move σ UInt8 ParseError) (s : σ) : Prop where
  snoc : ∀ {buf x s' rest}, buf = [] ∨ f buf = .wait s buf → f (buf ++ [x]) = .go s' rest → rest.length ≤ 1
  fail : ∀ {buf e}, f buf = .fail e → ∀ more, f (buf ++ more) = .fail e
  go : ∀ {buf s' rest}, f buf = .go s' rest → ∀ more, f (buf ++ more) = .go s' (rest ++ more)
  notDone : ∀ {buf}, (f buf).isDone = false
  wait : ∀ {buf s' rest}, f buf = .wait s' rest → s' = s ∧ rest = buf.dropWhile isSpace
  congr : ∀ {buf buf'}, buf.dropWhile isSpace = buf'.dropWhile isSpace → f buf = f buf'

/-- A cut that the last byte made possible leaves at most this byte. -/
theorem cut_dropWhile_snoc {p q : UInt8 → Bool} {pre post : Bytes} {x : UInt8} (h : cut q (buf.dropWhile p) = none)
    (hx : cut q ((buf ++ [x]).dropWhile p) = some (pre, post)) : post.length ≤ 1 := by
  rw [List.dropWhile_append] at hx
  split at hx
  · have h₁ := length_of_cut hx
    have h₂ : ([x].dropWhile p).length ≤ 1 := (List.dropWhile_suffix p).length_le
    omega
  · simp [cut_snoc h hx]

theorem length_dropWhile_snoc (buf : Bytes) (x : UInt8) :
    ((buf ++ [x]).dropWhile isSpace).length ≤ (buf.dropWhile isSpace).length + 1 := by
  rw [List.dropWhile_append]
  split
  · have : ([x].dropWhile isSpace).length ≤ 1 := (List.dropWhile_suffix isSpace).length_le
    omega
  · simp

theorem tokenMove_settled (ofBytes : Bytes → Option α) (empty invalid : ParseError) (add : α → σ) (s : σ) :
    Settled (tokenMove ofBytes empty invalid add s) s where
  snoc {buf x s' rest} hidle h := by
    have hnone : cut (fun c => isSpace c || isNewline c) (buf.dropWhile isSpace) = none := by
      rcases hidle with rfl | hw
      · rfl
      · unfold tokenMove at hw
        split at hw
        · assumption
        · split at hw
          · cases hw
          · split at hw <;> cases hw
    unfold tokenMove at h
    split at h
    · cases h
    · next token rest' hcut =>
      split at h
      · cases h
      · split at h <;> cases h
        exact cut_dropWhile_snoc hnone hcut
  fail {buf e} h more := by
    unfold tokenMove at h ⊢
    split at h
    · cases h
    · next token rest hcut =>
      rw [cut_dropWhile_append hcut more]
      split at h
      · next hnil => simpa [hnil] using h
      · next hnil =>
        simp only [hnil, if_false]
        split at h
        · next hof => simpa [hof] using h
        · cases h
  go {buf s' rest} h more := by
    unfold tokenMove at h ⊢
    split at h
    · cases h
    · next token rest' hcut =>
      rw [cut_dropWhile_append hcut more]
      split at h
      · cases h
      · next hnil =>
        simp only [hnil, if_false]
        split at h
        · cases h
        · next a hof =>
          cases h
          simp
  notDone {buf} := by
    cases h : tokenMove ofBytes empty invalid add s buf with
    | done s' rest => exact absurd h tokenMove_done
    | fail e => rfl
    | go s' rest => rfl
    | wait s' rest => rfl
  wait {buf s' rest} h := by
    refine ⟨tokenMove_wait h, ?_⟩
    unfold tokenMove at h
    split at h
    · cases h
      rfl
    · split at h
      · cases h
      · split at h <;> cases h
  congr h := tokenMove_congr h

theorem fieldMove_settled {n : Nat} (hn : 0 < n) (ofBytes : Bytes → Option α) (invalid : ParseError) (add : α → σ) (s : σ) :
    Settled (fieldMove n ofBytes invalid add s) s where
  snoc {buf x s' rest} hidle h := by
    have hlt : (buf.dropWhile isSpace).length < n := by
      rcases hidle with rfl | hw
      · exact hn
      · unfold fieldMove at hw
        split at hw
        · split at hw <;> cases hw
        · omega
    have := length_dropWhile_snoc buf x
    unfold fieldMove at h
    split at h
    · split at h <;> cases h
      rw [List.length_drop]
      omega
    · cases h
  fail {buf e} h more := by
    unfold fieldMove at h ⊢
    split at h
    · next hle =>
      have hne : buf.dropWhile isSpace ≠ [] := List.ne_nil_of_length_pos (by omega)
      rw [dropWhile_append_of_ne_nil hne, List.take_append_of_le_length hle,
        if_pos (by rw [List.length_append]; omega)]
      split at h
      · next hof => simpa [hof] using h
      · cases h
    · cases h
  go {buf s' rest} h more := by
    unfold fieldMove at h ⊢
    split at h
    · next hle =>
      have hne : buf.dropWhile isSpace ≠ [] := List.ne_nil_of_length_pos (by omega)
      rw [dropWhile_append_of_ne_nil hne, List.take_append_of_le_length hle, List.drop_append_of_le_length hle,
        if_pos (by rw [List.length_append]; omega)]
      split at h
      · cases h
      · next a hof =>
        cases h
        simp
    · cases h
  notDone {buf} := by
    cases h : fieldMove n ofBytes invalid add s buf with
    | done s' rest => exact absurd h fieldMove_done
    | fail e => rfl
    | go s' rest => rfl
    | wait s' rest => rfl
  wait {buf s' rest} h := by
    refine ⟨fieldMove_wait h, ?_⟩
    unfold fieldMove at h
    split at h
    · split at h <;> cases h
    · cases h
      rfl
  congr h := fieldMove_congr h

theorem headersMove_fail {add : http.HeaderName × http.HeaderValue → σ} {fin : σ}
    (h : headersMove http add fin s buf = .fail e) :
    ¬2 ≤ (breakRun buf).1 ∧ headerLine http (breakRun buf).2 = some (.error e) := by
  unfold headersMove at h
  split at h
  · cases h
  · next h2 =>
    refine ⟨h2, ?_⟩
    split at h
    · cases h
    · next hl => cases h; exact hl
    · cases h

theorem headersMove_go_iff {add : http.HeaderName × http.HeaderValue → σ} {fin : σ} :
    headersMove http add fin s buf = .go s' rest ↔
      ¬2 ≤ (breakRun buf).1 ∧ ∃ h, headerLine http (breakRun buf).2 = some (.ok (h, rest)) ∧ s' = add h := by
  unfold headersMove
  constructor
  · intro h
    split at h
    · cases h
    · next h2 =>
      refine ⟨h2, ?_⟩
      split at h
      · cases h
      · cases h
      · next hd _ hl => cases h; exact ⟨hd, hl, rfl⟩
  · rintro ⟨h2, h, hl, rfl⟩
    rw [if_neg h2, hl]

theorem headersMove_wait_iff {add : http.HeaderName × http.HeaderValue → σ} {fin : σ} :
    headersMove http add fin s buf = .wait s' rest ↔
      ¬2 ≤ (breakRun buf).1 ∧ headerLine http (breakRun buf).2 = none ∧ s' = s ∧ rest = (breakRun buf).2 := by
  unfold headersMove
  constructor
  · intro h
    split at h
    · cases h
    · next h2 =>
      refine ⟨h2, ?_⟩
      split at h
      · next hl => cases h; exact ⟨hl, rfl, rfl⟩
      · cases h
      · cases h
  · rintro ⟨h2, hl, rfl, rfl⟩
    rw [if_neg h2, hl]

/-- Behind a complete header line, nothing changes the line breaks before it. -/
theorem breakRun_append_of_headerLine {r : Except ParseError ((http.HeaderName × http.HeaderValue) × Bytes)}
    (h : headerLine http (breakRun buf).2 = some r) (more : Bytes) :
    breakRun (buf ++ more) = ((breakRun buf).1, (breakRun buf).2 ++ more) := by
  have hlen : ¬(breakRun buf).2.length ≤ 1 := fun hle => by
    rw [headerLine_short hle] at h
    cases h
  have hnone := lineBreak_append_of_none (lineBreak_breakRun buf) (by rintro h'; simp [h'] at hlen)
    (by rintro h'; simp [h'] at hlen) more
  rw [breakRun_append, breakRun_of_none hnone]
  rfl

end Stability

/-! ## The two parsers -/

section Parsers
variable {http : HttpCrate} {P : Type}

/-- A parser whose moves are settled before the header section, and are those of a header section in it. -/
structure HeadMoves (http : HttpCrate) (move : P → Bytes → Move P UInt8 ParseError) (Ready : P → Prop) : Prop where
  cases : ∀ p, Settled (move p) p ∨ (∃ add fin, move p = headersMove http add fin p) ∨ (¬Ready p ∧ move p = .done p)

variable {move : P → Bytes → Move P UInt8 ParseError} {Ready : P → Prop}

theorem HeadMoves.stable (hm : HeadMoves http move Ready) : Stable move where
  fail {p buf e} h more := by
    rcases hm.cases p with hs | ⟨add, fin, hp⟩ | ⟨-, hp⟩
    · exact hs.fail h more
    · rw [hp] at h ⊢
      obtain ⟨h2, hl⟩ := headersMove_fail h
      unfold headersMove
      rw [breakRun_append_of_headerLine hl more, if_neg h2, headerLine_append hl more]
      rfl
    · rw [hp] at h
      cases h
  go {p buf p' rest} h more := by
    rcases hm.cases p with hs | ⟨add, fin, hp⟩ | ⟨-, hp⟩
    · exact hs.go h more
    · rw [hp] at h ⊢
      obtain ⟨h2, hd, hl, rfl⟩ := headersMove_go_iff.mp h
      refine headersMove_go_iff.mpr ?_
      rw [breakRun_append_of_headerLine hl more]
      exact ⟨h2, hd, by rw [headerLine_append hl more]; rfl, rfl⟩
    · rw [hp] at h
      cases h
  done {p buf p' rest} h more := by
    rcases hm.cases p with hs | ⟨add, fin, hp⟩ | ⟨-, hp⟩
    · have : (move p buf).isDone = false := hs.notDone
      rw [h] at this
      cases this
    · rw [hp] at h ⊢
      have h2 : 2 ≤ (breakRun buf).1 := by
        by_cases h2 : 2 ≤ (breakRun buf).1
        · exact h2
        · unfold headersMove at h
          rw [if_neg h2] at h
          split at h <;> cases h
      unfold headersMove
      rw [breakRun_append, if_pos (by dsimp only; omega)]
      rfl
    · rw [hp]
      rfl
  wait {p buf p' rest} h more := by
    rcases hm.cases p with hs | ⟨add, fin, hp⟩ | ⟨-, hp⟩
    · obtain ⟨rfl, rfl⟩ := hs.wait h
      exact Or.inl (hs.congr (dropWhile_dropWhile_append buf more).symm)
    · rw [hp] at h
      obtain ⟨-, -, rfl, rfl⟩ := headersMove_wait_iff.mp h
      rw [hp]
      unfold headersMove
      rw [breakRun_append]
      generalize breakRun ((breakRun buf).2 ++ more) = run
      by_cases h2 : 2 ≤ (breakRun buf).1 + run.1
      · exact Or.inr (by rw [if_pos h2]; rfl)
      · exact Or.inl (by rw [if_neg h2, if_neg (by omega)])
    · rw [hp] at h
      cases h

/-! ## Byte by byte -/

/-- Nothing more can be done with the buffer before more input arrives. -/
def Idle (move : P → Bytes → Move P UInt8 ParseError) (p : P) (buf : Bytes) : Prop := buf = [] ∨ move p buf = .wait p buf

/-- A wait leaves nothing that could be done. -/
theorem HeadMoves.idle_of_wait (hm : HeadMoves http move Ready) {p p' : P} {buf rest : Bytes}
    (h : move p buf = .wait p' rest) : Idle move p' rest := by
  rcases hm.cases p with hs | ⟨add, fin, hp⟩ | ⟨-, hp⟩
  · obtain ⟨rfl, rfl⟩ := hs.wait h
    exact Or.inr ((hs.congr (by rw [List.dropWhile_idempotent])).trans h)
  · rw [hp] at h
    obtain ⟨-, hl, rfl, rfl⟩ := headersMove_wait_iff.mp h
    refine Or.inr ?_
    rw [hp]
    refine headersMove_wait_iff.mpr ?_
    rw [breakRun_of_none (lineBreak_breakRun buf)]
    exact ⟨by simp, hl, rfl, rfl⟩
  · rw [hp] at h
    cases h

theorem HeadMoves.idle_of_drains (hm : HeadMoves http move Ready) {p p' : P} {buf rest : Bytes}
    (h : Drains move p buf (.wait p' rest)) : Idle move p' rest := by
  generalize hd : Move.wait p' rest = d at h
  induction h with
  | empty => cases hd; exact Or.inl rfl
  | stop => exact hm.idle_of_wait hd.symm
  | go _ _ _ ih => exact ih hd

theorem headerLine_snoc {buf rest : Bytes} {x : UInt8} {h : http.HeaderName × http.HeaderValue}
    (hnone : headerLine http buf = none) (hx : headerLine http (buf ++ [x]) = some (.ok (h, rest))) : rest.length ≤ 1 := by
  obtain ⟨rawName, c, t, rawValue, rest', hname, hvalue⟩ := headerLine_eq_some hx
  have hrest : rest = rest' := by
    rw [headerLine_of_cuts hname hvalue] at hx
    split at hx
    · cases hx
    · split at hx <;> cases hx
      rfl
  subst hrest
  cases hbuf : cut (· == 58) (buf.dropWhile isSpace) with
  | none =>
    -- The colon has just arrived, so the value has not.
    have h₁ := cut_dropWhile_snoc hbuf hname
    have h₂ := length_of_cut hvalue
    have h₃ := length_dropWhile_le t
    simp only [List.length_cons] at h₁
    omega
  | some r =>
    obtain ⟨rawName', post⟩ := r
    obtain ⟨-, -, c', t', rfl, -⟩ := cut_eq_some_iff.mp hbuf
    rw [cut_dropWhile_append hbuf [x]] at hname
    cases hname
    have hnone' : cut isNewline (t'.dropWhile isSpace) = none := by
      cases hcut : cut isNewline (t'.dropWhile isSpace) with
      | none => rfl
      | some r =>
        rw [headerLine_of_cuts hbuf hcut] at hnone
        split at hnone
        · cases hnone
        · split at hnone <;> cases hnone
    exact cut_dropWhile_snoc hnone' hvalue

/-- One more byte behind an idle buffer holds at most one line break. -/
theorem breakRun_snoc {buf : Bytes} (h : lineBreak buf = none) (x : UInt8) :
    breakRun (buf ++ [x]) = (0, buf ++ [x]) ∨ (breakRun (buf ++ [x])).1 ≤ 1 ∧ (breakRun (buf ++ [x])).2.length ≤ 1 := by
  cases hx : lineBreak (buf ++ [x]) with
  | none => exact Or.inl (breakRun_of_none hx)
  | some rest =>
    have hlen : buf.length ≤ 1 := by
      by_contra hlong
      have := lineBreak_append_of_none h (by rintro rfl; simp at hlong) (by rintro rfl; simp at hlong) [x]
      rw [this] at hx
      cases hx
    have hrest := length_of_lineBreak hx
    simp only [List.length_append, List.length_singleton] at hrest
    have hrun := breakRun_fst_le rest
    refine Or.inr ?_
    rw [breakRun_of_some hx]
    refine ⟨?_, by dsimp only; omega⟩
    -- A line break in the last two bytes takes the CR of the first one, or there is only the last one.
    obtain ⟨e, he⟩ := lineBreak_eq_some_iff.mp hx
    cases buf with
    | nil =>
      simp only [List.length_nil] at hrest
      dsimp only
      omega
    | cons b t =>
      obtain rfl : t = [] := List.eq_nil_of_length_eq_zero (by simp only [List.length_cons] at hlen; omega)
      cases e with
      | crlf =>
        simp only [LineEnd.bytes, List.cons_append, List.nil_append, List.cons.injEq] at he
        obtain ⟨-, -, rfl⟩ := he
        simp [breakRun_nil]
      | lf =>
        simp only [LineEnd.bytes, List.cons_append, List.nil_append, List.cons.injEq] at he
        rw [he.1] at h
        cases h

variable {m : Parser P} {size : P → Nat}

theorem HeadMoves.not_done_of_length (hm : HeadMoves http move Ready) {p : P} (hp : Ready p) {buf : Bytes}
    (hlen : buf.length ≤ 1) : (move p buf).isDone = false := by
  rcases hm.cases p with hs | ⟨add, fin, hp'⟩ | ⟨hp', -⟩
  · exact hs.notDone
  · have := breakRun_fst_le buf
    rw [hp']
    unfold headersMove
    rw [if_neg (by omega)]
    split <;> rfl
  · exact absurd hp hp'

theorem HeadMoves.not_done_of_short (hm : HeadMoves http move Ready) (ref : Refines m move Ready size) {p : P}
    {buf : Bytes} {d : Move P UInt8 ParseError} (hp : Ready p) (hlen : buf.length ≤ 1) (h : Drains move p buf d) :
    d.isDone = false := by
  induction h with
  | empty => rfl
  | stop => exact hm.not_done_of_length hp hlen
  | @go p p' buf rest d hne hs _ ih =>
    refine ih (ref.go hp hne hs).1 ?_
    rcases hm.cases p with hset | ⟨add, fin, hp'⟩ | ⟨hp', -⟩
    · obtain ⟨x, rfl⟩ := List.length_eq_one_iff.mp (Nat.le_antisymm hlen (List.length_pos_iff.mpr hne))
      exact @hset.snoc [] x _ _ (Or.inl rfl) hs
    · rw [hp'] at hs
      have := (headersMove_go hs).2
      omega
    · exact absurd hp hp'

/-- A byte behind an idle buffer never ends the head. -/
theorem HeadMoves.not_done_of_byte (hm : HeadMoves http move Ready) (ref : Refines m move Ready size) {p : P} {buf : Bytes}
    {x : UInt8} {d : Move P UInt8 ParseError} (hp : Ready p) (hidle : Idle move p buf) (h : Drains move p (buf ++ [x]) d) :
    d.isDone = false := by
  have hne : buf ++ [x] ≠ [] := by simp
  -- The first step is not done, and if it goes on, it leaves at most one byte.
  have first : (move p (buf ++ [x])).isDone = false ∧
      ∀ p' rest, move p (buf ++ [x]) = .go p' rest → rest.length ≤ 1 := by
    rcases hm.cases p with hs | ⟨add, fin, hp'⟩ | ⟨hp', -⟩
    · exact ⟨hs.notDone, fun p' rest hgo => hs.snoc hidle hgo⟩
    · have hidle' : lineBreak buf = none ∧ headerLine http buf = none := by
        rcases hidle with rfl | hw
        · exact ⟨rfl, headerLine_short (by simp)⟩
        · rw [hp'] at hw
          obtain ⟨-, hl, -, hbuf⟩ := headersMove_wait_iff.mp hw
          have := lineBreak_breakRun buf
          rw [← hbuf] at this hl
          exact ⟨this, hl⟩
      rw [hp']
      rcases breakRun_snoc hidle'.1 x with hrun | ⟨h1, h2⟩
      · refine ⟨?_, fun p' rest hgo => ?_⟩
        · unfold headersMove
          rw [hrun, if_neg (by simp)]
          split <;> rfl
        · obtain ⟨-, hd, hl, -⟩ := headersMove_go_iff.mp hgo
          rw [hrun] at hl
          exact headerLine_snoc hidle'.2 hl
      · refine ⟨?_, fun p' rest hgo => ?_⟩
        · unfold headersMove
          rw [if_neg (by omega)]
          split <;> rfl
        · obtain ⟨-, hd, hl, -⟩ := headersMove_go_iff.mp hgo
          rw [headerLine_short h2] at hl
          cases hl
    · exact absurd hp hp'
  generalize buf ++ [x] = b at h hne first
  cases h with
  | stop _ _ => exact first.1
  | go _ hs hd => exact hm.not_done_of_short ref (ref.go hp hne hs).1 (first.2 _ _ hs) hd
  | empty => exact absurd rfl hne

theorem HeadMoves.not_done_bytewise (hm : HeadMoves http move Ready) (ref : Refines m move Ready size) {p : P}
    {buf bytes : Bytes} {r : Ending P UInt8 ParseError} (hp : Ready p) (hidle : Idle move p buf)
    (h : Feeds move p buf (bytes.map fun b => [b]) r) : ∀ p' rest left, r ≠ .done p' rest left := by
  induction bytes generalizing p buf with
  | nil =>
    cases h
    rintro _ _ _ ⟨⟩
  | cons b bytes ih =>
    cases h with
    | fail => rintro _ _ _ ⟨⟩
    | done hd => cases hm.not_done_of_byte ref hp hidle hd
    | wait hd hr => exact ih (ref.ready_of_drains hp hd) (hm.idle_of_drains hd) hr

end Parsers

theorem Requester.headMoves (http : HttpCrate) : HeadMoves http Requester.move (@Requester.Ready http) where
  cases r := by
    cases hs : r.state with
    | method =>
      left
      have : r.move = tokenMove http.methodFromBytes .method .invalidMethod
          (fun method => r.update .uri fun b => http.request.method b method) r := by funext buf; simp only [move, hs]
      rw [this]
      exact tokenMove_settled ..
    | uri =>
      left
      have : r.move = tokenMove http.uriFromMaybeShared .uri .invalidUri
          (fun uri => r.update .version fun b => http.request.uri b uri) r := by funext buf; simp only [move, hs]
      rw [this]
      exact tokenMove_settled ..
    | version =>
      left
      have : r.move = fieldMove 8 Version.ofBytes .version
          (fun version => r.update .headers fun b => http.request.version b version) r := by funext buf; simp only [move, hs]
      rw [this]
      exact fieldMove_settled (by omega) ..
    | headers => exact Or.inr (Or.inl ⟨r.addHeader, r.nextState, by funext buf; simp only [move, hs]⟩)
    | finished => exact Or.inr (Or.inr ⟨fun hr => hr.1 hs, by funext buf; simp only [move, hs]⟩)

theorem Responser.reason_settled {http : HttpCrate} {r : Responser http} (hs : r.state = .reason) : Settled r.move r where
  snoc {buf x s' rest} hidle h := by
    have hnone : cut isNewline (buf.dropWhile isSpace) = none := by
      rcases hidle with rfl | hw
      · rfl
      · simp only [move, hs] at hw
        split at hw
        · assumption
        · cases hw
    simp only [move, hs] at h
    split at h
    · cases h
    · next reason rest' hcut =>
      cases h
      exact cut_dropWhile_snoc hnone hcut
  fail {buf e} h more := by
    simp only [move, hs] at h
    split at h <;> cases h
  go {buf s' rest} h more := by
    simp only [move, hs] at h ⊢
    split at h
    · cases h
    · next reason rest' hcut =>
      cases h
      rw [cut_dropWhile_append hcut more]
  notDone {buf} := by
    simp only [move, hs]
    split <;> rfl
  wait {buf s' rest} h := by
    simp only [move, hs] at h
    split at h
    · cases h
      exact ⟨rfl, rfl⟩
    · cases h
  congr h := by simp only [move, hs, h]

theorem Responser.headMoves (http : HttpCrate) : HeadMoves http Responser.move (@Responser.Ready http) where
  cases r := by
    cases hs : r.state with
    | version =>
      left
      have : r.move = fieldMove 8 Version.ofBytes .version
          (fun version => r.update .statusCode fun b => http.response.version b version) r := by funext buf; simp only [move, hs]
      rw [this]
      exact fieldMove_settled (by omega) ..
    | statusCode =>
      left
      have : r.move = fieldMove 3 http.statusFromBytes .invalidStatusCode
          (fun status => r.update .reason fun b => http.response.status b status) r := by funext buf; simp only [move, hs]
      rw [this]
      exact fieldMove_settled (by omega) ..
    | reason => exact Or.inl (reason_settled hs)
    | headers => exact Or.inr (Or.inl ⟨r.addHeader, r.nextState, by funext buf; simp only [move, hs]⟩)
    | finished => exact Or.inr (Or.inr ⟨fun hr => hr.1 hs, by funext buf; simp only [move, hs]⟩)

end Hala.Http
