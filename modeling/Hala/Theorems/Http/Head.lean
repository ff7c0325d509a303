import Hala.Theorems.Http.Stable

/-! The heads that the parsers take are the written ones.

A buffer drains to the end of a head exactly when it starts with the text of one, and what is left is the
body without the line breaks at its start (`Requester.drains_done_iff`, `Responser.drains_done_iff`). -/

namespace Hala.Http
open Io Incremental Scan

/-! ## Trimming -/

section Trim
variable {buf : Bytes}

theorem trimSuffixSpaces_nil : trimSuffixSpaces [] = [] := rfl

theorem trimSuffixSpaces_append {t sp : Bytes} {b : UInt8} (hb : isSpace b = false) (hsp : ∀ c ∈ sp, isSpace c = true) :
    trimSuffixSpaces (t ++ [b] ++ sp) = t ++ [b] := by
  have hfind : (t ++ [b] ++ sp).reverse.findIdx? (fun c => !isSpace c) = some sp.length := by
    rw [List.reverse_append, List.findIdx?_append, List.findIdx?_eq_none_iff.mpr fun c hc => by
      simp [hsp c (List.mem_reverse.mp hc)]]
    simp [List.findIdx?_cons, hb]
  unfold trimSuffixSpaces
  rw [hfind]
  by_cases hpos : 0 < sp.length
  · simp only [hpos, if_true]
    rw [show (t ++ [b] ++ sp).length - sp.length = (t ++ [b]).length by simp only [List.length_append]; omega]
    exact List.take_left
  · simp only [hpos, if_false]
    rw [List.eq_nil_of_length_eq_zero (Nat.eq_zero_of_not_pos hpos), List.append_nil]

/-- Bytes that do not start with SP or TAB are their trimmed front and the spaces behind it. -/
theorem trimSuffixSpaces_spec (hfirst : ∀ b t, buf = b :: t → isSpace b = false) :
    ∃ sp : Spaces, buf = trimSuffixSpaces buf ++ sp.val ∧ ∀ t b, trimSuffixSpaces buf = t ++ [b] → isSpace b = false := by
  obtain rfl | ⟨b, t, rfl⟩ : buf = [] ∨ ∃ b t, buf = b :: t := by
    cases buf with
    | nil => exact Or.inl rfl
    | cons b t => exact Or.inr ⟨b, t, rfl⟩
  · exact ⟨⟨[], by simp⟩, rfl, fun t b h => by simp [trimSuffixSpaces_nil] at h⟩
  · -- The last byte that is no space ends the trimmed front.
    have hex : ∃ pre c sp, b :: t = pre ++ [c] ++ sp ∧ isSpace c = false ∧ ∀ x ∈ sp, isSpace x = true := by
      have hb := hfirst b t rfl
      clear hfirst
      induction t using List.reverseRecOn with
      | nil => exact ⟨[], b, [], rfl, hb, by simp⟩
      | append_singleton t x ih =>
        by_cases hx : isSpace x = true
        · obtain ⟨pre, c, sp, heq, hc, hsp⟩ := ih
          refine ⟨pre, c, sp ++ [x], ?_, hc, fun y hy => ?_⟩
          · rw [← List.cons_append, heq, List.append_assoc]
          · rcases List.mem_append.mp hy with hy | hy
            · exact hsp y hy
            · rw [List.mem_singleton.mp hy]
              exact hx
        · exact ⟨b :: t, x, [], by simp, by simpa using hx, by simp⟩
    obtain ⟨pre, c, sp, heq, hc, hsp⟩ := hex
    rw [heq, trimSuffixSpaces_append hc hsp]
    refine ⟨⟨sp, hsp⟩, rfl, fun t' b' h => ?_⟩
    obtain ⟨-, h⟩ := List.append_inj' h rfl
    cases h
    exact hc

end Trim

/-! ## Header lines -/

section HeaderText
variable {http : HttpCrate}

theorem isSpace_ne_colon {b : UInt8} (h : isSpace b = true) : (b == 58) = false := by
  simp only [isSpace, Bool.or_eq_true, beq_iff_eq] at h
  rcases h with rfl | rfl <;> decide

theorem isNewline_of_isSpace {b : UInt8} (h : isSpace b = true) : isNewline b = false := by
  simp only [isSpace, Bool.or_eq_true, beq_iff_eq] at h
  rcases h with rfl | rfl <;> decide

namespace HeaderText
variable (h : HeaderText http)

theorem name_byte {b : UInt8} (hb : b ∈ h.nameText) : (b == 58) = false ∧ isSpace b = false ∧ isNewline b = false := by
  obtain ⟨h58, h32, h9, h13, h10⟩ := http.name_token h.name_ok b hb
  simp [isSpace, isNewline, h58, h32, h9, h13, h10]

theorem name_cons : ∃ b t, h.nameText = b :: t := List.exists_cons_of_ne_nil (http.name_ne_nil h.name_ok)

theorem name_snoc : ∃ t b, h.nameText = t ++ [b] ∧ isSpace b = false := by
  obtain ⟨t, b, heq⟩ := (List.eq_nil_or_concat' _).resolve_left (http.name_ne_nil h.name_ok)
  exact ⟨t, b, heq, (h.name_byte (heq ▸ by simp)).2.1⟩

/-- No byte of a header line is a CR or LF. -/
theorem bytes_line : ∀ b ∈ h.bytes, isNewline b = false := by
  intro b hb
  simp only [bytes, List.mem_append, List.mem_cons] at hb
  rcases hb with hb | hb | hb | rfl | hb | hb | hb
  · exact isNewline_of_isSpace (h.before.property b hb)
  · exact (h.name_byte hb).2.2
  · exact isNewline_of_isSpace (h.afterName.property b hb)
  · rfl
  · exact isNewline_of_isSpace (h.beforeValue.property b hb)
  · exact h.value_line b hb
  · exact isNewline_of_isSpace (h.afterValue.property b hb)

theorem bytes_ne_nil : h.bytes ≠ [] := by
  obtain ⟨b, t, hname⟩ := h.name_cons
  simp [bytes, hname]

/-- A header line does not start with a line break. -/
theorem lineBreak_bytes (t : Bytes) : lineBreak (h.bytes ++ t) = none := by
  obtain ⟨b, u, hb⟩ := List.exists_cons_of_ne_nil h.bytes_ne_nil
  rw [hb, List.cons_append]
  exact lineBreak_cons_of_ne (h.bytes_line b (hb ▸ List.mem_cons_self))

theorem trim_name : trimSuffixSpaces (h.nameText ++ h.afterName.val) = h.nameText := by
  obtain ⟨t, b, heq, hb⟩ := h.name_snoc
  rw [heq]
  exact trimSuffixSpaces_append hb h.afterName.property

/-- The line is taken as its header, up to the CR or LF that ends it. -/
theorem headerLine_bytes {c : UInt8} {t : Bytes} (hc : isNewline c = true) :
    headerLine http (h.bytes ++ c :: t) = some (.ok (h.header, c :: t)) := by
  have hname : cut (· == 58) ((h.bytes ++ c :: t).dropWhile isSpace) =
      some (h.nameText ++ h.afterName.val, 58 :: (h.beforeValue.val ++ (h.valueText ++ (h.afterValue.val ++ c :: t)))) := by
    obtain ⟨b, u, hb⟩ := h.name_cons
    have hsp : isSpace b = false := (h.name_byte (hb ▸ List.mem_cons_self)).2.1
    have hdrop : (h.bytes ++ c :: t).dropWhile isSpace = h.nameText ++ (h.afterName.val ++
        58 :: (h.beforeValue.val ++ (h.valueText ++ (h.afterValue.val ++ c :: t)))) := by
      simp only [bytes, List.append_assoc, List.cons_append]
      rw [List.dropWhile_append_of_pos h.before.property, hb, List.cons_append, List.dropWhile_cons, if_neg (by simp [hsp])]
    rw [hdrop, ← List.append_assoc]
    refine cut_eq_some_iff.mpr ⟨rfl, fun x hx => ?_, 58, _, rfl, rfl⟩
    rcases List.mem_append.mp hx with hx | hx
    · exact (h.name_byte hx).1
    · exact isSpace_ne_colon (h.afterName.property x hx)
  have hvalue : ∃ rawValue, cut isNewline ((h.beforeValue.val ++ (h.valueText ++ (h.afterValue.val ++ c :: t))).dropWhile isSpace) =
      some (rawValue, c :: t) ∧ trimSuffixSpaces rawValue = h.valueText := by
    rw [List.dropWhile_append_of_pos h.beforeValue.property]
    cases hv : h.valueText with
    | nil =>
      have hcsp : isSpace c = false := by
        cases hs : isSpace c with
        | false => rfl
        | true => rw [isNewline_of_isSpace hs] at hc; cases hc
      rw [List.nil_append, List.dropWhile_append_of_pos h.afterValue.property, List.dropWhile_cons, if_neg (by simp [hcsp])]
      exact ⟨[], cut_eq_some_iff.mpr ⟨rfl, by simp, c, t, rfl, hc⟩, rfl⟩
    | cons b u =>
      rw [List.cons_append, List.dropWhile_cons, if_neg (by simp [h.value_first b u hv])]
      refine ⟨b :: u ++ h.afterValue.val, cut_eq_some_iff.mpr ⟨by simp, fun x hx => ?_, c, t, rfl, hc⟩, ?_⟩
      · rcases List.mem_append.mp hx with hx | hx
        · exact h.value_line x (hv ▸ hx)
        · exact isNewline_of_isSpace (h.afterValue.property x hx)
      · obtain ⟨t', b', heq⟩ := (List.eq_nil_or_concat' _).resolve_left (List.cons_ne_nil b u)
        rw [heq]
        exact trimSuffixSpaces_append (h.value_last t' b' (hv.trans heq)) h.afterValue.property
  obtain ⟨rawValue, hcut, htrim⟩ := hvalue
  rw [headerLine_of_cuts hname hcut, h.trim_name, htrim, h.name_ok, h.value_ok]
  rfl

end HeaderText

/-- A complete header line is a written one. -/
theorem headerLine_text {buf rest : Bytes} {hd : http.HeaderName × http.HeaderValue}
    (h : headerLine http buf = some (.ok (hd, rest))) :
    ∃ (t : HeaderText http) (c : UInt8) (u : Bytes), buf = t.bytes ++ rest ∧ t.header = hd ∧ rest = c :: u ∧
      isNewline c = true := by
  obtain ⟨rawName, c, t, rawValue, rest', hname, hvalue⟩ := headerLine_eq_some h
  rw [headerLine_of_cuts hname hvalue] at h
  split at h
  · cases h
  · next name hn =>
    split at h
    · cases h
    · next value hv =>
      cases h
      obtain ⟨hbuf, -, c', t', heq, hc⟩ := cut_eq_some_iff.mp hname
      cases heq
      obtain rfl : c = 58 := by simpa using hc
      obtain ⟨hline, hval, c₂, u, rfl, hc₂⟩ := cut_eq_some_iff.mp hvalue
      -- Neither raw part starts with a space: they stand behind a `dropWhile`.
      have hfirstName : ∀ b s, rawName = b :: s → isSpace b = false := fun b s hb => by
        rw [hb, List.cons_append] at hbuf
        exact head_of_dropWhile hbuf
      have hfirstValue : ∀ b s, rawValue = b :: s → isSpace b = false := fun b s hb => by
        rw [hb, List.cons_append] at hline
        exact head_of_dropWhile hline
      obtain ⟨sp₂, hraw₂, -⟩ := trimSuffixSpaces_spec hfirstName
      obtain ⟨sp₄, hraw₄, hlast⟩ := trimSuffixSpaces_spec hfirstValue
      have hsub : ∀ b ∈ trimSuffixSpaces rawValue, b ∈ rawValue := fun b hb => by
        rw [hraw₄]
        exact List.mem_append_left _ hb
      refine ⟨{
        before := ⟨buf.takeWhile isSpace, fun b hb => List.mem_takeWhile_imp hb⟩
        nameText := trimSuffixSpaces rawName
        afterName := sp₂
        beforeValue := ⟨t.takeWhile isSpace, fun b hb => List.mem_takeWhile_imp hb⟩
        valueText := trimSuffixSpaces rawValue
        afterValue := sp₄
        name := name
        value := value
        name_ok := hn
        value_ok := hv
        value_line := fun b hb => hval b (hsub b hb)
        value_first := fun b s hb => hfirstValue b (s ++ sp₄.val) (by rw [hraw₄, hb]; rfl)
        value_last := hlast }, c₂, u, ?_, rfl, rfl, hc₂⟩
      calc buf = buf.takeWhile isSpace ++ buf.dropWhile isSpace := List.takeWhile_append_dropWhile.symm
        _ = buf.takeWhile isSpace ++ (rawName ++ 58 :: (t.takeWhile isSpace ++ (rawValue ++ c₂ :: u))) := by
          rw [hbuf, ← hline, List.takeWhile_append_dropWhile]
        _ = _ := by
          conv_lhs => rw [hraw₂, hraw₄]
          simp [HeaderText.bytes]

end HeaderText

/-! ## The header section -/

section Section
variable {http : HttpCrate} {P : Type} {move : P → Bytes → Move P UInt8 ParseError} {In : P → Prop}
  {add : P → http.HeaderName × http.HeaderValue → P} {fin : P → P} {p p' : P} {buf rest : Bytes}

theorem LineEnd.bytes_eq (e : LineEnd) : ∃ c t, e.bytes = c :: t ∧ isNewline c = true := by
  cases e
  · exact ⟨13, [10], rfl, rfl⟩
  · exact ⟨10, [], rfl, rfl⟩

theorem breakRun_optional (lineEnd : Option LineEnd) {t : Bytes} (ht : lineBreak t = none) :
    ¬2 ≤ (breakRun ((lineEnd.map LineEnd.bytes).getD [] ++ t)).1 ∧
      (breakRun ((lineEnd.map LineEnd.bytes).getD [] ++ t)).2 = t := by
  cases lineEnd with
  | none => simp [breakRun_of_none ht]
  | some e => simp [breakRun_lineEnd, breakRun_of_none ht]

/-- The header section ends at its empty line and leaves the body without the line breaks at its start. -/
theorem drains_section (hmove : ∀ p, In p → move p = headersMove http (add p) (fin p) p) (hadd : ∀ p h, In p → In (add p h))
    (p : P) (hp : In p) (lineEnd : Option LineEnd) (ls : HeaderLines http) (hls : lineEnd = none → ls ≠ []) (e : LineEnd)
    (body : Bytes) :
    Drains move p (sectionBytes lineEnd ls e ++ body) (.done (fin (ls.headers.foldl add p)) (breakRun body).2) := by
  induction ls generalizing p lineEnd with
  | nil =>
    obtain ⟨e', rfl⟩ : ∃ e', lineEnd = some e' := by
      cases lineEnd with
      | none => exact absurd rfl (hls rfl)
      | some e' => exact ⟨e', rfl⟩
    have hbytes : sectionBytes (some e') ([] : HeaderLines http) e ++ body = e'.bytes ++ (e.bytes ++ body) := by
      simp [sectionBytes, HeaderLines.bytes]
    have hstep : move p (e'.bytes ++ (e.bytes ++ body)) = .done (fin p) (breakRun body).2 := by
      rw [hmove p hp]
      unfold headersMove
      simp [breakRun_lineEnd]
    rw [hbytes]
    obtain ⟨c, t, hc, -⟩ := e'.bytes_eq
    have hne : e'.bytes ++ (e.bytes ++ body) ≠ [] := by simp [hc]
    exact hstep ▸ .stop hne (by rw [hstep]; rfl)
  | cons l ls ih =>
    obtain ⟨h, e'⟩ := l
    have hbytes : sectionBytes lineEnd ((h, e') :: ls) e ++ body =
        (lineEnd.map LineEnd.bytes).getD [] ++ (h.bytes ++ (sectionBytes (some e') ls e ++ body)) := by
      simp [sectionBytes, HeaderLines.bytes]
    obtain ⟨c, t, hc, hnl⟩ := e'.bytes_eq
    have hline : headerLine http (h.bytes ++ (sectionBytes (some e') ls e ++ body)) =
        some (.ok (h.header, sectionBytes (some e') ls e ++ body)) := by
      have : sectionBytes (some e') ls e ++ body = c :: (t ++ (HeaderLines.bytes ls ++ e.bytes) ++ body) := by
        simp [sectionBytes, hc]
      rw [this]
      exact h.headerLine_bytes hnl
    obtain ⟨hlt, hrest⟩ := breakRun_optional lineEnd (h.lineBreak_bytes (sectionBytes (some e') ls e ++ body))
    have hstep : move p ((lineEnd.map LineEnd.bytes).getD [] ++ (h.bytes ++ (sectionBytes (some e') ls e ++ body))) =
        .go (add p h.header) (sectionBytes (some e') ls e ++ body) := by
      rw [hmove p hp]
      exact headersMove_go_iff.mpr ⟨hlt, h.header, by rw [hrest]; exact hline, rfl⟩
    rw [hbytes]
    exact .go (by simp [h.bytes_ne_nil]) hstep (ih _ (hadd p _ hp) (some e') (by simp))

/-- Two line breaks at the start. -/
theorem two_breaks (h : 2 ≤ (breakRun buf).1) :
    ∃ (e₁ e₂ : LineEnd) (body : Bytes), buf = e₁.bytes ++ (e₂.bytes ++ body) ∧ (breakRun buf).2 = (breakRun body).2 := by
  cases h₁ : lineBreak buf with
  | none => simp [breakRun_of_none h₁] at h
  | some t =>
    cases h₂ : lineBreak t with
    | none => simp [breakRun_of_some h₁, breakRun_of_none h₂] at h
    | some body =>
      obtain ⟨e₁, rfl⟩ := lineBreak_eq_some_iff.mp h₁
      obtain ⟨e₂, rfl⟩ := lineBreak_eq_some_iff.mp h₂
      exact ⟨e₁, e₂, body, rfl, by simp [breakRun_lineEnd]⟩

/-- Less than two line breaks at the start. -/
theorem optional_break (h : ¬2 ≤ (breakRun buf).1) :
    ∃ lineEnd : Option LineEnd, buf = (lineEnd.map LineEnd.bytes).getD [] ++ (breakRun buf).2 := by
  cases h₁ : lineBreak buf with
  | none => exact ⟨none, by simp [breakRun_of_none h₁]⟩
  | some t =>
    cases h₂ : lineBreak t with
    | none =>
      obtain ⟨e, rfl⟩ := lineBreak_eq_some_iff.mp h₁
      exact ⟨some e, by simp [breakRun_lineEnd, breakRun_of_none h₂]⟩
    | some body => simp [breakRun_of_some h₁, breakRun_of_some h₂] at h

theorem sectionBytes_cons (e' : LineEnd) (ls : HeaderLines http) (e : LineEnd) (body : Bytes) :
    ∃ c t, sectionBytes (some e') ls e ++ body = c :: t ∧ isNewline c = true := by
  obtain ⟨c, t, hc, hnl⟩ := e'.bytes_eq
  exact ⟨c, t ++ (ls.bytes ++ e.bytes) ++ body, by simp [sectionBytes, hc], hnl⟩

/-- A section that starts with a CR or LF starts with a line break: header lines do not. -/
theorem lineEnd_of_newline {lineEnd : Option LineEnd} {ls : HeaderLines http} {e : LineEnd} {body t : Bytes} {c : UInt8}
    (hls : lineEnd = none → ls ≠ []) (h : sectionBytes lineEnd ls e ++ body = c :: t) (hc : isNewline c = true) :
    ∃ e', lineEnd = some e' := by
  cases lineEnd with
  | some e' => exact ⟨e', rfl⟩
  | none =>
    cases ls with
    | nil => exact absurd rfl (hls rfl)
    | cons l ls =>
      obtain ⟨b, v, hb⟩ := List.exists_cons_of_ne_nil l.1.bytes_ne_nil
      simp only [sectionBytes, HeaderLines.bytes, Option.map_none, Option.getD_none, List.flatMap_cons, hb,
        List.cons_append, List.nil_append, List.cons.injEq] at h
      rw [← h.1, l.1.bytes_line b (hb ▸ List.mem_cons_self)] at hc
      cases hc

/-- A buffer that drains to the end of a header section starts with one. -/
theorem section_of_drains (hmove : ∀ p, In p → move p = headersMove http (add p) (fin p) p)
    (hadd : ∀ p h, In p → In (add p h)) (hp : In p) (h : Drains move p buf (.done p' rest)) :
    ∃ lineEnd, ∃ ls : HeaderLines http, ∃ e body, (lineEnd = none → ls ≠ []) ∧
      buf = sectionBytes lineEnd ls e ++ body ∧ p' = fin (ls.headers.foldl add p) ∧ rest = (breakRun body).2 := by
  generalize hd : Move.done p' rest = d at h
  induction h with
  | empty => cases hd
  | @stop p buf hne hgo =>
    rw [hmove p hp] at hd
    unfold headersMove at hd
    split at hd
    · next h2 =>
      cases hd
      obtain ⟨e₁, e₂, body, hbuf, hrest⟩ := two_breaks h2
      exact ⟨some e₁, [], e₂, body, by simp, by simp [sectionBytes, HeaderLines.bytes, hbuf], rfl, hrest⟩
    · split at hd <;> cases hd
  | @go p p₁ buf rest₁ d hne hs hd' ih =>
    rw [hmove p hp] at hs
    obtain ⟨h2, hdr, hl, rfl⟩ := headersMove_go_iff.mp hs
    obtain ⟨t, c, u, hline, hheader, rfl, hc⟩ := headerLine_text hl
    obtain ⟨lineEnd', ls, e, body, hls, hrest, hp', hbody⟩ := ih (hadd p _ hp) hd
    -- The line is followed by a CR or LF, so the lines behind it start with its line break.
    obtain ⟨e', rfl⟩ := lineEnd_of_newline hls hrest.symm hc
    obtain ⟨lineEnd, hbuf⟩ := optional_break h2
    refine ⟨lineEnd, (t, e') :: ls, e, body, by simp, ?_, ?_, hbody⟩
    · rw [hbuf, hline, hrest]
      simp [sectionBytes, HeaderLines.bytes]
    · rw [hp', ← hheader]
      rfl

end Section

/-! ## The fields of the first line -/

section Fields
variable {σ α : Type} {s s' : σ} {buf rest : Bytes} {ofBytes : Bytes → Option α} {empty invalid : ParseError} {add : α → σ}

/-- A token is cut off at the byte behind it. -/
theorem cut_token (sp : Spaces) (tok : TokenText ofBytes) {c : UInt8} {t : Bytes} (hc : (isSpace c || isNewline c) = true) :
    cut (fun c => isSpace c || isNewline c) ((sp.val ++ (tok.text ++ c :: t)).dropWhile isSpace) = some (tok.text, c :: t) := by
  have hdrop : (sp.val ++ (tok.text ++ c :: t)).dropWhile isSpace = tok.text ++ c :: t := by
    obtain ⟨b, u, hb⟩ := List.exists_cons_of_ne_nil tok.ne_nil
    rw [List.dropWhile_append_of_pos sp.property, hb, List.cons_append, List.dropWhile_cons,
      if_neg (by simp [(tok.token b (hb ▸ List.mem_cons_self)).1])]
  rw [hdrop]
  exact cut_eq_some_iff.mpr ⟨rfl, fun x hx => by simp [tok.token x hx], c, t, rfl, hc⟩

theorem tokenMove_text (sp : Spaces) (tok : TokenText ofBytes) {c : UInt8} {t : Bytes}
    (hc : (isSpace c || isNewline c) = true) :
    tokenMove ofBytes empty invalid add s (sp.val ++ (tok.text ++ c :: t)) = .go (add tok.value) (c :: t) := by
  unfold tokenMove
  rw [cut_token sp tok hc]
  simp only [tok.ne_nil, if_false, tok.ok]

theorem text_of_tokenMove (h : tokenMove ofBytes empty invalid add s buf = .go s' rest) :
    ∃ (sp : Spaces) (tok : TokenText ofBytes) (c : UInt8) (t : Bytes), buf = sp.val ++ (tok.text ++ rest) ∧
      s' = add tok.value ∧ rest = c :: t ∧ (isSpace c || isNewline c) = true := by
  unfold tokenMove at h
  split at h
  · cases h
  · next token rest' hcut =>
    obtain ⟨hbuf, htok, c, t, rfl, hc⟩ := cut_eq_some_iff.mp hcut
    split at h
    · cases h
    · next hne =>
      split at h
      · cases h
      · next a ha =>
        cases h
        refine ⟨⟨buf.takeWhile isSpace, fun b hb => List.mem_takeWhile_imp hb⟩,
          ⟨token, a, hne, fun b hb => by simpa using htok b hb, ha⟩, c, t, ?_, rfl, rfl, hc⟩
        dsimp only
        rw [← hbuf, List.takeWhile_append_dropWhile]

/-- The spaces before a field are skipped. -/
theorem dropWhile_field (sp : Spaces) {line : Bytes} (hfirst : ∀ b u, line = b :: u → isSpace b = false) :
    (sp.val ++ line).dropWhile isSpace = line := by
  rw [List.dropWhile_append_of_pos sp.property]
  cases line with
  | nil => rfl
  | cons b u => rw [List.dropWhile_cons, if_neg (by simp [hfirst b u rfl])]

theorem fieldMove_text {n : Nat} (sp : Spaces) {text t : Bytes} {a : α} (hlen : text.length = n)
    (hfirst : ∀ b u, text ++ t = b :: u → isSpace b = false) (ha : ofBytes text = some a) :
    fieldMove n ofBytes invalid add s (sp.val ++ (text ++ t)) = .go (add a) t := by
  unfold fieldMove
  rw [dropWhile_field sp hfirst, if_pos (by simp [← hlen]), ← hlen, List.take_left, List.drop_left, ha]

theorem text_of_fieldMove {n : Nat} (h : fieldMove n ofBytes invalid add s buf = .go s' rest) :
    ∃ (sp : Spaces) (text : Bytes) (a : α), buf = sp.val ++ (text ++ rest) ∧ text.length = n ∧ ofBytes text = some a ∧
      s' = add a := by
  unfold fieldMove at h
  split at h
  · next hle =>
    split at h
    · cases h
    · next a ha =>
      cases h
      refine ⟨⟨buf.takeWhile isSpace, fun b hb => List.mem_takeWhile_imp hb⟩, _, a, ?_, ?_, ha, rfl⟩
      · dsimp only
        rw [List.take_append_drop, List.takeWhile_append_dropWhile]
      · rw [List.length_take]
        omega
  · cases h

theorem Version.ofBytes_eq_some_iff {bs : Bytes} {v : Version} : Version.ofBytes bs = some v ↔ bs = v.text := by
  constructor
  · intro h
    have := List.find?_some h
    simpa using this
  · rintro rfl
    cases v <;> rfl

theorem Version.length_text (v : Version) : v.text.length = 8 := by cases v <;> rfl

theorem Version.text_byte (v : Version) : ∀ b ∈ v.text, isSpace b = false ∧ isNewline b = false := by
  cases v <;> simp [Version.text, isSpace, isNewline]

/-- The run of spaces before a field is not empty when the byte before the field ended the last one. -/
theorem gap_ne_nil {sp : Spaces} {text t u : Bytes} {c : UInt8} (h : c :: t = sp.val ++ (text ++ u))
    (hc : (isSpace c || isNewline c) = true) (hne : text ≠ []) (htext : ∀ b ∈ text, isSpace b = false ∧ isNewline b = false) :
    sp.val ≠ [] := by
  intro hnil
  obtain ⟨b, v, rfl⟩ := List.exists_cons_of_ne_nil hne
  rw [hnil, List.nil_append, List.cons_append, List.cons.injEq] at h
  obtain ⟨h₁, h₂⟩ := htext b List.mem_cons_self
  rw [h.1, h₁, h₂] at hc
  cases hc

theorem gap_cons {sp : Spaces} (h : sp.val ≠ []) (u : Bytes) :
    ∃ c t, sp.val ++ u = c :: t ∧ (isSpace c || isNewline c) = true := by
  obtain ⟨c, t, hc⟩ := List.exists_cons_of_ne_nil h
  exact ⟨c, t ++ u, by rw [hc]; rfl, by simp [sp.property c (hc ▸ List.mem_cons_self)]⟩

theorem Version.cons (v : Version) (u : Bytes) : ∀ b t, v.text ++ u = b :: t → isSpace b = false := by
  intro b t h
  obtain ⟨c, w, hc⟩ : ∃ c w, v.text = c :: w := by cases v <;> exact ⟨_, _, rfl⟩
  rw [hc, List.cons_append, List.cons.injEq] at h
  exact h.1 ▸ (v.text_byte c (hc ▸ List.mem_cons_self)).1

end Fields

/-! ## Requests -/

section Requests
variable {http : HttpCrate}

/-- The builder after the first line of a head. -/
def RequestHead.line (h : RequestHead http) : http.request.Builder :=
  http.request.version (http.request.uri (http.request.method http.request.new h.method.value) h.uri.value) h.version

/-- What the parser has set after a head. -/
def RequestHead.requester (h : RequestHead http) : Requester http :=
  ⟨.finished, some (h.lines.headers.foldl http.request.header h.line)⟩

namespace Requester

theorem foldl_addHeader {hs : List (http.HeaderName × http.HeaderValue)} {b : http.request.Builder} :
    hs.foldl addHeader ⟨.headers, some b⟩ = ⟨.headers, some (hs.foldl http.request.header b)⟩ := by
  induction hs generalizing b with
  | nil => rfl
  | cons h hs ih => exact ih

theorem move_headers (r : Requester http) (h : r.state = .headers) :
    r.move = headersMove http r.addHeader r.nextState r := by
  funext buf
  simp only [move, h]

theorem drains_head (h : RequestHead http) (body : Bytes) :
    Drains move (new http) (h.bytes ++ body) (.done h.requester (breakRun body).2) := by
  have hsection := drains_section move_headers (fun _ _ _ => rfl) ⟨.headers, some h.line⟩ rfl h.lineEnd h.lines h.lines_ne_nil
    h.emptyLine body
  rw [foldl_addHeader] at hsection
  simp only [RequestHead.bytes, List.append_assoc]
  generalize sectionBytes h.lineEnd h.lines h.emptyLine ++ body = text at hsection
  obtain ⟨c₁, t₁, h₁, hc₁⟩ := gap_cons h.gap₁_ne_nil (h.uri.text ++ (h.gap₂.val ++ (h.version.text ++ text)))
  obtain ⟨c₂, t₂, h₂, hc₂⟩ := gap_cons h.gap₂_ne_nil (h.version.text ++ text)
  -- Method, URI and version, each up to the space behind it.
  have hmethod : (new http).move (h.before.val ++ (h.method.text ++ (h.gap₁.val ++ (h.uri.text ++ (h.gap₂.val ++
      (h.version.text ++ text)))))) = .go ⟨.uri, some (http.request.method http.request.new h.method.value)⟩
        (h.gap₁.val ++ (h.uri.text ++ (h.gap₂.val ++ (h.version.text ++ text)))) := by
    rw [h₁]
    exact tokenMove_text h.before h.method hc₁
  have huri : move ⟨.uri, some (http.request.method http.request.new h.method.value)⟩ (h.gap₁.val ++ (h.uri.text ++
      (h.gap₂.val ++ (h.version.text ++ text)))) =
        .go ⟨.version, some (http.request.uri (http.request.method http.request.new h.method.value) h.uri.value)⟩
        (h.gap₂.val ++ (h.version.text ++ text)) := by
    rw [h₂]
    exact tokenMove_text h.gap₁ h.uri hc₂
  have hversion : move ⟨.version, some (http.request.uri (http.request.method http.request.new h.method.value) h.uri.value)⟩
      (h.gap₂.val ++ (h.version.text ++ text)) = .go ⟨.headers, some h.line⟩ text :=
    fieldMove_text h.gap₂ h.version.length_text (h.version.cons text) (Version.ofBytes_eq_some_iff.mpr rfl)
  exact .go (by simp [h.method.ne_nil]) hmethod (.go (by simp [h.uri.ne_nil]) huri
    (.go (by simp [h.gap₂_ne_nil]) hversion hsection))

theorem head_of_drains {buf rest : Bytes} {r : Requester http} (h : Drains move (new http) buf (.done r rest)) :
    ∃ (hd : RequestHead http) (body : Bytes), buf = hd.bytes ++ body ∧ r = hd.requester ∧ rest = (breakRun body).2 := by
  generalize hm : Move.done r rest = m at h
  cases h with
  | empty => cases hm
  | stop => exact absurd hm.symm tokenMove_done
  | go _ hs₁ h =>
  obtain ⟨sp₁, method, c₁, t₁, rfl, rfl, rfl, hc₁⟩ := text_of_tokenMove hs₁
  cases h with
  | stop => exact absurd hm.symm tokenMove_done
  | go _ hs₂ h =>
  obtain ⟨sp₂, uri, c₂, t₂, hbuf₂, rfl, rfl, hc₂⟩ := text_of_tokenMove hs₂
  cases h with
  | stop => exact absurd hm.symm fieldMove_done
  | go _ hs₃ h =>
  obtain ⟨sp₃, text, v, hbuf₃, -, hv, rfl⟩ := text_of_fieldMove hs₃
  obtain rfl := Version.ofBytes_eq_some_iff.mp hv
  subst hm
  obtain ⟨lineEnd, ls, e, body, hls, rfl, hr, hrest⟩ := section_of_drains move_headers (fun _ _ _ => rfl) rfl h
  have hne : v.text ≠ [] := by cases v <;> simp [Version.text]
  have hgap₁ := gap_ne_nil hbuf₂ hc₁ uri.ne_nil uri.token
  have hgap₂ := gap_ne_nil hbuf₃ hc₂ hne v.text_byte
  rw [hbuf₃] at hbuf₂
  rw [hbuf₂]
  refine ⟨⟨sp₁, method, sp₂, uri, sp₃, v, lineEnd, ls, e, hgap₁, hgap₂, hls⟩, body, ?_, ?_, hrest⟩
  · simp [RequestHead.bytes]
  · rw [hr]
    exact congrArg nextState foldl_addHeader

/-- The buffers that drain to the end of a head are those that start with the text of one. -/
theorem drains_done_iff {buf : Bytes} :
    (∃ r rest, Drains move (new http) buf (.done r rest)) ↔ ∃ (h : RequestHead http) (body : Bytes), buf = h.bytes ++ body := by
  constructor
  · rintro ⟨r, rest, h⟩
    obtain ⟨hd, body, hbuf, -, -⟩ := head_of_drains h
    exact ⟨hd, body, hbuf⟩
  · rintro ⟨h, body, rfl⟩
    exact ⟨_, _, drains_head h body⟩

end Requester

end Requests

/-! ## Responses -/

section Responses
variable {http : HttpCrate}

def ResponseHead.line (h : ResponseHead http) : http.response.Builder :=
  http.response.status (http.response.version http.response.new h.version) h.status

/-- The reason without the spaces at its start, which the parser skips. -/
def ResponseHead.responser (h : ResponseHead http) : Responser http :=
  ⟨.finished, some (h.lines.headers.foldl http.response.header h.line), some (h.reason.dropWhile isSpace)⟩

namespace Responser

theorem foldl_addHeader {hs : List (http.HeaderName × http.HeaderValue)} {b : http.response.Builder} {reason : Option Bytes} :
    hs.foldl addHeader ⟨.headers, some b, reason⟩ = ⟨.headers, some (hs.foldl http.response.header b), reason⟩ := by
  induction hs generalizing b with
  | nil => rfl
  | cons h hs ih => exact ih

theorem move_headers (r : Responser http) (h : r.state = .headers) :
    r.move = headersMove http r.addHeader r.nextState r := by
  funext buf
  simp only [move, h]

theorem status_byte {bs : Bytes} {c : http.StatusCode} (h : http.statusFromBytes bs = some c) :
    ∀ b ∈ bs, isSpace b = false ∧ isNewline b = false := by
  intro b hb
  obtain ⟨h48, -⟩ := http.status_digits h b hb
  have hne : ∀ c : UInt8, c < 48 → b ≠ c := fun c hc hbc => by
    rw [hbc] at h48
    exact absurd hc (UInt8.not_lt.mpr h48)
  simp [isSpace, isNewline, hne 32 (by decide), hne 9 (by decide), hne 13 (by decide), hne 10 (by decide)]

theorem reason_go_iff {r r' : Responser http} {buf rest : Bytes} (hr : r.state = .reason) :
    r.move buf = .go r' rest ↔
      ∃ raw, cut isNewline (buf.dropWhile isSpace) = some (raw, rest) ∧ r' = (r.setReason raw).nextState := by
  simp only [move, hr]
  split
  · next h => simp [h]
  · next raw rest' h =>
    rw [h]
    constructor
    · intro hgo
      cases hgo
      exact ⟨raw, rfl, rfl⟩
    · rintro ⟨raw', heq, rfl⟩
      cases heq
      rfl

theorem reason_not_done {r r' : Responser http} {buf rest : Bytes} (hr : r.state = .reason) :
    r.move buf ≠ .done r' rest := by
  simp only [move, hr]
  split <;> simp

theorem cut_reason {reason : Bytes} (hreason : ∀ b ∈ reason, isNewline b = false) {c : UInt8} {t : Bytes}
    (hc : isNewline c = true) :
    cut isNewline ((reason ++ c :: t).dropWhile isSpace) = some (reason.dropWhile isSpace, c :: t) := by
  have hdrop : (reason ++ c :: t).dropWhile isSpace = reason.dropWhile isSpace ++ c :: t := by
    rw [List.dropWhile_append]
    split
    · next hnil =>
      have hcsp : isSpace c = false := by
        cases hs : isSpace c with
        | false => rfl
        | true => rw [isNewline_of_isSpace hs] at hc; cases hc
      rw [List.dropWhile_cons, if_neg (by simp [hcsp]), List.isEmpty_iff.mp hnil]
      rfl
    · rfl
  rw [hdrop]
  exact cut_eq_some_iff.mpr ⟨rfl, fun b hb => hreason b ((List.dropWhile_sublist _).subset hb), c, t, rfl, hc⟩

/-- A status does not start with a space. -/
theorem status_cons (h : ResponseHead http) (u : Bytes) : ∀ b t, h.statusText ++ u = b :: t → isSpace b = false := by
  intro b t hb
  have hstatus : h.statusText ≠ [] := List.ne_nil_of_length_pos (by rw [h.status_length]; decide)
  obtain ⟨d, w, hd⟩ := List.exists_cons_of_ne_nil hstatus
  rw [hd, List.cons_append, List.cons.injEq] at hb
  exact hb.1 ▸ (status_byte h.status_ok d (hd ▸ List.mem_cons_self)).1

theorem drains_head (h : ResponseHead http) (body : Bytes) :
    Drains move (new http) (h.bytes ++ body) (.done h.responser (breakRun body).2) := by
  have hsection := drains_section move_headers (fun _ _ _ => rfl) ⟨.headers, some h.line, some (h.reason.dropWhile isSpace)⟩
    rfl (some h.lineEnd) h.lines (by simp) h.emptyLine body
  rw [foldl_addHeader] at hsection
  obtain ⟨c, t, hc, hnl⟩ := sectionBytes_cons h.lineEnd h.lines h.emptyLine body
  simp only [ResponseHead.bytes, List.append_assoc]
  generalize sectionBytes (some h.lineEnd) h.lines h.emptyLine ++ body = text at hsection hc
  have hstatus : h.statusText ≠ [] := List.ne_nil_of_length_pos (by rw [h.status_length]; decide)
  have hversion : (new http).move (h.before.val ++ (h.version.text ++ (h.gap.val ++ (h.statusText ++ (h.reason ++ text))))) =
      .go ⟨.statusCode, some (http.response.version http.response.new h.version), some []⟩
        (h.gap.val ++ (h.statusText ++ (h.reason ++ text))) :=
    fieldMove_text h.before h.version.length_text (h.version.cons _) (Version.ofBytes_eq_some_iff.mpr rfl)
  have hcode : move ⟨.statusCode, some (http.response.version http.response.new h.version), some []⟩ (h.gap.val ++
      (h.statusText ++ (h.reason ++ text))) = .go ⟨.reason, some h.line, some []⟩ (h.reason ++ text) :=
    fieldMove_text h.gap h.status_length (status_cons h _) h.status_ok
  have hreason : move ⟨.reason, some h.line, some []⟩ (h.reason ++ text) =
      .go ⟨.headers, some h.line, some (h.reason.dropWhile isSpace)⟩ text := by
    simp only [move, hc, cut_reason h.reason_line hnl]
    rfl
  exact .go (by cases h.version <;> simp [Version.text]) hversion (.go (by simp [hstatus]) hcode
    (.go (by simp [hc]) hreason hsection))

/-- A reason that was taken, with the spaces before it. -/
theorem text_of_reason {buf raw rest : Bytes} (h : cut isNewline (buf.dropWhile isSpace) = some (raw, rest)) :
    ∃ (reason : Bytes) (c : UInt8) (t : Bytes), buf = reason ++ rest ∧ (∀ b ∈ reason, isNewline b = false) ∧
      reason.dropWhile isSpace = raw ∧ rest = c :: t ∧ isNewline c = true := by
  obtain ⟨hbuf, hraw, c, t, rfl, hc⟩ := cut_eq_some_iff.mp h
  refine ⟨buf.takeWhile isSpace ++ raw, c, t, ?_, fun b hb => ?_, ?_, rfl, hc⟩
  · rw [List.append_assoc, ← hbuf, List.takeWhile_append_dropWhile]
  · rcases List.mem_append.mp hb with hb | hb
    · exact isNewline_of_isSpace (List.mem_takeWhile_imp hb)
    · exact hraw b hb
  · rw [List.dropWhile_append_of_pos fun b hb => List.mem_takeWhile_imp hb]
    cases raw with
    | nil => rfl
    | cons b u =>
      rw [List.cons_append] at hbuf
      rw [List.dropWhile_cons, if_neg (by simp [head_of_dropWhile hbuf])]

theorem head_of_drains {buf rest : Bytes} {r : Responser http} (h : Drains move (new http) buf (.done r rest)) :
    ∃ (hd : ResponseHead http) (body : Bytes), buf = hd.bytes ++ body ∧ r = hd.responser ∧ rest = (breakRun body).2 := by
  generalize hm : Move.done r rest = m at h
  cases h with
  | empty => cases hm
  | stop => exact absurd hm.symm fieldMove_done
  | @go _ _ _ buf₁ _ _ hs₁ h =>
  obtain ⟨sp₁, text, v, rfl, -, hv, rfl⟩ := text_of_fieldMove hs₁
  obtain rfl := Version.ofBytes_eq_some_iff.mp hv
  cases h with
  | empty => cases hm
  | stop => exact absurd hm.symm fieldMove_done
  | @go _ _ _ buf₂ _ _ hs₂ h =>
  obtain ⟨sp₂, status, code, rfl, hlen, hok, rfl⟩ := text_of_fieldMove hs₂
  cases h with
  | empty => cases hm
  | stop => exact absurd hm.symm (reason_not_done rfl)
  | @go _ _ _ buf₃ _ _ hs₃ h =>
  obtain ⟨raw, hcut, rfl⟩ := (reason_go_iff rfl).mp hs₃
  obtain ⟨reason, c, t, rfl, hreason, rfl, hbuf₃, hc⟩ := text_of_reason hcut
  subst hm
  obtain ⟨lineEnd, ls, e, body, hls, hsection, hr, hrest⟩ := section_of_drains move_headers (fun _ _ _ => rfl) rfl h
  -- The reason ends at a CR or LF, so the section starts with a line break.
  obtain ⟨e', rfl⟩ := lineEnd_of_newline hls (hsection.symm.trans hbuf₃) hc
  subst hsection
  refine ⟨⟨sp₁, v, sp₂, status, code, reason, e', ls, e, hlen, hok, hreason⟩, body, ?_, ?_, hrest⟩
  · simp [ResponseHead.bytes]
  · rw [hr]
    exact congrArg nextState foldl_addHeader

/-- The buffers that drain to the end of a head are those that start with the text of one. -/
theorem drains_done_iff {buf : Bytes} :
    (∃ r rest, Drains move (new http) buf (.done r rest)) ↔ ∃ (h : ResponseHead http) (body : Bytes), buf = h.bytes ++ body := by
  constructor
  · rintro ⟨r, rest, h⟩
    obtain ⟨hd, body, hbuf, -, -⟩ := head_of_drains h
    exact ⟨hd, body, hbuf⟩
  · rintro ⟨h, body, rfl⟩
    exact ⟨_, _, drains_head h body⟩

end Responser

end Responses

end Hala.Http
