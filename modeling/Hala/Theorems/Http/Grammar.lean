import Hala.Theorems.Http.RoundTrip

/-! Which of the accepted heads are well formed.

The parsers look for the end of a token, but not at the byte behind a field of fixed length, and they take line breaks
behind the empty line. What they consume is a well-formed head exactly when the input has the right bytes there
(`consumed_wellFormed_iff`). -/

namespace Hala.Http
open Io Incremental Scan

/-! ## Behind the fields of a written head -/

section Fields
variable {http : HttpCrate} {α : Type} {ofBytes : Bytes → Option α}

theorem startsWith_cons {p : UInt8 → Bool} {b : UInt8} {t : Bytes} : startsWith p (b :: t) = p b := rfl

theorem skipToken_text (sp : Spaces) (tok : TokenText ofBytes) {gap : Spaces} (hgap : gap.val ≠ []) (t : Bytes) :
    skipToken (sp.val ++ (tok.text ++ (gap.val ++ t))) = gap.val ++ t := by
  obtain ⟨c, u, hc, hsp⟩ := gap_cons hgap t
  rw [hc]
  simp [skipToken, cut_token sp tok hsp]

theorem skipField_text {n : Nat} (sp : Spaces) {text t : Bytes} (hlen : text.length = n)
    (hfirst : ∀ b u, text ++ t = b :: u → isSpace b = false) : skipField n (sp.val ++ (text ++ t)) = t := by
  rw [skipField, dropWhile_field sp hfirst, ← hlen, List.drop_left]

/-- Behind the version of a written request stands its header section. -/
theorem RequestHead.skip_version (h : RequestHead http) (body : Bytes) :
    skipField 8 (skipToken (skipToken (h.bytes ++ body))) = sectionBytes h.lineEnd h.lines h.emptyLine ++ body := by
  simp only [bytes, List.append_assoc]
  rw [skipToken_text h.before h.method h.gap₁_ne_nil, skipToken_text h.gap₁ h.uri h.gap₂_ne_nil]
  exact skipField_text h.gap₂ h.version.length_text (h.version.cons _)

theorem ResponseHead.skip_version (h : ResponseHead http) (body : Bytes) :
    skipField 8 (h.bytes ++ body) =
      h.gap.val ++ (h.statusText ++ (h.reason ++ (sectionBytes (some h.lineEnd) h.lines h.emptyLine ++ body))) := by
  simp only [bytes, List.append_assoc]
  exact skipField_text h.before h.version.length_text (h.version.cons _)

theorem ResponseHead.skip_status (h : ResponseHead http) (body : Bytes) :
    skipField 3 (skipField 8 (h.bytes ++ body)) =
      h.reason ++ (sectionBytes (some h.lineEnd) h.lines h.emptyLine ++ body) := by
  rw [h.skip_version]
  exact skipField_text h.gap h.status_length (Responser.status_cons h _)

end Fields

/-! ## Well-formed heads -/

section WellFormed
variable {http : HttpCrate}

theorem RequestHead.wellFormed_iff (h : RequestHead http) (body : Bytes) :
    h.WellFormed ↔ requestDelimited (h.bytes ++ body) = true := by
  rw [requestDelimited, h.skip_version]
  constructor
  · intro hwf
    obtain ⟨e, he⟩ := Option.ne_none_iff_exists'.mp hwf
    obtain ⟨c, t, hc, hnl⟩ := sectionBytes_cons e h.lines h.emptyLine body
    rw [he, hc]
    exact hnl
  · intro hnl hnone
    -- Without a line end the section starts with the first header line.
    cases hsection : sectionBytes h.lineEnd h.lines h.emptyLine ++ body with
    | nil =>
      rw [hsection] at hnl
      cases hnl
    | cons c t =>
      rw [hsection, startsWith_cons] at hnl
      obtain ⟨e, he⟩ := lineEnd_of_newline h.lines_ne_nil hsection hnl
      rw [hnone] at he
      cases he

/-- Text that starts with a space starts with the run of spaces before it. -/
theorem startsWith_gap {gap : Spaces} {line : Bytes} (hfirst : ∀ b t, line = b :: t → isSpace b = false) :
    startsWith isSpace (gap.val ++ line) = true ↔ gap.val ≠ [] := by
  cases hgap : gap.val with
  | nil =>
    cases line with
    | nil => simp [startsWith]
    | cons b t => simp [startsWith, hfirst b t rfl]
  | cons c t =>
    have hc : isSpace c = true := gap.property c (hgap ▸ List.mem_cons_self)
    simp [startsWith, hc]

theorem ResponseHead.wellFormed_iff (h : ResponseHead http) (body : Bytes) :
    h.WellFormed ↔ responseDelimited (h.bytes ++ body) = true := by
  obtain ⟨c, t, hc, hnl⟩ := sectionBytes_cons h.lineEnd h.lines h.emptyLine body
  have hbefore : startsWith isSpace (h.bytes ++ body) = true ↔ h.before.val ≠ [] := by
    simp only [bytes, List.append_assoc]
    exact startsWith_gap (h.version.cons _)
  have hgap : startsWith isSpace (skipField 8 (h.bytes ++ body)) = true ↔ h.gap.val ≠ [] := by
    rw [h.skip_version]
    exact startsWith_gap (Responser.status_cons h _)
  have hreason : startsWith (fun b => isSpace b || isNewline b) (skipField 3 (skipField 8 (h.bytes ++ body))) = true ↔
      ∀ b t, h.reason = b :: t → isSpace b = true := by
    rw [h.skip_status, hc]
    cases hr : h.reason with
    | nil => simp [startsWith, hnl]
    | cons b u =>
      have hb : isNewline b = false := h.reason_line b (hr ▸ List.mem_cons_self)
      simp [startsWith, hb]
  simp only [responseDelimited, Bool.and_eq_true, Bool.not_eq_true', ← Bool.not_eq_true, hbefore, hgap, hreason, not_not]
  constructor
  · intro hwf
    exact ⟨⟨hwf.before_nil, hwf.gap_ne_nil⟩, hwf.reason_space⟩
  · intro hall
    exact ⟨hall.1.1, hall.1.2, hall.2⟩

end WellFormed

/-! ## What an accepted input consumes -/

section Accepted
variable {H : Type} {text : H → Bytes} {input rest : Bytes}

/-- No line break follows the first empty line. -/
def bodyDelimited (input : Bytes) : Bool := ((afterEmptyLine input).bind lineBreak).isNone

/-- Of the heads that an input starts with all are well formed, or none: `delimited` tells. The bytes that are left, the
    body without the line breaks at its start, follow one of them when there are no such line breaks. -/
theorem consumed_iff {wellFormed : H → Prop} {delimited : Bytes → Bool} {hd : H} {body : Bytes}
    (hbody : ∀ h body, afterEmptyLine (text h ++ body) = some body)
    (hwf : ∀ h body, wellFormed h ↔ delimited (text h ++ body) = true)
    (hinput : input = text hd ++ body) (hrest : rest = (breakRun body).2) :
    (∃ h, wellFormed h ∧ input = text h ++ rest) ↔ (delimited input && bodyDelimited input) = true := by
  have hnone : bodyDelimited input = true ↔ lineBreak body = none := by
    rw [bodyDelimited, hinput, hbody]
    exact Option.isNone_iff_eq_none
  rw [Bool.and_eq_true, hnone]
  constructor
  · rintro ⟨h, hh, heq⟩
    have hsame : body = rest := by
      have := hbody hd body
      rw [← hinput, heq, hbody] at this
      exact (Option.some.inj this).symm
    refine ⟨heq ▸ (hwf h rest).mp hh, breakRun_eq_self_iff.mp ?_⟩
    rw [← hrest, hsame]
  · rintro ⟨hdel, hbreak⟩
    refine ⟨hd, (hwf hd body).mpr (hinput ▸ hdel), ?_⟩
    rw [hrest, breakRun_eq_self_iff.mpr hbreak, hinput]

end Accepted

/-- What is consumed of an accepted input that one read brought, that is the input without the bytes that are left for the
    body, is a well-formed head exactly when no line break follows its first empty line and the right bytes follow its
    fields of fixed length. -/
theorem consumed_wellFormed_iff (http : HttpCrate) (grow : Growth) (config : Config) (input : Bytes) (fault : Option ErrorKind)
    (hread : input.length ≤ firstRead config) :
    (∀ r, Requester.parse http grow config ⟨[input], fault⟩ = .ok r →
      ((∃ h : RequestHead http, h.WellFormed ∧ input = h.bytes ++ r.body.bytes) ↔
        (requestDelimited input && bodyDelimited input) = true)) ∧
    ∀ r, Responser.parse http grow config ⟨[input], fault⟩ = .ok r →
      ((∃ h : ResponseHead http, h.WellFormed ∧ input = h.bytes ++ r.body.bytes) ↔
        (responseDelimited input && bodyDelimited input) = true) := by
  refine ⟨fun r h => ?_, fun r h => ?_⟩
  · obtain ⟨hd, body, hinput, hrest⟩ := (Requester.takes http).head_of_parse Requester.body_of_finish hread h
    exact consumed_iff RequestHead.afterEmptyLine_bytes RequestHead.wellFormed_iff hinput hrest
  · obtain ⟨hd, body, hinput, hrest⟩ := (Responser.takes http).head_of_parse Responser.body_of_finish hread h
    exact consumed_iff ResponseHead.afterEmptyLine_bytes ResponseHead.wellFormed_iff hinput hrest

/-- `GET / HTTP/1.1Host: a`, CRLF and the empty line. -/
def glued : Bytes :=
  [71, 69, 84, 32, 47, 32, 72, 84, 84, 80, 47, 49, 46, 49, 72, 111, 115, 116, 58, 32, 97, 13, 10, 13, 10]

/-- `HTTP/1.1200OK`, CRLF and the empty line. -/
def gluedStatus : Bytes := [72, 84, 84, 80, 47, 49, 46, 49, 50, 48, 48, 79, 75, 13, 10, 13, 10]

/-- A header that directly follows the version is taken, and so is a status without spaces around it. -/
theorem glued_accepted :
    (Requester.observe asciiCrate .least {} ⟨[glued], none⟩ = .ok ([71, 69, 84], [47], .http11, [([104, 111, 115, 116], [[97]])], []) ∧
      ¬∃ h : RequestHead asciiCrate, h.WellFormed ∧ glued = h.bytes ++ []) ∧
    Responser.observe asciiCrate .least {} ⟨[gluedStatus], none⟩ = .ok ((200 : Nat), .http11, [], []) ∧
      ¬∃ h : ResponseHead asciiCrate, h.WellFormed ∧ gluedStatus = h.bytes ++ [] := by
  refine ⟨⟨rfl, ?_⟩, rfl, ?_⟩
  · rintro ⟨h, hwf, heq⟩
    have hdel := (h.wellFormed_iff []).mp hwf
    rw [← heq] at hdel
    cases hdel
  · rintro ⟨h, hwf, heq⟩
    have hdel := (h.wellFormed_iff []).mp hwf
    rw [← heq] at hdel
    cases hdel

/-- The request for `/` is well formed: its head is all that is consumed. -/
theorem consumed_wellFormed_getRoot :
    (getRoot ++ [120]).length ≤ firstRead {} ∧ ∃ r, Requester.parse asciiCrate .least {} ⟨[getRoot ++ [120]], none⟩ = .ok r ∧
      ∃ h : RequestHead asciiCrate, h.WellFormed ∧ getRoot ++ [120] = h.bytes ++ r.body.bytes :=
  ⟨by decide, _, rfl, ((consumed_wellFormed_iff asciiCrate .least {} (getRoot ++ [120]) none (by decide)).1 _ rfl).mpr (by decide)⟩

end Hala.Http
