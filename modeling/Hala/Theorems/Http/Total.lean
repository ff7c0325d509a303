import Hala.Http.Checked
import Hala.Theorems.Http.Refine

/-! Head parsing ends, and without a panic.

The slices stay within the buffer (`Checked`), the builder is always there, and each round of a loop that is not the last
consumes something: a byte or a parser state in the inner loop, a read in the outer one. -/

namespace Hala.Http
open Io Incremental Scan

/-! ## Slices -/

section Slices
variable {buf : Bytes}

theorem sliceTo_of_le {ε : Type} {n : Nat} (h : n ≤ buf.length) : sliceTo (ε := ε) buf n = .ok (buf.take n) := if_pos h

theorem Checked.parseVersion_eq (buf : Bytes) : parseVersion buf = Http.parseVersion buf := by
  unfold parseVersion Http.parseVersion
  split
  · next h =>
    rw [sliceTo_of_le h]
    rfl
  · rfl

theorem Checked.parseCode_eq (http : HttpCrate) (buf : Bytes) : parseCode http buf = Http.parseCode http buf := by
  unfold parseCode Http.parseCode
  split
  · next h =>
    rw [sliceTo_of_le h]
    rfl
  · rfl

theorem Checked._skipNewline_eq (buf : Bytes) : _skipNewline buf = .ok (Http._skipNewline buf) := by
  have hbyte : skipByte buf = .ok (match buf with
      | [] => .none
      | b :: _ => if b = 10 then .one 1 else if b = 13 then .incomplete else .none) := by
    cases buf <;> rfl
  unfold _skipNewline Http._skipNewline
  by_cases h : 1 < buf.length
  · simp only [h, if_true, true_and, sliceTo_of_le h, bind, Except.bind, hbyte]
    split
    · rfl
    · split <;> rfl
  · rw [if_neg h, if_neg (fun htwo => h htwo.1), if_neg (fun htwo => h htwo.1)]
    exact hbyte.trans (by cases buf <;> rfl)

theorem _skipNewline_one {len : Nat} (h : _skipNewline buf = .one len) : 0 < len ∧ len ≤ buf.length := by
  unfold _skipNewline at h
  split at h
  · next htwo =>
    cases h
    exact ⟨by decide, htwo.1⟩
  · split at h
    · cases h
    · cases buf with
      | nil => cases h
      | cons b t =>
        dsimp only at h
        split at h
        · cases h
          exact ⟨Nat.one_pos, Nat.le_add_left 1 t.length⟩
        · split at h <;> cases h

theorem _skipNewline_brk {len : Nat} (h : _skipNewline buf = .brk len) : 0 < len ∧ len ≤ buf.length := by
  unfold _skipNewline at h
  split at h
  · cases h
  · split at h
    · next htwo =>
      cases h
      exact ⟨by decide, htwo.1⟩
    · cases buf with
      | nil => cases h
      | cons b t =>
        dsimp only at h
        split at h
        · cases h
        · split at h <;> cases h

theorem Checked._skipNewlinesLoop_eq {fuel offset : Nat} (hf : buf.length < fuel + offset) (ho : offset ≤ buf.length)
    (isBreak : Bool) : _skipNewlinesLoop buf fuel offset isBreak =
      .ok (Http._skipNewlinesLoop fuel (buf.drop offset) offset isBreak) := by
  induction fuel generalizing offset isBreak with
  | zero => omega
  | succ fuel ih =>
    have hslice : sliceFrom (ε := ParseError) buf offset = .ok (buf.drop offset) := if_pos ho
    simp only [_skipNewlinesLoop, hslice, bind, Except.bind, _skipNewline_eq, Http._skipNewlinesLoop]
    have hlength : (buf.drop offset).length = buf.length - offset := List.length_drop
    cases h : Http._skipNewline (buf.drop offset) with
    | none => rfl
    | incomplete => rfl
    | one len =>
      have hlen := _skipNewline_one h
      simp only [List.drop_drop]
      exact ih (by omega) (by omega) _
    | brk len =>
      have hlen := _skipNewline_brk h
      simp only [List.drop_drop]
      exact ih (by omega) (by omega) _

theorem Checked._skipNewlines_eq (buf : Bytes) : _skipNewlines buf = .ok (Http._skipNewlines buf) :=
  _skipNewlinesLoop_eq (by omega) (Nat.zero_le _) false

theorem Checked.trimSuffixSpaces_eq (buf : Bytes) : trimSuffixSpaces buf = .ok (Http.trimSuffixSpaces buf) := by
  unfold trimSuffixSpaces Http.trimSuffixSpaces
  cases h : buf.reverse.findIdx? fun c => !isSpace c with
  | none => rfl
  | some offset =>
    obtain ⟨hlt, -⟩ := List.findIdx?_eq_some_iff_getElem.mp h
    rw [List.length_reverse] at hlt
    have hsub : checkedSub (ε := ParseError) buf.length offset = .ok (buf.length - offset) := if_pos (Nat.le_of_lt hlt)
    simp only [hsub, bind, Except.bind, sliceTo_of_le (Nat.sub_le buf.length offset)]
    split <;> rfl

end Slices

/-! ## The loops -/

section Loops
variable {P : Type} {m : Parser P} {move : P → Bytes → Move P UInt8 ParseError} {Ready Good : P → Prop} {size : P → Nat}
  {p : P} {grow : Growth} {rb : ReadBuf} {stream stream' : Stream}

/-- A read takes what it delivers off the stream. -/
theorem Stream.length_of_read {n : Nat} {data : Bytes} (h : stream.read n = .ok (data, stream')) :
    data.length + stream'.bytes.length = stream.bytes.length := by
  obtain ⟨pending, fault⟩ := stream
  unfold Stream.read at h
  cases pending with
  | nil =>
    dsimp only at h
    split at h <;> cases h
    rfl
  | cons piece rest =>
    dsimp only at h
    split at h <;> cases h
    · simp [Stream.bytes]
    · simp only [Stream.bytes, List.flatten_cons, List.length_append, List.length_take, List.length_drop]
      omega

theorem Refines.progress (ref : Refines m move Ready size) {discriminant : P → UInt8}
    (hsize : ∀ p p', size p' < size p → discriminant p < discriminant p') : m.Progress Ready discriminant := by
  rintro p ⟨buf, spare⟩ p' rb' hp hne hstep
  rw [ref.step hp] at hstep
  cases hm : move p buf with
  | fail e =>
    rw [hm] at hstep
    cases hstep
  | wait p' rest =>
    rw [hm] at hstep
    cases hstep
  | done p' rest =>
    rw [hm] at hstep
    cases hstep
  | go p' rest =>
    rw [hm] at hstep
    cases hstep
    obtain ⟨hp', hlt⟩ := ref.go hp hne hm
    change size p' + rest.length < size p + buf.length at hlt
    refine ⟨hp', ?_⟩
    by_cases hrest : rest.length < buf.length
    · exact Or.inl hrest
    · exact Or.inr (hsize p _ (by omega))

/-- What holds where a head ends holds where the drain of a buffer is done. -/
theorem Refines.good_of_drains (ref : Refines m move Ready size)
    (hgood : ∀ {p buf p' rest}, Ready p → move p buf = .done p' rest → Good p') {buf rest : Bytes} {p' : P} (hp : Ready p)
    (h : Drains move p buf (.done p' rest)) : Good p' := by
  generalize hd : Move.done p' rest = d at h
  induction h with
  | empty => cases hd
  | stop => exact hgood hp hd.symm
  | go hne hs _ ih => exact ih (ref.go hp hne hs).1 hd

/-- The loops end where a head does, or with an error of the parser or of the stream. The induction is on the reads that
    are left; `fuel` is more than there can be. -/
theorem Refines.out_ends (ref : Refines m move Ready size) (grow : Growth) (config : Config)
    (hgood : ∀ {p buf p' rest}, Ready p → move p buf = .done p' rest → Good p') {fuel : Nat} (hp : Ready p)
    (hf : stream.bytes.length < fuel) :
    (∃ p' rb' stream', m.out grow config fuel p rb stream = .ok (p', rb', stream') ∧ Good p') ∨
      ∃ e, m.out grow config fuel p rb stream = .error (.error e) := by
  induction fuel generalizing p rb stream with
  | zero => omega
  | succ fuel ih =>
    rw [Parser.out, if_neg (by simp [ref.notFinished hp])]
    dsimp only
    split
    · exact Or.inr ⟨_, rfl⟩
    split
    · exact Or.inr ⟨_, rfl⟩
    · next data stream' hread =>
      split
      · exact Or.inr ⟨_, rfl⟩
      · next hdata =>
        have hsize := ref.size_le p
        have hlength := Stream.length_of_read hread
        obtain ⟨d, hd⟩ := ref.exists_drains hp ((rb.chunkMut (grow.room fuel)).filled data).bytes
        have hinner : m.inner (((rb.chunkMut (grow.room fuel)).filled data).bytes.length + 6) p
            ((rb.chunkMut (grow.room fuel)).filled data) = drained ((rb.chunkMut (grow.room fuel)).filled data).spare d :=
          ref.inner_eq hp hd (by omega)
        rw [hinner]
        cases d with
        | go p' rest => cases hd.not_go
        | fail e => exact Or.inr ⟨e, rfl⟩
        | wait p' rest =>
          have hp' := ref.ready_of_drains hp hd
          simp only [drained, ref.notFinished hp', Bool.false_eq_true, if_false]
          exact ih hp' (by omega)
        | done p' rest =>
          simp only [drained, ref.finished_of_drains hp hd, if_true]
          exact Or.inl ⟨_, _, _, rfl, ref.good_of_drains hgood hp hd⟩

/-- `parse` ends when the loops do, and what is made of the parser behind them. -/
theorem Refines.parse_ends {R : Type} {finish : P → BodyReader → ParseResult R} (ref : Refines m move Ready size)
    (grow : Growth) (config : Config) (hgood : ∀ {p buf p' rest}, Ready p → move p buf = .done p' rest → Good p')
    (hfinish : ∀ p body, Good p → Ends (finish p body)) (hp : Ready p) : Ends (m.parse finish grow config p stream) := by
  rcases ref.out_ends grow config hgood hp (Nat.lt_succ_self stream.bytes.length) with ⟨p', rb, stream', hrun, hp'⟩ | ⟨e, hrun⟩
  · have hparse : m.parse finish grow config p stream = finish p' ⟨rb.intoBytes, stream'⟩ := by
      rw [Parser.parse, Parser.run, hrun]
      rfl
    rw [hparse]
    exact hfinish p' _ hp'
  · have hparse : m.parse finish grow config p stream = .error (.error e) := by
      rw [Parser.parse, Parser.run, hrun]
      rfl
    exact Or.inr ⟨e, hparse⟩

end Loops

/-! ## The two parsers -/

section Parsers
variable {http : HttpCrate} {buf rest : Bytes}

theorem Requester.builder_of_done {r r' : Requester http} (hr : r.Ready) (h : r.move buf = .done r' rest) :
    r'.builder.isSome := by
  unfold move at h
  split at h
  · exact absurd h tokenMove_done
  · exact absurd h tokenMove_done
  · exact absurd h fieldMove_done
  · rw [headersMove_done h]
    exact hr.2
  · cases h
    exact hr.2

theorem Responser.builder_of_done {r r' : Responser http} (hr : r.Ready) (h : r.move buf = .done r' rest) :
    r'.builder.isSome := by
  unfold move at h
  split at h
  · exact absurd h fieldMove_done
  · exact absurd h fieldMove_done
  · split at h <;> cases h
  · rw [headersMove_done h]
    exact hr.2
  · cases h
    exact hr.2

theorem Requester.finish_ends (r : Requester http) (body : BodyReader) (hb : r.builder.isSome) : Ends (r.finish body) := by
  obtain ⟨b, hb⟩ := Option.isSome_iff_exists.mp hb
  simp only [finish, hb]
  cases http.request.parts b with
  | none => exact Or.inr ⟨_, rfl⟩
  | some parts => exact Or.inl ⟨_, rfl⟩

theorem Responser.finish_ends (r : Responser http) (body : BodyReader) (hb : r.builder.isSome) : Ends (r.finish body) := by
  obtain ⟨b, hb⟩ := Option.isSome_iff_exists.mp hb
  simp only [finish, hb]
  cases http.response.parts b with
  | none => exact Or.inr ⟨_, rfl⟩
  | some parts => exact Or.inl ⟨_, rfl⟩

theorem RequestParseState.next_discriminant (s : RequestParseState) :
    s.next.discriminant = nextDiscriminant s.discriminant ∧ s.next.discriminant ≤ 5 := by
  cases s <;> decide

theorem ResponseParseState.next_discriminant (s : ResponseParseState) :
    s.next.discriminant = nextDiscriminant s.discriminant ∧ s.next.discriminant ≤ 5 := by
  cases s <;> decide

theorem Requester.discriminant_of_size (r r' : Requester http) (h : r'.size < r.size) :
    r.state.discriminant < r'.state.discriminant := by
  unfold size at h
  cases hs : r.state <;> cases hs' : r'.state <;> simp only [hs, hs'] at h <;> first | omega | decide

theorem Responser.discriminant_of_size (r r' : Responser http) (h : r'.size < r.size) :
    r.state.discriminant < r'.state.discriminant := by
  unfold size at h
  cases hs : r.state <;> cases hs' : r'.state <;> simp only [hs, hs'] at h <;> first | omega | decide

end Parsers

/-- On every stream both parsers return, and not by a panic: an inner loop that goes on has consumed a byte or moved to a
    later state, and is in a state with its builder; a read that brings something leaves less to be read; a state goes to
    the next one, at most to `Finished`; and the slices are within the buffer. -/
theorem head_parsing_ends (http : HttpCrate) (grow : Growth) (config : Config) (stream : Stream) :
    (Ends (Requester.parse http grow config stream) ∧
      (Requester.parser http).Progress Requester.Ready fun r => r.state.discriminant) ∧
    (Ends (Responser.parse http grow config stream) ∧
      (Responser.parser http).Progress Responser.Ready fun r => r.state.discriminant) ∧
    (∀ s : RequestParseState, s.next.discriminant = nextDiscriminant s.discriminant ∧ s.next.discriminant ≤ 5) ∧
    (∀ s : ResponseParseState, s.next.discriminant = nextDiscriminant s.discriminant ∧ s.next.discriminant ≤ 5) ∧
    (∀ n data stream', stream.read n = .ok (data, stream') → data.length + stream'.bytes.length = stream.bytes.length) ∧
    ∀ buf, Checked.parseVersion buf = parseVersion buf ∧ Checked.parseCode http buf = parseCode http buf ∧
      Checked._skipNewlines buf = .ok (_skipNewlines buf) ∧ Checked.trimSuffixSpaces buf = .ok (trimSuffixSpaces buf) :=
  ⟨⟨(Requester.refines http).parse_ends grow config Requester.builder_of_done Requester.finish_ends (Requester.new_ready http),
      (Requester.refines http).progress Requester.discriminant_of_size⟩,
    ⟨(Responser.refines http).parse_ends grow config Responser.builder_of_done Responser.finish_ends (Responser.new_ready http),
      (Responser.refines http).progress Responser.discriminant_of_size⟩,
    RequestParseState.next_discriminant, ResponseParseState.next_discriminant, fun _ _ _ => Stream.length_of_read,
    fun buf => ⟨Checked.parseVersion_eq buf, Checked.parseCode_eq http buf, Checked._skipNewlines_eq buf,
      Checked.trimSuffixSpaces_eq buf⟩⟩

end Hala.Http
