import Hala.Http.Limits
import Hala.Theorems.Http.Total
import Hala.Theorems.Http.Fragmentation

/-! The limits on what is read are kept only by an input that does not reach them.

The buffer grows by 64 bytes or more when it is full, so that a loop never finds it without room. Neither `parse` nor
`into_bytes` returns `ParseBufOverflow`, and both go on reading past the limit (`header_limit_iff`,
`body_limit_iff`). -/

namespace Hala.Http
open Io Incremental Scan

theorem ReadBuf.spare_of_chunkMut (grow : Growth) (call : Nat) (rb : ReadBuf) : (rb.chunkMut (grow.room call)).spare ≠ 0 := by
  have := grow.le_room call
  unfold ReadBuf.chunkMut
  split
  · dsimp only
    omega
  · next h => exact h

theorem ReadBuf.chunkMut_of_pos {rb : ReadBuf} (h : rb.spare ≠ 0) (room : Nat) : rb.chunkMut room = rb := if_neg h

/-! ## The head -/

/-- Only what the stream has is taken. -/
theorem Parser.taken_le_length {P : Type} (m : Parser P) (grow : Growth) (p : P) (rb : ReadBuf) (stream : Stream) (fuel : Nat) :
    m.taken grow fuel p rb stream ≤ stream.bytes.length := by
  induction fuel generalizing p rb stream with
  | zero => exact Nat.zero_le _
  | succ fuel ih =>
    rw [Parser.taken]
    split
    · exact Nat.zero_le _
    dsimp only
    split
    · exact Nat.zero_le _
    split
    · exact Nat.zero_le _
    · next data stream' hread =>
      have hlength := Stream.length_of_read hread
      split
      · exact Nat.zero_le _
      · split
        · omega
        · next p' rb' _ =>
          have := ih p' rb' stream'
          split <;> omega

section Head
variable {P : Type} {m : Parser P} {move : P → Bytes → Move P UInt8 ParseError} {Ready : P → Prop} {size : P → Nat} {p : P}
  {grow : Growth} {buf : Bytes} {spare fuel : Nat} {pending : List Bytes} {fault : Option ErrorKind}

/-- The pieces leave the parser before the end of a head, and without an error. -/
def Starves (move : P → Bytes → Move P UInt8 ParseError) (p : P) (buf : Bytes) (pieces : List Bytes) : Prop :=
  ∃ p' rest, Feeds move p buf pieces (.starved p' rest)

theorem not_starves_cons {piece : Bytes} {pieces : List Bytes} {d : Move P UInt8 ParseError}
    (hd : Drains move p (buf ++ piece) d) (hwait : ∀ p' rest, d ≠ .wait p' rest) : ¬Starves move p buf (piece :: pieces) := by
  rintro ⟨p', rest, h⟩
  cases h with
  | wait hd' _ => exact hwait _ _ (hd.det hd')

theorem starves_cons {piece rest : Bytes} {pieces : List Bytes} {p' : P} (hd : Drains move p (buf ++ piece) (.wait p' rest)) :
    Starves move p buf (piece :: pieces) ↔ Starves move p' rest pieces := by
  constructor
  · rintro ⟨q, left, h⟩
    cases h with
    | wait hd' h =>
      cases hd.det hd'
      exact ⟨q, left, h⟩
  · rintro ⟨q, left, h⟩
    exact ⟨q, left, .wait hd h⟩

theorem starves_nil : Starves move p buf [] := ⟨p, buf, .starved p buf⟩

theorem firstBytes_zero {piece : Bytes} {rest : List Bytes} (hne : piece ≠ []) : firstBytes 0 (piece :: rest) = [] := by
  have hlen := List.length_pos_iff.mpr hne
  rw [firstBytes, if_neg (by omega), if_pos rfl]

theorem Stream.read_fits {piece : Bytes} {rest : List Bytes} {n : Nat} (h : piece.length ≤ n) :
    (⟨piece :: rest, fault⟩ : Stream).read n = .ok (piece, ⟨rest, fault⟩) := if_pos h

theorem Stream.read_part {piece : Bytes} {rest : List Bytes} {n : Nat} (h : ¬piece.length ≤ n) :
    (⟨piece :: rest, fault⟩ : Stream).read n = .ok (piece.take n, ⟨piece.drop n :: rest, fault⟩) := if_neg h

/-- The rest of a piece that does not fit, and the pieces behind it. -/
theorem ne_nil_of_part {piece : Bytes} {rest : List Bytes} {n : Nat} (h : ¬piece.length ≤ n) (hne : ∀ x ∈ rest, x ≠ []) :
    ∀ x ∈ piece.drop n :: rest, x ≠ [] := by
  intro x hx
  rcases List.mem_cons.mp hx with rfl | hx
  · exact List.ne_nil_of_length_pos (by rw [List.length_drop]; omega)
  · exact hne x hx

/-- What one round of the outer loop takes, and the rounds behind it. -/
theorem Refines.taken_read (ref : Refines m move Ready size) (hp : Ready p) {stream stream' : Stream} {n : Nat} {data : Bytes}
    (hn : ((⟨buf, spare⟩ : ReadBuf).chunkMut (grow.room fuel)).spare = n) (hread : stream.read n = .ok (data, stream')) (hdata : data ≠ [])
    {d : Move P UInt8 ParseError} (hd : Drains move p (buf ++ data) d) :
    m.taken grow (fuel + 1) p ⟨buf, spare⟩ stream =
      data.length + match d with
        | .wait p' rest => m.taken grow fuel p' ⟨rest, n - data.length⟩ stream'
        | _ => 0 := by
  have hchunk : (⟨buf, spare⟩ : ReadBuf).chunkMut (grow.room fuel) = ⟨buf, n⟩ := by
    subst hn
    unfold ReadBuf.chunkMut
    split <;> rfl
  have hpos : n ≠ 0 := hn ▸ ReadBuf.spare_of_chunkMut grow fuel _
  have hsize := ref.size_le p
  have hinner : m.inner ((buf ++ data).length + 6) p ⟨buf ++ data, n - data.length⟩ = drained (n - data.length) d :=
    ref.inner_eq hp hd (by omega)
  rw [Parser.taken, if_neg (by simp [ref.notFinished hp])]
  simp only [hchunk, hpos, if_false, hread, List.length_eq_zero_iff, hdata, ReadBuf.filled, hinner]
  cases d with
  | go p' rest => cases hd.not_go
  | fail e => rfl
  | wait p' rest => simp only [drained, ref.notFinished (ref.ready_of_drains hp hd), Bool.false_eq_true, if_false]
  | done p' rest => simp only [drained, ref.finished_of_drains hp hd, if_true]

/-- A parser that the first bytes bring to an end takes no more of them. -/
theorem Refines.taken_le (ref : Refines m move Ready size) (hp : Ready p) (hne : ∀ piece ∈ pending, piece ≠ [])
    (h : ¬Starves move p buf (firstBytes spare pending)) : m.taken grow fuel p ⟨buf, spare⟩ ⟨pending, fault⟩ ≤ spare := by
  induction fuel generalizing p buf spare pending with
  | zero => exact Nat.zero_le spare
  | succ fuel ih =>
    cases pending with
    | nil => exact absurd starves_nil h
    | cons piece rest =>
      have hpiece : piece ≠ [] := hne piece List.mem_cons_self
      have hrest : ∀ x ∈ rest, x ≠ [] := fun x hx => hne x (List.mem_cons_of_mem _ hx)
      have hspare : spare ≠ 0 := by
        rintro rfl
        rw [firstBytes_zero hpiece] at h
        exact h starves_nil
      have hn : ((⟨buf, spare⟩ : ReadBuf).chunkMut (grow.room fuel)).spare = spare := by rw [ReadBuf.chunkMut_of_pos hspare]
      by_cases hfits : piece.length ≤ spare
      · obtain ⟨d, hd⟩ := ref.exists_drains hp (buf ++ piece)
        rw [ref.taken_read hp hn (Stream.read_fits hfits) hpiece hd]
        rw [firstBytes, if_pos hfits] at h
        cases d with
        | wait p' rest' =>
          have hle := ih (ref.ready_of_drains hp hd) hrest ((not_congr (starves_cons hd)).mp h)
          dsimp only
          omega
        | fail | go | done => exact hfits
      · have hlen : (piece.take spare).length = spare := by
          rw [List.length_take]
          omega
        have hdata : piece.take spare ≠ [] := List.ne_nil_of_length_pos (by omega)
        obtain ⟨d, hd⟩ := ref.exists_drains hp (buf ++ piece.take spare)
        rw [ref.taken_read hp hn (Stream.read_part hfits) hdata hd, hlen]
        rw [firstBytes, if_neg hfits, if_neg hspare] at h
        cases d with
        | wait p' rest' => exact absurd ((starves_cons hd).mpr starves_nil) h
        | fail | go | done => exact Nat.le_refl spare

/-- A parser that is not at an end after the first bytes takes more, if there are more. -/
theorem Refines.lt_taken (ref : Refines m move Ready size) (hp : Ready p) (hf : pending.flatten.length < fuel)
    (hne : ∀ piece ∈ pending, piece ≠ []) (h : Starves move p buf (firstBytes spare pending))
    (hmore : spare < pending.flatten.length) : spare < m.taken grow fuel p ⟨buf, spare⟩ ⟨pending, fault⟩ := by
  induction fuel generalizing p buf spare pending with
  | zero => omega
  | succ fuel ih =>
    cases pending with
    | nil => cases hmore
    | cons piece rest =>
      have hpiece : piece ≠ [] := hne piece List.mem_cons_self
      have hpos := List.length_pos_iff.mpr hpiece
      have hrest : ∀ x ∈ rest, x ≠ [] := fun x hx => hne x (List.mem_cons_of_mem _ hx)
      rw [List.flatten_cons, List.length_append] at hf hmore
      by_cases hspare : spare = 0
      · -- The buffer is full, and grows.
        subst hspare
        obtain ⟨room, hn, hroom⟩ : ∃ room, ((⟨buf, 0⟩ : ReadBuf).chunkMut (grow.room fuel)).spare = room ∧ 64 ≤ room :=
          ⟨_, rfl, grow.le_room fuel⟩
        by_cases hfits : piece.length ≤ room
        · obtain ⟨d, hd⟩ := ref.exists_drains hp (buf ++ piece)
          rw [ref.taken_read hp hn (Stream.read_fits hfits) hpiece hd]
          omega
        · have hlen : (piece.take room).length = room := by
            rw [List.length_take]
            omega
          obtain ⟨d, hd⟩ := ref.exists_drains hp (buf ++ piece.take room)
          rw [ref.taken_read hp hn (Stream.read_part hfits) (List.ne_nil_of_length_pos (by omega)) hd, hlen]
          omega
      · have hn : ((⟨buf, spare⟩ : ReadBuf).chunkMut (grow.room fuel)).spare = spare := by rw [ReadBuf.chunkMut_of_pos hspare]
        by_cases hfits : piece.length ≤ spare
        · rw [firstBytes, if_pos hfits] at h
          obtain ⟨d, hd⟩ := ref.exists_drains hp (buf ++ piece)
          rw [ref.taken_read hp hn (Stream.read_fits hfits) hpiece hd]
          cases d with
          | wait p' rest' =>
            have hlt := ih (ref.ready_of_drains hp hd) (by omega) hrest ((starves_cons hd).mp h) (by omega)
            dsimp only
            omega
          | fail | go | done => exact absurd h (not_starves_cons hd (by simp))
        · have hlen : (piece.take spare).length = spare := by
            rw [List.length_take]
            omega
          have hdata : piece.take spare ≠ [] := List.ne_nil_of_length_pos (by omega)
          rw [firstBytes, if_neg hfits, if_neg hspare] at h
          obtain ⟨d, hd⟩ := ref.exists_drains hp (buf ++ piece.take spare)
          rw [ref.taken_read hp hn (Stream.read_part hfits) hdata hd, hlen]
          cases d with
          | wait p' rest' =>
            have hnext := ne_nil_of_part hfits hrest
            have hlength : (piece.drop spare :: rest).flatten.length = piece.length - spare + rest.flatten.length := by
              rw [List.flatten_cons, List.length_append, List.length_drop]
            have hstarves : Starves move p' rest' (firstBytes 0 (piece.drop spare :: rest)) := by
              rw [firstBytes_zero (hnext _ List.mem_cons_self)]
              exact starves_nil
            have hlt : 0 < m.taken grow fuel p' ⟨rest', 0⟩ ⟨piece.drop spare :: rest, fault⟩ :=
              ih (ref.ready_of_drains hp hd) (by omega) hnext hstarves (by omega)
            dsimp only
            rw [Nat.sub_self]
            omega
          | fail | go | done => exact absurd h (not_starves_cons hd (by simp))

/-- The loops never find the buffer full. -/
theorem Refines.out_ne_overflow (ref : Refines m move Ready size) (config : Config) {limit : Nat}
    (herror : ∀ {p buf e}, move p buf = .fail e → e ≠ .parseBufOverflow limit) (hp : Ready p) {rb : ReadBuf}
    {stream : Stream} : m.out grow config fuel p rb stream ≠ .error (.error (.parseBufOverflow limit)) := by
  induction fuel generalizing p rb stream with
  | zero => simp [Parser.out]
  | succ fuel ih =>
    rw [Parser.out, if_neg (by simp [ref.notFinished hp]), if_neg (ReadBuf.spare_of_chunkMut grow fuel rb)]
    split
    · simp
    · next data stream' _ =>
      split
      · simp
      · have hsize := ref.size_le p
        obtain ⟨d, hd⟩ := ref.exists_drains hp ((rb.chunkMut (grow.room fuel)).filled data).bytes
        have hinner : m.inner (((rb.chunkMut (grow.room fuel)).filled data).bytes.length + 6) p
            ((rb.chunkMut (grow.room fuel)).filled data) = drained ((rb.chunkMut (grow.room fuel)).filled data).spare d :=
          ref.inner_eq hp hd (by omega)
        dsimp only
        rw [hinner]
        cases d with
        | go p' rest => cases hd.not_go
        | fail e =>
          obtain ⟨p', buf', hmove⟩ := Drains.error_of_fail hd
          simpa [drained] using herror hmove
        | wait p' rest =>
          simp only [drained, ref.notFinished (ref.ready_of_drains hp hd), Bool.false_eq_true, if_false]
          exact ih (ref.ready_of_drains hp hd)
        | done p' rest => simp [drained, ref.finished_of_drains hp hd]

/-- What the stream may be if no more than `limit` bytes of it are to be taken. -/
def WithinLimit (move : P → Bytes → Move P UInt8 ParseError) (p : P) (limit : Nat) (pieces : List Bytes) : Prop :=
  ¬Starves move p [] (firstBytes limit pieces) ∨ pieces.flatten.length ≤ limit

theorem not_withinLimit {limit : Nat} :
    ¬WithinLimit move p limit pending ↔ Starves move p [] (firstBytes limit pending) ∧ limit < pending.flatten.length := by
  rw [WithinLimit, not_or, not_not, Nat.not_le]

/-- The limit is kept by an input that does not reach it. -/
theorem Refines.taken_le_iff (ref : Refines m move Ready size) (hp : Ready p) (hne : ∀ piece ∈ pending, piece ≠ [])
    (limit : Nat) (fault : Option ErrorKind) (grow : Growth) :
    m.taken grow (pending.flatten.length + 1) p (ReadBuf.withCapacity limit) ⟨pending, fault⟩ ≤ limit ↔
      WithinLimit move p limit pending := by
  constructor
  · intro hle
    by_contra hcon
    obtain ⟨hstarves, hmore⟩ := not_withinLimit.mp hcon
    exact absurd hle (Nat.not_le_of_lt (ref.lt_taken hp (Nat.lt_succ_self _) hne hstarves hmore))
  · rintro (hends | hshort)
    · exact ref.taken_le hp hne hends
    · have hall := m.taken_le_length grow p (ReadBuf.withCapacity limit) ⟨pending, fault⟩ (pending.flatten.length + 1)
      exact Nat.le_trans hall hshort

/-- An answer that is never given is the one expected of an input that is never expected to give it. -/
theorem withinLimit_iff_of_not {limit : Nat} {overflow : Prop} (hno : ¬overflow) :
    (Starves move p [] (firstBytes limit pending) → limit < pending.flatten.length → overflow) ↔
      WithinLimit move p limit pending := by
  rw [← not_iff_not, not_withinLimit]
  tauto

end Head

section Parsers

theorem ParseError.ne_overflow_of_ofStep {e : ParseError} {limit : Nat} (h : e.ofStep = true) : e ≠ .parseBufOverflow limit := by
  rintro rfl
  cases h

/-- An error that neither part of a computation returns. -/
theorem bind_ne_error {ε α β : Type} {x : Except ε α} {f : α → Except ε β} {e : ε} (hx : x ≠ .error e) (hf : ∀ a, f a ≠ .error e) :
    x >>= f ≠ .error e := by
  cases x with
  | error e' => exact fun heq => hx (congrArg Except.error (Except.error.inj heq))
  | ok a => exact hf a

theorem Refines.parse_ne_overflow {P R : Type} {m : Parser P} {move : P → Bytes → Move P UInt8 ParseError} {Ready : P → Prop}
    {size : P → Nat} {finish : P → BodyReader → ParseResult R} {p : P} {limit : Nat} (ref : Refines m move Ready size)
    (herror : ∀ {p buf e}, move p buf = .fail e → e.ofStep = true)
    (hfinish : ∀ p body, finish p body ≠ .error (.error (.parseBufOverflow limit))) (hp : Ready p) (grow : Growth)
    (config : Config) (stream : Stream) : m.parse finish grow config p stream ≠ .error (.error (.parseBufOverflow limit)) :=
  bind_ne_error (ref.out_ne_overflow config (fun h => ParseError.ne_overflow_of_ofStep (herror h)) hp) fun _ => hfinish _ _

theorem Requester.finish_ne_overflow {http : HttpCrate} {limit : Nat} (r : Requester http) (body : BodyReader) :
    r.finish body ≠ .error (.error (.parseBufOverflow limit)) := by
  unfold finish
  split
  · nofun
  · split <;> nofun

theorem Responser.finish_ne_overflow {http : HttpCrate} {limit : Nat} (r : Responser http) (body : BodyReader) :
    r.finish body ≠ .error (.error (.parseBufOverflow limit)) := by
  unfold finish
  split
  · nofun
  · split <;> nofun

/-- `parsing_headers_max_buf` is enforced exactly for the streams that have no more bytes than that, or whose first
`parsing_headers_max_buf` bytes bring the parser to an end. -/
theorem header_limit_iff (http : HttpCrate) (grow : Growth) (config : Config) (pieces : List Bytes) (fault : Option ErrorKind)
    (hne : ∀ piece ∈ pieces, piece ≠ []) :
    ((Requester.taken http grow config ⟨pieces, fault⟩ ≤ config.parsingHeadersMaxBuf ∧
        (Starves Requester.move (Requester.new http) [] (firstBytes config.parsingHeadersMaxBuf pieces) →
          config.parsingHeadersMaxBuf < pieces.flatten.length →
          Requester.parse http grow config ⟨pieces, fault⟩ = .error (.error (.parseBufOverflow config.parsingHeadersMaxBuf)))) ↔
      WithinLimit Requester.move (Requester.new http) config.parsingHeadersMaxBuf pieces) ∧
    ((Responser.taken http grow config ⟨pieces, fault⟩ ≤ config.parsingHeadersMaxBuf ∧
        (Starves Responser.move (Responser.new http) [] (firstBytes config.parsingHeadersMaxBuf pieces) →
          config.parsingHeadersMaxBuf < pieces.flatten.length →
          Responser.parse http grow config ⟨pieces, fault⟩ = .error (.error (.parseBufOverflow config.parsingHeadersMaxBuf)))) ↔
      WithinLimit Responser.move (Responser.new http) config.parsingHeadersMaxBuf pieces) := by
  constructor
  · have htaken := (Requester.refines http).taken_le_iff (Requester.new_ready http) hne config.parsingHeadersMaxBuf fault grow
    have hnever : Requester.parse http grow config ⟨pieces, fault⟩ ≠
        .error (.error (.parseBufOverflow config.parsingHeadersMaxBuf)) :=
      (Requester.refines http).parse_ne_overflow Requester.ofStep_of_move Requester.finish_ne_overflow (Requester.new_ready http) grow config _
    exact (and_congr htaken (withinLimit_iff_of_not hnever)).trans and_self_iff
  · have htaken := (Responser.refines http).taken_le_iff (Responser.new_ready http) hne config.parsingHeadersMaxBuf fault grow
    have hnever : Responser.parse http grow config ⟨pieces, fault⟩ ≠
        .error (.error (.parseBufOverflow config.parsingHeadersMaxBuf)) :=
      (Responser.refines http).parse_ne_overflow Responser.ofStep_of_move Responser.finish_ne_overflow (Responser.new_ready http) grow config _
    exact (and_congr htaken (withinLimit_iff_of_not hnever)).trans and_self_iff

/-- A request that comes in one read fits in the default limit. -/
theorem header_limit_getRoot :
    Requester.taken asciiCrate .least {} ⟨[getRoot], none⟩ ≤ 2048 ∧
      (Starves Requester.move (Requester.new asciiCrate) [] (firstBytes 2048 [getRoot]) → 2048 < [getRoot].flatten.length →
        Requester.parse asciiCrate .least {} ⟨[getRoot], none⟩ = .error (.error (.parseBufOverflow 2048))) :=
  (header_limit_iff asciiCrate .least {} [getRoot] none (by decide)).1.mpr (.inr (by decide))

/-- With a limit of 4 bytes, the 18 bytes of a request are taken, and it is accepted. -/
theorem header_limit_exceeded :
    Starves Requester.move (Requester.new asciiCrate) [] (firstBytes 4 [getRoot]) ∧ 4 < [getRoot].flatten.length ∧
      Requester.taken asciiCrate .least ⟨4⟩ ⟨[getRoot], none⟩ = 18 ∧
      Requester.observe asciiCrate .least ⟨4⟩ ⟨[getRoot], none⟩ = .ok ([71, 69, 84], [47], .http11, [], []) := by
  have htaken : Requester.taken asciiCrate .least ⟨4⟩ ⟨[getRoot], none⟩ = 18 := by rfl
  have hbeyond : ¬WithinLimit Requester.move (Requester.new asciiCrate) 4 [getRoot] := by
    rw [← (Requester.refines asciiCrate).taken_le_iff (Requester.new_ready asciiCrate) (by decide) 4 none .least]
    exact fun hle => absurd (Nat.le_trans (Nat.le_of_eq htaken.symm) hle) (by decide)
  obtain ⟨hstarves, hmore⟩ := not_withinLimit.mp hbeyond
  exact ⟨hstarves, hmore, htaken, rfl⟩

end Parsers

/-! ## The body -/

section Body
variable {pieces : List Bytes} {n : Nat}

/-- What a chain still delivers. -/
def Chain.bytes (c : Chain) : Bytes := (if c.doneFirst then [] else c.first) ++ c.second.bytes

/-- A stream that ends with the end of file, and whose reads before that deliver bytes. -/
def Steady (stream : Stream) : Prop := stream.fault = none ∧ ∀ piece ∈ stream.pending, piece ≠ []

theorem Steady.read {stream : Stream} (h : Steady stream) (hn : n ≠ 0) :
    ∃ data stream', stream.read n = .ok (data, stream') ∧ stream.bytes = data ++ stream'.bytes ∧
      (data = [] → stream.bytes = []) ∧ Steady stream' := by
  obtain ⟨pending, fault⟩ := stream
  obtain ⟨hfault, hne⟩ := h
  cases pending with
  | nil =>
    cases hfault
    exact ⟨[], _, rfl, rfl, fun _ => rfl, rfl, hne⟩
  | cons piece rest =>
    have hpiece := hne piece List.mem_cons_self
    have hrest : ∀ x ∈ rest, x ≠ [] := fun x hx => hne x (List.mem_cons_of_mem _ hx)
    by_cases hfits : piece.length ≤ n
    · exact ⟨piece, _, Stream.read_fits hfits, rfl, fun h => absurd h hpiece, hfault, hrest⟩
    · have hbytes : (⟨piece :: rest, fault⟩ : Stream).bytes = piece.take n ++ (⟨piece.drop n :: rest, fault⟩ : Stream).bytes := by
        simp only [Stream.bytes, List.flatten_cons]
        rw [← List.append_assoc, List.take_append_drop]
      refine ⟨piece.take n, _, Stream.read_part hfits, hbytes, fun h => ?_, hfault, ne_nil_of_part hfits hrest⟩
      rcases List.take_eq_nil_iff.mp h with h | h
      · exact absurd h hn
      · exact absurd h hpiece

/-- The cached bytes come first, cut as the buffer needs it. -/
theorem Chain.read_steady {c : Chain} (h : Steady c.second) (hn : n ≠ 0) :
    ∃ data c', c.read n = .ok (data, c') ∧ c.bytes = data ++ c'.bytes ∧ (data = [] → c.bytes = []) ∧ Steady c'.second := by
  obtain ⟨first, doneFirst, second⟩ := c
  by_cases hdone : doneFirst = true ∨ (first.take n = [] ∧ n ≠ 0)
  · obtain ⟨data, second', hread, hbytes, hnil, hsteady⟩ := h.read hn
    have hfirst : (if doneFirst then [] else first) = [] := by
      rcases hdone with hdone | ⟨htake, -⟩
      · exact if_pos hdone
      · rw [(List.take_eq_nil_iff.mp htake).resolve_left hn]
        exact ite_self []
    refine ⟨data, ⟨first, true, second'⟩, ?_, ?_, ?_, hsteady⟩
    · rw [Chain.read, if_pos hdone, hread]
      rfl
    · simp only [Chain.bytes, hfirst, if_true, List.nil_append]
      exact hbytes
    · simp only [Chain.bytes, hfirst, List.nil_append]
      exact hnil
  · obtain ⟨hfirst, htake⟩ := not_or.mp hdone
    refine ⟨first.take n, ⟨first.drop n, doneFirst, second⟩, ?_, ?_, fun hnil => absurd ⟨hnil, hn⟩ htake, h⟩
    · rw [Chain.read, if_neg hdone]
    · simp only [Chain.bytes, if_neg hfirst]
      rw [← List.append_assoc, List.take_append_drop]

namespace BodyReader

/-- The loop ends with the end of the stream, whatever the limit. -/
theorem intoBytesLoop_eq (grow : Growth) (maxBodyLen : Nat) {fuel : Nat} {rb : ReadBuf} {c : Chain} (hfuel : c.bytes.length < fuel)
    (h : Steady c.second) : intoBytesLoop grow maxBodyLen fuel rb c = .ok (rb.bytes ++ c.bytes) := by
  induction fuel generalizing rb c with
  | zero => omega
  | succ fuel ih =>
    have hchunk : (rb.chunkMut (grow.room fuel)).bytes = rb.bytes := by
      unfold ReadBuf.chunkMut
      split <;> rfl
    obtain ⟨data, c', hread, hbytes, hnil, hsteady⟩ := Chain.read_steady h (ReadBuf.spare_of_chunkMut grow fuel rb)
    rw [intoBytesLoop, if_neg (ReadBuf.spare_of_chunkMut grow fuel rb), hread]
    dsimp only
    by_cases hdata : data = []
    · rw [if_pos (by rw [hdata]; rfl), ReadBuf.intoBytes, hchunk, hnil hdata, List.append_nil]
    · have hpos := List.length_pos_iff.mpr hdata
      have hlength : c.bytes.length = data.length + c'.bytes.length := by rw [hbytes, List.length_append]
      rw [if_neg (by omega), ih (by omega) hsteady, hbytes, ReadBuf.filled, hchunk, List.append_assoc]

/-- `into_bytes` takes the whole body. -/
theorem intoBytes_eq {b : BodyReader} (grow : Growth) (maxBodyLen : Nat) (h : Steady b.stream) :
    b.intoBytes grow maxBodyLen = .ok b.bytes :=
  intoBytesLoop_eq grow maxBodyLen (Nat.lt_succ_self _) h

/-- `max_body_len` is enforced for the bodies that are not longer. -/
theorem body_limit_iff (b : BodyReader) (grow : Growth) (maxBodyLen : Nat) (h : Steady b.stream) :
    ((b.bytes.length ≤ maxBodyLen → b.intoBytes grow maxBodyLen = .ok b.bytes) ∧
      (maxBodyLen < b.bytes.length → b.intoBytes grow maxBodyLen = .error (.error (.parseBufOverflow maxBodyLen))) ∧
      ∀ bs, b.intoBytes grow maxBodyLen = .ok bs → bs.length ≤ maxBodyLen) ↔ b.bytes.length ≤ maxBodyLen := by
  have hall := intoBytes_eq grow maxBodyLen h
  constructor
  · rintro ⟨-, -, hle⟩
    exact hle b.bytes hall
  · refine fun hle => ⟨fun _ => hall, fun hlt => absurd hle (Nat.not_le_of_lt hlt), fun bs hbs => ?_⟩
    cases hall.symm.trans hbs
    exact hle

/-- A body of exactly the limit, half of it cached. -/
theorem body_limit_four : (⟨[1, 2], ⟨[[3], [4]], none⟩⟩ : BodyReader).intoBytes .least 4 = .ok [1, 2, 3, 4] :=
  ((body_limit_iff ⟨[1, 2], ⟨[[3], [4]], none⟩⟩ .least 4 ⟨rfl, by decide⟩).mpr (by decide)).1 (by decide)

/-- Five bytes are returned where four are allowed. -/
theorem body_limit_exceeded : (⟨[1, 2], ⟨[[3], [4, 5]], none⟩⟩ : BodyReader).intoBytes .least 4 = .ok [1, 2, 3, 4, 5] := by rfl

end BodyReader
end Body

end Hala.Http
