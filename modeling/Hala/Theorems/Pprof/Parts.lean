import Hala.Pprof.WireFormat

/-! Profiles from any bytes.

Bytes that nobody wrote as a profile are read to their end or to an error of the runtime; and bytes that come in parts are
read as the whole. -/

namespace Hala.Pprof.Gperf.Runtime
open Wire
variable {E U M N : Type} {rt : Runtime E U}

/-! ### Fields and messages -/

/-- A message ends where its length says, and is read to its end. -/
theorem mergeMessage_consumes {readTag : Bytes → Except (Option E) (Option (Nat × Bytes))}
    {readMessage : Reader UInt8 E Bytes} {message : Message UInt8 E M} (htags : Tags readTag)
    (hmessage : readMessage.Consumes) (h : message.Consumes) (m : M) :
    (mergeMessage readTag readMessage message m).Consumes where
  front input n rest hread := by
    cases hbody : readMessage input with
    | error e =>
      simp only [mergeMessage, hbody] at hread
      cases hread
    | ok body =>
      obtain ⟨body, rest'⟩ := body
      simp only [mergeMessage, hbody] at hread
      cases hmerge : message.mergeFrom readTag m body with
      | error e =>
        rw [hmerge] at hread
        cases hread
      | ok m' =>
        rw [hmerge] at hread
        cases hread
        obtain ⟨front, hinput, hfront⟩ := hmessage.front input body rest hbody
        refine ⟨front, hinput, fun more => ?_⟩
        simp only [mergeMessage, hfront more, hmerge, Except.map]
  error input hread := by
    cases hbody : readMessage input with
    | error e =>
      simp only [mergeMessage, hbody] at hread
      cases hread
      exact hmessage.error input hbody
    | ok body =>
      obtain ⟨body, rest⟩ := body
      simp only [mergeMessage, hbody] at hread
      cases hmerge : message.mergeFrom readTag m body with
      | error e =>
        rw [hmerge] at hread
        cases hread
        exact h.mergeFrom_ends htags m body hmerge
      | ok m' =>
        rw [hmerge] at hread
        cases hread

section Fields
variable {number packedTag tag : Nat} (hrt : rt.Consumes)
include hrt

theorem int64Field_consumes {get : M → Int64} {set : M → Int64 → M} : (rt.int64Field number tag get set).Consumes :=
  Field.scalar_consumes hrt.int64

theorem uint64Field_consumes {get : M → UInt64} {set : M → UInt64 → M} : (rt.uint64Field number tag get set).Consumes :=
  Field.scalar_consumes hrt.uint64

theorem boolField_consumes {get : M → Bool} {set : M → Bool → M} : (rt.boolField number tag get set).Consumes :=
  ⟨List.forall_mem_singleton.mpr fun m => hrt.bool.map (set m)⟩

theorem int64sField_consumes {get : M → List Int64} {set : M → List Int64 → M} :
    (rt.int64sField number packedTag tag get set).Consumes :=
  Field.repeated_consumes hrt.int64 (List.forall_mem_singleton.mpr fun m => (hrt.packedInt64 (get m)).map (set m))

theorem uint64sField_consumes {get : M → List UInt64} {set : M → List UInt64 → M} :
    (rt.uint64sField number packedTag tag get set).Consumes :=
  Field.repeated_consumes hrt.uint64 (List.forall_mem_singleton.mpr fun m => (hrt.packedUint64 (get m)).map (set m))

theorem stringsField_consumes {get : M → List String} {set : M → List String → M} :
    (rt.stringsField number tag get set).Consumes :=
  Field.repeated_consumes hrt.string (List.forall_mem_nil _)

theorem messagesField_consumes {message : Message UInt8 E M} {get : N → List M} {set : N → List M → N}
    (h : message.Consumes) : (rt.messagesField number tag message get set).Consumes :=
  Field.repeated_consumes (mergeMessage_consumes hrt.tags hrt.message h message.new) (List.forall_mem_nil _)

theorem messageField_consumes {message : Message UInt8 E (ValueType U)} {get : N → Option (ValueType U)}
    {set : N → Option (ValueType U) → N} (h : message.Consumes) : (rt.messageField number tag message get set).Consumes :=
  Field.optional_consumes fun set => hrt.singular message set h

theorem message_consumes {fields : List (Field UInt8 E M)} {new : M} {get : M → SpecialFields U}
    {set : M → SpecialFields U → M} (hfields : ∀ field ∈ fields, field.Consumes) :
    (rt.message fields new get set).Consumes where
  fields := hfields
  other tag m := (hrt.unknown tag (get m).unknownFields).map fun unknownFields => set m { get m with unknownFields }

theorem valueType_consumes : rt.valueType.Consumes := by
  refine message_consumes hrt ?_
  simp only [List.forall_mem_cons]
  refine ⟨?_, ?_, List.forall_mem_nil _⟩
  all_goals exact int64Field_consumes hrt

theorem label_consumes : rt.label.Consumes := by
  refine message_consumes hrt ?_
  simp only [List.forall_mem_cons]
  refine ⟨?_, ?_, ?_, ?_, List.forall_mem_nil _⟩
  all_goals exact int64Field_consumes hrt

theorem line_consumes : rt.line.Consumes := by
  refine message_consumes hrt ?_
  simp only [List.forall_mem_cons]
  refine ⟨uint64Field_consumes hrt, ?_, ?_, List.forall_mem_nil _⟩
  all_goals exact int64Field_consumes hrt

theorem function_consumes : rt.function.Consumes := by
  refine message_consumes hrt ?_
  simp only [List.forall_mem_cons]
  refine ⟨uint64Field_consumes hrt, ?_, ?_, ?_, ?_, List.forall_mem_nil _⟩
  all_goals exact int64Field_consumes hrt

theorem mapping_consumes : rt.mapping.Consumes := by
  refine message_consumes hrt ?_
  simp only [List.forall_mem_cons]
  refine ⟨?_, ?_, ?_, ?_, ?_, ?_, ?_, ?_, ?_, ?_, List.forall_mem_nil _⟩
  all_goals first
    | exact uint64Field_consumes hrt
    | exact int64Field_consumes hrt
    | exact boolField_consumes hrt

theorem sample_consumes : rt.sample.Consumes := by
  refine message_consumes hrt ?_
  simp only [List.forall_mem_cons]
  refine ⟨?_, ?_, ?_, List.forall_mem_nil _⟩
  · exact uint64sField_consumes hrt
  · exact int64sField_consumes hrt
  · exact messagesField_consumes hrt (label_consumes hrt)

theorem location_consumes : rt.location.Consumes := by
  refine message_consumes hrt ?_
  simp only [List.forall_mem_cons]
  refine ⟨?_, ?_, ?_, ?_, ?_, List.forall_mem_nil _⟩
  · exact uint64Field_consumes hrt
  · exact uint64Field_consumes hrt
  · exact uint64Field_consumes hrt
  · exact messagesField_consumes hrt (line_consumes hrt)
  · exact boolField_consumes hrt

theorem profile_consumes : rt.profile.Consumes := by
  refine message_consumes hrt ?_
  simp only [List.forall_mem_cons]
  refine ⟨?_, ?_, ?_, ?_, ?_, ?_, ?_, ?_, ?_, ?_, ?_, ?_, ?_, ?_, List.forall_mem_nil _⟩
  · exact messagesField_consumes hrt (valueType_consumes hrt)
  · exact messagesField_consumes hrt (sample_consumes hrt)
  · exact messagesField_consumes hrt (mapping_consumes hrt)
  · exact messagesField_consumes hrt (location_consumes hrt)
  · exact messagesField_consumes hrt (function_consumes hrt)
  · exact stringsField_consumes hrt
  · exact int64Field_consumes hrt
  · exact int64Field_consumes hrt
  · exact int64Field_consumes hrt
  · exact int64Field_consumes hrt
  · exact messageField_consumes hrt (valueType_consumes hrt)
  · exact int64Field_consumes hrt
  · exact int64sField_consumes hrt
  · exact int64Field_consumes hrt

end Fields

/-! ### The wire format -/

section WireFormat
variable {V W : Type} {error : WireError}

/-- A value that is read from the front, or the error. -/
theorem orError_consumes {read : Bytes → Option (V × Bytes)}
    (hfront : ∀ input v rest, read input = some (v, rest) →
      ∃ front, input = front ++ rest ∧ ∀ more, read (front ++ more) = some (v, more)) :
    Reader.Consumes fun input => orError error (read input) where
  front input v rest hread := by
    cases hvalue : read input with
    | none =>
      simp only [hvalue] at hread
      cases hread
    | some value =>
      simp only [hvalue] at hread
      cases hread
      obtain ⟨front, hinput, hmore⟩ := hfront input v rest hvalue
      refine ⟨front, hinput, fun more => ?_⟩
      rw [hmore more]
      rfl
  error input hread := by
    cases hvalue : read input with
    | none =>
      simp only [hvalue] at hread
      cases hread
    | some value =>
      simp only [hvalue] at hread
      cases hread

theorem read_consumes (more : Nat) : Reader.Consumes fun input => orError error (Varint.read more input) :=
  orError_consumes fun _ _ _ hread =>
    let ⟨front, _, hinput, hfront⟩ := Varint.read_front hread
    ⟨front, hinput, hfront⟩

theorem readMessageBytes_consumes : readMessageBytes.Consumes := orError_consumes fun _ _ _ => Varint.readBytes_front

/-- What is made of the bytes of a value, or the error. -/
theorem ofBytes_consumes {of : Bytes → Option V} {f : V → W} :
    Reader.Consumes fun input =>
      match readMessageBytes input with
      | .error e => .error e
      | .ok (bytes, input) => (orError error (of bytes)).map fun v => (f v, input) where
  front input v rest hread := by
    cases hbytes : readMessageBytes input with
    | error e =>
      simp only [hbytes] at hread
      cases hread
    | ok bytes =>
      obtain ⟨bytes, rest'⟩ := bytes
      simp only [hbytes] at hread
      cases hvalue : of bytes with
      | none =>
        rw [hvalue] at hread
        cases hread
      | some value =>
        rw [hvalue] at hread
        cases hread
        obtain ⟨front, hinput, hfront⟩ := readMessageBytes_consumes.front input bytes rest hbytes
        refine ⟨front, hinput, fun more => ?_⟩
        simp only [hfront more, hvalue]
        rfl
  error input hread := by
    cases hbytes : readMessageBytes input with
    | error e =>
      simp only [hbytes] at hread
      cases hread
      exact readMessageBytes_consumes.error input hbytes
    | ok bytes =>
      simp only [hbytes] at hread
      cases hvalue : of bytes.1 with
      | none =>
        rw [hvalue] at hread
        cases hread
      | some value =>
        rw [hvalue] at hread
        cases hread

theorem readTag_tags : Tags readTag where
  front input tag rest hread := by
    simp only [readTag] at hread
    split at hread
    · cases hread
    · cases hvalue : Varint.read 4 input with
      | none =>
        rw [hvalue] at hread
        cases hread
      | some value =>
        rw [hvalue] at hread
        cases hread
        obtain ⟨front, hne, hinput, hfront⟩ := Varint.read_front hvalue
        refine ⟨front, hne, hinput, fun more => ?_⟩
        have hne' : front ++ more ≠ [] := List.append_ne_nil_of_left_ne_nil hne more
        rw [readTag, if_neg hne', hfront more]
        rfl
  eof input hread := by
    simp only [readTag] at hread
    split at hread
    · assumption
    · cases hvalue : Varint.read 4 input <;> rw [hvalue] at hread <;> cases hread
  error input hread := by
    simp only [readTag] at hread
    split at hread
    · cases hread
    · cases hvalue : Varint.read 4 input <;> rw [hvalue] at hread <;> cases hread

section Length
variable {read : Reader UInt8 WireError V} {input : Bytes} {n : Nat}

theorem sub_front {front rest : Bytes} : (front ++ rest).length - rest.length = front.length := by
  rw [List.length_append, Nat.add_sub_cancel]

/-- The length of what was read does not depend on what follows. -/
theorem length_front (h : read.Consumes)
    (hlength : ((read input).map fun (_, rest) => input.length - rest.length) = .ok n) (more : Bytes) :
    ((read (input.take n ++ more)).map fun (_, rest) => (input.take n ++ more).length - rest.length) = .ok n := by
  cases hread : read input with
  | error e =>
    rw [hread] at hlength
    cases hlength
  | ok value =>
    obtain ⟨v, rest⟩ := value
    obtain ⟨front, hinput, hfront⟩ := h.front input v rest hread
    rw [hread, hinput] at hlength
    have hn : front.length = n := sub_front.symm.trans (Except.ok.inj hlength)
    have htake : input.take n = front := by rw [hinput, ← hn, List.take_left]
    rw [htake, hfront more]
    exact congrArg Except.ok (sub_front.trans hn)

theorem length_error (h : read.Consumes) :
    ((read input).map fun (_, rest) => input.length - rest.length) ≠ .error none := by
  intro hlength
  cases hread : read input with
  | error e =>
    rw [hread] at hlength
    cases hlength
    exact h.error input hread
  | ok value =>
    rw [hread] at hlength
    cases hlength

end Length

theorem unknownLength_front {tag n : Nat} {input : Bytes} (hlength : unknownLength tag input = .ok n) (more : Bytes) :
    unknownLength tag (input.take n ++ more) = .ok n := by
  unfold unknownLength at hlength ⊢
  split at hlength
  · exact length_front (read_consumes 9) hlength more
  · exact hlength
  · exact length_front readMessageBytes_consumes hlength more
  · exact hlength
  · cases hlength

theorem unknownLength_error (tag : Nat) (input : Bytes) : unknownLength tag input ≠ .error none := by
  unfold unknownLength
  split
  · exact length_error (read_consumes 9)
  · nofun
  · exact length_error readMessageBytes_consumes
  · nofun
  · nofun

theorem readUnknown_consumes (tag : Nat) (fields : List (Nat × Bytes)) : (readUnknown tag fields).Consumes where
  front input v rest hread := by
    simp only [readUnknown] at hread ⊢
    cases hlength : unknownLength tag input with
    | error e =>
      rw [hlength] at hread
      cases hread
    | ok n =>
      rw [hlength] at hread
      dsimp only at hread
      split at hread
      · next hle =>
        cases hread
        refine ⟨input.take n, (List.take_append_drop n input).symm, fun more => ?_⟩
        have hlen : (input.take n).length = n := List.length_take_of_le hle
        have hle' : n ≤ (input.take n ++ more).length := by
          rw [List.length_append, hlen]
          exact Nat.le_add_right ..
        rw [unknownLength_front hlength more]
        dsimp only
        rw [if_pos hle', List.take_left' hlen, List.drop_left' hlen]
      · cases hread
  error input hread := by
    simp only [readUnknown] at hread
    cases hlength : unknownLength tag input with
    | error e =>
      rw [hlength] at hread
      cases hread
      exact unknownLength_error tag input hlength
    | ok n =>
      rw [hlength] at hread
      dsimp only at hread
      split at hread <;> cases hread

theorem wireFormat_consumes : wireFormat.Consumes where
  tags := readTag_tags
  int64 := (read_consumes 9).map int64Of
  uint64 := (read_consumes 9).map uint64Of
  bool := (read_consumes 9).map boolOf
  string := ofBytes_consumes
  packedInt64 _ := ofBytes_consumes
  packedUint64 _ := ofBytes_consumes
  message := readMessageBytes_consumes
  singular message set h := (mergeMessage_consumes readTag_tags readMessageBytes_consumes h (set.getD message.new)).map some
  unknown := readUnknown_consumes

end WireFormat

/-! ### Profiles in parts -/

/-- For every runtime that reads from the front of its stream, every profile and all bytes: the bytes are read into the
    profile, to their end or to an error of the runtime; and when they are read, then they and any bytes behind them are read
    as those bytes are into the profile that was read. -/
theorem profile_parts (hrt : rt.Consumes) (m : Profile U) (bytes : Bytes) :
    rt.profile.mergeFrom rt.readRawTagOrEof m bytes ≠ .error none ∧
      ∀ m', rt.profile.mergeFrom rt.readRawTagOrEof m bytes = .ok m' → ∀ more,
        rt.profile.mergeFrom rt.readRawTagOrEof m (bytes ++ more) = rt.profile.mergeFrom rt.readRawTagOrEof m' more :=
  ⟨(profile_consumes hrt).mergeFrom_ends hrt.tags m bytes,
    fun _ hread more => (profile_consumes hrt).mergeFrom_append hrt.tags more hread⟩

/-- A field that no message has, and two comments that are packed. -/
def strayBytes : Bytes := [120, 150, 1, 106, 2, 5, 7]

theorem strayBytes_parts :
    wireFormat.profile.mergeFrom wireFormat.readRawTagOrEof wireFormat.profile.new strayBytes ≠ .error none ∧
      ∃ m, wireFormat.profile.mergeFrom wireFormat.readRawTagOrEof wireFormat.profile.new strayBytes = .ok m ∧
        m.comment = [5, 7] ∧ m.specialFields.unknownFields = [(120, [150, 1])] ∧
        ∀ more, wireFormat.profile.mergeFrom wireFormat.readRawTagOrEof wireFormat.profile.new (strayBytes ++ more) =
          wireFormat.profile.mergeFrom wireFormat.readRawTagOrEof m more := by
  obtain ⟨hends, happend⟩ := profile_parts wireFormat_consumes wireFormat.profile.new strayBytes
  have hread : wireFormat.profile.mergeFrom wireFormat.readRawTagOrEof wireFormat.profile.new strayBytes = .ok _ := rfl
  exact ⟨hends, _, hread, rfl, rfl, happend _ hread⟩

end Hala.Pprof.Gperf.Runtime
