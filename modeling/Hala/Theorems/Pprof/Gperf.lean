import Mathlib.Algebra.Group.Nat.Defs
import Hala.Pprof.Gperf

/-! The messages of a profile on the wire: what is written of one whose sizes have been computed is read back, and has the size
that was computed. -/

namespace Hala.Pprof.Gperf
open Wire

/-! ### What the fields add -/

section Add
variable {B E M V : Type} {value : Value B E V} {number tag : Nat}

theorem latest_default {V : Type} [DecidableEq V] (default b : V) : latest default default b = b := by
  rw [latest]
  split
  · rfl
  · next h => exact (not_not.mp h).symm

theorem scalar_add [DecidableEq V] (default : V) (get : M → V) (set : M → V → M) (hself : ∀ m, set m (get m) = m) (a b : M) :
    (Field.scalar value number tag default get set).add a b = set a (latest default (get a) (get b)) := by
  simp only [Field.scalar, latest]
  split
  · rfl
  · exact (hself a).symm

end Add

namespace Runtime
variable {E U M N : Type} {rt : Runtime E U} {number tag : Nat} {Fits : M → Prop}

/-! ### Fields -/

theorem int64Field_lawful (hrt : rt.LawfulValues) (hnumber : OneByte number) (htag : tag = 8 * number) (get : M → Int64)
    (set : M → Int64 → M) : (rt.int64Field number tag get set).Lawful rt.readRawTagOrEof Fits := by
  subst htag
  have h := Field.scalar_lawful (hrt.int64 number hnumber) 0 get set
  exact ⟨fun a b _ => h.reads a b trivial, fun m _ => h.size m trivial⟩

theorem uint64Field_lawful (hrt : rt.LawfulValues) (hnumber : OneByte number) (htag : tag = 8 * number) (get : M → UInt64)
    (set : M → UInt64 → M) : (rt.uint64Field number tag get set).Lawful rt.readRawTagOrEof Fits := by
  subst htag
  have h := Field.scalar_lawful (hrt.uint64 number hnumber) 0 get set
  exact ⟨fun a b _ => h.reads a b trivial, fun m _ => h.size m trivial⟩

theorem boolField_lawful (hrt : rt.LawfulValues) (hnumber : OneByte number) (htag : tag = 8 * number) (get : M → Bool)
    (set : M → Bool → M) : (rt.boolField number tag get set).Lawful rt.readRawTagOrEof Fits := by
  subst htag
  have hbool : Value.Lawful rt.readRawTagOrEof { rt.bool with size := fun _ _ => 1 + 1 } number (8 * number) flat
      fun _ => True :=
    ⟨(hrt.bool number hnumber).read,
      fun b hb => (hrt.boolSize number hnumber b).symm.trans ((hrt.bool number hnumber).size b hb)⟩
  have h := Field.scalar_lawful hbool false get set
  exact ⟨fun a b _ => h.reads a b trivial, fun m _ => h.size m trivial⟩

section Lists
variable {value : Value UInt8 E N} {packed : List (Arm UInt8 E M)} {cached : (Nat → UInt32) → N → N} {get : M → List N}
  {set : M → List N → M}

theorem repeated_lawful {FitsValue : N → Prop} (h : value.Lawful rt.readRawTagOrEof number tag cached FitsValue)
    (hfits : ∀ m, Fits m → ∀ v ∈ get m, FitsValue v) (hget : ∀ m vs, get (set m vs) = vs)
    (hset : ∀ m vs vs', set (set m vs) vs' = set m vs') (hself : ∀ m, set m (get m) = m) :
    (Field.repeated value number tag packed cached get set).Lawful rt.readRawTagOrEof Fits := by
  have h := Field.repeated_lawful h packed get set hget hset hself
  exact ⟨fun a b hb => h.reads a b (hfits b hb), fun m hm => h.size m (hfits m hm)⟩

/-- A part is no larger than the whole. -/
theorem part_le_size {message : Message UInt8 E M}
    (hfield : Field.repeated value number tag packed cached get set ∈ message.fields) {m : M} {v : N} (hv : v ∈ get m) :
    value.size number v ≤ message.size m := by
  have hpart : value.size number v ∈ (get m).map (value.size number) := List.mem_map_of_mem hv
  calc value.size number v ≤ ((get m).map (value.size number)).sum := List.single_le_sum (fun _ _ => Nat.zero_le _) _ hpart
    _ ≤ message.size m := Message.size_field_le hfield m

/-- Every part has a size, so there are no more of them than bytes. -/
theorem count_le_size {message : Message UInt8 E M}
    (hfield : Field.repeated value number tag packed cached get set ∈ message.fields) {m : M}
    (hpos : ∀ v ∈ get m, 1 ≤ value.size number v) : (get m).length ≤ message.size m := by
  have hparts : ∀ size ∈ (get m).map (value.size number), 1 ≤ size := by
    intro size hsize
    obtain ⟨v, hv, rfl⟩ := List.mem_map.mp hsize
    exact hpos v hv
  calc (get m).length = ((get m).map (value.size number)).length := by rw [List.length_map]
    _ ≤ ((get m).map (value.size number)).sum := List.length_le_sum_of_one_le _ hparts
    _ ≤ message.size m := Message.size_field_le hfield m

end Lists

/-! ### Messages -/

/-- What is written of messages that fit, one after another, is added to the one it is read into, and has the sizes that were
    computed; a new message with it is the message that was written. -/
structure RoundTrips (rt : Runtime E U) (message : Message UInt8 E M) (Fits : M → Prop) : Prop where
  merge : ∀ (a : M) (ms : List M), (∀ m ∈ ms, Fits m ∧ message.size m < 2 ^ 31) →
    message.mergeFrom rt.readRawTagOrEof a (ms.flatMap fun m => message.write (message.computeSize m).2) =
      .ok ((ms.map message.uncached).foldl message.add a)
  size : ∀ m, Fits m → message.size m < 2 ^ 31 → message.size m = (message.write (message.computeSize m).2).length
  cachedSize : ∀ m, message.cachedSize (message.computeSize m).2 = .ofNat (message.size m)
  new : ∀ m, Fits m → message.add message.new (message.uncached m) = message.uncached m

theorem RoundTrips.of_fields {fields : List (Field UInt8 E M)} {new : M} {get : M → SpecialFields U}
    {set : M → SpecialFields U → M} (hrt : rt.LawfulValues) (htags : ((fields.flatMap (·.arms)).map (·.tag)).Nodup)
    (hseparate : (rt.message fields new get set).Separate)
    (hfields : ∀ field ∈ fields,
      field.Lawful rt.readRawTagOrEof fun m => Fits m ∧ (rt.message fields new get set).size m < 2 ^ 31)
    (hplain : ∀ m, Fits m → (get m).unknownFields = rt.noUnknownFields)
    (huncached : ∀ m, get ((rt.message fields new get set).uncached m) = { unknownFields := (get m).unknownFields })
    (hnew : ∀ m, get m = rt.newSpecialFields → (rt.message fields new get set).add new m = m) :
    RoundTrips rt (rt.message fields new get set) Fits where
  merge a ms hms := by
    refine Message.mergeFrom_writes hrt.eof htags hseparate hfields (fun m hm => ⟨hms m hm, ?_⟩) a
    change rt.writeUnknownFields (get m).unknownFields = []
    rw [hplain m (hms m hm).1, hrt.noUnknownFields.1]
  size m hm hsize := by
    refine Message.size_eq_length hseparate hfields ⟨hm, hsize⟩ ?_
    change rt.unknownFieldsSize (get m).unknownFields = (rt.writeUnknownFields (get m).unknownFields).length
    rw [hplain m hm, hrt.noUnknownFields.1, hrt.noUnknownFields.2]
    rfl
  cachedSize := hseparate.cachedSize .ofNat
  new m hm := hnew _ ((huncached m).trans (by rw [hplain m hm]; rfl))

theorem RoundTrips.parse {message : Message UInt8 E M} (h : RoundTrips rt message Fits) {m : M} (hm : Fits m)
    (hsize : message.size m < 2 ^ 31) :
    message.mergeFrom rt.readRawTagOrEof message.new (message.write (message.computeSize m).2) = .ok (message.uncached m) := by
  have hmerge := h.merge message.new [m] fun _ hmem => List.mem_singleton.mp hmem ▸ ⟨hm, hsize⟩
  rw [List.flatMap_singleton] at hmerge
  exact hmerge.trans (congrArg _ (h.new m hm))

/-- A message in a field is read up to its length, whatever is made of it. -/
theorem messageValue_read {message : Message UInt8 E M} (hrt : rt.LawfulValues) (h : RoundTrips rt message Fits)
    (hnumber : OneByte number) {m : M} (hm : Fits m) (hsize : message.size m < 2 ^ 31) (rest : Bytes) :
    ∃ input, rt.readRawTagOrEof ((rt.messageValue message).write number (message.computeSize m).2 ++ rest) =
        .ok (some (8 * number + 2, input)) ∧
      rt.readMessage input = .ok (message.write (message.computeSize m).2, rest) := by
  have hlength := h.size m hm hsize
  simp only [messageValue, h.cachedSize, hlength]
  exact hrt.message number _ rest hnumber (hlength ▸ hsize)

/-- A message in a field. -/
theorem messageValue_lawful {message : Message UInt8 E M} (hrt : rt.LawfulValues) (h : RoundTrips rt message Fits)
    (hnumber : OneByte number) :
    (rt.messageValue message).Lawful rt.readRawTagOrEof number (8 * number + 2) message.cached
      fun m => Fits m ∧ message.size m < 2 ^ 31 where
  read m rest hm := by
    obtain ⟨input, htag, hread⟩ := messageValue_read hrt h hnumber hm.1 hm.2 rest
    refine ⟨input, htag, ?_⟩
    simp only [messageValue, mergeMessage, hread, h.parse hm.1 hm.2]
    rfl
  size m hm := by
    have hlength := h.size m hm.1 hm.2
    have hwritten := hrt.messageSize number _ hnumber (hlength ▸ hm.2)
    rw [← hlength] at hwritten
    change _ = (rt.writeMessageFieldWithCachedSize number (message.cachedSize (message.computeSize m).2) _).length
    rw [h.cachedSize]
    exact hwritten.symm

theorem size_le_messageValue (message : Message UInt8 E M) (number : Nat) (m : M) :
    message.size m ≤ (rt.messageValue message).size number m := Nat.le_add_left ..

section MessageFields
variable {message : Message UInt8 E M} {FitsIn : N → Prop} {message' : Message UInt8 E N}

theorem messagesField_lawful {get : N → List M} {set : N → List M → N} (hrt : rt.LawfulValues) (h : RoundTrips rt message Fits)
    (hnumber : OneByte number) (htag : tag = 8 * number + 2)
    (hfield : rt.messagesField number tag message get set ∈ message'.fields)
    (hfits : ∀ n, FitsIn n → ∀ m ∈ get n, Fits m) (hget : ∀ m vs, get (set m vs) = vs)
    (hset : ∀ m vs vs', set (set m vs) vs' = set m vs') (hself : ∀ m, set m (get m) = m) :
    (rt.messagesField number tag message get set).Lawful rt.readRawTagOrEof
      fun n => FitsIn n ∧ message'.size n < 2 ^ 31 := by
  subst htag
  refine repeated_lawful (messageValue_lawful hrt h hnumber) (fun n hn m hm => ⟨hfits n hn.1 m hm, ?_⟩) hget hset hself
  calc message.size m ≤ (rt.messageValue message).size number m := size_le_messageValue ..
    _ ≤ message'.size n := part_le_size hfield hm
    _ < 2 ^ 31 := hn.2

theorem messageField_lawful {type : Message UInt8 E (ValueType U)} {get : N → Option (ValueType U)}
    {set : N → Option (ValueType U) → N} {Fits : ValueType U → Prop} (hrt : rt.LawfulValues) (h : RoundTrips rt type Fits)
    (hinto : ∀ set m input rest, Fits m → type.size m < 2 ^ 31 →
      rt.readMessage input = .ok (type.write (type.computeSize m).2, rest) →
      rt.readSingularMessageIntoField type set input = .ok (set.merge rt.again (some (type.uncached m)), rest))
    (hnumber : OneByte number) (htag : tag = 8 * number + 2)
    (hfield : rt.messageField number tag type get set ∈ message'.fields)
    (hfits : ∀ n, FitsIn n → ∀ m, get n = some m → Fits m) (hget : ∀ m v, get (set m v) = v)
    (hself : ∀ m, set m (get m) = m) :
    (rt.messageField number tag type get set).Lawful rt.readRawTagOrEof fun n => FitsIn n ∧ message'.size n < 2 ^ 31 := by
  subst htag
  have hlawful := Field.optional_lawful (messageValue_lawful hrt h hnumber) (fun set m rest hm => by
    obtain ⟨input, htag, hread⟩ := messageValue_read hrt h hnumber hm.1 hm.2 rest
    exact ⟨input, htag, hinto set m input rest hm.1 hm.2 hread⟩) get set hget hself
  have hparts : ∀ n, FitsIn n ∧ message'.size n < 2 ^ 31 → ∀ m, get n = some m → Fits m ∧ type.size m < 2 ^ 31 := by
    rintro n ⟨hn, hsize⟩ m hm
    refine ⟨hfits n hn m hm, ?_⟩
    have hwhole : (rt.messageValue type).size number m ≤ message'.size n := by
      have hle := Message.size_field_le hfield n
      simpa [messageField, Field.optional, hm] using hle
    exact (size_le_messageValue type number m).trans_lt (hwhole.trans_lt hsize)
  exact ⟨fun a b hb => hlawful.reads a b (hparts b hb), fun n hn => hlawful.size n (hparts n hn)⟩

end MessageFields

/-! ### The messages of the profile -/

theorem valueType_separate : rt.valueType.Separate := ⟨fun _ _ => rfl, fun _ _ => rfl, fun _ _ => rfl, fun _ _ => rfl⟩

theorem label_separate : rt.label.Separate := ⟨fun _ _ => rfl, fun _ _ => rfl, fun _ _ => rfl, fun _ _ => rfl⟩

theorem line_separate : rt.line.Separate := ⟨fun _ _ => rfl, fun _ _ => rfl, fun _ _ => rfl, fun _ _ => rfl⟩

theorem function_separate : rt.function.Separate := ⟨fun _ _ => rfl, fun _ _ => rfl, fun _ _ => rfl, fun _ _ => rfl⟩

theorem mapping_separate : rt.mapping.Separate := ⟨fun _ _ => rfl, fun _ _ => rfl, fun _ _ => rfl, fun _ _ => rfl⟩

theorem sample_separate : rt.sample.Separate := ⟨fun _ _ => rfl, fun _ _ => rfl, fun _ _ => rfl, fun _ _ => rfl⟩

theorem location_separate : rt.location.Separate := ⟨fun _ _ => rfl, fun _ _ => rfl, fun _ _ => rfl, fun _ _ => rfl⟩

theorem profile_separate : rt.profile.Separate := ⟨fun _ _ => rfl, fun _ _ => rfl, fun _ _ => rfl, fun _ _ => rfl⟩

theorem valueType_roundTrips (hrt : rt.LawfulValues) :
    RoundTrips rt rt.valueType fun m => m.specialFields.unknownFields = rt.noUnknownFields := by
  refine .of_fields hrt (show [8, 16].Nodup by decide) valueType_separate ?_ (fun m hm => hm) (fun _ => rfl) ?_
  · simp only [List.forall_mem_cons]
    refine ⟨?_, ?_, List.forall_mem_nil _⟩
    all_goals exact int64Field_lawful hrt (by decide) (by decide) ..
  · rintro ⟨type, unit, specialFields⟩ rfl
    simp only [Message.add, message, List.foldl_cons, List.foldl_nil, int64Field]
    simp (disch := intro; rfl) only [scalar_add, latest_default]

theorem label_roundTrips (hrt : rt.LawfulValues) :
    RoundTrips rt rt.label fun m => m.specialFields.unknownFields = rt.noUnknownFields := by
  refine .of_fields hrt (show [8, 16, 24, 32].Nodup by decide) label_separate ?_ (fun m hm => hm) (fun _ => rfl) ?_
  · simp only [List.forall_mem_cons]
    refine ⟨?_, ?_, ?_, ?_, List.forall_mem_nil _⟩
    all_goals exact int64Field_lawful hrt (by decide) (by decide) ..
  · rintro ⟨key, str, num, numUnit, specialFields⟩ rfl
    simp only [Message.add, message, List.foldl_cons, List.foldl_nil, int64Field]
    simp (disch := intro; rfl) only [scalar_add, latest_default]

theorem line_roundTrips (hrt : rt.LawfulValues) :
    RoundTrips rt rt.line fun m => m.specialFields.unknownFields = rt.noUnknownFields := by
  refine .of_fields hrt (show [8, 16, 24].Nodup by decide) line_separate ?_ (fun m hm => hm) (fun _ => rfl) ?_
  · simp only [List.forall_mem_cons]
    refine ⟨uint64Field_lawful hrt (by decide) (by decide) .., ?_, ?_, List.forall_mem_nil _⟩
    all_goals exact int64Field_lawful hrt (by decide) (by decide) ..
  · rintro ⟨functionId, line, column, specialFields⟩ rfl
    simp only [Message.add, message, List.foldl_cons, List.foldl_nil, int64Field, uint64Field]
    simp (disch := intro; rfl) only [scalar_add, latest_default]

theorem function_roundTrips (hrt : rt.LawfulValues) :
    RoundTrips rt rt.function fun m => m.specialFields.unknownFields = rt.noUnknownFields := by
  refine .of_fields hrt (show [8, 16, 24, 32, 40].Nodup by decide) function_separate ?_ (fun m hm => hm) (fun _ => rfl) ?_
  · simp only [List.forall_mem_cons]
    refine ⟨uint64Field_lawful hrt (by decide) (by decide) .., ?_, ?_, ?_, ?_, List.forall_mem_nil _⟩
    all_goals exact int64Field_lawful hrt (by decide) (by decide) ..
  · rintro ⟨id, name, systemName, filename, startLine, specialFields⟩ rfl
    simp only [Message.add, message, List.foldl_cons, List.foldl_nil, int64Field, uint64Field]
    simp (disch := intro; rfl) only [scalar_add, latest_default]

theorem mapping_roundTrips (hrt : rt.LawfulValues) :
    RoundTrips rt rt.mapping fun m => m.specialFields.unknownFields = rt.noUnknownFields := by
  refine .of_fields hrt (show [8, 16, 24, 32, 40, 48, 56, 64, 72, 80].Nodup by decide) mapping_separate ?_ (fun m hm => hm)
    (fun _ => rfl) ?_
  · simp only [List.forall_mem_cons]
    refine ⟨?_, ?_, ?_, ?_, ?_, ?_, ?_, ?_, ?_, ?_, List.forall_mem_nil _⟩
    all_goals first
      | exact uint64Field_lawful hrt (by decide) (by decide) ..
      | exact int64Field_lawful hrt (by decide) (by decide) ..
      | exact boolField_lawful hrt (by decide) (by decide) ..
  · rintro ⟨id, memoryStart, memoryLimit, fileOffset, filename, buildId, hasFunctions, hasFilenames, hasLineNumbers,
      hasInlineFrames, specialFields⟩ rfl
    simp only [Message.add, message, List.foldl_cons, List.foldl_nil, int64Field, uint64Field, boolField]
    simp (disch := intro; rfl) only [scalar_add, latest_default]

theorem sample_roundTrips (hrt : rt.LawfulValues) : RoundTrips rt rt.sample fun m => m.Plain rt.noUnknownFields := by
  refine .of_fields hrt (show [10, 8, 18, 16, 26].Nodup by decide) sample_separate ?_ (fun m hm => hm.1) (fun _ => rfl) ?_
  · simp only [List.forall_mem_cons]
    refine ⟨?_, ?_, ?_, List.forall_mem_nil _⟩
    · exact repeated_lawful (hrt.uint64 1 (by decide)) (fun _ _ _ _ => trivial) (fun _ _ => rfl) (fun _ _ _ => rfl)
        fun _ => rfl
    · exact repeated_lawful (hrt.int64 2 (by decide)) (fun _ _ _ _ => trivial) (fun _ _ => rfl) (fun _ _ _ => rfl)
        fun _ => rfl
    · exact messagesField_lawful hrt (label_roundTrips hrt) (by decide) rfl (by simp [message]) (fun m hm => hm.2)
        (fun _ _ => rfl) (fun _ _ _ => rfl) fun _ => rfl
  · rintro ⟨locationId, value, label, specialFields⟩ rfl
    rfl

theorem location_roundTrips (hrt : rt.LawfulValues) : RoundTrips rt rt.location fun m => m.Plain rt.noUnknownFields := by
  refine .of_fields hrt (show [8, 16, 24, 34, 40].Nodup by decide) location_separate ?_ (fun m hm => hm.1) (fun _ => rfl) ?_
  · simp only [List.forall_mem_cons]
    refine ⟨?_, ?_, ?_, ?_, ?_, List.forall_mem_nil _⟩
    · exact uint64Field_lawful hrt (by decide) (by decide) ..
    · exact uint64Field_lawful hrt (by decide) (by decide) ..
    · exact uint64Field_lawful hrt (by decide) (by decide) ..
    · exact messagesField_lawful hrt (line_roundTrips hrt) (by decide) rfl (by simp [message]) (fun m hm => hm.2)
        (fun _ _ => rfl) (fun _ _ _ => rfl) fun _ => rfl
    · exact boolField_lawful hrt (by decide) (by decide) ..
  · rintro ⟨id, mappingId, address, line, isFolded, specialFields⟩ rfl
    simp only [Message.add, message, List.foldl_cons, List.foldl_nil, uint64Field, boolField, messagesField, Field.repeated]
    simp (disch := intro; rfl) only [scalar_add, latest_default, List.nil_append]

theorem profile_add (rt : Runtime E U) (a b : Profile U) : rt.profile.add a b = a.append rt.again b := by
  simp only [Message.add, profile, message, List.foldl_cons, List.foldl_nil, int64Field, int64sField, stringsField,
    messagesField, messageField, Field.repeated, Field.optional]
  simp (disch := intro; rfl) only [scalar_add]
  rfl

theorem append_new (again : ValueType U → ValueType U → ValueType U) (m : Profile U)
    (hm : m.specialFields = rt.newSpecialFields) : Profile.append again { specialFields := rt.newSpecialFields } m = m := by
  obtain ⟨⟩ := m
  simp only at hm
  simp [Profile.append, latest_default, hm]

theorem strings_mem (rt : Runtime E U) :
    rt.stringsField 6 50 (·.stringTable) (fun m stringTable => { m with stringTable }) ∈ rt.profile.fields := by
  simp [profile, message]

theorem functions_mem (rt : Runtime E U) :
    rt.messagesField 5 42 rt.function (·.function) (fun m function => { m with function }) ∈ rt.profile.fields := by
  simp [profile, message]

theorem profile_roundTrips (hrt : rt.Lawful) : RoundTrips rt rt.profile fun m => m.Plain rt.noUnknownFields := by
  have hvalues : rt.LawfulValues := hrt.toLawfulValues
  refine .of_fields hvalues (show [10, 18, 26, 34, 42, 50, 56, 64, 72, 80, 90, 96, 106, 104, 112].Nodup by decide)
    profile_separate ?_ (fun m hm => hm.specialFields) (fun _ => rfl) fun m hm => ?_
  · simp only [List.forall_mem_cons]
    refine ⟨?_, ?_, ?_, ?_, ?_, ?_, ?_, ?_, ?_, ?_, ?_, ?_, ?_, ?_, List.forall_mem_nil _⟩
    · exact messagesField_lawful hvalues (valueType_roundTrips hvalues) (by decide) rfl (by simp [message])
        (fun m hm => hm.sampleType) (fun _ _ => rfl) (fun _ _ _ => rfl) fun _ => rfl
    · exact messagesField_lawful hvalues (sample_roundTrips hvalues) (by decide) rfl (by simp [message])
        (fun m hm => hm.sample) (fun _ _ => rfl) (fun _ _ _ => rfl) fun _ => rfl
    · exact messagesField_lawful hvalues (mapping_roundTrips hvalues) (by decide) rfl (by simp [message])
        (fun m hm => hm.mapping) (fun _ _ => rfl) (fun _ _ _ => rfl) fun _ => rfl
    · exact messagesField_lawful hvalues (location_roundTrips hvalues) (by decide) rfl (by simp [message])
        (fun m hm => hm.location) (fun _ _ => rfl) (fun _ _ _ => rfl) fun _ => rfl
    · exact messagesField_lawful hvalues (function_roundTrips hvalues) (by decide) rfl (by simp [message])
        (fun m hm => hm.function) (fun _ _ => rfl) (fun _ _ _ => rfl) fun _ => rfl
    · refine repeated_lawful (hvalues.string 6 (by decide)) (fun m hm s hs => ?_) (fun _ _ => rfl) (fun _ _ _ => rfl)
        fun _ => rfl
      calc s.utf8ByteSize < rt.string.size 6 s := hvalues.stringSize 6 s
        _ ≤ rt.profile.size m := part_le_size (strings_mem rt) hs
        _ < 2 ^ 31 := hm.2
    · exact int64Field_lawful hvalues (by decide) (by decide) ..
    · exact int64Field_lawful hvalues (by decide) (by decide) ..
    · exact int64Field_lawful hvalues (by decide) (by decide) ..
    · exact int64Field_lawful hvalues (by decide) (by decide) ..
    · refine messageField_lawful hvalues (valueType_roundTrips hvalues) (fun set m input rest hm hsize hread => ?_)
        (by decide) rfl (by simp [message]) (fun m hm => hm.periodType) (fun _ _ => rfl) fun _ => rfl
      -- A type of the period has no messages in it, so that its own cached size is not written.
      refine hrt.singular set (rt.valueType.uncached m) input rest ?_ hsize hread
      change { unknownFields := m.specialFields.unknownFields : SpecialFields U } = _
      rw [hm]
      rfl
    · exact int64Field_lawful hvalues (by decide) (by decide) ..
    · exact repeated_lawful (hvalues.int64 13 (by decide)) (fun _ _ _ _ => trivial) (fun _ _ => rfl) (fun _ _ _ => rfl)
        fun _ => rfl
    · exact int64Field_lawful hvalues (by decide) (by decide) ..
  · exact (profile_add rt _ m).trans (append_new rt.again m hm)

end Runtime

end Hala.Pprof.Gperf
