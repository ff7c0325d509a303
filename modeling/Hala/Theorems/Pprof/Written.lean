import Hala.Pprof.Report
import Hala.Pprof.WireFormat
import Hala.Theorems.Pprof.Gperf
import Hala.Theorems.Pprof.Profile

/-! Profiles as bytes.

The bytes of profiles one after another are read as all that they have; and a report that is built and written is read as
what was reported. -/

namespace Hala.Pprof
open Wire

namespace Gperf.Runtime
variable {E U : Type} {rt : Runtime E U}

/-! ### The wire format -/

section WireFormat
variable {V : Type}

theorem writeTag_of_oneByte {number wireType : Nat} (hnumber : OneByte number) (htype : wireType < 8) :
    writeTag number wireType = [UInt8.ofNat (8 * number + wireType)] := by
  obtain ⟨-, hle⟩ := hnumber
  exact Varint.write_of_lt (by omega)

theorem readTag_append {number wireType : Nat} (hnumber : OneByte number) (htype : wireType < 8) (rest : Bytes) :
    readTag (writeTag number wireType ++ rest) = .ok (some (8 * number + wireType, rest)) := by
  have hne : writeTag number wireType ++ rest ≠ [] := by simp [writeTag_of_oneByte hnumber htype]
  obtain ⟨-, hle⟩ := hnumber
  have hlt : 8 * number + wireType < 128 ^ 5 := by omega
  rw [readTag, if_neg hne, writeTag, Varint.read_write hlt]
  rfl

theorem varint_lawful {put : V → Nat} {get : Nat → V} (hput : ∀ v, put v < 2 ^ 64) (hget : ∀ v, get (put v) = v)
    (hnumber : OneByte number) : (varint put get).Lawful readTag number (8 * number) flat fun _ => True where
  read v rest _ := by
    have hlt : put v < 128 ^ 10 := (hput v).trans_le (by decide)
    refine ⟨Varint.write 9 (put v) ++ rest, ?_, ?_⟩
    · simp only [varint, List.append_assoc]
      exact readTag_append hnumber (by decide : 0 < 8) _
    · simp only [varint, Varint.read_write hlt, orError, Except.map, hget]
  size v _ := rfl

theorem readMessageBytes_append {bytes : Bytes} (h : bytes.length < 2 ^ 31) (rest : Bytes) :
    readMessageBytes (Varint.write 9 bytes.length ++ bytes ++ rest) = .ok (bytes, rest) := by
  have hlt : bytes.length < 128 ^ 10 := h.trans_le (by decide)
  rw [readMessageBytes, Varint.readBytes_append hlt]
  rfl

theorem length_utf8 (s : String) : (utf8 s).length = s.utf8ByteSize := rfl

theorem fromUTF8_utf8 (s : String) : String.fromUTF8? ⟨(utf8 s).toArray⟩ = some s := by
  have hbytes : (⟨(utf8 s).toArray⟩ : ByteArray) = s.toByteArray := rfl
  rw [hbytes, String.fromUTF8?, dif_pos s.isValidUTF8]
  rfl

theorem stringValue_lawful (hnumber : OneByte number) :
    stringValue.Lawful readTag number (8 * number + 2) flat fun s => s.utf8ByteSize < 2 ^ 31 where
  read s rest hs := by
    refine ⟨Varint.write 9 (utf8 s).length ++ utf8 s ++ rest, ?_, ?_⟩
    · simp only [stringValue, List.append_assoc]
      exact readTag_append hnumber (by decide : 2 < 8) _
    · simp only [stringValue, readMessageBytes_append (length_utf8 s ▸ hs), fromUTF8_utf8]
      rfl
  size s _ := rfl

theorem wireFormat_lawfulValues : wireFormat.LawfulValues where
  eof := rfl
  int64 number := varint_lawful (fun v => v.toUInt64.toNat_lt) fun v => by simp [int64Of]
  uint64 number := varint_lawful (fun v => v.toNat_lt) fun v => by simp [uint64Of]
  bool number := by
    have hput : ∀ b : Bool, b.toNat < 2 ^ 64 := fun b => b.toNat_lt.trans (by decide)
    have hget : ∀ b : Bool, boolOf b.toNat = b := fun b => by cases b <;> rfl
    exact varint_lawful hput hget
  boolSize number hnumber b := by
    change (writeTag number 0 ++ _).length = 2
    rw [writeTag_of_oneByte hnumber (by decide)]
    cases b <;> rfl
  string number := stringValue_lawful
  stringSize number s := by
    simp only [wireFormat, stringValue, List.length_append, length_utf8]
    have htag : 0 < (writeTag number 2).length := by
      rw [writeTag, Varint.write]
      split <;> simp
    omega
  message number body rest hnumber hbody := by
    have hsize : (UInt32.ofNat body.length).toNat = body.length := by
      rw [UInt32.toNat_ofNat', Nat.mod_eq_of_lt (hbody.trans (by decide))]
    refine ⟨Varint.write 9 body.length ++ body ++ rest, ?_, readMessageBytes_append hbody rest⟩
    simp only [wireFormat, hsize, List.append_assoc]
    exact readTag_append hnumber (by decide : 2 < 8) _
  messageSize number body hnumber hbody := by
    have hsize : (UInt32.ofNat body.length).toNat = body.length := by
      rw [UInt32.toNat_ofNat', Nat.mod_eq_of_lt (hbody.trans (by decide))]
    simp only [wireFormat, hsize, writeTag_of_oneByte hnumber (by decide : 2 < 8), List.length_append, List.length_singleton]
  noUnknownFields := ⟨rfl, rfl⟩

theorem valueType_add (rt : Runtime E U) (a b : ValueType U) : rt.valueType.add a b = a.append b := by
  simp only [Message.add, valueType, message, List.foldl_cons, List.foldl_nil, int64Field]
  simp (disch := intro; rfl) only [scalar_add]
  rfl

theorem wireFormat_lawful : wireFormat.Lawful where
  toLawfulValues := wireFormat_lawfulValues
  singular set type input rest htype hsize hread := by
    obtain ⟨type, unit, specialFields⟩ := type
    cases htype
    let written : ValueType (List (Nat × Bytes)) := ⟨type, unit, wireFormat.newSpecialFields⟩
    have hround := valueType_roundTrips wireFormat_lawfulValues
    have hmerge : ∀ into, wireFormat.valueType.mergeFrom readTag into (wireFormat.valueType.write written) =
        .ok (wireFormat.valueType.add into written) := by
      intro into
      have hone := hround.merge into [written] fun m hm => List.mem_singleton.mp hm ▸ ⟨rfl, hsize⟩
      rwa [List.flatMap_singleton] at hone
    have hread' : readMessageBytes input = .ok (wireFormat.valueType.write written, rest) := hread
    change readSingular wireFormat.valueType set input = _
    simp only [readSingular, mergeMessage, hread', hmerge]
    cases set with
    | none =>
      have hnew : wireFormat.valueType.add wireFormat.valueType.new written = written := hround.new written rfl
      rw [Option.getD_none, hnew]
      rfl
    | some set =>
      rw [Option.getD_some, valueType_add]
      rfl

end WireFormat

theorem strings_le_size (hrt : rt.LawfulValues) (p : Profile U) : p.stringTable.length ≤ rt.profile.size p :=
  count_le_size (strings_mem rt) fun s _ => Nat.succ_le_of_lt ((Nat.zero_le _).trans_lt (hrt.stringSize 6 s))

theorem functions_le_size (rt : Runtime E U) (p : Profile U) : p.function.length ≤ rt.profile.size p := by
  refine count_le_size (functions_mem rt) fun func _ => ?_
  simp only [messageValue]
  omega

/-! ### Profiles one after another -/

/-- For every runtime that follows the wire format, and profiles without unknown fields whose sizes are below 2^31: what is
    written of them, one after another and each behind `compute_size`, is read into a profile as what the wire format says of
    their fields in that order. -/
theorem profiles_merge (hrt : rt.Lawful) (a : Profile U) (profiles : List (Profile U))
    (hprofiles : ∀ p ∈ profiles, p.Plain rt.noUnknownFields ∧ (rt.profile.computeSize p).1 < 2 ^ 31) :
    rt.profile.mergeFrom rt.readRawTagOrEof a (profiles.flatMap fun p => rt.profile.write (rt.profile.computeSize p).2) =
      .ok ((profiles.map rt.profile.uncached).foldl (Profile.append rt.again) a) := by
  have hadd : rt.profile.add = Profile.append rt.again := funext₂ (profile_add rt)
  rw [(profile_roundTrips hrt).merge a profiles hprofiles, hadd]

/-- The special fields of a message whose size was computed when it was larger. -/
def stale : SpecialFields (List (Nat × Bytes)) := { unknownFields := [], cachedSize := 99 }

/-- A profile with a type of the period, and one with another type, a comment and a time. -/
def timedProfiles : List (Profile (List (Nat × Bytes))) :=
  [{ stringTable := ["", "cpu"], periodType := some { type := 1, unit := -1, specialFields := stale }, timeNanos := 7,
     specialFields := stale },
   { sample := [{ locationId := [300], value := [-2], label := [{ key := 1, specialFields := stale }], specialFields := stale }],
     periodType := some { type := 2, specialFields := stale }, comment := [1, 128], timeNanos := 9, specialFields := stale }]

theorem timedProfiles_plain : ∀ p ∈ timedProfiles, p.Plain wireFormat.noUnknownFields := by
  simp only [timedProfiles, List.forall_mem_cons]
  refine ⟨?_, ?_, List.forall_mem_nil _⟩ <;> constructor <;> simp [wireFormat, Sample.Plain, stale]

/-- The two types of the period are merged. -/
theorem timedProfiles_merge :
    (∀ p ∈ timedProfiles, p.Plain wireFormat.noUnknownFields ∧ (wireFormat.profile.computeSize p).1 < 2 ^ 31) ∧
    ∃ merged, merged = (timedProfiles.map wireFormat.profile.uncached).foldl (Profile.append wireFormat.again)
        wireFormat.profile.new ∧
      merged.periodType = some { type := 2, unit := -1, specialFields := wireFormat.newSpecialFields } ∧ merged.timeNanos = 9 ∧
      wireFormat.profile.mergeFrom wireFormat.readRawTagOrEof wireFormat.profile.new
        (timedProfiles.flatMap fun p => wireFormat.profile.write (wireFormat.profile.computeSize p).2) = .ok merged := by
  have hsize : ∀ p ∈ timedProfiles, (wireFormat.profile.computeSize p).1 < 2 ^ 31 := by decide +kernel
  have hfits := fun p hp => And.intro (timedProfiles_plain p hp) (hsize p hp)
  exact ⟨hfits, _, rfl, rfl, rfl, profiles_merge wireFormat_lawful _ timedProfiles hfits⟩

/-- A profile whose size has been computed is read back from what is written of it, which has the size that was computed. -/
theorem profile_written (hrt : rt.Lawful) {p : Profile U} (hp : p.Plain rt.noUnknownFields)
    (hsize : (rt.profile.computeSize p).1 < 2 ^ 31) :
    rt.profile.mergeFrom rt.readRawTagOrEof rt.profile.new (rt.profile.write (rt.profile.computeSize p).2) =
        .ok (rt.profile.uncached p) ∧
      (rt.profile.computeSize p).1 = (rt.profile.write (rt.profile.computeSize p).2).length :=
  ⟨(profile_roundTrips hrt).parse hp hsize, (profile_roundTrips hrt).size p hp hsize⟩

theorem timedProfile_written : ∃ p : Profile (List (Nat × Bytes)),
    p.stringTable = ["", "cpu"] ∧ p.Plain wireFormat.noUnknownFields ∧ (wireFormat.profile.computeSize p).1 < 2 ^ 31 ∧
    wireFormat.profile.mergeFrom wireFormat.readRawTagOrEof wireFormat.profile.new
        (wireFormat.profile.write (wireFormat.profile.computeSize p).2) = .ok (wireFormat.profile.uncached p) ∧
    (wireFormat.profile.computeSize p).1 = (wireFormat.profile.write (wireFormat.profile.computeSize p).2).length := by
  let p : Profile (List (Nat × Bytes)) := timedProfiles.head (by decide)
  have hplain : p.Plain wireFormat.noUnknownFields := timedProfiles_plain p (List.head_mem _)
  have hsize : (wireFormat.profile.computeSize p).1 < 2 ^ 31 := by decide +kernel
  exact ⟨p, rfl, hplain, hsize, profile_written wireFormat_lawful hplain hsize⟩

/-- Without `compute_size`, the lengths that are written are those of before. -/
example : ∀ p ∈ timedProfiles, wireFormat.profile.mergeFrom wireFormat.readRawTagOrEof wireFormat.profile.new
    (wireFormat.profile.write p) = .error (some .unexpectedEof) := by decide +kernel

end Gperf.Runtime

/-! ### The messages of a report -/

section Messages
variable {U : Type} (unknown : U)

def Proto.ValueType.message (type : Proto.ValueType) : Gperf.ValueType U where
  type := .ofInt type.type
  unit := .ofInt type.unit
  specialFields := { unknownFields := unknown }

def Proto.Label.message (label : Proto.Label) : Gperf.Label U where
  key := .ofInt label.key
  str := .ofInt label.str
  numUnit := .ofInt label.numUnit
  specialFields := { unknownFields := unknown }

def Proto.Sample.message (sample : Proto.Sample) : Gperf.Sample U where
  locationId := sample.locationId.map .ofNat
  value := sample.value.map .ofInt
  label := sample.label.map (·.message unknown)
  specialFields := { unknownFields := unknown }

def Proto.Line.message (line : Proto.Line) : Gperf.Line U where
  functionId := .ofNat line.functionId
  line := .ofInt line.line
  specialFields := { unknownFields := unknown }

def Proto.Location.message (loc : Proto.Location) : Gperf.Location U where
  id := .ofNat loc.id
  address := .ofNat loc.address
  line := loc.line.map (·.message unknown)
  specialFields := { unknownFields := unknown }

def Proto.Function.message (func : Proto.Function) : Gperf.Function U where
  id := .ofNat func.id
  name := .ofInt func.name
  systemName := .ofInt func.systemName
  filename := .ofInt func.filename
  startLine := .ofInt func.startLine
  specialFields := { unknownFields := unknown }

/-- The fields that a report does not set are those of the default. -/
def Proto.Profile.message (p : Proto.Profile) : Gperf.Profile U where
  sampleType := p.sampleType.map (·.message unknown)
  sample := p.sample.map (·.message unknown)
  location := p.location.map (·.message unknown)
  function := p.function.map (·.message unknown)
  stringTable := p.stringTable
  dropFrames := .ofInt p.dropFrames
  keepFrames := .ofInt p.keepFrames
  defaultSampleType := .ofInt p.defaultSampleType
  specialFields := { unknownFields := unknown }

def Gperf.ValueType.proto (m : Gperf.ValueType U) : Proto.ValueType where
  type := m.type.toInt
  unit := m.unit.toInt

def Gperf.Label.proto (m : Gperf.Label U) : Proto.Label where
  key := m.key.toInt
  str := m.str.toInt
  numUnit := m.numUnit.toInt

def Gperf.Sample.proto (m : Gperf.Sample U) : Proto.Sample where
  locationId := m.locationId.map (·.toNat)
  value := m.value.map (·.toInt)
  label := m.label.map (·.proto)

def Gperf.Line.proto (m : Gperf.Line U) : Proto.Line where
  functionId := m.functionId.toNat
  line := m.line.toInt

def Gperf.Location.proto (m : Gperf.Location U) : Proto.Location where
  id := m.id.toNat
  address := m.address.toNat
  line := m.line.map (·.proto)

def Gperf.Function.proto (m : Gperf.Function U) : Proto.Function where
  id := m.id.toNat
  name := m.name.toInt
  systemName := m.systemName.toInt
  filename := m.filename.toInt
  startLine := m.startLine.toInt

/-- What a reader of a report sees of a message. -/
def Gperf.Profile.proto (m : Gperf.Profile U) : Proto.Profile where
  sampleType := m.sampleType.map (·.proto)
  sample := m.sample.map (·.proto)
  location := m.location.map (·.proto)
  function := m.function.map (·.proto)
  stringTable := m.stringTable
  dropFrames := m.dropFrames.toInt
  keepFrames := m.keepFrames.toInt
  defaultSampleType := m.defaultSampleType.toInt

end Messages

theorem map_map_self {α β : Type} {f : α → β} {g : β → α} {l : List α} (h : ∀ a ∈ l, g (f a) = a) :
    (l.map f).map g = l := by
  rw [List.map_map]
  exact (List.map_congr_left h).trans (List.map_id l)

section Uncached
variable {E U : Type} (rt : Gperf.Runtime E U)

theorem map_map_same {α β : Type} {f : α → α} {g : α → β} (h : ∀ a, g (f a) = g a) (l : List α) :
    (l.map f).map g = l.map g := by
  rw [List.map_map]
  exact List.map_congr_left fun a _ => h a

theorem sample_proto_uncached (m : Gperf.Sample U) : (rt.sample.uncached m).proto = m.proto := by
  have hids : (rt.sample.uncached m).locationId = m.locationId := List.map_id' _
  have hvalues : (rt.sample.uncached m).value = m.value := List.map_id' _
  have hlabels : (rt.sample.uncached m).label.map (·.proto) = m.label.map (·.proto) :=
    map_map_same (f := rt.label.uncached) (fun _ => rfl) _
  rw [Gperf.Sample.proto, hids, hvalues, hlabels, Gperf.Sample.proto]

theorem location_proto_uncached (m : Gperf.Location U) : (rt.location.uncached m).proto = m.proto := by
  have hlines : (m.line.map rt.line.uncached).map (·.proto) = m.line.map (·.proto) :=
    map_map_same (f := rt.line.uncached) (fun _ => rfl) _
  exact congrArg (Proto.Location.mk _ _) hlines

/-- The reader does not see whether sizes are cached. -/
theorem proto_uncached (m : Gperf.Profile U) : (rt.profile.uncached m).proto = m.proto := by
  have htypes : (rt.profile.uncached m).sampleType.map (·.proto) = m.sampleType.map (·.proto) :=
    map_map_same (f := rt.valueType.uncached) (fun _ => rfl) _
  have hsamples : (rt.profile.uncached m).sample.map (·.proto) = m.sample.map (·.proto) :=
    map_map_same (sample_proto_uncached rt) _
  have hlocations : (rt.profile.uncached m).location.map (·.proto) = m.location.map (·.proto) :=
    map_map_same (location_proto_uncached rt) _
  have hfunctions : (rt.profile.uncached m).function.map (·.proto) = m.function.map (·.proto) :=
    map_map_same (f := rt.function.uncached) (fun _ => rfl) _
  have hstrings : (rt.profile.uncached m).stringTable = m.stringTable := List.map_id' _
  rw [Gperf.Profile.proto, htypes, hsamples, hlocations, hfunctions, hstrings]
  rfl

end Uncached

/-! ### Numbers in their fields -/

def FitsI64 (i : Int) : Prop := -2 ^ 63 ≤ i ∧ i < 2 ^ 63

theorem FitsI64.toInt_ofInt {i : Int} (h : FitsI64 i) : (Int64.ofInt i).toInt = i := by
  rw [Int64.toInt_ofInt]
  obtain ⟨hlow, hhigh⟩ := h
  exact Int.bmod_eq_of_le (by simpa [Int64.size] using hlow) (by simpa [Int64.size] using hhigh)

theorem FitsI64.of_nat {n : Nat} (h : n < 2 ^ 32) : FitsI64 n := ⟨by omega, by omega⟩

theorem fitsI64_asI64 (n : Nat) : FitsI64 (asI64 n) := by
  have hlow : -((2 ^ 64 / 2 : Nat) : Int) ≤ asI64 n := Int.le_bmod (by decide)
  have hhigh : asI64 n < ((2 ^ 64 + 1) / 2 : Nat) := Int.bmod_lt (by decide)
  exact ⟨hlow, hhigh⟩

theorem toNat_uInt64_ofNat {n : Nat} (h : n < 2 ^ 64) : (UInt64.ofNat n).toNat = n := by
  rw [UInt64.toNat_ofNat', Nat.mod_eq_of_lt h]

/-- Every number of the profile fits its field. -/
structure Proto.Profile.InRange (p : Proto.Profile) : Prop where
  indices : ∀ i ∈ p.stringIndices, FitsI64 i
  samples : ∀ sample ∈ p.sample, (∀ id ∈ sample.locationId, id < 2 ^ 64) ∧ ∀ v ∈ sample.value, FitsI64 v
  locations : ∀ loc ∈ p.location, loc.id < 2 ^ 64 ∧ loc.address < 2 ^ 64 ∧
    ∀ line ∈ loc.line, line.functionId < 2 ^ 64 ∧ FitsI64 line.line
  functions : ∀ func ∈ p.function, func.id < 2 ^ 64 ∧ FitsI64 func.startLine

/-- The reader sees the profile in its message. -/
theorem Proto.Profile.InRange.proto_message {U : Type} {p : Proto.Profile} (h : p.InRange) (unknown : U) :
    (p.message unknown).proto = p := by
  have hindices := h.indices
  simp only [stringIndices, List.mem_append, List.mem_flatMap, List.mem_cons, List.not_mem_nil, or_false] at hindices
  have hothers : FitsI64 p.dropFrames ∧ FitsI64 p.keepFrames ∧ FitsI64 p.defaultSampleType :=
    ⟨hindices _ (.inr (.inl rfl)), hindices _ (.inr (.inr (.inl rfl))), hindices _ (.inr (.inr (.inr rfl)))⟩
  have htypes : ∀ type ∈ p.sampleType, (type.message unknown).proto = type := by
    intro type htype
    have htype' : FitsI64 type.type := hindices _ (.inl (.inl (.inl ⟨type, htype, .inl rfl⟩)))
    have hunit : FitsI64 type.unit := hindices _ (.inl (.inl (.inl ⟨type, htype, .inr rfl⟩)))
    simp only [ValueType.message, Gperf.ValueType.proto, htype'.toInt_ofInt, hunit.toInt_ofInt]
  have hsamples : ∀ sample ∈ p.sample, (sample.message unknown).proto = sample := by
    intro sample hsample
    obtain ⟨hids, hvalues⟩ := h.samples sample hsample
    have hlabels : ∀ label ∈ sample.label, (label.message unknown).proto = label := by
      intro label hlabel
      have hin : ∀ i, i = label.key ∨ i = label.str ∨ i = label.numUnit → FitsI64 i := fun i hi =>
        hindices i (.inl (.inl (.inr ⟨sample, hsample, label, hlabel, hi⟩)))
      simp only [Label.message, Gperf.Label.proto, (hin _ (.inl rfl)).toInt_ofInt, (hin _ (.inr (.inl rfl))).toInt_ofInt,
        (hin _ (.inr (.inr rfl))).toInt_ofInt]
    simp only [Sample.message, Gperf.Sample.proto, map_map_self fun id hid => toNat_uInt64_ofNat (hids id hid),
      map_map_self fun v hv => (hvalues v hv).toInt_ofInt, map_map_self hlabels]
  have hlocations : ∀ loc ∈ p.location, (loc.message unknown).proto = loc := by
    intro loc hloc
    obtain ⟨hid, haddress, hlines⟩ := h.locations loc hloc
    have hlines' : ∀ line ∈ loc.line, (line.message unknown).proto = line := by
      intro line hline
      obtain ⟨hfunction, hnumber⟩ := hlines line hline
      simp only [Line.message, Gperf.Line.proto, toNat_uInt64_ofNat hfunction, hnumber.toInt_ofInt]
    simp only [Location.message, Gperf.Location.proto, toNat_uInt64_ofNat hid, toNat_uInt64_ofNat haddress,
      map_map_self hlines']
  have hfunctions : ∀ func ∈ p.function, (func.message unknown).proto = func := by
    intro func hfunc
    obtain ⟨hid, hline⟩ := h.functions func hfunc
    have hin : ∀ i, i = func.name ∨ i = func.systemName ∨ i = func.filename → FitsI64 i := fun i hi =>
      hindices i (.inl (.inr ⟨func, hfunc, hi⟩))
    simp only [Function.message, Gperf.Function.proto, toNat_uInt64_ofNat hid, hline.toInt_ofInt,
      (hin _ (.inl rfl)).toInt_ofInt, (hin _ (.inr (.inl rfl))).toInt_ofInt, (hin _ (.inr (.inr rfl))).toInt_ofInt]
  obtain ⟨hdrop, hkeep, hdefault⟩ := hothers
  simp only [message, Gperf.Profile.proto, map_map_self htypes, map_map_self hsamples, map_map_self hlocations,
    map_map_self hfunctions, hdrop.toInt_ofInt, hkeep.toInt_ofInt, hdefault.toInt_ofInt]

/-- The message has nothing but its fields. -/
theorem Proto.Profile.message_plain {U : Type} (p : Proto.Profile) (unknown : U) : (p.message unknown).Plain unknown where
  specialFields := rfl
  sampleType := List.forall_mem_map.mpr fun _ _ => rfl
  sample := List.forall_mem_map.mpr fun _ _ => ⟨rfl, List.forall_mem_map.mpr fun _ _ => rfl⟩
  mapping := List.forall_mem_nil _
  location := List.forall_mem_map.mpr fun _ _ => ⟨rfl, List.forall_mem_map.mpr fun _ _ => rfl⟩
  function := List.forall_mem_map.mpr fun _ _ => rfl
  periodType := by
    intro type htype
    cases htype

/-! ### The report -/

section Lines
variable {P : Int → Prop} {names : SampleNames} {r r' : GperfReport}

/-- The functions of the report begin at such lines. -/
def GperfReport.LinesAll (P : Int → Prop) (r : GperfReport) : Prop := ∀ func ∈ r.funcTable.funcs, P func.startLine

theorem FnTable.push_funcs {t t' : FnTable} {strings strings' : StringTable} {symbol : Symbol} {id : Nat}
    (h : t.push strings symbol = some (id, t', strings')) :
    ∃ func : Proto.Function, t'.funcs = t.funcs ++ [func] ∧ func.startLine = (symbol.lineNo : Int) := by
  simp only [FnTable.push] at h
  split at h
  · cases h
  · cases h
    exact ⟨_, rfl, rfl⟩

theorem GperfReport.LinesAll.reportFrame {symbol : Symbol} {locs : List Nat} (h : r.LinesAll P) (hsymbol : P symbol.lineNo)
    (hrun : r.reportFrame symbol = some (locs, r')) : r'.LinesAll P := by
  unfold GperfReport.reportFrame at hrun
  split at hrun
  · split at hrun <;> cases hrun <;> exact h
  · simp only [Option.bind_eq_bind, Option.bind_eq_some_iff, Prod.exists] at hrun
    obtain ⟨id, funcTable, strings, hpush, hloc⟩ := hrun
    obtain ⟨func, hfuncs, hline⟩ := FnTable.push_funcs hpush
    split at hloc
    · cases hloc
      intro f hf
      rcases List.mem_append.mp (hfuncs ▸ hf) with hf | hf
      · exact h f hf
      · rw [List.mem_singleton.mp hf, hline]
        exact hsymbol
    · cases hloc

theorem GperfReport.LinesAll.reportFrames {frames : List Symbol} {locs : List Nat} (h : r.LinesAll P)
    (hframes : ∀ symbol ∈ frames, P symbol.lineNo) (hrun : GperfReport.reportFrames frames r = some (locs, r')) :
    r'.LinesAll P := by
  induction frames generalizing r locs with
  | nil =>
    cases hrun
    exact h
  | cons symbol frames ih =>
    simp only [GperfReport.reportFrames, Option.bind_eq_bind, Option.bind_eq_some_iff, Option.some.injEq,
      Prod.exists, Prod.mk.injEq] at hrun
    obtain ⟨loc, r₁, hfirst, locs', r₂, hrest, -, rfl⟩ := hrun
    exact ih (h.reportFrame (hframes symbol List.mem_cons_self) hfirst)
      (fun symbol hsymbol => hframes symbol (List.mem_cons_of_mem _ hsymbol)) hrest

theorem GperfReport.LinesAll.reportAll {reports : List Reported} (h : r.LinesAll P)
    (hreports : ∀ reported ∈ reports, ∀ symbol ∈ reported.frames, P symbol.lineNo)
    (hrun : GperfReport.reportAll names reports r = some r') : r'.LinesAll P := by
  induction reports generalizing r with
  | nil =>
    cases hrun
    exact h
  | cons reported reports ih =>
    simp only [GperfReport.reportAll, GperfReport.report, Option.bind_eq_bind, Option.bind_eq_some_iff, Option.some.injEq,
      Prod.exists, Prod.mk.injEq] at hrun
    obtain ⟨r₂, _, ⟨locs, r₁, hframes, rfl, -⟩, hrest⟩ := hrun
    have hlines : r₁.LinesAll P := h.reportFrames (hreports reported List.mem_cons_self) hframes
    refine ih ?_ (fun reported hreported => hreports reported (List.mem_cons_of_mem _ hreported)) hrest
    exact hlines

end Lines

/-- What a symbol has of a 64-bit target. -/
def Symbol.InRange (symbol : Symbol) : Prop := symbol.address < 2 ^ 64 ∧ symbol.lineNo < 2 ^ 32

theorem ProfileOf.inRange {names : SampleNames} {done : List Reported} {pushed : List Symbol} {p : Proto.Profile}
    (h : ProfileOf names done pushed p) (hstrings : p.stringTable.length < 2 ^ 31) (hfunctions : p.function.length < 2 ^ 31)
    (hsymbols : ∀ symbol ∈ pushed, symbol.InRange) (hlines : ∀ func ∈ p.function, FitsI64 func.startLine) : p.InRange := by
  have hposition : ∀ {i symbol}, pushed[i]? = some symbol → i + 1 < 2 ^ 64 := by
    intro i symbol hget
    have hlt := (List.getElem?_eq_some_iff.mp hget).1
    rw [← h.function_length] at hlt
    omega
  constructor
  case indices =>
    intro i hi
    obtain ⟨s, n, rfl, hget⟩ := h.denotes_index i hi
    exact .of_nat ((List.getElem?_eq_some_iff.mp hget).1.trans (hstrings.trans (by decide)))
  case samples =>
    intro sample hsample
    obtain ⟨reported, -, hof⟩ := exists_of_forall₂ h.sample hsample
    refine ⟨fun id hid => ?_, fun v hv => ?_⟩
    · obtain ⟨symbol, -, i, pushedSymbol, rfl, hget, -⟩ := exists_of_forall₂ hof.locations hid
      rw [Nat.add_comm]
      exact hposition hget
    · rw [hof.value, List.mem_singleton] at hv
      exact hv ▸ fitsI64_asI64 _
  case locations =>
    intro loc hloc
    obtain ⟨i, hget⟩ := List.mem_iff_getElem?.mp hloc
    obtain ⟨symbol, hsymbol, rfl⟩ := h.location_of_getElem? hget
    obtain ⟨haddress, hline⟩ := hsymbols symbol (List.mem_of_getElem? hsymbol)
    refine ⟨hposition hsymbol, haddress, fun line hmem => ?_⟩
    obtain rfl := List.mem_singleton.mp hmem
    exact ⟨hposition hsymbol, .of_nat hline⟩
  case functions =>
    intro func hfunc
    obtain ⟨i, symbol, hget, hof⟩ := h.function_of_mem hfunc
    exact ⟨hof.id ▸ hposition hget, hlines func hfunc⟩

/-- For every runtime that follows the wire format, and every sequence of reports in which symbols with equal addresses are
    equal, on a 64-bit target: no assertion fails, and when the profile that is built has a size below 2^31, then what is
    written of it is read as a profile that is well formed, and in which a reader finds the frames of every sample, in order,
    and its value. -/
theorem report_written {E U : Type} {rt : Gperf.Runtime E U} (hrt : rt.Lawful) (names : SampleNames)
    (reports : List Reported) (hagree : SymbolsAgree reports)
    (hsymbols : ∀ reported ∈ reports, ∀ symbol ∈ reported.frames, symbol.InRange) :
    ∃ r, GperfReport.reportAll names reports .new = some r ∧
      let computed := rt.profile.computeSize ((r.build names).1.message rt.noUnknownFields)
      (computed.1 < 2 ^ 31 →
        ∃ m, rt.profile.mergeFrom rt.readRawTagOrEof rt.profile.new (rt.profile.write computed.2) = .ok m ∧
          m.proto.WellFormed ∧
          m.proto.read =
            reports.map fun reported => (some (reported.frames.map Symbol.frame), [asI64 reported.value])) := by
  have hnew : GperfReport.Describes names [] [] .new := .new
  obtain ⟨r, pushed, hrun, hdescribes⟩ := hnew.reportAll reports
  refine ⟨r, hrun, fun hsize => ?_⟩
  have hprofile := hdescribes.build
  have hlines : r.LinesAll FitsI64 := by
    have hempty : GperfReport.new.LinesAll FitsI64 := List.forall_mem_nil _
    refine hempty.reportAll (fun reported hreported symbol hsymbol => ?_) hrun
    exact .of_nat (hsymbols reported hreported symbol hsymbol).2
  have hpushed : ∀ symbol ∈ pushed, symbol.InRange := by
    intro symbol hsymbol
    obtain ⟨reported, hreported, hframe⟩ := hprofile.reported symbol hsymbol
    exact hsymbols reported hreported symbol hframe
  have hstrings : (r.build names).1.stringTable.length < 2 ^ 31 :=
    (Gperf.Runtime.strings_le_size hrt.toLawfulValues _).trans_lt hsize
  have hfunctions : (r.build names).1.function.length < 2 ^ 31 := by
    have hle := Gperf.Runtime.functions_le_size rt ((r.build names).1.message rt.noUnknownFields)
    rw [Proto.Profile.message, List.length_map] at hle
    exact hle.trans_lt hsize
  have hproto := (hprofile.inRange hstrings hfunctions hpushed hlines).proto_message rt.noUnknownFields
  have hparse := (Gperf.Runtime.profile_roundTrips hrt).parse (Proto.Profile.message_plain _ _) hsize
  refine ⟨_, hparse, ?_, ?_⟩
  · rw [proto_uncached, hproto]
    exact hprofile.wellFormed
  · rw [proto_uncached, hproto]
    exact hprofile.read_eq hagree

/-- The report of two samples that share a frame. -/
theorem report_written_shared : SymbolsAgree sharedFrames ∧
    (∀ reported ∈ sharedFrames, ∀ symbol ∈ reported.frames, symbol.InRange) ∧
    ∃ r, GperfReport.reportAll GperfHeapProfilerReport.names sharedFrames .new = some r ∧
      ∃ m, Gperf.Runtime.wireFormat.profile.mergeFrom Gperf.Runtime.wireFormat.readRawTagOrEof
          Gperf.Runtime.wireFormat.profile.new
          (Gperf.Runtime.wireFormat.profile.write (Gperf.Runtime.wireFormat.profile.computeSize
            ((r.build GperfHeapProfilerReport.names).1.message Gperf.Runtime.wireFormat.noUnknownFields)).2) = .ok m ∧
        m.proto.WellFormed ∧
        m.proto.read =
          sharedFrames.map fun reported => (some (reported.frames.map Symbol.frame), [asI64 reported.value]) := by
  have hagree : SymbolsAgree sharedFrames := by simp [SymbolsAgree, sharedFrames]
  have hsymbols : ∀ reported ∈ sharedFrames, ∀ symbol ∈ reported.frames, symbol.InRange := by
    simp [Symbol.InRange, sharedFrames]
  obtain ⟨r, hrun, hwritten⟩ :=
    report_written Gperf.Runtime.wireFormat_lawful GperfHeapProfilerReport.names sharedFrames hagree hsymbols
  have hreported : GperfReport.reportAll GperfHeapProfilerReport.names sharedFrames .new = some _ := rfl
  refine ⟨hagree, hsymbols, r, hrun, hwritten ?_⟩
  obtain rfl := Option.some.inj (hrun.symm.trans hreported)
  decide +kernel

end Hala.Pprof
