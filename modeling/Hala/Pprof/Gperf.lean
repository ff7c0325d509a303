import Hala.Io.ReadBuf
import Hala.Lib.Wire

/-! The messages of a gperf profile as rust-protobuf writes and reads them (`crates/pprof/src/gperf/gperf.rs`).

`compute_size` caches the size of a message in its `special_fields`, and those of the messages in it; behind the lengths that
are cached there `write_to_with_cached_sizes` writes them. The runtime of rust-protobuf is a parameter. -/

namespace Hala.Pprof.Gperf
open Wire

structure SpecialFields (U : Type) where
  unknownFields : U
  cachedSize : UInt32 := 0
  deriving DecidableEq

structure ValueType (U : Type) where
  /-- `type_` in the source. -/
  type : Int64 := 0
  unit : Int64 := 0
  specialFields : SpecialFields U
  deriving DecidableEq

structure Label (U : Type) where
  key : Int64 := 0
  str : Int64 := 0
  num : Int64 := 0
  numUnit : Int64 := 0
  specialFields : SpecialFields U
  deriving DecidableEq

structure Sample (U : Type) where
  locationId : List UInt64 := []
  value : List Int64 := []
  label : List (Label U) := []
  specialFields : SpecialFields U
  deriving DecidableEq

structure Mapping (U : Type) where
  id : UInt64 := 0
  memoryStart : UInt64 := 0
  memoryLimit : UInt64 := 0
  fileOffset : UInt64 := 0
  filename : Int64 := 0
  buildId : Int64 := 0
  hasFunctions : Bool := false
  hasFilenames : Bool := false
  hasLineNumbers : Bool := false
  hasInlineFrames : Bool := false
  specialFields : SpecialFields U
  deriving DecidableEq

structure Line (U : Type) where
  functionId : UInt64 := 0
  line : Int64 := 0
  column : Int64 := 0
  specialFields : SpecialFields U
  deriving DecidableEq

structure Location (U : Type) where
  id : UInt64 := 0
  mappingId : UInt64 := 0
  address : UInt64 := 0
  line : List (Line U) := []
  isFolded : Bool := false
  specialFields : SpecialFields U
  deriving DecidableEq

structure Function (U : Type) where
  id : UInt64 := 0
  name : Int64 := 0
  systemName : Int64 := 0
  filename : Int64 := 0
  startLine : Int64 := 0
  specialFields : SpecialFields U
  deriving DecidableEq

structure Profile (U : Type) where
  sampleType : List (ValueType U) := []
  sample : List (Sample U) := []
  mapping : List (Mapping U) := []
  location : List (Location U) := []
  function : List (Function U) := []
  stringTable : List String := []
  dropFrames : Int64 := 0
  keepFrames : Int64 := 0
  timeNanos : Int64 := 0
  durationNanos : Int64 := 0
  periodType : Option (ValueType U) := none
  period : Int64 := 0
  comment : List Int64 := []
  defaultSampleType : Int64 := 0
  specialFields : SpecialFields U
  deriving DecidableEq

/-- Merges into a message what the stream has of one up to its length. -/
def mergeMessage {E M : Type} (readTag : Bytes → Except (Option E) (Option (Nat × Bytes))) (readMessage : Reader UInt8 E Bytes)
    (message : Message UInt8 E M) (m : M) : Reader UInt8 E M := fun input =>
  match readMessage input with
  | .error e => .error e
  | .ok (body, input) => (message.mergeFrom readTag m body).map fun m => (m, input)

/-- What the generated code calls of the runtime of rust-protobuf. An output stream is the bytes that have been written, an
    input stream those that are left up to its limit; `E` are the errors, and `U` the unknown fields. -/
structure Runtime (E U : Type) where
  /-- `read_raw_tag_or_eof`. -/
  readRawTagOrEof : Bytes → Except (Option E) (Option (Nat × Bytes))
  int64 : Value UInt8 E Int64
  uint64 : Value UInt8 E UInt64
  bool : Value UInt8 E Bool
  string : Value UInt8 E String
  /-- `read_repeated_packed_int64_into`. -/
  readRepeatedPackedInt64Into : List Int64 → Reader UInt8 E (List Int64)
  readRepeatedPackedUint64Into : List UInt64 → Reader UInt8 E (List UInt64)
  /-- `write_message_field_with_cached_size`: the field number, the cached size, and what the message writes. -/
  writeMessageFieldWithCachedSize : Nat → UInt32 → Bytes → Bytes
  /-- The limit that `read_message` sets, as the bytes up to it and those behind it. -/
  readMessage : Reader UInt8 E Bytes
  /-- `read_singular_message_into_field`: the message with its `merge_from`, and the field. -/
  readSingularMessageIntoField :
    Message UInt8 E (ValueType U) → Option (ValueType U) → Reader UInt8 E (Option (ValueType U))
  /-- What it makes of a message in the field and one that is read. -/
  again : ValueType U → ValueType U → ValueType U
  /-- `compute_raw_varint64_size`. -/
  computeRawVarint64Size : Nat → Nat
  noUnknownFields : U
  writeUnknownFields : U → Bytes
  unknownFieldsSize : U → Nat
  /-- `read_unknown_or_skip_group`. -/
  readUnknownOrSkipGroup : Nat → U → Reader UInt8 E U

namespace Runtime
variable {E U M : Type} (rt : Runtime E U)

/-! ### Fields

A field is given by its number in `write_to_with_cached_sizes`, and by the tag of its arm in `merge_from`. -/

def int64Field (number tag : Nat) (get : M → Int64) (set : M → Int64 → M) : Field UInt8 E M :=
  .scalar rt.int64 number tag 0 get set

def uint64Field (number tag : Nat) (get : M → UInt64) (set : M → UInt64 → M) : Field UInt8 E M :=
  .scalar rt.uint64 number tag 0 get set

/-- The size of a `bool` is `1 + 1`. -/
def boolField (number tag : Nat) (get : M → Bool) (set : M → Bool → M) : Field UInt8 E M :=
  .scalar { rt.bool with size := fun _ _ => 1 + 1 } number tag false get set

/-- A repeated `int64`, which can be packed when it is read. -/
def int64sField (number packedTag tag : Nat) (get : M → List Int64) (set : M → List Int64 → M) : Field UInt8 E M :=
  .repeated rt.int64 number tag
    [{ tag := packedTag,
       read := fun m input => (rt.readRepeatedPackedInt64Into (get m) input).map fun (vs, input) => (set m vs, input) }]
    flat get set

def uint64sField (number packedTag tag : Nat) (get : M → List UInt64) (set : M → List UInt64 → M) : Field UInt8 E M :=
  .repeated rt.uint64 number tag
    [{ tag := packedTag,
       read := fun m input => (rt.readRepeatedPackedUint64Into (get m) input).map fun (vs, input) => (set m vs, input) }]
    flat get set

def stringsField (number tag : Nat) (get : M → List String) (set : M → List String → M) : Field UInt8 E M :=
  .repeated rt.string number tag [] flat get set

/-- The special fields of a new message. -/
def newSpecialFields : SpecialFields U := { unknownFields := rt.noUnknownFields }

/-- A message, from its fields and its special fields. -/
def message (fields : List (Field UInt8 E M)) (new : M) (get : M → SpecialFields U) (set : M → SpecialFields U → M) :
    Message UInt8 E M where
  fields
  new
  other tag m input :=
    (rt.readUnknownOrSkipGroup tag (get m).unknownFields input).map fun (unknownFields, input) =>
      (set m { get m with unknownFields }, input)
  rest m := rt.writeUnknownFields (get m).unknownFields
  restSize m := rt.unknownFieldsSize (get m).unknownFields
  cachedSize m := (get m).cachedSize
  setCachedSize cachedSize m := set m { get m with cachedSize }

/-- A message as a value: its fields are written behind its cached size, and `read_message` merges them into a new one. -/
def messageValue (message : Message UInt8 E M) : Value UInt8 E M where
  write number m := rt.writeMessageFieldWithCachedSize number (message.cachedSize m) (message.write m)
  size _ m := let len := message.size m; 1 + rt.computeRawVarint64Size len + len
  read := mergeMessage rt.readRawTagOrEof rt.readMessage message message.new

def messagesField {N : Type} (number tag : Nat) (message : Message UInt8 E N) (get : M → List N) (set : M → List N → M) :
    Field UInt8 E M :=
  .repeated (rt.messageValue message) number tag [] message.cached get set

def messageField (number tag : Nat) (message : Message UInt8 E (ValueType U)) (get : M → Option (ValueType U))
    (set : M → Option (ValueType U) → M) : Field UInt8 E M :=
  .optional (rt.messageValue message) number tag (rt.readSingularMessageIntoField message) rt.again message.cached get set

/-! ### Messages -/

def valueType : Message UInt8 E (ValueType U) :=
  rt.message
    [rt.int64Field 1 8 (·.type) fun m type => { m with type },
     rt.int64Field 2 16 (·.unit) fun m unit => { m with unit }]
    { specialFields := rt.newSpecialFields } (·.specialFields) fun m specialFields => { m with specialFields }

def label : Message UInt8 E (Label U) :=
  rt.message
    [rt.int64Field 1 8 (·.key) fun m key => { m with key },
     rt.int64Field 2 16 (·.str) fun m str => { m with str },
     rt.int64Field 3 24 (·.num) fun m num => { m with num },
     rt.int64Field 4 32 (·.numUnit) fun m numUnit => { m with numUnit }]
    { specialFields := rt.newSpecialFields } (·.specialFields) fun m specialFields => { m with specialFields }

def sample : Message UInt8 E (Sample U) :=
  rt.message
    [rt.uint64sField 1 10 8 (·.locationId) fun m locationId => { m with locationId },
     rt.int64sField 2 18 16 (·.value) fun m value => { m with value },
     rt.messagesField 3 26 rt.label (·.label) fun m label => { m with label }]
    { specialFields := rt.newSpecialFields } (·.specialFields) fun m specialFields => { m with specialFields }

def mapping : Message UInt8 E (Mapping U) :=
  rt.message
    [rt.uint64Field 1 8 (·.id) fun m id => { m with id },
     rt.uint64Field 2 16 (·.memoryStart) fun m memoryStart => { m with memoryStart },
     rt.uint64Field 3 24 (·.memoryLimit) fun m memoryLimit => { m with memoryLimit },
     rt.uint64Field 4 32 (·.fileOffset) fun m fileOffset => { m with fileOffset },
     rt.int64Field 5 40 (·.filename) fun m filename => { m with filename },
     rt.int64Field 6 48 (·.buildId) fun m buildId => { m with buildId },
     rt.boolField 7 56 (·.hasFunctions) fun m hasFunctions => { m with hasFunctions },
     rt.boolField 8 64 (·.hasFilenames) fun m hasFilenames => { m with hasFilenames },
     rt.boolField 9 72 (·.hasLineNumbers) fun m hasLineNumbers => { m with hasLineNumbers },
     rt.boolField 10 80 (·.hasInlineFrames) fun m hasInlineFrames => { m with hasInlineFrames }]
    { specialFields := rt.newSpecialFields } (·.specialFields) fun m specialFields => { m with specialFields }

def line : Message UInt8 E (Line U) :=
  rt.message
    [rt.uint64Field 1 8 (·.functionId) fun m functionId => { m with functionId },
     rt.int64Field 2 16 (·.line) fun m line => { m with line },
     rt.int64Field 3 24 (·.column) fun m column => { m with column }]
    { specialFields := rt.newSpecialFields } (·.specialFields) fun m specialFields => { m with specialFields }

def location : Message UInt8 E (Location U) :=
  rt.message
    [rt.uint64Field 1 8 (·.id) fun m id => { m with id },
     rt.uint64Field 2 16 (·.mappingId) fun m mappingId => { m with mappingId },
     rt.uint64Field 3 24 (·.address) fun m address => { m with address },
     rt.messagesField 4 34 rt.line (·.line) fun m line => { m with line },
     rt.boolField 5 40 (·.isFolded) fun m isFolded => { m with isFolded }]
    { specialFields := rt.newSpecialFields } (·.specialFields) fun m specialFields => { m with specialFields }

def function : Message UInt8 E (Function U) :=
  rt.message
    [rt.uint64Field 1 8 (·.id) fun m id => { m with id },
     rt.int64Field 2 16 (·.name) fun m name => { m with name },
     rt.int64Field 3 24 (·.systemName) fun m systemName => { m with systemName },
     rt.int64Field 4 32 (·.filename) fun m filename => { m with filename },
     rt.int64Field 5 40 (·.startLine) fun m startLine => { m with startLine }]
    { specialFields := rt.newSpecialFields } (·.specialFields) fun m specialFields => { m with specialFields }

def profile : Message UInt8 E (Profile U) :=
  rt.message
    [rt.messagesField 1 10 rt.valueType (·.sampleType) fun m sampleType => { m with sampleType },
     rt.messagesField 2 18 rt.sample (·.sample) fun m sample => { m with sample },
     rt.messagesField 3 26 rt.mapping (·.mapping) fun m mapping => { m with mapping },
     rt.messagesField 4 34 rt.location (·.location) fun m location => { m with location },
     rt.messagesField 5 42 rt.function (·.function) fun m function => { m with function },
     rt.stringsField 6 50 (·.stringTable) fun m stringTable => { m with stringTable },
     rt.int64Field 7 56 (·.dropFrames) fun m dropFrames => { m with dropFrames },
     rt.int64Field 8 64 (·.keepFrames) fun m keepFrames => { m with keepFrames },
     rt.int64Field 9 72 (·.timeNanos) fun m timeNanos => { m with timeNanos },
     rt.int64Field 10 80 (·.durationNanos) fun m durationNanos => { m with durationNanos },
     rt.messageField 11 90 rt.valueType (·.periodType) fun m periodType => { m with periodType },
     rt.int64Field 12 96 (·.period) fun m period => { m with period },
     rt.int64sField 13 106 104 (·.comment) fun m comment => { m with comment },
     rt.int64Field 14 112 (·.defaultSampleType) fun m defaultSampleType => { m with defaultSampleType }]
    { specialFields := rt.newSpecialFields } (·.specialFields) fun m specialFields => { m with specialFields }

/-! ### The wire format -/

/-- The numbers whose tags have one byte. -/
def OneByte (number : Nat) : Prop := 1 ≤ number ∧ number ≤ 15

instance : DecidablePred OneByte := fun _ => inferInstanceAs (Decidable (_ ∧ _))

/-- What the protobuf wire format says of the runtime: a tag is the field number and the wire type, 0 for a varint and 2 for
    what has a length; what is written is read back, a message behind its size, up to lengths of 2 GiB; and the sizes are those
    of what is written. -/
structure LawfulValues : Prop where
  eof : rt.readRawTagOrEof [] = .ok none
  int64 : ∀ number, OneByte number → rt.int64.Lawful rt.readRawTagOrEof number (8 * number) flat fun _ => True
  uint64 : ∀ number, OneByte number → rt.uint64.Lawful rt.readRawTagOrEof number (8 * number) flat fun _ => True
  bool : ∀ number, OneByte number → rt.bool.Lawful rt.readRawTagOrEof number (8 * number) flat fun _ => True
  boolSize : ∀ number, OneByte number → ∀ b, rt.bool.size number b = 2
  string : ∀ number, OneByte number →
    rt.string.Lawful rt.readRawTagOrEof number (8 * number + 2) flat fun s => s.utf8ByteSize < 2 ^ 31
  stringSize : ∀ number s, s.utf8ByteSize < rt.string.size number s
  message : ∀ number body rest, OneByte number → body.length < 2 ^ 31 →
    ∃ input, rt.readRawTagOrEof
        (rt.writeMessageFieldWithCachedSize number (UInt32.ofNat body.length) body ++ rest) =
        .ok (some (8 * number + 2, input)) ∧ rt.readMessage input = .ok (body, rest)
  messageSize : ∀ number body, OneByte number → body.length < 2 ^ 31 →
    (rt.writeMessageFieldWithCachedSize number (UInt32.ofNat body.length) body).length =
      1 + rt.computeRawVarint64Size body.length + body.length
  noUnknownFields : rt.writeUnknownFields rt.noUnknownFields = [] ∧ rt.unknownFieldsSize rt.noUnknownFields = 0

/-- And of `read_singular_message_into_field`: what is written of a message is that message in a field without one; and in a
    field with one it is what `again` says. -/
structure Lawful : Prop extends rt.LawfulValues where
  singular : ∀ (set : Option (ValueType U)) (type : ValueType U) (input rest : Bytes), type.specialFields = rt.newSpecialFields →
    rt.valueType.size type < 2 ^ 31 → rt.readMessage input = .ok (rt.valueType.write type, rest) →
    rt.readSingularMessageIntoField rt.valueType set input = .ok (set.merge rt.again (some type), rest)

/-- What a stream says of the runtime: it reads from the front, and has no errors but its own. -/
structure Consumes : Prop where
  tags : Tags rt.readRawTagOrEof
  int64 : rt.int64.read.Consumes
  uint64 : rt.uint64.read.Consumes
  bool : rt.bool.read.Consumes
  string : rt.string.read.Consumes
  packedInt64 : ∀ vs, (rt.readRepeatedPackedInt64Into vs).Consumes
  packedUint64 : ∀ vs, (rt.readRepeatedPackedUint64Into vs).Consumes
  message : rt.readMessage.Consumes
  singular : ∀ message set, message.Consumes → (rt.readSingularMessageIntoField message set).Consumes
  unknown : ∀ tag u, (rt.readUnknownOrSkipGroup tag u).Consumes

end Runtime

/-! ### Messages without unknown fields -/

section Plain
variable {U : Type} (none : U)

def Sample.Plain (m : Sample U) : Prop :=
  m.specialFields.unknownFields = none ∧ ∀ label ∈ m.label, label.specialFields.unknownFields = none

def Location.Plain (m : Location U) : Prop :=
  m.specialFields.unknownFields = none ∧ ∀ line ∈ m.line, line.specialFields.unknownFields = none

structure Profile.Plain (m : Profile U) : Prop where
  specialFields : m.specialFields.unknownFields = none
  sampleType : ∀ type ∈ m.sampleType, type.specialFields.unknownFields = none
  sample : ∀ sample ∈ m.sample, sample.Plain none
  mapping : ∀ mapping ∈ m.mapping, mapping.specialFields.unknownFields = none
  location : ∀ location ∈ m.location, location.Plain none
  function : ∀ function ∈ m.function, function.specialFields.unknownFields = none
  periodType : ∀ type, m.periodType = some type → type.specialFields.unknownFields = none

end Plain

/-- The latest of two values of a field that is not written when it is `default`. -/
def latest {V : Type} [DecidableEq V] (default a b : V) : V := if b ≠ default then b else a

/-- A message of the wire format behind another one in the same field: the two are merged. -/
def ValueType.append {U : Type} (a b : ValueType U) : ValueType U where
  type := latest 0 a.type b.type
  unit := latest 0 a.unit b.unit
  specialFields := a.specialFields

/-- What the wire format says of the fields of `b` behind those of `a`: the repeated ones are appended, of the numbers the
    latest is taken, and of two types of the period it is made `again`. -/
def Profile.append {U : Type} (again : ValueType U → ValueType U → ValueType U) (a b : Profile U) : Profile U where
  sampleType := a.sampleType ++ b.sampleType
  sample := a.sample ++ b.sample
  mapping := a.mapping ++ b.mapping
  location := a.location ++ b.location
  function := a.function ++ b.function
  stringTable := a.stringTable ++ b.stringTable
  dropFrames := latest 0 a.dropFrames b.dropFrames
  keepFrames := latest 0 a.keepFrames b.keepFrames
  timeNanos := latest 0 a.timeNanos b.timeNanos
  durationNanos := latest 0 a.durationNanos b.durationNanos
  periodType := a.periodType.merge again b.periodType
  period := latest 0 a.period b.period
  comment := a.comment ++ b.comment
  defaultSampleType := latest 0 a.defaultSampleType b.defaultSampleType
  specialFields := a.specialFields

end Hala.Pprof.Gperf
