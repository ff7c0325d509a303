import Mathlib.Data.List.Basic

/-! The messages of a gperf profile (`crates/pprof/proto/gperf.proto`), and what a reader takes from them.

Ids are numbers; an index of a string is an `int64`. Of the fields that a report leaves at their defaults only those are
here that hold an index. -/

namespace Hala.Pprof

namespace Proto

structure ValueType where
  /-- `type_` in the source. -/
  type : Int
  unit : Int
  deriving DecidableEq, Repr

structure Label where
  key : Int
  str : Int
  numUnit : Int := 0
  deriving DecidableEq, Repr

structure Sample where
  locationId : List Nat
  value : List Int
  label : List Label
  deriving DecidableEq, Repr

structure Line where
  functionId : Nat
  line : Int
  deriving DecidableEq, Repr

structure Location where
  id : Nat
  address : Nat
  line : List Line
  deriving DecidableEq, Repr

structure Function where
  id : Nat
  name : Int
  systemName : Int
  filename : Int
  startLine : Int
  deriving DecidableEq, Repr

structure Profile where
  sampleType : List ValueType
  sample : List Sample
  location : List Location
  function : List Function
  stringTable : List String
  dropFrames : Int := 0
  keepFrames : Int := 0
  defaultSampleType : Int := 0
  deriving DecidableEq, Repr

/-- The index denotes the string in the table. -/
def Denotes (table : List String) (i : Int) (s : String) : Prop := ∃ n : Nat, i = n ∧ table[n]? = some s

/-- What a profile says of a frame. -/
structure Frame where
  address : Nat
  name : String
  fileName : String
  line : Int
  deriving DecidableEq, Repr

namespace Profile

def string? (p : Profile) (i : Int) : Option String := if i < 0 then none else p.stringTable[i.toNat]?

/-- The frame of a location id: its location with one line, the function of the line and their strings. -/
def frame? (p : Profile) (id : Nat) : Option Frame := do
  let loc ← p.location.find? (·.id == id)
  match loc.line with
  | [line] =>
    let func ← p.function.find? (·.id == line.functionId)
    let name ← p.string? func.systemName
    let fileName ← p.string? func.filename
    some { address := loc.address, name, fileName, line := line.line }
  | _ => none

/-- The samples, each with its frames and its values. -/
def read (p : Profile) : List (Option (List Frame) × List Int) :=
  p.sample.map fun sample => (sample.locationId.mapM p.frame?, sample.value)

/-- All indices into the string table. -/
def stringIndices (p : Profile) : List Int :=
  (p.sampleType.flatMap fun type => [type.type, type.unit]) ++
  (p.sample.flatMap fun sample => sample.label.flatMap fun label => [label.key, label.str, label.numUnit]) ++
  (p.function.flatMap fun func => [func.name, func.systemName, func.filename]) ++
  [p.dropFrames, p.keepFrames, p.defaultSampleType]

/-- The references of a profile: the string table begins with the empty string and has every index, and every id of a
    location or a function is that of one. -/
structure Closed (p : Profile) : Prop where
  first : p.stringTable.head? = some ""
  strings : ∀ i ∈ p.stringIndices, ∃ s, Denotes p.stringTable i s
  locations : ∀ sample ∈ p.sample, ∀ id ∈ sample.locationId, ∃ loc ∈ p.location, loc.id = id
  functions : ∀ loc ∈ p.location, ∀ line ∈ loc.line, ∃ func ∈ p.function, func.id = line.functionId

/-- The ids are unique and not zero, and a sample has a value for each type. -/
structure WellFormed (p : Profile) : Prop extends p.Closed where
  location_nodup : (p.location.map (·.id)).Nodup
  location_ne_zero : ∀ loc ∈ p.location, loc.id ≠ 0
  function_nodup : (p.function.map (·.id)).Nodup
  function_ne_zero : ∀ func ∈ p.function, func.id ≠ 0
  values : ∀ sample ∈ p.sample, sample.value.length = p.sampleType.length

end Profile

end Proto

end Hala.Pprof
