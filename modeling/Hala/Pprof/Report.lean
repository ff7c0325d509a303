import Hala.Pprof.Profile
import Mathlib.Algebra.Group.Nat.Defs
import Mathlib.Logic.Function.Basic

/-! The gperf reports of the profilers (`crates/pprof/src/profiler/report.rs`).

The two reports are one structure, filled with other names. A failed assertion is `none`. -/

namespace Hala.Pprof

/-- `Symbol` of `profiler/frames.rs`. -/
structure Symbol where
  name : String
  address : Nat
  fileName : String
  lineNo : Nat
  colNo : Nat
  deriving DecidableEq, Repr

structure StringTable where
  index : String → Option Nat
  table : List String

namespace StringTable

/-- The index does not have the empty string that the table begins with. -/
def new : StringTable where
  index _ := none
  table := [""]

def insert (t : StringTable) (value : String) : Int × StringTable :=
  match t.index value with
  | some offset => (offset, t)
  | none =>
    let offset := t.table.length
    (offset, { table := t.table ++ [value], index := Function.update t.index value (some offset) })

end StringTable

structure FnTable where
  index : Nat → Option Nat
  funcs : List Proto.Function

namespace FnTable

def new : FnTable where
  index _ := none
  funcs := []

def get (t : FnTable) (symbol : Symbol) : Option Nat := t.index symbol.address

/-- The function is pushed before the assertion. -/
def push (t : FnTable) (strings : StringTable) (symbol : Symbol) : Option (Nat × FnTable × StringTable) :=
  let funcId := t.funcs.length + 1
  let (systemName, strings) := strings.insert symbol.name
  let (filename, strings) := strings.insert symbol.fileName
  let func : Proto.Function := { id := funcId, name := 0, systemName, filename, startLine := symbol.lineNo }
  match t.index symbol.address with
  | some _ => none
  | none =>
    some (funcId, { funcs := t.funcs ++ [func], index := Function.update t.index symbol.address (some funcId) }, strings)

end FnTable

/-! ### The reports -/

/-- The fields of `GperfHeapProfilerReport` and of `GperfCpuProfilerReport`. -/
structure GperfReport where
  stringTable : StringTable
  funcTable : FnTable
  locTable : List Proto.Location
  samples : List Proto.Sample

/-- The strings in which the two reports differ: the type and the unit of the values, and the key of the label. -/
structure SampleNames where
  type : String
  unit : String
  label : String

/-- What is reported with the frames: the number in the label and the value. -/
structure Reported where
  label : Nat
  value : Nat
  frames : List Symbol
  deriving DecidableEq, Repr

/-- `as i64`. -/
def asI64 (n : Nat) : Int := Int.bmod n (2 ^ 64)

/-- `format!("0x{:02x}", n)`. -/
def hex (n : Nat) : String :=
  let digits := Nat.toDigits 16 n
  "0x" ++ String.ofList (List.replicate (2 - digits.length) '0' ++ digits)

namespace GperfReport

def new : GperfReport where
  stringTable := .new
  funcTable := .new
  locTable := []
  samples := []

/-- An iteration of the loop over the frames, with what it pushes to `locs`. -/
def reportFrame (r : GperfReport) (symbol : Symbol) : Option (List Nat × GperfReport) :=
  match r.funcTable.get symbol with
  | some funcId => if funcId = 0 then some ([], r) else some ([funcId], r)
  | none => do
    let (funcId, funcTable, stringTable) ← r.funcTable.push r.stringTable symbol
    let loc : Proto.Location :=
      { id := funcId, address := symbol.address, line := [{ functionId := funcId, line := symbol.lineNo }] }
    if r.locTable.length + 1 = funcId then
      some ([funcId], { r with stringTable, funcTable, locTable := r.locTable ++ [loc] })
    else none

def reportFrames : List Symbol → GperfReport → Option (List Nat × GperfReport)
  | [], r => some ([], r)
  | symbol :: frames, r => do
    let (loc, r) ← r.reportFrame symbol
    let (locs, r) ← reportFrames frames r
    some (loc ++ locs, r)

/-- `report_block_info` and `report_cpu_sample`, which return `true`. -/
def report (names : SampleNames) (r : GperfReport) (reported : Reported) : Option (GperfReport × Bool) := do
  let (locs, r) ← reportFrames reported.frames r
  let (key, strings) := r.stringTable.insert names.label
  let (str, strings) := strings.insert (hex reported.label)
  let sample : Proto.Sample := { locationId := locs, label := [{ key, str }], value := [asI64 reported.value] }
  some ({ r with stringTable := strings, samples := r.samples ++ [sample] }, true)

/-- The tables are drained, not what is beside them. -/
def build (names : SampleNames) (r : GperfReport) : Proto.Profile × GperfReport :=
  let (type, strings) := r.stringTable.insert names.type
  let (unit, strings) := strings.insert names.unit
  ({ sampleType := [{ type, unit }], sample := r.samples, stringTable := strings.table, function := r.funcTable.funcs,
     location := r.locTable },
    { stringTable := { strings with table := [] }, funcTable := { r.funcTable with funcs := [] }, locTable := [],
      samples := [] })

end GperfReport

namespace GperfHeapProfilerReport

def names : SampleNames where
  type := "space"
  unit := "bytes"
  label := "block"

def reportBlockInfo (r : GperfReport) (block blockSize : Nat) (frames : List Symbol) : Option (GperfReport × Bool) :=
  r.report names { label := block, value := blockSize, frames }

def build (r : GperfReport) : Proto.Profile × GperfReport := r.build names

end GperfHeapProfilerReport

namespace GperfCpuProfilerReport

def names : SampleNames where
  type := "cpu"
  unit := "nanoseconds"
  label := "cpu_times"

/-- `nanos` is `cpu_time.as_nanos()`. -/
def reportCpuSample (r : GperfReport) (nanos : Nat) (frames : List Symbol) : Option (GperfReport × Bool) :=
  r.report names { label := nanos, value := nanos, frames }

def build (r : GperfReport) : Proto.Profile × GperfReport := r.build names

end GperfCpuProfilerReport

end Hala.Pprof
