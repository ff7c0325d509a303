import Hala.Lib.Machine
import Mathlib.Data.BitVec

/-! The heap profiler (`crates/pprof/src/profiler/heap.rs`), with the reentrancy counter of `crates/pprof/src/c`.

Any number of threads are in `alloc` and `dealloc` of `HeapProfilerAlloc`; a step is one access to what they share, or one
call of the system allocator. A call made inside the profiler is a call of the same thread beside the one it is made in. -/

namespace Hala.Pprof
open Machine

structure Layout where
  size : Nat
  align : Nat
  deriving DecidableEq, Repr

structure Block where
  size : Nat
  frames : List Nat
  deriving DecidableEq, Repr

structure HeapProfilerStats where
  blocks : BitVec 64
  memorySize : BitVec 64
  deriving DecidableEq, Repr

structure HeapProfiler where
  blocks : Nat → Option Block := fun _ => none
  counter : BitVec 64 := 0
  memorySize : BitVec 64 := 0

namespace HeapProfiler

def insert (p : HeapProfiler) (ptr : Nat) (block : Block) : HeapProfiler :=
  { p with blocks := Function.update p.blocks ptr (some block) }

def remove (p : HeapProfiler) (ptr : Nat) : HeapProfiler := { p with blocks := Function.update p.blocks ptr none }

def generateStats (p : HeapProfiler) : HeapProfilerStats := ⟨p.counter, p.memorySize⟩

end HeapProfiler

/-- Where a block stands between the call of `alloc` and the end of `dealloc`. A name of a step says what comes next. -/
inductive Place where
  /-- Not asked for yet. -/
  | idle
  | alloc
  | register
  | enter
  | insert
  | addCounter
  | addMemory
  | leave
  | owned
  /-- `alloc` has returned null. -/
  | failed
  | unregister
  | remove
  | subCounter
  | subMemory
  | free
  | freed
  deriving DecidableEq, Repr

structure Allocation where
  place : Place := .idle
  /-- The thread that called `alloc`. -/
  thread : Nat := 0
  layout : Layout := ⟨0, 1⟩
  ptr : Nat := 0
  /-- The call of `alloc` was made after the start, and outside of the profiler: its `Reentrancy` was the first. -/
  outside : Bool := false
  /-- The backtrace of its block in the table. -/
  frames : Option (List Nat) := none
  deriving DecidableEq, Repr

/-- From the answer of `System.alloc` to the call of `System.dealloc`. -/
def Place.inUse : Place → Bool
  | .idle | .alloc | .freed => false
  | _ => true

def Place.atRest : Place → Bool
  | .idle | .owned | .failed | .freed => true
  | _ => false

namespace Allocation

/-- What it was recorded as. -/
def block (a : Allocation) : Option Block := a.frames.map (Block.mk a.layout.size)

/-- The system allocator has handed it out. -/
def live (a : Allocation) : Bool := a.ptr ≠ 0 && a.place.inUse

def Apart (a b : Allocation) : Prop := a.ptr + a.layout.size ≤ b.ptr ∨ b.ptr + b.layout.size ≤ a.ptr

instance (a b : Allocation) : Decidable (Apart a b) := inferInstanceAs (Decidable (_ ∨ _))

/-- The end of `alloc`. -/
def returned (a : Allocation) : Allocation := { a with place := if a.ptr = 0 then .failed else .owned }

end Allocation

structure Heap where
  /-- `GLOBAL_HEAP_PROFILER` has been set, to `profiler`. -/
  started : Bool := false
  profiler : HeapProfiler := {}
  /-- The `COUNTER` of each thread. -/
  reentrancy : Nat → Int := fun _ => 0
  /-- How many calls of `heap_profiler_report` a thread is in. -/
  reports : Nat → Nat := fun _ => 0
  /-- How many calls of `alloc` there have been. -/
  allocs : Nat := 0
  allocations : Nat → Allocation := fun _ => {}

inductive HeapAction where
  | start
  | alloc (thread : Nat) (layout : Layout)
  | dealloc (i : Nat)
  /-- The next step of a call about allocation `i`; the system allocator would return `ptr`, and the backtrace would be
      `frames`. -/
  | next (i ptr : Nat) (frames : List Nat)
  | report (thread : Nat)
  | reported (thread : Nat)
  deriving DecidableEq, Repr

namespace Heap

def setAllocation (s : Heap) (i : Nat) (a : Allocation) : Heap :=
  { s with allocations := Function.update s.allocations i a }

/-- What the system allocator can answer: null, or an address at which nothing is that is in use. -/
def CanReturn (s : Heap) (a : Allocation) : Prop :=
  a.ptr = 0 ∨ a.ptr + a.layout.size ≤ 2 ^ 64 ∧ ∀ j < s.allocs, (s.allocations j).live → a.Apart (s.allocations j)

instance (s : Heap) (a : Allocation) : Decidable (s.CanReturn a) := inferInstanceAs (Decidable (_ ∨ _))

def next (s : Heap) (i ptr : Nat) (frames : List Nat) : Option Heap :=
  let a := s.allocations i
  match a.place with
  | .idle | .owned | .failed | .freed => none
  | .alloc =>
    let a := { a with ptr := ptr, place := .register }
    if s.CanReturn a then some (s.setAllocation i a) else none
  | .register => some (s.setAllocation i (if s.started then { a with place := .enter } else a.returned))
  | .enter =>
    let counter := s.reentrancy a.thread + 1
    some ({ s with reentrancy := Function.update s.reentrancy a.thread counter }.setAllocation i
      { a with place := if counter = 1 then .insert else .leave, outside := counter = 1 })
  | .insert =>
    some ({ s with profiler := s.profiler.insert a.ptr ⟨a.layout.size, frames⟩ }.setAllocation i
      { a with frames := some frames, place := .addCounter })
  | .addCounter =>
    some ({ s with profiler := { s.profiler with counter := s.profiler.counter + 1 } }.setAllocation i
      { a with place := .addMemory })
  | .addMemory =>
    some ({ s with profiler := { s.profiler with memorySize := s.profiler.memorySize + a.layout.size } }.setAllocation i
      { a with place := .leave })
  | .leave =>
    some ({ s with
      reentrancy := Function.update s.reentrancy a.thread (s.reentrancy a.thread - 1) }.setAllocation i a.returned)
  | .unregister => some (s.setAllocation i { a with place := if s.started then .remove else .free })
  | .remove =>
    match s.profiler.blocks a.ptr with
    | some _ => some ({ s with profiler := s.profiler.remove a.ptr }.setAllocation i { a with place := .subCounter })
    | none => some (s.setAllocation i { a with place := .free })
  | .subCounter =>
    some ({ s with profiler := { s.profiler with counter := s.profiler.counter - 1 } }.setAllocation i
      { a with place := .subMemory })
  | .subMemory =>
    some ({ s with profiler := { s.profiler with memorySize := s.profiler.memorySize - a.layout.size } }.setAllocation i
      { a with place := .free })
  | .free => some (s.setAllocation i { a with place := .freed })

def step (s : Heap) : HeapAction → Option Heap
  | .start => if s.started then none else some { s with started := true }
  | .alloc thread layout =>
    -- who asks for no bytes at all breaks the contract of `GlobalAlloc`
    if 0 < layout.size then
      some ({ s with allocs := s.allocs + 1 }.setAllocation s.allocs { place := .alloc, thread := thread, layout := layout })
    else none
  | .dealloc i =>
    if (s.allocations i).place = .owned then some (s.setAllocation i { s.allocations i with place := .unregister }) else none
  | .next i ptr frames => s.next i ptr frames
  | .report thread =>
    some { s with
      reentrancy := Function.update s.reentrancy thread (s.reentrancy thread + 1)
      reports := Function.update s.reports thread (s.reports thread + 1) }
  | .reported thread =>
    if s.reports thread = 0 then none
    else
      some { s with
        reentrancy := Function.update s.reentrancy thread (s.reentrancy thread - 1)
        reports := Function.update s.reports thread (s.reports thread - 1) }

/-- The blocks that are to be recorded and are still allocated. -/
def recorded (s : Heap) : Finset Nat :=
  (Finset.range s.allocs).filter fun i => (s.allocations i).place = .owned ∧ (s.allocations i).outside

/-- No call of `alloc` or `dealloc` is in progress. -/
def Quiet (s : Heap) : Prop := ∀ i, (s.allocations i).place.atRest

end Heap

end Hala.Pprof
