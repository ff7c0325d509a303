import Hala.Lib.Machine

/-! The CPU profiler (`crates/pprof/src/profiler/cpu.rs`).

Any number of threads are in `sample`, which is a test of the flag, the backtrace, and the push under the lock of `samples`.
The calls of `start` and `report` follow one another; `report` clears the flag and then drains the samples. -/

namespace Hala.Pprof
open Machine

structure CpuSample where
  cpuTimes : Nat
  frames : List Nat
  /-- How often the profiler had been started when its flag was tested for this sample. -/
  session : Nat
  deriving DecidableEq, Repr

structure CpuProfiler where
  samples : List CpuSample := []
  flag : Bool := false
  deriving DecidableEq, Repr

/-- A call of `sample` that has found the flag set. -/
inductive SampleCall where
  | backtrace (instant session : Nat)
  | push (sample : CpuSample)
  deriving DecidableEq, Repr

/-- Whoever calls `start` and `report`. -/
inductive CpuControl where
  | stopped
  | started
  /-- In `report`, with the flag cleared. -/
  | draining
  /-- An `expect` has failed. -/
  | panicked
  deriving DecidableEq, Repr

structure Cpu where
  profiler : CpuProfiler := {}
  control : CpuControl := .stopped
  /-- How often `start` has returned. -/
  starts : Nat := 0
  calls : List SampleCall := []
  deriving DecidableEq, Repr

inductive CpuAction where
  | start
  | report
  | drain
  | sample (instant : Nat)
  /-- The next step of a call of `sample`, with its backtrace, and the time at which that has been taken. -/
  | next (j : Nat) (frames : List Nat) (now : Nat)
  deriving DecidableEq, Repr

inductive CpuEvent where
  /-- A sample has been pushed. -/
  | stored (sample : CpuSample)
  /-- The `report` of a session has drained these, and will report them. -/
  | reported (session : Nat) (samples : List CpuSample)
  deriving DecidableEq, Repr

def SampleCall.session : SampleCall → Nat
  | .backtrace _ session => session
  | .push sample => sample.session

namespace Cpu

def step (s : Cpu) : CpuAction → Option Cpu
  | .start =>
    match s.control with
    | .stopped =>
      if s.profiler.flag then some { s with control := .panicked }
      else some { s with profiler := { s.profiler with flag := true }, control := .started, starts := s.starts + 1 }
    | _ => none
  | .report =>
    match s.control with
    | .started =>
      if s.profiler.flag then some { s with profiler := { s.profiler with flag := false }, control := .draining }
      else some { s with control := .panicked }
    | _ => none
  | .drain =>
    match s.control with
    | .draining => some { s with profiler := { s.profiler with samples := [] }, control := .stopped }
    | _ => none
  | .sample instant => some (if s.profiler.flag then { s with calls := s.calls ++ [.backtrace instant s.starts] } else s)
  | .next j frames now =>
    match s.calls[j]? with
    | some (.backtrace instant session) =>
      some { s with calls := s.calls.set j (.push { cpuTimes := now - instant, frames := frames, session := session }) }
    | some (.push sample) =>
      some { s with
        profiler := { s.profiler with samples := s.profiler.samples ++ [sample] }
        calls := s.calls.eraseIdx j }
    | none => none

def events (s : Cpu) : CpuAction → List CpuEvent
  | .drain => [.reported s.starts s.profiler.samples]
  | .next j _ _ =>
    match s.calls[j]? with
    | some (.push sample) => [.stored sample]
    | _ => []
  | _ => []

end Cpu

end Hala.Pprof
