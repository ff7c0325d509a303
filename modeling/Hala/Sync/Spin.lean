import Hala.Lib.Machine
import Hala.Lib.Tasks

/-! `SpinMutex` (`crates/sync/src/spin.rs`).

Any number of threads are in `lock`, `try_lock` or the drop of a guard; a step is one access to the flag or to the guard
word. A guard belongs to no thread: whichever has it can drop it. -/

namespace Hala.Sync
open Machine

/-- The address of an object. -/
abbrev Ptr := { ptr : Nat // ptr ≠ 0 }

structure SpinMutex where
  flag : Bool := false
  /-- The address that the guard had when it was made, or 0. -/
  guard : Nat := 0
  deriving DecidableEq, Repr

/-- Where a thread stands. A name says what the next step does. -/
inductive SpinCall where
  | idle
  | lock
  | lockable
  | tryLock
  | setGuard (ptr : Ptr)
  | unsetGuard (ptr : Ptr)
  | clearFlag (ptr : Ptr)
  /-- An `expect` has failed. -/
  | panicked
  deriving DecidableEq, Repr

/-- The guards that have been returned and not dropped, each with its `ptr`. -/
structure Spin where
  mutex : SpinMutex := {}
  calls : Nat → SpinCall := fun _ => .idle
  guards : Nat → Option Ptr := fun _ => none

inductive SpinAction where
  | lock (t : Nat)
  | tryLock (t : Nat)
  /-- Thread `t` drops the guard, or passes it to `unlock`. -/
  | drop (t g : Nat)
  /-- The next step of a call. A weak exchange may fail for no reason; `ptr` is where a guard is made, and `g` is what it
      is called from then on. -/
  | next (t : Nat) (spurious : Bool) (ptr : Ptr) (g : Nat)
  deriving DecidableEq, Repr

namespace Spin

def setCall (s : Spin) (t : Nat) (call : SpinCall) : Spin := { s with calls := Function.update s.calls t call }

def setGuard (s : Spin) (g : Nat) (ptr : Option Ptr) : Spin := { s with guards := Function.update s.guards g ptr }

/-- One step of `lock`, of `try_lock` or of the drop of a guard. -/
def next (s : Spin) (t : Nat) (spurious : Bool) (ptr : Ptr) (g : Nat) : Option Spin :=
  match s.calls t with
  | .idle | .panicked => none
  | .lock =>
    if s.mutex.flag || spurious then some (s.setCall t .lockable)
    else some ({ s with mutex := { s.mutex with flag := true } }.setCall t (.setGuard ptr))
  | .lockable => some (s.setCall t (if s.mutex.flag then .lockable else .lock))
  | .tryLock =>
    if s.mutex.flag then some (s.setCall t .idle)
    else some ({ s with mutex := { s.mutex with flag := true } }.setCall t (.setGuard ptr))
  | .setGuard ptr =>
    if s.mutex.guard = 0 then
      if s.guards g = none then
        some (({ s with mutex := { s.mutex with guard := ptr } }.setCall t .idle).setGuard g (some ptr))
      else none
    else some (s.setCall t .panicked)
  | .unsetGuard ptr =>
    if s.mutex.guard = ptr then some ({ s with mutex := { s.mutex with guard := 0 } }.setCall t (.clearFlag ptr))
    else some (s.setCall t .panicked)
  | .clearFlag _ => some ({ s with mutex := { s.mutex with flag := false } }.setCall t .idle)

def step (s : Spin) : SpinAction → Option Spin
  | .lock t => if s.calls t = .idle then some (s.setCall t .lock) else none
  | .tryLock t => if s.calls t = .idle then some (s.setCall t .tryLock) else none
  | .drop t g =>
    match s.calls t, s.guards g with
    | .idle, some ptr => some ((s.setGuard g none).setCall t (.unsetGuard ptr))
    | _, _ => none
  | .next t spurious ptr g => s.next t spurious ptr g

end Spin

/-- A guard: one that a thread is making, one that has been returned, or one that a thread is dropping. -/
inductive GuardPlace where
  | making (t : Nat)
  | returned (g : Nat)
  | dropping (t : Nat)
  deriving DecidableEq, Repr

/-- The `ptr` of a guard that is being made. -/
def SpinCall.making : SpinCall → Option Ptr
  | .setGuard ptr => some ptr
  | _ => none

/-- The `ptr` of a guard that is being dropped. -/
def SpinCall.dropping : SpinCall → Option Ptr
  | .unsetGuard ptr | .clearFlag ptr => some ptr
  | _ => none

/-- The `ptr` of the guard at a place, if there is one. -/
def Spin.guardAt (s : Spin) : GuardPlace → Option Ptr
  | .making t => (s.calls t).making
  | .returned g => s.guards g
  | .dropping t => (s.calls t).dropping

end Hala.Sync
