import Hala.Lib.Machine
import Mathlib.Data.BitVec
import Mathlib.Order.Interval.Finset.Nat

/-! `Session` (`crates/rproxy/src/utils.rs`), and `Rproxy` (`crates/rproxy/src/rproxy.rs`).

The accept loop spawns a task for each inbound connection, which is `handshake`. The tasks, the calls of `closed_with` and
any number of calls of `stats` run beside each other; a step is one access to what they share. What the handshaker returns
is given with the step, and it can return any session, as sessions can be cloned. Task `i` has the waker `i`. -/

namespace Hala.Proxy
open Machine

/-- What a `Session` shares with its clones; its `SpinMutex` makes a step of each access. -/
structure SessionFlag (ε : Type) where
  closed : Option (Except ε Unit) := none
  waker : Option Nat := none

namespace SessionFlag
variable {ε : Type}

/-- `closed_with`, with the waker that it wakes. -/
def closedWith (flag : SessionFlag ε) (r : Except ε Unit) : SessionFlag ε × Option Nat :=
  ({ closed := some r, waker := none }, flag.waker)

/-- `poll`; `none` is `Poll::Pending`. -/
def poll (flag : SessionFlag ε) (waker : Nat) : SessionFlag ε × Option (Except ε Unit) :=
  match flag.closed with
  | some r => ({ flag with closed := none }, some r)
  | none => ({ flag with waker := some waker }, none)

end SessionFlag

/-- A call of `handshake`. A name says what the next step does. -/
inductive Handshake (ε : Type) where
  | idle
  | handshake
  | addConn (session : Nat)
  | poll (session : Nat)
  /-- The session has returned `Pending`. -/
  | pending (session : Nat)
  | subConn (session : Nat) (r : Except ε Unit)
  | addClosed (session : Nat) (r : Except ε Unit)
  | returned (session : Nat) (r : Except ε Unit)
  /-- The handshaker has failed. -/
  | failed (err : ε)
  /-- The future was dropped before it was done. -/
  | dropped (session : Option Nat)

namespace Handshake
variable {ε : Type}

def session? : Handshake ε → Option Nat
  | .idle | .handshake | .failed _ => none
  | .addConn session | .poll session | .pending session | .subConn session _ | .addClosed session _
  | .returned session _ => some session
  | .dropped session => session

/-- `conns` counts the call: it has added itself, and not subtracted. -/
def active : Handshake ε → Bool
  | .poll _ | .pending _ | .subConn .. | .dropped (some _) => true
  | _ => false

/-- `closed_conns` counts the call. -/
def hasClosed : Handshake ε → Bool
  | .returned .. => true
  | _ => false

/-- The call is between the updates of the two counters. -/
def leaving : Handshake ε → Bool
  | .addClosed .. => true
  | _ => false

/-- The call was counted. -/
def opened : Handshake ε → Bool
  | .poll _ | .pending _ | .subConn .. | .addClosed .. | .returned .. | .dropped (some _) => true
  | _ => false

/-- The session has given the call a result that meets `p`. -/
def delivered (session : Nat) (p : Except ε Unit → Bool) : Handshake ε → Bool
  | .subConn session' r | .addClosed session' r | .returned session' r => session' == session && p r
  | _ => false

end Handshake

/-- A call of `stats`. -/
inductive Stats where
  | idle
  | loadClosed (actived : BitVec 64)
  | returned (actived closed : BitVec 64)
  deriving DecidableEq, Repr

/-- `conns` and `closed_conns` are `AtomicUsize`. -/
structure Rproxy (ε : Type) where
  conns : BitVec 64 := 0
  closedConns : BitVec 64 := 0
  sessions : Nat → SessionFlag ε := fun _ => {}
  accepting : Bool := true
  spawned : Nat := 0
  tasks : Nat → Handshake ε := fun _ => .idle
  /-- The tasks that have been woken since their session returned `Pending`. -/
  woken : Nat → Bool := fun _ => false
  stats : Nat → Stats := fun _ => .idle

inductive RproxyAction (ε : Type) where
  /-- `listener.accept()` has returned a connection. -/
  | accept
  /-- `listener.accept()` has returned `None`. -/
  | stop
  | handshaken (i : Nat) (result : Except ε Nat)
  /-- The next step of a call that does not wait for the handshaker; a pending one is polled again. -/
  | task (i : Nat)
  | drop (i : Nat)
  | closedWith (session : Nat) (r : Except ε Unit)
  | stats (j : Nat)

namespace Rproxy
variable {ε : Type}

def setTask (s : Rproxy ε) (i : Nat) (task : Handshake ε) : Rproxy ε :=
  { s with tasks := Function.update s.tasks i task }

def setSession (s : Rproxy ε) (session : Nat) (flag : SessionFlag ε) : Rproxy ε :=
  { s with sessions := Function.update s.sessions session flag }

def wake (s : Rproxy ε) : Option Nat → Rproxy ε
  | none => s
  | some i => { s with woken := Function.update s.woken i true }

def taskStep (s : Rproxy ε) (i : Nat) : Handshake ε → Option (Rproxy ε)
  | .addConn session => some ({ s with conns := s.conns + 1 }.setTask i (.poll session))
  | .poll session =>
    match (s.sessions session).poll i with
    | (flag, some r) => some ((s.setSession session flag).setTask i (.subConn session r))
    | (flag, none) =>
      some ({ s with woken := Function.update s.woken i false }.setSession session flag |>.setTask i (.pending session))
  | .pending session => some (s.setTask i (.poll session))
  | .subConn session r => some ({ s with conns := s.conns - 1 }.setTask i (.addClosed session r))
  | .addClosed session r => some ({ s with closedConns := s.closedConns + 1 }.setTask i (.returned session r))
  | .idle | .handshake | .returned .. | .failed _ | .dropped _ => none

/-- A future can be dropped where it waits. -/
def dropTask (s : Rproxy ε) (i : Nat) : Handshake ε → Option (Rproxy ε)
  | .handshake => some (s.setTask i (.dropped none))
  | .pending session => some (s.setTask i (.dropped (some session)))
  | _ => none

def statsStep (s : Rproxy ε) (j : Nat) : Stats → Option (Rproxy ε)
  | .idle => some { s with stats := Function.update s.stats j (.loadClosed s.conns) }
  | .loadClosed actived => some { s with stats := Function.update s.stats j (.returned actived s.closedConns) }
  | .returned .. => none

def step (s : Rproxy ε) : RproxyAction ε → Option (Rproxy ε)
  | .accept =>
    if s.accepting then some ({ s with spawned := s.spawned + 1 }.setTask s.spawned .handshake) else none
  | .stop => if s.accepting then some { s with accepting := false } else none
  | .handshaken i result =>
    match s.tasks i, result with
    | .handshake, .ok session => some (s.setTask i (.addConn session))
    | .handshake, .error err => some (s.setTask i (.failed err))
    | _, _ => none
  | .task i => s.taskStep i (s.tasks i)
  | .drop i => s.dropTask i (s.tasks i)
  | .closedWith session r =>
    let (flag, waker) := (s.sessions session).closedWith r
    some ((s.setSession session flag).wake waker)
  | .stats j => s.statsStep j (s.stats j)

/-- How many of the calls that have been made are like this. -/
def count (s : Rproxy ε) (is : Handshake ε → Bool) : Nat := ((Finset.range s.spawned).filter fun i => is (s.tasks i)).card

/-- Every handshake gives a session that no other task has. -/
def OwnSession (s : Rproxy ε) : RproxyAction ε → Prop
  | .handshaken _ (.ok session) => ∀ j, (s.tasks j).session? ≠ some session
  | _ => True

/-- The results with which the actions close a session. -/
def closings (session : Nat) : RproxyAction ε → List (Except ε Unit)
  | .closedWith session' r => if session' = session then [r] else []
  | _ => []

end Rproxy

end Hala.Proxy
