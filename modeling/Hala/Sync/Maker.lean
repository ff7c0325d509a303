import Hala.Lib.Machine

/-! The async mutex of `crates/sync/src/maker.rs`: `AsyncLockableMaker` over an inner lock and a lock around
`DefaultAsyncLockableMediator`.

The machine takes one atomic step of one lock future at a time. A future is polled, becomes a guard and is
dropped by its task; `poll` may come at any time while the future is not being polled. Both locks are correct
mutexes whose `try_lock` fails only while they are held, and `lock` waits until the lock is free. -/

namespace Hala.Sync
open Machine

abbrev Waker := Nat

/-- `DefaultAsyncLockableMediator`. -/
structure Mediator where
  keyNext : Nat := 0
  wakers : List (Nat × Waker) := []
  deriving DecidableEq, Repr

namespace Mediator

def waitLockable (m : Mediator) (waker : Waker) : Nat × Mediator :=
  (m.keyNext, { keyNext := m.keyNext + 1, wakers := (m.keyNext, waker) :: m.wakers.filter fun e => e.1 ≠ m.keyNext })

def cancel (m : Mediator) (key : Nat) : Bool × Mediator :=
  (m.wakers.any fun e => e.1 == key, { m with wakers := m.wakers.filter fun e => e.1 ≠ key })

/-- The drained wakers are those that are woken. -/
def notifyAll (m : Mediator) : List Waker × Mediator := (m.wakers.map Prod.snd, { m with wakers := [] })

end Mediator

/-- Where a lock future, and later its guard, stands. A name says what the next step does. -/
inductive Pc where
  | created
  | tryLock
  | lockWakers
  | waitLockable
  | tryLockAgain
  | cancel
  | returnReady
  | returnPending
  | pending
  | guard
  | releaseInner
  | lockWakersToNotify
  | notifyAll
  | unlockWakers
  | finished
  | dropped
  | panicked
  deriving DecidableEq, Repr

/-- A lock future: the waker of its latest poll, and whether that waker has been woken since this poll began. -/
structure LockFuture where
  pc : Pc := .created
  waker : Waker := 0
  waitKey : Option Nat := none
  woken : Bool := false
  deriving DecidableEq, Repr

structure State where
  innerLocked : Bool := false
  wakersLocked : Bool := false
  mediator : Mediator := {}
  futures : Nat → LockFuture := fun _ => {}

inductive Action where
  /-- A task polls the future with a waker. -/
  | poll (f : Nat) (waker : Waker)
  /-- The next atomic step of the running poll or drop. -/
  | next (f : Nat)
  /-- The guard is dropped. -/
  | unlock (f : Nat)
  /-- The future is dropped before it was polled or while it is pending. -/
  | drop (f : Nat)
  deriving DecidableEq, Repr

namespace State

def set (s : State) (f : Nat) (l : LockFuture) : State := { s with futures := Function.update s.futures f l }

/-- `f` goes to `pc`. -/
def goto (s : State) (f : Nat) (pc : Pc) : State := s.set f { s.futures f with pc }

/-- Each future whose waker is among `ws` has been woken. -/
def wake (s : State) (ws : List Waker) : State :=
  { s with futures := fun f => { s.futures f with woken := (s.futures f).woken || ws.contains (s.futures f).waker } }

end State

/-- One atomic step of `poll` or of dropping a guard. -/
def next (s : State) (f : Nat) : Option State :=
  match (s.futures f).pc with
  | .tryLock => if s.innerLocked then some (s.goto f .lockWakers) else some ({ s with innerLocked := true }.goto f .guard)
  | .lockWakers => if s.wakersLocked then none else some ({ s with wakersLocked := true }.goto f .waitLockable)
  | .waitLockable =>
    let (key, mediator) := s.mediator.waitLockable (s.futures f).waker
    some ({ s with mediator }.set f { s.futures f with pc := .tryLockAgain, waitKey := some key })
  | .tryLockAgain =>
    if s.innerLocked then some (s.goto f .returnPending) else some ({ s with innerLocked := true }.goto f .cancel)
  | .cancel =>
    match (s.futures f).waitKey with
    | none => some (s.goto f .panicked)
    | some key =>
      let (_, mediator) := s.mediator.cancel key
      some ({ s with mediator }.set f { s.futures f with pc := .returnReady, waitKey := none })
  | .returnReady => some ({ s with wakersLocked := false }.goto f .guard)
  | .returnPending => some ({ s with wakersLocked := false }.goto f .pending)
  | .releaseInner => some ({ s with innerLocked := false }.goto f .lockWakersToNotify)
  | .lockWakersToNotify => if s.wakersLocked then none else some ({ s with wakersLocked := true }.goto f .notifyAll)
  | .notifyAll =>
    let (wakers, mediator) := s.mediator.notifyAll
    some (({ s with mediator }.wake wakers).goto f .unlockWakers)
  | .unlockWakers => some ({ s with wakersLocked := false }.goto f .finished)
  | .created | .pending | .guard | .finished | .dropped | .panicked => none

def step (s : State) : Action → Option State
  | .poll f waker =>
    if (s.futures f).pc = .created ∨ (s.futures f).pc = .pending then
      some (s.set f { s.futures f with pc := .tryLock, waker, woken := false })
    else none
  | .next f => next s f
  | .unlock f => if (s.futures f).pc = .guard then some (s.goto f .releaseInner) else none
  | .drop f =>
    if (s.futures f).pc = .created ∨ (s.futures f).pc = .pending then some (s.goto f .dropped) else none

end Hala.Sync
