import Hala.Io.Poller

/-! `MioDriver::nonblocking_call` (`crates/io/src/mio/driver.rs`) beside `MioPoller::poll_once`.

For each handle there is one task that reads and one that writes. They make calls while any number of threads are in
`poll_once` and the sockets change; a step is one access to what they share. Call `n` of `nonblocking_call` is given the
waker `n`. mio is edge-triggered: it queues an event when a socket becomes ready, and may report others at any time. -/

namespace Hala.Io
open Machine

inductive Direction where
  | read
  | write
  deriving DecidableEq, Repr

def Direction.interest : Direction → Interest
  | .read => .onlyReadable
  | .write => .onlyWritable

/-- What `f` returns once; after a success the socket is still ready or not. -/
inductive Attempt where
  | interrupted
  | wouldBlock
  | error
  | ok (ready : Bool)
  deriving DecidableEq, Repr

inductive IoResult where
  | ok
  | wouldBlock
  | error
  deriving DecidableEq, Repr

/-- A task and its last call of `nonblocking_call`. A name says what the next step does. -/
inductive NonblockingCall where
  | idle
  | addWaker (waker : Waker)
  | attempt (waker : Waker)
  | removeWaker (waker : Waker)
  | returned (waker : Waker) (result : IoResult)
  deriving DecidableEq, Repr

def NonblockingCall.ended : NonblockingCall → Bool
  | .idle | .returned .. => true
  | .addWaker _ | .attempt _ | .removeWaker _ => false

namespace PollOnce

/-- The tokens whose write waker the call has still to look for, as far as it knows them. -/
def unwritten : PollOnce → List Token
  | .tick events | .read events | .wakeWrite _ _ events => (events.filter (·.2.writable)).map Prod.fst
  | .wakeRead event _ events | .write event events => ((event :: events).filter (·.2.writable)).map Prod.fst
  | .idle | .done | .panicked => []

def hasPanicked : PollOnce → Bool
  | .panicked => true
  | _ => false

/-- The call has an event of the direction at which it has not looked. One that has panicked never will. -/
def holds (poll : PollOnce) (token : Token) : Direction → Bool
  | .read => poll.hasPanicked || token ∈ poll.unread
  | .write => poll.hasPanicked || token ∈ poll.unwritten

/-- The waker that the call has removed for the direction and not woken. -/
def waking (poll : PollOnce) (token : Token) (direction : Direction) : Option Waker :=
  match direction, poll with
  | .read, .wakeRead event waker _ | .write, .wakeWrite event waker _ => if event.1 = token then some waker else none
  | _, _ => none

def running : PollOnce → Bool
  | .idle | .done | .panicked => false
  | _ => true

end PollOnce

def MioPoller.wakers (m : MioPoller) : Direction → Token → Option Waker
  | .read => m.readWakers
  | .write => m.writeWakers

/-- The events report the direction of the token. -/
def reports (events : List (Token × Bool × Bool)) (token : Token) : Direction → Bool
  | .read => events.any fun event => event.1 == token && event.2.1
  | .write => events.any fun event => event.1 == token && event.2.2

structure Driver where
  poller : MioPoller := {}
  polls : Nat → PollOnce := fun _ => .idle
  calls : Token → Direction → NonblockingCall := fun _ _ => .idle
  /-- How many calls of `nonblocking_call` there have been. -/
  called : Nat := 0
  ready : Token → Direction → Bool
  /-- mio has the event of a change to ready, and has not reported it. -/
  queued : Token → Direction → Bool
  /-- The event of the last change to ready was reported to the call of `poll_once`. -/
  taken : Nat → Token → Direction → Bool := fun _ _ _ => false

inductive DriverAction where
  | call (token : Token) (direction : Direction)
  /-- The next step of a call; the attempt is for the step that makes it. -/
  | task (token : Token) (direction : Direction) (attempt : Attempt)
  | becomeReady (token : Token) (direction : Direction)
  | becomeUnready (token : Token) (direction : Direction)
  /-- `poll_once` is called, and `poll` of mio returns the events. -/
  | pollOnce (j : Nat) (events : List (Token × Bool × Bool))
  /-- `poll_once` is called, and `poll` of mio fails. -/
  | pollFails (j : Nat)
  | poller (j : Nat)
  /-- Time passes. -/
  | wait (nanos : Nat)
  /-- A step of a `new_timer` that runs beside. -/
  | newTimer (i : Nat) (duration : Nat)
  | add (i : Nat) (spurious : Bool)
  deriving DecidableEq, Repr

/-- A table with another entry for the direction of the token. -/
def setAt {α : Type} (table : Token → Direction → α) (token : Token) (direction : Direction) (a : α) :
    Token → Direction → α :=
  fun token' direction' => if token' = token ∧ direction' = direction then a else table token' direction'

namespace Driver

def setCall (s : Driver) (token : Token) (direction : Direction) (call : NonblockingCall) : Driver :=
  { s with calls := setAt s.calls token direction call }

def setPoll (s : Driver) (j : Nat) (poll : PollOnce) : Driver := { s with polls := Function.update s.polls j poll }

def setWheel (s : Driver) (wheel : TimeWheel.State) : Driver := { s with poller := { s.poller with wheel } }

/-- The next step of `nonblocking_call`. `f` returns `WouldBlock` only when the socket is not ready, and succeeds only
    when it is. -/
def taskStep (s : Driver) (token : Token) (direction : Direction) (attempt : Attempt) : NonblockingCall → Option Driver
  | .idle | .returned .. => none
  | .addWaker waker =>
    some ({ s with poller := s.poller.addWaker token direction.interest waker }.setCall token direction (.attempt waker))
  | .attempt waker =>
    match attempt with
    | .interrupted => some s
    | .wouldBlock =>
      if s.ready token direction then none else some (s.setCall token direction (.returned waker .wouldBlock))
    | .error => some (s.setCall token direction (.returned waker .error))
    | .ok ready =>
      if s.ready token direction then
        some ({ s with ready := setAt s.ready token direction ready }.setCall token direction (.removeWaker waker))
      else none
  | .removeWaker waker =>
    some ({ s with poller := (s.poller.removeWaker token direction.interest).2 }.setCall token direction
      (.returned waker .ok))

/-- The socket becomes ready, if it is not. -/
def becomeReady (s : Driver) (token : Token) (direction : Direction) : Option Driver :=
  if s.ready token direction then none
  else some { s with
    ready := setAt s.ready token direction true
    queued := setAt s.queued token direction true
    taken := fun j => setAt (s.taken j) token direction false }

/-- mio reports the events, which are then no longer queued. -/
def pollOnce (s : Driver) (j : Nat) (events : List (Token × Bool × Bool)) : Driver :=
  let (poller, poll) := s.poller.pollOnce j events
  { s with
    poller
    queued := fun token direction => s.queued token direction && !reports events token direction
    taken := Function.update s.taken j fun token direction => s.queued token direction && reports events token direction
  }.setPoll j poll

def step (tickDuration : Nat) (s : Driver) : DriverAction → Option Driver
  | .call token direction =>
    if (s.calls token direction).ended then
      some ({ s with called := s.called + 1 }.setCall token direction (.addWaker s.called))
    else none
  | .task token direction attempt => s.taskStep token direction attempt (s.calls token direction)
  | .becomeReady token direction => s.becomeReady token direction
  | .becomeUnready token direction => some { s with ready := setAt s.ready token direction false }
  | .pollOnce j events => if s.polls j = .idle then some (s.pollOnce j events) else none
  | .pollFails j => if s.polls j = .idle then some (s.setPoll j .done) else none
  | .poller j =>
    (s.poller.pollOnceStep tickDuration j (s.polls j)).map fun (poller, poll) => { s with poller }.setPoll j poll
  | .wait nanos => some (s.setWheel { s.poller.wheel with clock := s.poller.wheel.clock + nanos })
  | .newTimer i duration =>
    (TimeWheel.step (tickDuration / 1000) s.poller.wheel (.newTimer i duration)).map s.setWheel
  | .add i spurious => (TimeWheel.addStep s.poller.wheel i spurious).map s.setWheel

/-- `poll_once` is called only when no other call of it runs. -/
def OneAtATime (s : Driver) : DriverAction → Prop
  | .pollOnce .. => ∀ k, (s.polls k).running = false
  | _ => True

/-- The event of the last change to ready has not been processed for the waker: mio has not reported it, or the call of
    `poll_once` to which it was reported has not looked for a waker, or not woken the one it has found. -/
def Unprocessed (s : Driver) (token : Token) (direction : Direction) (waker : Waker) : Prop :=
  s.queued token direction = true ∨
  ∃ j, s.taken j token direction = true ∧
    ((s.polls j).holds token direction = true ∨ (s.polls j).waking token direction = some waker)

/-- A call of `poll_once` has removed the waker and is going to wake it. -/
def Waking (s : Driver) (token : Token) (direction : Direction) (waker : Waker) : Prop :=
  ∃ j, (s.polls j).waking token direction = some waker

end Driver

end Hala.Io
