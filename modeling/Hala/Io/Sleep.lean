import Hala.Io.Poller

/-! `Sleep` (`crates/io/src/sleep.rs`) on the timers of the mio driver (`crates/io/src/mio/timer.rs`,
`MioDriver::timeout` in `crates/io/src/mio/driver.rs`).

Tasks poll any number of sleeps while any number of threads are in `poll_once`; a step is one access to what they
share, and any time can pass between two of them. Sleep `i` has the token `i`, and makes call `i` of `new_timer`. -/

namespace Hala.Io
open Machine

structure MioTimer where
  startInstant : Option Nat := none
  duration : Nat
  tickDuration : Option Nat := none
  timewheelTicks : Option Nat := none
  deriving DecidableEq, Repr

namespace MioTimer

/-- `start`, up to the call of `new_timer`. -/
def start (timer : MioTimer) (now tickDuration : Nat) : MioTimer :=
  { timer with startInstant := some now, tickDuration := some tickDuration }

/-- `is_expired`; `none` is the panic of its `expect`. -/
def isExpired (timer : MioTimer) (now : Nat) : Option Bool :=
  match timer.startInstant with
  | none => some false
  | some startInstant =>
    let elapsed := now - startInstant
    if timer.duration ≤ elapsed then some true
    else timer.tickDuration.map fun tickDuration => timer.duration - elapsed < tickDuration

end MioTimer

/-- Where a sleep is in its `poll`. A name says what the next step does. -/
inductive SleepState where
  | created
  | start (waker : Waker)
  | newTimer (waker : Waker)
  | inNewTimer (waker : Waker)
  | isExpired (waker : Waker)
  | addWaker (waker : Waker)
  /-- The latest `poll` has returned `Pending`. -/
  | pending (waker : Waker)
  | ready
  | panicked
  deriving DecidableEq, Repr

/-- `fd` is the timer behind the handle. -/
structure Sleep where
  expired : Nat
  fd : Option MioTimer := none
  state : SleepState := .created
  deriving DecidableEq, Repr

structure Sleeps where
  poller : MioPoller := {}
  sleeps : Token → Option Sleep := fun _ => none
  polls : Nat → PollOnce := fun _ => .idle

inductive SleepsAction where
  | wait (nanos : Nat)
  /-- `Sleep::new_with`. -/
  | new (i : Token) (expired : Nat)
  | poll (i : Token) (waker : Waker)
  | sleep (i : Token) (spurious : Bool)
  | pollOnce (j : Nat) (events : List (Token × Bool × Bool))
  | poller (j : Nat)
  deriving DecidableEq, Repr

namespace Sleeps

def setSleep (s : Sleeps) (i : Token) (sleep : Sleep) : Sleeps :=
  { s with sleeps := Function.update s.sleeps i (some sleep) }

def setPoll (s : Sleeps) (j : Nat) (poll : PollOnce) : Sleeps := { s with polls := Function.update s.polls j poll }

def setWheel (s : Sleeps) (wheel : TimeWheel.State) : Sleeps := { s with poller := { s.poller with wheel } }

/-- The beginning of `poll`: a sleep without a handle opens it, and `timeout_open` takes no zero. -/
def poll (sleep : Sleep) (waker : Waker) : Option Sleep :=
  match sleep.state, sleep.fd with
  | .created, none =>
    if sleep.expired = 0 then some { sleep with state := .panicked }
    else some { sleep with fd := some { duration := sleep.expired }, state := .start waker }
  | .pending _, some _ | .ready, some _ => some { sleep with state := .isExpired waker }
  | _, _ => none

/-- The next step of a `poll`. -/
def sleepStep (tickDuration : Nat) (s : Sleeps) (i : Token) (spurious : Bool) (sleep : Sleep) (timer : MioTimer) :
    Option Sleeps :=
  match sleep.state with
  | .created | .pending _ | .ready | .panicked => none
  | .start waker =>
    some (s.setSleep i { sleep with fd := some (timer.start s.poller.wheel.clock tickDuration), state := .newTimer waker })
  | .newTimer waker =>
    (TimeWheel.step (tickDuration / 1000) s.poller.wheel (.newTimer i timer.duration)).map fun wheel =>
      (s.setWheel wheel).setSleep i { sleep with state := .inNewTimer waker }
  | .inNewTimer waker =>
    match s.poller.wheel.adds i with
    -- What `start` returns is only written to the log.
    | .done ticks =>
      some (s.setSleep i { sleep with fd := some { timer with timewheelTicks := ticks }, state := .isExpired waker })
    | .panicked => some (s.setSleep i { sleep with state := .panicked })
    | _ => (TimeWheel.addStep s.poller.wheel i spurious).map s.setWheel
  | .isExpired waker =>
    match timer.isExpired s.poller.wheel.clock with
    | none => some (s.setSleep i { sleep with state := .panicked })
    | some true => some (s.setSleep i { sleep with state := .ready })
    | some false => some (s.setSleep i { sleep with state := .addWaker waker })
  | .addWaker waker =>
    some ({ s with poller := s.poller.addWaker i .onlyReadable waker }.setSleep i { sleep with state := .pending waker })

def step (tickDuration : Nat) (s : Sleeps) : SleepsAction → Option Sleeps
  | .wait nanos => some (s.setWheel { s.poller.wheel with clock := s.poller.wheel.clock + nanos })
  | .new i expired => if s.sleeps i = none then some (s.setSleep i { expired }) else none
  | .poll i waker => do
    let sleep ← s.sleeps i
    let sleep ← poll sleep waker
    return s.setSleep i sleep
  | .sleep i spurious => do
    let sleep ← s.sleeps i
    let timer ← sleep.fd
    sleepStep tickDuration s i spurious sleep timer
  | .pollOnce j events =>
    if s.polls j = .idle then
      let (poller, poll) := s.poller.pollOnce j events
      some ({ s with poller }.setPoll j poll)
    else none
  | .poller j =>
    (s.poller.pollOnceStep tickDuration j (s.polls j)).map fun (poller, poll) => { s with poller }.setPoll j poll

/-- The latest completed `poll` of the sleep has returned `Pending`, and was made with the waker. -/
def Pending (s : Sleeps) (i : Token) (waker : Waker) : Prop := ∃ sleep, s.sleeps i = some sleep ∧ sleep.state = .pending waker

/-- Call `j` of `poll_once` is in `next_tick`, or is going to look for the waker of the timer. -/
def Unseen (s : Sleeps) (j : Nat) (i : Token) : Prop := (∃ events, s.polls j = .tick events) ∨ i ∈ (s.polls j).unread

/-- A call of `poll_once` has drained the timer from the wheel, and looked for its waker. -/
def Looked (s : Sleeps) (i : Token) : Prop := ∃ j, TimeWheel.ReturnedBy s.poller.wheel j i ∧ ¬s.Unseen j i

/-- The waker has been woken for the timer, or is about to be. -/
def Rung (s : Sleeps) (i : Token) (waker : Waker) : Prop :=
  (i, waker) ∈ s.poller.woken ∨ ∃ j, (s.polls j).waking? = some (i, waker)

/-- The timer has been drained from the wheel, and no call of `poll_once` has still to do with its event. -/
def Processed (s : Sleeps) (i : Token) : Prop :=
  s.Looked i ∧ ∀ j, (TimeWheel.ReturnedBy s.poller.wheel j i → ¬s.Unseen j i) ∧ ∀ waker, (s.polls j).waking? ≠ some (i, waker)

/-- A `poll` that stores its waker does so before a `poll_once` looks for it in vain. -/
def InTime (s : Sleeps) : SleepsAction → Prop
  | .sleep i _ => ∀ sleep waker, s.sleeps i = some sleep → sleep.state = .addWaker waker → s.Looked i → s.Rung i waker
  | _ => True

/-- The tick number that `new_timer` is about to compute fits in 64 bits. -/
def tickFits (tickDuration : Nat) (s : Sleeps) : SleepsAction → Bool
  | .sleep i _ =>
    match s.sleeps i with
    | some { fd := some timer, state := .newTimer _, .. } =>
      (s.poller.wheel.clock + timer.duration) / 1000 / (tickDuration / 1000) < 2 ^ 64
    | _ => true
  | _ => true

end Sleeps

end Hala.Io
