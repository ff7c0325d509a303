import Hala.Lockfree.TimeWheel

/-! `MioPoller` (`crates/io/src/mio/poller.rs`): the wakers of the handles, and `poll_once`.

Any number of calls of `poll_once` run beside each other, and call `j` makes call `j` of `next_tick`. What mio itself
reports is given with the call. Durations are in nanoseconds. -/

namespace Hala.Io
open Machine

/-- The token of a handle. A timer has the number of its `new_timer` as its token. -/
abbrev Token := Nat

/-- What names a task for those that wake it. -/
abbrev Waker := Nat

/-- The flags of `Interest`. -/
structure Interest where
  readable : Bool
  writable : Bool
  deriving DecidableEq, Repr

namespace Interest

/-- `Interest::Readable`. -/
def onlyReadable : Interest := { readable := true, writable := false }

/-- `Interest::Writable`. -/
def onlyWritable : Interest := { readable := false, writable := true }

def all : Interest := { readable := true, writable := true }

/-- The interests that `poll_once` gives to an event of mio. One that is neither readable nor writable counts as
    writable. -/
def ofEvent (is_readable is_writable : Bool) : Interest :=
  if is_readable then { readable := true, writable := is_writable } else { readable := false, writable := true }

end Interest

/-- `Description`; `external` is one of the implementation. -/
inductive Description where
  | file
  | tcpListener
  | tcpStream
  | udpSocket
  | timeout
  | poller
  | external (desc : Nat)
  deriving DecidableEq, Repr

structure Handle where
  token : Token
  desc : Description
  deriving DecidableEq, Repr

structure MioPoller where
  readWakers : Token → Option Waker := fun _ => none
  writeWakers : Token → Option Waker := fun _ => none
  wheel : TimeWheel.State := {}
  /-- The wakers that have been woken, each with the token of the event, the latest first. -/
  woken : List (Token × Waker) := []

/-- A call of `poll_once`. A name says what the next step does; `events` are `hala_events` from the one on that the
    loop is at. -/
inductive PollOnce where
  | idle
  | tick (events : List (Token × Interest))
  | read (events : List (Token × Interest))
  | wakeRead (event : Token × Interest) (waker : Waker) (events : List (Token × Interest))
  | write (event : Token × Interest) (events : List (Token × Interest))
  | wakeWrite (event : Token × Interest) (waker : Waker) (events : List (Token × Interest))
  | done
  | panicked
  deriving DecidableEq, Repr

namespace PollOnce

/-- The tokens whose read waker the call has still to look for, as far as it knows them. -/
def unread : PollOnce → List Token
  | .tick events | .read events | .wakeRead _ _ events | .write _ events | .wakeWrite _ _ events =>
    (events.filter (·.2.readable)).map Prod.fst
  | .idle | .done | .panicked => []

/-- The read waker that the call has removed and not woken. -/
def waking? : PollOnce → Option (Token × Waker)
  | .wakeRead event waker _ => some (event.1, waker)
  | _ => none

end PollOnce

/-- What `deregister` comes to: `error` is one of mio, `invalidInput` has the text
    `[MioDriver] invalid register source: {:?}` of the handle, and `panicked` is a `todo!`. -/
inductive Deregister (ε : Type) where
  | ok
  | error (e : ε)
  | invalidInput (source : Handle)
  | panicked
  deriving DecidableEq, Repr

namespace MioPoller

def addWaker (m : MioPoller) (token : Token) (interests : Interest) (waker : Waker) : MioPoller :=
  if interests.readable then { m with readWakers := Function.update m.readWakers token (some waker) }
  else if interests.writable then { m with writeWakers := Function.update m.writeWakers token (some waker) }
  else m

def removeWaker (m : MioPoller) (token : Token) (interests : Interest) : Option Waker × MioPoller :=
  if interests.readable then (m.readWakers token, { m with readWakers := Function.update m.readWakers token none })
  else if interests.writable then (m.writeWakers token, { m with writeWakers := Function.update m.writeWakers token none })
  else (none, m)

/-- The end of `deregister`: the waker that `remove_waker(token, Interest::all())` has found is woken. -/
def wakeRemoved (m : MioPoller) (token : Token) : MioPoller :=
  match m.removeWaker token .all with
  | (none, m) => m
  | (some waker, m) => { m with woken := (token, waker) :: m.woken }

/-- `deregister`; `registry` is what the registry of mio returns. -/
def deregister {ε : Type} (m : MioPoller) (handle : Handle) (registry : Except ε Unit) : Deregister ε × MioPoller :=
  match handle.desc with
  | .file => (.panicked, m)
  | .tcpListener | .tcpStream | .udpSocket =>
    match registry with
    | .error e => (.error e, m)
    | .ok () => (.ok, m.wakeRemoved handle.token)
  | .timeout => (.ok, m.wakeRemoved handle.token)
  | .poller | .external _ => (.invalidInput handle, m)

/-- `poll_once` is called, and mio has reported the events: their tokens, and what `is_readable` and `is_writable` say. -/
def pollOnce (m : MioPoller) (j : Nat) (events : List (Token × Bool × Bool)) : MioPoller × PollOnce :=
  ({ m with wheel := m.wheel.setPop j .load }, .tick (events.map fun event => (event.1, .ofEvent event.2.1 event.2.2)))

/-- The next step of `poll_once`. -/
def pollOnceStep (tickDuration : Nat) (m : MioPoller) (j : Nat) : PollOnce → Option (MioPoller × PollOnce)
  | .idle | .done | .panicked => none
  | .tick events =>
    match m.wheel.pops j with
    | .done none => some (m, .read events)
    | .done (some timers) => some (m, .read (events ++ timers.map fun token => (token, .onlyReadable)))
    | .panicked => some (m, .panicked)
    | _ => (TimeWheel.popStep (tickDuration / 1000) m.wheel j).map fun wheel => ({ m with wheel }, .tick events)
  | .read [] => some (m, .done)
  | .read (event :: events) =>
    if event.2.readable then
      match m.readWakers event.1 with
      | none => some (m, .write event events)
      | some waker =>
        some ({ m with readWakers := Function.update m.readWakers event.1 none }, .wakeRead event waker events)
    else some (m, .write event events)
  | .wakeRead event waker events => some ({ m with woken := (event.1, waker) :: m.woken }, .write event events)
  | .write event events =>
    if event.2.writable then
      match m.writeWakers event.1 with
      | none => some (m, .read events)
      | some waker =>
        some ({ m with writeWakers := Function.update m.writeWakers event.1 none }, .wakeWrite event waker events)
    else some (m, .read events)
  | .wakeWrite event waker events => some ({ m with woken := (event.1, waker) :: m.woken }, .read events)

end MioPoller

end Hala.Io
