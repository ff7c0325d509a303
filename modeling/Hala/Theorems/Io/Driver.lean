import Hala.Io.Driver
import Hala.Lib.EdgeTriggered
import Hala.Theorems.Io.Poller
import Hala.Theorems.Lockfree.WheelCalls

/-! No readiness is lost between `nonblocking_call` and `poll_once`.

Each direction of a handle is a source with an edge-triggered event, and a step of the driver is one step of each of
them. What has been proved of such a source holds of the driver. -/

namespace Hala.Io
open Machine

def NonblockingCall.phase : NonblockingCall → EdgeTriggered.Phase Waker
  | .attempt waker => .trying waker
  | .returned waker .wouldBlock => .blocked waker
  | _ => .idle

namespace Driver
variable {s s' : Driver} {token token' : Token} {direction direction' : Direction} {j : Nat} {serial : Prop}

/-- What a direction of a handle has to do with. -/
def view (s : Driver) (token : Token) (direction : Direction) : EdgeTriggered.State Waker Nat where
  ready := s.ready token direction
  queued := s.queued token direction
  phase := (s.calls token direction).phase
  stored := s.poller.wakers direction token
  holds j := (s.polls j).holds token direction
  waking j := (s.polls j).waking token direction
  latest j := s.taken j token direction
  woken := {waker | (token, waker) ∈ s.poller.woken}

/-! ### The tasks and the sockets -/

theorem setAt_self {α : Type} {table : Token → Direction → α} {a : α} : setAt table token direction a token direction = a :=
  if_pos ⟨rfl, rfl⟩

theorem setAt_of_ne {α : Type} {table : Token → Direction → α} {a : α} (h : ¬(token' = token ∧ direction' = direction)) :
    setAt table token direction a token' direction' = table token' direction' :=
  if_neg h

section Wakers
variable (m : MioPoller)

theorem wakers_addWaker (waker : Waker) :
    (m.addWaker token direction.interest waker).wakers direction' token' =
      if token' = token ∧ direction' = direction then some waker else m.wakers direction' token' := by
  cases direction <;> cases direction' <;>
    simp [MioPoller.addWaker, MioPoller.wakers, Direction.interest, Interest.onlyReadable, Interest.onlyWritable,
      Function.update_apply]

theorem woken_addWaker (waker : Waker) : (m.addWaker token direction.interest waker).woken = m.woken := by
  cases direction <;> rfl

theorem wakers_removeWaker :
    (m.removeWaker token direction.interest).2.wakers direction' token' =
      if token' = token ∧ direction' = direction then none else m.wakers direction' token' := by
  cases direction <;> cases direction' <;>
    simp [MioPoller.removeWaker, MioPoller.wakers, Direction.interest, Interest.onlyReadable, Interest.onlyWritable,
      Function.update_apply]

theorem woken_removeWaker : (m.removeWaker token direction.interest).2.woken = m.woken := by
  cases direction <;> rfl

end Wakers

theorem view_setCall_self (call : NonblockingCall) :
    (s.setCall token direction call).view token direction = { s.view token direction with phase := call.phase } := by
  simp only [view, setCall, setAt_self]

theorem view_setCall_of_ne {call : NonblockingCall} (h : ¬(token' = token ∧ direction' = direction)) :
    (s.setCall token direction call).view token' direction' = s.view token' direction' := by
  simp only [view, setCall, setAt_of_ne h]

/-- What a step of a task can do. -/
theorem taskStep_cases {attempt : Attempt} {call : NonblockingCall} (h : s.taskStep token direction attempt call = some s') :
    (∃ waker, call = .addWaker waker ∧
      s' = { s with poller := s.poller.addWaker token direction.interest waker }.setCall token direction (.attempt waker)) ∨
    s' = s ∨
    (∃ waker, call = .attempt waker ∧ s.ready token direction = false ∧
      s' = s.setCall token direction (.returned waker .wouldBlock)) ∨
    (∃ waker, call = .attempt waker ∧ s' = s.setCall token direction (.returned waker .error)) ∨
    (∃ waker ready, call = .attempt waker ∧ s.ready token direction = true ∧
      s' = { s with ready := setAt s.ready token direction ready }.setCall token direction (.removeWaker waker)) ∨
    ∃ waker, call = .removeWaker waker ∧
      s' = { s with poller := (s.poller.removeWaker token direction.interest).2 }.setCall token direction
        (.returned waker .ok) := by
  cases call with
  | idle => cases h
  | returned => cases h
  | addWaker waker =>
    cases h
    exact .inl ⟨waker, rfl, rfl⟩
  | removeWaker waker =>
    cases h
    exact .inr (.inr (.inr (.inr (.inr ⟨waker, rfl, rfl⟩))))
  | attempt waker =>
    cases attempt with
    | interrupted =>
      cases h
      exact .inr (.inl rfl)
    | wouldBlock =>
      rw [taskStep, Option.ite_none_left_eq_some] at h
      cases h.2
      exact .inr (.inr (.inl ⟨waker, rfl, Bool.eq_false_iff.mpr h.1, rfl⟩))
    | error =>
      cases h
      exact .inr (.inr (.inr (.inl ⟨waker, rfl, rfl⟩)))
    | ok ready =>
      rw [taskStep, Option.ite_none_right_eq_some] at h
      cases h.2
      exact .inr (.inr (.inr (.inr (.inl ⟨waker, ready, rfl, h.1, rfl⟩))))

/-- A step of another task. -/
theorem view_taskStep_of_ne {attempt : Attempt} {call : NonblockingCall}
    (hne : ¬(token' = token ∧ direction' = direction)) (h : s.taskStep token direction attempt call = some s') :
    s'.view token' direction' = s.view token' direction' := by
  obtain ⟨waker, -, rfl⟩ | rfl | ⟨waker, -, -, rfl⟩ | ⟨waker, -, rfl⟩ | ⟨waker, ready, -, -, rfl⟩ | ⟨waker, -, rfl⟩ :=
    taskStep_cases h
  · rw [view_setCall_of_ne hne]
    simp only [view, wakers_addWaker, woken_addWaker, if_neg hne]
  · rfl
  · exact view_setCall_of_ne hne
  · exact view_setCall_of_ne hne
  · rw [view_setCall_of_ne hne]
    simp only [view, setAt_of_ne hne]
  · rw [view_setCall_of_ne hne]
    simp only [view, wakers_removeWaker, woken_removeWaker, if_neg hne]

/-- A step of the task itself. -/
theorem step_taskStep_self {attempt : Attempt} (h : s.taskStep token direction attempt (s.calls token direction) = some s') :
    EdgeTriggered.Step serial (s.view token direction) (s'.view token direction) := by
  obtain ⟨waker, hcall, rfl⟩ | rfl | ⟨waker, hcall, hready, rfl⟩ | ⟨waker, hcall, rfl⟩ | ⟨waker, ready, hcall, hready, rfl⟩ |
    ⟨waker, hcall, rfl⟩ := taskStep_cases h
  · have hidle : (s.view token direction).phase = .idle := congrArg NonblockingCall.phase hcall
    have heq : ({ s with poller := s.poller.addWaker token direction.interest waker }.setCall token direction
        (.attempt waker)).view token direction = { s.view token direction with phase := .trying waker, stored := some waker } := by
      rw [view_setCall_self]
      simp only [view, wakers_addWaker, woken_addWaker, and_self, if_true, NonblockingCall.phase]
    rw [heq]
    exact .store waker hidle
  · exact .skip
  · have htrying : (s.view token direction).phase = .trying waker := congrArg NonblockingCall.phase hcall
    rw [view_setCall_self]
    exact .block htrying hready
  · rw [view_setCall_self]
    exact .leave _ id
  · have heq : ({ s with ready := setAt s.ready token direction ready }.setCall token direction
        (.removeWaker waker)).view token direction = { s.view token direction with phase := .idle, ready } := by
      rw [view_setCall_self]
      simp only [view, setAt_self, NonblockingCall.phase]
    rw [heq]
    exact .leave ready fun _ => hready
  · have hidle : (s.view token direction).phase = .idle := congrArg NonblockingCall.phase hcall
    have heq : ({ s with poller := (s.poller.removeWaker token direction.interest).2 }.setCall token direction
        (.returned waker .ok)).view token direction = { s.view token direction with stored := none } := by
      rw [view_setCall_self]
      simp only [view, wakers_removeWaker, woken_removeWaker, and_self, if_true, NonblockingCall.phase, hcall]
    rw [heq]
    exact .forget hidle

theorem step_taskStep {attempt : Attempt} (h : s.taskStep token direction attempt (s.calls token direction) = some s') :
    EdgeTriggered.Step serial (s.view token' direction') (s'.view token' direction') := by
  by_cases hat : token' = token ∧ direction' = direction
  · obtain ⟨rfl, rfl⟩ := hat
    exact step_taskStep_self h
  · rw [view_taskStep_of_ne hat h]
    exact .skip

theorem step_becomeReady (h : s.becomeReady token direction = some s') :
    EdgeTriggered.Step serial (s.view token' direction') (s'.view token' direction') := by
  rw [becomeReady, Option.ite_none_left_eq_some] at h
  obtain ⟨hready, heq⟩ := h
  cases heq
  by_cases hat : token' = token ∧ direction' = direction
  · obtain ⟨rfl, rfl⟩ := hat
    simp only [view, setAt_self]
    exact .rise (Bool.eq_false_iff.mpr hready)
  · simp only [view, setAt_of_ne hat]
    exact .skip

theorem step_becomeUnready :
    EdgeTriggered.Step serial (s.view token' direction')
      ({ s with ready := setAt s.ready token direction false }.view token' direction') := by
  by_cases hat : token' = token ∧ direction' = direction
  · obtain ⟨rfl, rfl⟩ := hat
    simp only [view, setAt_self]
    exact .fall
  · simp only [view, setAt_of_ne hat]
    exact .skip

/-! ### `poll_once` -/

theorem view_setPoll (m : MioPoller) (poll : PollOnce) :
    ({ s with poller := m }.setPoll j poll).view token direction =
      { s.view token direction with
        stored := m.wakers direction token
        holds := Function.update (s.view token direction).holds j (poll.holds token direction)
        waking := Function.update (s.view token direction).waking j (poll.waking token direction)
        woken := {waker | (token, waker) ∈ m.woken} } := by
  have hholds : (fun k => (Function.update s.polls j poll k).holds token direction) =
      Function.update (fun k => (s.polls k).holds token direction) j (poll.holds token direction) :=
    funext fun k => Function.apply_update (fun _ p => p.holds token direction) s.polls j poll k
  have hwaking : (fun k => (Function.update s.polls j poll k).waking token direction) =
      Function.update (fun k => (s.polls k).waking token direction) j (poll.waking token direction) :=
    funext fun k => Function.apply_update (fun _ p => p.waking token direction) s.polls j poll k
  simp only [view, setPoll, hholds, hwaking]

section Poller
variable {m : MioPoller} {poll : PollOnce} {waker : Waker}

/-- A step of `poll_once` that has nothing to do with the direction. -/
theorem step_poll_skip (hstored : m.wakers direction token = s.poller.wakers direction token)
    (hwoken : ∀ waker, (token, waker) ∈ m.woken ↔ (token, waker) ∈ s.poller.woken)
    (hholds : poll.holds token direction = (s.polls j).holds token direction)
    (hwaking : poll.waking token direction = (s.polls j).waking token direction) :
    EdgeTriggered.Step serial (s.view token direction) (({ s with poller := m }.setPoll j poll).view token direction) := by
  have heq : ({ s with poller := m }.setPoll j poll).view token direction = s.view token direction := by
    rw [view_setPoll, hstored, hholds, hwaking]
    simp only [view, hwoken, Function.update_eq_self]
  rw [heq]
  exact .skip

/-- An event of the direction has been added. -/
theorem step_poll_find (hstored : m.wakers direction token = s.poller.wakers direction token)
    (hwoken : m.woken = s.poller.woken) (hholds : poll.holds token direction = true)
    (hwaking : poll.waking token direction = (s.polls j).waking token direction) :
    EdgeTriggered.Step serial (s.view token direction) (({ s with poller := m }.setPoll j poll).view token direction) := by
  have heq : ({ s with poller := m }.setPoll j poll).view token direction =
      { s.view token direction with holds := Function.update (s.view token direction).holds j true } := by
    rw [view_setPoll, hstored, hholds, hwaking, hwoken]
    simp only [view, Function.update_eq_self]
  rw [heq]
  exact .find j

/-- The waker is looked for. -/
theorem step_poll_look (hserial : serial → ∀ k, (s.polls k).waking token direction = none)
    (hnone : (s.polls j).waking token direction = none) (hstored : m.wakers direction token = none)
    (hwoken : m.woken = s.poller.woken) (hwaking : poll.waking token direction = s.poller.wakers direction token) :
    EdgeTriggered.Step serial (s.view token direction) (({ s with poller := m }.setPoll j poll).view token direction) := by
  rw [view_setPoll, hstored, hwaking, hwoken]
  exact .look j _ hnone hserial

/-- The waker that was found is woken. -/
theorem step_poll_wake (hfound : (s.polls j).waking token direction = some waker)
    (hstored : m.wakers direction token = s.poller.wakers direction token)
    (hwoken : m.woken = (token, waker) :: s.poller.woken)
    (hholds : poll.holds token direction = (s.polls j).holds token direction)
    (hnone : poll.waking token direction = none) :
    EdgeTriggered.Step serial (s.view token direction) (({ s with poller := m }.setPoll j poll).view token direction) := by
  have heq : ({ s with poller := m }.setPoll j poll).view token direction =
      { s.view token direction with
        waking := Function.update (s.view token direction).waking j none
        woken := insert waker (s.view token direction).woken } := by
    rw [view_setPoll, hstored, hholds, hnone, hwoken]
    simp only [view, Function.update_eq_self, List.mem_cons, Prod.mk.injEq, true_and]
    rfl
  rw [heq]
  exact .wake j hfound

/-- The waker of the other direction is woken. -/
theorem step_poll_woke (hstored : m.wakers direction token = s.poller.wakers direction token)
    (hwoken : m.woken = (token, waker) :: s.poller.woken)
    (hholds : poll.holds token direction = (s.polls j).holds token direction)
    (hwaking : poll.waking token direction = (s.polls j).waking token direction) :
    EdgeTriggered.Step serial (s.view token direction) (({ s with poller := m }.setPoll j poll).view token direction) := by
  have heq : ({ s with poller := m }.setPoll j poll).view token direction =
      { s.view token direction with woken := insert waker (s.view token direction).woken } := by
    rw [view_setPoll, hstored, hholds, hwaking, hwoken]
    simp only [view, Function.update_eq_self, List.mem_cons, Prod.mk.injEq, true_and]
    rfl
  rw [heq]
  exact .woke waker

theorem holds_of_reports {events : List (Token × Bool × Bool)} (h : reports events token direction = true) :
    (PollOnce.tick (events.map fun event => (event.1, Interest.ofEvent event.2.1 event.2.2))).holds token direction = true := by
  cases direction with
  | read =>
    obtain ⟨event, hmem, hevent⟩ := List.any_eq_true.mp h
    obtain ⟨htoken, hreadable⟩ := Bool.and_eq_true_iff.mp hevent
    have hkept : (Interest.ofEvent event.2.1 event.2.2).readable = true := by simp [Interest.ofEvent, hreadable]
    refine decide_eq_true (List.mem_map.mpr ⟨_, List.mem_filter.mpr ⟨List.mem_map_of_mem hmem, hkept⟩, ?_⟩)
    exact beq_iff_eq.mp htoken
  | write =>
    obtain ⟨event, hmem, hevent⟩ := List.any_eq_true.mp h
    obtain ⟨htoken, hwritable⟩ := Bool.and_eq_true_iff.mp hevent
    have hkept : (Interest.ofEvent event.2.1 event.2.2).writable = true := by
      cases hreadable : event.2.1 <;> simp [Interest.ofEvent, hwritable]
    refine decide_eq_true (List.mem_map.mpr ⟨_, List.mem_filter.mpr ⟨List.mem_map_of_mem hmem, hkept⟩, ?_⟩)
    exact beq_iff_eq.mp htoken

theorem step_pollOnce (hidle : s.polls j = .idle) (events : List (Token × Bool × Bool)) :
    EdgeTriggered.Step serial (s.view token direction) ((s.pollOnce j events).view token direction) := by
  have hholds : (s.view token direction).holds j = false := by
    cases direction <;> simp [view, hidle, PollOnce.holds, PollOnce.hasPanicked, PollOnce.unread, PollOnce.unwritten]
  have hwaking : (s.view token direction).waking j = none := by
    cases direction <;> simp [view, hidle, PollOnce.waking]
  have heq : (s.pollOnce j events).view token direction =
      { s.view token direction with
        queued := (s.view token direction).queued && !reports events token direction
        holds := Function.update (s.view token direction).holds j ((s.poller.pollOnce j events).2.holds token direction)
        latest := Function.update (s.view token direction).latest j
          ((s.view token direction).queued && reports events token direction) } := by
    have hlatest : (fun k => Function.update s.taken j
          (fun token direction => s.queued token direction && reports events token direction) k token direction) =
        Function.update (fun k => s.taken k token direction) j
          (s.queued token direction && reports events token direction) :=
      funext fun k => Function.apply_update (fun _ table => table token direction) s.taken j _ k
    have hpoll : (s.poller.pollOnce j events).2.waking token direction = (s.polls j).waking token direction := by
      rw [hidle]
      cases direction <;> rfl
    have hdriver : s.pollOnce j events =
        { { s with
            queued := fun token direction => s.queued token direction && !reports events token direction
            taken := Function.update s.taken j fun token direction =>
              s.queued token direction && reports events token direction } with
          poller := (s.poller.pollOnce j events).1 }.setPoll j (s.poller.pollOnce j events).2 := rfl
    rw [hdriver, view_setPoll, hpoll]
    simp only [view, hlatest, Function.update_eq_self]
    rfl
  rw [heq]
  exact .take j _ _ hholds hwaking holds_of_reports

/-- `next_tick` has returned timers, whose events are added to the others. -/
theorem holds_append {events timers : List (Token × Interest)}
    (h : (PollOnce.read (events ++ timers)).holds token direction = false) :
    (PollOnce.tick events).holds token direction = false := by
  cases direction with
  | read =>
    simp only [PollOnce.holds, PollOnce.hasPanicked, PollOnce.unread, List.filter_append, List.map_append, Bool.false_or,
      decide_eq_false_iff_not, List.mem_append] at h ⊢
    exact decide_eq_false fun hmem => h (.inl hmem)
  | write =>
    simp only [PollOnce.holds, PollOnce.hasPanicked, PollOnce.unwritten, List.filter_append, List.map_append, Bool.false_or,
      decide_eq_false_iff_not, List.mem_append] at h ⊢
    exact decide_eq_false fun hmem => h (.inl hmem)

theorem step_tick {tickDuration : Nat} {events : List (Token × Interest)} (hpoll : s.polls j = .tick events)
    (h : s.poller.pollOnceStep tickDuration j (.tick events) = some (m, poll)) :
    EdgeTriggered.Step serial (s.view token direction) (({ s with poller := m }.setPoll j poll).view token direction) := by
  have hwaking : (s.polls j).waking token direction = none := by
    rw [hpoll]
    cases direction <;> rfl
  rw [MioPoller.pollOnceStep] at h
  split at h
  · cases h
    refine step_poll_skip rfl (fun _ => Iff.rfl) ?_ ?_
    · rw [hpoll]
      cases direction <;> rfl
    · rw [hwaking]
      cases direction <;> rfl
  · next timers _ =>
    cases h
    have hnone : (PollOnce.read (events ++ timers.map fun token => (token, Interest.onlyReadable))).waking token direction =
        (s.polls j).waking token direction := by
      rw [hwaking]
      cases direction <;> rfl
    cases hnew : (PollOnce.read (events ++ timers.map fun token => (token, Interest.onlyReadable))).holds token direction with
    | true => exact step_poll_find rfl rfl hnew hnone
    | false =>
      refine step_poll_skip rfl (fun _ => Iff.rfl) ?_ hnone
      rw [hnew, hpoll, holds_append hnew]
  · cases h
    refine step_poll_find rfl rfl ?_ ?_
    · cases direction <;> rfl
    · rw [hwaking]
      cases direction <;> rfl
  · obtain ⟨wheel, _, heq⟩ := Option.map_eq_some_iff.mp h
    cases heq
    refine step_poll_skip ?_ (fun _ => Iff.rfl) ?_ ?_
    · cases direction <;> rfl
    · rw [hpoll]
    · rw [hpoll]

/-- A call looks for the waker of one direction of a token, `side` of `target`. -/
theorem step_poll_lookFor (target : Token) (side : Direction)
    (hserial : serial → ∀ k, k ≠ j → (s.polls k).waking token direction = none)
    (hidle : (s.polls j).waking token direction = none) (hwoken : m.woken = s.poller.woken)
    (hself : m.wakers side target = none ∧ poll.waking target side = s.poller.wakers side target)
    (hother : ¬(token = target ∧ direction = side) → m.wakers direction token = s.poller.wakers direction token ∧
      poll.holds token direction = (s.polls j).holds token direction ∧ poll.waking token direction = none) :
    EdgeTriggered.Step serial (s.view token direction) (({ s with poller := m }.setPoll j poll).view token direction) := by
  by_cases hat : token = target ∧ direction = side
  · obtain ⟨rfl, rfl⟩ := hat
    refine step_poll_look (fun hs k => ?_) hidle hself.1 hwoken hself.2
    rcases eq_or_ne k j with rfl | hne
    · exact hidle
    · exact hserial hs k hne
  · obtain ⟨hstored, hholds, hwaking⟩ := hother hat
    refine step_poll_skip hstored (fun _ => ?_) hholds (hwaking.trans hidle.symm)
    rw [hwoken]

/-- A call wakes the waker that it has found for `side` of `target`. -/
theorem step_poll_wakeFor (target : Token) (side : Direction) (hfound : (s.polls j).waking target side = some waker)
    (hidle : ¬(token = target ∧ direction = side) → (s.polls j).waking token direction = none)
    (hwoken : m.woken = (target, waker) :: s.poller.woken)
    (hstored : m.wakers direction token = s.poller.wakers direction token)
    (hholds : poll.holds token direction = (s.polls j).holds token direction)
    (hwaking : poll.waking token direction = none) :
    EdgeTriggered.Step serial (s.view token direction) (({ s with poller := m }.setPoll j poll).view token direction) := by
  by_cases hat : token = target ∧ direction = side
  · obtain ⟨rfl, rfl⟩ := hat
    exact step_poll_wake hfound hstored hwoken hholds hwaking
  · have hsame := hwaking.trans (hidle hat).symm
    rcases eq_or_ne token target with rfl | hne
    · exact step_poll_woke hstored hwoken hholds hsame
    · refine step_poll_skip hstored (fun waker' => ?_) hholds hsame
      rw [hwoken, List.mem_cons]
      exact or_iff_right fun heq => hne (congrArg Prod.fst heq)

theorem holds_read_of_ne {event : Token × Interest} {events : List (Token × Interest)}
    (h : ¬(token = event.1 ∧ direction = .read) ∨ event.2.readable = false) :
    (PollOnce.write event events).holds token direction = (PollOnce.read (event :: events)).holds token direction := by
  cases direction with
  | write => rfl
  | read =>
    refine decide_eq_decide.mpr ?_
    rcases h with hne | hreadable
    · have hne' : token ≠ event.1 := fun heq => hne ⟨heq, rfl⟩
      cases hreadable : event.2.readable <;> simp [PollOnce.unread, hreadable, hne']
    · simp [PollOnce.unread, hreadable]

theorem holds_write_of_ne {event : Token × Interest} {events : List (Token × Interest)}
    (h : ¬(token = event.1 ∧ direction = .write) ∨ event.2.writable = false) :
    (PollOnce.read events).holds token direction = (PollOnce.write event events).holds token direction := by
  cases direction with
  | read => rfl
  | write =>
    refine decide_eq_decide.mpr ?_
    rcases h with hne | hwritable
    · have hne' : token ≠ event.1 := fun heq => hne ⟨heq, rfl⟩
      cases hwritable : event.2.writable <;> simp [PollOnce.unwritten, hwritable, hne']
    · simp [PollOnce.unwritten, hwritable]

theorem step_read {tickDuration : Nat} {events : List (Token × Interest)}
    (hserial : serial → ∀ k, k ≠ j → (s.polls k).waking token direction = none) (hpoll : s.polls j = .read events)
    (h : s.poller.pollOnceStep tickDuration j (.read events) = some (m, poll)) :
    EdgeTriggered.Step serial (s.view token direction) (({ s with poller := m }.setPoll j poll).view token direction) := by
  have hidle : (s.polls j).waking token direction = none := by
    rw [hpoll]
    cases direction <;> rfl
  cases events with
  | nil =>
    cases h
    refine step_poll_skip rfl (fun _ => Iff.rfl) ?_ ?_
    · rw [hpoll]
      cases direction <;> rfl
    · rw [hidle]
      cases direction <;> rfl
  | cons event events =>
    rw [MioPoller.pollOnceStep] at h
    split at h
    · cases hwaker : s.poller.readWakers event.1 with
      | none =>
        rw [hwaker] at h
        cases h
        refine step_poll_lookFor event.1 .read hserial hidle rfl ⟨hwaker, hwaker.symm⟩ fun hat => ⟨rfl, ?_, ?_⟩
        · rw [hpoll]
          exact holds_read_of_ne (.inl hat)
        · cases direction <;> rfl
      | some waker =>
        rw [hwaker] at h
        cases h
        refine step_poll_lookFor event.1 .read hserial hidle rfl ⟨Function.update_self _ _ _, ?_⟩ fun hat => ⟨?_, ?_, ?_⟩
        · exact (if_pos rfl).trans hwaker.symm
        · cases direction with
          | read => exact Function.update_of_ne (fun heq => hat ⟨heq, rfl⟩) _ _
          | write => rfl
        · rw [hpoll, ← holds_read_of_ne (.inl hat)]
          cases direction <;> rfl
        · cases direction with
          | read => exact if_neg fun heq => hat ⟨heq.symm, rfl⟩
          | write => rfl
    · next hreadable =>
      cases h
      refine step_poll_skip rfl (fun _ => Iff.rfl) ?_ ?_
      · rw [hpoll]
        exact holds_read_of_ne (.inr (Bool.eq_false_iff.mpr hreadable))
      · rw [hidle]
        cases direction <;> rfl

theorem step_write {tickDuration : Nat} {event : Token × Interest} {events : List (Token × Interest)}
    (hserial : serial → ∀ k, k ≠ j → (s.polls k).waking token direction = none) (hpoll : s.polls j = .write event events)
    (h : s.poller.pollOnceStep tickDuration j (.write event events) = some (m, poll)) :
    EdgeTriggered.Step serial (s.view token direction) (({ s with poller := m }.setPoll j poll).view token direction) := by
  have hidle : (s.polls j).waking token direction = none := by
    rw [hpoll]
    cases direction <;> rfl
  rw [MioPoller.pollOnceStep] at h
  split at h
  · cases hwaker : s.poller.writeWakers event.1 with
    | none =>
      rw [hwaker] at h
      cases h
      refine step_poll_lookFor event.1 .write hserial hidle rfl ⟨hwaker, hwaker.symm⟩ fun hat => ⟨rfl, ?_, ?_⟩
      · rw [hpoll]
        exact holds_write_of_ne (.inl hat)
      · cases direction <;> rfl
    | some waker =>
      rw [hwaker] at h
      cases h
      refine step_poll_lookFor event.1 .write hserial hidle rfl ⟨Function.update_self _ _ _, ?_⟩ fun hat => ⟨?_, ?_, ?_⟩
      · exact (if_pos rfl).trans hwaker.symm
      · cases direction with
        | read => rfl
        | write => exact Function.update_of_ne (fun heq => hat ⟨heq, rfl⟩) _ _
      · rw [hpoll, ← holds_write_of_ne (.inl hat)]
        cases direction <;> rfl
      · cases direction with
        | read => rfl
        | write => exact if_neg fun heq => hat ⟨heq.symm, rfl⟩
  · next hwritable =>
    cases h
    refine step_poll_skip rfl (fun _ => Iff.rfl) ?_ ?_
    · rw [hpoll]
      exact holds_write_of_ne (.inr (Bool.eq_false_iff.mpr hwritable))
    · rw [hidle]
      cases direction <;> rfl

theorem step_poller {tickDuration : Nat} (hserial : serial → ∀ k, k ≠ j → (s.polls k).waking token direction = none)
    (h : s.poller.pollOnceStep tickDuration j (s.polls j) = some (m, poll)) :
    EdgeTriggered.Step serial (s.view token direction) (({ s with poller := m }.setPoll j poll).view token direction) := by
  cases hpoll : s.polls j with
  | idle =>
    rw [hpoll] at h
    cases h
  | done =>
    rw [hpoll] at h
    cases h
  | panicked =>
    rw [hpoll] at h
    cases h
  | tick events =>
    rw [hpoll] at h
    exact step_tick hpoll h
  | read events =>
    rw [hpoll] at h
    exact step_read hserial hpoll h
  | write event events =>
    rw [hpoll] at h
    exact step_write hserial hpoll h
  | wakeRead event waker events =>
    rw [hpoll] at h
    cases h
    refine step_poll_wakeFor event.1 .read ?_ (fun hat => ?_) rfl ?_ ?_ ?_
    · rw [hpoll]
      exact if_pos rfl
    · rw [hpoll]
      cases direction with
      | read => exact if_neg fun heq => hat ⟨heq.symm, rfl⟩
      | write => rfl
    · cases direction <;> rfl
    · rw [hpoll]
      cases direction <;> rfl
    · cases direction <;> rfl
  | wakeWrite event waker events =>
    rw [hpoll] at h
    cases h
    refine step_poll_wakeFor event.1 .write ?_ (fun hat => ?_) rfl ?_ ?_ ?_
    · rw [hpoll]
      exact if_pos rfl
    · rw [hpoll]
      cases direction with
      | read => rfl
      | write => exact if_neg fun heq => hat ⟨heq.symm, rfl⟩
    · cases direction <;> rfl
    · rw [hpoll]
      cases direction <;> rfl
    · cases direction <;> rfl

end Poller

/-! ### Runs -/

/-- At most one call of `poll_once` runs. -/
def Serial (polls : Nat → PollOnce) : Prop := ∀ j k, (polls j).running = true → (polls k).running = true → j = k

theorem running_of_waking {poll : PollOnce} {waker : Waker} (h : poll.waking token direction = some waker) :
    poll.running = true := by
  cases poll with
  | wakeRead => rfl
  | wakeWrite => rfl
  | _ => cases direction <;> cases h

theorem running_of_pollOnceStep {tickDuration : Nat} {m m' : MioPoller} {poll poll' : PollOnce}
    (h : m.pollOnceStep tickDuration j poll = some (m', poll')) : poll.running = true := by
  cases poll with
  | idle => cases h
  | done => cases h
  | panicked => cases h
  | _ => rfl

theorem Serial.waking_eq_none {polls : Nat → PollOnce} (h : Serial polls) (hj : (polls j).running = true) {k : Nat}
    (hne : k ≠ j) : (polls k).waking token direction = none := by
  cases hk : (polls k).waking token direction with
  | none => rfl
  | some waker => exact absurd (h k j (running_of_waking hk) hj) hne

/-- A call of `poll_once` goes on, or begins when no other runs. -/
theorem Serial.update {polls : Nat → PollOnce} (h : Serial polls) {poll : PollOnce}
    (hj : poll.running = true → (polls j).running = true ∨ ∀ k, (polls k).running = false) :
    Serial (Function.update polls j poll) := by
  -- Whatever else runs afterwards would have run beside the call.
  have hself : ∀ k, k ≠ j → (Function.update polls j poll k).running = true → poll.running = true → k = j := by
    intro k hne hk hpoll
    rw [Function.update_of_ne hne] at hk
    rcases hj hpoll with hbefore | hnone
    · exact h k j hk hbefore
    · exact absurd hk (Bool.eq_false_iff.mp (hnone k))
  intro k l hk hl
  rcases eq_or_ne k j with rfl | hkj
  · rcases eq_or_ne l k with rfl | hlk
    · rfl
    · rw [Function.update_self] at hk
      exact (hself l hlk hl hk).symm
  · rcases eq_or_ne l j with rfl | hlj
    · rw [Function.update_self] at hl
      exact hself k hkj hk hl
    · rw [Function.update_of_ne hkj] at hk
      rw [Function.update_of_ne hlj] at hl
      exact h k l hk hl

/-- A task leaves `poll_once` and the time wheel alone. -/
theorem taskStep_frame {attempt : Attempt} {call : NonblockingCall} (h : s.taskStep token direction attempt call = some s') :
    s'.polls = s.polls ∧ s'.poller.wheel = s.poller.wheel := by
  obtain ⟨waker, -, rfl⟩ | rfl | ⟨waker, -, -, rfl⟩ | ⟨waker, -, rfl⟩ | ⟨waker, ready, -, -, rfl⟩ | ⟨waker, -, rfl⟩ :=
    taskStep_cases h
  · cases direction <;> exact ⟨rfl, rfl⟩
  · exact ⟨rfl, rfl⟩
  · exact ⟨rfl, rfl⟩
  · exact ⟨rfl, rfl⟩
  · exact ⟨rfl, rfl⟩
  · cases direction <;> exact ⟨rfl, rfl⟩

/-- A step is one of a `poll_once`, or leaves these alone and the wheel to its other users. -/
theorem step_cases {tickDuration : Nat} {a : DriverAction} (h : s.step tickDuration a = some s') :
    (∃ j events, a = .pollOnce j events ∧ s.polls j = .idle ∧ s' = s.pollOnce j events) ∨
    (∃ j, s.polls j = .idle ∧ s' = s.setPoll j .done) ∨
    (∃ j m poll, s.poller.pollOnceStep tickDuration j (s.polls j) = some (m, poll) ∧
      s' = { s with poller := m }.setPoll j poll) ∨
    (s'.polls = s.polls ∧ s.poller.wheel.clock ≤ s'.poller.wheel.clock ∧
      s'.poller.wheel.ticks = s.poller.wheel.ticks ∧ s'.poller.wheel.pops = s.poller.wheel.pops) := by
  cases a with
  | pollOnce j events =>
    rw [step, Option.ite_none_right_eq_some] at h
    exact .inl ⟨j, events, rfl, h.1, (Option.some.inj h.2).symm⟩
  | pollFails j =>
    rw [step, Option.ite_none_right_eq_some] at h
    exact .inr (.inl ⟨j, h.1, (Option.some.inj h.2).symm⟩)
  | poller j =>
    obtain ⟨⟨m, poll⟩, hnext, heq⟩ := Option.map_eq_some_iff.mp h
    exact .inr (.inr (.inl ⟨j, m, poll, hnext, heq.symm⟩))
  | call token direction =>
    rw [step, Option.ite_none_right_eq_some] at h
    cases h.2
    exact .inr (.inr (.inr ⟨rfl, Nat.le_refl _, rfl, rfl⟩))
  | task token direction attempt =>
    obtain ⟨hpolls, hwheel⟩ := taskStep_frame h
    rw [hpolls, hwheel]
    exact .inr (.inr (.inr ⟨rfl, Nat.le_refl _, rfl, rfl⟩))
  | becomeReady token direction =>
    rw [step, becomeReady, Option.ite_none_left_eq_some] at h
    cases h.2
    exact .inr (.inr (.inr ⟨rfl, Nat.le_refl _, rfl, rfl⟩))
  | becomeUnready token direction =>
    cases h
    exact .inr (.inr (.inr ⟨rfl, Nat.le_refl _, rfl, rfl⟩))
  | wait nanos =>
    cases h
    exact .inr (.inr (.inr ⟨rfl, Nat.le_add_right _ _, rfl, rfl⟩))
  | newTimer i duration =>
    obtain ⟨wheel, hwheel, heq⟩ := Option.map_eq_some_iff.mp h
    obtain ⟨hclock, hticks⟩ := TimeWheel.newTimer_ticks hwheel
    cases heq
    exact .inr (.inr (.inr ⟨rfl, Nat.le_of_eq hclock.symm, hticks, TimeWheel.newTimer_pops hwheel⟩))
  | add i spurious =>
    obtain ⟨wheel, hwheel, heq⟩ := Option.map_eq_some_iff.mp h
    obtain ⟨hclock, hticks⟩ := TimeWheel.addStep_ticks hwheel
    cases heq
    exact .inr (.inr (.inr ⟨rfl, Nat.le_of_eq hclock.symm, hticks, TimeWheel.addStep_pops hwheel⟩))

theorem serial_step {tickDuration : Nat} {a : DriverAction} (hserial : Serial s.polls) (hone : s.OneAtATime a)
    (h : s.step tickDuration a = some s') : Serial s'.polls := by
  obtain ⟨j, events, rfl, -, rfl⟩ | ⟨j, -, rfl⟩ | ⟨j, m, poll, hnext, rfl⟩ | ⟨hpolls, -⟩ := step_cases h
  · exact hserial.update fun _ => .inr hone
  · exact hserial.update nofun
  · exact hserial.update fun _ => .inl (running_of_pollOnceStep hnext)
  · rw [hpolls]
    exact hserial

theorem view_step {tickDuration : Nat} {a : DriverAction} (hserial : serial → Serial s.polls)
    (h : s.step tickDuration a = some s') :
    EdgeTriggered.Step serial (s.view token' direction') (s'.view token' direction') := by
  cases a with
  | call token direction =>
    rw [step, Option.ite_none_right_eq_some] at h
    cases h.2
    by_cases hat : token' = token ∧ direction' = direction
    · obtain ⟨rfl, rfl⟩ := hat
      rw [view_setCall_self]
      exact .leave _ id
    · rw [view_setCall_of_ne hat]
      exact .skip
  | task token direction attempt => exact step_taskStep h
  | becomeReady token direction => exact step_becomeReady h
  | becomeUnready token direction =>
    cases h
    exact step_becomeUnready
  | pollOnce j events =>
    rw [step, Option.ite_none_right_eq_some] at h
    cases h.2
    exact step_pollOnce h.1 events
  | pollFails j =>
    rw [step, Option.ite_none_right_eq_some] at h
    cases h.2
    refine step_poll_skip (m := s.poller) rfl (fun _ => Iff.rfl) ?_ ?_
    · rw [h.1]
      cases direction' <;> rfl
    · rw [h.1]
      cases direction' <;> rfl
  | poller j =>
    obtain ⟨next, hnext, heq⟩ := Option.map_eq_some_iff.mp h
    cases heq
    refine step_poller (fun hs k hne => ?_) hnext
    exact (hserial hs).waking_eq_none (running_of_pollOnceStep hnext) hne
  | wait nanos =>
    cases h
    cases direction' <;> exact .skip
  | newTimer i duration =>
    obtain ⟨wheel, _, heq⟩ := Option.map_eq_some_iff.mp h
    cases heq
    cases direction' <;> exact .skip
  | add i spurious =>
    obtain ⟨wheel, _, heq⟩ := Option.map_eq_some_iff.mp h
    cases heq
    cases direction' <;> exact .skip

theorem inv_of_reaches {tickDuration : Nat} {ready queued : Token → Direction → Bool}
    (h : Reaches (step tickDuration) (fun s a => serial → s.OneAtATime a) { ready, queued } s) :
    (serial → Serial s.polls) ∧ ∀ token direction, EdgeTriggered.Inv serial (s.view token direction) := by
  induction h with
  | refl => exact ⟨fun _ _ _ => nofun, fun _ _ => .of_idle rfl⟩
  | step _ hok hs ih =>
    refine ⟨fun hserial => serial_step (ih.1 hserial) (hok hserial) hs, fun token direction => ?_⟩
    exact (view_step ih.1 hs).inv (ih.2 token direction)

/-- In every run, when the last call for a direction has returned `WouldBlock` and the socket is ready in it: the event
    is not processed yet, or the waker of the call has been woken. This holds as it stands when calls of `poll_once` do
    not overlap. When they do, one of them may have removed the waker for an earlier event, and be about to wake it. -/
theorem readiness_not_lost (tickDuration : Nat) (ready queued : Token → Direction → Bool) :
    (∀ s, Reaches (step tickDuration) OneAtATime { ready, queued } s → ∀ token direction waker,
      s.calls token direction = .returned waker .wouldBlock → s.ready token direction = true →
      s.Unprocessed token direction waker ∨ (token, waker) ∈ s.poller.woken) ∧
    ∀ s, Reachable (step tickDuration) { ready, queued } s → ∀ token direction waker,
      s.calls token direction = .returned waker .wouldBlock → s.ready token direction = true →
      s.Unprocessed token direction waker ∨ s.Waking token direction waker ∨ (token, waker) ∈ s.poller.woken := by
  refine ⟨fun s h token direction waker hcall hready => ?_, fun s h token direction waker hcall hready => ?_⟩
  · have hinv := (inv_of_reaches (h.mono fun _ _ hok (_ : True) => hok)).2 token direction
    exact hinv.not_lost_of_serial trivial (congrArg NonblockingCall.phase hcall) hready
  · have hinv := (inv_of_reaches (h.mono fun _ _ _ (hfalse : False) => hfalse.elim)).2 token direction
    exact hinv.not_lost (congrArg NonblockingCall.phase hcall) hready

/-- A socket becomes ready behind a read that was blocked, and a `poll_once` takes its event. -/
def readyRun : List DriverAction :=
  [.call 7 .read, .task 7 .read .interrupted, .task 7 .read .interrupted, .task 7 .read .wouldBlock, .becomeReady 7 .read,
    .pollOnce 0 [(7, true, false)]] ++ List.replicate 7 (.poller 0)

theorem readyRun_ends :
    ∃ s, run (step 1000000) { ready := fun _ _ => false, queued := fun _ _ => false } readyRun = some s ∧
      s.calls 7 .read = .returned 0 .wouldBlock ∧ s.ready 7 .read = true ∧ s.queued 7 .read = false ∧
      s.polls 0 = .done ∧ ∀ n, s.polls (n + 1) = .idle :=
  ⟨_, rfl, rfl, rfl, rfl, rfl, fun _ => rfl⟩

theorem readiness_not_lost_readyRun :
    ∃ s, run (step 1000000) { ready := fun _ _ => false, queued := fun _ _ => false } readyRun = some s ∧
      (7, 0) ∈ s.poller.woken := by
  obtain ⟨s, hrun, hcall, hready, hqueued, hdone, hidle⟩ := readyRun_ends
  have hpolls : ∀ j, (s.polls j).holds 7 .read = false ∧ (s.polls j).waking 7 .read = none := by
    intro j
    match j with
    | 0 =>
      rw [hdone]
      exact ⟨rfl, rfl⟩
    | n + 1 =>
      rw [hidle n]
      exact ⟨rfl, rfl⟩
  refine ⟨s, hrun, ?_⟩
  rcases (readiness_not_lost 1000000 _ _).2 s (.of_run readyRun hrun) 7 .read 0 hcall hready with
    (hevent | ⟨j, _, hevent⟩) | ⟨j, hwaking⟩ | hwoken
  · rw [hqueued] at hevent
    cases hevent
  · rw [(hpolls j).1, (hpolls j).2] at hevent
    rcases hevent with hevent | hevent <;> cases hevent
  · rw [(hpolls j).2] at hwaking
    cases hwaking
  · exact hwoken

/-! ### Panics -/

/-- No call of `poll_once` panics as long as a tick has a microsecond and the ticks fit in 64 bits. -/
theorem pollOnce_not_panicked {tickDuration : Nat} (htick : 1000 ≤ tickDuration) {ready queued : Token → Direction → Bool}
    (h : Reaches (step tickDuration) (fun s _ => s.poller.wheel.clock ≤ TimeWheel.maxDuration ∧
      s.poller.wheel.clock / 1000 / (tickDuration / 1000) < 2 ^ 64) { ready, queued } s) :
    TimeWheel.Punctual (tickDuration / 1000) s.poller.wheel ∧ ∀ j, s.polls j ≠ .panicked := by
  induction h with
  | refl => exact ⟨⟨Nat.zero_le _, fun _ => trivial⟩, fun _ => nofun⟩
  | @step s s' a _ hok hs ih =>
    obtain ⟨hpunctual, hpolls⟩ := ih
    have hset : ∀ {j poll}, poll ≠ .panicked → ∀ k, Function.update s.polls j poll k ≠ .panicked := by
      intro j poll hpoll k
      rcases eq_or_ne k j with rfl | hne
      · rwa [Function.update_self]
      · rw [Function.update_of_ne hne]
        exact hpolls k
    obtain ⟨j, events, -, -, rfl⟩ | ⟨j, -, rfl⟩ | ⟨j, m, poll, hnext, rfl⟩ | ⟨hsame, hclock, hticks, hpops⟩ := step_cases hs
    · exact ⟨hpunctual.setPop trivial, hset nofun⟩
    · exact ⟨hpunctual, hset nofun⟩
    · obtain ⟨-, hwheel, hpanic⟩ := MioPoller.pollOnceStep_wheel hnext
      refine ⟨?_, hset fun hpanicked => ?_⟩
      · rcases hwheel with hsame | hpop
        · exact hsame ▸ hpunctual
        · exact hpunctual.popStep (TimeWheel.tickOf_eq (Nat.div_pos htick (by decide)) hok.1 hok.2) hpop
      · have hbehind := hpunctual.pops j
        rw [hpanic hpanicked] at hbehind
        exact hbehind
    · rw [hsame]
      exact ⟨hpunctual.frame hclock hticks hpops, hpolls⟩

end Driver

end Hala.Io
