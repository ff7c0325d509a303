import Hala.Quic.Sample
import Hala.Theorems.Quic.Waiters

/-! Calls on a stream that has been closed.

A closed stream is not half closed yet while it waits in the dropping queue, is so no more when the peer has ended it
too, and never is if it was closed unused. In these places `handle_stream_status` lets a late call pass, and whether it
succeeds is left to `quiche`. -/

namespace Hala.Quic
open Machine
variable {Q : Type} {quiche : Quiche Q} {c c' : QuicConnState Q}

/-- The connection is there, and the stream of the call is not half closed. -/
def Op.Passes (quiche : Quiche Q) (c : QuicConnState Q) (op : Op) : Prop :=
  QuicConnState.gone quiche c.state.quicheConn = false ∧ ∃ id, op.stream = some id ∧ id ∉ c.state.halfClosedStreams

/-- A pass of `stream_send` that returns `Ok` has passed both tests. -/
theorem streamSend_passes {id : StreamId} {buf : Bytes} {fin : Bool} {n : Nat}
    (h : (c.streamSend quiche id buf fin).2 = .ret (.ok n)) : (Op.loop (.streamSend id buf fin)).Passes quiche c := by
  unfold QuicConnState.streamSend at h
  split at h
  · cases h
  next hstatus =>
  obtain ⟨rfl, hlive⟩ := live_of_status_ok hstatus
  split at h
  · cases h
  next hstream => exact ⟨hlive, id, rfl, not_halfClosed_of_ok hstream⟩

theorem streamRecv_passes {id : StreamId} {size : Nat} {data : Bytes × Bool}
    (h : (c.streamRecv quiche id size).2 = .ret (.ok data)) : (Op.loop (.streamRecv id size)).Passes quiche c := by
  unfold QuicConnState.streamRecv at h
  split at h
  · cases h
  next hstatus =>
  obtain ⟨rfl, hlive⟩ := live_of_status_ok hstatus
  split at h
  · cases h
  next hstream => exact ⟨hlive, id, rfl, not_halfClosed_of_ok hstream⟩

/-- Whoever succeeds has passed both tests. -/
theorem Op.passes_of_succeeded {fuel : Nat} {order : List StreamId} {op : Op} {call : Call} {i j : Nat}
    (hpass : op.pass quiche fuel order c = some (c', call)) (h : .succeeded j ∈ op.streamEvent i call) :
    j = i ∧ op.Passes quiche c := by
  cases op with
  | loop op =>
    cases op with
    | streamSend id buf fin =>
      obtain rfl : (c.streamSend quiche id buf fin).2.toCall _ _ = call := congrArg Prod.snd (Option.some.inj hpass)
      rcases hflow : (c.streamSend quiche id buf fin).2 with (err | n) | _ | ⟨cell, expired⟩ <;>
        simp only [hflow, Flow.toCall, Op.streamEvent, List.not_mem_nil, List.mem_singleton, StreamEvent.succeeded.injEq] at h
      exact ⟨h, streamSend_passes hflow⟩
    | streamRecv id size =>
      obtain rfl : (c.streamRecv quiche id size).2.toCall _ _ = call := congrArg Prod.snd (Option.some.inj hpass)
      rcases hflow : (c.streamRecv quiche id size).2 with (err | data) | _ | ⟨cell, expired⟩ <;>
        simp only [hflow, Flow.toCall, Op.streamEvent, List.not_mem_nil, List.mem_singleton, StreamEvent.succeeded.injEq] at h
      exact ⟨h, streamRecv_passes hflow⟩
    | accept => simp [Op.streamEvent] at h
  | closeStream id =>
    unfold Op.streamEvent at h
    split at h <;> simp_all
  | write _ _ | openStream | streamShutdown _ _ | close _ _ _ => simp [Op.streamEvent] at h

theorem place_eq_halfClosed_iff {s : RawQuicConnState Q} {id : StreamId} :
    s.place id = .halfClosed ↔ id ∈ s.halfClosedStreams := by
  unfold RawQuicConnState.place
  split
  · next h => exact iff_of_true rfl h
  · next h =>
    refine iff_of_false (fun hplace => ?_) h
    split at hplace
    · cases hplace
    · split at hplace <;> cases hplace

namespace ConnCalls
variable {s s' : ConnCalls Q} {a : Nat × ConnAction}

/-- What a step adds to the history besides calls: the end of one pass. -/
theorem StepCases.succeeded (h : StepCases quiche s a s') {j : Nat} (hmem : .succeeded j ∈ s.streamEvents quiche a) :
    ∃ r fuel order op, a = (r, .task j fuel order) ∧ s.calls j = .lock op ∧ op.Passes quiche s.conn := by
  cases h with
  | @passed r i fuel order op _ _ hi hpass =>
    simp only [streamEvents, hi, hpass] at hmem
    obtain ⟨rfl, hpasses⟩ := Op.passes_of_succeeded hpass hmem
    exact ⟨r, fuel, order, op, rfl, hi, hpasses⟩
  | called =>
    simp only [streamEvents, Option.mem_toList, Option.map_eq_some_iff, reduceCtorEq, and_false, exists_false] at hmem
  | retried hi | cancelled hi | shutdown hi => simp [streamEvents, hi] at hmem
  | elapsed | calledRead | readPassed | readResolved | readExpired | timedOut => simp [streamEvents] at hmem

/-- No call that had begun after its stream was closed has returned `Ok`. -/
def NoneLate (past : List StreamEvent) : Prop :=
  Throughout (fun before e => ∀ i, e = .succeeded i → late i before = false) past

theorem Op.streamEvent_cases (i : Nat) (op : Op) (call : Call) :
    op.streamEvent i call = [] ∨ ∃ e, op.streamEvent i call = [e] := by
  unfold Op.streamEvent
  split
  · exact Or.inr ⟨_, rfl⟩
  · exact Or.inr ⟨_, rfl⟩
  · exact Or.inr ⟨_, rfl⟩
  · exact Or.inl rfl

theorem streamEvents_cases (quiche : Quiche Q) (s : ConnCalls Q) (a : Nat × ConnAction) :
    s.streamEvents quiche a = [] ∨ ∃ e, s.streamEvents quiche a = [e] := by
  unfold streamEvents
  split
  · next op => cases op.stream <;> simp
  · split
    · split
      · exact Op.streamEvent_cases _ _ _
      · exact Or.inl rfl
    · exact Or.inl rfl
  · exact Or.inl rfl

theorem NoneLate.step {past : List StreamEvent} (h : NoneLate past) (hs : s.step quiche a = some s')
    (hok : halfClosedWhenLate quiche (s, past) a = true) : NoneLate ((s.streamEvents quiche a).reverse ++ past) := by
  rcases streamEvents_cases quiche s a with hnone | ⟨e, hone⟩
  · rw [hnone]
    exact h
  · rw [hone]
    refine ⟨fun i he => ?_, h⟩
    have hmem : .succeeded i ∈ s.streamEvents quiche a := by
      rw [hone, he]
      exact List.mem_singleton_self _
    obtain ⟨r, fuel, order, op, rfl, hi, hlive, id, hid, hopen⟩ := (step_cases hs).succeeded hmem
    have hplace : s.conn.state.place id ≠ .halfClosed := fun hplace => hopen (place_eq_halfClosed_iff.mp hplace)
    simpa [halfClosedWhenLate, hi, hlive, hid, hplace] using hok

theorem noneLate_of_reaches {init s : ConnCalls Q × List StreamEvent} (hinit : init.2 = [])
    (h : Reaches (traced (step quiche) (streamEvents quiche)) (fun s a => halfClosedWhenLate quiche s a = true) init s) :
    NoneLate s.2 := by
  induction h with
  | refl =>
    rw [hinit]
    trivial
  | step _ hok hs ih =>
    obtain ⟨s₁, hs₁, rfl⟩ := Option.map_eq_some_iff.mp hs
    exact ih.step hs₁ hok

/-- In every run in which a late call only takes the lock while its stream is half closed: no `stream_send` or
    `stream_recv` that has begun after `close_stream` of its stream returned `Ok` ever returns `Ok`. -/
theorem late_calls_fail (now pingTimeout : Nanos) (q : Q) (first : StreamId) (s : ConnCalls Q) (past : List StreamEvent)
    (h : Reaches (traced (step quiche) (streamEvents quiche)) (fun s a => halfClosedWhenLate quiche s a = true)
      ({ conn := .new quiche now q pingTimeout first }, []) (s, past)) : NoneLate past :=
  noneLate_of_reaches rfl h

/-- The server opens a stream, sends on it and closes it, `read` ends the stream, and the next `stream_send` is refused. -/
def refusedRun : List (Nat × ConnAction) :=
  [(0, .call 0 .openStream), (0, .task 0 0 []), (0, .call 1 (.loop (.streamSend 5 [1] false))), (0, .task 1 0 []),
    (0, .call 2 (.closeStream 5)), (0, .task 2 0 []), (0, .read 1200), (0, .reader),
    (0, .call 3 (.loop (.streamSend 5 [2] false))), (0, .task 3 0 [])]

theorem late_calls_fail_refused :
    ∃ s, runIf (traced (step StreamSample.quiche) (streamEvents StreamSample.quiche)) (halfClosedWhenLate StreamSample.quiche)
        ({ conn := StreamSample.conn }, []) refusedRun = some (s, [.called 3 5, .closed 5, .succeeded 1, .called 1 5]) ∧
      late 3 [.called 3 5, .closed 5, .succeeded 1, .called 1 5] = true ∧
      NoneLate [.called 3 5, .closed 5, .succeeded 1, .called 1 5] := by
  refine ⟨_, rfl, rfl, ?_⟩
  have hreaches : Reaches (traced (step StreamSample.quiche) (streamEvents StreamSample.quiche))
      (fun s a => halfClosedWhenLate StreamSample.quiche s a = true) ({ conn := StreamSample.conn }, []) _ :=
    .of_runIf refusedRun (fun _ _ h => h) rfl
  exact late_calls_fail 0 1000000000 ({ limit := 4 } : StreamSample) 5 _ _ hreaches

/-- Behind the actions, call `i` is a late call on stream 5 that takes the lock while the stream is in this place, and it
    returns `Ok`. -/
def SucceedsLate (quiche : Quiche Q) (c : QuicConnState Q) (actions : List (Nat × ConnAction)) (i : Nat)
    (place : StreamPlace) : Prop :=
  ∃ s past s', run (traced (step quiche) (streamEvents quiche)) ({ conn := c }, []) actions = some (s, past) ∧
    s.conn.state.place 5 = place ∧
    traced (step quiche) (streamEvents quiche) (s, past) (0, .task i 0 []) = some (s', .succeeded i :: past) ∧
    ¬NoneLate (.succeeded i :: past)

/-- The server opens a stream, closes it unused, and sends on it. -/
def closedUnusedRun : List (Nat × ConnAction) :=
  [(0, .call 0 .openStream), (0, .task 0 0 []), (0, .call 1 (.closeStream 5)), (0, .task 1 0 []),
    (0, .call 2 (.loop (.streamSend 5 [1] false)))]

/-- The server opens a stream, sends on it and closes it. -/
def usedRun : List (Nat × ConnAction) :=
  [(0, .call 0 .openStream), (0, .task 0 0 []), (0, .call 1 (.loop (.streamSend 5 [1] false))), (0, .task 1 0 []),
    (0, .call 2 (.closeStream 5)), (0, .task 2 0 [])]

/-- `read` sends the end of the stream, and a datagram brings that of the peer. -/
def endedRun : List (Nat × ConnAction) :=
  [(0, .read 1200), (0, .reader), (0, .call 3 (.write (StreamSample.packet [0x0b, 5, 1, 9]) (Sample.loopback 5000))),
    (0, .task 3 2 [5])]

/-- Late calls succeed on a stream that was closed unused, on one that `read` has not yet ended, and, for an empty
    `stream_send` with the end, on one that the peer has ended too. -/
theorem late_call_succeeds :
    SucceedsLate StreamSample.quiche StreamSample.conn closedUnusedRun 2 .nowhere ∧
      SucceedsLate StreamSample.quiche StreamSample.conn (usedRun ++ [(0, .call 3 (.loop (.streamSend 5 [1] false)))]) 3
        .dropping ∧
      SucceedsLate FinSample.quiche FinSample.conn (usedRun ++ endedRun ++ [(0, .call 4 (.loop (.streamSend 5 [] true)))]) 4
        .nowhere :=
  ⟨⟨_, [.called 2 5, .closed 5], _, rfl, rfl, rfl, fun h => absurd (h.1 2 rfl) (by decide)⟩,
    ⟨_, [.called 3 5, .closed 5, .succeeded 1, .called 1 5], _, rfl, rfl, rfl, fun h => absurd (h.1 3 rfl) (by decide)⟩,
    ⟨_, [.called 4 5, .closed 5, .succeeded 1, .called 1 5], _, rfl, rfl, rfl, fun h => absurd (h.1 4 rfl) (by decide)⟩⟩

end ConnCalls

end Hala.Quic
