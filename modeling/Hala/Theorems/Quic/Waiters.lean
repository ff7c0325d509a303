import Hala.Quic.ConnCalls
import Hala.Theorems.Quic.Mediator

/-! The tasks that are suspended on a connection, and what a step does to them. -/

namespace Hala.Quic
open Machine
variable {Q : Type} {quiche : Quiche Q} {c c' : QuicConnState Q}

theorem Flow.waiting_toCall {α : Type} (op : LoopOp) (result : α → Return) (flow : Flow α) (scid : ConnId) :
    (flow.toCall op result).waiting scid = flow.waiting (op.event scid) := by
  cases flow <;> rfl

theorem Flow.waiting_toReader (size : Nat) (flow : Flow (Except IoError (Bytes × PathInfo))) (scid : ConnId) :
    (flow.toReader size).waiting scid = flow.waiting (.readable scid) := by
  cases flow <;> rfl

/-- The specification of every operation. -/
theorem Op.pass_outcome {fuel : Nat} {order : List StreamId} {op : Op} {call : Call}
    (h : op.pass quiche fuel order c = some (c', call)) : Outcome c c' (call.waiting c.scid) := by
  cases op with
  | write buf info =>
    obtain ⟨⟨c₁, result⟩, hwrite, hc⟩ := Option.map_eq_some_iff.mp h
    cases hc
    exact .notified (write_notified hwrite)
  | loop op =>
    cases op with
    | streamSend id buf fin =>
      cases h
      rw [Flow.waiting_toCall]
      exact streamSend_outcome id buf fin
    | streamRecv id size =>
      cases h
      rw [Flow.waiting_toCall]
      exact streamRecv_outcome id size
    | accept =>
      cases h
      rw [Flow.waiting_toCall]
      exact accept_outcome
  | openStream =>
    cases h
    exact .notified openStream_notified
  | closeStream id =>
    cases h
    exact .notified (closeStream_notified id)
  | streamShutdown id err =>
    cases h
    exact .notified (notified_setQuiche _)
  | close app err reason =>
    cases h
    exact .notified (close_notified app err reason)

theorem Outcome.scid {waiting : Option (ConnEvent × Cell)} (h : Outcome c c' waiting) : c'.scid = c.scid := by
  cases h with
  | notified hn => exact hn.scid
  | waits event hn => exact hn.scid

theorem Outcome.wellFormed {waiting : Option (ConnEvent × Cell)} (h : Outcome c c' waiting) (hc : c.mediator.WellFormed) :
    c'.mediator.WellFormed := by
  cases h with
  | notified hn => exact hn.notifies.wellFormed hc
  | waits event hn => exact (hn.notifies.wellFormed hc).wait

/-! ### What a step can do -/

theorem poll_eq_none_iff {m : EventMap ConnEvent} {cell : Cell} : m.poll cell = none ↔ m.reasons cell = .none := by
  unfold EventMap.poll
  split <;> simp_all

theorem poll_eq_ok_iff {m : EventMap ConnEvent} {cell : Cell} : m.poll cell = some (.ok ()) ↔ m.reasons cell = .on := by
  unfold EventMap.poll
  split <;> simp_all

namespace ConnCalls

inductive StepCases (quiche : Quiche Q) (s : ConnCalls Q) : Nat × ConnAction → ConnCalls Q → Prop
  | elapsed {r : Nat} {nanos : Nanos} : StepCases quiche s (r, .elapse nanos) { s with clock := s.clock + nanos }
  | calledRead {r size : Nat} : (∀ scid, (s.readers r).waiting scid = none) →
      StepCases quiche s (r, .read size) (s.setReader r (.lock size))
  | readPassed {r size : Nat} : s.readers r = .lock size →
      StepCases quiche s (r, .reader)
        ({ s with conn := (s.conn.read quiche s.clock size).1 }.setReader r ((s.conn.read quiche s.clock size).2.toReader size))
  | readResolved {r size : Nat} {cell : Cell} {expired : Option Nanos} {reader : Reader} :
      s.readers r = .wait size cell expired → s.conn.mediator.reasons cell ≠ .none → (∀ scid, reader.waiting scid = none) →
      StepCases quiche s (r, .reader) (s.setReader r reader)
  | readExpired {r size : Nat} : s.readers r = .expired size →
      StepCases quiche s (r, .reader)
        ({ s with conn := (s.conn.readExpired quiche s.clock).1 }.setReader r ((s.conn.readExpired quiche s.clock).2.toReader size))
  | timedOut {r size : Nat} {cell : Cell} {expired : Option Nanos} : s.readers r = .wait size cell expired →
      StepCases quiche s (r, .timeout) (s.setReader r (.expired size))
  | called {r i : Nat} {op : Op} : s.calls i = .idle → StepCases quiche s (r, .call i op) (s.setCall i (.lock op))
  | passed {r i fuel : Nat} {order : List StreamId} {op : Op} {conn : QuicConnState Q} {call : Call} :
      s.calls i = .lock op → op.pass quiche fuel order s.conn = some (conn, call) →
      StepCases quiche s (r, .task i fuel order) ({ s with conn }.setCall i call)
  | retried {r i fuel : Nat} {order : List StreamId} {op : LoopOp} {cell : Cell} : s.calls i = .wait op cell →
      s.conn.mediator.reasons cell = .on → StepCases quiche s (r, .task i fuel order) (s.setCall i (.lock (.loop op)))
  | cancelled {r i fuel : Nat} {order : List StreamId} {op : LoopOp} {cell : Cell} {err : EventMapError} :
      s.calls i = .wait op cell → s.conn.mediator.poll cell = some (.error err) →
      StepCases quiche s (r, .task i fuel order) (s.setCall i (.returned (op.cancelled err)))
  | shutdown {r i fuel : Nat} {order : List StreamId} {id : StreamId} {result : Except IoError Unit} :
      s.calls i = .shutdown id result →
      StepCases quiche s (r, .task i fuel order)
        ({ s with conn := s.conn.streamShutdownNotify id }.setCall i (.returned (.unit result)))

section Cases
variable {s s' : ConnCalls Q} {r : Nat}

theorem reader_cases (h : s.step quiche (r, .reader) = some s') : StepCases quiche s (r, .reader) s' := by
  obtain ⟨t, ht, rfl⟩ := Option.map_eq_some_iff.mp h
  change ConnTasks.readerStep quiche (s.view r) = some t at ht
  rcases hr : s.readers r with _ | size | ⟨size, cell, expired⟩ | size | result
  · simp only [ConnTasks.readerStep, ConnCalls.view, hr] at ht
    cases ht
  · simp only [ConnTasks.readerStep, ConnCalls.view, hr] at ht
    cases ht
    exact .readPassed hr
  · simp only [ConnTasks.readerStep, ConnCalls.view, hr] at ht
    rcases hpoll : s.conn.mediator.poll cell with _ | err | _
    · simp only [hpoll] at ht
      cases ht
    · have hset : s.conn.mediator.reasons cell ≠ .none := by
        rw [ne_eq, ← poll_eq_none_iff, hpoll]
        simp
      simp only [hpoll] at ht
      cases ht
      exact .readResolved hr hset (fun _ => rfl)
    · have hset : s.conn.mediator.reasons cell ≠ .none := by
        rw [ne_eq, ← poll_eq_none_iff, hpoll]
        simp
      simp only [hpoll] at ht
      cases ht
      exact .readResolved hr hset (fun _ => rfl)
  · simp only [ConnTasks.readerStep, ConnCalls.view, hr] at ht
    cases ht
    exact .readExpired hr
  · simp only [ConnTasks.readerStep, ConnCalls.view, hr] at ht
    cases ht

theorem task_cases {i fuel : Nat} {order : List StreamId} (h : s.step quiche (r, .task i fuel order) = some s') :
    StepCases quiche s (r, .task i fuel order) s' := by
  obtain ⟨t, ht, rfl⟩ := Option.map_eq_some_iff.mp h
  change ConnTasks.taskStep quiche (s.view r) i fuel order = some t at ht
  rcases hi : s.calls i with _ | op | ⟨op, cell⟩ | ⟨id, result⟩ | result
  · simp only [ConnTasks.taskStep, view, hi] at ht
    cases ht
  · simp only [ConnTasks.taskStep, view, hi] at ht
    obtain ⟨⟨conn, call⟩, hpass, rfl⟩ := Option.map_eq_some_iff.mp ht
    have hcase : StepCases quiche s (r, .task i fuel order) _ := .passed hi hpass
    simpa [setCall, ConnTasks.setCall, view] using hcase
  · simp only [ConnTasks.taskStep, view, hi] at ht
    rcases hpoll : s.conn.mediator.poll cell with _ | err | _
    · simp only [hpoll] at ht
      cases ht
    · simp only [hpoll] at ht
      cases ht
      have hcase : StepCases quiche s (r, .task i fuel order) _ := .cancelled hi hpoll
      simpa [setCall, ConnTasks.setCall, view] using hcase
    · simp only [hpoll] at ht
      cases ht
      have hcase : StepCases quiche s (r, .task i fuel order) _ := .retried hi (poll_eq_ok_iff.mp hpoll)
      simpa [setCall, ConnTasks.setCall, view] using hcase
  · simp only [ConnTasks.taskStep, view, hi] at ht
    cases ht
    have hcase : StepCases quiche s (r, .task i fuel order) _ := .shutdown hi
    simpa [setCall, ConnTasks.setCall, view] using hcase
  · simp only [ConnTasks.taskStep, view, hi] at ht
    cases ht

theorem step_cases {a : Nat × ConnAction} (h : s.step quiche a = some s') : StepCases quiche s a s' := by
  obtain ⟨r, a⟩ := a
  cases a with
  | elapse nanos =>
    cases h
    have hcase : StepCases quiche s (r, .elapse nanos) _ := .elapsed
    simpa [view] using hcase
  | read size =>
    rcases hr : s.readers r with _ | _ | _ | _ | _ <;> simp only [step, ConnTasks.step, view, hr] at h <;> cases h
    · exact .calledRead (by simp [hr, Reader.waiting])
    · exact .calledRead (by simp [hr, Reader.waiting])
  | reader => exact reader_cases h
  | timeout =>
    rcases hr : s.readers r with _ | _ | _ | _ | _ <;> simp only [step, ConnTasks.step, view, hr] at h <;> cases h
    exact .timedOut hr
  | call i op =>
    rcases hi : s.calls i with _ | _ | _ | _ | _ <;> simp only [step, ConnTasks.step, view, hi] at h <;> cases h
    have hcase : StepCases quiche s (r, .call i op) _ := .called hi
    simpa [setCall, ConnTasks.setCall, view] using hcase
  | task i fuel order => exact task_cases h

end Cases

/-! ### What a step does to the suspended tasks -/

/-- One task moves: it has passed through the lock, or it is suspended no more, or nothing about it has changed. -/
structure Moves (s s' : ConnCalls Q) (t : TaskId) : Prop where
  others : ∀ t' ≠ t, s'.waiting t' = s.waiting t'
  moved : (s'.conn = s.conn ∧ (s'.waiting t = s.waiting t ∨ s'.waiting t = none)) ∨ Outcome s.conn s'.conn (s'.waiting t)

section Moves
variable {s s' : ConnCalls Q} {conn : QuicConnState Q} {r i : Nat} {reader : Reader} {call : Call}

theorem waiting_setReader_of_ne {t : TaskId} (hscid : conn.scid = s.conn.scid) (ht : t ≠ .reader r) :
    ({ s with conn }.setReader r reader).waiting t = s.waiting t := by
  cases t with
  | reader r' =>
    have hr : r' ≠ r := by
      rintro rfl
      exact ht rfl
    simp [waiting, setReader, hscid, hr]
  | call i => simp [waiting, setReader, hscid]

theorem waiting_setCall_of_ne {t : TaskId} (hscid : conn.scid = s.conn.scid) (ht : t ≠ .call i) :
    ({ s with conn }.setCall i call).waiting t = s.waiting t := by
  cases t with
  | reader r => simp [waiting, setCall, hscid]
  | call j =>
    have hj : j ≠ i := by
      rintro rfl
      exact ht rfl
    simp [waiting, setCall, hscid, hj]

theorem Moves.reader_passed (h : Outcome s.conn conn (reader.waiting s.conn.scid)) :
    Moves s ({ s with conn }.setReader r reader) (.reader r) := by
  refine ⟨fun t ht => waiting_setReader_of_ne h.scid ht, Or.inr ?_⟩
  simpa [waiting, setReader, h.scid] using h

theorem Moves.call_passed (h : Outcome s.conn conn (call.waiting s.conn.scid)) :
    Moves s ({ s with conn }.setCall i call) (.call i) := by
  refine ⟨fun t ht => waiting_setCall_of_ne h.scid ht, Or.inr ?_⟩
  simpa [waiting, setCall, h.scid] using h

theorem Moves.reader_left (h : reader.waiting s.conn.scid = none) : Moves s (s.setReader r reader) (.reader r) := by
  refine ⟨fun t ht => waiting_setReader_of_ne rfl ht, Or.inl ⟨rfl, Or.inr ?_⟩⟩
  simpa [waiting, setReader] using h

theorem Moves.call_left (h : call.waiting s.conn.scid = none) : Moves s (s.setCall i call) (.call i) := by
  refine ⟨fun t ht => waiting_setCall_of_ne rfl ht, Or.inl ⟨rfl, Or.inr ?_⟩⟩
  simpa [waiting, setCall] using h

theorem StepCases.moves {a : Nat × ConnAction} (h : StepCases quiche s a s') : ∃ t, Moves s s' t := by
  cases h with
  | elapsed => exact ⟨.reader 0, fun _ _ => rfl, Or.inl ⟨rfl, Or.inl rfl⟩⟩
  | calledRead | timedOut => exact ⟨_, .reader_left rfl⟩
  | readPassed =>
    refine ⟨_, .reader_passed ?_⟩
    rw [Flow.waiting_toReader]
    exact read_outcome _ _
  | readExpired =>
    refine ⟨_, .reader_passed ?_⟩
    rw [Flow.waiting_toReader]
    exact readExpired_outcome _
  | readResolved _ _ hleft => exact ⟨_, .reader_left (hleft _)⟩
  | called | retried | cancelled => exact ⟨_, .call_left rfl⟩
  | passed _ hpass => exact ⟨_, .call_passed (Op.pass_outcome hpass)⟩
  | shutdown => exact ⟨_, .call_passed (.notified (notified_notify _ (by simp)))⟩

theorem Moves.wellFormed {t : TaskId} (h : Moves s s' t) (hs : s.conn.mediator.WellFormed) : s'.conn.mediator.WellFormed := by
  rcases h.moved with ⟨hconn, -⟩ | houtcome
  · rwa [hconn]
  · exact houtcome.wellFormed hs

theorem wellFormed_of_reachable {now pingTimeout : Nanos} {q : Q} {first : StreamId}
    (h : Reachable (step quiche) { conn := .new quiche now q pingTimeout first } s) : s.conn.mediator.WellFormed := by
  induction h with
  | refl => exact EventMap.wellFormed_init
  | step _ _ hs hwf =>
    obtain ⟨t, hmoves⟩ := (step_cases hs).moves
    exact hmoves.wellFormed hwf

end Moves

end ConnCalls

end Hala.Quic
