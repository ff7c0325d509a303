import Hala.Quic.QuicStream
import Hala.Theorems.Quic.Closed

/-! Whom `close_stream` releases.

It cancels the tasks that are suspended on its stream, except on the early way out that it takes for a stream that was
opened here and not used. `stream_recv` suspends on such a stream, too. -/

namespace Hala.Quic
open Machine
variable {Q : Type} {quiche : Quiche Q} {c c' : QuicConnState Q} {id : StreamId}

/-! ### What `close_stream` does to the event map -/

theorem closeStream_unused (hunused : id ∈ c.state.registerOutgoingStreamIds)
    (h : c.closeStream quiche id = (c', .ok ())) : c'.mediator = c.mediator := by
  unfold QuicConnState.closeStream at h
  split at h
  · cases h
  next hstatus =>
  obtain ⟨rfl, -⟩ := live_of_status_ok hstatus
  rw [if_pos hunused] at h
  cases h
  rfl

theorem mediator_of_readable_ok (h : c.notifyReadable quiche = (c', .ok ())) :
    c'.mediator = c.mediator.notify (.readable c.scid) .on := by
  unfold QuicConnState.notifyReadable at h
  split at h
  · cases h
  · next hstatus =>
    obtain ⟨rfl, -⟩ := live_of_status_ok hstatus
    cases h
    rfl

theorem closeStream_used (hused : id ∉ c.state.registerOutgoingStreamIds) (h : c.closeStream quiche id = (c', .ok ())) :
    c'.mediator =
      (c.mediator.notifyAll [.streamReadable c.scid id, .streamWritable c.scid id] .cancel).notify (.readable c.scid) .on := by
  unfold QuicConnState.closeStream at h
  split at h
  · cases h
  next hstatus =>
  obtain ⟨rfl, -⟩ := live_of_status_ok hstatus
  rw [if_neg hused] at h
  have hmediator := mediator_of_readable_ok h
  exact hmediator

namespace ConnCalls
variable {s s' : ConnCalls Q}

/-! ### Runs -/

theorem Moves.scid {t : TaskId} (h : Moves s s' t) : s'.conn.scid = s.conn.scid := by
  obtain ⟨hconn, -⟩ | houtcome := h.moved
  · rw [hconn]
  · exact houtcome.scid

theorem callStep_moves {a : CallAction} (hs : s.callStep quiche a = some s') : ∃ t, Moves s s' t := by
  cases a with
  | conn a => exact (step_cases hs).moves
  | drop i =>
    simp only [callStep] at hs
    split at hs <;> cases hs
    exact ⟨_, .call_left rfl⟩

/-- The tasks that are suspended on the stream are found under their events. -/
structure StreamRegistered (s : ConnCalls Q) (id : StreamId) : Prop where
  wellFormed : s.conn.mediator.WellFormed
  readable : s.RegisteredFor (.streamReadable s.conn.scid id)
  writable : s.RegisteredFor (.streamWritable s.conn.scid id)

theorem StreamRegistered.step {a : CallAction} (h : s.StreamRegistered id) (hs : s.callStep quiche a = some s')
    (hone : s'.OnePerDirection id) : s'.StreamRegistered id := by
  obtain ⟨t, hmoves⟩ := callStep_moves hs
  obtain ⟨hreadable, hwritable⟩ := hone
  rw [hmoves.scid] at hreadable hwritable
  refine ⟨hmoves.wellFormed h.wellFormed, ?_, ?_⟩
  · rw [hmoves.scid]
    exact h.readable.step hmoves hreadable
  · rw [hmoves.scid]
    exact h.writable.step hmoves hwritable

/-- The run keeps to at most one task suspended in each direction of the stream. -/
def KeepsOnePerDirection (quiche : Quiche Q) (id : StreamId) (s : ConnCalls Q) (a : CallAction) : Prop :=
  ∀ s', s.callStep quiche a = some s' → s'.OnePerDirection id

theorem streamRegistered_of_reaches {now pingTimeout : Nanos} {q : Q} {first : StreamId}
    (h : Reaches (callStep quiche) (KeepsOnePerDirection quiche id) { conn := .new quiche now q pingTimeout first } s) :
    s.StreamRegistered id := by
  induction h with
  | refl =>
    refine ⟨EventMap.wellFormed_init, fun t cell hwaiting => ?_, fun t cell hwaiting => ?_⟩
    · cases t <;> cases hwaiting
    · cases t <;> cases hwaiting
  | step _ hok hs ih => exact ih.step hs (hok _ hs)

/-- A task that is suspended on the stream waits for one of its two events. -/
theorem Suspended.waiting {cell : Cell} (h : s.Suspended id cell) :
    s.conn.mediator.reasons cell = .none ∧ ∃ t,
      (s.waiting t = some (.streamReadable s.conn.scid id, cell) ∨ s.waiting t = some (.streamWritable s.conn.scid id, cell)) := by
  obtain ⟨i, op, hi, hop, hnone⟩ := h
  refine ⟨hnone, .call i, ?_⟩
  cases op with
  | streamSend id' buf fin =>
    cases hop
    exact Or.inr (by simp only [ConnCalls.waiting, hi, Call.waiting, LoopOp.event])
  | streamRecv id' size =>
    cases hop
    exact Or.inl (by simp only [ConnCalls.waiting, hi, Call.waiting, LoopOp.event])
  | accept => cases hop

/-- The event of a suspended task has its entry. -/
theorem StreamRegistered.lookup {cell : Cell} (h : s.StreamRegistered id) (hsuspended : s.Suspended id cell) :
    ∃ event ∈ [ConnEvent.streamReadable s.conn.scid id, .streamWritable s.conn.scid id],
      s.conn.mediator.wakers.lookup event = some cell := by
  obtain ⟨hnone, t, hreadable | hwritable⟩ := hsuspended.waiting
  · exact ⟨_, List.mem_cons_self, (h.readable t cell hreadable).2 hnone⟩
  · exact ⟨_, List.mem_cons_of_mem _ List.mem_cons_self, (h.writable t cell hwritable).2 hnone⟩

/-- `close_stream` of a stream that is not one of those opened and not used. -/
theorem StreamRegistered.released {cell : Cell} (h : s.StreamRegistered id) (hused : id ∉ s.conn.state.registerOutgoingStreamIds)
    (hclose : s.conn.closeStream quiche id = (c', .ok ())) (hsuspended : s.Suspended id cell) :
    c'.mediator.reasons cell = .cancel := by
  obtain ⟨event, hmem, hlookup⟩ := h.lookup hsuspended
  have hcancel : Reason.cancel ≠ .none := by simp
  have hnotified := h.wellFormed.notified_by_all hcancel hmem hlookup
  rw [closeStream_used hused hclose]
  rw [(h.wellFormed.notifyAll _).reasons_notify (hnotified.symm ▸ hcancel)]
  exact hnotified

/-- The step in which `close_stream` returns `Ok`. -/
theorem closed_of_step {r i fuel : Nat} {order : List StreamId} (hs : s.step quiche (r, .task i fuel order) = some s')
    (hi : s.calls i = .lock (.closeStream id)) (hok : s'.calls i = .returned (.unit (.ok ()))) :
    s.conn.closeStream quiche id = (s'.conn, .ok ()) := by
  cases step_cases hs with
  | @passed _ _ _ _ op conn call hi' hpass =>
    rw [hi] at hi'
    obtain rfl : .closeStream id = op := Call.lock.inj hi'
    rcases hclose : s.conn.closeStream quiche id with ⟨c₁, result⟩
    simp only [Op.pass, hclose, Option.some.injEq, Prod.mk.injEq] at hpass
    obtain ⟨rfl, rfl⟩ := hpass
    simp only [setCall, Function.update_self, Call.returned.injEq, Return.unit.injEq] at hok
    rw [hok]
    rfl
  | retried hi' | cancelled hi' | shutdown hi' =>
    rw [hi] at hi'
    cases hi'

/-- In every run with at most one task suspended in each direction of the stream: when `close_stream` returns `Ok`, every
    task that was suspended in `stream_send` or `stream_recv` of the stream has been notified with `Cancel` exactly if the
    stream was not one of those that were opened here and not used, or nobody was suspended on it. -/
theorem close_releases_iff (quiche : Quiche Q) (now pingTimeout : Nanos) (q : Q) (first id : StreamId) (s s' : ConnCalls Q)
    (h : Reaches (callStep quiche) (KeepsOnePerDirection quiche id) { conn := .new quiche now q pingTimeout first } s)
    (r i fuel : Nat) (order : List StreamId) (hs : s.step quiche (r, .task i fuel order) = some s')
    (hi : s.calls i = .lock (.closeStream id)) (hok : s'.calls i = .returned (.unit (.ok ()))) :
    (∀ cell, s.Suspended id cell → s'.conn.mediator.reasons cell = .cancel) ↔
      id ∉ s.conn.state.registerOutgoingStreamIds ∨ ∀ cell, ¬s.Suspended id cell := by
  have hclose := closed_of_step hs hi hok
  by_cases hunused : id ∈ s.conn.state.registerOutgoingStreamIds
  · have hmediator := closeStream_unused hunused hclose
    constructor
    · refine fun hcancelled => Or.inr fun cell hsuspended => ?_
      have hcancel := hcancelled cell hsuspended
      rw [hmediator, hsuspended.waiting.1] at hcancel
      cases hcancel
    · intro hcases cell hsuspended
      obtain hused | hnobody := hcases
      · exact absurd hunused hused
      · exact absurd hsuspended (hnobody cell)
  · refine iff_of_true (fun cell hsuspended => ?_) (Or.inl hunused)
    exact (streamRegistered_of_reaches h).released hunused hclose hsuspended

/-- A step after which no task but the first call is suspended. -/
theorem keepsOnePerDirection_of_first {a : CallAction} (hs : s.callStep quiche a = some s')
    (hreaders : ∀ r, s'.readers r = .idle) (hcalls : ∀ i, (s'.calls (i + 1)).waiting s'.conn.scid = none) :
    KeepsOnePerDirection quiche id s a := by
  intro s'' hs''
  obtain rfl := Option.some.inj (hs.symm.trans hs'')
  exact ⟨oneWaiterFor_of_first hreaders hcalls _, oneWaiterFor_of_first hreaders hcalls _⟩

/-- A connection on which the peer has sent a byte and the end of stream 4 before. -/
def startedConn : QuicConnState FinSample := .new FinSample.quiche 0 { unread := [4] } 1000000000 5

/-- A task reads the stream, another one waits for more, and the stream is to be closed. -/
def startedRun : List CallAction :=
  [.conn (0, .call 1 (.loop (.streamRecv 4 16))), .conn (0, .task 1 0 []), .conn (0, .call 0 (.loop (.streamRecv 4 16))),
    .conn (0, .task 0 0 []), .conn (0, .call 2 (.closeStream 4))]

theorem close_releases_started :
    ∃ s s', run (callStep FinSample.quiche) { conn := startedConn } startedRun = some s ∧
      s.step FinSample.quiche (0, .task 2 0 []) = some s' ∧ s.Suspended 4 0 ∧ s'.conn.mediator.reasons 0 = .cancel := by
  have hreaches : Reaches (callStep FinSample.quiche) (KeepsOnePerDirection FinSample.quiche 4) { conn := startedConn } _ := .refl
  have hreaches := hreaches.step (a := startedRun[0])
    (keepsOnePerDirection_of_first rfl (by rintro (_ | r) <;> rfl) (by rintro (_ | i) <;> rfl)) rfl
  have hreaches := hreaches.step (a := startedRun[1])
    (keepsOnePerDirection_of_first rfl (by rintro (_ | r) <;> rfl) (by rintro (_ | i) <;> rfl)) rfl
  have hreaches := hreaches.step (a := startedRun[2])
    (keepsOnePerDirection_of_first rfl (by rintro (_ | r) <;> rfl) (by rintro (_ | i) <;> rfl)) rfl
  have hreaches := hreaches.step (a := startedRun[3])
    (keepsOnePerDirection_of_first rfl (by rintro (_ | r) <;> rfl) (by rintro (_ | i) <;> rfl)) rfl
  have hreaches := hreaches.step (a := startedRun[4])
    (keepsOnePerDirection_of_first rfl (by rintro (_ | r) <;> rfl) (by rintro (_ | _ | i) <;> rfl)) rfl
  have hiff := close_releases_iff FinSample.quiche 0 1000000000 { unread := [4] } 5 4 _ _ hreaches 0 2 0 [] rfl rfl rfl
  refine ⟨_, _, rfl, rfl, ⟨0, .streamRecv 4 16, rfl, rfl, rfl⟩, ?_⟩
  exact hiff.mpr (Or.inl (Finset.notMem_empty 4)) 0 ⟨0, .streamRecv 4 16, rfl, rfl, rfl⟩

/-- The server opens a stream, a task waits for what the peer sends on it, and the stream is to be closed. -/
def unusedRun : List CallAction :=
  [.conn (0, .call 1 .openStream), .conn (0, .task 1 0 []), .conn (0, .call 0 (.loop (.streamRecv 5 16))),
    .conn (0, .task 0 0 []), .conn (0, .call 2 (.closeStream 5))]

theorem close_leaves_waiting :
    ∃ s s', Reaches (callStep FinSample.quiche) (KeepsOnePerDirection FinSample.quiche 5) { conn := FinSample.conn } s ∧
      s.step FinSample.quiche (0, .task 2 0 []) = some s' ∧ s.calls 2 = .lock (.closeStream 5) ∧
      s'.calls 2 = .returned (.unit (.ok ())) ∧ s.Suspended 5 0 ∧ s'.conn.mediator.reasons 0 = .none := by
  have hreaches : Reaches (callStep FinSample.quiche) (KeepsOnePerDirection FinSample.quiche 5) { conn := FinSample.conn } _ :=
    .refl
  have hreaches := hreaches.step (a := unusedRun[0])
    (keepsOnePerDirection_of_first rfl (by rintro (_ | r) <;> rfl) (by rintro (_ | i) <;> rfl)) rfl
  have hreaches := hreaches.step (a := unusedRun[1])
    (keepsOnePerDirection_of_first rfl (by rintro (_ | r) <;> rfl) (by rintro (_ | i) <;> rfl)) rfl
  have hreaches := hreaches.step (a := unusedRun[2])
    (keepsOnePerDirection_of_first rfl (by rintro (_ | r) <;> rfl) (by rintro (_ | i) <;> rfl)) rfl
  have hreaches := hreaches.step (a := unusedRun[3])
    (keepsOnePerDirection_of_first rfl (by rintro (_ | r) <;> rfl) (by rintro (_ | i) <;> rfl)) rfl
  have hreaches := hreaches.step (a := unusedRun[4])
    (keepsOnePerDirection_of_first rfl (by rintro (_ | r) <;> rfl) (by rintro (_ | _ | i) <;> rfl)) rfl
  exact ⟨_, _, hreaches, rfl, rfl, rfl, ⟨0, .streamRecv 5 16, rfl, rfl, rfl⟩, rfl⟩

end ConnCalls

end Hala.Quic
