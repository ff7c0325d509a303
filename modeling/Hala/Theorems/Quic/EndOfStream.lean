import Hala.Quic.QuicStream
import Hala.Theorems.Quic.Closed
import Hala.Theorems.Quic.StreamClose
import Hala.Theorems.Quic.Kept

/-! What `poll_read` answers once a stream has been read to its end.

`stream_recv` returns the end of a stream with the last data, and `poll_read` drops it. The next `stream_recv` waits for
data that will not come, as long as the stream is open for sending; only an error with the kind `BrokenPipe` becomes the
end of the stream. -/

namespace Hala.Quic
open Machine
variable {Q : Type} {quiche : Quiche Q} {c c' : QuicConnState Q}

/-- What `quiche` does with a stream whose end has been read: `finRead`, for good. Its `stream_recv` has nothing more to
    give while the stream is open for sending, and does not know the stream when it is finished on both sides. -/
structure EndsStreams (quiche : Quiche Q) (finRead sendOpen : Q → StreamId → Prop) : Prop where
  fin : ∀ q q' id size data, quiche.streamRecv q id size = (q', .ok (data, true)) → finRead q' id
  kept : ∀ id, KeptByCalls quiche (finRead · id)
  done : ∀ q id size, finRead q id → 0 < size → sendOpen q id → (quiche.streamRecv q id size).2 = .error .done
  finished : ∀ q id size, finRead q id → 0 < size → ¬sendOpen q id →
    (quiche.streamRecv q id size).2 = .error (.invalidStreamState id)

/-! ### Streams that have been read to their end -/

theorem streamRecvWait_not_ret {α : Type} {id : StreamId} {a : α} :
    (c.streamRecvWait quiche id : QuicConnState Q × Flow (Except IoError α)).2 ≠ .ret (.ok a) := by
  unfold QuicConnState.streamRecvWait
  split <;> intro h <;> cases h

section Ended
variable {finRead sendOpen : Q → StreamId → Prop} (hend : EndsStreams quiche finRead sendOpen)
include hend

/-- A pass of `stream_recv` that returns the end of a stream has it from `quiche`. -/
theorem EndsStreams.received {id : StreamId} {size : Nat} {data : Bytes}
    (h : c.streamRecv quiche id size = (c', .ret (.ok (data, true)))) : finRead c'.state.quicheConn id := by
  unfold QuicConnState.streamRecv at h
  split at h
  · cases h
  split at h
  · cases h
  split at h
  · next q data' heq =>
    split at h
    · cases h
    · next hreadable =>
      cases h
      rw [state_of_readable hreadable]
      exact (hend.kept id).streamEvents (hend.fin _ q id size data heq)
  · exact absurd (congrArg Prod.snd h) streamRecvWait_not_ret
  · dsimp only at h
    split at h
    · exact absurd (congrArg Prod.snd h) streamRecvWait_not_ret
    · cases h
  · cases h

theorem EndsStreams.finished_pass {fuel : Nat} {order : List StreamId} {op : Op} {call : Call} {id : StreamId}
    (hpass : op.pass quiche fuel order c = some (c', call)) (hid : id ∈ op.finished call) : finRead c'.state.quicheConn id := by
  unfold Op.finished at hid
  split at hid
  · next id' size data =>
    obtain rfl := List.mem_singleton.mp hid
    rcases hflow : c.streamRecv quiche id size with ⟨c₁, (err | ⟨data', fin⟩) | _ | ⟨cell, expired⟩⟩ <;>
      simp only [Op.pass, hflow, Flow.toCall, Option.some.injEq, Prod.mk.injEq, Call.returned.injEq, Return.data.injEq,
        Except.ok.injEq, reduceCtorEq, and_false] at hpass
    obtain ⟨rfl, rfl, rfl⟩ := hpass
    exact hend.received hflow
  · cases hid

end Ended

namespace ConnCalls
variable {s s' : ConnCalls Q} {finRead sendOpen : Q → StreamId → Prop}

theorem StepCases.finished {a : Nat × ConnAction} (hend : EndsStreams quiche finRead sendOpen) (h : StepCases quiche s a s')
    {id : StreamId} (hid : id ∈ s.finished quiche (.conn a)) : finRead s'.conn.state.quicheConn id := by
  cases h with
  | passed hi hpass =>
    simp only [ConnCalls.finished, ConnCalls.passed, hi, hpass, Option.map_some] at hid
    exact hend.finished_pass hpass hid
  | retried hi | cancelled hi | shutdown hi => simp [ConnCalls.finished, ConnCalls.passed, hi] at hid
  | elapsed | calledRead | readPassed | readResolved | readExpired | timedOut | called =>
    simp [ConnCalls.finished, ConnCalls.passed] at hid

/-- The streams that have been read to their end are so in `quiche`. -/
def AllRead (finRead : Q → StreamId → Prop) (s : ConnCalls Q) (past : List StreamId) : Prop :=
  ∀ id ∈ past, finRead s.conn.state.quicheConn id

theorem AllRead.step (hend : EndsStreams quiche finRead sendOpen) {past : List StreamId} {a : CallAction}
    (h : AllRead finRead s past) (hs : s.callStep quiche a = some s') :
    AllRead finRead s' ((s.finished quiche a).reverse ++ past) := by
  intro id hid
  cases a with
  | conn a =>
    rcases List.mem_append.mp hid with hid | hid
    · exact (step_cases hs).finished hend (List.mem_reverse.mp hid)
    · exact (step_cases hs).kept (hend.kept id) (h id hid)
  | drop i =>
    have hconn : s'.conn = s.conn := by
      simp only [callStep] at hs
      split at hs <;> cases hs
      rfl
    rw [hconn]
    exact h id hid

theorem allRead_of_reachable (hend : EndsStreams quiche finRead sendOpen) {init : ConnCalls Q} {s : ConnCalls Q × List StreamId}
    (h : Reachable (traced (callStep quiche) (ConnCalls.finished quiche)) (init, []) s) : AllRead finRead s.1 s.2 := by
  induction h with
  | refl => exact fun id hid => by cases hid
  | step _ _ hs ih =>
    obtain ⟨s₁, hs₁, rfl⟩ := Option.map_eq_some_iff.mp hs
    exact ih.step hend hs₁

end ConnCalls

/-! ### `poll_read` after the end -/

theorem brokenPipe_of_status_error {err : IoError} (h : c.handleQuicConnStatus quiche = (c', .error err)) :
    err.kind = .brokenPipe := by
  unfold QuicConnState.handleQuicConnStatus at h
  split at h <;> cases h
  rfl

theorem brokenPipe_of_stream_error {id : StreamId} {err : IoError} (h : c.handleStreamStatus id = .error err) :
    err.kind = .brokenPipe := by
  unfold QuicConnState.handleStreamStatus at h
  split at h <;> cases h
  rfl

theorem status_of_live (hlive : c.isGone quiche = false) : c.handleQuicConnStatus quiche = (c, .ok ()) := by
  unfold QuicConnState.handleQuicConnStatus
  rw [if_neg (by simp [hlive])]

/-- `stream_recv_wait` waits on a connection that is there. -/
theorem streamRecvWait_of_live {α : Type} {id : StreamId} (hlive : c.isGone quiche = false) :
    ∃ cell, (c.streamRecvWait quiche id : QuicConnState Q × Flow (Except IoError α)).2 = .wait cell none := by
  unfold QuicConnState.streamRecvWait QuicConnState.notifyReadable
  rw [status_of_live hlive]
  exact ⟨_, rfl⟩

/-- What tells the reader of a stream that has been read to its end that there is no more: the connection is gone, the
    stream has been closed and is half closed, or it is finished on both sides and has not been opened here unused. -/
def QuicConnState.TellsEnd (quiche : Quiche Q) (sendOpen : Q → StreamId → Prop) (c : QuicConnState Q) (id : StreamId) : Prop :=
  c.isGone quiche = true ∨ id ∈ c.state.halfClosedStreams ∨
    (¬sendOpen c.state.quicheConn id ∧ id ∉ c.state.registerOutgoingStreamIds)

section Polls
variable {finRead sendOpen : Q → StreamId → Prop} (hend : EndsStreams quiche finRead sendOpen) {id : StreamId} {size : Nat}
include hend

theorem EndsStreams.broken (hfin : finRead c.state.quicheConn id) (hsize : 0 < size) (htells : c.TellsEnd quiche sendOpen id) :
    ∃ err, (c.streamRecv quiche id size).2 = .ret (.error err) ∧ err.kind = .brokenPipe := by
  unfold QuicConnState.streamRecv
  split
  · next err hstatus => exact ⟨err, rfl, brokenPipe_of_status_error hstatus⟩
  next c₁ hstatus =>
  obtain ⟨rfl, hlive⟩ := live_of_status_ok hstatus
  split
  · next err hstream => exact ⟨err, rfl, brokenPipe_of_stream_error hstream⟩
  next hstream =>
  obtain hgone | hhalf | ⟨hsent, hunused⟩ := htells
  · rw [hlive] at hgone
    cases hgone
  · exact absurd hhalf (not_halfClosed_of_ok hstream)
  · have hinvalid := hend.finished _ id size hfin hsize hsent
    rcases hrecv : quiche.streamRecv c₁.state.quicheConn id size with ⟨q, result⟩
    rw [hrecv] at hinvalid
    obtain rfl : result = .error (.invalidStreamState id) := hinvalid
    have hunused' : id ∉ (c₁.setQuiche q).state.registerOutgoingStreamIds := hunused
    simp only [hunused', if_false]
    exact ⟨_, rfl, rfl⟩

theorem EndsStreams.waits (hgone : GoneForGood quiche) (hfin : finRead c.state.quicheConn id) (hsize : 0 < size)
    (htells : ¬c.TellsEnd quiche sendOpen id) : ∃ cell, (c.streamRecv quiche id size).2 = .wait cell none := by
  obtain ⟨hlive, hhalf, hopen⟩ : c.isGone quiche = false ∧ id ∉ c.state.halfClosedStreams ∧
      (sendOpen c.state.quicheConn id ∨ id ∈ c.state.registerOutgoingStreamIds) := by
    simpa [QuicConnState.TellsEnd, imp_iff_not_or] using htells
  have hsame := hgone.streamRecv c.state.quicheConn id size
  rcases hrecv : quiche.streamRecv c.state.quicheConn id size with ⟨q, result⟩
  rw [hrecv] at hsame
  have hlive' : (c.setQuiche q).isGone quiche = false := hsame.trans hlive
  have hstream : c.handleStreamStatus id = .ok () := if_neg hhalf
  unfold QuicConnState.streamRecv
  simp only [status_of_live hlive, hstream, hrecv]
  by_cases hsend : sendOpen c.state.quicheConn id
  · have hdone := hend.done _ id size hfin hsize hsend
    rw [hrecv] at hdone
    obtain rfl : result = .error .done := hdone
    exact streamRecvWait_of_live ((isGone_handleStreamEvents hgone _).trans hlive')
  · have hinvalid := hend.finished _ id size hfin hsize hsend
    rw [hrecv] at hinvalid
    obtain rfl : result = .error (.invalidStreamState id) := hinvalid
    have hunused : id ∈ (c.setQuiche q).state.registerOutgoingStreamIds := hopen.resolve_left hsend
    simp only [hunused, if_true]
    exact streamRecvWait_of_live hlive'

/-- `poll_read` of a stream that has been read to its end answers `Ready(Ok(0))`, or waits. -/
theorem EndsStreams.pollRead_iff (hgone : GoneForGood quiche) (hfin : finRead c.state.quicheConn id) (hsize : 0 < size)
    (locked : Bool) :
    (QuicStream.pollRead quiche id size locked c).2 = .ready (.ok []) ↔
      locked = false ∧ c.TellsEnd quiche sendOpen id := by
  unfold QuicStream.pollRead
  cases locked with
  | true => simp
  | false =>
    rcases hflow : c.streamRecv quiche id size with ⟨c₁, flow⟩
    by_cases htells : c.TellsEnd quiche sendOpen id
    · obtain ⟨err, herr, hkind⟩ := hend.broken hfin hsize htells
      rw [hflow] at herr
      obtain rfl : flow = .ret (.error err) := herr
      simp [hkind, htells]
    · obtain ⟨cell, hwait⟩ := hend.waits hgone hfin hsize htells
      rw [hflow] at hwait
      obtain rfl : flow = .wait cell none := hwait
      simp [htells]

end Polls

theorem pollRead_fst (id : StreamId) (size : Nat) :
    (QuicStream.pollRead quiche id size false c).1 = (c.streamRecv quiche id size).1 := by
  unfold QuicStream.pollRead
  rw [if_neg Bool.false_ne_true]
  rcases c.streamRecv quiche id size with ⟨c₁, (err | data) | _ | ⟨cell, expired⟩⟩ <;> rfl

/-- A `poll_read` that has the lock is a call of `stream_recv` that makes a pass and is dropped. -/
theorem ConnCalls.pollRead_steps (s : ConnCalls Q) {i : Nat} (hi : s.calls i = .idle) (id : StreamId) (size : Nat) :
    run (callStep quiche) s [.conn (0, .call i (.loop (.streamRecv id size))), .conn (0, .task i 0 []), .drop i] =
      some { s with conn := (QuicStream.pollRead quiche id size false s.conn).1 } := by
  let op := LoopOp.streamRecv id size
  let c' := (s.conn.streamRecv quiche id size).1
  let call := (s.conn.streamRecv quiche id size).2.toCall op .data
  have hcall : callStep quiche s (.conn (0, .call i (.loop op))) = some (s.setCall i (.lock (.loop op))) := by
    simp [callStep, ConnCalls.step, ConnTasks.step, view, hi, setCall, ConnTasks.setCall]
  have htask : callStep quiche (s.setCall i (.lock (.loop op))) (.conn (0, .task i 0 [])) =
      some ({ s with conn := c' }.setCall i call) := by
    simp [callStep, ConnCalls.step, ConnTasks.step, ConnTasks.taskStep, Op.pass, view, setCall, ConnTasks.setCall, op, c',
      call]
  have hdrop : callStep quiche ({ s with conn := c' }.setCall i call) (.drop i) = some { s with conn := c' } := by
    have hidle : Function.update s.calls i .idle = s.calls := by rw [← hi, Function.update_eq_self]
    have hnot : ∀ id result, call ≠ .shutdown id result := by
      intro id' result
      rcases hflow : (s.conn.streamRecv quiche id size).2 with _ | _ | _ <;> simp [call, hflow, Flow.toCall]
    simp only [callStep, setCall, Function.update_self]
    rw [Function.update_idem, hidle]
  simp only [run, runIf, if_true, hcall, htask, hdrop, Option.bind_some, pollRead_fst, op, c']

/-- In every run, once `stream_recv` has returned the end of a stream: a `poll_read` of it with a buffer that is not empty
    answers `Ready(Ok(0))` exactly if it has the lock and the connection is gone, the stream is half closed, or `quiche`
    has finished it in both directions and it is not one that was opened here and not used. -/
theorem end_stays_reported_iff (hgone : GoneForGood quiche) {finRead sendOpen : Q → StreamId → Prop}
    (hend : EndsStreams quiche finRead sendOpen) (now pingTimeout : Nanos) (q : Q) (first : StreamId) (s : ConnCalls Q)
    (past : List StreamId)
    (h : Reachable (traced (ConnCalls.callStep quiche) (ConnCalls.finished quiche))
      ({ conn := .new quiche now q pingTimeout first }, []) (s, past))
    (id : StreamId) (hid : id ∈ past) (size : Nat) (hsize : 0 < size) (locked : Bool) :
    (QuicStream.pollRead quiche id size locked s.conn).2 = .ready (.ok []) ↔
      locked = false ∧ s.conn.TellsEnd quiche sendOpen id :=
  hend.pollRead_iff hgone (ConnCalls.allRead_of_reachable hend h id hid) hsize locked

namespace FinSample

theorem goneForGood : GoneForGood FinSample.quiche where
  recv _ _ _ h := h
  send q _ h := by
    simp only [FinSample.quiche]
    split <;> exact h
  close _ _ _ _ h := h
  onTimeout _ _ h := h
  send_error _ _ _ _ _ := rfl
  readableNext _ := rfl
  writableNext _ := rfl
  streamSend _ _ _ _ := rfl
  streamRecv _ _ _ := rfl
  shutdownRead _ _ _ := rfl
  sendAckEliciting _ := rfl

def finRead (q : FinSample) (id : StreamId) : Prop := id ∈ q.read ∧ id ∉ q.unread

def sendOpen (q : FinSample) (id : StreamId) : Prop := id ∉ q.sent

theorem finRead_frame {q : FinSample} {id : StreamId} (buf : Bytes) (h : q.finRead id) : (q.frame buf).finRead id := by
  unfold frame
  split
  · next id' _ =>
    split
    · exact h
    · next hnew =>
      have hne : id ≠ id'.toNat := by
        rintro rfl
        exact hnew h.1
      exact ⟨h.1, fun hmem => h.2 (List.mem_of_ne_of_mem hne hmem)⟩
  · exact h

theorem finRead_kept (id : StreamId) : KeptByCalls FinSample.quiche (finRead · id) where
  recv _ _ _ h := finRead_frame _ h
  send q _ h := by
    simp only [FinSample.quiche]
    split <;> exact h
  readableNext q h := by
    simp only [FinSample.quiche]
    split <;> exact h
  writableNext _ h := h
  streamSend _ _ _ _ h := h
  streamRecv q id' _ h := by
    simp only [FinSample.quiche]
    split
    · exact ⟨List.mem_cons_of_mem _ h.1, fun hmem => h.2 (List.mem_of_mem_filter hmem)⟩
    · split <;> exact h
  shutdownRead _ _ _ h := h
  close _ _ _ _ h := h
  sendAckEliciting _ h := h
  onTimeout _ _ h := h

theorem endsStreams : EndsStreams FinSample.quiche finRead sendOpen where
  fin q q' id size data h := by
    simp only [FinSample.quiche] at h
    split at h
    · cases h
      exact ⟨List.mem_cons_self, by simp⟩
    · split at h <;> cases h
  kept := finRead_kept
  done q id _ h _ hopen := by
    have hsent : id ∉ q.sent := hopen
    simp [FinSample.quiche, h.1, h.2, hsent]
  finished q id _ h _ hopen := by
    have hsent : id ∈ q.sent := not_not.mp hopen
    simp [FinSample.quiche, h.1, h.2, hsent]

end FinSample

namespace ConnCalls

/-- The peer sends a byte and the end of stream 4, and the server accepts the stream and reads it once. -/
def readToEnd : List CallAction :=
  [.conn (0, .call 0 (.write (StreamSample.packet [0x0b, 4, 1, 7]) (Sample.loopback 5000))), .conn (0, .task 0 1 []),
    .conn (0, .call 1 (.loop .accept)), .conn (0, .task 1 0 []), .conn (0, .call 2 (.loop (.streamRecv 4 16))),
    .conn (0, .task 2 0 []), .drop 2]

/-- The server ends the stream as well. -/
def readToEndAndEnd : List CallAction :=
  readToEnd ++ [.conn (0, .call 3 (.loop (.streamSend 4 [] true))), .conn (0, .task 3 0 [])]

theorem end_stays_reported_finished :
    ∃ s, run (traced (callStep FinSample.quiche) (ConnCalls.finished FinSample.quiche)) ({ conn := FinSample.conn }, [])
        readToEndAndEnd = some (s, [4]) ∧
      (QuicStream.pollRead FinSample.quiche 4 16 false s.conn).2 = .ready (.ok []) := by
  refine ⟨_, rfl, ?_⟩
  have hreachable : Reachable (traced (callStep FinSample.quiche) (ConnCalls.finished FinSample.quiche))
      ({ conn := FinSample.conn }, []) _ := .of_run readToEndAndEnd rfl
  have hiff := end_stays_reported_iff FinSample.goneForGood FinSample.endsStreams 0 1000000000 {} 5 _ _ hreachable 4
    (List.mem_singleton_self 4) 16 (by decide) false
  refine hiff.mpr ⟨rfl, Or.inr (Or.inr ⟨fun hopen => hopen List.mem_cons_self, Finset.notMem_empty 4⟩)⟩

theorem end_unreported_while_open :
    GoneForGood FinSample.quiche ∧ EndsStreams FinSample.quiche FinSample.finRead FinSample.sendOpen ∧
      ∃ s, Reachable (traced (callStep FinSample.quiche) (ConnCalls.finished FinSample.quiche)) ({ conn := FinSample.conn }, [])
          (s, [4]) ∧
        (QuicStream.pollRead FinSample.quiche 4 16 false s.conn).2 = .pending :=
  ⟨FinSample.goneForGood, FinSample.endsStreams, _, .of_run readToEnd rfl, rfl⟩

end ConnCalls

end Hala.Quic
