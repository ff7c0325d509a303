import Hala.Quic.Sample
import Hala.Theorems.Quic.Waiters

/-! A connection that is gone leaves nobody waiting.

The operations that can suspend look at the status of the connection and register their `Wait` under one lock, so a
task that is registered while the connection is still there is found by the first operation that sees it gone. -/

namespace Hala.Quic
open Machine
variable {Q : Type} {quiche : Quiche Q} {c c' c'' : QuicConnState Q}

/-- That a connection is closed, draining or timed out is for good, and comes about in `recv`, in a `send` that
    returns a packet, in `close` and in `on_timeout` only. -/
structure GoneForGood (quiche : Quiche Q) : Prop where
  recv : ∀ q buf info, QuicConnState.gone quiche q = true → QuicConnState.gone quiche (quiche.recv q buf info).1 = true
  send : ∀ q size, QuicConnState.gone quiche q = true → QuicConnState.gone quiche (quiche.send q size).1 = true
  close : ∀ q app err reason, QuicConnState.gone quiche q = true →
    QuicConnState.gone quiche (quiche.close q app err reason).1 = true
  onTimeout : ∀ q now, QuicConnState.gone quiche q = true → QuicConnState.gone quiche (quiche.onTimeout q now) = true
  send_error : ∀ q q' size err, quiche.send q size = (q', .error err) →
    QuicConnState.gone quiche q' = QuicConnState.gone quiche q
  readableNext : ∀ q, QuicConnState.gone quiche (quiche.streamReadableNext q).1 = QuicConnState.gone quiche q
  writableNext : ∀ q, QuicConnState.gone quiche (quiche.streamWritableNext q).1 = QuicConnState.gone quiche q
  streamSend : ∀ q id buf fin, QuicConnState.gone quiche (quiche.streamSend q id buf fin).1 = QuicConnState.gone quiche q
  streamRecv : ∀ q id size, QuicConnState.gone quiche (quiche.streamRecv q id size).1 = QuicConnState.gone quiche q
  shutdownRead : ∀ q id err, QuicConnState.gone quiche (quiche.streamShutdownRead q id err).1 = QuicConnState.gone quiche q
  sendAckEliciting : ∀ q, QuicConnState.gone quiche (quiche.sendAckEliciting q).1 = QuicConnState.gone quiche q

/-! ### The functions that the operations share -/

theorem isGone_of_status {result : Except IoError Unit} (h : c.handleQuicConnStatus quiche = (c', result)) :
    c'.isGone quiche = c.isGone quiche := by
  rw [QuicConnState.isGone, state_of_status h]

theorem isGone_of_readable {result : Except IoError Unit} (h : c.notifyReadable quiche = (c', result)) :
    c'.isGone quiche = c.isGone quiche := by
  rw [QuicConnState.isGone, state_of_readable h]

section
variable (hgone : GoneForGood quiche)
include hgone

theorem isGone_handleStreamEvents (c : QuicConnState Q) : (c.handleStreamEvents quiche).isGone quiche = c.isGone quiche := by
  have hreadable := hgone.readableNext c.state.quicheConn
  obtain hconn | hconn := quicheConn_handleStreamEvents quiche c
  · rw [QuicConnState.isGone, hconn, hreadable]
  · rw [QuicConnState.isGone, hconn, hgone.writableNext, hreadable]

theorem isGone_dropStreams (c : QuicConnState Q) (ids : List StreamId) :
    (c.dropStreams quiche ids).1.isGone quiche = c.isGone quiche := by
  induction ids generalizing c with
  | nil => rfl
  | cons id ids ih =>
    have hsend := hgone.streamSend c.state.quicheConn id [] true
    rw [QuicConnState.dropStreams]
    split
    · next heq =>
      rw [heq] at hsend
      exact (ih _).trans hsend
    · next heq =>
      rw [heq] at hsend
      exact (ih _).trans hsend

theorem isGone_handleDroppingStreams (c : QuicConnState Q) :
    (c.handleDroppingStreams quiche).isGone quiche = c.isGone quiche :=
  isGone_dropStreams hgone { c with state := { c.state with droppingStreamQueue := [] } } c.state.droppingStreamQueue

theorem isGone_handleSendTimout {now : Nanos} {result : Except IoError (Option Nanos)}
    (h : c.handleSendTimout quiche now = (c', result)) : c'.isGone quiche = c.isGone quiche := by
  have hping := hgone.sendAckEliciting c.state.quicheConn
  unfold QuicConnState.handleSendTimout at h
  dsimp only at h
  split at h
  · split at h
    · next heq =>
      rw [heq] at hping
      cases h
      exact hping
    · next heq =>
      rw [heq] at hping
      cases h
      exact hping
  · split at h <;> cases h <;> rfl

end

/-! ### The operations -/

/-- What a pass does where the connection is gone: it stays gone, nobody is registered, and a pass that fails has
    emptied the map. -/
structure PassGone (quiche : Quiche Q) (c c' : QuicConnState Q) (waiting : Option (ConnEvent × Cell)) (failed : Bool) :
    Prop where
  kept : c.isGone quiche = true → c'.isGone quiche = true
  live : c.isGone quiche = true → waiting = none
  emptied : failed = true → c'.isGone quiche = true → c'.mediator.Empty

variable {waiting : Option (ConnEvent × Cell)} {failed : Bool}

theorem PassGone.of_live (hlive : c.isGone quiche = false)
    (h : failed = true → c'.isGone quiche = true → c'.mediator.Empty) : PassGone quiche c c' waiting failed := by
  refine ⟨fun hc => ?_, fun hc => ?_, h⟩
  · rw [hlive] at hc
    cases hc
  · rw [hlive] at hc
    cases hc

/-- A pass after the status check that leaves the connection as it was. -/
theorem PassGone.of_same (hlive : c.isGone quiche = false) (hsame : c'.isGone quiche = c.isGone quiche) :
    PassGone quiche c c' waiting failed := by
  refine .of_live hlive fun _ hc => ?_
  rw [hsame, hlive] at hc
  cases hc

/-- A pass that ends with a status check that fails. -/
theorem PassGone.of_empty (hkept : c.isGone quiche = true → c'.isGone quiche = true) (h : c'.mediator.Empty) :
    PassGone quiche c c' none failed :=
  ⟨hkept, fun _ => rfl, fun _ _ => h⟩

theorem PassGone.of_status_error {err : IoError} (h : c.handleQuicConnStatus quiche = (c', .error err)) :
    PassGone quiche c c' none failed := by
  obtain ⟨hstate, ⟨hok, -⟩ | ⟨-, hempty, -⟩⟩ := status_cases h
  · cases hok
  · exact .of_empty (fun hc => by rwa [QuicConnState.isGone, hstate]) hempty

theorem write_gone {fuel : Nat} {order : List StreamId} {buf : Bytes} {info : PathInfo} {result : Except IoError Nat}
    (h : c.write quiche fuel order buf info = some (c', result)) :
    PassGone quiche c c' none (Call.returned (.size result)).failed := by
  unfold QuicConnState.write at h
  split at h
  · next hstatus =>
    cases h
    exact .of_status_error hstatus
  next c₁ hstatus =>
  obtain ⟨rfl, hlive⟩ := live_of_status_ok hstatus
  split at h
  · obtain ⟨c₂, -, hc₂⟩ := Option.map_eq_some_iff.mp h
    cases hc₂
    exact .of_live hlive fun hfailed => by cases hfailed
  · split at h <;> cases h
    · next hstatus' =>
      obtain ⟨-, ⟨hok, -⟩ | ⟨-, hempty, -⟩⟩ := status_cases hstatus'
      · cases hok
      · exact .of_live hlive fun _ _ => hempty
    · next hstatus' =>
      obtain ⟨rfl, hlive'⟩ := live_of_status_ok hstatus'
      exact .of_same hlive (hlive'.trans hlive.symm)

theorem PassGone.streamRecvWait {α : Type} (hlive : c.isGone quiche = false) (hsame : c'.isGone quiche = c.isGone quiche)
    (id : StreamId) : PassGone quiche c (c'.streamRecvWait quiche id : QuicConnState Q × Flow (Except IoError α)).1 waiting failed := by
  unfold QuicConnState.streamRecvWait
  split
  · next hreadable => exact .of_same hlive ((isGone_of_readable hreadable).trans hsame)
  · next hreadable => exact .of_same hlive ((isGone_of_readable hreadable).trans hsame)

section
variable (hgone : GoneForGood quiche)
include hgone

theorem read_gone (now : Nanos) (size : Nat) :
    PassGone quiche c (c.read quiche now size).1 ((c.read quiche now size).2.waiting (.readable c.scid))
      ((c.read quiche now size).2.toReader size).failed := by
  unfold QuicConnState.read
  split
  · next hstatus => exact .of_status_error hstatus
  next c₁ hstatus =>
  obtain ⟨rfl, hlive⟩ := live_of_status_ok hstatus
  have hdropped := isGone_handleDroppingStreams hgone c₁
  dsimp only
  split
  · exact .of_live hlive fun hfailed => by cases hfailed
  · next q hsend =>
    have hsent : ((c₁.handleDroppingStreams quiche).setQuiche q).isGone quiche = c₁.isGone quiche :=
      (hgone.send_error _ _ _ _ hsend).trans hdropped
    split
    · next htimout => exact .of_same hlive ((isGone_handleSendTimout hgone htimout).trans hsent)
    · next htimout => exact .of_same hlive ((isGone_handleSendTimout hgone htimout).trans hsent)
    · next htimout => exact .of_same hlive ((isGone_handleSendTimout hgone htimout).trans hsent)
  · next q err _ hsend =>
    have hsent : ((c₁.handleDroppingStreams quiche).setQuiche q).isGone quiche = c₁.isGone quiche :=
      (hgone.send_error _ _ _ _ hsend).trans hdropped
    split
    · next hstatus' => exact .of_same hlive ((isGone_of_status hstatus').trans hsent)
    · next hstatus' => exact .of_same hlive ((isGone_of_status hstatus').trans hsent)

theorem streamSend_gone (id : StreamId) (buf : Bytes) (fin : Bool) :
    PassGone quiche c (c.streamSend quiche id buf fin).1
      ((c.streamSend quiche id buf fin).2.waiting (.streamWritable c.scid id)) failed := by
  have hsend := hgone.streamSend c.state.quicheConn id buf fin
  unfold QuicConnState.streamSend
  split
  · next hstatus => exact .of_status_error hstatus
  next c₁ hstatus =>
  obtain ⟨rfl, hlive⟩ := live_of_status_ok hstatus
  split
  · exact .of_same hlive rfl
  split
  · next q _ heq =>
    rw [heq] at hsend
    dsimp only
    split
    · next hreadable =>
      exact .of_same hlive ((isGone_of_readable hreadable).trans ((isGone_handleStreamEvents hgone _).trans hsend))
    · next hreadable =>
      exact .of_same hlive ((isGone_of_readable hreadable).trans ((isGone_handleStreamEvents hgone _).trans hsend))
  · next q heq =>
    rw [heq] at hsend
    have hevents : ((c₁.setQuiche q).handleStreamEvents quiche).isGone quiche = c₁.isGone quiche :=
      (isGone_handleStreamEvents hgone _).trans hsend
    split
    · next hreadable => exact .of_same hlive ((isGone_of_readable hreadable).trans hevents)
    · next hreadable => exact .of_same hlive ((isGone_of_readable hreadable).trans hevents)
  · next heq =>
    rw [heq] at hsend
    split
    · next hstatus' => exact .of_same hlive ((isGone_of_status hstatus').trans hsend)
    · next hstatus' => exact .of_same hlive ((isGone_of_status hstatus').trans hsend)

theorem streamRecv_gone (id : StreamId) (size : Nat) :
    PassGone quiche c (c.streamRecv quiche id size).1
      ((c.streamRecv quiche id size).2.waiting (.streamReadable c.scid id)) failed := by
  have hrecv := hgone.streamRecv c.state.quicheConn id size
  unfold QuicConnState.streamRecv
  split
  · next hstatus => exact .of_status_error hstatus
  next c₁ hstatus =>
  obtain ⟨rfl, hlive⟩ := live_of_status_ok hstatus
  split
  · exact .of_same hlive rfl
  split
  · next q _ heq =>
    rw [heq] at hrecv
    have hevents : ((c₁.setQuiche q).handleStreamEvents quiche).isGone quiche = c₁.isGone quiche :=
      (isGone_handleStreamEvents hgone _).trans hrecv
    split
    · next hreadable => exact .of_same hlive ((isGone_of_readable hreadable).trans hevents)
    · next hreadable => exact .of_same hlive ((isGone_of_readable hreadable).trans hevents)
  · next heq =>
    rw [heq] at hrecv
    exact .streamRecvWait hlive ((isGone_handleStreamEvents hgone _).trans hrecv) id
  · next heq =>
    rw [heq] at hrecv
    dsimp only
    split
    · exact .streamRecvWait hlive hrecv id
    · exact .of_same hlive hrecv
  · next heq =>
    rw [heq] at hrecv
    exact .of_same hlive ((isGone_handleStreamEvents hgone _).trans hrecv)

end

theorem accept_gone : PassGone quiche c (c.accept quiche).1 ((c.accept quiche).2.waiting (.accept c.scid)) failed := by
  unfold QuicConnState.accept
  split
  · next hstatus => exact .of_status_error hstatus
  next c₁ hstatus =>
  obtain ⟨rfl, hlive⟩ := live_of_status_ok hstatus
  split
  · exact .of_same hlive rfl
  · exact .of_same hlive rfl

theorem openStream_gone : PassGone quiche c (c.openStream quiche).1 none failed := by
  unfold QuicConnState.openStream
  split
  · next hstatus => exact .of_status_error hstatus
  next c₁ hstatus =>
  obtain ⟨rfl, hlive⟩ := live_of_status_ok hstatus
  exact .of_same hlive rfl

theorem closeStream_gone (id : StreamId) : PassGone quiche c (c.closeStream quiche id).1 none failed := by
  unfold QuicConnState.closeStream
  split
  · next hstatus => exact .of_status_error hstatus
  next c₁ hstatus =>
  obtain ⟨rfl, hlive⟩ := live_of_status_ok hstatus
  split
  · exact .of_same hlive rfl
  · dsimp only
    rcases hreadable : QuicConnState.notifyReadable quiche _ with ⟨c₂, result⟩
    have hsame := isGone_of_readable hreadable
    exact .of_same hlive hsame

theorem readExpired_gone (hgone : GoneForGood quiche) (now : Nanos) :
    PassGone quiche c (c.readExpired quiche now).1 ((c.readExpired quiche now).2.waiting (.readable c.scid)) false := by
  have hping := hgone.sendAckEliciting c.state.quicheConn
  unfold QuicConnState.readExpired
  split
  · split
    · next heq =>
      rw [heq] at hping
      exact ⟨fun hc => hping.trans hc, fun _ => rfl, fun hfailed => by cases hfailed⟩
    · next heq =>
      rw [heq] at hping
      exact ⟨fun hc => hping.trans hc, fun _ => rfl, fun hfailed => by cases hfailed⟩
  · split
    · split
      · exact ⟨fun hc => hgone.onTimeout _ now hc, fun _ => rfl, fun hfailed => by cases hfailed⟩
      · exact ⟨fun hc => hc, fun _ => rfl, fun hfailed => by cases hfailed⟩
    · exact ⟨fun hc => hc, fun _ => rfl, fun hfailed => by cases hfailed⟩

/-- The specification of the operations that look at the status. -/
theorem Op.pass_gone (hgone : GoneForGood quiche) {fuel : Nat} {order : List StreamId} {op : Op} {call : Call}
    (h : op.pass quiche fuel order c = some (c', call)) :
    PassGone quiche c c' (call.waiting c.scid) (op.checksStatus && call.failed) := by
  cases op with
  | write buf info =>
    obtain ⟨⟨c₁, result⟩, hwrite, hc⟩ := Option.map_eq_some_iff.mp h
    cases hc
    exact write_gone hwrite
  | loop op =>
    cases op with
    | streamSend id buf fin =>
      cases h
      rw [Flow.waiting_toCall]
      exact streamSend_gone hgone id buf fin
    | streamRecv id size =>
      cases h
      rw [Flow.waiting_toCall]
      exact streamRecv_gone hgone id size
    | accept =>
      cases h
      rw [Flow.waiting_toCall]
      exact accept_gone
  | openStream =>
    cases h
    exact openStream_gone
  | closeStream id =>
    cases h
    exact closeStream_gone id
  | streamShutdown id err =>
    cases h
    refine ⟨fun hc => ?_, fun _ => rfl, fun hfailed => by cases hfailed⟩
    exact (hgone.shutdownRead _ id err).trans hc
  | close app err reason =>
    cases h
    refine ⟨fun hc => ?_, fun _ => rfl, fun hfailed => by cases hfailed⟩
    have hclosed := hgone.close _ app err reason hc
    split <;>
    · next heq =>
      rw [heq] at hclosed
      exact hclosed

/-! ### Runs -/

namespace ConnCalls
variable {s s' : ConnCalls Q} {a : Nat × ConnAction} {t : TaskId}

/-- A suspended task that waits for the event and has not been notified is found under it. -/
def RegisteredFor (s : ConnCalls Q) (event : ConnEvent) : Prop :=
  ∀ t cell, s.waiting t = some (event, cell) →
    cell < s.conn.mediator.cells ∧
    (s.conn.mediator.reasons cell = .none → s.conn.mediator.wakers.lookup event = some cell)

/-- Every suspended task that has not been notified is found under its event. -/
def Registered (s : ConnCalls Q) : Prop := ∀ event, s.RegisteredFor event

section RegisteredFor
variable {event : ConnEvent}

/-- A task that does not move keeps its entry where its event is kept. -/
theorem RegisteredFor.keeps (h : s.RegisteredFor event) {cell : Cell} {m : EventMap ConnEvent}
    (hwaiting : s.waiting t = some (event, cell)) (hkeeps : EventMap.Keeps event s.conn.mediator m) :
    cell < m.cells ∧ (m.reasons cell = .none → m.wakers.lookup event = some cell) := by
  obtain ⟨hlt, hlookup⟩ := h t cell hwaiting
  exact ⟨hlt.trans_le hkeeps.cells_le, fun hnone => hkeeps.lookup cell hlt hnone (hlookup (hkeeps.none_before cell hlt hnone))⟩

theorem RegisteredFor.step (h : s.RegisteredFor event) (hmoves : Moves s s' t) (hone : s'.OneWaiterFor event) :
    s'.RegisteredFor event := by
  intro t' cell hwaiting
  rcases hmoves.moved with ⟨hconn, hleft⟩ | houtcome
  · have hbefore : s.waiting t' = some (event, cell) := by
      by_cases ht : t' = t
      · subst ht
        rcases hleft with hsame | hnone
        · rw [← hsame, hwaiting]
        · rw [hnone] at hwaiting
          cases hwaiting
      · rw [← hmoves.others t' ht, hwaiting]
    rw [hconn]
    exact h t' cell hbefore
  · generalize hw : s'.waiting t = w at houtcome
    generalize hc : s'.conn = c'' at houtcome
    by_cases ht : t' = t
    · subst ht
      rw [hwaiting] at hw
      subst hw
      cases houtcome with
      | waits _ hnotified => exact ⟨Nat.lt_succ_self _, fun _ => AList.lookup_insert _⟩
    · have hbefore : s.waiting t' = some (event, cell) := by rw [← hmoves.others t' ht, hwaiting]
      cases houtcome with
      | notified hnotified => exact h.keeps hbefore (hnotified.notifies.keeps event)
      | @waits c₁ e hnotified =>
        have hkeeps := hnotified.notifies.keeps event
        by_cases he : event = e
        · -- Two tasks would wait for the event now.
          subst he
          refine ⟨((h.keeps hbefore hkeeps).1).trans (Nat.lt_succ_self _), fun hnone => absurd ?_ ht⟩
          refine hone t' t cell _ hwaiting hw (hc ▸ hnone) ?_
          simp [hc, EventMap.wait]
        · exact h.keeps hbefore (hkeeps.trans (.wait he))

end RegisteredFor

theorem Registered.step (h : s.Registered) (hmoves : Moves s s' t) (hone : s'.OneWaiter) : s'.Registered :=
  fun event => (h event).step hmoves (hone event)

/-- Once somebody has found the connection gone, it is gone and nobody is registered. -/
structure Inv (quiche : Quiche Q) (s : ConnCalls Q) (past : List TaskId) : Prop where
  registered : s.Registered
  released : past ≠ [] → s.conn.isGone quiche = true ∧ s.conn.mediator.Empty

/-- What a step does where the connection is gone. -/
structure StepGone (quiche : Quiche Q) (s s' : ConnCalls Q) (observed : List TaskId) : Prop where
  kept : s.conn.isGone quiche = true → s'.conn.isGone quiche = true
  notified : s.conn.isGone quiche = true → EventMap.Notifies s.conn.mediator s'.conn.mediator
  emptied : observed ≠ [] → s'.conn.isGone quiche = true ∧ s'.conn.mediator.Empty

theorem StepGone.of_conn (h : s'.conn = s.conn) : StepGone quiche s s' [] :=
  ⟨fun hc => h ▸ hc, fun _ => h ▸ .refl, fun hobserved => absurd rfl hobserved⟩

theorem StepGone.of_pass {waiting : Option (ConnEvent × Cell)} {failed : Bool} {observed : List TaskId}
    (houtcome : Outcome s.conn s'.conn waiting) (h : PassGone quiche s.conn s'.conn waiting failed)
    (hobserved : observed ≠ [] → failed = true ∧ s'.conn.isGone quiche = true) : StepGone quiche s s' observed := by
  refine ⟨h.kept, fun hc => ?_, fun hne => ?_⟩
  · rw [h.live hc] at houtcome
    generalize s'.conn = c'' at houtcome
    cases houtcome with
    | notified hnotified => exact hnotified.notifies
  · obtain ⟨hfailed, hc⟩ := hobserved hne
    exact ⟨hc, h.emptied hfailed hc⟩

theorem StepCases.gone (hgone : GoneForGood quiche) (h : StepCases quiche s a s') :
    StepGone quiche s s' (s.observed quiche a) := by
  cases h with
  | elapsed | calledRead | timedOut | called => exact .of_conn rfl
  | @readPassed r size hr =>
    refine .of_pass (read_outcome s.clock size) (read_gone hgone s.clock size) fun hne => ?_
    simp only [observed, hr] at hne
    split at hne
    · next hfound => exact Bool.and_eq_true_iff.mp hfound
    · exact absurd rfl hne
  | readResolved hr _ _ =>
    simp only [observed, hr]
    exact .of_conn rfl
  | readExpired hr =>
    refine .of_pass (readExpired_outcome s.clock) (readExpired_gone hgone s.clock) fun hne => ?_
    simp [observed, hr] at hne
  | passed hi hpass =>
    refine .of_pass (Op.pass_outcome hpass) (Op.pass_gone hgone hpass) fun hne => ?_
    simp only [observed, hi, hpass] at hne
    split at hne
    · next hfound => exact Bool.and_eq_true_iff.mp hfound
    · exact absurd rfl hne
  | retried hi _ =>
    simp only [observed, hi]
    exact .of_conn rfl
  | cancelled hi _ =>
    simp only [observed, hi]
    exact .of_conn rfl
  | shutdown hi =>
    simp only [observed, hi]
    exact ⟨fun hc => hc, fun _ => .notify _ .refl (by simp), fun hobserved => absurd rfl hobserved⟩

theorem Inv.step (hgone : GoneForGood quiche) {past : List TaskId} (h : Inv quiche s past) (hs : s.step quiche a = some s')
    (hone : s'.OneWaiter) : Inv quiche s' ((s.observed quiche a).reverse ++ past) := by
  have hcases := step_cases hs
  obtain ⟨t, hmoves⟩ := hcases.moves
  obtain ⟨hkept, hnotified, hemptied⟩ := hcases.gone hgone
  refine ⟨h.registered.step hmoves hone, fun hpast => ?_⟩
  by_cases hobserved : s.observed quiche a = []
  · rw [hobserved] at hpast
    obtain ⟨hc, hempty⟩ := h.released hpast
    refine ⟨hkept hc, ?_⟩
    rw [(hnotified hc).of_empty hempty]
    exact hempty
  · exact hemptied hobserved

/-- The run keeps to at most one unnotified task for each event. -/
def KeepsOneWaiter (quiche : Quiche Q) (s : ConnCalls Q × List TaskId) (a : Nat × ConnAction) : Prop :=
  ∀ s', s.1.step quiche a = some s' → s'.OneWaiter

theorem inv_of_reaches (hgone : GoneForGood quiche) {now pingTimeout : Nanos} {q : Q} {first : StreamId}
    {s : ConnCalls Q × List TaskId}
    (h : Reaches (traced (step quiche) (observed quiche)) (KeepsOneWaiter quiche)
      ({ conn := .new quiche now q pingTimeout first }, []) s) : Inv quiche s.1 s.2 := by
  induction h with
  | refl =>
    refine ⟨fun event t cell hwaiting => ?_, fun hne => absurd rfl hne⟩
    cases t <;> cases hwaiting
  | step _ hok hs hinv =>
    obtain ⟨s₁, hs₁, rfl⟩ := Option.map_eq_some_iff.mp hs
    exact hinv.step hgone hs₁ (hok s₁ hs₁)

/-- In every run in which no event has two tasks waiting for it: once a task has found the connection closed,
    draining or timed out, every task that is still suspended has been notified, the event map is empty, and no step
    registers another `Wait`. -/
theorem closed_releases (hgone : GoneForGood quiche) (now pingTimeout : Nanos) (q : Q) (first : StreamId) (s : ConnCalls Q)
    (past : List TaskId)
    (h : Reaches (traced (step quiche) (observed quiche)) (KeepsOneWaiter quiche)
      ({ conn := .new quiche now q pingTimeout first }, []) (s, past)) (hpast : past ≠ []) :
    (∀ t event cell, s.waiting t = some (event, cell) → s.conn.mediator.reasons cell ≠ .none) ∧
      s.conn.mediator.wakers = ∅ ∧
      ∀ a s', s.step quiche a = some s' → s'.conn.mediator.cells = s.conn.mediator.cells := by
  have hinv : Inv quiche s past := inv_of_reaches hgone h
  obtain ⟨hc, hempty⟩ := hinv.released hpast
  refine ⟨fun t event cell hwaiting hnone => ?_, hempty.wakers_eq, fun a s' hs => ?_⟩
  · have hlookup := (hinv.registered event t cell hwaiting).2 hnone
    rw [hempty event] at hlookup
    cases hlookup
  · have hnotified := ((step_cases hs).gone hgone).notified hc
    rw [hnotified.of_empty hempty]

/-- Where no task but the first call is suspended, nobody else waits for an event. -/
theorem oneWaiterFor_of_first (hreaders : ∀ r, s.readers r = .idle)
    (hcalls : ∀ i, (s.calls (i + 1)).waiting s.conn.scid = none) (event : ConnEvent) : s.OneWaiterFor event := by
  intro t t' cell cell' ht ht' _ _
  have hfirst : ∀ t p, s.waiting t = some p → t = .call 0 := by
    rintro (r | _ | i) p hwaiting
    · simp [waiting, hreaders, Reader.waiting] at hwaiting
    · rfl
    · rw [waiting, hcalls i] at hwaiting
      cases hwaiting
  rw [hfirst t _ ht, hfirst t' _ ht']

/-- A step after which no task but the first call is suspended. -/
theorem keepsOneWaiter_of_first {past : List TaskId} (hs : s.step quiche a = some s') (hreaders : ∀ r, s'.readers r = .idle)
    (hcalls : ∀ i, (s'.calls (i + 1)).waiting s'.conn.scid = none) : KeepsOneWaiter quiche (s, past) a := by
  intro s'' hs''
  obtain rfl := Option.some.inj (hs.symm.trans hs'')
  exact oneWaiterFor_of_first hreaders hcalls

end ConnCalls

namespace StreamSample

theorem draining_frames (q : StreamSample) (buf : Bytes) (h : q.draining = true) : (q.frames buf).draining = true := by
  induction q, buf using frames.induct with
  | case1 q id _ rest ih => exact ih h
  | case2 q limit rest ih => exact ih h
  | case3 => rfl
  | case4 buf q h₁ h₂ h₃ => rwa [frames] <;> assumption

theorem gone_eq (q : StreamSample) : QuicConnState.gone StreamSample.quiche q = q.draining := by
  simp [QuicConnState.gone, StreamSample.quiche]

theorem goneForGood : GoneForGood StreamSample.quiche where
  recv q buf info h := by
    rw [gone_eq] at h ⊢
    exact draining_frames q _ h
  send q size h := by
    rw [gone_eq] at h ⊢
    simp only [StreamSample.quiche]
    split <;> exact h
  close _ _ _ _ h := h
  onTimeout _ _ h := h
  send_error q q' size err h := by
    simp only [StreamSample.quiche] at h
    split at h <;> cases h
    rfl
  readableNext q := by
    simp only [StreamSample.quiche]
    split <;> rfl
  writableNext _ := rfl
  streamSend q id buf fin := by
    simp only [StreamSample.quiche]
    split
    · split <;> rfl
    · rfl
  streamRecv q id size := by
    simp only [StreamSample.quiche]
    split <;> rfl
  shutdownRead _ _ _ := rfl
  sendAckEliciting _ := rfl

end StreamSample

/-- A task waits in `accept`, the peer closes the connection, and `open_stream` finds that out. -/
def ConnCalls.closedRun : List (Nat × ConnAction) :=
  [(0, .call 0 (.loop .accept)), (0, .task 0 0 []), (0, .call 1 (.write (StreamSample.packet [0x1c, 0, 0]) (Sample.loopback 5000))),
    (0, .task 1 0 []), (0, .call 2 .openStream), (0, .task 2 0 [])]

theorem ConnCalls.closed_releases_accept :
    ∃ s, run (traced (step StreamSample.quiche) (observed StreamSample.quiche)) ({ conn := StreamSample.conn }, []) closedRun =
        some (s, [.call 2]) ∧
      s.waiting (.call 0) = some (.accept Sample.connId, 0) ∧ s.conn.mediator.reasons 0 ≠ .none ∧
      s.conn.mediator.wakers = ∅ := by
  have hreaches : Reaches (traced (step StreamSample.quiche) (observed StreamSample.quiche)) (KeepsOneWaiter StreamSample.quiche)
      ({ conn := StreamSample.conn }, []) _ := .refl
  have hreaches := hreaches.step (a := closedRun[0]) (keepsOneWaiter_of_first rfl (by rintro (_ | r) <;> rfl) (fun _ => rfl)) rfl
  have hreaches := hreaches.step (a := closedRun[1]) (keepsOneWaiter_of_first rfl (by rintro (_ | r) <;> rfl) (fun _ => rfl)) rfl
  have hreaches := hreaches.step (a := closedRun[2])
    (keepsOneWaiter_of_first rfl (by rintro (_ | r) <;> rfl) (by rintro (_ | i) <;> rfl)) rfl
  have hreaches := hreaches.step (a := closedRun[3])
    (keepsOneWaiter_of_first rfl (by rintro (_ | r) <;> rfl) (by rintro (_ | i) <;> rfl)) rfl
  have hreaches := hreaches.step (a := closedRun[4])
    (keepsOneWaiter_of_first rfl (by rintro (_ | r) <;> rfl) (by rintro (_ | _ | i) <;> rfl)) rfl
  have hreaches := hreaches.step (a := closedRun[5])
    (keepsOneWaiter_of_first rfl (by rintro (_ | r) <;> rfl) (by rintro (_ | _ | i) <;> rfl)) rfl
  obtain ⟨hresolved, hempty, -⟩ := closed_releases StreamSample.goneForGood 0 1000000000 { limit := 4 } 5 _ _ hreaches
    (List.cons_ne_nil _ _)
  exact ⟨_, rfl, rfl, hresolved (.call 0) _ 0 rfl, hempty⟩

end Hala.Quic
