import Hala.Theorems.Quic.Tables

/-! What every operation keeps of the `quiche` connection.

The operations change the connection of `quiche` by calls of `quiche` alone, so that what these keep is kept by every
step of the tasks. -/

namespace Hala.Quic
open Machine
variable {Q : Type} {quiche : Quiche Q} {P : Q → Prop} {c c' : QuicConnState Q}

/-- Whatever is called of `quiche` keeps `P`. -/
structure KeptByCalls (quiche : Quiche Q) (P : Q → Prop) : Prop where
  recv : ∀ q buf info, P q → P (quiche.recv q buf info).1
  send : ∀ q size, P q → P (quiche.send q size).1
  readableNext : ∀ q, P q → P (quiche.streamReadableNext q).1
  writableNext : ∀ q, P q → P (quiche.streamWritableNext q).1
  streamSend : ∀ q id buf fin, P q → P (quiche.streamSend q id buf fin).1
  streamRecv : ∀ q id size, P q → P (quiche.streamRecv q id size).1
  shutdownRead : ∀ q id err, P q → P (quiche.streamShutdownRead q id err).1
  close : ∀ q app err reason, P q → P (quiche.close q app err reason).1
  sendAckEliciting : ∀ q, P q → P (quiche.sendAckEliciting q).1
  onTimeout : ∀ q now, P q → P (quiche.onTimeout q now)

/-! ### The functions that the operations share -/

section Kept
variable (hkept : KeptByCalls quiche P)
include hkept

theorem KeptByCalls.streamEvents (h : P c.state.quicheConn) : P (c.handleStreamEvents quiche).state.quicheConn := by
  have hreadable := hkept.readableNext _ h
  obtain hconn | hconn := quicheConn_handleStreamEvents quiche c
  · rwa [hconn]
  · rw [hconn]
    exact hkept.writableNext _ hreadable

theorem KeptByCalls.dropStreams {ids : List StreamId} (h : P c.state.quicheConn) :
    P (c.dropStreams quiche ids).1.state.quicheConn := by
  induction ids generalizing c with
  | nil => exact h
  | cons id ids ih =>
    have hsend := hkept.streamSend _ id [] true h
    rw [QuicConnState.dropStreams]
    split
    · next heq =>
      rw [heq] at hsend
      exact ih hsend
    · next heq =>
      rw [heq] at hsend
      exact ih hsend

theorem KeptByCalls.sendTimout {now : Nanos} {result : Except IoError (Option Nanos)}
    (htimout : c.handleSendTimout quiche now = (c', result)) (h : P c.state.quicheConn) : P c'.state.quicheConn := by
  have hping := hkept.sendAckEliciting _ h
  unfold QuicConnState.handleSendTimout at htimout
  dsimp only at htimout
  split at htimout
  · split at htimout
    · next heq =>
      rw [heq] at hping
      cases htimout
      exact hping
    · next heq =>
      rw [heq] at hping
      cases htimout
      exact hping
  · split at htimout <;> cases htimout <;> exact h

theorem KeptByCalls.halfClosedStreamResp {q q' : Q} {id : StreamId} {size fuel : Nat} {closed : Bool}
    (hresp : QuicConnState.handleHalfClosedStreamResp quiche q id size fuel = some (q', closed)) (h : P q) : P q' := by
  induction fuel generalizing q with
  | zero => cases hresp
  | succ fuel ih =>
    have hrecv := hkept.streamRecv q id size h
    rw [QuicConnState.handleHalfClosedStreamResp] at hresp
    split at hresp
    · next heq =>
      rw [heq] at hrecv
      split at hresp
      · cases hresp
        exact hrecv
      · exact ih hresp hrecv
    · next heq =>
      rw [heq] at hrecv
      cases hresp
      exact hrecv
    · next heq =>
      rw [heq] at hrecv
      cases hresp
      exact hrecv

theorem KeptByCalls.drainHalfClosed {size fuel : Nat} {ids : List StreamId}
    (hdrain : c.drainHalfClosed quiche size fuel ids = some c') (h : P c.state.quicheConn) : P c'.state.quicheConn := by
  induction ids generalizing c with
  | nil =>
    cases hdrain
    exact h
  | cons id ids ih =>
    rw [QuicConnState.drainHalfClosed] at hdrain
    split at hdrain
    · cases hdrain
    · next hresp => exact ih hdrain (hkept.halfClosedStreamResp hresp h)
    · next hresp => exact ih hdrain (hkept.halfClosedStreamResp hresp h)

end Kept

/-! ### The operations -/

theorem quicheConn_streamRecvWait {α : Type} (id : StreamId) :
    (c.streamRecvWait quiche id : QuicConnState Q × Flow (Except IoError α)).1.state.quicheConn = c.state.quicheConn := by
  unfold QuicConnState.streamRecvWait
  split
  · next hreadable => rw [state_of_readable hreadable]
  · next hreadable => rw [wait_state, state_of_readable hreadable]

theorem quicheConn_accept : (c.accept quiche).1.state.quicheConn = c.state.quicheConn := by
  unfold QuicConnState.accept
  split
  · next hstatus => rw [state_of_status hstatus]
  next c₁ hstatus =>
  obtain ⟨rfl, -⟩ := live_of_status_ok hstatus
  split <;> rfl

theorem quicheConn_openStream : (c.openStream quiche).1.state.quicheConn = c.state.quicheConn := by
  unfold QuicConnState.openStream
  split
  · next hstatus => rw [state_of_status hstatus]
  next c₁ hstatus =>
  obtain ⟨rfl, -⟩ := live_of_status_ok hstatus
  rfl

theorem quicheConn_closeStream (id : StreamId) : (c.closeStream quiche id).1.state.quicheConn = c.state.quicheConn := by
  unfold QuicConnState.closeStream
  split
  · next hstatus => rw [state_of_status hstatus]
  next c₁ hstatus =>
  obtain ⟨rfl, -⟩ := live_of_status_ok hstatus
  split
  · rfl
  · dsimp only
    rcases hreadable : QuicConnState.notifyReadable quiche _ with ⟨c₂, result⟩
    rw [state_of_readable hreadable]
    rfl

section Operations
variable (hkept : KeptByCalls quiche P)
include hkept

theorem KeptByCalls.write {fuel : Nat} {order : List StreamId} {buf : Bytes} {info : PathInfo} {result : Except IoError Nat}
    (hwrite : c.write quiche fuel order buf info = some (c', result)) (h : P c.state.quicheConn) : P c'.state.quicheConn := by
  unfold QuicConnState.write at hwrite
  split at hwrite
  · next hstatus =>
    cases hwrite
    rwa [state_of_status hstatus]
  next c₁ hstatus =>
  obtain ⟨rfl, -⟩ := live_of_status_ok hstatus
  have hrecv := hkept.recv _ buf info h
  split at hwrite
  · next q _ heq =>
    rw [heq] at hrecv
    obtain ⟨c₂, hdrain, hc₂⟩ := Option.map_eq_some_iff.mp hwrite
    cases hc₂
    have hevents : P ((c₁.setQuiche q).handleStreamEvents quiche).state.quicheConn := hkept.streamEvents hrecv
    unfold QuicConnState.handleHalfClosedStreams at hdrain
    split at hdrain
    · exact hkept.drainHalfClosed hdrain hevents
    · cases hdrain
  · next q _ heq =>
    rw [heq] at hrecv
    split at hwrite <;> cases hwrite
    · next hstatus' => rwa [state_of_status hstatus']
    · next hstatus' => rwa [state_of_status hstatus']

theorem KeptByCalls.read {now : Nanos} {size : Nat} (h : P c.state.quicheConn) :
    P (c.read quiche now size).1.state.quicheConn := by
  unfold QuicConnState.read
  split
  · next hstatus => rwa [state_of_status hstatus]
  next c₁ hstatus =>
  obtain ⟨rfl, -⟩ := live_of_status_ok hstatus
  have hdropped : P (c₁.handleDroppingStreams quiche).state.quicheConn :=
    hkept.dropStreams (c := { c₁ with state := { c₁.state with droppingStreamQueue := [] } }) h
  have hsend := hkept.send _ size hdropped
  dsimp only
  split
  · next heq =>
    rw [heq] at hsend
    exact hsend
  · next q heq =>
    rw [heq] at hsend
    have hsent : P ((c₁.handleDroppingStreams quiche).setQuiche q).state.quicheConn := hsend
    split
    · next htimout => exact hkept.sendTimout htimout hsent
    · next htimout => exact hkept.sendTimout htimout hsent
    · next htimout =>
      rw [wait_state]
      exact hkept.sendTimout htimout hsent
  · next heq =>
    rw [heq] at hsend
    split
    · next hstatus' => rwa [state_of_status hstatus']
    · next hstatus' => rwa [state_of_status hstatus']

theorem KeptByCalls.readExpired {now : Nanos} (h : P c.state.quicheConn) :
    P (c.readExpired quiche now).1.state.quicheConn := by
  have hping := hkept.sendAckEliciting _ h
  unfold QuicConnState.readExpired
  split
  · split
    · next heq =>
      rw [heq] at hping
      exact hping
    · next heq =>
      rw [heq] at hping
      exact hping
  · split
    · split
      · exact hkept.onTimeout _ now h
      · exact h
    · exact h

theorem KeptByCalls.sent {id : StreamId} {buf : Bytes} {fin : Bool} (h : P c.state.quicheConn) :
    P (c.streamSend quiche id buf fin).1.state.quicheConn := by
  unfold QuicConnState.streamSend
  split
  · next hstatus => rwa [state_of_status hstatus]
  next c₁ hstatus =>
  obtain ⟨rfl, -⟩ := live_of_status_ok hstatus
  split
  · exact h
  have hsend := hkept.streamSend _ id buf fin h
  split
  · next heq =>
    rw [heq] at hsend
    dsimp only
    split
    · next hreadable =>
      rw [state_of_readable hreadable]
      exact hkept.streamEvents hsend
    · next hreadable =>
      rw [state_of_readable hreadable]
      exact hkept.streamEvents hsend
  · next heq =>
    rw [heq] at hsend
    split
    · next hreadable =>
      rw [state_of_readable hreadable]
      exact hkept.streamEvents hsend
    · next hreadable =>
      rw [wait_state, state_of_readable hreadable]
      exact hkept.streamEvents hsend
  · next heq =>
    rw [heq] at hsend
    split
    · next hstatus' => rwa [state_of_status hstatus']
    · next hstatus' => rwa [state_of_status hstatus']

theorem KeptByCalls.received {id : StreamId} {size : Nat} (h : P c.state.quicheConn) :
    P (c.streamRecv quiche id size).1.state.quicheConn := by
  unfold QuicConnState.streamRecv
  split
  · next hstatus => rwa [state_of_status hstatus]
  next c₁ hstatus =>
  obtain ⟨rfl, -⟩ := live_of_status_ok hstatus
  split
  · exact h
  have hrecv := hkept.streamRecv _ id size h
  split
  · next heq =>
    rw [heq] at hrecv
    split
    · next hreadable =>
      rw [state_of_readable hreadable]
      exact hkept.streamEvents hrecv
    · next hreadable =>
      rw [state_of_readable hreadable]
      exact hkept.streamEvents hrecv
  · next heq =>
    rw [heq] at hrecv
    rw [quicheConn_streamRecvWait]
    exact hkept.streamEvents hrecv
  · next heq =>
    rw [heq] at hrecv
    dsimp only
    split
    · rwa [quicheConn_streamRecvWait]
    · exact hrecv
  · next heq =>
    rw [heq] at hrecv
    exact hkept.streamEvents hrecv

theorem KeptByCalls.closed {app : Bool} {err : Nat} {reason : Bytes} (h : P c.state.quicheConn) :
    P (c.close quiche app err reason).1.state.quicheConn := by
  have hclosed := hkept.close _ app err reason h
  unfold QuicConnState.close
  split <;>
  · next heq =>
    rw [heq] at hclosed
    exact hclosed

/-- The specification of every operation. -/
theorem KeptByCalls.pass {fuel : Nat} {order : List StreamId} {op : Op} {call : Call}
    (hpass : op.pass quiche fuel order c = some (c', call)) (h : P c.state.quicheConn) : P c'.state.quicheConn := by
  cases op with
  | write buf info =>
    obtain ⟨⟨c₁, result⟩, hwrite, hc⟩ := Option.map_eq_some_iff.mp hpass
    cases hc
    exact hkept.write hwrite h
  | loop op =>
    cases op with
    | streamSend id buf fin =>
      cases hpass
      exact hkept.sent h
    | streamRecv id size =>
      cases hpass
      exact hkept.received h
    | accept =>
      obtain rfl : (c.accept quiche).1 = c' := congrArg Prod.fst (Option.some.inj hpass)
      rwa [quicheConn_accept]
  | openStream =>
    obtain rfl : (c.openStream quiche).1 = c' := congrArg Prod.fst (Option.some.inj hpass)
    rwa [quicheConn_openStream]
  | closeStream id =>
    obtain rfl : (c.closeStream quiche id).1 = c' := congrArg Prod.fst (Option.some.inj hpass)
    rwa [quicheConn_closeStream]
  | streamShutdown id err =>
    cases hpass
    exact hkept.shutdownRead _ id err h
  | close app err reason =>
    cases hpass
    exact hkept.closed h

end Operations

namespace ConnCalls
variable {s s' : ConnCalls Q} {a : Nat × ConnAction}

theorem StepCases.kept (hkept : KeptByCalls quiche P) (hcases : StepCases quiche s a s') (h : P s.conn.state.quicheConn) :
    P s'.conn.state.quicheConn := by
  cases hcases with
  | readPassed => exact hkept.read h
  | readExpired => exact hkept.readExpired h
  | passed _ hpass => exact hkept.pass hpass h
  | elapsed | calledRead | readResolved | timedOut | called | retried | cancelled | shutdown => exact h

end ConnCalls

end Hala.Quic
