import Hala.Quic.ConnTasks
import Hala.Theorems.Future.EventMap

/-! What the operations of a connection do to its event map.

Whatever an operation does under the lock, it first notifies and then, at most once and last, registers a `Wait`. -/

namespace Hala.Quic
open Machine ConnTasks
variable {Q : Type} {quiche : Quiche Q} {c c' c'' : QuicConnState Q}

/-- The event map of `c'` has come from that of `c` by notifications. -/
structure Notified (c c' : QuicConnState Q) : Prop where
  scid : c'.scid = c.scid
  notifies : EventMap.Notifies c.mediator c'.mediator

theorem Notified.of_mediator (hscid : c'.scid = c.scid) (hmediator : c'.mediator = c.mediator) : Notified c c' :=
  ⟨hscid, hmediator ▸ .refl⟩

theorem Notified.refl : Notified c c := .of_mediator rfl rfl

theorem Notified.trans (h : Notified c c') (h' : Notified c' c'') : Notified c c'' :=
  ⟨h'.scid.trans h.scid, h.notifies.trans h'.notifies⟩

theorem notified_setQuiche (q : Q) : Notified c (c.setQuiche q) := .of_mediator rfl rfl

theorem notified_notify (event : ConnEvent) {reason : Reason} (h : reason ≠ .none) : Notified c (c.notify event reason) :=
  ⟨rfl, .notify event .refl h⟩

theorem notified_notifyAll (events : List ConnEvent) {reason : Reason} (h : reason ≠ .none) :
    Notified c (c.notifyAll events reason) :=
  ⟨rfl, .notifyAll .refl h events⟩

theorem notified_handleQuicConnStatus : Notified c (c.handleQuicConnStatus quiche).1 := by
  unfold QuicConnState.handleQuicConnStatus
  split
  · exact ⟨rfl, .notifyAny .refl (by simp)⟩
  · exact .refl

theorem Notified.status {result : Except IoError Unit} (h : Notified c c')
    (hstatus : c'.handleQuicConnStatus quiche = (c'', result)) : Notified c c'' := by
  have hnotified : Notified c (c'.handleQuicConnStatus quiche).1 := h.trans notified_handleQuicConnStatus
  rwa [hstatus] at hnotified

theorem Notified.readable {result : Except IoError Unit} (h : Notified c c')
    (hreadable : c'.notifyReadable quiche = (c'', result)) : Notified c c'' := by
  unfold QuicConnState.notifyReadable at hreadable
  split at hreadable
  · next hstatus =>
    cases hreadable
    exact h.status hstatus
  · next hstatus =>
    cases hreadable
    exact (h.status hstatus).trans (notified_notify _ (by simp))

theorem notified_handleQuicIncomingStream (id : StreamId) : Notified c (c.handleQuicIncomingStream id) := by
  unfold QuicConnState.handleQuicIncomingStream
  split
  · exact ⟨rfl, .notify _ .refl (by simp)⟩
  · exact .refl

theorem Notified.streamEvents (h : Notified c c') : Notified c (c'.handleStreamEvents quiche) := by
  refine h.trans ?_
  unfold QuicConnState.handleStreamEvents
  split
  · next q id _ =>
    have hincoming : Notified c' ((c'.setQuiche q).handleQuicIncomingStream id) :=
      (notified_setQuiche q).trans (notified_handleQuicIncomingStream id)
    exact hincoming.trans (notified_notify _ (by simp))
  · split
    · exact (notified_setQuiche _).trans (notified_notify _ (by simp))
    · exact notified_setQuiche _

theorem Notified.sendTimout {now : Nanos} {result : Except IoError (Option Nanos)} (h : Notified c c')
    (htimout : c'.handleSendTimout quiche now = (c'', result)) : Notified c c'' := by
  refine h.trans ?_
  unfold QuicConnState.handleSendTimout at htimout
  dsimp only at htimout
  split at htimout
  · split at htimout <;> cases htimout
    · exact notified_setQuiche _
    · exact .of_mediator rfl rfl
  · split at htimout <;> cases htimout <;> exact .refl

theorem notified_dropStreams (ids : List StreamId) : Notified c (c.dropStreams quiche ids).1 := by
  induction ids generalizing c with
  | nil => exact .refl
  | cons id ids ih =>
    rw [QuicConnState.dropStreams]
    split
    · exact (notified_setQuiche _).trans ih
    · refine Notified.trans ?_ ih
      exact ((notified_setQuiche _).trans (notified_notifyAll _ (by simp))).trans (.of_mediator rfl rfl)

theorem Notified.droppingStreams (h : Notified c c') : Notified c (c'.handleDroppingStreams quiche) := by
  let emptied : QuicConnState Q := { c' with state := { c'.state with droppingStreamQueue := [] } }
  have hdropped : Notified emptied (emptied.dropStreams quiche c'.state.droppingStreamQueue).1 := notified_dropStreams _
  exact h.trans ⟨hdropped.scid, hdropped.notifies⟩

theorem notified_drainHalfClosed {size fuel : Nat} {ids : List StreamId}
    (h : c.drainHalfClosed quiche size fuel ids = some c') : Notified c c' := by
  induction ids generalizing c with
  | nil =>
    cases h
    exact .refl
  | cons id ids ih =>
    rw [QuicConnState.drainHalfClosed] at h
    split at h
    · cases h
    · exact (notified_setQuiche _).trans (ih h)
    · have hdrained := ih h
      exact ⟨hdrained.scid, hdrained.notifies⟩

theorem Notified.halfClosedStreams {fuel : Nat} {order : List StreamId} (h : Notified c c')
    (hdrain : c'.handleHalfClosedStreams quiche fuel order = some c'') : Notified c c'' := by
  unfold QuicConnState.handleHalfClosedStreams at hdrain
  split at hdrain
  · have hdrained := notified_drainHalfClosed hdrain
    exact h.trans ⟨hdrained.scid, hdrained.notifies⟩
  · cases hdrain

/-! ### The status check -/

/-- The connection of `c` is gone. -/
abbrev QuicConnState.isGone (quiche : Quiche Q) (c : QuicConnState Q) : Bool := QuicConnState.gone quiche c.state.quicheConn

/-- A status check that passes finds the connection there and changes nothing; one that fails has emptied the map. -/
theorem status_cases {result : Except IoError Unit} (h : c.handleQuicConnStatus quiche = (c', result)) :
    c'.state = c.state ∧ ((result = .ok () ∧ c' = c ∧ c.isGone quiche = false) ∨
      ((∃ err, result = .error err) ∧ c'.mediator.Empty ∧ c.isGone quiche = true)) := by
  unfold QuicConnState.handleQuicConnStatus at h
  split at h
  · next hgone =>
    cases h
    exact ⟨rfl, Or.inr ⟨⟨_, rfl⟩, EventMap.empty_notifyAny, hgone⟩⟩
  · next hgone =>
    cases h
    exact ⟨rfl, Or.inl ⟨rfl, rfl, by simpa using hgone⟩⟩

theorem live_of_status_ok (h : c.handleQuicConnStatus quiche = (c', .ok ())) : c' = c ∧ c.isGone quiche = false := by
  obtain ⟨-, ⟨-, hc, hlive⟩ | ⟨⟨err, herr⟩, -⟩⟩ := status_cases h
  · exact ⟨hc, hlive⟩
  · cases herr

theorem state_of_status {result : Except IoError Unit} (h : c.handleQuicConnStatus quiche = (c', result)) :
    c'.state = c.state :=
  (status_cases h).1

theorem state_of_readable {result : Except IoError Unit} (h : c.notifyReadable quiche = (c', result)) :
    c'.state = c.state := by
  unfold QuicConnState.notifyReadable at h
  split at h
  · next hstatus =>
    cases h
    exact state_of_status hstatus
  · next c₁ hstatus =>
    have hsame : c₁.state = c.state := state_of_status hstatus
    cases h
    exact hsame

/-- What the two requests for a stream with something to do leave of the `quiche` connection. -/
theorem quicheConn_handleStreamEvents (quiche : Quiche Q) (c : QuicConnState Q) :
    (c.handleStreamEvents quiche).state.quicheConn = (quiche.streamReadableNext c.state.quicheConn).1 ∨
      (c.handleStreamEvents quiche).state.quicheConn =
        (quiche.streamWritableNext (quiche.streamReadableNext c.state.quicheConn).1).1 := by
  unfold QuicConnState.handleStreamEvents
  split
  · next q id hnext =>
    rw [hnext]
    change ((c.setQuiche q).handleQuicIncomingStream id).state.quicheConn = q ∨ _
    unfold QuicConnState.handleQuicIncomingStream
    split <;> exact Or.inl rfl
  · next q hnext =>
    rw [hnext]
    split
    · next hnext' =>
      rw [hnext']
      exact Or.inr rfl
    · next hnext' =>
      rw [hnext']
      exact Or.inr rfl

theorem not_halfClosed_of_ok {id : StreamId} (h : c.handleStreamStatus id = .ok ()) : id ∉ c.state.halfClosedStreams := by
  unfold QuicConnState.handleStreamStatus at h
  split at h
  · cases h
  · assumption

/-! ### The operations -/

/-- The `Wait` for `event` in which a pass has left its operation. -/
def Flow.waiting {α : Type} (event : ConnEvent) : Flow α → Option (ConnEvent × Cell)
  | .wait cell _ => some (event, cell)
  | _ => none

/-- A pass has notified and, if it is suspended, has registered the `Wait` after that. -/
inductive Outcome (c : QuicConnState Q) : QuicConnState Q → Option (ConnEvent × Cell) → Prop
  | notified {c' : QuicConnState Q} : Notified c c' → Outcome c c' none
  | waits {c' : QuicConnState Q} (event : ConnEvent) : Notified c c' →
      Outcome c { c' with mediator := (c'.mediator.wait event).1 } (some (event, c'.mediator.cells))

/-- `mediator.wait` for an event of the connection. -/
theorem Notified.wait {α : Type} (h : Notified c c') (event : ConnId → ConnEvent) (expired : Option Nanos) :
    Outcome c (c'.wait (event c'.scid) expired : QuicConnState Q × Flow α).1
      ((c'.wait (event c'.scid) expired : QuicConnState Q × Flow α).2.waiting (event c.scid)) := by
  have hscid : c'.scid = c.scid := h.scid
  rw [← hscid]
  exact .waits _ h

theorem read_outcome (now : Nanos) (size : Nat) :
    Outcome c (c.read quiche now size).1 ((c.read quiche now size).2.waiting (.readable c.scid)) := by
  unfold QuicConnState.read
  split
  · next hstatus => exact .notified (Notified.refl.status hstatus)
  next c₁ hstatus =>
  have hdropped : Notified c (c₁.handleDroppingStreams quiche) := (Notified.refl.status hstatus).droppingStreams
  dsimp only
  split
  · exact .notified (hdropped.trans (.of_mediator rfl rfl))
  · next q _ =>
    have hsent := hdropped.trans (notified_setQuiche q)
    split
    · next htimout => exact .notified (hsent.sendTimout htimout)
    · next htimout => exact .notified (hsent.sendTimout htimout)
    · next htimout => exact (hsent.sendTimout htimout).wait .readable _
  · next q _ _ _ =>
    have hsent := hdropped.trans (notified_setQuiche q)
    split
    · next hstatus' => exact .notified (hsent.status hstatus')
    · next hstatus' => exact .notified (hsent.status hstatus')

theorem readExpired_outcome (now : Nanos) :
    Outcome c (c.readExpired quiche now).1 ((c.readExpired quiche now).2.waiting (.readable c.scid)) := by
  unfold QuicConnState.readExpired
  split
  · split
    · exact .notified (notified_setQuiche _)
    · exact .notified (.of_mediator rfl rfl)
  · split
    · split
      · exact .notified (notified_setQuiche _)
      · exact .notified .refl
    · exact .notified .refl

theorem write_notified {fuel : Nat} {order : List StreamId} {buf : Bytes} {info : PathInfo} {result : Except IoError Nat}
    (h : c.write quiche fuel order buf info = some (c', result)) : Notified c c' := by
  unfold QuicConnState.write at h
  split at h
  · next hstatus =>
    cases h
    exact Notified.refl.status hstatus
  next hstatus =>
  have hchecked := Notified.refl.status hstatus
  split at h
  · next q _ _ =>
    obtain ⟨c₂, hdrain, hc⟩ := Option.map_eq_some_iff.mp h
    cases hc
    exact (hchecked.trans (notified_setQuiche q)).streamEvents.halfClosedStreams hdrain
  · next q _ _ =>
    have hreceived := hchecked.trans (notified_setQuiche q)
    split at h <;> cases h
    · next hstatus' => exact hreceived.status hstatus'
    · next hstatus' => exact hreceived.status hstatus'

theorem streamSend_outcome (id : StreamId) (buf : Bytes) (fin : Bool) :
    Outcome c (c.streamSend quiche id buf fin).1
      ((c.streamSend quiche id buf fin).2.waiting (.streamWritable c.scid id)) := by
  unfold QuicConnState.streamSend
  split
  · next hstatus => exact .notified (Notified.refl.status hstatus)
  next c₁ hstatus =>
  have hchecked := Notified.refl.status hstatus
  split
  · exact .notified hchecked
  split
  · dsimp only
    split
    · next hreadable =>
      refine .notified (Notified.readable (.streamEvents (hchecked.trans ?_)) hreadable)
      exact .of_mediator rfl rfl
    · next hreadable =>
      refine .notified (Notified.readable (.streamEvents (hchecked.trans ?_)) hreadable)
      exact .of_mediator rfl rfl
  · next q _ =>
    have hsent : Notified c ((c₁.setQuiche q).handleStreamEvents quiche) := (hchecked.trans (notified_setQuiche q)).streamEvents
    split
    · next hreadable => exact .notified (hsent.readable hreadable)
    · next hreadable => exact (hsent.readable hreadable).wait (.streamWritable · id) none
  · next q _ _ _ =>
    have hsent := hchecked.trans (notified_setQuiche q)
    split
    · next hstatus' => exact .notified (hsent.status hstatus')
    · next hstatus' => exact .notified (hsent.status hstatus')

theorem Notified.streamRecvWait {α : Type} (h : Notified c c') (id : StreamId) :
    Outcome c (c'.streamRecvWait quiche id : QuicConnState Q × Flow (Except IoError α)).1
      ((c'.streamRecvWait quiche id : QuicConnState Q × Flow (Except IoError α)).2.waiting (.streamReadable c.scid id)) := by
  unfold QuicConnState.streamRecvWait
  split
  · next hreadable => exact .notified (h.readable hreadable)
  · next hreadable => exact (h.readable hreadable).wait (.streamReadable · id) none

theorem streamRecv_outcome (id : StreamId) (size : Nat) :
    Outcome c (c.streamRecv quiche id size).1 ((c.streamRecv quiche id size).2.waiting (.streamReadable c.scid id)) := by
  unfold QuicConnState.streamRecv
  split
  · next hstatus => exact .notified (Notified.refl.status hstatus)
  next c₁ hstatus =>
  have hchecked := Notified.refl.status hstatus
  split
  · exact .notified hchecked
  split
  · next q _ _ =>
    have hevents : Notified c ((c₁.setQuiche q).handleStreamEvents quiche) := (hchecked.trans (notified_setQuiche q)).streamEvents
    split
    · next hreadable => exact .notified (hevents.readable hreadable)
    · next hreadable => exact .notified (hevents.readable hreadable)
  · next q _ => exact (hchecked.trans (notified_setQuiche q)).streamEvents.streamRecvWait id
  · next q _ _ =>
    dsimp only
    split
    · exact (hchecked.trans (notified_setQuiche q)).streamRecvWait id
    · exact .notified (hchecked.trans (notified_setQuiche q))
  · next q _ _ _ _ => exact .notified (hchecked.trans (notified_setQuiche q)).streamEvents

theorem accept_outcome : Outcome c (c.accept quiche).1 ((c.accept quiche).2.waiting (.accept c.scid)) := by
  unfold QuicConnState.accept
  split
  · next hstatus => exact .notified (Notified.refl.status hstatus)
  next c₁ hstatus =>
  have hchecked := Notified.refl.status hstatus
  split
  · exact .notified (hchecked.trans (.of_mediator rfl rfl))
  · exact hchecked.wait .accept none

theorem openStream_notified : Notified c (c.openStream quiche).1 := by
  unfold QuicConnState.openStream
  split
  · next hstatus => exact Notified.refl.status hstatus
  · next hstatus => exact (Notified.refl.status hstatus).trans (.of_mediator rfl rfl)

theorem closeStream_notified (id : StreamId) : Notified c (c.closeStream quiche id).1 := by
  unfold QuicConnState.closeStream
  split
  · next hstatus => exact Notified.refl.status hstatus
  next c₁ hstatus =>
  have hchecked := Notified.refl.status hstatus
  split
  · exact hchecked.trans (.of_mediator rfl rfl)
  · refine Notified.readable (hchecked.trans ?_) rfl
    exact ⟨rfl, .notifyAll .refl (by simp) _⟩

theorem close_notified (app : Bool) (err : Nat) (reason : Bytes) : Notified c (c.close quiche app err reason).1 := by
  unfold QuicConnState.close
  split <;> exact notified_setQuiche _

end Hala.Quic
