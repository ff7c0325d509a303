import Hala.Quic.ConnTasks
import Hala.Quic.Sample
import Hala.Theorems.Quic.Mediator

/-! The reader of a connection and the operations beside it.

`KeepsReader` and `WakesReader` say what a function does to a task that is registered for packets to send.
`Effect` is the specification of an operation: it wakes the reader, leaves the `quiche` connection alone, or
leaves by a silent exit. -/

namespace Hala.Quic
open Machine ConnTasks
variable {Q : Type} {quiche : Quiche Q} {c c' c'' : QuicConnState Q}

/-- No task that waits for packets to send has lost its entry without being notified. -/
structure KeepsReader (c c' : QuicConnState Q) : Prop where
  scid : c'.scid = c.scid
  keeps : EventMap.Keeps (.readable c.scid) c.mediator c'.mediator

/-- The task that waits for packets to send has been notified. -/
def WakesReader (c c' : QuicConnState Q) : Prop := EventMap.Wakes (.readable c.scid) c.mediator c'.mediator

theorem KeepsReader.of_mediator (hscid : c'.scid = c.scid) (hmediator : c'.mediator = c.mediator) : KeepsReader c c' :=
  ⟨hscid, hmediator ▸ .refl⟩

theorem KeepsReader.refl : KeepsReader c c := .of_mediator rfl rfl

theorem KeepsReader.trans (h : KeepsReader c c') (h' : KeepsReader c' c'') : KeepsReader c c'' := by
  refine ⟨h'.scid.trans h.scid, h.keeps.trans ?_⟩
  have hkeeps := h'.keeps
  rwa [h.scid] at hkeeps

theorem WakesReader.then (h : WakesReader c c') (hkept : KeepsReader c c') (h' : KeepsReader c' c'') : WakesReader c c'' := by
  have hkeeps := h'.keeps
  rw [hkept.scid] at hkeeps
  exact EventMap.Wakes.then h hkeeps hkept.keeps.cells_le

theorem WakesReader.after (h : KeepsReader c c') (h' : WakesReader c' c'') (hkept : KeepsReader c' c'') : WakesReader c c'' := by
  have hkeeps := hkept.keeps
  unfold WakesReader at h' ⊢
  rw [h.scid] at hkeeps h'
  exact EventMap.Wakes.after h.keeps h' hkeeps

/-- Notifications take no entry away without a reason. -/
theorem Notified.keepsReader (h : Notified c c') : KeepsReader c c' := ⟨h.scid, h.notifies.keeps _⟩

/-! ### The functions that the operations share -/

theorem keepsReader_setQuiche (q : Q) : KeepsReader c (c.setQuiche q) := (notified_setQuiche q).keepsReader

theorem keepsReader_wait {α : Type} {event : ConnEvent} (h : ConnEvent.readable c.scid ≠ event) (expired : Option Nanos) :
    KeepsReader c (c.wait event expired : QuicConnState Q × Flow α).1 :=
  ⟨rfl, .wait h⟩

/-- The status check passes and changes nothing, or finds the connection gone and notifies everybody. -/
theorem handleQuicConnStatus_cases (quiche : Quiche Q) (c : QuicConnState Q) :
    (QuicConnState.gone quiche c.state.quicheConn = false ∧ c.handleQuicConnStatus quiche = (c, .ok ())) ∨
    (QuicConnState.gone quiche c.state.quicheConn = true ∧ ∃ c' err, c.handleQuicConnStatus quiche = (c', .error err) ∧
      KeepsReader c c' ∧ WakesReader c c' ∧ c'.state = c.state) := by
  rcases hgone : QuicConnState.gone quiche c.state.quicheConn with _ | _
  · exact Or.inl ⟨rfl, by simp [QuicConnState.handleQuicConnStatus, hgone]⟩
  · refine Or.inr ⟨rfl, { c with mediator := c.mediator.notifyAny .cancel }, _, if_pos hgone, ⟨rfl, ?_⟩, ?_, rfl⟩
    · exact .notifyAny (by simp)
    · exact EventMap.wakes_notifyAny (by simp)

/-- `notify_readable` wakes the reader, with `Cancel` when the connection is gone. -/
theorem notifyReadable_spec (quiche : Quiche Q) (c : QuicConnState Q) :
    KeepsReader c (c.notifyReadable quiche).1 ∧ WakesReader c (c.notifyReadable quiche).1 ∧
      (c.notifyReadable quiche).1.state = c.state := by
  rcases handleQuicConnStatus_cases quiche c with ⟨-, hok⟩ | ⟨-, c', err, herr, hkept, hwakes, hstate⟩
  · rw [QuicConnState.notifyReadable, hok]
    exact ⟨(notified_notify _ (by simp)).keepsReader, EventMap.wakes_notify (by simp), rfl⟩
  · rw [QuicConnState.notifyReadable, herr]
    exact ⟨hkept, hwakes, hstate⟩

theorem KeepsReader.handleStreamEvents (h : KeepsReader c c') : KeepsReader c (c'.handleStreamEvents quiche) :=
  h.trans (Notified.refl.streamEvents).keepsReader

/-! ### The operations -/

/-- What an operation does, seen from a reader that is suspended meanwhile. -/
structure Effect (c c' : QuicConnState Q) (silent : Option Q) : Prop where
  kept : KeepsReader c c'
  heard : WakesReader c c' ∨ c'.state.quicheConn = c.state.quicheConn ∨ silent = some c'.state.quicheConn

theorem Effect.of_wakes {silent : Option Q} (hkept : KeepsReader c c') (hwakes : WakesReader c c') : Effect c c' silent :=
  ⟨hkept, Or.inl hwakes⟩

theorem Effect.of_quiche {silent : Option Q} (hkept : KeepsReader c c')
    (hq : c'.state.quicheConn = c.state.quicheConn) : Effect c c' silent :=
  ⟨hkept, Or.inr (Or.inl hq)⟩

theorem Effect.of_silent (hkept : KeepsReader c c') : Effect c c' (some c'.state.quicheConn) :=
  ⟨hkept, Or.inr (Or.inr rfl)⟩

/-- An operation that comes to `notify_readable`. -/
theorem Effect.of_notifyReadable {silent : Option Q} {result : Except IoError Unit} (hkept : KeepsReader c c')
    (h : c'.notifyReadable quiche = (c'', result)) : Effect c c'' silent := by
  obtain ⟨hkept', hwakes, -⟩ := notifyReadable_spec quiche c'
  rw [h] at hkept' hwakes
  exact .of_wakes (hkept.trans hkept') (.after hkept hwakes hkept')

theorem Effect.wait {α : Type} {silent : Option Q} {event : ConnEvent} {expired : Option Nanos} (h : Effect c c' silent)
    (hevent : ConnEvent.readable c'.scid ≠ event) : Effect c (c'.wait event expired : QuicConnState Q × Flow α).1 silent := by
  have hwait : KeepsReader c' (c'.wait event expired : QuicConnState Q × Flow α).1 := keepsReader_wait hevent expired
  refine ⟨h.kept.trans hwait, ?_⟩
  rcases h.heard with hwakes | hq | hsilent
  · exact Or.inl (hwakes.then h.kept hwait)
  · exact Or.inr (Or.inl hq)
  · exact Or.inr (Or.inr hsilent)

theorem write_effect {fuel : Nat} {order : List StreamId} {buf : Bytes} {info : PathInfo} {result : Except IoError Nat}
    (h : c.write quiche fuel order buf info = some (c', result)) :
    Effect c c' ((Op.write buf info).silentExit quiche fuel order c) := by
  unfold QuicConnState.write at h
  rcases handleQuicConnStatus_cases quiche c with ⟨hlive, hok⟩ | ⟨-, c₁, err, herr, hkept, hwakes, -⟩
  · simp only [hok] at h
    rcases hrecv : quiche.recv c.state.quicheConn buf info with ⟨q, err | writeSize⟩
    · simp only [hrecv] at h
      rcases handleQuicConnStatus_cases quiche (c.setQuiche q) with ⟨hlive', hok'⟩ | ⟨-, c₁, err', herr', hkept, hwakes, -⟩
      · simp only [hok', Option.some.injEq, Prod.mk.injEq] at h
        obtain ⟨rfl, -⟩ := h
        have hsilent : (Op.write buf info).silentExit quiche fuel order c = some q := by
          have hlive'' : QuicConnState.gone quiche q = false := hlive'
          simp [Op.silentExit, hlive, hrecv, hlive'']
        rw [hsilent]
        exact .of_silent (keepsReader_setQuiche q)
      · simp only [herr', Option.some.injEq, Prod.mk.injEq] at h
        obtain ⟨rfl, -⟩ := h
        exact .of_wakes ((keepsReader_setQuiche q).trans hkept) (.after (keepsReader_setQuiche q) hwakes hkept)
    · simp only [hrecv, Option.map_eq_some_iff, Prod.mk.injEq] at h
      obtain ⟨c₁, hdrain, rfl, -⟩ := h
      have hsilent : (Op.write buf info).silentExit quiche fuel order c = some c₁.state.quicheConn := by
        simp [Op.silentExit, hlive, hrecv, hdrain]
      rw [hsilent]
      exact .of_silent (((notified_setQuiche q).streamEvents.halfClosedStreams hdrain).keepsReader)
  · simp only [herr, Option.some.injEq, Prod.mk.injEq] at h
    obtain ⟨rfl, -⟩ := h
    exact .of_wakes hkept hwakes

theorem streamSend_effect (fuel : Nat) (order : List StreamId) (id : StreamId) (buf : Bytes) (fin : Bool) :
    Effect c (c.streamSend quiche id buf fin).1 ((Op.loop (.streamSend id buf fin)).silentExit quiche fuel order c) := by
  unfold QuicConnState.streamSend
  rcases handleQuicConnStatus_cases quiche c with ⟨hlive, hok⟩ | ⟨-, c₁, err, herr, hkept, hwakes, -⟩
  · simp only [hok, QuicConnState.handleStreamStatus]
    by_cases hclosed : id ∈ c.state.halfClosedStreams
    · simp only [hclosed, if_true]
      exact .of_quiche .refl rfl
    simp only [hclosed, if_false]
    rcases hsend : quiche.streamSend c.state.quicheConn id buf fin with ⟨q, err | writeSize⟩
    · cases err with
      | done =>
        simp only
        split
        · next hnotify => exact .of_notifyReadable (keepsReader_setQuiche q).handleStreamEvents hnotify
        · next hnotify => exact (Effect.of_notifyReadable (keepsReader_setQuiche q).handleStreamEvents hnotify).wait (by simp)
      | _ =>
        simp only
        rcases handleQuicConnStatus_cases quiche (c.setQuiche q) with ⟨hlive', hok'⟩ | ⟨-, c₁, err', herr', hkept, hwakes, -⟩
        · have hlive'' : QuicConnState.gone quiche q = false := hlive'
          simp only [hok', Op.silentExit, hlive, hclosed, hsend, hlive'']
          exact .of_silent (keepsReader_setQuiche q)
        · simp only [herr']
          exact .of_wakes ((keepsReader_setQuiche q).trans hkept) (.after (keepsReader_setQuiche q) hwakes hkept)
    · simp only
      split
      · next hnotify =>
        refine .of_notifyReadable (.handleStreamEvents ?_) hnotify
        exact .of_mediator rfl rfl
      · next hnotify =>
        refine .of_notifyReadable (.handleStreamEvents ?_) hnotify
        exact .of_mediator rfl rfl
  · simp only [herr]
    exact .of_wakes hkept hwakes

theorem streamRecvWait_effect {α : Type} {silent : Option Q} {id : StreamId} (h : KeepsReader c c') :
    Effect c (c'.streamRecvWait quiche id : QuicConnState Q × Flow (Except IoError α)).1 silent := by
  unfold QuicConnState.streamRecvWait
  split
  · next hnotify => exact .of_notifyReadable h hnotify
  · next hnotify => exact (Effect.of_notifyReadable h hnotify).wait (by simp)

theorem streamRecv_effect (fuel : Nat) (order : List StreamId) (id : StreamId) (size : Nat) :
    Effect c (c.streamRecv quiche id size).1 ((Op.loop (.streamRecv id size)).silentExit quiche fuel order c) := by
  unfold QuicConnState.streamRecv
  rcases handleQuicConnStatus_cases quiche c with ⟨hlive, hok⟩ | ⟨-, c₁, err, herr, hkept, hwakes, -⟩
  · simp only [hok, QuicConnState.handleStreamStatus]
    by_cases hclosed : id ∈ c.state.halfClosedStreams
    · simp only [hclosed, if_true]
      exact .of_quiche .refl rfl
    simp only [hclosed, if_false]
    rcases hrecv : quiche.streamRecv c.state.quicheConn id size with ⟨q, err | data⟩
    · cases err with
      | done => exact streamRecvWait_effect (keepsReader_setQuiche q).handleStreamEvents
      | invalidStreamState id' =>
        simp only
        by_cases houtgoing : id ∈ c.state.registerOutgoingStreamIds
        · have houtgoing' : id ∈ (c.setQuiche q).state.registerOutgoingStreamIds := houtgoing
          simp only [houtgoing', if_true]
          exact streamRecvWait_effect (keepsReader_setQuiche q)
        · have houtgoing' : id ∉ (c.setQuiche q).state.registerOutgoingStreamIds := houtgoing
          simp only [houtgoing', if_false, Op.silentExit, hlive, hclosed, hrecv, houtgoing]
          exact .of_silent (keepsReader_setQuiche q)
      | _ =>
        simp only [Op.silentExit, hlive, hclosed, hrecv]
        exact .of_silent (keepsReader_setQuiche q).handleStreamEvents
    · simp only
      split
      · next hnotify => exact .of_notifyReadable (keepsReader_setQuiche q).handleStreamEvents hnotify
      · next hnotify => exact .of_notifyReadable (keepsReader_setQuiche q).handleStreamEvents hnotify
  · simp only [herr]
    exact .of_wakes hkept hwakes

theorem accept_effect (silent : Option Q) : Effect c (c.accept quiche).1 silent := by
  unfold QuicConnState.accept
  rcases handleQuicConnStatus_cases quiche c with ⟨-, hok⟩ | ⟨-, c₁, err, herr, hkept, hwakes, -⟩
  · simp only [hok]
    split
    · exact .of_quiche (.of_mediator rfl rfl) rfl
    · exact (Effect.of_quiche .refl rfl).wait (by simp)
  · simp only [herr]
    exact .of_wakes hkept hwakes

theorem openStream_effect (silent : Option Q) : Effect c (c.openStream quiche).1 silent := by
  unfold QuicConnState.openStream
  rcases handleQuicConnStatus_cases quiche c with ⟨-, hok⟩ | ⟨-, c₁, err, herr, hkept, hwakes, -⟩
  · simp only [hok]
    exact .of_quiche (.of_mediator rfl rfl) rfl
  · simp only [herr]
    exact .of_wakes hkept hwakes

theorem closeStream_effect (silent : Option Q) (id : StreamId) : Effect c (c.closeStream quiche id).1 silent := by
  unfold QuicConnState.closeStream
  rcases handleQuicConnStatus_cases quiche c with ⟨-, hok⟩ | ⟨-, c₁, err, herr, hkept, hwakes, -⟩
  · simp only [hok]
    split
    · exact .of_quiche (.of_mediator rfl rfl) rfl
    · refine .of_notifyReadable ⟨?_, ?_⟩ rfl
      · rfl
      · exact .notifyAll (by simp) _
  · simp only [herr]
    exact .of_wakes hkept hwakes

theorem close_quiche (app : Bool) (err : Nat) (reason : Bytes) :
    (c.close quiche app err reason).1 = c.setQuiche (quiche.close c.state.quicheConn app err reason).1 := by
  unfold QuicConnState.close
  split <;> next h => rw [h]

/-- The specification of every operation. -/
theorem Op.pass_effect {fuel : Nat} {order : List StreamId} {op : Op} {call : Call}
    (h : op.pass quiche fuel order c = some (c', call)) : Effect c c' (op.silentExit quiche fuel order c) := by
  cases op with
  | write buf info =>
    obtain ⟨⟨c₁, result⟩, hwrite, hc⟩ := Option.map_eq_some_iff.mp h
    cases hc
    exact write_effect hwrite
  | loop op =>
    cases op with
    | streamSend id buf fin =>
      cases h
      exact streamSend_effect fuel order id buf fin
    | streamRecv id size =>
      cases h
      exact streamRecv_effect fuel order id size
    | accept =>
      cases h
      exact accept_effect _
  | openStream =>
    cases h
    exact openStream_effect _
  | closeStream id =>
    cases h
    exact closeStream_effect _ id
  | streamShutdown id err =>
    cases h
    exact .of_silent (keepsReader_setQuiche _)
  | close app err reason =>
    cases h
    change Effect c (c.close quiche app err reason).1 _
    rw [close_quiche]
    exact .of_silent (keepsReader_setQuiche _)

/-! ### Runs -/

/-- Once `send` has answered `Done` there is nothing to send. -/
def DoneMeansIdle (quiche : Quiche Q) : Prop :=
  ∀ q q' size, quiche.send q size = (q', .error .done) → hasPacket quiche q' size = false

/-- A reader that sleeps can be found by its event, and there is no packet for it. -/
def Attended (quiche : Quiche Q) (c : QuicConnState Q) (reader : Reader) : Prop :=
  ∀ size cell expired, reader = .wait size cell expired →
    cell < c.mediator.cells ∧
    (c.mediator.reasons cell = .none →
      c.mediator.wakers.lookup (.readable c.scid) = some cell ∧ hasPacket quiche c.state.quicheConn size = false)

theorem Attended.of_not_wait {reader : Reader} (h : ∀ size cell expired, reader ≠ .wait size cell expired) :
    Attended quiche c reader :=
  fun size cell expired hreader => absurd hreader (h size cell expired)

/-- What another task does under its specification. -/
theorem Attended.effect {reader : Reader} {silent : Option Q} (h : Attended quiche c reader) (heffect : Effect c c' silent)
    (hsilent : ∀ size cell expired q, reader = .wait size cell expired → c.mediator.reasons cell = .none →
      silent = some q → hasPacket quiche q size = false) : Attended quiche c' reader := by
  intro size cell expired hreader
  obtain ⟨hlt, hasleep⟩ := h size cell expired hreader
  obtain ⟨hscid, hkeeps⟩ := heffect.kept
  refine ⟨hlt.trans_le hkeeps.cells_le, fun hnone => ?_⟩
  have hbefore := hkeeps.none_before cell hlt hnone
  obtain ⟨hlookup, hquiet⟩ := hasleep hbefore
  refine ⟨hscid ▸ hkeeps.lookup cell hlt hnone hlookup, ?_⟩
  rcases heffect.heard with hwakes | hq | hexit
  · exact absurd hnone (hwakes cell hlt hlookup)
  · rwa [hq]
  · exact hsilent size cell expired _ hreader hbefore hexit

theorem handleSendTimout_some {now expired : Nanos} (h : c.handleSendTimout quiche now = (c', .ok (some expired))) : c' = c := by
  unfold QuicConnState.handleSendTimout at h
  dsimp only at h
  split at h
  · split at h <;> cases h
  · split at h <;> cases h <;> rfl

/-- A pass of `read` that suspends has asked `quiche` for a packet last, and has registered itself. -/
theorem read_attended (hdone : DoneMeansIdle quiche) (now : Nanos) (size : Nat) :
    Attended quiche (c.read quiche now size).1 ((c.read quiche now size).2.toReader size) := by
  unfold QuicConnState.read
  split
  · exact .of_not_wait (by simp [Flow.toReader])
  · next c₁ _ =>
    simp only
    split
    · exact .of_not_wait (by simp [Flow.toReader])
    · next q hsend =>
      split
      · exact .of_not_wait (by simp [Flow.toReader])
      · exact .of_not_wait (by simp [Flow.toReader])
      · next c₂ expired hexpired =>
        rw [handleSendTimout_some hexpired]
        intro size' cell expired' hreader
        simp only [QuicConnState.wait, Flow.toReader, Reader.wait.injEq] at hreader
        obtain ⟨rfl, rfl, -⟩ := hreader
        refine ⟨Nat.lt_succ_self _, fun _ => ⟨?_, hdone _ _ _ hsend⟩⟩
        exact AList.lookup_insert _
    · split
      · exact .of_not_wait (by simp [Flow.toReader])
      · exact .of_not_wait (by simp [Flow.toReader])

theorem readExpired_attended (now : Nanos) (size : Nat) :
    Attended quiche (c.readExpired quiche now).1 ((c.readExpired quiche now).2.toReader size) := by
  unfold QuicConnState.readExpired
  split
  · split
    · exact .of_not_wait (by simp [Flow.toReader])
    · exact .of_not_wait (by simp [Flow.toReader])
  · split
    · exact .of_not_wait (by split <;> simp [Flow.toReader])
    · exact .of_not_wait (by simp [Flow.toReader])

theorem taskStep_attended {s s' : ConnTasks Q} {i fuel : Nat} {order : List StreamId} (h : Attended quiche s.conn s.reader)
    (hok : s.Announced quiche (.task i fuel order)) (hs : s.taskStep quiche i fuel order = some s') :
    Attended quiche s'.conn s'.reader := by
  unfold taskStep at hs
  split at hs
  · cases hs
  · cases hs
  · next op hlock =>
    obtain ⟨⟨conn, call⟩, hpass, rfl⟩ := Option.map_eq_some_iff.mp hs
    refine h.effect (Op.pass_effect hpass) fun size cell expired q hreader hnone hexit => ?_
    exact hok op q size hlock hexit ⟨cell, expired, hreader, hnone⟩
  · split at hs <;> cases hs <;> exact h
  · next id result _ =>
    cases hs
    have heffect : Effect s.conn (s.conn.streamShutdownNotify id) none :=
      .of_quiche (notified_notify _ (by simp)).keepsReader rfl
    exact h.effect heffect (fun _ _ _ _ _ _ hexit => by cases hexit)

theorem readerStep_attended (hdone : DoneMeansIdle quiche) {s s' : ConnTasks Q} (hs : s.readerStep quiche = some s') :
    Attended quiche s'.conn s'.reader := by
  unfold readerStep at hs
  split at hs
  · cases hs
  · cases hs
  · cases hs
    exact read_attended hdone _ _
  · split at hs <;> cases hs <;> exact .of_not_wait (by simp)
  · cases hs
    exact readExpired_attended _ _

theorem step_attended (hdone : DoneMeansIdle quiche) {s s' : ConnTasks Q} {a : ConnAction} (h : Attended quiche s.conn s.reader)
    (hok : s.Announced quiche a) (hs : s.step quiche a = some s') : Attended quiche s'.conn s'.reader := by
  cases a with
  | elapse nanos =>
    cases hs
    exact h
  | read size =>
    simp only [step] at hs
    split at hs <;> cases hs <;> exact .of_not_wait (by simp)
  | reader => exact readerStep_attended hdone hs
  | timeout =>
    simp only [step] at hs
    split at hs <;> cases hs
    exact .of_not_wait (by simp)
  | call i op =>
    simp only [step] at hs
    split at hs <;> cases hs
    exact h
  | task i fuel order => exact taskStep_attended h hok hs

/-- In a run in which no operation leaves a packet to send by a silent exit while the reader sleeps, a reader for
    which there is a packet has been notified. -/
theorem reader_notified (hdone : DoneMeansIdle quiche) (c : QuicConnState Q) (s : ConnTasks Q)
    (h : Reaches (step quiche) (Announced quiche) { conn := c } s) (size : Nat) (cell : Cell) (expired : Option Nanos)
    (hreader : s.reader = .wait size cell expired) (hpacket : hasPacket quiche s.conn.state.quicheConn size = true) :
    s.conn.mediator.reasons cell ≠ .none := by
  have hattended : Attended quiche s.conn s.reader :=
    h.invariant (.of_not_wait (by simp)) (fun hinv hok hs => step_attended hdone hinv hok hs)
  intro hnone
  have hquiet := ((hattended size cell expired hreader).2 hnone).2
  rw [hpacket] at hquiet
  cases hquiet

/-- A connection of the sample, established. -/
def sampleConn : QuicConnState Sample :=
  .new Sample.quiche 0 { scid := Sample.connId, dcid := [1], path := Sample.loopback 5000, received := 2 } 1000000000 5

theorem sample_doneMeansIdle : DoneMeansIdle Sample.quiche := by
  intro q q' size hsend
  rcases hpending : q.pending with _ | _
  · simp only [Sample.quiche, hpending] at hsend
    cases hsend
    simp [hasPacket, Sample.quiche, hpending, Except.isOk, Except.toBool]
  · simp [Sample.quiche, hpending] at hsend

/-- The reader goes to sleep, and a call of `stream_send` makes a packet. -/
def sendRun : List ConnAction := [.read 1200, .reader, .call 0 (.loop (.streamSend 5 [1] true)), .task 0 0 []]

/-- The operation does not leave by a silent exit, whether or not a reader sleeps. -/
def speaksUp (quiche : Quiche Q) (s : ConnTasks Q) : ConnAction → Bool
  | .task i fuel order =>
    match s.calls i with
    | .lock op => (op.silentExit quiche fuel order s.conn).isNone
    | _ => true
  | _ => true

theorem announced_of_speaksUp (s : ConnTasks Q) (a : ConnAction) (h : speaksUp quiche s a = true) : s.Announced quiche a := by
  cases a with
  | task i fuel order =>
    intro op q size hlock hexit
    simp [speaksUp, hlock, hexit] at h
  | _ => trivial

theorem reader_notified_sendRun :
    ∃ s : ConnTasks Sample, runIf (step Sample.quiche) (speaksUp Sample.quiche) { conn := sampleConn } sendRun = some s ∧
      ∃ cell expired, s.reader = .wait 1200 cell expired ∧ s.conn.mediator.reasons cell ≠ .none :=
  ⟨_, rfl, 0, _, rfl, reader_notified sample_doneMeansIdle sampleConn _
    (.of_runIf sendRun announced_of_speaksUp rfl) 1200 0 _ rfl rfl⟩

/-- The reader goes to sleep, and a datagram for which an acknowledgement is due is written. -/
def unheardRun : List ConnAction :=
  [.read 1200, .reader, .call 0 (.write (Sample.shortPacket 0) (Sample.loopback 5000)), .task 0 0 []]

/-- The acknowledgement waits behind the reader, which nobody has notified. -/
theorem reader_unheard :
    ∃ (s : ConnTasks Sample) (cell : Cell) (expired : Option Nanos), Reachable (step Sample.quiche) { conn := sampleConn } s ∧ s.reader = .wait 1200 cell expired ∧
      hasPacket Sample.quiche s.conn.state.quicheConn 1200 = true ∧ s.conn.mediator.reasons cell = .none :=
  ⟨_, _, _, Reachable.of_run unheardRun rfl, rfl, rfl, rfl⟩

end Hala.Quic
