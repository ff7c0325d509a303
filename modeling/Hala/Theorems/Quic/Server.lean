import Hala.Theorems.Quic.Listener

/-! What one step of a server can do.

Each relation follows one of the step functions, with what the step has found; the invariants of the server are
shown from these and do not look into the functions again. -/

namespace Hala.Quic
variable {Q : Type} {quiche : Quiche Q} {s s' : Server Q}

/-- The steps of the receiving loop. -/
inductive RecvCases (quiche : Quiche Q) (fuel : Nat) (order : List StreamId) (s : Server Q) : Server Q → Prop
  | turnedAway {buf : Bytes} {info : PathInfo} : s.recv = .handleStatus buf info → s.listener.closed = true →
      RecvCases quiche fuel order s { s with recv := .written (.error (brokenPipe "Listener closed")) }
  | entered {buf : Bytes} {info : PathInfo} : s.recv = .handleStatus buf info → s.listener.closed = false →
      RecvCases quiche fuel order s { s with recv := .handshake buf info }
  | answered {buf : Bytes} {info : PathInfo} {acceptor : QuicAcceptor Q} {answer : Except Fault (QuicAcceptorHandshake Q)} :
      s.recv = .handshake buf info →
      s.listener.acceptor.handshake quiche s.listener.maxDatagramSize buf info = (acceptor, answer) →
      RecvCases quiche fuel order s
        { s with listener := { s.listener with acceptor }, recv := Server.afterHandshake buf info answer }
  | unrouted {dcid : ConnId} {buf : Bytes} {info : PathInfo} : s.recv = .getConn dcid buf info → s.listener.conns dcid = none →
      RecvCases quiche fuel order s { s with recv := .written (.ok (.writeSize buf.length)) }
  | routed {dcid : ConnId} {number : Nat} {buf : Bytes} {info : PathInfo} : s.recv = .getConn dcid buf info →
      s.listener.conns dcid = some number → RecvCases quiche fuel order s { s with recv := .connWrite dcid number buf info }
  | wrote {dcid : ConnId} {number n : Nat} {buf : Bytes} {info : PathInfo} {conn conn' : QuicConnState Q} :
      s.recv = .connWrite dcid number buf info → s.listener.objects number = some conn →
      conn.write quiche fuel order buf info = some (conn', .ok n) →
      RecvCases quiche fuel order s
        { s with listener := s.listener.setObject number conn', recv := .written (.ok (.writeSize buf.length)) }
  | writeFailed {dcid : ConnId} {number : Nat} {buf : Bytes} {info : PathInfo} {conn conn' : QuicConnState Q} {err : IoError} :
      s.recv = .connWrite dcid number buf info → s.listener.objects number = some conn →
      conn.write quiche fuel order buf info = some (conn', .error err) →
      RecvCases quiche fuel order s
        { s with listener := s.listener.setObject number conn', recv := .removeConn dcid buf.length }
  | removed {dcid : ConnId} {writeSize : Nat} : s.recv = .removeConn dcid writeSize →
      RecvCases quiche fuel order s
        { s with listener := s.listener.setConn dcid none, recv := .written (.ok (.writeSize writeSize)) }
  | inserted {conn : Accepted Q} {pingTimeout : Nanos} {writeSize : Nat} {packet : Bytes} {sendInfo : PathInfo} :
      s.recv = .insertConn conn pingTimeout writeSize packet sendInfo →
      RecvCases quiche fuel order s
        { s with listener := (s.listener.setObject conn.number (.new quiche s.clock conn.conn pingTimeout 5)).setConn
                   (quiche.sourceId conn.conn) (some conn.number)
                 recv := .pushIncoming conn.number writeSize packet sendInfo }
  | queueGone {number writeSize : Nat} {packet : Bytes} {sendInfo : PathInfo} :
      s.recv = .pushIncoming number writeSize packet sendInfo → s.listener.incoming = none →
      RecvCases quiche fuel order s { s with recv := .written (.error (brokenPipe "quic listener state closed.")) }
  | pushed {number writeSize : Nat} {packet : Bytes} {sendInfo : PathInfo} {incoming : List Nat} :
      s.recv = .pushIncoming number writeSize packet sendInfo → s.listener.incoming = some incoming →
      RecvCases quiche fuel order s
        { s with listener := { s.listener with incoming := some (incoming ++ [number]) }
                 recv := .notifyIncoming number writeSize packet sendInfo }
  | notified {number writeSize : Nat} {packet : Bytes} {sendInfo : PathInfo} :
      s.recv = .notifyIncoming number writeSize packet sendInfo →
      RecvCases quiche fuel order s
        { s with listener := s.listener.notifyIncoming, recv := .batchRead number writeSize packet sendInfo }
  | batched {number writeSize : Nat} {packet : Bytes} {sendInfo : PathInfo} :
      s.recv = .batchRead number writeSize packet sendInfo →
      RecvCases quiche fuel order s
        { s with listener := s.listener.batchRead number
                 recv := .written (.ok (.incoming number writeSize packet sendInfo)) }
  | failed {fault : Fault} : s.recv = .written (.error fault) →
      RecvCases quiche fuel order s { s with recv := .stopped (some fault) }
  | toSend {writeSize : Nat} {packet : Bytes} {sendInfo : PathInfo} :
      s.recv = .written (.ok (.internal writeSize packet sendInfo)) → packet ≠ [] →
      RecvCases quiche fuel order s { s with recv := .sendTo packet sendInfo }
  | nothingToSend {result : QuicListenerWriteResult} : s.recv = .written (.ok result) →
      (∀ writeSize packet sendInfo, result = .internal writeSize packet sendInfo → packet = []) →
      RecvCases quiche fuel order s { s with recv := .recvFrom }
  | sent {packet : Bytes} {info : PathInfo} : s.recv = .sendTo packet info →
      RecvCases quiche fuel order s { s with sent := s.sent ++ [(packet, info)], recv := .recvFrom }

theorem recv_cases {fuel : Nat} {order : List StreamId} (hs : s.recvStep quiche fuel order = some s') :
    RecvCases quiche fuel order s s' := by
  unfold Server.recvStep at hs
  cases hrecv : s.recv with
  | recvFrom | stopped _ =>
    simp only [hrecv] at hs
    cases hs
  | handleStatus buf info =>
    simp only [hrecv] at hs
    rcases hclosed : s.listener.closed with _ | _ <;> simp only [hclosed] at hs <;> cases hs
    · exact .entered hrecv hclosed
    · exact .turnedAway hrecv hclosed
  | handshake buf info =>
    simp only [hrecv] at hs
    cases hs
    exact .answered hrecv rfl
  | getConn dcid buf info =>
    simp only [hrecv] at hs
    rcases hconn : s.listener.conns dcid with _ | number <;> simp only [hconn] at hs <;> cases hs
    · exact .unrouted hrecv hconn
    · exact .routed hrecv hconn
  | connWrite dcid number buf info =>
    simp only [hrecv] at hs
    rcases hobject : s.listener.objects number with _ | conn
    · simp only [hobject] at hs
      cases hs
    · simp only [hobject] at hs
      rcases hwrite : conn.write quiche fuel order buf info with _ | ⟨conn', err | n⟩ <;> simp only [hwrite] at hs <;> cases hs
      · exact .writeFailed hrecv hobject hwrite
      · exact .wrote hrecv hobject hwrite
  | removeConn dcid writeSize =>
    simp only [hrecv] at hs
    cases hs
    exact .removed hrecv
  | insertConn conn pingTimeout writeSize packet sendInfo =>
    simp only [hrecv] at hs
    cases hs
    exact .inserted hrecv
  | pushIncoming number writeSize packet sendInfo =>
    simp only [hrecv] at hs
    rcases hqueue : s.listener.incoming with _ | incoming <;> simp only [hqueue] at hs <;> cases hs
    · exact .queueGone hrecv hqueue
    · exact .pushed hrecv hqueue
  | notifyIncoming number writeSize packet sendInfo =>
    simp only [hrecv] at hs
    cases hs
    exact .notified hrecv
  | batchRead number writeSize packet sendInfo =>
    simp only [hrecv] at hs
    cases hs
    exact .batched hrecv
  | written result =>
    rcases result with fault | result
    · simp only [hrecv] at hs
      cases hs
      exact .failed hrecv
    · cases result with
      | internal writeSize packet sendInfo =>
        simp only [hrecv] at hs
        split at hs <;> cases hs
        · next hpacket =>
          refine .nothingToSend hrecv fun _ packet' _ heq => ?_
          cases heq
          exact hpacket
        · next hpacket => exact .toSend hrecv hpacket
      | _ =>
        simp only [hrecv] at hs
        cases hs
        exact .nothingToSend hrecv (by simp)
  | sendTo packet info =>
    simp only [hrecv] at hs
    cases hs
    exact .sent hrecv

/-- The steps of a call of `close`. -/
inductive CloseCases (i : Nat) (s : Server Q) : Server Q → Prop
  | closedBefore : s.closes i = .exchange → s.listener.closed = true → CloseCases i s (s.setClose i .closeReads)
  | exchanged : s.closes i = .exchange → s.listener.closed = false →
      CloseCases i s ({ s with listener := { s.listener with closed := true } }.setClose i .dropIncoming)
  | droppedIncoming : s.closes i = .dropIncoming →
      CloseCases i s ({ s with listener := { s.listener with incoming := none }.notifyIncoming }.setClose i .returned)
  | closedReads : s.closes i = .closeReads →
      CloseCases i s ({ s with listener := { s.listener with connsReadClosed := true } }.setClose i .returned)

theorem close_cases {i : Nat} (hs : s.closeStep i = some s') : CloseCases i s s' := by
  simp only [Server.closeStep] at hs
  cases hclose : s.closes i with
  | idle | returned =>
    simp only [hclose] at hs
    cases hs
  | exchange =>
    simp only [hclose] at hs
    rcases hclosed : s.listener.closed with _ | _ <;> simp only [hclosed] at hs <;> cases hs
    · exact .exchanged hclose hclosed
    · exact .closedBefore hclose hclosed
  | dropIncoming =>
    simp only [hclose] at hs
    cases hs
    exact .droppedIncoming hclose
  | closeReads =>
    simp only [hclose] at hs
    cases hs
    exact .closedReads hclose

/-- The steps of a call of `accept`. -/
inductive AcceptCases (i : Nat) (s : Server Q) : Server Q → Prop
  | queueGone : s.accepts i = .lock → s.listener.incoming = none → AcceptCases i s (s.setAccept i (.returned none))
  | popped {number : Nat} {incoming : List Nat} : s.accepts i = .lock → s.listener.incoming = some (number :: incoming) →
      AcceptCases i s
        ({ s with listener := { s.listener with incoming := some incoming } }.setAccept i (.returned (some number)))
  | waits : s.accepts i = .lock → s.listener.incoming = some [] →
      AcceptCases i s
        ({ s with listener := { s.listener with mediator := (s.listener.mediator.wait .incoming).1 } }.setAccept i
          (.wait (s.listener.mediator.wait .incoming).2))
  | woken {cell : Cell} : s.accepts i = .wait cell → s.listener.mediator.poll cell = some (.ok ()) →
      AcceptCases i s (s.setAccept i .lock)
  | panicked {cell : Cell} {err : EventMapError} : s.accepts i = .wait cell →
      s.listener.mediator.poll cell = some (.error err) → AcceptCases i s (s.setAccept i .panicked)

theorem accept_cases {i : Nat} (hs : s.acceptStep i = some s') : AcceptCases i s s' := by
  simp only [Server.acceptStep] at hs
  cases haccept : s.accepts i with
  | idle | returned _ | panicked =>
    simp only [haccept] at hs
    cases hs
  | lock =>
    simp only [haccept] at hs
    split at hs <;> cases hs
    · next hqueue => exact .queueGone haccept hqueue
    · next hqueue => exact .popped haccept hqueue
    · next hqueue => exact .waits haccept hqueue
  | wait cell =>
    simp only [haccept] at hs
    rcases hpoll : s.listener.mediator.poll cell with _ | (err | ⟨⟩) <;> simp only [hpoll] at hs <;> cases hs
    · exact .panicked haccept hpoll
    · exact .woken haccept hpoll

/-- The steps of the sending loop when the batch has an answer for it. -/
inductive ReadCases (number : Nat) (s : Server Q) : Option (Bytes × PathInfo) → Server Q → Prop
  | stopped {packet : Option (Bytes × PathInfo)} : number ∈ s.listener.connsRead → s.sendStopped = false →
      s.listener.closed = true →
      ReadCases number s packet
        { s with listener := { s.listener with connsRead := s.listener.connsRead.erase number }, sendStopped := true }
  | sent {packet : Bytes × PathInfo} {conn : QuicConnState Q} : number ∈ s.listener.connsRead → s.sendStopped = false →
      s.listener.closed = false → s.listener.objects number = some conn →
      ReadCases number s (some packet)
        { s with listener := { s.listener with connsRead := s.listener.connsRead.erase number }.batchRead number
                 sent := s.sent ++ [packet] }
  | failed {conn : QuicConnState Q} : number ∈ s.listener.connsRead → s.sendStopped = false →
      s.listener.closed = false → s.listener.objects number = some conn →
      ReadCases number s none
        { s with listener := { s.listener with connsRead := s.listener.connsRead.erase number }.setConn conn.scid none }

theorem read_cases {number : Nat} {packet : Option (Bytes × PathInfo)} (hs : s.readReady number packet = some s') :
    ReadCases number s packet s' := by
  simp only [Server.readReady] at hs
  split at hs
  · next hready =>
    obtain ⟨hmem, hrunning⟩ := hready
    split at hs
    · next hclosed =>
      cases hs
      exact .stopped hmem hrunning hclosed
    · next hclosed =>
      have hopen : s.listener.closed = false := by simpa using hclosed
      split at hs <;> cases hs
      · next hobject => exact .sent hmem hrunning hopen hobject
      · next hobject => exact .failed hmem hrunning hopen hobject
  · cases hs

/-- The steps of a server. -/
inductive StepCases (quiche : Quiche Q) (s : Server Q) : ServerAction Q → Server Q → Prop
  | elapse (nanos : Nanos) : StepCases quiche s (.elapse nanos) { s with clock := s.clock + nanos }
  | datagram (buf : Bytes) (info : PathInfo) : s.recv = .recvFrom →
      StepCases quiche s (.datagram buf info) { s with recv := .handleStatus buf info }
  | socketError : s.recv = .recvFrom ∨ (∃ packet info, s.recv = .sendTo packet info) →
      StepCases quiche s .socketError { s with recv := .socketFailed }
  | recv {fuel : Nat} {order : List StreamId} {s' : Server Q} : RecvCases quiche fuel order s s' →
      StepCases quiche s (.recv fuel order) s'
  | callClose {i : Nat} : s.closes i = .idle → StepCases quiche s (.callClose i) (s.setClose i .exchange)
  | close {i : Nat} {s' : Server Q} : CloseCases i s s' → StepCases quiche s (.close i) s'
  | callAccept {i : Nat} : s.accepts i = .idle → StepCases quiche s (.callAccept i) (s.setAccept i .lock)
  | accept {i : Nat} {s' : Server Q} : AcceptCases i s s' → StepCases quiche s (.accept i) s'
  | use {number : Nat} {conn : QuicConnState Q} (state : RawQuicConnState Q) (mediator : EventMap ConnEvent) :
      s.listener.objects number = some conn →
      StepCases quiche s (.use number state mediator)
        { s with listener := s.listener.setObject number { conn with state, mediator } }
  | readReady {number : Nat} {packet : Option (Bytes × PathInfo)} {s' : Server Q} : ReadCases number s packet s' →
      StepCases quiche s (.readReady number packet) s'
  | readNoneStopped : s.listener.connsReadClosed = true → s.sendStopped = false → s.listener.closed = true →
      StepCases quiche s .readNone { s with sendStopped := true }
  | readNone : s.listener.connsReadClosed = true → s.sendStopped = false → s.listener.closed = false →
      StepCases quiche s .readNone s

theorem step_cases {a : ServerAction Q} (hs : s.step quiche a = some s') : StepCases quiche s a s' := by
  cases a with
  | elapse nanos =>
    cases hs
    exact .elapse nanos
  | datagram buf info =>
    simp only [Server.step] at hs
    split at hs <;> cases hs
    next hrecv => exact .datagram buf info hrecv
  | socketError =>
    simp only [Server.step] at hs
    split at hs <;> cases hs
    · next hrecv => exact .socketError (Or.inl hrecv)
    · next packet info hrecv => exact .socketError (Or.inr ⟨packet, info, hrecv⟩)
  | recv fuel order => exact .recv (recv_cases hs)
  | callClose i =>
    simp only [Server.step] at hs
    split at hs <;> cases hs
    next hidle => exact .callClose hidle
  | close i => exact .close (close_cases hs)
  | callAccept i =>
    simp only [Server.step] at hs
    split at hs <;> cases hs
    next hidle => exact .callAccept hidle
  | accept i => exact .accept (accept_cases hs)
  | use number state mediator =>
    simp only [Server.step] at hs
    split at hs <;> cases hs
    next conn hobject => exact .use state mediator hobject
  | readReady number packet => exact .readReady (read_cases hs)
  | readNone =>
    simp only [Server.step] at hs
    split at hs
    · next hready =>
      obtain ⟨hclosedReads, hrunning⟩ := hready
      rcases hclosed : s.listener.closed with _ | _ <;> simp only [hclosed] at hs <;> cases hs
      · exact .readNone hclosedReads hrunning hclosed
      · exact .readNoneStopped hclosedReads hrunning hclosed
    · cases hs

/-- A call of `close` leaves the tables of connections and the receiving loop alone. -/
theorem CloseCases.beside {i : Nat} (h : CloseCases i s s') : s'.listener.acceptor = s.listener.acceptor ∧
    s'.listener.conns = s.listener.conns ∧ s'.recv = s.recv := by
  cases h <;> exact ⟨rfl, rfl, rfl⟩

/-- So does a call of `accept`. -/
theorem AcceptCases.beside {i : Nat} (h : AcceptCases i s s') : s'.listener.acceptor = s.listener.acceptor ∧
    s'.listener.conns = s.listener.conns ∧ s'.recv = s.recv := by
  cases h <;> exact ⟨rfl, rfl, rfl⟩

end Hala.Quic
