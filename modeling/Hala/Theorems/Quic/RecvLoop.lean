import Hala.Theorems.Quic.Drain
import Hala.Theorems.Quic.Server

/-! When the receiving loop of a server goes on.

Every fault of one datagram that `handshake` reports ends the loop. `admits` says of a datagram that `handshake`
reports none; a loop that gets no other datagrams ends only when the listener is closed or the socket fails. `write` of an
established connection ends the loop never, but it drains the streams that the connection has half closed, which can take
for ever where `send_quantum` is 0. -/

namespace Hala.Quic
open Machine QuicAcceptor
variable {Q : Type} (quiche : Quiche Q)

/-- `handshake` has no fault to report: the header can be read; a pre-established connection, or the one that is
    made for the packet, accepts it and has an answer or none; and an `Initial` packet is answered otherwise, or
    carries a token that was given out to its sender and an id of the right length. -/
def admits (size : Nat) (a : QuicAcceptor Q) (buf : Bytes) (info : PathInfo) : Bool :=
  match quiche.fromSlice buf with
  | .error _ => false
  | .ok header =>
    match a.preEstablishedConns header.dcid with
    | some conn => (recvAndSend quiche size conn.conn buf info).isOk
    | none =>
      if header.ty ≠ .initial then true
      else if quiche.versionIsSupported header.version = false then
        (quiche.negotiateVersion header.scid header.dcid size).isOk
      else
        match header.token with
        | none => false
        | some token =>
          if token = [] then
            (quiche.retry header.scid header.dcid ((a.sign header.dcid).take maxConnIdLen) (mintToken header info.fromAddr)
              header.version size).isOk
          else
            match validateToken token info.fromAddr with
            | .error _ => false
            | .ok odcid =>
              if maxConnIdLen ≠ header.dcid.length then false
              else
                match quiche.accept a.accepted header.dcid odcid info with
                | .error _ => false
                | .ok q => (recvAndSend quiche size q buf info).isOk

variable {quiche} {size : Nat} {a : QuicAcceptor Q} {buf : Bytes} {info : PathInfo}

theorem acceptConn_isOk (header : Header) (odcid : ConnId) :
    (a.acceptConn quiche size header odcid buf info).2.isOk =
      if maxConnIdLen ≠ header.dcid.length then false
      else
        match quiche.accept a.accepted header.dcid odcid info with
        | .error _ => false
        | .ok q => (recvAndSend quiche size q buf info).isOk := by
  unfold acceptConn
  by_cases hlen : maxConnIdLen ≠ header.dcid.length
  · simp [hlen, Except.isOk, Except.toBool]
  simp only [hlen, if_false]
  rcases quiche.accept a.accepted header.dcid odcid info with err | q
  · rfl
  · simp only
    rcases recvAndSend quiche size q buf info with err | ⟨q', writeSize, packet, sendInfo⟩
    · rfl
    · simp only
      split <;> rfl

theorem clientHello_isOk (header : Header) :
    (a.clientHello quiche size header buf info).2.isOk =
      if quiche.versionIsSupported header.version = false then (quiche.negotiateVersion header.scid header.dcid size).isOk
      else
        match header.token with
        | none => false
        | some token =>
          if token = [] then
            (quiche.retry header.scid header.dcid ((a.sign header.dcid).take maxConnIdLen) (mintToken header info.fromAddr)
              header.version size).isOk
          else
            match validateToken token info.fromAddr with
            | .error _ => false
            | .ok odcid => (a.acceptConn quiche size header odcid buf info).2.isOk := by
  unfold clientHello
  split
  · unfold negotiationVersion
    rcases quiche.negotiateVersion header.scid header.dcid size with err | packet <;> rfl
  · rcases header.token with _ | token
    · rfl
    · simp only
      split
      · unfold QuicAcceptor.retry
        simp only
        rcases quiche.retry header.scid header.dcid ((a.sign header.dcid).take maxConnIdLen) (mintToken header info.fromAddr)
          header.version size with err | packet <;> rfl
      · rcases validateToken token info.fromAddr with err | odcid <;> rfl

/-- `handshake` succeeds exactly for the datagrams that are admitted. -/
theorem handshake_isOk (quiche : Quiche Q) (size : Nat) (a : QuicAcceptor Q) (buf : Bytes) (info : PathInfo) :
    (a.handshake quiche size buf info).2.isOk = admits quiche size a buf info := by
  unfold handshake admits
  rcases quiche.fromSlice buf with err | header
  · rfl
  simp only
  rcases a.preEstablishedConns header.dcid with _ | conn
  · by_cases hinitial : header.ty = .initial
    · simp only [hinitial, if_true, ne_eq, not_true_eq_false, if_false, clientHello_isOk, acceptConn_isOk]
    · simp only [hinitial, if_false, ne_eq, not_false_eq_true, if_true]
      rfl
  · simp only
    rcases recvAndSend quiche size conn.conn buf info with err | ⟨q, writeSize, packet, sendInfo⟩
    · rfl
    · simp only
      split <;> rfl

/-! ### Runs -/

/-- A datagram that the acceptor gets before the listener is closed is admitted. -/
def admitted (quiche : Quiche Q) (s : Server Q) : ServerAction Q → Bool
  | .recv _ _ =>
    match s.recv with
    | .handshake buf info => s.listener.closed || admits quiche s.listener.maxDatagramSize s.listener.acceptor buf info
    | _ => true
  | _ => true

/-- `write` is held up for ever in the streams that a connection has half closed. -/
def HeldUp (quiche : Quiche Q) (s : Server Q) : Prop :=
  ∃ dcid number buf info conn, s.recv = .connWrite dcid number buf info ∧ s.listener.objects number = some conn ∧
    ∀ fuel order, conn.write quiche fuel order buf info = none

/-- Where `send_quantum` is not 0, `write` returns. -/
theorem write_returns {buffered : Q → StreamId → Nat} {failed : Q → StreamId → Prop}
    (hrecv : ReceivesStreams quiche buffered failed) (hquantum : ∀ q, 0 < quiche.sendQuantum q) (conn : QuicConnState Q) :
    ∃ fuel order, (conn.write quiche fuel order buf info).isSome := by
  rcases hstatus : conn.handleQuicConnStatus quiche with ⟨c, err | ok⟩
  · exact ⟨0, [], by simp [QuicConnState.write, hstatus]⟩
  rcases hpacket : quiche.recv c.state.quicheConn buf info with ⟨q, err | writeSize⟩
  · rcases hstatus' : (c.setQuiche q).handleQuicConnStatus quiche with ⟨c', err' | ok'⟩ <;>
      exact ⟨0, [], by simp [QuicConnState.write, hstatus, hpacket, hstatus']⟩
  · let c' := (c.setQuiche q).handleStreamEvents quiche
    obtain ⟨fuel, drained, hdrained⟩ :=
      hrecv.handleHalfClosedStreams c' (hquantum _) _ (Finset.nodup_toList _) (Finset.toList_toFinset _)
    refine ⟨fuel, c'.state.halfClosedStreams.toList, ?_⟩
    simp only [QuicConnState.write, hstatus, hpacket]
    rw [hdrained]
    rfl

/-- And then nothing holds the loop up. -/
theorem not_heldUp {buffered : Q → StreamId → Nat} {failed : Q → StreamId → Prop}
    (hrecv : ReceivesStreams quiche buffered failed) (hquantum : ∀ q, 0 < quiche.sendQuantum q) (s : Server Q) :
    ¬HeldUp quiche s := by
  rintro ⟨dcid, number, buf, info, conn, -, -, hnone⟩
  obtain ⟨fuel, order, hsome⟩ := write_returns hrecv hquantum conn
  rw [hnone fuel order] at hsome
  cases hsome

/-- The listener is open while the loop has met no fault of a datagram. -/
structure Surviving (s : Server Q) : Prop where
  stopped : ∀ fault, s.recv = .stopped (some fault) → s.listener.closed = true
  failed : ∀ fault, s.recv = .written (.error fault) → s.listener.closed = true
  queue : s.listener.incoming = none → s.listener.closed = true
  dropping : ∀ i, s.closes i = .dropIncoming → s.listener.closed = true
  objects : ∀ id number, s.listener.conns id = some number → (s.listener.objects number).isSome
  writing : ∀ dcid number buf info, s.recv = .connWrite dcid number buf info → (s.listener.objects number).isSome

variable {s s' : Server Q}

theorem surviving_start (sendPingInterval : Nanos) (sign : Bytes → Bytes) (maxDatagramSize : Nat) :
    Surviving (Server.start sendPingInterval sign maxDatagramSize : Server Q) where
  stopped := fun fault h => by cases h
  failed := fun fault h => by cases h
  queue := fun h => by cases h
  dropping := fun i h => by cases h
  objects := fun id number h => by cases h
  writing := fun dcid number buf info h => by cases h

/-- A step of the receiving loop, which neither closes the listener nor takes its queue away. -/
theorem Surviving.advance (h : Surviving s) (hclosed : s'.listener.closed = s.listener.closed) (hcloses : s'.closes = s.closes)
    (hqueue : s'.listener.incoming = none → s.listener.incoming = none)
    (hobjects : ∀ id number, s'.listener.conns id = some number → (s'.listener.objects number).isSome)
    (hstopped : ∀ fault, s'.recv = .stopped (some fault) → s.listener.closed = true)
    (hfailed : ∀ fault, s'.recv = .written (.error fault) → s.listener.closed = true)
    (hwriting : ∀ dcid number buf info, s'.recv = .connWrite dcid number buf info → (s'.listener.objects number).isSome) :
    Surviving s' where
  stopped fault hrecv := hclosed ▸ hstopped fault hrecv
  failed fault hrecv := hclosed ▸ hfailed fault hrecv
  queue hnone := hclosed ▸ h.queue (hqueue hnone)
  dropping i hi := hclosed ▸ h.dropping i (hcloses ▸ hi)
  objects := hobjects
  writing := hwriting

/-- The loop goes to a place where nothing is asked of it. -/
theorem Surviving.goto (h : Surviving s) (hclosed : s'.listener.closed = s.listener.closed) (hcloses : s'.closes = s.closes)
    (hqueue : s'.listener.incoming = none → s.listener.incoming = none)
    (hobjects : ∀ id number, s'.listener.conns id = some number → (s'.listener.objects number).isSome)
    (hstopped : ∀ fault, s'.recv ≠ .stopped (some fault)) (hfailed : ∀ fault, s'.recv ≠ .written (.error fault))
    (hwriting : ∀ dcid number buf info, s'.recv ≠ .connWrite dcid number buf info) : Surviving s' :=
  h.advance hclosed hcloses hqueue hobjects (fun fault hrecv => absurd hrecv (hstopped fault))
    (fun fault hrecv => absurd hrecv (hfailed fault)) (fun dcid number buf info hrecv => absurd hrecv (hwriting dcid number buf info))

theorem isSome_setObject {l : QuicListenerState Q} {number : Nat} {conn : QuicConnState Q} {n : Nat}
    (h : (l.objects n).isSome) : ((l.setObject number conn).objects n).isSome := by
  by_cases hn : n = number
  · simp [QuicListenerState.setObject, hn]
  · simpa [QuicListenerState.setObject, hn] using h

/-- A fault of `handshake` means that the listener had been closed: the datagram would not be admitted otherwise. -/
theorem closed_of_admitted {fuel : Nat} {order : List StreamId} {acceptor : QuicAcceptor Q} {fault : Fault}
    (hok : admitted quiche s (.recv fuel order) = true) (hrecv : s.recv = .handshake buf info)
    (hanswer : s.listener.acceptor.handshake quiche s.listener.maxDatagramSize buf info = (acceptor, .error fault)) :
    s.listener.closed = true := by
  have hadmits : s.listener.closed = true ∨
      (s.listener.acceptor.handshake quiche s.listener.maxDatagramSize buf info).2.isOk = true := by
    rw [handshake_isOk]
    simpa [admitted, hrecv] using hok
  rcases hadmits with hclosed | hisOk
  · exact hclosed
  · rw [hanswer] at hisOk
    cases hisOk

theorem Surviving.recvStep {fuel : Nat} {order : List StreamId} (h : Surviving s)
    (hok : admitted quiche s (.recv fuel order) = true) (hs : RecvCases quiche fuel order s s') : Surviving s' := by
  cases hs with
  | turnedAway hrecv hclosed =>
    exact h.advance rfl rfl (fun hnone => hnone) h.objects (by simp) (fun _ _ => hclosed) (by simp)
  | @answered buf info acceptor answer hrecv hanswer =>
    rcases answer with fault | answer
    · have hclosed := closed_of_admitted hok hrecv hanswer
      exact h.advance rfl rfl (fun hnone => hnone) h.objects (by simp [Server.afterHandshake]) (fun _ _ => hclosed)
        (by simp [Server.afterHandshake])
    · refine h.goto rfl rfl (fun hnone => hnone) h.objects ?_ ?_ ?_ <;> cases answer <;> simp [Server.afterHandshake]
  | @routed dcid number buf info hrecv hconn =>
    refine h.advance rfl rfl (fun hnone => hnone) h.objects (by simp) (by simp) fun dcid' number' buf' info' hrecv' => ?_
    cases hrecv'
    exact h.objects dcid number hconn
  | wrote hrecv hobject hwrite | writeFailed hrecv hobject hwrite =>
    exact h.goto rfl rfl (fun hnone => hnone) (fun id number hconn => isSome_setObject (h.objects id number hconn))
      (by simp) (by simp) (by simp)
  | removed hrecv =>
    exact h.goto rfl rfl (fun hnone => hnone) (fun id number hconn => h.objects id number (conns_of_setConn_none hconn))
      (by simp) (by simp) (by simp)
  | @inserted conn pingTimeout writeSize packet sendInfo hrecv =>
    refine h.goto rfl rfl (fun hnone => hnone) (fun id number hconn => ?_) (by simp) (by simp) (by simp)
    by_cases hid : id = quiche.sourceId conn.conn
    · have hnumber : conn.number = number := by simpa [QuicListenerState.setConn, hid] using hconn
      simp [QuicListenerState.setConn, QuicListenerState.setObject, hnumber]
    · exact isSome_setObject (h.objects id number (by
        simpa [QuicListenerState.setConn, QuicListenerState.setObject, hid] using hconn))
  | queueGone hrecv hnone =>
    exact h.advance rfl rfl (fun hnone => hnone) h.objects (by simp) (fun _ _ => h.queue hnone) (by simp)
  | pushed hrecv hqueue =>
    exact h.goto rfl rfl (fun hnone => by cases hnone) h.objects (by simp) (by simp) (by simp)
  | @failed fault hrecv =>
    exact h.advance rfl rfl (fun hnone => hnone) h.objects (fun _ _ => h.failed fault hrecv) (by simp) (by simp)
  | entered | unrouted | notified | batched | toSend | nothingToSend | sent =>
    exact h.goto rfl rfl (fun hnone => hnone) h.objects (by simp) (by simp) (by simp)

theorem Surviving.of_closed (h : Surviving s) (hclosed : s'.listener.closed = true) (hconns : s'.listener.conns = s.listener.conns)
    (hobjects : s'.listener.objects = s.listener.objects) (hrecv : s'.recv = s.recv) : Surviving s' where
  stopped _ _ := hclosed
  failed _ _ := hclosed
  queue _ := hclosed
  dropping _ _ := hclosed
  objects := by rw [hconns, hobjects]; exact h.objects
  writing := by rw [hrecv, hobjects]; exact h.writing

/-- A step beside the receiving loop that does not close the listener. -/
theorem Surviving.beside (h : Surviving s) (hclosed : s'.listener.closed = s.listener.closed) (hrecv : s'.recv = s.recv)
    (hqueue : s'.listener.incoming = none → s.listener.incoming = none)
    (hdropping : ∀ i, s'.closes i = .dropIncoming → s.closes i = .dropIncoming)
    (hconns : ∀ id number, s'.listener.conns id = some number → s.listener.conns id = some number)
    (hobjects : ∀ number, (s.listener.objects number).isSome → (s'.listener.objects number).isSome) : Surviving s' where
  stopped := by rw [hrecv, hclosed]; exact h.stopped
  failed := by rw [hrecv, hclosed]; exact h.failed
  queue hnone := hclosed ▸ h.queue (hqueue hnone)
  dropping i hi := hclosed ▸ h.dropping i (hdropping i hi)
  objects id number hconn := hobjects number (h.objects id number (hconns id number hconn))
  writing dcid number buf info hwriting := hobjects number (h.writing dcid number buf info (hrecv ▸ hwriting))

theorem Surviving.still (h : Surviving s) (hclosed : s'.listener.closed = s.listener.closed) (hrecv : s'.recv = s.recv)
    (hincoming : s'.listener.incoming = s.listener.incoming) (hcloses : s'.closes = s.closes)
    (hconns : s'.listener.conns = s.listener.conns) (hobjects : s'.listener.objects = s.listener.objects) : Surviving s' :=
  h.beside hclosed hrecv (fun hnone => hincoming ▸ hnone) (fun _ hj => hcloses ▸ hj) (fun _ _ hconn => hconns ▸ hconn)
    (fun _ hsome => hobjects ▸ hsome)

theorem dropIncoming_of_setClose {i j : Nat} {close : Close} (hclose : close ≠ .dropIncoming)
    (h : (s.setClose i close).closes j = .dropIncoming) : s.closes j = .dropIncoming := by
  by_cases hj : j = i
  · exact absurd (by simpa [Server.setClose, hj] using h) hclose
  · simpa [Server.setClose, hj] using h

theorem Surviving.closeStep {i : Nat} (h : Surviving s) (hs : CloseCases i s s') : Surviving s' := by
  cases hs with
  | closedBefore _ hclosed => exact h.of_closed hclosed rfl rfl rfl
  | exchanged => exact h.of_closed rfl rfl rfl rfl
  | droppedIncoming hdrop => exact h.of_closed (h.dropping i hdrop) rfl rfl rfl
  | closedReads =>
    exact h.beside rfl rfl (fun hnone => hnone) (fun j hj => dropIncoming_of_setClose (by simp) hj) (fun _ _ hconn => hconn)
      (fun _ hsome => hsome)

theorem Surviving.acceptStep {i : Nat} (h : Surviving s) (hs : AcceptCases i s s') : Surviving s' := by
  cases hs with
  | popped =>
    exact h.beside rfl rfl (fun hnone => by cases hnone) (fun _ hj => hj) (fun _ _ hconn => hconn) (fun _ hsome => hsome)
  | queueGone | waits | woken | panicked => exact h.still rfl rfl rfl rfl rfl rfl

theorem Surviving.readReady {number : Nat} {packet : Option (Bytes × PathInfo)} (h : Surviving s)
    (hs : ReadCases number s packet s') : Surviving s' := by
  cases hs with
  | stopped | sent => exact h.still rfl rfl rfl rfl rfl rfl
  | failed =>
    exact h.beside rfl rfl (fun hnone => hnone) (fun _ hj => hj) (fun _ _ hconn => conns_of_setConn_none hconn)
      (fun _ hsome => hsome)

theorem Surviving.step {a : ServerAction Q} (h : Surviving s) (hok : admitted quiche s a = true)
    (hs : s.step quiche a = some s') : Surviving s' := by
  cases step_cases hs with
  | recv hs => exact h.recvStep hok hs
  | close hs => exact h.closeStep hs
  | accept hs => exact h.acceptStep hs
  | readReady hs => exact h.readReady hs
  | datagram | socketError => exact h.goto rfl rfl (fun hnone => hnone) h.objects (by simp) (by simp) (by simp)
  | callClose =>
    exact h.beside rfl rfl (fun hnone => hnone) (fun j hj => dropIncoming_of_setClose (by simp) hj) (fun _ _ hconn => hconn)
      (fun _ hsome => hsome)
  | use =>
    exact h.beside rfl rfl (fun hnone => hnone) (fun _ hj => hj) (fun _ _ hconn => hconn) (fun _ hsome => isSome_setObject hsome)
  | elapse | callAccept | readNoneStopped => exact h.still rfl rfl rfl rfl rfl rfl
  | readNone => exact h

/-- Where the loop is not waiting for its socket, has not ended and is not held up, its next step is possible. -/
theorem Surviving.goes_on (h : Surviving s) (hheld : ¬HeldUp quiche s) (hwaiting : s.recv ≠ .recvFrom)
    (hrunning : ∀ fault, s.recv ≠ .stopped fault) : ∃ fuel order, (s.step quiche (.recv fuel order)).isSome := by
  cases hrecv : s.recv with
  | recvFrom => exact absurd hrecv hwaiting
  | stopped fault => exact absurd hrecv (hrunning fault)
  | connWrite dcid number buf info =>
    obtain ⟨conn, hconn⟩ := Option.isSome_iff_exists.mp (h.writing dcid number buf info hrecv)
    have hwrite : ∃ fuel order, conn.write quiche fuel order buf info ≠ none := by
      by_contra hnone
      exact hheld ⟨dcid, number, buf, info, conn, hrecv, hconn, fun fuel order =>
        by_contra fun hsome => hnone ⟨fuel, order, hsome⟩⟩
    obtain ⟨fuel, order, hwrite⟩ := hwrite
    obtain ⟨⟨conn', result⟩, hwrite⟩ := Option.ne_none_iff_exists'.mp hwrite
    refine ⟨fuel, order, ?_⟩
    simp only [Server.step, Server.recvStep, hrecv, hconn, hwrite]
    cases result <;> rfl
  | _ =>
    refine ⟨0, [], ?_⟩
    simp only [Server.step, Server.recvStep, hrecv]
    repeat' split
    all_goals first | rfl | simp_all

/-- The loop has ended only when the listener was closed or the socket had failed, if every datagram that the
    acceptor got before was admitted; and where it has not ended, it goes on, unless it is held up in `write`. -/
theorem recv_loop_survives (quiche : Quiche Q) (sendPingInterval : Nanos) (sign : Bytes → Bytes) (maxDatagramSize : Nat)
    (s : Server Q)
    (h : Reaches (Server.step quiche) (fun s a => admitted quiche s a = true)
      (Server.start sendPingInterval sign maxDatagramSize) s) :
    (∀ fault, s.recv = .stopped fault → s.listener.closed = true ∨ s.recv = .socketFailed) ∧
    (¬HeldUp quiche s → s.recv = .recvFrom ∨ (∃ fault, s.recv = .stopped fault) ∨
      ∃ fuel order, (s.step quiche (.recv fuel order)).isSome) := by
  have hsurviving : Surviving s :=
    h.invariant (surviving_start sendPingInterval sign maxDatagramSize) (fun hinv hok hs => hinv.step hok hs)
  constructor
  · intro fault hstopped
    cases fault with
    | none => exact Or.inr hstopped
    | some fault => exact Or.inl (hsurviving.stopped fault hstopped)
  · intro hheld
    by_cases hwaiting : s.recv = .recvFrom
    · exact Or.inl hwaiting
    by_cases hstopped : ∃ fault, s.recv = .stopped fault
    · exact Or.inr (Or.inl hstopped)
    exact Or.inr (Or.inr (hsurviving.goes_on hheld hwaiting fun fault hfault => hstopped ⟨fault, hfault⟩))

/-- A connection is made; the listener is closed, and the next datagram finds it closed. -/
def closedRun : List (ServerAction Sample) :=
  Sample.receive Sample.initialPacket 4 ++ [.callClose 0, .close 0] ++ Sample.receive (Sample.shortPacket 0) 2

/-- A connection is made and established, each by a datagram that is admitted, and the loop is about to write a third
    datagram to it. -/
def establishedRun : List (ServerAction Sample) :=
  Sample.receive Sample.initialPacket 4 ++ Sample.receive (Sample.shortPacket 0) 7 ++ Sample.receive (Sample.shortPacket 0) 3

/-- The loop is about to write a datagram to a connection, and `write` returns. -/
def writes (s : Server Sample) : Bool :=
  match s.recv with
  | .connWrite _ number buf info =>
    ((s.listener.objects number).bind fun conn => conn.write Sample.quiche 1 [] buf info).isSome
  | _ => false

theorem not_heldUp_of_writes {s : Server Sample} (h : writes s = true) : ¬HeldUp Sample.quiche s := by
  rintro ⟨dcid, number, buf, info, conn, hrecv, hconn, hnone⟩
  simp [writes, hrecv, hconn, hnone] at h

/-- The loop of the closed listener has ended, and that of the open one goes on. -/
theorem recv_loop_survives_closedRun :
    (∃ s fault, runIf (Server.step Sample.quiche) (admitted Sample.quiche) (Server.start 1000 id 1200) closedRun = some s ∧
      s.recv = .stopped (some fault) ∧ (s.listener.closed = true ∨ s.recv = .socketFailed)) ∧
    ∃ s, runIf (Server.step Sample.quiche) (admitted Sample.quiche) (Server.start 1000 id 1200) establishedRun = some s ∧
      s.listener.closed = false ∧ writes s = true ∧ ∃ fuel order, (s.step Sample.quiche (.recv fuel order)).isSome := by
  refine ⟨⟨_, _, rfl, rfl, (recv_loop_survives Sample.quiche 1000 id 1200 _ (.of_runIf closedRun (fun _ _ h => h) rfl)).1 _ rfl⟩,
    ?_⟩
  have hrun : ((runIf (Server.step Sample.quiche) (admitted Sample.quiche) (Server.start 1000 id 1200) establishedRun).any
      fun s => !s.listener.closed && writes s) = true := by decide +kernel
  obtain ⟨s, hs, hopen⟩ := (Option.any_eq_true _ _).mp hrun
  obtain ⟨hclosed, hwrites⟩ : s.listener.closed = false ∧ writes s = true := by simpa using hopen
  refine ⟨s, hs, hclosed, hwrites, ?_⟩
  rcases (recv_loop_survives Sample.quiche 1000 id 1200 s (.of_runIf establishedRun (fun _ _ h => h) hs)).2
    (not_heldUp_of_writes hwrites) with hwaiting | ⟨_, hstopped⟩ | hstep
  · simp [writes, hwaiting] at hwrites
  · simp [writes, hstopped] at hwrites
  · exact hstep

/-- A datagram of one byte, which is no packet at all, ends the loop of an open listener. -/
theorem recv_loop_stopped :
    ∃ s fault, Reachable (Server.step Sample.quiche) (Server.start 1000 id 1200) s ∧
      s.recv = .stopped (some fault) ∧ s.listener.closed = false :=
  ⟨_, _, Reachable.of_run (Sample.receive [0x40] 3) rfl, rfl, rfl⟩

end Hala.Quic
