import Hala.Theorems.Quic.Server
import Hala.Quic.Sample

/-! What a `write` that returns an error leaves of the tables.

`Stage` follows one call of `write` through its places while calls of `close` run beside it. -/

namespace Hala.Quic
open Machine QuicAcceptor
variable {Q : Type}

/-- The datagram is for a pre-established connection, whose `recv` rejects it or whose `send` fails. -/
def Rejects (quiche : Quiche Q) (size : Nat) (a : QuicAcceptor Q) (buf : Bytes) (info : PathInfo) : Prop :=
  ∃ id conn err, Addressed quiche a buf id conn ∧ recvAndSend quiche size conn.conn buf info = .error err

/-- The datagram establishes the pre-established connection that it is for, or the one that is made for it. -/
def Establishes (quiche : Quiche Q) (size : Nat) (a : QuicAcceptor Q) (buf : Bytes) (info : PathInfo) : Prop :=
  (∃ id conn q writeSize packet sendInfo, Addressed quiche a buf id conn ∧
    recvAndSend quiche size conn.conn buf info = .ok (q, writeSize, packet, sendInfo) ∧ quiche.isEstablished q = true) ∨
  ∃ header q q' writeSize packet sendInfo, Makes quiche a buf info header q ∧
    recvAndSend quiche size q buf info = .ok (q', writeSize, packet, sendInfo) ∧ quiche.isEstablished q' = true

/-- The queue of `s` is still there, or a call of `close` that had not returned in `s` has dropped it. -/
def SameIncoming (s t : Server Q) : Prop :=
  t.listener.incoming = s.listener.incoming ∨
  (t.listener.incoming = none ∧ ∃ i, s.closes i ≠ .returned ∧ t.closes i = .returned)

/-- The tables, the queue and the batch are the same, up to what `close` does to the queue. -/
structure SameTables (s t : Server Q) : Prop where
  pre : t.listener.acceptor.preEstablishedConns = s.listener.acceptor.preEstablishedConns
  conns : t.listener.conns = s.listener.conns
  incoming : SameIncoming s t
  connsRead : t.listener.connsRead = s.listener.connsRead

/-- The connections in `conns` have been made. -/
def Numbered (l : QuicListenerState Q) : Prop := ∀ id number, l.conns id = some number → number < l.acceptor.accepted

variable {quiche : Quiche Q} {size : Nat} {a a' : QuicAcceptor Q} {buf : Bytes} {info : PathInfo}

theorem HandshakeCases.pre_eq_iff {err : IoError} (h : HandshakeCases quiche size a buf info a' (.error (.err err))) :
    a'.preEstablishedConns = a.preEstablishedConns ↔ ¬Rejects quiche size a buf info := by
  cases h with
  | unreadable hheader =>
    refine iff_of_true rfl ?_
    rintro ⟨id, conn, err', ⟨header, hheader', -⟩, -⟩
    cases hheader.symm.trans hheader'
  | @rejected id conn _ haddressed hexchange =>
    refine iff_of_false (fun hsame => ?_) (not_not.mpr ⟨id, conn, err, haddressed, hexchange⟩)
    obtain ⟨header, -, -, hpre⟩ := haddressed
    rw [← congrFun hsame id] at hpre
    simp [setPreEstablished] at hpre
  | refused hhello _ =>
    refine iff_of_true rfl ?_
    rintro ⟨id, conn, err', haddressed, -⟩
    exact hhello.not_addressed haddressed
  | dropped hmakes _ =>
    refine iff_of_true rfl ?_
    rintro ⟨id, conn, err', haddressed, -⟩
    exact hmakes.1.not_addressed haddressed

/-- A datagram that establishes a connection is answered by `Incoming`. -/
theorem HandshakeCases.incoming {answer : Except Fault (QuicAcceptorHandshake Q)}
    (h : HandshakeCases quiche size a buf info a' answer) (hestablishes : Establishes quiche size a buf info) :
    ∃ conn pingTimeout writeSize packet sendInfo, answer = .ok (.incoming conn pingTimeout writeSize packet sendInfo) := by
  rcases hestablishes with ⟨id, conn, q, writeSize, packet, sendInfo, haddressed, hexchange, hq⟩ |
    ⟨header, q, q', writeSize, packet, sendInfo, hmakes, hexchange, hq⟩
  · cases h with
    | unreadable hheader =>
      obtain ⟨header, hheader', -⟩ := haddressed
      cases hheader.symm.trans hheader'
    | rejected haddressed' hexchange' =>
      obtain ⟨-, rfl⟩ := haddressed.unique haddressed'
      cases hexchange.symm.trans hexchange'
    | completed => exact ⟨_, _, _, _, _, rfl⟩
    | continued haddressed' hexchange' hq' =>
      obtain ⟨-, rfl⟩ := haddressed.unique haddressed'
      cases hexchange.symm.trans hexchange'
      cases hq.symm.trans hq'
    | unhandled hheader hpre _ =>
      obtain ⟨header, hheader', rfl, hpre'⟩ := haddressed
      cases hheader.symm.trans hheader'
      cases hpre.symm.trans hpre'
    | refused hhello _ | answered hhello _ => exact absurd haddressed hhello.not_addressed
    | dropped hmakes _ | established hmakes _ _ | made hmakes _ _ => exact absurd haddressed hmakes.1.not_addressed
  · cases h with
    | unreadable hheader => cases hheader.symm.trans hmakes.1.1
    | rejected haddressed _ | completed haddressed _ _ | continued haddressed _ _ =>
      exact absurd haddressed hmakes.1.not_addressed
    | unhandled hheader _ hty =>
      cases hheader.symm.trans hmakes.1.1
      exact absurd hmakes.1.2.2 hty
    | refused hhello hnone | answered hhello hnone =>
      cases hhello.1.symm.trans hmakes.1.1
      exact absurd hmakes (hnone q)
    | dropped hmakes' hexchange' =>
      obtain ⟨-, rfl⟩ := hmakes.unique hmakes'
      cases hexchange.symm.trans hexchange'
    | established => exact ⟨_, _, _, _, _, rfl⟩
    | made hmakes' hexchange' hq' =>
      obtain ⟨-, rfl⟩ := hmakes.unique hmakes'
      cases hexchange.symm.trans hexchange'
      cases hq.symm.trans hq'

/-- What `Incoming` and the insertion after it do to the two tables of connections. -/
theorem HandshakeCases.tables_changed {l : QuicListenerState Q} {conn : Accepted Q} {pingTimeout : Nanos} {writeSize : Nat}
    {packet : Bytes} {sendInfo : PathInfo} (hnumbered : Numbered l)
    (h : HandshakeCases quiche size l.acceptor buf info a' (.ok (.incoming conn pingTimeout writeSize packet sendInfo))) :
    Establishes quiche size l.acceptor buf info ∧
    (a'.preEstablishedConns = l.acceptor.preEstablishedConns →
      Function.update l.conns (quiche.sourceId conn.conn) (some conn.number) ≠ l.conns) := by
  cases h with
  | @completed id conn q _ _ _ haddressed hexchange hq =>
    refine ⟨Or.inl ⟨id, conn, q, writeSize, packet, sendInfo, haddressed, hexchange, hq⟩, fun hsame => ?_⟩
    obtain ⟨header, -, -, hpre⟩ := haddressed
    rw [← congrFun hsame id] at hpre
    simp [setPreEstablished] at hpre
  | @established header q q' _ _ _ hmakes hexchange hq =>
    refine ⟨Or.inr ⟨header, q, q', writeSize, packet, sendInfo, hmakes, hexchange, hq⟩, fun _ hconns => ?_⟩
    -- The connection has a new number, so it was not in `conns` before.
    have hconn : l.conns (quiche.sourceId q') = some l.acceptor.accepted := by
      rw [← congrFun hconns (quiche.sourceId q')]
      simp
    exact absurd (hnumbered _ _ hconn) (lt_irrefl _)

/-! ### A call of `write` and the calls of `close` beside it -/

/-- The call cannot return an error any more, or has returned. -/
def Recv.passed : Recv Q → Bool
  | .handleStatus .. | .handshake .. | .insertConn .. | .pushIncoming .. | .written (.error _) => false
  | _ => true

/-- The queue and the batch are the same, up to what `close` does, and no call of `close` is undone. -/
structure SameRest (s t : Server Q) : Prop where
  incoming : SameIncoming s t
  connsRead : t.listener.connsRead = s.listener.connsRead
  closes : ∀ i, s.closes i = .returned → t.closes i = .returned

/-- The answer of the acceptor, as it was when the call began. -/
abbrev answerAt (quiche : Quiche Q) (s : Server Q) (buf : Bytes) (info : PathInfo) :
    QuicAcceptor Q × Except Fault (QuicAcceptorHandshake Q) :=
  s.listener.acceptor.handshake quiche s.listener.maxDatagramSize buf info

/-- How far a call of `write` that began in `s` has come in `t`. -/
inductive Stage (quiche : Quiche Q) (s : Server Q) (buf : Bytes) (info : PathInfo) (t : Server Q) : Prop
  | turnedAway {fault : Fault} : s.listener.closed = true → t.recv = .written (.error fault) →
      t.listener.acceptor = s.listener.acceptor → t.listener.conns = s.listener.conns →
      SameRest s t → Stage quiche s buf info t
  | entered : s.listener.closed = false → t.recv = .handshake buf info → t.listener.acceptor = s.listener.acceptor →
      t.listener.maxDatagramSize = s.listener.maxDatagramSize → t.listener.conns = s.listener.conns →
      SameRest s t → Stage quiche s buf info t
  | answered : s.listener.closed = false → t.recv = Server.afterHandshake buf info (answerAt quiche s buf info).2 →
      t.listener.acceptor = (answerAt quiche s buf info).1 → t.listener.conns = s.listener.conns →
      SameRest s t → Stage quiche s buf info t
  | inserted {conn : Accepted Q} {pingTimeout : Nanos} {writeSize : Nat} {packet : Bytes} {sendInfo : PathInfo} :
      s.listener.closed = false →
      (answerAt quiche s buf info).2 = .ok (.incoming conn pingTimeout writeSize packet sendInfo) →
      (t.recv = .pushIncoming conn.number writeSize packet sendInfo ∨ ∃ fault, t.recv = .written (.error fault)) →
      t.listener.acceptor = (answerAt quiche s buf info).1 →
      t.listener.conns = Function.update s.listener.conns (quiche.sourceId conn.conn) (some conn.number) →
      Stage quiche s buf info t
  | passed : t.recv.passed = true → Stage quiche s buf info t

/-- The steps of `write` itself and of `close`. -/
def alongside : ServerAction Q → Prop
  | .recv _ _ | .callClose _ | .close _ | .elapse _ => True
  | _ => False

variable {s t t' : Server Q}

theorem SameRest.refl : SameRest s s := ⟨Or.inl rfl, rfl, fun _ hi => hi⟩

/-- A step that leaves the queue alone. -/
theorem SameRest.still (h : SameRest s t) (hincoming : t'.listener.incoming = t.listener.incoming)
    (hread : t'.listener.connsRead = t.listener.connsRead) (hcloses : ∀ i, t.closes i = .returned → t'.closes i = .returned) :
    SameRest s t' := by
  refine ⟨?_, hread.trans h.connsRead, fun i hi => hcloses i (h.closes i hi)⟩
  rcases h.incoming with hsame | ⟨hnone, i, hbefore, hafter⟩
  · exact Or.inl (hincoming.trans hsame)
  · exact Or.inr ⟨hincoming.trans hnone, i, hbefore, hcloses i hafter⟩

theorem returned_of_setClose {i j : Nat} {close : Close} (hi : t.closes i ≠ .returned) (h : t.closes j = .returned) :
    (t.setClose i close).closes j = .returned := by
  have hj : j ≠ i := by
    rintro rfl
    exact hi h
  simpa [Server.setClose, hj] using h

/-- The step of `close` that drops the queue. -/
theorem SameRest.drop {i : Nat} (h : SameRest s t) (hi : t.closes i = .dropIncoming) (hincoming : t'.listener.incoming = none)
    (hread : t'.listener.connsRead = t.listener.connsRead) (hcloses : t'.closes = (t.setClose i .returned).closes) :
    SameRest s t' := by
  have hbefore : t.closes i ≠ .returned := by simp [hi]
  refine ⟨Or.inr ⟨hincoming, i, fun hreturned => hbefore (h.closes i hreturned), ?_⟩, hread.trans h.connsRead, fun j hj => ?_⟩
  · simp [hcloses, Server.setClose]
  · rw [hcloses]
    exact returned_of_setClose hbefore (h.closes j hj)

/-- A step of `close` changes nothing that a stage speaks of but the queue. -/
theorem Stage.close (h : Stage quiche s buf info t) (hrecv : t'.recv = t.recv)
    (hacceptor : t'.listener.acceptor = t.listener.acceptor) (hsize : t'.listener.maxDatagramSize = t.listener.maxDatagramSize)
    (hconns : t'.listener.conns = t.listener.conns) (hrest : SameRest s t → SameRest s t') : Stage quiche s buf info t' := by
  cases h with
  | turnedAway hclosed hwritten hacceptor' hconns' hrest' =>
    exact .turnedAway hclosed (hrecv.trans hwritten) (hacceptor.trans hacceptor') (hconns.trans hconns') (hrest hrest')
  | entered hopen hentered hacceptor' hsize' hconns' hrest' =>
    exact .entered hopen (hrecv.trans hentered) (hacceptor.trans hacceptor') (hsize.trans hsize') (hconns.trans hconns')
      (hrest hrest')
  | answered hopen hanswered hacceptor' hconns' hrest' =>
    exact .answered hopen (hrecv.trans hanswered) (hacceptor.trans hacceptor') (hconns.trans hconns') (hrest hrest')
  | inserted hopen hanswer hplace hacceptor' hconns' =>
    exact .inserted hopen hanswer (hrecv ▸ hplace) (hacceptor.trans hacceptor') (hconns.trans hconns')
  | passed hpassed => exact .passed (hrecv ▸ hpassed)

theorem passed_recvStep {fuel : Nat} {order : List StreamId} (h : t.recv.passed = true)
    (hs : t.recvStep quiche fuel order = some t') : t'.recv.passed = true := by
  cases recv_cases hs with
  | turnedAway hrecv | entered hrecv | answered hrecv | inserted hrecv | queueGone hrecv | pushed hrecv | failed hrecv =>
    rw [hrecv] at h
    cases h
  | unrouted | routed | wrote | writeFailed | removed | notified | batched | toSend | nothingToSend | sent => rfl

theorem stopped_of_written {fault : Fault} {fuel : Nat} {order : List StreamId} (h : t.recv = .written (.error fault))
    (hs : t.recvStep quiche fuel order = some t') : t'.recv.passed = true := by
  simp only [Server.recvStep, h] at hs
  cases hs
  rfl

theorem Stage.recvStep {fuel : Nat} {order : List StreamId} (h : Stage quiche s buf info t)
    (hs : t.recvStep quiche fuel order = some t') : Stage quiche s buf info t' := by
  cases h with
  | turnedAway _ hwritten _ _ _ => exact .passed (stopped_of_written hwritten hs)
  | passed hpassed => exact .passed (passed_recvStep hpassed hs)
  | entered hopen hentered hacceptor hsize hconns hrest =>
    simp only [Server.recvStep, hentered, hacceptor, hsize] at hs
    cases hs
    exact .answered hopen rfl rfl hconns (hrest.still rfl rfl fun _ hi => hi)
  | answered hopen hanswered hacceptor hconns hrest =>
    rcases hanswer : (answerAt quiche s buf info).2 with fault | answer
    · rw [hanswer] at hanswered
      exact .passed (stopped_of_written hanswered hs)
    · cases answer with
      | unhandled | internal =>
        rw [hanswer] at hanswered
        exact .passed (passed_recvStep (by rw [hanswered]; rfl) hs)
      | incoming conn pingTimeout writeSize packet sendInfo =>
        rw [hanswer] at hanswered
        simp only [Server.recvStep, hanswered, Server.afterHandshake] at hs
        cases hs
        refine .inserted hopen hanswer (Or.inl rfl) hacceptor ?_
        rw [← hconns]
        rfl
  | inserted hopen hanswer hplace hacceptor hconns =>
    rcases hplace with hpush | ⟨fault, hwritten⟩
    · simp only [Server.recvStep, hpush] at hs
      split at hs
      · cases hs
        exact .inserted hopen hanswer (Or.inr ⟨_, rfl⟩) hacceptor hconns
      · cases hs
        exact .passed rfl
    · exact .passed (stopped_of_written hwritten hs)

theorem Stage.closeStep {i : Nat} (h : Stage quiche s buf info t) (hs : CloseCases i t t') : Stage quiche s buf info t' := by
  cases hs with
  | droppedIncoming hi => exact h.close rfl rfl rfl rfl fun hrest => hrest.drop hi rfl rfl rfl
  | closedBefore hi | exchanged hi | closedReads hi =>
    have hrunning : t.closes i ≠ .returned := by simp [hi]
    exact h.close rfl rfl rfl rfl fun hrest => hrest.still rfl rfl fun _ hj => returned_of_setClose hrunning hj

theorem Stage.step {a : ServerAction Q} (h : Stage quiche s buf info t) (ha : alongside a)
    (hs : t.step quiche a = some t') : Stage quiche s buf info t' := by
  cases a with
  | recv fuel order => exact h.recvStep hs
  | close i => exact h.closeStep (close_cases hs)
  | elapse nanos =>
    cases hs
    exact h.close rfl rfl rfl rfl fun hrest => hrest.still rfl rfl fun _ hj => hj
  | callClose i =>
    cases step_cases hs with
    | callClose hi =>
      have hrunning : t.closes i ≠ .returned := by simp [hi]
      exact h.close rfl rfl rfl rfl fun hrest => hrest.still rfl rfl fun _ hj => returned_of_setClose hrunning hj
  | _ => cases ha

/-- The first step of `write`. -/
theorem Stage.begin {fuel : Nat} {order : List StreamId} (hrecv : s.recv = .handleStatus buf info)
    (hs : s.step quiche (.recv fuel order) = some t) : Stage quiche s buf info t := by
  simp only [Server.step, Server.recvStep, hrecv] at hs
  split at hs
  · next hclosed =>
    cases hs
    exact .turnedAway hclosed rfl rfl rfl (SameRest.refl.still rfl rfl fun _ hi => hi)
  · next hopen =>
    cases hs
    exact .entered (by simpa using hopen) rfl rfl rfl rfl (SameRest.refl.still rfl rfl fun _ hi => hi)

/-- Whether the tables are the same when the call has returned an error. -/
theorem Stage.same_iff {err : IoError} (hnumbered : Numbered s.listener) (h : Stage quiche s buf info t)
    (hwritten : t.recv = .written (.error (.err err))) :
    SameTables s t ↔
      ¬(s.listener.closed = false ∧
        (Rejects quiche s.listener.maxDatagramSize s.listener.acceptor buf info ∨
          Establishes quiche s.listener.maxDatagramSize s.listener.acceptor buf info)) := by
  have hcases := handshake_cases quiche s.listener.maxDatagramSize s.listener.acceptor buf info
  cases h with
  | turnedAway hclosed _ hacceptor hconns hrest =>
    refine iff_of_true ⟨by rw [hacceptor], hconns, hrest.incoming, hrest.connsRead⟩ ?_
    rintro ⟨hopen, -⟩
    cases hclosed.symm.trans hopen
  | entered _ hentered _ _ _ _ => cases hentered.symm.trans hwritten
  | passed hpassed =>
    rw [hwritten] at hpassed
    cases hpassed
  | answered hopen hanswered hacceptor hconns hrest =>
    have hanswer : (answerAt quiche s buf info).2 = .error (.err err) := by
      rcases hanswer : (answerAt quiche s buf info).2 with fault | answer
      · rw [hanswer, hwritten] at hanswered
        cases hanswered
        rfl
      · rw [hanswer, hwritten] at hanswered
        cases answer <;> cases hanswered
    rw [hanswer] at hcases
    have hpre := hcases.pre_eq_iff
    rw [← hacceptor] at hpre
    have hestablishes : ¬Establishes quiche s.listener.maxDatagramSize s.listener.acceptor buf info := by
      intro hestablishes
      obtain ⟨conn, pingTimeout, writeSize, packet, sendInfo, heq⟩ := hcases.incoming hestablishes
      cases heq
    constructor
    · rintro hsame ⟨-, hrejects | hestablishes'⟩
      · exact hpre.mp hsame.pre hrejects
      · exact hestablishes hestablishes'
    · intro hharmless
      exact ⟨hpre.mpr fun hrejects => hharmless ⟨hopen, Or.inl hrejects⟩, hconns, hrest.incoming, hrest.connsRead⟩
  | inserted hopen hanswer _ hacceptor hconns =>
    rw [hanswer] at hcases
    obtain ⟨hestablishes, hchanged⟩ := hcases.tables_changed hnumbered
    refine iff_of_false (fun hsame => ?_) (not_not.mpr ⟨hopen, Or.inr hestablishes⟩)
    refine hchanged ?_ (hconns ▸ hsame.conns)
    rw [← hsame.pre, hacceptor]

/-- A `handshake` that fails leaves the pre-established connections as they were exactly when none of them was
    addressed and rejected the datagram. A `write` that fails leaves all tables as they were, while `close` runs
    beside it, exactly when the datagram reached no connection that rejected it and established none. -/
theorem error_atomic_iff (quiche : Quiche Q) :
    (∀ (size : Nat) (a : QuicAcceptor Q) (buf : Bytes) (info : PathInfo) (err : IoError),
      (a.handshake quiche size buf info).2 = .error (.err err) →
      ((a.handshake quiche size buf info).1.preEstablishedConns = a.preEstablishedConns ↔ ¬Rejects quiche size a buf info)) ∧
    ∀ (s s₁ t : Server Q) (buf : Bytes) (info : PathInfo) (fuel : Nat) (order : List StreamId) (err : IoError),
      Numbered s.listener → s.recv = .handleStatus buf info → s.step quiche (.recv fuel order) = some s₁ →
      Reaches (Server.step quiche) (fun _ a => alongside a) s₁ t → t.recv = .written (.error (.err err)) →
      (SameTables s t ↔
        ¬(s.listener.closed = false ∧
          (Rejects quiche s.listener.maxDatagramSize s.listener.acceptor buf info ∨
            Establishes quiche s.listener.maxDatagramSize s.listener.acceptor buf info))) := by
  constructor
  · intro size a buf info err hanswer
    have hcases := handshake_cases quiche size a buf info
    rw [hanswer] at hcases
    exact hcases.pre_eq_iff
  · intro s s₁ t buf info fuel order err hnumbered hrecv hfirst hreaches hwritten
    have hstage : Stage quiche s buf info t :=
      hreaches.invariant (.begin hrecv hfirst) (fun hinv ha hs => hinv.step ha hs)
    exact hstage.same_iff hnumbered hwritten

/-! ### The numbers of connections -/

/-- Every connection that the server knows has been made. -/
structure Counted (s : Server Q) : Prop where
  pre : ∀ id conn, s.listener.acceptor.preEstablishedConns id = some conn → conn.number < s.listener.acceptor.accepted
  conns : Numbered s.listener
  inserting : ∀ conn pingTimeout writeSize packet sendInfo,
    s.recv = .insertConn conn pingTimeout writeSize packet sendInfo → conn.number < s.listener.acceptor.accepted

theorem Counted.frame (h : Counted s) (hacceptor : t.listener.acceptor = s.listener.acceptor)
    (hconns : ∀ id number, t.listener.conns id = some number → s.listener.conns id = some number)
    (hrecv : ∀ conn pingTimeout writeSize packet sendInfo,
      t.recv = .insertConn conn pingTimeout writeSize packet sendInfo → t.recv = s.recv) : Counted t where
  pre := by rw [hacceptor]; exact h.pre
  conns id number hconn := by
    rw [hacceptor]
    exact h.conns id number (hconns id number hconn)
  inserting conn pingTimeout writeSize packet sendInfo hinserting := by
    rw [hacceptor]
    exact h.inserting conn pingTimeout writeSize packet sendInfo (hrecv conn _ _ _ _ hinserting ▸ hinserting)

/-- The acceptor has made as many connections or one more, and knows no others. -/
theorem HandshakeCases.counted {answer : Except Fault (QuicAcceptorHandshake Q)} (h : HandshakeCases quiche size a buf info a' answer)
    (hpre : ∀ id conn, a.preEstablishedConns id = some conn → conn.number < a.accepted) :
    a.accepted ≤ a'.accepted ∧ (∀ id conn, a'.preEstablishedConns id = some conn → conn.number < a'.accepted) ∧
    ∀ conn pingTimeout writeSize packet sendInfo,
      answer = .ok (.incoming conn pingTimeout writeSize packet sendInfo) → conn.number < a'.accepted := by
  have hset {n : Nat} (hle : a.accepted ≤ n) (id : ConnId) (conn : Option (Accepted Q))
      (hconn : ∀ conn', conn = some conn' → conn'.number < n) (id' : ConnId) (conn' : Accepted Q)
      (hconn' : Function.update a.preEstablishedConns id conn id' = some conn') : conn'.number < n := by
    by_cases hid : id' = id
    · exact hconn conn' (by simpa [hid] using hconn')
    · exact (hpre id' conn' (by simpa [hid] using hconn')).trans_le hle
  have haddressed {id : ConnId} {conn : Accepted Q} (hconn : Addressed quiche a buf id conn) : conn.number < a.accepted := by
    obtain ⟨header, -, -, hconn⟩ := hconn
    exact hpre id conn hconn
  cases h with
  | unreadable | unhandled | refused | answered => exact ⟨le_rfl, hpre, by simp⟩
  | rejected hconn _ => exact ⟨le_rfl, hset le_rfl _ _ (by simp), by simp⟩
  | completed hconn _ _ =>
    refine ⟨le_rfl, hset le_rfl _ _ (by simp), fun conn' _ _ _ _ heq => ?_⟩
    cases heq
    have hnumber := haddressed hconn
    exact hnumber
  | continued hconn _ _ =>
    refine ⟨le_rfl, hset le_rfl _ _ fun conn' heq => ?_, by simp⟩
    cases heq
    have hnumber := haddressed hconn
    exact hnumber
  | dropped => exact ⟨Nat.le_succ _, fun id conn hconn => Nat.lt_succ_of_lt (hpre id conn hconn), by simp⟩
  | established =>
    refine ⟨Nat.le_succ _, fun id conn hconn => Nat.lt_succ_of_lt (hpre id conn hconn), fun conn' _ _ _ _ heq => ?_⟩
    cases heq
    exact Nat.lt_succ_self _
  | made =>
    refine ⟨Nat.le_succ _, hset (Nat.le_succ _) _ _ fun conn' heq => ?_, by simp⟩
    cases heq
    exact Nat.lt_succ_self _

theorem Counted.recvStep {fuel : Nat} {order : List StreamId} (h : Counted s) (hs : RecvCases quiche fuel order s t) :
    Counted t := by
  cases hs with
  | @answered buf info acceptor answer hrecv hanswer =>
    have hcases := handshake_cases quiche s.listener.maxDatagramSize s.listener.acceptor buf info
    rw [hanswer] at hcases
    obtain ⟨hle, hpre, hincoming⟩ := hcases.counted h.pre
    refine ⟨hpre, fun id number hconn => (h.conns id number hconn).trans_le hle, fun conn _ _ _ _ hinserting => ?_⟩
    rcases answer with fault | answer
    · simp [Server.afterHandshake] at hinserting
    · cases answer with
      | incoming =>
        simp only [Server.afterHandshake, Recv.insertConn.injEq] at hinserting
        obtain ⟨rfl, -⟩ := hinserting
        exact hincoming _ _ _ _ _ rfl
      | _ => simp [Server.afterHandshake] at hinserting
  | @inserted conn pingTimeout writeSize packet sendInfo hrecv =>
    have hnumber := h.inserting conn pingTimeout writeSize packet sendInfo hrecv
    refine ⟨h.pre, fun id number hconn => ?_, by simp⟩
    by_cases hid : id = quiche.sourceId conn.conn
    · have heq : conn.number = number := by simpa [QuicListenerState.setConn, hid] using hconn
      exact heq ▸ hnumber
    · exact h.conns id number (by simpa [QuicListenerState.setConn, QuicListenerState.setObject, hid] using hconn)
  | removed => exact h.frame rfl (fun _ _ hconn => conns_of_setConn_none hconn) (by simp)
  | _ => exact h.frame rfl (fun _ _ hconn => hconn) (by simp)

theorem Counted.step {a : ServerAction Q} (h : Counted s) (hs : s.step quiche a = some t) : Counted t := by
  cases step_cases hs with
  | recv hs => exact h.recvStep hs
  | readReady hs =>
    cases hs with
    | stopped | sent => exact h.frame rfl (fun _ _ hconn => hconn) (fun _ _ _ _ _ _ => rfl)
    | failed => exact h.frame rfl (fun _ _ hconn => conns_of_setConn_none hconn) (fun _ _ _ _ _ _ => rfl)
  | datagram | socketError => exact h.frame rfl (fun _ _ hconn => hconn) (by simp)
  | close hs =>
    obtain ⟨hacceptor, hconns, hrecv⟩ := hs.beside
    exact h.frame hacceptor (fun _ _ hconn => hconns ▸ hconn) (fun _ _ _ _ _ _ => hrecv)
  | accept hs =>
    obtain ⟨hacceptor, hconns, hrecv⟩ := hs.beside
    exact h.frame hacceptor (fun _ _ hconn => hconns ▸ hconn) (fun _ _ _ _ _ _ => hrecv)
  | elapse | callClose | callAccept | use | readNoneStopped | readNone =>
    exact h.frame rfl (fun _ _ hconn => hconn) (fun _ _ _ _ _ _ => rfl)

/-- The numbers in `conns` are those of connections that have been made, in every run. -/
theorem numbered_of_reachable (quiche : Quiche Q) {sendPingInterval : Nanos} {sign : Bytes → Bytes} {maxDatagramSize : Nat}
    (h : Reachable (Server.step quiche) (Server.start sendPingInterval sign maxDatagramSize) s) : Numbered s.listener := by
  have hcounted : Counted s := by
    refine h.invariant ⟨fun id conn hconn => ?_, fun id number hconn => ?_, fun _ _ _ _ _ hrecv => ?_⟩
      (fun hinv _ hs => hinv.step hs)
    · cases hconn
    · cases hconn
    · cases hrecv
  exact hcounted.conns

/-- The server of the worked runs when it has taken in a datagram, after the actions `before`. -/
def takenIn (before : List (ServerAction Sample)) (buf : Bytes) : Option (Server Sample) :=
  run (Server.step Sample.quiche) (Server.start 1000 id 1200) (before ++ Sample.receive buf 0)

theorem reaches_recv (hs : s.step quiche (.recv 1 []) = some t) :
    Reaches (Server.step quiche) (fun _ a => alongside a) s t :=
  .step (a := .recv 1 []) .refl trivial hs

/-- A datagram of one byte changes nothing: the pre-established connection is still there. -/
theorem error_atomic_oneByte :
    ∃ s s₁ t err, takenIn (Sample.receive Sample.initialPacket 4) [0x40] = some s ∧
      s.step Sample.quiche (.recv 1 []) = some s₁ ∧
      Reaches (Server.step Sample.quiche) (fun _ a => alongside a) s₁ t ∧ t.recv = .written (.error (.err err)) ∧
      SameTables s t ∧ (t.listener.acceptor.preEstablishedConns Sample.connId).isSome := by
  refine ⟨_, _, _, _, rfl, rfl, reaches_recv rfl, rfl, ?_, rfl⟩
  refine ((error_atomic_iff Sample.quiche).2 _ _ _ [0x40] (Sample.loopback 5000) 1 [] _ ?_ rfl rfl (reaches_recv rfl) rfl).mpr ?_
  · exact numbered_of_reachable Sample.quiche
      (Reachable.of_run (Sample.receive Sample.initialPacket 4 ++ Sample.receive [0x40] 0) rfl)
  · rintro ⟨-, ⟨id, conn, err, ⟨header, hheader, -⟩, -⟩ | ⟨id, conn, _, _, _, _, ⟨header, hheader, -⟩, -⟩ |
      ⟨header, _, _, _, _, _, ⟨⟨hheader, -⟩, -⟩, -⟩⟩ <;> cases hheader

/-- The pre-established connection rejects a datagram, and the listener forgets it. -/
theorem error_forgets :
    ∃ s s₁ t err, takenIn (Sample.receive Sample.initialPacket 4) (Sample.shortPacket 0xff) = some s ∧
      s.step Sample.quiche (.recv 1 []) = some s₁ ∧
      Reaches (Server.step Sample.quiche) (fun _ a => alongside a) s₁ t ∧ t.recv = .written (.error (.err err)) ∧
      (s.listener.acceptor.preEstablishedConns Sample.connId).isSome ∧
      t.listener.acceptor.preEstablishedConns Sample.connId = none :=
  ⟨_, _, _, _, rfl, rfl, reaches_recv rfl, rfl, rfl, rfl⟩

end Hala.Quic
