import Hala.Quic.Server

/-! What one call of `handshake` can do. -/

namespace Hala.Quic
open Machine QuicAcceptor
variable {Q : Type} {quiche : Quiche Q} {size : Nat} {a a' : QuicAcceptor Q} {buf : Bytes} {info : PathInfo}

/-- The pre-established connection that the datagram is for. -/
def Addressed (quiche : Quiche Q) (a : QuicAcceptor Q) (buf : Bytes) (id : ConnId) (conn : Accepted Q) : Prop :=
  ∃ header, quiche.fromSlice buf = .ok header ∧ header.dcid = id ∧ a.preEstablishedConns id = some conn

/-- The datagram is an `Initial` packet for an id that no pre-established connection has. -/
def Hello (quiche : Quiche Q) (a : QuicAcceptor Q) (buf : Bytes) (header : Header) : Prop :=
  quiche.fromSlice buf = .ok header ∧ a.preEstablishedConns header.dcid = none ∧ header.ty = .initial

/-- `client_hello` comes to make a connection, which is `q`. -/
def Makes (quiche : Quiche Q) (a : QuicAcceptor Q) (buf : Bytes) (info : PathInfo) (header : Header) (q : Q) : Prop :=
  Hello quiche a buf header ∧ quiche.versionIsSupported header.version = true ∧
  ∃ token odcid, header.token = some token ∧ token ≠ [] ∧ validateToken token info.fromAddr = .ok odcid ∧
    maxConnIdLen = header.dcid.length ∧ quiche.accept a.accepted header.dcid odcid info = .ok q

theorem Addressed.unique {id id' : ConnId} {conn conn' : Accepted Q} (h : Addressed quiche a buf id conn)
    (h' : Addressed quiche a buf id' conn') : id = id' ∧ conn = conn' := by
  obtain ⟨header, hheader, rfl, hpre⟩ := h
  obtain ⟨header', hheader', rfl, hpre'⟩ := h'
  cases hheader.symm.trans hheader'
  exact ⟨rfl, Option.some.inj (hpre.symm.trans hpre')⟩

theorem Hello.not_addressed {header : Header} {id : ConnId} {conn : Accepted Q} (h : Hello quiche a buf header)
    (h' : Addressed quiche a buf id conn) : False := by
  obtain ⟨header', hheader', rfl, hpre'⟩ := h'
  cases h.1.symm.trans hheader'
  cases h.2.1.symm.trans hpre'

theorem Makes.unique {header header' : Header} {q q' : Q} (h : Makes quiche a buf info header q)
    (h' : Makes quiche a buf info header' q') : header = header' ∧ q = q' := by
  obtain ⟨⟨hheader, -⟩, -, token, odcid, htoken, -, hvalid, -, haccept⟩ := h
  obtain ⟨⟨hheader', -⟩, -, token', odcid', htoken', -, hvalid', -, haccept'⟩ := h'
  cases hheader.symm.trans hheader'
  cases htoken.symm.trans htoken'
  cases hvalid.symm.trans hvalid'
  exact ⟨rfl, Except.ok.inj (haccept.symm.trans haccept')⟩

/-- The ways through `handshake`: the acceptor and the answer it leaves behind. -/
inductive HandshakeCases (quiche : Quiche Q) (size : Nat) (a : QuicAcceptor Q) (buf : Bytes) (info : PathInfo) :
    QuicAcceptor Q → Except Fault (QuicAcceptorHandshake Q) → Prop
  | unreadable {err : QuicheError} : quiche.fromSlice buf = .error err →
      HandshakeCases quiche size a buf info a (.error (.err (intoIoError err)))
  | rejected {id : ConnId} {conn : Accepted Q} {err : IoError} : Addressed quiche a buf id conn →
      recvAndSend quiche size conn.conn buf info = .error err →
      HandshakeCases quiche size a buf info (a.setPreEstablished id none) (.error (.err err))
  | completed {id : ConnId} {conn : Accepted Q} {q : Q} {writeSize : Nat} {packet : Bytes} {sendInfo : PathInfo} :
      Addressed quiche a buf id conn → recvAndSend quiche size conn.conn buf info = .ok (q, writeSize, packet, sendInfo) →
      quiche.isEstablished q = true →
      HandshakeCases quiche size a buf info (a.setPreEstablished id none)
        (.ok (.incoming { conn with conn := q } a.sendPingInterval writeSize packet sendInfo))
  | continued {id : ConnId} {conn : Accepted Q} {q : Q} {writeSize : Nat} {packet : Bytes} {sendInfo : PathInfo} :
      Addressed quiche a buf id conn → recvAndSend quiche size conn.conn buf info = .ok (q, writeSize, packet, sendInfo) →
      quiche.isEstablished q = false →
      HandshakeCases quiche size a buf info (a.setPreEstablished id (some { conn with conn := q }))
        (.ok (.internal writeSize packet sendInfo))
  | unhandled {header : Header} : quiche.fromSlice buf = .ok header → a.preEstablishedConns header.dcid = none →
      header.ty ≠ .initial → HandshakeCases quiche size a buf info a (.ok (.unhandled header.dcid))
  | refused {header : Header} {fault : Fault} : Hello quiche a buf header → (∀ q, ¬Makes quiche a buf info header q) →
      HandshakeCases quiche size a buf info a (.error fault)
  | answered {header : Header} {writeSize : Nat} {packet : Bytes} {sendInfo : PathInfo} : Hello quiche a buf header →
      (∀ q, ¬Makes quiche a buf info header q) →
      HandshakeCases quiche size a buf info a (.ok (.internal writeSize packet sendInfo))
  | dropped {header : Header} {q : Q} {err : IoError} : Makes quiche a buf info header q →
      recvAndSend quiche size q buf info = .error err →
      HandshakeCases quiche size a buf info { a with accepted := a.accepted + 1 } (.error (.err err))
  | established {header : Header} {q q' : Q} {writeSize : Nat} {packet : Bytes} {sendInfo : PathInfo} :
      Makes quiche a buf info header q → recvAndSend quiche size q buf info = .ok (q', writeSize, packet, sendInfo) →
      quiche.isEstablished q' = true →
      HandshakeCases quiche size a buf info { a with accepted := a.accepted + 1 }
        (.ok (.incoming { number := a.accepted, conn := q' } a.sendPingInterval writeSize packet sendInfo))
  | made {header : Header} {q q' : Q} {writeSize : Nat} {packet : Bytes} {sendInfo : PathInfo} :
      Makes quiche a buf info header q → recvAndSend quiche size q buf info = .ok (q', writeSize, packet, sendInfo) →
      quiche.isEstablished q' = false →
      HandshakeCases quiche size a buf info
        ({ a with accepted := a.accepted + 1 }.setPreEstablished header.dcid (some { number := a.accepted, conn := q' }))
        (.ok (.internal writeSize packet sendInfo))

/-- An entry that is left in `conns` was there before. -/
theorem conns_of_setConn_none {l : QuicListenerState Q} {id id' : ConnId} {number : Nat}
    (h : (l.setConn id none).conns id' = some number) : l.conns id' = some number := by
  by_cases hid : id' = id
  · simp [QuicListenerState.setConn, hid] at h
  · simpa [QuicListenerState.setConn, hid] using h

theorem setPreEstablished_setPreEstablished (id : ConnId) (conn conn' : Option (Accepted Q)) :
    (a.setPreEstablished id conn).setPreEstablished id conn' = a.setPreEstablished id conn' := by
  simp [setPreEstablished]

theorem acceptConn_cases {header : Header} {token : Bytes} {odcid : ConnId} (hhello : Hello quiche a buf header)
    (hversion : quiche.versionIsSupported header.version = true) (htoken : header.token = some token) (hne : token ≠ [])
    (hvalid : validateToken token info.fromAddr = .ok odcid) :
    HandshakeCases quiche size a buf info (a.acceptConn quiche size header odcid buf info).1
      (a.acceptConn quiche size header odcid buf info).2 := by
  unfold acceptConn
  by_cases hlen : maxConnIdLen = header.dcid.length
  · simp only [hlen, ne_eq, not_true_eq_false, if_false]
    rcases haccept : quiche.accept a.accepted header.dcid odcid info with err | q
    · refine .refused hhello fun q hmakes => ?_
      obtain ⟨-, -, token', odcid', htoken', -, hvalid', -, haccept'⟩ := hmakes
      cases htoken.symm.trans htoken'
      cases hvalid.symm.trans hvalid'
      cases haccept.symm.trans haccept'
    · have hmakes : Makes quiche a buf info header q :=
        ⟨hhello, hversion, token, odcid, htoken, hne, hvalid, hlen, haccept⟩
      rcases hexchange : recvAndSend quiche size q buf info with err | ⟨q', writeSize, packet, sendInfo⟩
      · simp only [hexchange]
        exact .dropped hmakes hexchange
      · rcases hestablished : quiche.isEstablished q' with _ | _
        · simp only [hexchange, hestablished]
          exact .made hmakes hexchange hestablished
        · simp only [hexchange, hestablished]
          exact .established hmakes hexchange hestablished
  · simp only [hlen, ne_eq, not_false_eq_true, if_true]
    refine .refused hhello fun q hmakes => ?_
    obtain ⟨-, -, token', odcid', -, -, -, hlen', -⟩ := hmakes
    exact hlen hlen'

theorem clientHello_cases {header : Header} (hhello : Hello quiche a buf header) :
    HandshakeCases quiche size a buf info (a.clientHello quiche size header buf info).1
      (a.clientHello quiche size header buf info).2 := by
  unfold clientHello
  rcases hversion : quiche.versionIsSupported header.version with _ | _
  · have hnone (q : Q) : ¬Makes quiche a buf info header q := by
      rintro ⟨-, hversion', -⟩
      cases hversion.symm.trans hversion'
    simp only [if_true, negotiationVersion]
    split
    · exact .refused hhello hnone
    · exact .answered hhello hnone
  simp only [Bool.true_eq_false, if_false]
  rcases htoken : header.token with _ | token
  · refine .refused hhello fun q hmakes => ?_
    obtain ⟨-, -, token', odcid', htoken', -⟩ := hmakes
    cases htoken.symm.trans htoken'
  by_cases hne : token = []
  · have hnone (q : Q) : ¬Makes quiche a buf info header q := by
      rintro ⟨-, -, token', odcid', htoken', hne', -⟩
      cases htoken.symm.trans htoken'
      exact hne' hne
    simp only [hne, if_true, retry]
    split
    · exact .refused hhello hnone
    · exact .answered hhello hnone
  simp only [hne, if_false]
  rcases hvalid : validateToken token info.fromAddr with err | odcid
  · refine .refused hhello fun q hmakes => ?_
    obtain ⟨-, -, token', odcid', htoken', -, hvalid', -⟩ := hmakes
    cases htoken.symm.trans htoken'
    cases hvalid.symm.trans hvalid'
  · exact acceptConn_cases hhello hversion htoken hne hvalid

/-- Every call of `handshake` goes one of these ways. -/
theorem handshake_cases (quiche : Quiche Q) (size : Nat) (a : QuicAcceptor Q) (buf : Bytes) (info : PathInfo) :
    HandshakeCases quiche size a buf info (a.handshake quiche size buf info).1 (a.handshake quiche size buf info).2 := by
  unfold handshake
  rcases hheader : quiche.fromSlice buf with err | header
  · exact .unreadable hheader
  simp only
  rcases hpre : a.preEstablishedConns header.dcid with _ | conn
  · by_cases hinitial : header.ty = .initial
    · simp only [hinitial, if_true]
      exact clientHello_cases ⟨hheader, hpre, hinitial⟩
    · simp only [hinitial, if_false]
      exact .unhandled hheader hpre hinitial
  · have haddressed : Addressed quiche a buf header.dcid conn := ⟨header, hheader, rfl, hpre⟩
    simp only
    rcases hexchange : recvAndSend quiche size conn.conn buf info with err | ⟨q, writeSize, packet, sendInfo⟩
    · exact .rejected haddressed hexchange
    · rcases hestablished : quiche.isEstablished q with _ | _
      · simp only [hestablished, setPreEstablished_setPreEstablished]
        exact .continued haddressed hexchange hestablished
      · simp only [hestablished]
        exact .completed haddressed hexchange hestablished

end Hala.Quic
