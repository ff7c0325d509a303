import Hala.Theorems.Quic.Server
import Hala.Quic.Sample

/-! Which connection a datagram is given to.

`happened` is the history of a run. While no `Initial` packet carries the id of a connection that has been put in
`conns`, an id has one owner, and every datagram goes to the connection that was put in `conns` under its id,
until the listener removes that connection. -/

namespace Hala.Quic
open Machine QuicAcceptor
variable {Q : Type}

/-- Events of a server; a connection is named by its number. -/
inductive Happened where
  | created (id : ConnId) (number : Nat)
  /-- A datagram for the id is given to the connection, or to none. -/
  | given (id : ConnId) (number : Option Nat)
  /-- The connection is put in `conns`. -/
  | put (id : ConnId) (number : Nat)
  /-- The connection is removed from `conns`: it has rejected a datagram, or a read of it has failed. -/
  | removed (id : ConnId) (number : Nat)
  deriving DecidableEq, Repr

variable (quiche : Quiche Q)

def handshakeHappened (l : QuicListenerState Q) (buf : Bytes) (info : PathInfo) : List Happened :=
  match quiche.fromSlice buf with
  | .error _ => []
  | .ok header =>
    match l.acceptor.preEstablishedConns header.dcid with
    | some conn => [.given header.dcid (some conn.number)]
    | none =>
      if header.ty ≠ .initial then []
      else if (l.acceptor.handshake quiche l.maxDatagramSize buf info).1.accepted = l.acceptor.accepted then
        [.given header.dcid none]
      else [.created header.dcid l.acceptor.accepted, .given header.dcid (some l.acceptor.accepted)]

def removedFrom (l : QuicListenerState Q) (id : ConnId) : List Happened :=
  match l.conns id with
  | some number => [.removed id number]
  | none => []

/-- What a step brings about. -/
def happened (s : Server Q) : ServerAction Q → List Happened
  | .recv _ _ =>
    match s.recv with
    | .handshake buf info => handshakeHappened quiche s.listener buf info
    | .getConn dcid _ _ => if s.listener.conns dcid = none then [.given dcid none] else []
    | .connWrite dcid number _ _ => [.given dcid (some number)]
    | .removeConn dcid _ => removedFrom s.listener dcid
    | .insertConn conn _ _ _ _ => [.put (quiche.sourceId conn.conn) conn.number]
    | _ => []
  | .readReady number none =>
    if s.listener.closed then []
    else
      match s.listener.objects number with
      | some conn => removedFrom s.listener conn.scid
      | none => []
  | _ => []

/-- A connection has been put in `conns` under the id. -/
def wasPut (past : List Happened) (id : ConnId) : Bool :=
  past.any fun
    | .put id' _ => id' == id
    | _ => false

/-- An `Initial` packet does not carry the id of a connection that has been put in `conns`. -/
def notReplayed (t : Server Q × List Happened) : ServerAction Q → Bool
  | .recv _ _ =>
    match t.1.recv with
    | .handshake buf _ =>
      match quiche.fromSlice buf with
      | .ok header => header.ty != .initial || !wasPut t.2 header.dcid
      | .error _ => true
    | _ => true
  | _ => true

/-- The connection is in one of the tables under the id. -/
def Owns (l : QuicListenerState Q) (id : ConnId) (number : Nat) : Prop :=
  (∃ conn, l.acceptor.preEstablishedConns id = some conn ∧ conn.number = number) ∨ l.conns id = some number

/-- No second connection is made for an id that has been put in `conns`, and a datagram for it goes to the
    connection that was put there, unless that has been removed. -/
def StaysRouted (before : List Happened) (e : Happened) : Prop :=
  ∀ id number, .put id number ∈ before →
    (∀ number', e ≠ .created id number') ∧ ∀ who, e = .given id who → who = some number ∨ .removed id number ∈ before

/-- What `quiche` says of the source id of a connection that is given no further ids. -/
structure KeepsSourceId : Prop where
  accept : ∀ n scid odcid info q, quiche.accept n scid odcid info = .ok q → quiche.sourceId q = scid
  recv : ∀ q buf info, quiche.sourceId (quiche.recv q buf info).1 = quiche.sourceId q
  send : ∀ q size, quiche.sourceId (quiche.send q size).1 = quiche.sourceId q

/-- The same for good: for a run in which no connection is removed. -/
def StaysRoutedForGood (before : List Happened) (e : Happened) : Prop :=
  ∀ id number, .put id number ∈ before →
    (∀ number', e ≠ .created id number') ∧ ∀ who, e = .given id who → who = some number

variable {quiche} {s s' : Server Q} {past : List Happened} {size : Nat} {buf : Bytes} {info : PathInfo}

theorem KeepsSourceId.recvAndSend (h : KeepsSourceId quiche) {q q' : Q} {writeSize : Nat} {packet : Bytes} {sendInfo : PathInfo}
    (hexchange : recvAndSend quiche size q buf info = .ok (q', writeSize, packet, sendInfo)) :
    quiche.sourceId q' = quiche.sourceId q := by
  have hrecv := h.recv q buf info
  unfold Quic.recvAndSend at hexchange
  split at hexchange
  · cases hexchange
  · next q₁ _ hq₁ =>
    have hsend := h.send q₁ size
    rw [hq₁] at hrecv
    split at hexchange
    · next hq₂ =>
      cases hexchange
      rw [hq₂] at hsend
      exact hsend.trans hrecv
    · next hq₂ =>
      cases hexchange
      rw [hq₂] at hsend
      exact hsend.trans hrecv
    · cases hexchange

/-- A connection that was made for an id has that id. -/
theorem Makes.sourceId (h : KeepsSourceId quiche) {a : QuicAcceptor Q} {header : Header} {q q' : Q} {writeSize : Nat}
    {packet : Bytes} {sendInfo : PathInfo} (hmakes : Makes quiche a buf info header q)
    (hexchange : recvAndSend quiche size q buf info = .ok (q', writeSize, packet, sendInfo)) :
    quiche.sourceId q' = header.dcid := by
  obtain ⟨-, -, token, odcid, -, -, -, -, haccept⟩ := hmakes
  exact (h.recvAndSend hexchange).trans (h.accept _ _ _ _ _ haccept)

theorem not_put_of_wasPut {id : ConnId} (h : wasPut past id = false) (number : Nat) : .put id number ∉ past := by
  intro hput
  have hfalse := List.any_eq_false.mp h _ hput
  simp at hfalse

theorem unput_of_notReplayed {fuel : Nat} {order : List StreamId} {header : Header}
    (h : notReplayed quiche (s, past) (.recv fuel order) = true) (hrecv : s.recv = .handshake buf info)
    (hheader : quiche.fromSlice buf = .ok header) (hty : header.ty = .initial) (number : Nat) :
    .put header.dcid number ∉ past := by
  have hnot : wasPut past header.dcid = false := by simpa [notReplayed, hrecv, hheader, hty] using h
  exact not_put_of_wasPut hnot number

/-! ### The invariant -/

/-- The tables and the receiving loop agree with the history. -/
structure Routing (quiche : Quiche Q) (s : Server Q) (past : List Happened) : Prop where
  pre : ∀ id conn, s.listener.acceptor.preEstablishedConns id = some conn →
    quiche.sourceId conn.conn = id ∧ ∀ number, .put id number ∉ past
  conns : ∀ id number, s.listener.conns id = some number → .put id number ∈ past
  kept : ∀ id number, .put id number ∈ past → s.listener.conns id = some number ∨ .removed id number ∈ past
  once : ∀ id number number', .put id number ∈ past → .put id number' ∈ past → number = number'
  inserting : ∀ conn pingTimeout writeSize packet sendInfo,
    s.recv = .insertConn conn pingTimeout writeSize packet sendInfo →
    s.listener.acceptor.preEstablishedConns (quiche.sourceId conn.conn) = none ∧
    ∀ number, .put (quiche.sourceId conn.conn) number ∉ past
  writing : ∀ dcid number buf info, s.recv = .connWrite dcid number buf info → .put dcid number ∈ past
  routed : Throughout StaysRouted past

theorem routing_start (sendPingInterval : Nanos) (sign : Bytes → Bytes) (maxDatagramSize : Nat) :
    Routing quiche (Server.start sendPingInterval sign maxDatagramSize) [] where
  pre := fun id conn h => by cases h
  conns := fun id number h => by cases h
  kept := fun id number h => by cases h
  once := fun id number number' h => by cases h
  inserting := fun conn _ _ _ _ h => by cases h
  writing := fun dcid number buf info h => by cases h
  routed := trivial

/-- A step that leaves the tables alone and whose event, if any, is a datagram that went where it should. -/
theorem Routing.frame (h : Routing quiche s past) (hpre : s'.listener.acceptor.preEstablishedConns = s.listener.acceptor.preEstablishedConns)
    (hconns : s'.listener.conns = s.listener.conns)
    (hinserting : ∀ conn pingTimeout writeSize packet sendInfo,
      s'.recv = .insertConn conn pingTimeout writeSize packet sendInfo → s'.recv = s.recv)
    (hwriting : ∀ dcid number buf info, s'.recv = .connWrite dcid number buf info → .put dcid number ∈ past) :
    Routing quiche s' past where
  pre := by rw [hpre]; exact h.pre
  conns := by rw [hconns]; exact h.conns
  kept := by rw [hconns]; exact h.kept
  once := h.once
  inserting conn pingTimeout writeSize packet sendInfo hrecv := by
    rw [hpre]
    exact h.inserting conn pingTimeout writeSize packet sendInfo (hinserting conn _ _ _ _ hrecv ▸ hrecv)
  writing := hwriting
  routed := h.routed

/-- An event that puts nothing in `conns`. -/
theorem Routing.event (h : Routing quiche s past) {e : Happened} (he : StaysRouted past e) (hput : ∀ id number, e ≠ .put id number) :
    Routing quiche s (e :: past) := by
  have hmem (id : ConnId) (number : Nat) : .put id number ∈ e :: past ↔ .put id number ∈ past := by
    simp [(hput id number).symm]
  refine ⟨fun id conn hpre => ?_, fun id number hconn => ?_, fun id number hput' => ?_, fun id number number' h₁ h₂ => ?_,
    fun conn pingTimeout writeSize packet sendInfo hrecv => ?_, fun dcid number buf info hrecv => ?_, he, h.routed⟩
  · exact ⟨(h.pre id conn hpre).1, fun number hput' => (h.pre id conn hpre).2 number ((hmem id number).mp hput')⟩
  · exact List.mem_cons_of_mem _ (h.conns id number hconn)
  · exact (h.kept id number ((hmem id number).mp hput')).imp_right (List.mem_cons_of_mem _)
  · exact h.once id number number' ((hmem id number).mp h₁) ((hmem id number').mp h₂)
  · obtain ⟨hnone, hunput⟩ := h.inserting conn pingTimeout writeSize packet sendInfo hrecv
    exact ⟨hnone, fun number hput' => hunput number ((hmem _ number).mp hput')⟩
  · exact List.mem_cons_of_mem _ (h.writing dcid number buf info hrecv)

theorem staysRouted_given_of_unput {id : ConnId} {who : Option Nat} (h : ∀ number, .put id number ∉ past) :
    StaysRouted past (.given id who) := by
  refine fun id' number hput => ⟨by simp, fun who' he => ?_⟩
  cases he
  exact absurd hput (h number)

theorem staysRouted_created_of_unput {id : ConnId} {number : Nat} (h : ∀ number, .put id number ∉ past) :
    StaysRouted past (.created id number) := by
  refine fun id' number' hput => ⟨fun number'' he => ?_, by simp⟩
  cases he
  exact h number' hput

theorem staysRouted_removed {id : ConnId} {number : Nat} : StaysRouted past (.removed id number) :=
  fun _ _ _ => ⟨by simp, by simp⟩

/-- A datagram is given to somebody under an id that nobody was put in `conns` for. -/
theorem Routing.given (h : Routing quiche s past) {id : ConnId} {who : Option Nat} (hunput : ∀ number, .put id number ∉ past) :
    Routing quiche s (.given id who :: past) :=
  h.event (staysRouted_given_of_unput hunput) (by simp)

/-- A connection is made for such an id, and the datagram is given to it. -/
theorem Routing.created (h : Routing quiche s past) {id : ConnId} {number : Nat} (hunput : ∀ number, .put id number ∉ past) :
    Routing quiche s (.given id (some number) :: .created id number :: past) := by
  refine (h.event (staysRouted_created_of_unput hunput) (by simp)).given fun number' hput => ?_
  rcases List.mem_cons.mp hput with hput | hput
  · cases hput
  · exact hunput number' hput

/-! ### The steps of the receiving loop -/

theorem handshakeHappened_addressed {l : QuicListenerState Q} {id : ConnId} {conn : Accepted Q}
    (h : Addressed quiche l.acceptor buf id conn) : handshakeHappened quiche l buf info = [.given id (some conn.number)] := by
  obtain ⟨header, hheader, rfl, hpre⟩ := h
  simp [handshakeHappened, hheader, hpre]

theorem handshakeHappened_hello {l : QuicListenerState Q} {header : Header} (h : Hello quiche l.acceptor buf header)
    (haccepted : (l.acceptor.handshake quiche l.maxDatagramSize buf info).1.accepted = l.acceptor.accepted) :
    handshakeHappened quiche l buf info = [.given header.dcid none] := by
  obtain ⟨hheader, hpre, hinitial⟩ := h
  simp [handshakeHappened, hheader, hpre, hinitial, haccepted]

theorem handshakeHappened_makes {l : QuicListenerState Q} {header : Header} {q : Q} (h : Makes quiche l.acceptor buf info header q)
    (haccepted : (l.acceptor.handshake quiche l.maxDatagramSize buf info).1.accepted = l.acceptor.accepted + 1) :
    handshakeHappened quiche l buf info =
      [.created header.dcid l.acceptor.accepted, .given header.dcid (some l.acceptor.accepted)] := by
  obtain ⟨⟨hheader, hpre, hinitial⟩, -⟩ := h
  simp [handshakeHappened, hheader, hpre, hinitial, haccepted]

/-- The acceptor and the place of the loop after `handshake`. -/
theorem Routing.setAcceptor (h : Routing quiche s past) {a' : QuicAcceptor Q} {recv : Recv Q}
    (hpre : ∀ id conn, a'.preEstablishedConns id = some conn → quiche.sourceId conn.conn = id ∧ ∀ number, .put id number ∉ past)
    (hinserting : ∀ conn pingTimeout writeSize packet sendInfo, recv = .insertConn conn pingTimeout writeSize packet sendInfo →
      a'.preEstablishedConns (quiche.sourceId conn.conn) = none ∧ ∀ number, .put (quiche.sourceId conn.conn) number ∉ past)
    (hwriting : ∀ dcid number buf info, recv ≠ .connWrite dcid number buf info) :
    Routing quiche { s with listener := { s.listener with acceptor := a' }, recv } past where
  pre := hpre
  conns := h.conns
  kept := h.kept
  once := h.once
  inserting := hinserting
  writing dcid number buf info hrecv := absurd hrecv (hwriting dcid number buf info)
  routed := h.routed

/-- What is left in the table of pre-established connections when the entry of one id changes. -/
theorem Routing.setPreEstablished (h : Routing quiche s past) {id : ConnId} {conn : Option (Accepted Q)}
    (hconn : ∀ conn', conn = some conn' → quiche.sourceId conn'.conn = id ∧ ∀ number, .put id number ∉ past)
    (id' : ConnId) (conn' : Accepted Q)
    (hpre : (s.listener.acceptor.setPreEstablished id conn).preEstablishedConns id' = some conn') :
    quiche.sourceId conn'.conn = id' ∧ ∀ number, .put id' number ∉ past := by
  by_cases hid : id' = id
  · subst hid
    exact hconn conn' (by simpa [QuicAcceptor.setPreEstablished] using hpre)
  · exact h.pre id' conn' (by simpa [QuicAcceptor.setPreEstablished, hid] using hpre)

theorem Routing.handshake (hquiche : KeepsSourceId quiche) (h : Routing quiche s past) {a' : QuicAcceptor Q}
    {answer : Except Fault (QuicAcceptorHandshake Q)}
    (hanswer : s.listener.acceptor.handshake quiche s.listener.maxDatagramSize buf info = (a', answer))
    (hinitial : ∀ header, quiche.fromSlice buf = .ok header → header.ty = .initial → ∀ number, .put header.dcid number ∉ past) :
    Routing quiche { s with listener := { s.listener with acceptor := a' }, recv := Server.afterHandshake buf info answer }
      ((handshakeHappened quiche s.listener buf info).reverse ++ past) := by
  have hcases := handshake_cases quiche s.listener.maxDatagramSize s.listener.acceptor buf info
  rw [hanswer] at hcases
  have haddressed {id : ConnId} {conn : Accepted Q} (hconn : Addressed quiche s.listener.acceptor buf id conn) :
      quiche.sourceId conn.conn = id ∧ ∀ number, .put id number ∉ past := by
    obtain ⟨header, -, -, hpre⟩ := hconn
    exact h.pre id conn hpre
  cases hcases with
  | unreadable hheader =>
    have hnothing : handshakeHappened quiche s.listener buf info = [] := by simp [handshakeHappened, hheader]
    rw [hnothing]
    exact h.setAcceptor h.pre (by simp [Server.afterHandshake]) (by simp [Server.afterHandshake])
  | @rejected id conn err hconn hexchange =>
    rw [handshakeHappened_addressed hconn]
    refine (h.setAcceptor (h.setPreEstablished (by simp)) ?_ ?_).given (haddressed hconn).2
    · simp [Server.afterHandshake]
    · simp [Server.afterHandshake]
  | @completed id conn q writeSize packet sendInfo hconn hexchange hestablished =>
    rw [handshakeHappened_addressed hconn]
    obtain ⟨hsource, hunput⟩ := haddressed hconn
    have hsource' : quiche.sourceId q = id := (hquiche.recvAndSend hexchange).trans hsource
    refine (h.setAcceptor (h.setPreEstablished (by simp)) ?_ ?_).given hunput
    · intro conn' pingTimeout' writeSize' packet' sendInfo' hrecv
      cases hrecv
      exact ⟨by simp [QuicAcceptor.setPreEstablished, hsource'], hsource' ▸ hunput⟩
    · simp [Server.afterHandshake]
  | @continued id conn q writeSize packet sendInfo hconn hexchange hestablished =>
    rw [handshakeHappened_addressed hconn]
    obtain ⟨hsource, hunput⟩ := haddressed hconn
    have hsource' : quiche.sourceId q = id := (hquiche.recvAndSend hexchange).trans hsource
    refine (h.setAcceptor (h.setPreEstablished ?_) ?_ ?_).given hunput
    · rintro conn' ⟨⟩
      exact ⟨hsource', hunput⟩
    · simp [Server.afterHandshake]
    · simp [Server.afterHandshake]
  | @unhandled header hheader hpre hty =>
    have hnothing : handshakeHappened quiche s.listener buf info = [] := by simp [handshakeHappened, hheader, hpre, hty]
    rw [hnothing]
    exact h.setAcceptor h.pre (by simp [Server.afterHandshake]) (by simp [Server.afterHandshake])
  | @refused header fault hhello hmakes =>
    rw [handshakeHappened_hello hhello (by rw [hanswer])]
    refine (h.setAcceptor h.pre ?_ ?_).given (hinitial header hhello.1 hhello.2.2)
    · simp [Server.afterHandshake]
    · simp [Server.afterHandshake]
  | @answered header writeSize packet sendInfo hhello hmakes =>
    rw [handshakeHappened_hello hhello (by rw [hanswer])]
    refine (h.setAcceptor h.pre ?_ ?_).given (hinitial header hhello.1 hhello.2.2)
    · simp [Server.afterHandshake]
    · simp [Server.afterHandshake]
  | @dropped header q err hmakes hexchange =>
    rw [handshakeHappened_makes hmakes (by rw [hanswer])]
    refine (h.setAcceptor ?_ ?_ ?_).created (hinitial header hmakes.1.1 hmakes.1.2.2)
    · exact h.pre
    · simp [Server.afterHandshake]
    · simp [Server.afterHandshake]
  | @established header q q' writeSize packet sendInfo hmakes hexchange hestablished =>
    rw [handshakeHappened_makes hmakes (by rw [hanswer])]
    have hunput := hinitial header hmakes.1.1 hmakes.1.2.2
    have hsource : quiche.sourceId q' = header.dcid := hmakes.sourceId hquiche hexchange
    refine (h.setAcceptor ?_ ?_ ?_).created hunput
    · exact h.pre
    · intro conn' pingTimeout' writeSize' packet' sendInfo' hrecv
      cases hrecv
      exact ⟨hsource ▸ hmakes.1.2.1, hsource ▸ hunput⟩
    · simp [Server.afterHandshake]
  | @made header q q' writeSize packet sendInfo hmakes hexchange hestablished =>
    rw [handshakeHappened_makes hmakes (by rw [hanswer])]
    have hunput := hinitial header hmakes.1.1 hmakes.1.2.2
    have hsource : quiche.sourceId q' = header.dcid := hmakes.sourceId hquiche hexchange
    refine (h.setAcceptor ?_ ?_ ?_).created hunput
    · refine h.setPreEstablished ?_
      rintro conn' ⟨⟩
      exact ⟨hsource, hunput⟩
    · simp [Server.afterHandshake]
    · simp [Server.afterHandshake]

/-- `conns` loses its entry of an id. -/
theorem Routing.remove (h : Routing quiche s past) (id : ConnId)
    (hpre : s'.listener.acceptor.preEstablishedConns = s.listener.acceptor.preEstablishedConns)
    (hconns : s'.listener.conns = Function.update s.listener.conns id none)
    (hinserting : ∀ conn pingTimeout writeSize packet sendInfo,
      s'.recv = .insertConn conn pingTimeout writeSize packet sendInfo → s'.recv = s.recv)
    (hwriting : ∀ dcid number buf info, s'.recv = .connWrite dcid number buf info → s'.recv = s.recv) :
    Routing quiche s' ((removedFrom s.listener id).reverse ++ past) := by
  have hpast : Routing quiche s ((removedFrom s.listener id).reverse ++ past) := by
    unfold removedFrom
    split
    · exact h.event staysRouted_removed (by simp)
    · exact h
  refine ⟨by rw [hpre]; exact hpast.pre, fun id' number hconn => ?_, fun id' number hput => ?_, hpast.once,
    fun conn pingTimeout writeSize packet sendInfo hrecv => ?_, fun dcid number buf info hrecv => ?_, hpast.routed⟩
  · by_cases hid : id' = id
    · simp [hconns, hid] at hconn
    · exact hpast.conns id' number (by simpa [hconns, hid] using hconn)
  · by_cases hid : id' = id
    · subst hid
      rcases hpast.kept id' number hput with hconn | hremoved
      · exact Or.inr (by simp [removedFrom, hconn])
      · exact Or.inr hremoved
    · simpa [hconns, hid] using hpast.kept id' number hput
  · rw [hpre]
    exact hpast.inserting conn pingTimeout writeSize packet sendInfo (hinserting conn _ _ _ _ hrecv ▸ hrecv)
  · exact hpast.writing dcid number buf info (hwriting dcid number buf info hrecv ▸ hrecv)

/-- `conns` gets a connection for an id that it was never put in for. -/
theorem Routing.put (h : Routing quiche s past) {id : ConnId} {number : Nat}
    (hpre : s'.listener.acceptor.preEstablishedConns = s.listener.acceptor.preEstablishedConns)
    (hconns : s'.listener.conns = Function.update s.listener.conns id (some number))
    (hnone : s.listener.acceptor.preEstablishedConns id = none) (hunput : ∀ number, .put id number ∉ past)
    (hinserting : ∀ conn pingTimeout writeSize packet sendInfo, s'.recv ≠ .insertConn conn pingTimeout writeSize packet sendInfo)
    (hwriting : ∀ dcid number buf info, s'.recv ≠ .connWrite dcid number buf info) :
    Routing quiche s' (.put id number :: past) := by
  refine ⟨fun id' conn hconn => ?_, fun id' number' hconn => ?_, fun id' number' hput => ?_, fun id' n n' hn hn' => ?_,
    fun conn pingTimeout writeSize packet sendInfo hrecv => absurd hrecv (hinserting conn pingTimeout writeSize packet sendInfo),
    fun dcid number buf info hrecv => absurd hrecv (hwriting dcid number buf info), fun id' number' hput => ⟨by simp, by simp⟩,
    h.routed⟩
  · rw [hpre] at hconn
    have hid : id' ≠ id := by
      rintro rfl
      rw [hnone] at hconn
      cases hconn
    obtain ⟨hsource, hunput'⟩ := h.pre id' conn hconn
    exact ⟨hsource, fun number' hput => by simp [hid, hunput' number'] at hput⟩
  · by_cases hid : id' = id
    · subst hid
      have hnumber : number = number' := by simpa [hconns] using hconn
      exact hnumber ▸ List.mem_cons_self
    · exact List.mem_cons_of_mem _ (h.conns id' number' (by simpa [hconns, hid] using hconn))
  · by_cases hid : id' = id
    · subst hid
      have hnumber : number' = number := by simpa [hunput] using hput
      exact Or.inl (by simp [hconns, hnumber])
    · have hput' : .put id' number' ∈ past := by simpa [hid] using hput
      exact (h.kept id' number' hput').imp (fun hconn => by simpa [hconns, hid] using hconn) (List.mem_cons_of_mem _)
  · by_cases hid : id' = id
    · subst hid
      have hn₁ : n = number := by simpa [hunput] using hn
      have hn₂ : n' = number := by simpa [hunput] using hn'
      exact hn₁.trans hn₂.symm
    · exact h.once id' n n' (by simpa [hid] using hn) (by simpa [hid] using hn')

/-- The place of the loop changes, to one where nothing is known of a connection. -/
theorem Routing.goto (h : Routing quiche s past) (hpre : s'.listener.acceptor.preEstablishedConns = s.listener.acceptor.preEstablishedConns)
    (hconns : s'.listener.conns = s.listener.conns)
    (hinserting : ∀ conn pingTimeout writeSize packet sendInfo, s'.recv ≠ .insertConn conn pingTimeout writeSize packet sendInfo)
    (hwriting : ∀ dcid number buf info, s'.recv ≠ .connWrite dcid number buf info) : Routing quiche s' past :=
  h.frame hpre hconns (fun conn _ _ _ _ hrecv => absurd hrecv (hinserting conn _ _ _ _))
    (fun dcid number _ _ hrecv => absurd hrecv (hwriting dcid number _ _))

/-- Whoever was put in `conns` under an id that is not there has been removed. -/
theorem Routing.staysRouted_none (h : Routing quiche s past) {dcid : ConnId} (hconn : s.listener.conns dcid = none) :
    StaysRouted past (.given dcid none) := by
  refine fun id number hput => ⟨by simp, fun who he => ?_⟩
  cases he
  rcases h.kept dcid number hput with hconn' | hremoved
  · rw [hconn] at hconn'
    cases hconn'
  · exact Or.inr hremoved

theorem Routing.staysRouted_some (h : Routing quiche s past) {dcid : ConnId} {number : Nat} (hput : .put dcid number ∈ past) :
    StaysRouted past (.given dcid (some number)) := by
  refine fun id number' hput' => ⟨by simp, fun who he => ?_⟩
  cases he
  exact Or.inl (congrArg some (h.once dcid number number' hput hput'))

theorem Routing.recvStep (hquiche : KeepsSourceId quiche) {fuel : Nat} {order : List StreamId} (h : Routing quiche s past)
    (hok : notReplayed quiche (s, past) (.recv fuel order) = true) (hs : RecvCases quiche fuel order s s') :
    Routing quiche s' ((happened quiche s (.recv fuel order)).reverse ++ past) := by
  unfold happened
  cases hs with
  | answered hrecv hanswer =>
    simp only [hrecv]
    exact h.handshake hquiche hanswer fun header hheader hty => unput_of_notReplayed hok hrecv hheader hty
  | unrouted hrecv hconn =>
    simp only [hrecv, hconn, if_true]
    exact (h.event (h.staysRouted_none hconn) (by simp)).goto rfl rfl (by simp) (by simp)
  | @routed dcid number buf info hrecv hconn =>
    simp only [hrecv, hconn, reduceCtorEq, if_false]
    refine h.frame rfl rfl (by simp) fun dcid' number' _ _ hwriting => ?_
    cases hwriting
    exact h.conns dcid number hconn
  | wrote hrecv hobject hwrite | writeFailed hrecv hobject hwrite =>
    simp only [hrecv]
    have hgiven := h.staysRouted_some (h.writing _ _ _ _ hrecv)
    exact (h.event hgiven (by simp)).goto rfl rfl (by simp) (by simp)
  | @removed dcid writeSize hrecv =>
    simp only [hrecv]
    exact h.remove dcid rfl rfl (by simp) (by simp)
  | @inserted conn pingTimeout writeSize packet sendInfo hrecv =>
    obtain ⟨hnone, hunput⟩ := h.inserting conn pingTimeout writeSize packet sendInfo hrecv
    simp only [hrecv]
    exact h.put rfl rfl hnone hunput (by simp) (by simp)
  | turnedAway hrecv | entered hrecv | queueGone hrecv | pushed hrecv | notified hrecv | batched hrecv | failed hrecv
  | toSend hrecv | nothingToSend hrecv | sent hrecv =>
    simp only [hrecv]
    exact h.goto rfl rfl (by simp) (by simp)

/-- A step that neither the tables nor the receiving loop take part in. -/
theorem Routing.beside (h : Routing quiche s past) (hacceptor : s'.listener.acceptor = s.listener.acceptor)
    (hconns : s'.listener.conns = s.listener.conns) (hrecv : s'.recv = s.recv) : Routing quiche s' past :=
  h.frame (by rw [hacceptor]) hconns (fun _ _ _ _ _ _ => hrecv) (by rw [hrecv]; exact h.writing)

theorem Routing.readReady {number : Nat} {packet : Option (Bytes × PathInfo)} (h : Routing quiche s past)
    (hs : ReadCases number s packet s') :
    Routing quiche s' ((happened quiche s (.readReady number packet)).reverse ++ past) := by
  cases hs with
  | stopped _ _ hclosed =>
    have hnothing : happened quiche s (.readReady number packet) = [] := by
      cases packet <;> simp [happened, hclosed]
    rw [hnothing]
    exact h.beside rfl rfl rfl
  | sent => exact h.beside rfl rfl rfl
  | @failed conn _ _ hopen hobject =>
    simp only [happened, hopen, hobject]
    exact h.remove conn.scid rfl rfl (fun _ _ _ _ _ _ => rfl) (fun _ _ _ _ _ => rfl)

theorem Routing.step (hquiche : KeepsSourceId quiche) {a : ServerAction Q} (h : Routing quiche s past)
    (hok : notReplayed quiche (s, past) a = true) (hs : s.step quiche a = some s') :
    Routing quiche s' ((happened quiche s a).reverse ++ past) := by
  cases step_cases hs with
  | recv hs => exact h.recvStep hquiche hok hs
  | readReady hs => exact h.readReady hs
  | datagram | socketError => exact h.goto rfl rfl (by simp) (by simp)
  | close hs =>
    obtain ⟨hacceptor, hconns, hrecv⟩ := hs.beside
    exact h.beside hacceptor hconns hrecv
  | accept hs =>
    obtain ⟨hacceptor, hconns, hrecv⟩ := hs.beside
    exact h.beside hacceptor hconns hrecv
  | elapse | callClose | callAccept | use | readNoneStopped | readNone => exact h.beside rfl rfl rfl

/-! ### Runs -/

theorem Routing.owns_unique (h : Routing quiche s past) {id : ConnId} {number number' : Nat}
    (hown : Owns s.listener id number) (hown' : Owns s.listener id number') : number = number' := by
  -- An id cannot be in both tables: it would have been put in `conns` while it was pre-established.
  rcases hown with ⟨conn, hpre, rfl⟩ | hconn <;> rcases hown' with ⟨conn', hpre', rfl⟩ | hconn'
  · rw [hpre] at hpre'
    cases hpre'
    rfl
  · exact absurd (h.conns id number' hconn') ((h.pre id conn hpre).2 number')
  · exact absurd (h.conns id number hconn) ((h.pre id conn' hpre').2 number)
  · rw [hconn] at hconn'
    exact Option.some.inj hconn'

theorem routing_of_reaches (hquiche : KeepsSourceId quiche) {sendPingInterval : Nanos} {sign : Bytes → Bytes} {maxDatagramSize : Nat}
    {t : Server Q × List Happened}
    (h : Reaches (traced (Server.step quiche) (happened quiche)) (fun t a => notReplayed quiche t a = true)
      (Server.start sendPingInterval sign maxDatagramSize, []) t) : Routing quiche t.1 t.2 :=
  h.traced_invariant (routing_start _ _ _) fun hinv hok hs => hinv.step hquiche hok hs

/-- In a run in which no `Initial` packet carries the id of a connection that has been put in `conns`, an id has at
    most one owner, no second connection is made for such an id, and every later datagram for it is given to that
    connection, unless the listener has removed it. -/
theorem routed_once (hquiche : KeepsSourceId quiche) (sendPingInterval : Nanos) (sign : Bytes → Bytes) (maxDatagramSize : Nat)
    (s : Server Q) (past : List Happened)
    (h : Reaches (traced (Server.step quiche) (happened quiche)) (fun t a => notReplayed quiche t a = true)
      (Server.start sendPingInterval sign maxDatagramSize, []) (s, past)) :
    (∀ id number number', Owns s.listener id number → Owns s.listener id number' → number = number') ∧
    Throughout StaysRouted past ∧
    ((∀ id number, .removed id number ∉ past) → Throughout StaysRoutedForGood past) := by
  have hrouting : Routing quiche s past := routing_of_reaches hquiche h
  refine ⟨fun id number number' => hrouting.owns_unique, hrouting.routed, fun hremoved => ?_⟩
  refine hrouting.routed.mono fun e before hsuffix hrouted id number hput => ?_
  obtain ⟨hcreated, hgiven⟩ := hrouted id number hput
  refine ⟨hcreated, fun who he => ?_⟩
  rcases hgiven who he with hwho | hgone
  · exact hwho
  · have hmem : .removed id number ∈ past := hsuffix.subset (List.mem_cons_of_mem _ hgone)
    exact absurd hmem (hremoved id number)

theorem sample_keepsSourceId : KeepsSourceId Sample.quiche where
  accept n scid odcid info q h := by
    cases h
    rfl
  recv q buf info := by
    simp only [Sample.quiche]
    split <;> rfl
  send q size := by
    simp only [Sample.quiche]
    split <;> rfl

/-- A connection is made and established, and gets a third datagram. -/
def routedRun : List (ServerAction Sample) :=
  Sample.receive Sample.initialPacket 4 ++ Sample.receive (Sample.shortPacket 0) 7 ++ Sample.receive (Sample.shortPacket 1) 5

theorem routedRun_ends :
    ∃ s past, runIf (traced (Server.step Sample.quiche) (happened Sample.quiche)) (notReplayed Sample.quiche)
        (Server.start 1000 id 1200, []) routedRun = some (s, past) ∧
      past = [.given Sample.connId (some 0), .put Sample.connId 0, .given Sample.connId (some 0),
        .given Sample.connId (some 0), .created Sample.connId 0] :=
  ⟨_, _, rfl, rfl⟩

theorem routed_once_routedRun :
    ∃ s past, runIf (traced (Server.step Sample.quiche) (happened Sample.quiche)) (notReplayed Sample.quiche)
        (Server.start 1000 id 1200, []) routedRun = some (s, past) ∧ .put Sample.connId 0 ∈ past ∧
      Throughout StaysRoutedForGood past := by
  obtain ⟨s, past, hrun, hpast⟩ := routedRun_ends
  refine ⟨s, past, hrun, by simp [hpast], ?_⟩
  refine (routed_once sample_keepsSourceId 1000 id 1200 s past (.of_runIf routedRun (fun _ _ h => h) hrun)).2.2 ?_
  simp [hpast]

/-- The `Initial` packet comes a second time when its connection is established. -/
def replayRun : List (ServerAction Sample) :=
  Sample.receive Sample.initialPacket 4 ++ Sample.receive (Sample.shortPacket 0) 7 ++ Sample.receive Sample.initialPacket 4

/-- A second connection is made for the id; both connections own it, and it gets the packet. -/
theorem routed_twice :
    ∃ s past, Reachable (traced (Server.step Sample.quiche) (happened Sample.quiche)) (Server.start 1000 id 1200, []) (s, past) ∧
      Owns s.listener Sample.connId 0 ∧ Owns s.listener Sample.connId 1 ∧
      past = [.given Sample.connId (some 1), .created Sample.connId 1, .put Sample.connId 0,
        .given Sample.connId (some 0), .given Sample.connId (some 0), .created Sample.connId 0] :=
  ⟨_, _, Reachable.of_run replayRun rfl, Or.inr rfl, Or.inl ⟨_, rfl, rfl⟩, rfl⟩

end Hala.Quic
