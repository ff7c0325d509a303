import Hala.Quic.Sample
import Hala.Theorems.Quic.Waiters
import Mathlib.Data.Finset.SDiff

/-! Which readable streams `write` announces.

`stream_readable_next` reports the streams one by one, and `handle_stream_events` asks for one only. The streams
that are left are announced by nobody, unless there is nobody to tell. -/

namespace Hala.Quic
open Machine
variable {Q : Type} {quiche : Quiche Q} {unreported : Q → Finset StreamId} {c c' : QuicConnState Q}

/-- `unreported` are the readable streams that `stream_readable_next` has not returned: it returns each of them once,
    and `None` when there are no more. A stream is readable no more when all its data has been read. -/
structure ReportsReadable (quiche : Quiche Q) (unreported : Q → Finset StreamId) : Prop where
  next_some : ∀ q q' id, quiche.streamReadableNext q = (q', some id) →
    id ∈ unreported q ∧ unreported q' = (unreported q).erase id
  next_none : ∀ q q', quiche.streamReadableNext q = (q', none) → unreported q = ∅ ∧ unreported q' = ∅
  writable : ∀ q, unreported (quiche.streamWritableNext q).1 = unreported q
  read : ∀ q q' id size data, quiche.streamRecv q id size = (q', .ok (data, false)) →
    unreported q' = unreported q ∨ unreported q' = (unreported q).erase id
  drained : ∀ q q' id size result, quiche.streamRecv q id size = (q', result) → (∀ data, result ≠ .ok (data, false)) →
    unreported q' = (unreported q).erase id

/-! ### What `write` does after `recv` -/

theorem ReportsReadable.halfClosedStreamResp (h : ReportsReadable quiche unreported) {q q' : Q} {id : StreamId}
    {size fuel : Nat} {closed : Bool}
    (hresp : QuicConnState.handleHalfClosedStreamResp quiche q id size fuel = some (q', closed)) :
    unreported q' = (unreported q).erase id := by
  induction fuel generalizing q with
  | zero => cases hresp
  | succ fuel ih =>
    rw [QuicConnState.handleHalfClosedStreamResp] at hresp
    rcases hrecv : quiche.streamRecv q id size with ⟨q₁, err | ⟨data, fin⟩⟩
    · have hdrained := h.drained q q₁ id size _ hrecv (by simp)
      cases err <;> simp only [hrecv] at hresp <;> cases hresp <;> exact hdrained
    · cases fin with
      | true =>
        simp only [hrecv, if_true] at hresp
        cases hresp
        exact h.drained q q' id size _ hrecv (by simp)
      | false =>
        simp only [hrecv, Bool.false_eq_true, if_false] at hresp
        rw [ih hresp]
        rcases h.read q q₁ id size data hrecv with hread | hread
        · rw [hread]
        · rw [hread, Finset.erase_idem]

/-- Draining the half-closed streams takes these off the streams to be reported, and tells nobody. -/
theorem ReportsReadable.drainHalfClosed (h : ReportsReadable quiche unreported) {size fuel : Nat} {ids : List StreamId}
    (hdrain : c.drainHalfClosed quiche size fuel ids = some c') :
    unreported c'.state.quicheConn = unreported c.state.quicheConn \ ids.toFinset ∧ c'.mediator = c.mediator ∧
      c'.state.registerIncomingStreamIds = c.state.registerIncomingStreamIds ∧ c'.state.incoming = c.state.incoming := by
  induction ids generalizing c with
  | nil =>
    cases hdrain
    simp
  | cons id ids ih =>
    have hset : ∀ u : Finset StreamId, u.erase id \ ids.toFinset = u \ (id :: ids).toFinset := by
      intro u
      ext id'
      simp only [Finset.mem_sdiff, Finset.mem_erase, List.toFinset_cons, Finset.mem_insert, not_or]
      tauto
    rw [QuicConnState.drainHalfClosed] at hdrain
    split at hdrain
    · cases hdrain
    · next hresp =>
      obtain ⟨hu, hrest⟩ := ih hdrain
      have hq := h.halfClosedStreamResp hresp
      refine ⟨?_, hrest⟩
      rw [hu, ← hset, ← hq]
      rfl
    · next hresp =>
      obtain ⟨hu, hrest⟩ := ih hdrain
      have hq := h.halfClosedStreamResp hresp
      refine ⟨?_, hrest⟩
      rw [hu, ← hset, ← hq]

/-- The streams of the peer that are new are those that `handle_quic_incoming_stream` registers. -/
def QuicConnState.IsNew (c : QuicConnState Q) (id : StreamId) : Prop :=
  c.state.lastestOutgoingStreamId % 2 ≠ id % 2 ∧ id ∉ c.state.registerIncomingStreamIds

/-- A stream of the peer is registered and, if it is new, queued for `accept`, and the tasks that wait for its data
    or for a new stream have been notified. -/
structure StreamAnnounced (c c' : QuicConnState Q) (id : StreamId) : Prop where
  registered : c.state.lastestOutgoingStreamId % 2 ≠ id % 2 → id ∈ c'.state.registerIncomingStreamIds
  queued : c.IsNew id → id ∈ c'.state.incoming
  recv_notified : EventMap.Wakes (.streamReadable c.scid id) c.mediator c'.mediator
  accept_notified : c.IsNew id → EventMap.Wakes (.accept c.scid) c.mediator c'.mediator

/-- The stream is known and nobody waits for it. -/
structure StreamIdle (c : QuicConnState Q) (id : StreamId) : Prop where
  known : ¬c.IsNew id
  unawaited : c.mediator.wakers.lookup (.streamReadable c.scid id) = none

/-- What `handle_stream_events` does with the stream that it gets. -/
theorem announced_handleStreamEvents (c : QuicConnState Q) (id : StreamId) :
    StreamAnnounced c ((c.handleQuicIncomingStream id).notify (.streamReadable c.scid id) .on) id := by
  have hkeeps : ∀ event, EventMap.Keeps event c.mediator (c.handleQuicIncomingStream id).mediator :=
    (notified_handleQuicIncomingStream id).notifies.keeps
  have hon : Reason.on ≠ .none := by simp
  have hnew : c.IsNew id → (c.handleQuicIncomingStream id) =
      { c with state := { c.state with
          registerIncomingStreamIds := insert id c.state.registerIncomingStreamIds
          incoming := c.state.incoming ++ [id] } }.notify (.accept c.scid) .on := fun h => if_pos h
  refine ⟨fun hpeer => ?_, fun h => ?_, .after (hkeeps _) (EventMap.wakes_notify hon) (.notify hon), fun h => ?_⟩
  · by_cases h : c.IsNew id
    · rw [hnew h]
      simp [QuicConnState.notify]
    · have hold : c.handleQuicIncomingStream id = c := if_neg h
      rw [hold]
      exact Decidable.not_not.mp fun hmem => h ⟨hpeer, hmem⟩
  · rw [hnew h]
    simp [QuicConnState.notify]
  · rw [hnew h]
    exact (EventMap.wakes_notify hon).then (.notify hon) (Nat.le_of_eq EventMap.notify_cells.symm)

theorem handleQuicIncomingStream_registered {id id' : StreamId} (hne : id' ≠ id) :
    id' ∈ (c.handleQuicIncomingStream id).state.registerIncomingStreamIds ↔ id' ∈ c.state.registerIncomingStreamIds := by
  unfold QuicConnState.handleQuicIncomingStream
  split
  · simp [QuicConnState.notify, hne]
  · rfl

theorem handleQuicIncomingStream_frame (c : QuicConnState Q) (id : StreamId) :
    (c.handleQuicIncomingStream id).state.quicheConn = c.state.quicheConn ∧
      (c.handleQuicIncomingStream id).state.halfClosedStreams = c.state.halfClosedStreams := by
  unfold QuicConnState.handleQuicIncomingStream
  split <;> exact ⟨rfl, rfl⟩

/-- The task that waits for another stream is passed by. -/
theorem handleQuicIncomingStream_unheard (hwf : c.mediator.WellFormed) {id id' : StreamId} {cell : Cell}
    (hcell : c.mediator.wakers.lookup (.streamReadable c.scid id') = some cell) :
    (c.handleQuicIncomingStream id).mediator.wakers.lookup (.streamReadable c.scid id') = some cell := by
  unfold QuicConnState.handleQuicIncomingStream
  split
  · exact (hwf.notify_other (by simp) hcell).1
  · exact hcell

/-- And what becomes of the others: one of them counts as announced only when there was nothing to announce. -/
theorem announced_other_iff (hwf : c.mediator.WellFormed) {id id' : StreamId} (hne : id' ≠ id) :
    StreamAnnounced c ((c.handleQuicIncomingStream id).notify (.streamReadable c.scid id) .on) id' ↔ StreamIdle c id' := by
  constructor
  · rintro ⟨hregistered, -, hrecv, -⟩
    refine ⟨?_, ?_⟩
    · rintro ⟨hpeer, hmem⟩
      exact hmem ((handleQuicIncomingStream_registered hne).mp (hregistered hpeer))
    · rcases hlookup : c.mediator.wakers.lookup (.streamReadable c.scid id') with _ | cell
      · exact hlookup
      · have hevent : ConnEvent.streamReadable c.scid id' ≠ .streamReadable c.scid id := by simpa using hne
        have hwf' := (notified_handleQuicIncomingStream id).notifies.wellFormed hwf
        refine absurd ?_ (hrecv cell (hwf.lt _ _ hlookup) hlookup)
        exact (hwf'.notify_other hevent (handleQuicIncomingStream_unheard hwf hlookup)).2
  · rintro ⟨hknown, hunawaited⟩
    refine ⟨fun hpeer => ?_, fun hnew => absurd hnew hknown, fun cell _ hcell => ?_, fun hnew => absurd hnew hknown⟩
    · have hmem : id' ∈ c.state.registerIncomingStreamIds := Decidable.not_not.mp fun hmem => hknown ⟨hpeer, hmem⟩
      exact (handleQuicIncomingStream_registered hne).mpr hmem
    · rw [hunawaited] at hcell
      cases hcell

/-- A `write` that returns `Ok` has announced one stream, if there was one, and drained the half-closed streams. -/
theorem write_ok_cases {fuel : Nat} {order : List StreamId} {buf : Bytes} {info : PathInfo} {n : Nat}
    (h : c.write quiche fuel order buf info = some (c', .ok n)) :
    ∃ c₁ : QuicConnState Q, c₁ = (c.setQuiche (quiche.recv c.state.quicheConn buf info).1).handleStreamEvents quiche ∧
      order.toFinset = c₁.state.halfClosedStreams ∧
      ({ c₁ with state := { c₁.state with halfClosedStreams := ∅ } } : QuicConnState Q).drainHalfClosed quiche
        (quiche.sendQuantum c₁.state.quicheConn) fuel order = some c' := by
  unfold QuicConnState.write at h
  split at h
  · cases h
  next hstatus =>
  unfold QuicConnState.handleQuicConnStatus at hstatus
  split at hstatus <;> cases hstatus
  split at h
  · next q _ hrecv =>
    obtain ⟨c₂, hdrain, hc₂⟩ := Option.map_eq_some_iff.mp h
    cases hc₂
    refine ⟨_, rfl, ?_⟩
    rw [hrecv]
    unfold QuicConnState.handleHalfClosedStreams at hdrain
    split at hdrain
    · next horder => exact ⟨horder.2, hdrain⟩
    · cases hdrain
  · split at h <;> cases h

/-- Where no stream is to be reported, `handle_stream_events` goes on to the writable ones. -/
theorem ReportsReadable.streamEvents_of_none (h : ReportsReadable quiche unreported) {q : Q}
    (hnext : quiche.streamReadableNext c.state.quicheConn = (q, none)) :
    unreported (c.handleStreamEvents quiche).state.quicheConn = ∅ ∧
      (c.handleStreamEvents quiche).state.halfClosedStreams = c.state.halfClosedStreams := by
  have hwritable : unreported (quiche.streamWritableNext q).1 = ∅ := by
    rw [h.writable, (h.next_none _ _ hnext).2]
  simp only [QuicConnState.handleStreamEvents, hnext]
  split
  · next hw =>
    rw [hw] at hwritable
    exact ⟨hwritable, rfl⟩
  · next hw =>
    rw [hw] at hwritable
    exact ⟨hwritable, rfl⟩

/-- `StreamAnnounced` looks at the streams and at the event map only. -/
theorem StreamAnnounced.congr {c'' : QuicConnState Q} {id : StreamId} (hmediator : c''.mediator = c'.mediator)
    (hregistered : c''.state.registerIncomingStreamIds = c'.state.registerIncomingStreamIds)
    (hincoming : c''.state.incoming = c'.state.incoming) : StreamAnnounced c c'' id ↔ StreamAnnounced c c' id := by
  constructor
  · rintro ⟨h₁, h₂, h₃, h₄⟩
    exact ⟨hregistered ▸ h₁, hincoming ▸ h₂, hmediator ▸ h₃, hmediator ▸ h₄⟩
  · rintro ⟨h₁, h₂, h₃, h₄⟩
    exact ⟨hregistered ▸ h₁, hincoming ▸ h₂, hmediator ▸ h₃, hmediator ▸ h₄⟩

theorem StreamAnnounced.setQuiche {q : Q} {id : StreamId} : StreamAnnounced (c.setQuiche q) c' id ↔ StreamAnnounced c c' id :=
  ⟨fun ⟨h₁, h₂, h₃, h₄⟩ => ⟨h₁, h₂, h₃, h₄⟩, fun ⟨h₁, h₂, h₃, h₄⟩ => ⟨h₁, h₂, h₃, h₄⟩⟩

theorem StreamIdle.setQuiche {q : Q} {id : StreamId} : StreamIdle (c.setQuiche q) id ↔ StreamIdle c id :=
  ⟨fun ⟨h₁, h₂⟩ => ⟨h₁, h₂⟩, fun ⟨h₁, h₂⟩ => ⟨h₁, h₂⟩⟩

/-- For every datagram that `write` accepts, in every state: each stream that `quiche` has to report then is
    announced and none is left unreported, exactly when every one but the first is a half-closed stream that is
    known and that nobody waits for. -/
theorem readable_announced_iff (h : ReportsReadable quiche unreported) (now pingTimeout : Nanos) (q₀ : Q) (firstId : StreamId)
    (s : ConnCalls Q) (hs : Reachable (ConnCalls.step quiche) { conn := .new quiche now q₀ pingTimeout firstId } s)
    (fuel : Nat) (order : List StreamId) (buf : Bytes) (info : PathInfo) (c' : QuicConnState Q) (n : Nat)
    (hwrite : s.conn.write quiche fuel order buf info = some (c', .ok n)) :
    ((∀ id ∈ unreported (quiche.recv s.conn.state.quicheConn buf info).1, StreamAnnounced s.conn c' id) ∧
        unreported c'.state.quicheConn = ∅) ↔
      ∀ id ∈ unreported (quiche.recv s.conn.state.quicheConn buf info).1,
        (quiche.streamReadableNext (quiche.recv s.conn.state.quicheConn buf info).1).2 ≠ some id →
          id ∈ s.conn.state.halfClosedStreams ∧ StreamIdle s.conn id := by
  have hwf := ConnCalls.wellFormed_of_reachable hs
  obtain ⟨c₁, hc₁, horder, hdrain⟩ := write_ok_cases hwrite
  obtain ⟨hu, hmediator, hregistered, hincoming⟩ := h.drainHalfClosed hdrain
  generalize (quiche.recv s.conn.state.quicheConn buf info).1 = q at *
  have hcongr : ∀ id, StreamAnnounced s.conn c' id ↔ StreamAnnounced s.conn c₁ id :=
    fun _ => StreamAnnounced.congr hmediator hregistered hincoming
  simp only [hcongr]
  rcases hnext : quiche.streamReadableNext q with ⟨q₁, _ | first⟩
  · obtain ⟨hempty, -⟩ := h.next_none q q₁ hnext
    obtain ⟨hrest, -⟩ := h.streamEvents_of_none (c := s.conn.setQuiche q) hnext
    rw [← hc₁] at hrest
    simp [hempty, hu, hrest]
  · obtain ⟨-, herase⟩ := h.next_some q q₁ first hnext
    have hevents : c₁ = ((s.conn.setQuiche q₁).handleQuicIncomingStream first).notify (.streamReadable s.conn.scid first) .on := by
      rw [hc₁, QuicConnState.handleStreamEvents]
      simp only [QuicConnState.setQuiche, hnext]
    obtain ⟨hquiche, hclosed⟩ := handleQuicIncomingStream_frame (s.conn.setQuiche q₁) first
    have hrest : unreported c'.state.quicheConn = (unreported q).erase first \ s.conn.state.halfClosedStreams := by
      rw [hu, horder, hevents]
      change unreported ((s.conn.setQuiche q₁).handleQuicIncomingStream first).state.quicheConn \
        ((s.conn.setQuiche q₁).handleQuicIncomingStream first).state.halfClosedStreams = _
      rw [hquiche, hclosed, ← herase]
      rfl
    have hother : ∀ id ≠ first, (StreamAnnounced s.conn c₁ id ↔ StreamIdle s.conn id) := by
      intro id hne
      rw [hevents, ← StreamAnnounced.setQuiche, ← StreamIdle.setQuiche]
      exact announced_other_iff (c := s.conn.setQuiche q₁) hwf hne
    have hfirst : StreamAnnounced s.conn c₁ first := by
      rw [hevents, ← StreamAnnounced.setQuiche]
      exact announced_handleStreamEvents (s.conn.setQuiche q₁) first
    rw [hrest, Finset.sdiff_eq_empty_iff_subset]
    constructor
    · rintro ⟨hannounced, hsubset⟩ id hmem hne
      have hne' : id ≠ first := fun heq => hne (heq ▸ rfl)
      exact ⟨hsubset (Finset.mem_erase.mpr ⟨hne', hmem⟩), (hother id hne').mp (hannounced id hmem)⟩
    · intro hidle
      refine ⟨fun id hmem => ?_, fun id hmem => ?_⟩
      · by_cases hid : id = first
        · rwa [hid]
        · exact (hother id hid).mpr (hidle id hmem (fun heq => hid (Option.some.inj heq).symm)).2
      · obtain ⟨hid, hmem⟩ := Finset.mem_erase.mp hmem
        exact (hidle id hmem (fun heq => hid (Option.some.inj heq).symm)).1

namespace StreamSample

/-- The streams that the sample has not reported. -/
def unreportedSet (q : StreamSample) : Finset StreamId := q.unreported.toFinset

theorem toFinset_filter_ne (ids : List StreamId) (id : StreamId) :
    (ids.filter (· ≠ id)).toFinset = ids.toFinset.erase id := by
  ext id'
  simp [and_comm]

theorem reportsReadable : ReportsReadable StreamSample.quiche unreportedSet where
  next_some q q' id h := by
    rcases hu : q.unreported with _ | ⟨id', ids⟩
    · simp only [StreamSample.quiche, hu] at h
      cases h
    · simp only [StreamSample.quiche, hu] at h
      cases h
      have hset : unreportedSet q = insert id ids.toFinset := by simp [unreportedSet, hu]
      refine ⟨by simp [hset], ?_⟩
      rw [hset, unreportedSet, toFinset_filter_ne, Finset.erase_insert_eq_erase]
  next_none q q' h := by
    rcases hu : q.unreported with _ | ⟨id', ids⟩
    · simp only [StreamSample.quiche, hu] at h
      cases h
      simp [unreportedSet, hu]
    · simp only [StreamSample.quiche, hu] at h
      cases h
  writable _ := rfl
  read q q' id size data h := by
    right
    simp only [StreamSample.quiche] at h
    split at h <;> cases h
    exact toFinset_filter_ne _ _
  drained q q' id size result h _ := by
    simp only [StreamSample.quiche] at h
    split at h <;> cases h
    · exact toFinset_filter_ne _ _
    · exact toFinset_filter_ne _ _

end StreamSample

/-- A datagram with data for stream 4 only, which is new. -/
theorem readable_announced_iff_one :
    ∃ c', StreamSample.conn.write StreamSample.quiche 0 [] (StreamSample.packet [0x0a, 4, 1, 0]) (Sample.loopback 5000) =
        some (c', .ok 25) ∧
      StreamSample.conn.IsNew 4 ∧ StreamAnnounced StreamSample.conn c' 4 ∧ c'.state.quicheConn.unreportedSet = ∅ := by
  have hiff := readable_announced_iff StreamSample.reportsReadable 0 1000000000 { limit := 4 } 5 { conn := StreamSample.conn }
    .refl 0 [] (StreamSample.packet [0x0a, 4, 1, 0]) (Sample.loopback 5000) _ 25 rfl
  have hone : StreamSample.unreportedSet (StreamSample.quiche.recv StreamSample.conn.state.quicheConn
      (StreamSample.packet [0x0a, 4, 1, 0]) (Sample.loopback 5000)).1 = {4} := rfl
  rw [hone] at hiff
  obtain ⟨hannounced, hempty⟩ := hiff.mpr fun id hmem hne => by
    rw [Finset.mem_singleton.mp hmem] at hne
    exact absurd rfl hne
  exact ⟨_, rfl, ⟨by decide, by decide⟩, hannounced 4 (Finset.mem_singleton_self 4), hempty⟩

/-- A datagram with data for the new streams 4 and 8: nobody hears of stream 8. -/
theorem second_stream_unannounced :
    ReportsReadable StreamSample.quiche StreamSample.unreportedSet ∧
    ∃ c', StreamSample.conn.write StreamSample.quiche 0 [] (StreamSample.packet [0x0a, 4, 1, 0, 0x0a, 8, 1, 0])
        (Sample.loopback 5000) = some (c', .ok 29) ∧
      8 ∈ StreamSample.unreportedSet (StreamSample.quiche.recv StreamSample.conn.state.quicheConn
        (StreamSample.packet [0x0a, 4, 1, 0, 0x0a, 8, 1, 0]) (Sample.loopback 5000)).1 ∧
      ¬StreamAnnounced StreamSample.conn c' 8 ∧ c'.state.quicheConn.unreportedSet = {8} := by
  refine ⟨StreamSample.reportsReadable, _, rfl, ?_, fun h => ?_, rfl⟩
  · exact (by decide : (8 : StreamId) ∈ ({4, 8} : Finset StreamId))
  · have hregistered := h.registered (by decide)
    revert hregistered
    decide

end Hala.Quic
