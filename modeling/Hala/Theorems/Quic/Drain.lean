import Hala.Quic.ConnTasks
import Hala.Quic.Sample

/-! The loop that drains a half-closed stream.

It goes on after every read that has copied something or nothing and is not the last. A read into an empty buffer makes no
progress, and the buffer has the size of `send_quantum`. -/

namespace Hala.Quic
open Machine
variable {Q : Type} {quiche : Quiche Q} {buffered : Q → StreamId → Nat} {failed : Q → StreamId → Prop} {q q' : Q}
  {id : StreamId} {size fuel : Nat}

/-- `stream_recv` copies what fits into the buffer of what is there, the end of the stream comes only when everything has
    been read, and `Done` when there is nothing. A stream that has been reset, or is not known, has failed. -/
structure ReceivesStreams (quiche : Quiche Q) (buffered : Q → StreamId → Nat) (failed : Q → StreamId → Prop) : Prop where
  copied : ∀ q q' id size data fin, quiche.streamRecv q id size = (q', .ok (data, fin)) →
    data.length = min size (buffered q id) ∧ buffered q' id = buffered q id - data.length ∧
      (fin = true → buffered q' id = 0) ∧ (failed q' id ↔ failed q id)
  available : ∀ q id size, ¬failed q id → 0 < buffered q id → ∃ data fin, (quiche.streamRecv q id size).2 = .ok (data, fin)
  nothing : ∀ q id size data, buffered q id = 0 → (quiche.streamRecv q id size).2 ≠ .ok (data, false)
  failed : ∀ q id size, failed q id → ∃ err, (quiche.streamRecv q id size).2 = .error err ∧ err ≠ .done

/-- The read gives the end of the stream, or an error. -/
def endsStream : Except QuicheError (Bytes × Bool) → Bool
  | .ok (_, fin) => fin
  | .error err => err ≠ .done

/-- The loop from `q` on meets the end of the stream or an error. -/
inductive MeetsEnd (quiche : Quiche Q) (id : StreamId) (size : Nat) : Q → Prop
  | now {q : Q} : endsStream (quiche.streamRecv q id size).2 = true → MeetsEnd quiche id size q
  | later {q q' : Q} {data : Bytes} : quiche.streamRecv q id size = (q', .ok (data, false)) → MeetsEnd quiche id size q' →
      MeetsEnd quiche id size q

open QuicConnState in
/-- One pass of the loop, by what the read gives. -/
theorem resp_succ (quiche : Quiche Q) (q : Q) (id : StreamId) (size fuel : Nat) :
    (∃ q' data, quiche.streamRecv q id size = (q', .ok (data, false)) ∧
      handleHalfClosedStreamResp quiche q id size (fuel + 1) = handleHalfClosedStreamResp quiche q' id size fuel) ∨
    ((∀ q' data, quiche.streamRecv q id size ≠ (q', .ok (data, false))) ∧
      handleHalfClosedStreamResp quiche q id size (fuel + 1) =
        some ((quiche.streamRecv q id size).1, endsStream (quiche.streamRecv q id size).2)) := by
  rcases hrecv : quiche.streamRecv q id size with ⟨q', err | ⟨data, fin⟩⟩
  · refine Or.inr ⟨by simp, ?_⟩
    cases err <;> simp [handleHalfClosedStreamResp, hrecv, endsStream]
  · cases fin with
    | false => exact Or.inl ⟨q', data, rfl, by simp [handleHalfClosedStreamResp, hrecv]⟩
    | true =>
      refine Or.inr ⟨by simp, ?_⟩
      simp [handleHalfClosedStreamResp, hrecv, endsStream]

/-- What the loop reports is whether it has met the end or an error. -/
theorem resp_finished_iff {finished : Bool}
    (h : QuicConnState.handleHalfClosedStreamResp quiche q id size fuel = some (q', finished)) :
    finished = true ↔ MeetsEnd quiche id size q := by
  induction fuel generalizing q with
  | zero => cases h
  | succ fuel ih =>
    rcases resp_succ quiche q id size fuel with ⟨q₁, data, hrecv, hresp⟩ | ⟨hlast, hresp⟩
    · rw [hresp] at h
      refine (ih h).trans ⟨.later hrecv, fun hmeets => ?_⟩
      cases hmeets with
      | now hends =>
        rw [hrecv] at hends
        cases hends
      | later hrecv' hmeets =>
        rw [hrecv] at hrecv'
        cases hrecv'
        exact hmeets
    · rw [hresp] at h
      obtain ⟨-, rfl⟩ := Prod.mk.inj (Option.some.inj h)
      refine ⟨.now, fun hmeets => ?_⟩
      cases hmeets with
      | now hends => exact hends
      | later hrecv _ => exact absurd hrecv (hlast _ _)

/-- More fuel changes nothing. -/
theorem resp_add {result : Q × Bool} (h : QuicConnState.handleHalfClosedStreamResp quiche q id size fuel = some result)
    (more : Nat) : QuicConnState.handleHalfClosedStreamResp quiche q id size (fuel + more) = some result := by
  induction fuel generalizing q with
  | zero => cases h
  | succ fuel ih =>
    rw [Nat.add_right_comm]
    rcases resp_succ quiche q id size fuel with ⟨q₁, data, hrecv, hresp⟩ | ⟨hlast, hresp⟩
    · rcases resp_succ quiche q id size (fuel + more) with ⟨q₂, data', hrecv', hresp'⟩ | ⟨hlast, -⟩
      · rw [hrecv] at hrecv'
        cases hrecv'
        rw [hresp']
        exact ih (hresp ▸ h)
      · exact absurd hrecv (hlast _ _)
    · rcases resp_succ quiche q id size (fuel + more) with ⟨q₂, data', hrecv', -⟩ | ⟨-, hresp'⟩
      · exact absurd hrecv' (hlast _ _)
      · rw [hresp', ← hresp, h]

/-- A stream whose loop does not end keeps the lock for good. -/
theorem drainHalfClosed_hangs {c : QuicConnState Q}
    (h : QuicConnState.handleHalfClosedStreamResp quiche c.state.quicheConn id size fuel = none) (ids : List StreamId) :
    c.drainHalfClosed quiche size fuel (id :: ids) = none := by
  rw [QuicConnState.drainHalfClosed, h]

section Draining
variable (hrecv : ReceivesStreams quiche buffered failed)
include hrecv

/-- A buffer that is not empty makes every read that does not end the loop take something away. -/
theorem ReceivesStreams.drains (hsize : 0 < size) (q : Q) (id : StreamId) :
    ∃ result, QuicConnState.handleHalfClosedStreamResp quiche q id size (buffered q id + 1) = some result := by
  induction hn : buffered q id using Nat.strong_induction_on generalizing q with
  | _ n ih =>
    rcases resp_succ quiche q id size n with ⟨q₁, data, hread, hresp⟩ | ⟨-, hresp⟩
    · obtain ⟨hlength, hleft, -, -⟩ := hrecv.copied _ _ _ _ _ _ hread
      have hpos : buffered q id ≠ 0 := fun h0 => hrecv.nothing q id size data h0 (by rw [hread])
      have hlt : buffered q₁ id < n := by omega
      obtain ⟨result, hrest⟩ := ih _ hlt q₁ rfl
      refine ⟨result, ?_⟩
      rw [hresp, ← Nat.add_sub_cancel' hlt]
      exact resp_add hrest _
    · exact ⟨_, hresp⟩

/-- An empty buffer leaves everything there. -/
theorem ReceivesStreams.read_empty (hfailed : ¬failed q id) (hbuffered : 0 < buffered q id) :
    ∃ q' data, quiche.streamRecv q id 0 = (q', .ok (data, false)) ∧ ¬failed q' id ∧ 0 < buffered q' id := by
  obtain ⟨data, fin, hok⟩ := hrecv.available q id 0 hfailed hbuffered
  have hread : quiche.streamRecv q id 0 = ((quiche.streamRecv q id 0).1, .ok (data, fin)) := by rw [← hok]
  obtain ⟨hlength, hleft, hfin, hkept⟩ := hrecv.copied _ _ _ _ _ _ hread
  have hstill : 0 < buffered (quiche.streamRecv q id 0).1 id := by omega
  cases fin with
  | false => exact ⟨_, data, hread, mt hkept.mp hfailed, hstill⟩
  | true => exact absurd (hfin rfl) (Nat.ne_of_gt hstill)

theorem ReceivesStreams.hangs (hfailed : ¬failed q id) (hbuffered : 0 < buffered q id) (fuel : Nat) :
    QuicConnState.handleHalfClosedStreamResp quiche q id 0 fuel = none := by
  induction fuel generalizing q with
  | zero => rfl
  | succ fuel ih =>
    obtain ⟨q₁, data, hread, hfailed₁, hbuffered₁⟩ := hrecv.read_empty hfailed hbuffered
    rcases resp_succ quiche q id 0 fuel with ⟨q₂, data', hread', hresp⟩ | ⟨hlast, -⟩
    · rw [hread] at hread'
      cases hread'
      rw [hresp]
      exact ih hfailed₁ hbuffered₁
    · exact absurd hread (hlast _ _)

/-- Without anything to read, or when it has failed, the first read of a stream is the last. -/
theorem ReceivesStreams.ends_at_once (h : buffered q id = 0 ∨ failed q id) (size : Nat) :
    ∃ result, QuicConnState.handleHalfClosedStreamResp quiche q id size 1 = some result := by
  rcases resp_succ quiche q id size 0 with ⟨q₁, data, hread, -⟩ | ⟨-, hresp⟩
  · rcases h with h0 | hfailed
    · exact absurd (by rw [hread]) (hrecv.nothing q id size data h0)
    · obtain ⟨err, herr, -⟩ := hrecv.failed q id size hfailed
      rw [hread] at herr
      cases herr
  · exact ⟨_, hresp⟩

theorem ReceivesStreams.drainHalfClosed (hsize : 0 < size) (ids : List StreamId) (c : QuicConnState Q) :
    ∃ fuel c', ∀ more, c.drainHalfClosed quiche size (fuel + more) ids = some c' := by
  induction ids generalizing c with
  | nil => exact ⟨0, c, fun _ => rfl⟩
  | cons id ids ih =>
    obtain ⟨⟨q', finished⟩, hresp⟩ := hrecv.drains hsize c.state.quicheConn id
    have hresp' := resp_add hresp
    have hnext : ∃ c₁ : QuicConnState Q, ∀ more,
        c.drainHalfClosed quiche size (buffered c.state.quicheConn id + 1 + more) (id :: ids) =
          c₁.drainHalfClosed quiche size (buffered c.state.quicheConn id + 1 + more) ids := by
      cases finished with
      | true => exact ⟨c.setQuiche q', fun more => by rw [QuicConnState.drainHalfClosed, hresp' more]⟩
      | false => exact ⟨_, fun more => by rw [QuicConnState.drainHalfClosed, hresp' more]⟩
    obtain ⟨c₁, hnext⟩ := hnext
    obtain ⟨fuel, c', hrest⟩ := ih c₁
    refine ⟨buffered c.state.quicheConn id + 1 + fuel, c', fun more => ?_⟩
    rw [Nat.add_assoc, hnext, Nat.add_left_comm]
    exact hrest _

/-- Where `send_quantum` is not 0, all half-closed streams are drained, in whatever order the map yields them. -/
theorem ReceivesStreams.handleHalfClosedStreams (c : QuicConnState Q) (hquantum : 0 < quiche.sendQuantum c.state.quicheConn)
    (order : List StreamId) (hnodup : order.Nodup) (horder : order.toFinset = c.state.halfClosedStreams) :
    ∃ fuel c', c.handleHalfClosedStreams quiche fuel order = some c' := by
  obtain ⟨fuel, c', hdrain⟩ :=
    hrecv.drainHalfClosed hquantum order { c with state := { c.state with halfClosedStreams := ∅ } }
  refine ⟨fuel, c', ?_⟩
  rw [QuicConnState.handleHalfClosedStreams, if_pos ⟨hnodup, horder⟩]
  exact hdrain 0

end Draining

/-- The loop of `handle_half_closed_stream_resp`, with the buffer that `handle_half_closed_streams` makes for it, ends if
    and only if `send_quantum` is not 0, or the stream has nothing to be read or has failed; and what it reports is then
    whether it has met the end of the stream or an error. -/
theorem half_closed_resp_iff (hrecv : ReceivesStreams quiche buffered failed) (c : QuicConnState Q) (q : Q) (id : StreamId) :
    ((∃ fuel result, QuicConnState.handleHalfClosedStreamResp quiche q id (quiche.sendQuantum c.state.quicheConn) fuel =
        some result) ↔
      0 < quiche.sendQuantum c.state.quicheConn ∨ buffered q id = 0 ∨ failed q id) ∧
    ∀ fuel q' finished,
      QuicConnState.handleHalfClosedStreamResp quiche q id (quiche.sendQuantum c.state.quicheConn) fuel =
        some (q', finished) →
      (finished = true ↔ MeetsEnd quiche id (quiche.sendQuantum c.state.quicheConn) q) := by
  refine ⟨⟨?_, ?_⟩, fun _ _ _ => resp_finished_iff⟩
  · rintro ⟨fuel, result, hresp⟩
    by_contra hnot
    obtain ⟨hquantum, hbuffered, hfailed⟩ := not_or.mp hnot |>.imp_right not_or.mp
    rw [Nat.eq_zero_of_not_pos hquantum, hrecv.hangs hfailed (Nat.pos_of_ne_zero hbuffered)] at hresp
    cases hresp
  · rintro (hquantum | hends)
    · exact ⟨_, hrecv.drains hquantum q id⟩
    · exact ⟨1, hrecv.ends_at_once hends _⟩

namespace StreamSample

def unreadBytes (q : StreamSample) (id : StreamId) : Nat := if id ∈ q.readable then 1 else 0

theorem receivesStreams (quantum : Nat) : ReceivesStreams (sized quantum) unreadBytes fun _ _ => False where
  copied q q' id size data fin h := by
    simp only [sized] at h
    split at h
    · next hmem =>
      split at h
      · next hsize =>
        cases h
        simp [hsize, unreadBytes]
      · next hsize =>
        cases h
        simp [unreadBytes, hmem, Nat.one_le_iff_ne_zero.mpr hsize]
    · cases h
  available q id size _ h := by
    have hmem : id ∈ q.readable := by
      by_contra hmem
      rw [unreadBytes, if_neg hmem] at h
      cases h
    simp only [sized, if_pos hmem]
    split <;> exact ⟨_, _, rfl⟩
  nothing q id size data h := by
    have hmem : id ∉ q.readable := by
      intro hmem
      rw [unreadBytes, if_pos hmem] at h
      cases h
    simp [sized, hmem]
  failed _ _ _ h := h.elim

/-- The peer sends a byte on stream 4, the server closes the stream, and `read` drops it. -/
def halfClosedRun : List ConnAction :=
  [.call 0 (.write (packet [0x0a, 4, 1, 7]) (Sample.loopback 5000)), .task 0 1 [], .call 1 (.closeStream 4), .task 1 0 [],
    .read 1200, .reader]

end StreamSample

theorem half_closed_resp_iff_sized : ∃ s,
    run (ConnTasks.step (StreamSample.sized 1200)) { conn := StreamSample.conn } StreamSample.halfClosedRun = some s ∧
      s.conn.state.halfClosedStreams = {4} ∧ StreamSample.unreadBytes s.conn.state.quicheConn 4 = 1 ∧
      ∃ fuel result, QuicConnState.handleHalfClosedStreamResp (StreamSample.sized 1200) s.conn.state.quicheConn 4
        ((StreamSample.sized 1200).sendQuantum s.conn.state.quicheConn) fuel = some result := by
  refine ⟨_, rfl, by decide, rfl, ?_⟩
  exact (half_closed_resp_iff (StreamSample.receivesStreams 1200) _ _ 4).1.mpr (Or.inl (by decide))

/-- Without a path, `write` does not return once a stream with unread data is half closed. -/
theorem half_closed_write_hangs :
    ReceivesStreams (StreamSample.sized 0) StreamSample.unreadBytes (fun _ _ => False) ∧
    ∃ s : ConnTasks StreamSample, Reachable (ConnTasks.step (StreamSample.sized 0)) { conn := StreamSample.conn } s ∧
      s.conn.state.halfClosedStreams = {4} ∧
      (∀ fuel, QuicConnState.handleHalfClosedStreamResp (StreamSample.sized 0) s.conn.state.quicheConn 4
        ((StreamSample.sized 0).sendQuantum s.conn.state.quicheConn) fuel = none) ∧
      ∀ fuel, s.conn.write (StreamSample.sized 0) fuel [4] (StreamSample.packet []) (Sample.loopback 5000) = none := by
  have hrecv := StreamSample.receivesStreams 0
  refine ⟨hrecv, _, .of_run StreamSample.halfClosedRun rfl, by decide, ?_, ?_⟩
  · exact hrecv.hangs not_false (by decide)
  · intro fuel
    have hhangs : QuicConnState.handleHalfClosedStreamResp (StreamSample.sized 0)
        { readable := [4], limit := 4, pending := true } 4 0 fuel = none :=
      hrecv.hangs not_false (by decide) fuel
    show Option.map _ (QuicConnState.drainHalfClosed (StreamSample.sized 0) _ 0 fuel [4]) = none
    exact congrArg (Option.map _) (drainHalfClosed_hangs hhangs [])

end Hala.Quic
