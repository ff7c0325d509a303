import Hala.Lib.Machine
import Hala.Quic.Credit
import Hala.Quic.Sample
import Hala.Theorems.Quic.Tables
import Mathlib.Order.Interval.Finset.Nat

/-! When `peer_streams_left_bidi` is the number of streams that can still be opened and used.

`quiche` counts the streams up to the highest one that has been sent on; the connection counts those that it has
handed out and that have not been sent on. The two fit together as long as the streams are used in the order in which
they were opened and none of them is given up unused. -/

namespace Hala.Quic
open Machine
variable {Q : Type} {quiche : Quiche Q} {credit : StreamCredit Q} {first : Nat} {limit used : Q → Nat}
  {c c' c'' : QuicConnState Q}

/-- How `quiche` counts the bidirectional streams that are opened here, which have the ids of the residue of `first`:
    `limit` is what the peer allows, and `used` the highest of the numbers `id / 4 + 1` that have been sent on. -/
structure CountsStreams (quiche : Quiche Q) (credit : StreamCredit Q) (first : Nat) (limit used : Q → Nat) : Prop where
  left : ∀ q, credit.peerStreamsLeftBidi q = limit q - used q
  streamLimit : ∀ q (id : Nat) buf fin, id % 4 = first % 4 →
    ((quiche.streamSend q id buf fin).2 = .error .streamLimit ↔ limit q < id / 4 + 1)
  sent : ∀ q q' (id : Nat) buf fin n, id % 4 = first % 4 → quiche.streamSend q id buf fin = (q', .ok n) →
    used q' = max (used q) (id / 4 + 1)
  recv : ∀ q buf info, used (quiche.recv q buf info).1 = used q
  streamRecv : ∀ q id size, used (quiche.streamRecv q id size).1 = used q
  readableNext : ∀ q, used (quiche.streamReadableNext q).1 = used q
  writableNext : ∀ q, used (quiche.streamWritableNext q).1 = used q

/-! ### What leaves the opened streams as they are -/

structure SameStreams (used : Q → Nat) (c c' : QuicConnState Q) : Prop where
  outgoing : c'.state.registerOutgoingStreamIds = c.state.registerOutgoingStreamIds
  lastest : c'.state.lastestOutgoingStreamId = c.state.lastestOutgoingStreamId
  used : used c'.state.quicheConn = used c.state.quicheConn

theorem SameStreams.of_state (h : c'.state = c.state) : SameStreams used c c' := by
  constructor <;> rw [h]

theorem SameStreams.trans (h : SameStreams used c c') (h' : SameStreams used c' c'') : SameStreams used c c'' :=
  ⟨h'.outgoing.trans h.outgoing, h'.lastest.trans h.lastest, h'.used.trans h.used⟩

theorem SameStreams.status {result : Except IoError Unit} (h : c.handleQuicConnStatus quiche = (c', result)) :
    SameStreams used c c' :=
  .of_state (state_of_status h)

theorem SameStreams.readable {result : Except IoError Unit} (h : c.notifyReadable quiche = (c', result)) :
    SameStreams used c c' :=
  .of_state (state_of_readable h)

theorem SameStreams.streamEvents (h : CountsStreams quiche credit first limit used) (c : QuicConnState Q) :
    SameStreams used c (c.handleStreamEvents quiche) := by
  have htables : (c.handleStreamEvents quiche).state.tables = _ := tables_handleStreamEvents c
  have hused : used (c.handleStreamEvents quiche).state.quicheConn = used c.state.quicheConn := by
    obtain hconn | hconn := quicheConn_handleStreamEvents quiche c
    · rw [hconn, h.readableNext]
    · rw [hconn, h.writableNext, h.readableNext]
  exact ⟨congrArg (fun t : RawQuicConnState Unit => t.registerOutgoingStreamIds) htables,
    congrArg (fun t : RawQuicConnState Unit => t.lastestOutgoingStreamId) htables, hused⟩

theorem CountsStreams.halfClosedStreamResp (h : CountsStreams quiche credit first limit used) {q q' : Q} {id : StreamId}
    {size fuel : Nat} {closed : Bool}
    (hresp : QuicConnState.handleHalfClosedStreamResp quiche q id size fuel = some (q', closed)) : used q' = used q := by
  induction fuel generalizing q with
  | zero => cases hresp
  | succ fuel ih =>
    have hrecv := h.streamRecv q id size
    rw [QuicConnState.handleHalfClosedStreamResp] at hresp
    split at hresp
    · next heq =>
      rw [heq] at hrecv
      split at hresp
      · cases hresp
        exact hrecv
      · exact (ih hresp).trans hrecv
    · next heq =>
      rw [heq] at hrecv
      cases hresp
      exact hrecv
    · next heq =>
      rw [heq] at hrecv
      cases hresp
      exact hrecv

theorem SameStreams.drainHalfClosed (h : CountsStreams quiche credit first limit used) {size fuel : Nat} {ids : List StreamId}
    (hdrain : c.drainHalfClosed quiche size fuel ids = some c') : SameStreams used c c' := by
  induction ids generalizing c with
  | nil =>
    cases hdrain
    exact .of_state rfl
  | cons id ids ih =>
    rw [QuicConnState.drainHalfClosed] at hdrain
    split at hdrain
    · cases hdrain
    · next hresp =>
      have hrest := ih hdrain
      exact ⟨hrest.outgoing, hrest.lastest, hrest.used.trans (h.halfClosedStreamResp hresp)⟩
    · next hresp =>
      have hrest := ih hdrain
      exact ⟨hrest.outgoing, hrest.lastest, hrest.used.trans (h.halfClosedStreamResp hresp)⟩

theorem SameStreams.write (h : CountsStreams quiche credit first limit used) {fuel : Nat} {order : List StreamId} {buf : Bytes}
    {info : PathInfo} {result : Except IoError Nat} (hwrite : c.write quiche fuel order buf info = some (c', result)) :
    SameStreams used c c' := by
  unfold QuicConnState.write at hwrite
  split at hwrite
  · next hstatus =>
    cases hwrite
    exact .status hstatus
  next c₁ hstatus =>
  obtain ⟨rfl, -⟩ := live_of_status_ok hstatus
  have hrecv := h.recv c₁.state.quicheConn buf info
  split at hwrite
  · next q _ heq =>
    rw [heq] at hrecv
    obtain ⟨c₂, hdrain, hc₂⟩ := Option.map_eq_some_iff.mp hwrite
    cases hc₂
    have hreceived : SameStreams used c₁ (c₁.setQuiche q) := ⟨rfl, rfl, hrecv⟩
    have hevents := hreceived.trans (.streamEvents h _)
    unfold QuicConnState.handleHalfClosedStreams at hdrain
    split at hdrain
    · have hrest := SameStreams.drainHalfClosed h hdrain
      exact hevents.trans ⟨hrest.outgoing, hrest.lastest, hrest.used⟩
    · cases hdrain
  · next q _ heq =>
    rw [heq] at hrecv
    have hreceived : SameStreams used c₁ (c₁.setQuiche q) := ⟨rfl, rfl, hrecv⟩
    split at hwrite <;> cases hwrite
    · next hstatus' => exact hreceived.trans (.status hstatus')
    · next hstatus' => exact hreceived.trans (.status hstatus')

/-! ### Streams that are used in order -/

/-- The next id that `open_stream` hands out, as a number. -/
def QuicConnState.nextId (c : QuicConnState Q) : Nat := c.state.lastestOutgoingStreamId

/-- The streams that have been opened and not been sent on are those from `lo` on, and `quiche` has counted those
    before it. The stream with the number 0 is never handed out, so before the first use the counts differ by one. -/
structure InOrder (first : Nat) (used : Q → Nat) (c : QuicConnState Q) (lo : Nat) : Prop where
  next_residue : c.nextId % 4 = first % 4
  lo_residue : lo % 4 = first % 4
  lo_le : lo ≤ c.nextId
  outgoing : ∀ id : Nat, id ∈ c.state.registerOutgoingStreamIds ↔ id % 4 = first % 4 ∧ lo ≤ id ∧ id < c.nextId
  counted : (used c.state.quicheConn = 0 ∧ lo / 4 = 1) ∨ (0 < used c.state.quicheConn ∧ used c.state.quicheConn = lo / 4)

variable {lo : Nat}

theorem SameStreams.nextId (h : SameStreams used c c') : c'.nextId = c.nextId := h.lastest

theorem InOrder.same (h : InOrder first used c lo) (hsame : SameStreams used c c') : InOrder first used c' lo := by
  obtain ⟨h₁, h₂, h₃, h₄, h₅⟩ := h
  exact ⟨by rwa [hsame.nextId], h₂, by rwa [hsame.nextId], by rwa [hsame.outgoing, hsame.nextId], by rwa [hsame.used]⟩

theorem InOrder.card (h : InOrder first used c lo) : c.state.registerOutgoingStreamIds.card = c.nextId / 4 - lo / 4 := by
  obtain ⟨hnext, hlo, -, houtgoing, -⟩ := h
  have heq : c.state.registerOutgoingStreamIds = (Finset.Ico (lo / 4) (c.nextId / 4)).image (fun k => 4 * k + first % 4) := by
    refine Finset.ext fun (id : Nat) => ?_
    rw [houtgoing, Finset.mem_image]
    constructor
    · rintro ⟨hid, hle, hlt⟩
      have hid' : 4 * (id / 4) + first % 4 = id := by omega
      exact ⟨id / 4, Finset.mem_Ico.mpr ⟨by omega, by omega⟩, hid'⟩
    · rintro ⟨k, hk, rfl⟩
      obtain ⟨hle, hlt⟩ := Finset.mem_Ico.mp hk
      omega
  have hinj : Function.Injective fun k : Nat => 4 * k + first % 4 := by
    intro a b hab
    dsimp only at hab
    omega
  rw [heq, Finset.card_image_of_injective _ hinj, Nat.card_Ico]

/-- The condition on a state: while there are streams left, what is left is the initial limit exactly when no stream
    has been used. The code takes the one for the other. -/
def QuicConnState.TellsFirst (credit : StreamCredit Q) (used : Q → Nat) (c : QuicConnState Q) : Prop :=
  ∃ initial, credit.initialMaxStreamsBidi c.state.quicheConn = some initial ∧
    (c.state.registerOutgoingStreamIds.card < credit.peerStreamsLeftBidi c.state.quicheConn →
      (initial = credit.peerStreamsLeftBidi c.state.quicheConn ↔ used c.state.quicheConn = 0))

theorem InOrder.left_eq (hcounts : CountsStreams quiche credit first limit used) (h : InOrder first used c lo)
    (htells : c.TellsFirst credit used) : c.peerStreamsLeftBidi credit = some (limit c.state.quicheConn - c.nextId / 4) := by
  obtain ⟨initial, hinitial, hfirst⟩ := htells
  have hcard := h.card
  have hleft := hcounts.left c.state.quicheConn
  have hlo : lo / 4 ≤ c.nextId / 4 := Nat.div_le_div_right h.lo_le
  unfold QuicConnState.peerStreamsLeftBidi
  rw [hinitial, Option.map_some, Option.some.injEq]
  by_cases hmore : c.state.registerOutgoingStreamIds.card < credit.peerStreamsLeftBidi c.state.quicheConn
  · have hiff := hfirst hmore
    rw [if_pos hmore]
    rcases h.counted with ⟨hunused, hone⟩ | ⟨hused, hcount⟩
    · rw [if_pos (hiff.mpr hunused)]
      omega
    · have hne : initial ≠ credit.peerStreamsLeftBidi c.state.quicheConn := fun heq => by
        have := hiff.mp heq
        omega
      rw [if_neg hne]
      omega
  · rw [if_neg hmore]
    rcases h.counted with ⟨hunused, hone⟩ | ⟨hused, hcount⟩ <;> omega

/-! ### The operations -/

/-- A `stream_send` that makes `quiche` count another stream succeeds and is on the one that was opened first, and no
    stream is closed unused. -/
def QuicConnState.Orderly (quiche : Quiche Q) (used : Q → Nat) (c : QuicConnState Q) : CreditAction → Prop
  | .streamSend id buf fin =>
    c.isGone quiche = true ∨ id ∈ c.state.halfClosedStreams ∨
    used (quiche.streamSend c.state.quicheConn id buf fin).1 = used c.state.quicheConn ∨
    ((quiche.streamSend c.state.quicheConn id buf fin).2.isOk = true ∧ id ∈ c.state.registerOutgoingStreamIds ∧
      ∀ id' ∈ c.state.registerOutgoingStreamIds, id ≤ id')
  | .closeStream id => c.isGone quiche = true ∨ id ∉ c.state.registerOutgoingStreamIds
  | _ => True

theorem InOrder.openStream (h : InOrder first used c lo) : InOrder first used (c.openStream quiche).1 lo := by
  unfold QuicConnState.openStream
  split
  · next hstatus => exact h.same (.status hstatus)
  next c₁ hstatus =>
  obtain ⟨rfl, -⟩ := live_of_status_ok hstatus
  obtain ⟨hnext, hlo, hle, houtgoing, hcounted⟩ := h
  have hnext' : ∀ c' : QuicConnState Q, c'.state.lastestOutgoingStreamId = c₁.state.lastestOutgoingStreamId + 4 →
      c'.nextId = c₁.nextId + 4 := fun _ h => h
  refine ⟨?_, hlo, ?_, fun id => ?_, hcounted⟩
  · rw [hnext' _ rfl]
    omega
  · rw [hnext' _ rfl]
    omega
  · rw [hnext' _ rfl]
    change id ∈ insert c₁.nextId c₁.state.registerOutgoingStreamIds ↔ _
    rw [Finset.mem_insert, houtgoing]
    constructor
    · rintro (rfl | ⟨hid, hle', hlt⟩)
      · exact ⟨hnext, hle, by omega⟩
      · exact ⟨hid, hle', by omega⟩
    · rintro ⟨hid, hle', hlt⟩
      by_cases heq : id = c₁.nextId
      · exact Or.inl heq
      · exact Or.inr ⟨hid, hle', by omega⟩

theorem InOrder.closeStream {id : StreamId} (h : InOrder first used c lo)
    (hok : c.Orderly quiche used (.closeStream id)) : InOrder first used (c.closeStream quiche id).1 lo := by
  unfold QuicConnState.closeStream
  split
  · next hstatus => exact h.same (.status hstatus)
  next c₁ hstatus =>
  obtain ⟨rfl, hlive⟩ := live_of_status_ok hstatus
  have hunused : id ∉ c₁.state.registerOutgoingStreamIds := by
    rcases hok with hgone | hunused
    · rw [hlive] at hgone
      cases hgone
    · exact hunused
  rw [if_neg hunused]
  dsimp only
  rcases hreadable : QuicConnState.notifyReadable quiche _ with ⟨c₂, result⟩
  have hsame : SameStreams used _ c₂ := .readable hreadable
  exact h.same ⟨hsame.outgoing, hsame.lastest, hsame.used⟩

/-- The stream that has been opened first is used. -/
theorem InOrder.use (h : InOrder first used c lo) {id : Nat} (hmem : id ∈ c.state.registerOutgoingStreamIds)
    (hleast : ∀ id' ∈ c.state.registerOutgoingStreamIds, id ≤ id') (hnext : c'.nextId = c.nextId)
    (houtgoing : c'.state.registerOutgoingStreamIds = c.state.registerOutgoingStreamIds.erase id)
    (hused : used c'.state.quicheConn = max (used c.state.quicheConn) (id / 4 + 1)) : InOrder first used c' (lo + 4) := by
  obtain ⟨hresidue, hle, hlt⟩ := (h.outgoing id).mp hmem
  have hlo : id = lo := by
    have hleast' : id ≤ lo := hleast lo ((h.outgoing lo).mpr ⟨h.lo_residue, le_rfl, by omega⟩)
    omega
  subst hlo
  have hlower := h.lo_residue
  have hupper := h.next_residue
  refine ⟨by rw [hnext, hupper], by omega, by omega, fun id' => ?_, ?_⟩
  · rw [houtgoing, hnext, Finset.mem_erase, h.outgoing]
    constructor
    · rintro ⟨hne, hid, hle', hlt'⟩
      have hne' : id' ≠ id := hne
      exact ⟨hid, by omega, hlt'⟩
    · rintro ⟨hid, hle', hlt'⟩
      have hne : id' ≠ id := by omega
      exact ⟨hne, hid, by omega, hlt'⟩
  · right
    rcases h.counted with ⟨hunused, hone⟩ | ⟨-, hcount⟩ <;> omega

/-- What becomes of the streams when `quiche` has accepted data for one. -/
theorem InOrder.sent (hcounts : CountsStreams quiche credit first limit used) {id n : Nat} {buf : Bytes} {fin : Bool} {q : Q}
    (h : InOrder first used c lo) (hsend : quiche.streamSend c.state.quicheConn id buf fin = (q, .ok n))
    (hok : used q = used c.state.quicheConn ∨ (id ∈ c.state.registerOutgoingStreamIds ∧
      ∀ id' ∈ c.state.registerOutgoingStreamIds, id ≤ id'))
    (hquiche : c'.state.quicheConn = q) (hnext : c'.nextId = c.nextId)
    (houtgoing : c'.state.registerOutgoingStreamIds =
      if c.nextId % 2 = id % 2 then c.state.registerOutgoingStreamIds.erase id else c.state.registerOutgoingStreamIds) :
    ∃ lo', InOrder first used c' lo' := by
  have hresidue := h.next_residue
  by_cases hmem : id ∈ c.state.registerOutgoingStreamIds
  · obtain ⟨hid, hle, -⟩ := (h.outgoing id).mp hmem
    have hused := hcounts.sent _ _ id _ _ _ hid hsend
    have hparity : c.nextId % 2 = id % 2 := by omega
    rw [if_pos hparity] at houtgoing
    rcases hok with hsame | ⟨-, hleast⟩
    · -- An unused stream raises the count.
      have hlo : lo / 4 ≤ id / 4 := Nat.div_le_div_right hle
      rcases h.counted with ⟨hunused, -⟩ | ⟨-, hcount⟩ <;> omega
    · exact ⟨lo + 4, h.use hmem hleast hnext houtgoing (by rw [hquiche, hused])⟩
  · have hsame : used q = used c.state.quicheConn := by
      rcases hok with hsame | ⟨hmem', -⟩
      · exact hsame
      · exact absurd hmem' hmem
    rw [Finset.erase_eq_of_notMem hmem, ite_self] at houtgoing
    exact ⟨lo, h.same ⟨houtgoing, hnext, by rw [hquiche, hsame]⟩⟩

theorem InOrder.streamSend (hcounts : CountsStreams quiche credit first limit used) {id : StreamId} {buf : Bytes} {fin : Bool}
    (h : InOrder first used c lo) (hok : c.Orderly quiche used (.streamSend id buf fin)) :
    ∃ lo', InOrder first used (c.streamSend quiche id buf fin).1 lo' := by
  unfold QuicConnState.streamSend
  split
  · next hstatus => exact ⟨lo, h.same (.status hstatus)⟩
  next c₁ hstatus =>
  obtain ⟨rfl, hlive⟩ := live_of_status_ok hstatus
  split
  · exact ⟨lo, h⟩
  next hstream =>
  rcases hok with hgone | hclosed | hok
  · rw [hlive] at hgone
    cases hgone
  · exact absurd hclosed (not_halfClosed_of_ok hstream)
  split
  · next q n hsend =>
    rw [hsend] at hok
    let sent : QuicConnState Q := { c₁.setQuiche q with state := { (c₁.setQuiche q).state with
      registerOutgoingStreamIds :=
        if c₁.state.lastestOutgoingStreamId % 2 = id % 2 then c₁.state.registerOutgoingStreamIds.erase id
        else c₁.state.registerOutgoingStreamIds } }
    obtain ⟨lo', hsent⟩ : ∃ lo', InOrder first used sent lo' :=
      h.sent hcounts hsend (hok.imp_right And.right) rfl rfl rfl
    have hevents := hsent.same (.streamEvents hcounts sent)
    dsimp only
    split
    · next hreadable => exact ⟨lo', hevents.same (.readable hreadable)⟩
    · next hreadable => exact ⟨lo', hevents.same (.readable hreadable)⟩
  · next q hsend =>
    rw [hsend] at hok
    have hsame : SameStreams used c₁ (c₁.setQuiche q) := ⟨rfl, rfl, hok.resolve_right (by simp [Except.isOk, Except.toBool])⟩
    have hevents := (h.same hsame).same (.streamEvents hcounts _)
    split
    · next hreadable => exact ⟨lo, hevents.same (.readable hreadable)⟩
    · next hreadable =>
      have hnotified := hevents.same (.readable hreadable)
      exact ⟨lo, hnotified.same (.of_state rfl)⟩
  · next q err _ hsend =>
    rw [hsend] at hok
    have hsame : SameStreams used c₁ (c₁.setQuiche q) := ⟨rfl, rfl, hok.resolve_right (by simp [Except.isOk, Except.toBool])⟩
    split
    · next hstatus' => exact ⟨lo, (h.same hsame).same (.status hstatus')⟩
    · next hstatus' => exact ⟨lo, (h.same hsame).same (.status hstatus')⟩

/-- Every operation keeps the order. -/
theorem InOrder.step (hcounts : CountsStreams quiche credit first limit used) {a : CreditAction} (h : InOrder first used c lo)
    (hok : c.Orderly quiche used a) (hs : c.creditStep quiche a = some c') : ∃ lo', InOrder first used c' lo' := by
  cases a with
  | openStream =>
    cases hs
    exact ⟨lo, h.openStream⟩
  | streamSend id buf fin =>
    cases hs
    exact h.streamSend hcounts hok
  | closeStream id =>
    cases hs
    exact ⟨lo, h.closeStream hok⟩
  | write fuel order buf info =>
    obtain ⟨⟨c₁, result⟩, hwrite, rfl⟩ := Option.map_eq_some_iff.mp hs
    exact ⟨lo, h.same (.write hcounts hwrite)⟩

/-! ### Runs -/

theorem new_state (quiche : Quiche Q) (now : Nanos) (q : Q) (pingTimeout : Nanos) (first : StreamId) :
    (QuicConnState.new quiche now q pingTimeout first).state.quicheConn = q ∧
      (QuicConnState.new quiche now q pingTimeout first).state.registerOutgoingStreamIds = ∅ ∧
      (QuicConnState.new quiche now q pingTimeout first).state.lastestOutgoingStreamId = first := by
  unfold QuicConnState.new RawQuicConnState.new
  generalize hraw : ({ quicheConn := q, pingTimeout, sendAckElicitingInstant := now, lastestOutgoingStreamId := first } :
    RawQuicConnState Q) = raw
  have hkept : raw.quicheConn = q ∧ raw.registerOutgoingStreamIds = ∅ ∧ raw.lastestOutgoingStreamId = first := by
    subst hraw
    exact ⟨rfl, rfl, rfl⟩
  clear hraw
  induction quiche.readable q generalizing raw with
  | nil => exact hkept
  | cons id ids ih => exact ih _ hkept

theorem inOrder_new (quiche : Quiche Q) (now : Nanos) {q : Q} (pingTimeout : Nanos) (hfirst : first = 4 ∨ first = 5)
    (hq : used q = 0) : InOrder first used (.new quiche now q pingTimeout first) first := by
  obtain ⟨hquiche, houtgoing, hlastest⟩ := new_state quiche now q pingTimeout first
  have hnext : (QuicConnState.new quiche now q pingTimeout first).nextId = first := hlastest
  refine ⟨by rw [hnext], rfl, by rw [hnext], fun id => ?_, Or.inl ⟨by rw [hquiche, hq], by omega⟩⟩
  rw [houtgoing, hnext]
  simp only [Finset.notMem_empty, false_iff]
  omega

/-- The condition on a step: it is orderly, and leaves a state in which an unused connection can be told. -/
def QuicConnState.KeepsCredit (quiche : Quiche Q) (credit : StreamCredit Q) (used : Q → Nat) (c : QuicConnState Q)
    (a : CreditAction) : Prop :=
  c.Orderly quiche used a ∧ ∀ c', c.creditStep quiche a = some c' → c'.TellsFirst credit used

/-- In every run whose steps meet the condition, `peer_streams_left_bidi` is what the limit of the peer leaves above
    the next id, and so many of the ids that `open_stream` hands out next are within the limit. -/
theorem stream_credit_exact (hcounts : CountsStreams quiche credit first limit used) (hfirst : first = 4 ∨ first = 5)
    (now pingTimeout : Nanos) (q : Q) (hq : used q = 0)
    (htells : (QuicConnState.new quiche now q pingTimeout first).TellsFirst credit used) (c : QuicConnState Q)
    (h : Reaches (QuicConnState.creditStep quiche) (QuicConnState.KeepsCredit quiche credit used)
      (.new quiche now q pingTimeout first) c) :
    c.peerStreamsLeftBidi credit = some (limit c.state.quicheConn - c.state.lastestOutgoingStreamId / 4) ∧
      ∀ j buf fin, j < limit c.state.quicheConn - c.state.lastestOutgoingStreamId / 4 ↔
        (quiche.streamSend c.state.quicheConn (c.state.lastestOutgoingStreamId + 4 * j) buf fin).2 ≠ .error .streamLimit := by
  have hinv : c.TellsFirst credit used ∧ ∃ lo, InOrder first used c lo := by
    induction h with
    | refl => exact ⟨htells, first, inOrder_new quiche now pingTimeout hfirst hq⟩
    | step _ hok hs ih =>
      obtain ⟨-, lo, hlo⟩ := ih
      exact ⟨hok.2 _ hs, hlo.step hcounts hok.1 hs⟩
  obtain ⟨htells', lo, hlo⟩ := hinv
  refine ⟨hlo.left_eq hcounts htells', fun j buf fin => ?_⟩
  have hresidue : (c.nextId + 4 * j) % 4 = first % 4 := by
    have hnext := hlo.next_residue
    omega
  have hlimit := hcounts.streamLimit c.state.quicheConn (c.nextId + 4 * j) buf fin hresidue
  change j < limit c.state.quicheConn - c.nextId / 4 ↔ (quiche.streamSend c.state.quicheConn (c.nextId + 4 * j) buf fin).2 ≠ _
  rw [ne_eq, hlimit]
  omega

namespace StreamSample

theorem used_frames (q : StreamSample) (buf : Bytes) : (q.frames buf).used = q.used := by
  induction q, buf using frames.induct with
  | case1 q id _ rest ih => exact ih
  | case2 q limit rest ih => exact ih
  | case3 => rfl
  | case4 buf q h₁ h₂ h₃ => rw [frames] <;> assumption

theorem countsStreams : CountsStreams StreamSample.quiche streamCredit 5 (·.limit) (·.used) where
  left _ := rfl
  streamLimit q id buf fin hid := by
    simp only [StreamSample.quiche]
    rw [if_pos hid]
    split
    · next hlimit => exact iff_of_true rfl hlimit
    · next hlimit => exact iff_of_false (by simp) hlimit
  sent q q' id buf fin n hid h := by
    simp only [StreamSample.quiche] at h
    rw [if_pos hid] at h
    split at h <;> cases h
    rfl
  recv q buf info := used_frames q _
  streamRecv q id size := by
    simp only [StreamSample.quiche]
    split <;> rfl
  readableNext q := by
    simp only [StreamSample.quiche]
    split <;> rfl
  writableNext _ := rfl

end StreamSample

/-- Two streams are opened, and the first of them is used in between: one more is left of four. -/
theorem stream_credit_exact_one :
    ∃ c, run (QuicConnState.creditStep StreamSample.quiche) StreamSample.conn
        [.openStream, .streamSend 5 [1] false, .openStream] = some c ∧
      c.peerStreamsLeftBidi StreamSample.streamCredit = some 1 := by
  have htells : ∀ c : QuicConnState StreamSample, (4 = c.state.quicheConn.limit - c.state.quicheConn.used ↔
      c.state.quicheConn.used = 0) → c.TellsFirst StreamSample.streamCredit (·.used) := fun c h => ⟨4, rfl, fun _ => h⟩
  have hreaches : Reaches (QuicConnState.creditStep StreamSample.quiche)
      (QuicConnState.KeepsCredit StreamSample.quiche StreamSample.streamCredit (·.used)) StreamSample.conn _ := .refl
  have hreaches := hreaches.step (a := CreditAction.openStream)
    ⟨trivial, fun c' hc' => htells c' (by cases hc'; decide)⟩ rfl
  have hreaches := hreaches.step (a := CreditAction.streamSend 5 [1] false)
    ⟨Or.inr (Or.inr (Or.inr ⟨rfl, by decide, by decide⟩)), fun c' hc' => htells c' (by cases hc'; decide)⟩ rfl
  have hreaches := hreaches.step (a := CreditAction.openStream)
    ⟨trivial, fun c' hc' => htells c' (by cases hc'; decide)⟩ rfl
  have hexact := stream_credit_exact StreamSample.countsStreams (Or.inr rfl) 0 1000000000 { limit := 4 } rfl
    (htells _ (by decide)) _ hreaches
  exact ⟨_, rfl, hexact.1⟩

/-- A stream is opened and closed unused: the connection counts three that are left, and the limit allows two. -/
theorem stream_credit_wrong :
    CountsStreams StreamSample.quiche StreamSample.streamCredit 5 (·.limit) (·.used) ∧
    ∃ c, Reachable (QuicConnState.creditStep StreamSample.quiche) StreamSample.conn c ∧
      c.peerStreamsLeftBidi StreamSample.streamCredit = some 3 ∧
      c.state.quicheConn.limit - c.state.lastestOutgoingStreamId / 4 = 2 ∧
      (StreamSample.quiche.streamSend c.state.quicheConn (c.state.lastestOutgoingStreamId + 4 * 2) [1] false).2 =
        .error .streamLimit :=
  ⟨StreamSample.countsStreams, _, Reachable.of_run [.openStream, .closeStream 5] rfl, rfl, rfl, rfl⟩

end Hala.Quic
