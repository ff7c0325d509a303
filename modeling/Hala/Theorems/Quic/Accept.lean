import Hala.Quic.Sample
import Hala.Theorems.Quic.Tables

/-! Each stream of the peer is accepted once.

The ids that have ever been placed in the incoming queue are those that `accept` has returned and those that still wait.
An id is registered when it is placed, and placed only when it is not registered, however often `quiche` reports it; the
counter of `open_stream` keeps its parity, so that the test of the parity is the same in every state. -/

namespace Hala.Quic
open Machine
variable {Q : Type} {quiche : Quiche Q} {t t' : RawQuicConnState Unit} {first : StreamId} {past : List IncomingEvent}

theorem placedIds_append (events past : List IncomingEvent) :
    placedIds (events.reverse ++ past) = placedIds past ++ events.filterMap IncomingEvent.placed? := by
  rw [placedIds, List.reverse_append, List.reverse_reverse, List.filterMap_append, placedIds]

theorem acceptedIds_append (events past : List IncomingEvent) :
    acceptedIds (events.reverse ++ past) = acceptedIds past ++ events.filterMap IncomingEvent.accepted? := by
  rw [acceptedIds, List.reverse_append, List.reverse_reverse, List.filterMap_append, acceptedIds]

theorem mem_placedIds {id : StreamId} : id ∈ placedIds past ↔ .placed id ∈ past := by
  rw [placedIds, List.mem_filterMap]
  constructor
  · rintro ⟨e, he, hid⟩
    cases e <;> cases hid
    exact List.mem_reverse.mp he
  · intro h
    exact ⟨_, List.mem_reverse.mpr h, rfl⟩

theorem mem_acceptedIds {id : StreamId} : id ∈ acceptedIds past ↔ .accepted id ∈ past := by
  rw [acceptedIds, List.mem_filterMap]
  constructor
  · rintro ⟨e, he, hid⟩
    cases e <;> cases hid
    exact List.mem_reverse.mp he
  · intro h
    exact ⟨_, List.mem_reverse.mpr h, rfl⟩

/-- The tables of a connection that began with `first` as its first outgoing stream, after a history. -/
structure AcceptsOnce (first : StreamId) (t : RawQuicConnState Unit) (past : List IncomingEvent) : Prop where
  queue : placedIds past = acceptedIds past ++ t.incoming
  nodup : (placedIds past).Nodup
  registered : ∀ id, id ∈ t.registerIncomingStreamIds ↔ id ∈ placedIds past
  peer : ∀ id ∈ placedIds past, id % 2 ≠ first % 2
  lastest : t.lastestOutgoingStreamId % 2 = first % 2
  opened : ∀ id, .opened id ∈ past → id % 2 = first % 2
  reported : ∀ id, .reported id ∈ past → id % 2 ≠ first % 2 → id ∈ placedIds past

theorem AcceptsOnce.congr (h : AcceptsOnce first t past) (hincoming : t'.incoming = t.incoming)
    (hregistered : t'.registerIncomingStreamIds = t.registerIncomingStreamIds)
    (hlastest : t'.lastestOutgoingStreamId % 2 = t.lastestOutgoingStreamId % 2) : AcceptsOnce first t' past where
  queue := hincoming ▸ h.queue
  nodup := h.nodup
  registered := hregistered ▸ h.registered
  peer := h.peer
  lastest := hlastest.trans h.lastest
  opened := h.opened
  reported := h.reported

/-- The queue takes an id that it has not had before. -/
theorem AcceptsOnce.place {id : StreamId} {seen : List IncomingEvent} (h : AcceptsOnce first t past)
    (hseen : ∀ e ∈ seen, e = .reported id) (hfresh : id ∉ placedIds past) (hpeer : id % 2 ≠ first % 2) :
    AcceptsOnce first
      { t with registerIncomingStreamIds := insert id t.registerIncomingStreamIds, incoming := t.incoming ++ [id] }
      ((seen ++ [IncomingEvent.placed id]).reverse ++ past) := by
  have hnone : seen.filterMap IncomingEvent.placed? = [] ∧ seen.filterMap IncomingEvent.accepted? = [] := by
    constructor <;> rw [List.filterMap_eq_nil_iff] <;> intro e he <;> rw [hseen e he] <;> rfl
  have hplaced : placedIds ((seen ++ [IncomingEvent.placed id]).reverse ++ past) = placedIds past ++ [id] := by
    rw [placedIds_append, List.filterMap_append, hnone.1]
    rfl
  have haccepted : acceptedIds ((seen ++ [IncomingEvent.placed id]).reverse ++ past) = acceptedIds past := by
    rw [acceptedIds_append, List.filterMap_append, hnone.2]
    exact List.append_nil _
  have hevents : ∀ e ∈ (seen ++ [IncomingEvent.placed id]).reverse ++ past, e = .reported id ∨ e = .placed id ∨ e ∈ past := by
    intro e he
    rcases List.mem_append.mp he with he | he
    · rcases List.mem_append.mp (List.mem_reverse.mp he) with he | he
      · exact Or.inl (hseen e he)
      · exact Or.inr (Or.inl (List.mem_singleton.mp he))
    · exact Or.inr (Or.inr he)
  refine {
    queue := by rw [hplaced, haccepted, h.queue, List.append_assoc]
    nodup := ?_
    registered := fun id' => ?_
    peer := fun id' hid' => ?_
    lastest := h.lastest
    opened := fun id' hid' => ?_
    reported := fun id' hid' hpeer' => ?_ }
  · rw [hplaced]
    refine List.nodup_append.mpr ⟨h.nodup, List.nodup_singleton id, fun x hx y hy hxy => ?_⟩
    rw [hxy, List.mem_singleton.mp hy] at hx
    exact hfresh hx
  · rw [hplaced, List.mem_append, List.mem_singleton, ← h.registered id', Finset.mem_insert]
    exact or_comm
  · rw [hplaced] at hid'
    rcases List.mem_append.mp hid' with hid' | hid'
    · exact h.peer id' hid'
    · rw [List.mem_singleton.mp hid']
      exact hpeer
  · rcases hevents _ hid' with heq | heq | hid'
    · cases heq
    · cases heq
    · exact h.opened id' hid'
  · rw [hplaced]
    rcases hevents _ hid' with heq | heq | hid'
    · cases heq
      exact List.mem_append_right _ (List.mem_singleton_self id)
    · cases heq
    · exact List.mem_append_left _ (h.reported id' hid' hpeer')

/-- A stream of the peer is reported again, or one of our own. -/
theorem AcceptsOnce.see {id : StreamId} (h : AcceptsOnce first t past) (hold : id % 2 ≠ first % 2 → id ∈ placedIds past) :
    AcceptsOnce first t ([.reported id].reverse ++ past) := by
  have hplaced : placedIds ([.reported id].reverse ++ past) = placedIds past := (placedIds_append _ _).trans (List.append_nil _)
  have haccepted : acceptedIds ([.reported id].reverse ++ past) = acceptedIds past :=
    (acceptedIds_append _ _).trans (List.append_nil _)
  refine {
    queue := by rw [hplaced, haccepted]; exact h.queue
    nodup := hplaced ▸ h.nodup
    registered := hplaced ▸ h.registered
    peer := hplaced ▸ h.peer
    lastest := h.lastest
    opened := fun id' hid' => h.opened id' (by simpa using hid')
    reported := fun id' hid' hpeer => ?_ }
  rw [hplaced]
  rcases List.mem_cons.mp hid' with heq | hid'
  · cases heq
    exact hold hpeer
  · exact h.reported id' hid' hpeer

/-- What `handle_stream_events` adds to the history. -/
def arrivalEvents (t : RawQuicConnState Unit) (reported : Option StreamId) : List IncomingEvent :=
  reported.toList.map .reported ++ (t.arrivals reported).map .placed

/-- A stream that is reported arrives once. -/
theorem AcceptsOnce.arrive (h : AcceptsOnce first t past) (reported : Option StreamId) :
    AcceptsOnce first (t.arrive reported) ((arrivalEvents t reported).reverse ++ past) := by
  cases reported with
  | none =>
    rw [arrive_none]
    exact h
  | some id =>
    by_cases hnew : t.lastestOutgoingStreamId % 2 ≠ id % 2 ∧ id ∉ t.registerIncomingStreamIds
    · have harrivals : t.arrivals (some id) = [id] := if_pos hnew
      have hfresh : id ∉ placedIds past := fun hid => hnew.2 ((h.registered id).mpr hid)
      have hpeer : id % 2 ≠ first % 2 := fun hid => hnew.1 (h.lastest.trans hid.symm)
      rw [arrivalEvents, RawQuicConnState.arrive, harrivals]
      exact h.place (fun e he => List.mem_singleton.mp he) hfresh hpeer
    · have harrivals : t.arrivals (some id) = [] := if_neg hnew
      rw [arrivalEvents, RawQuicConnState.arrive, harrivals, List.append_nil]
      refine h.see fun hpeer => (h.registered id).mp ?_
      by_contra hnot
      exact hnew ⟨fun hparity => hpeer (hparity.symm.trans h.lastest), hnot⟩

theorem AcceptsOnce.accepted {id : StreamId} {incoming : List StreamId} (h : AcceptsOnce first t past)
    (hincoming : t.incoming = id :: incoming) : AcceptsOnce first { t with incoming } ([.accepted id].reverse ++ past) := by
  have hplaced : placedIds ([.accepted id].reverse ++ past) = placedIds past := (placedIds_append _ _).trans (List.append_nil _)
  have haccepted : acceptedIds ([.accepted id].reverse ++ past) = acceptedIds past ++ [id] := acceptedIds_append _ _
  exact {
    queue := by rw [hplaced, haccepted, h.queue, hincoming, List.append_assoc]; rfl
    nodup := hplaced ▸ h.nodup
    registered := hplaced ▸ h.registered
    peer := hplaced ▸ h.peer
    lastest := h.lastest
    opened := fun id' hid' => h.opened id' (by simpa using hid')
    reported := fun id' hid' => hplaced ▸ h.reported id' (by simpa using hid') }

/-- The counter of `open_stream` keeps its parity. -/
theorem AcceptsOnce.opened_lastest {outgoing : Finset StreamId} (h : AcceptsOnce first t past) :
    AcceptsOnce first
      { t with lastestOutgoingStreamId := t.lastestOutgoingStreamId + 4, registerOutgoingStreamIds := outgoing }
      ([.opened t.lastestOutgoingStreamId].reverse ++ past) := by
  have hplaced : placedIds ([.opened t.lastestOutgoingStreamId].reverse ++ past) = placedIds past :=
    (placedIds_append _ _).trans (List.append_nil _)
  have haccepted : acceptedIds ([.opened t.lastestOutgoingStreamId].reverse ++ past) = acceptedIds past :=
    (acceptedIds_append _ _).trans (List.append_nil _)
  refine {
    queue := by rw [hplaced, haccepted]; exact h.queue
    nodup := hplaced ▸ h.nodup
    registered := hplaced ▸ h.registered
    peer := hplaced ▸ h.peer
    lastest := (Nat.add_mul_mod_self_left t.lastestOutgoingStreamId 2 2).trans h.lastest
    opened := fun id hid => ?_
    reported := fun id hid => hplaced ▸ h.reported id (by simpa using hid) }
  rcases List.mem_cons.mp hid with heq | hid
  · cases heq
    exact h.lastest
  · exact h.opened id hid

/-- Every pass keeps the account. -/
theorem AcceptsOnce.pass {reported enqueued : Option StreamId} {op : Op} {call : Call} (h : AcceptsOnce first t past)
    (hpass : PassTables t reported enqueued op call t') :
    AcceptsOnce first t' ((arrivalEvents t reported ++ op.handedOut call).reverse ++ past) := by
  cases hpass with
  | events hnone =>
    rw [hnone, List.append_nil]
    exact h.arrive reported
  | @sent _ id buf fin =>
    have hnone : (Op.loop (.streamSend id buf fin)).handedOut call = [] := rfl
    rw [hnone, List.append_nil]
    exact (h.arrive reported).congr rfl rfl rfl
  | @received _ buf info =>
    have hnone : (Op.write buf info).handedOut call = [] := rfl
    rw [hnone, List.append_nil]
    exact (h.arrive reported).congr rfl rfl rfl
  | accepted hincoming => exact h.accepted hincoming
  | opened => exact h.opened_lastest
  | unregistered => exact h.congr rfl rfl rfl
  | closed => exact h.congr rfl rfl rfl

theorem AcceptsOnce.dropped (h : AcceptsOnce first t past) (hdropped : DroppedTables t t') : AcceptsOnce first t' past := by
  rw [hdropped.tables]
  exact h.congr rfl rfl rfl

namespace ConnCalls

theorem acceptsOnce_step {s s' : ConnCalls Q} {a : Nat × ConnAction} (h : AcceptsOnce first s.conn.state.tables past)
    (hs : s.step quiche a = some s') :
    AcceptsOnce first s'.conn.state.tables ((s.incomingEvents quiche a).reverse ++ past) := by
  rcases step_tables hs with ⟨op, call, hpassed, hpass⟩ | ⟨hnone, hdropped⟩
  · rw [incomingEvents, hpassed]
    exact h.pass hpass
  · rw [incomingEvents, hnone]
    exact h.dropped hdropped

/-- The loop of the constructor. -/
theorem acceptsOnce_foldl {this : RawQuicConnState Q} {ids : List StreamId} (h : AcceptsOnce first this.tables past)
    (hnodup : ids.Nodup) (hfresh : ∀ id ∈ ids, id ∉ placedIds past) (hpeer : ∀ id ∈ ids, id % 2 ≠ first % 2) :
    AcceptsOnce first
      (ids.foldl (fun this id =>
        { this with
          registerIncomingStreamIds :=
            if id % 2 ≠ first % 2 then insert id this.registerIncomingStreamIds else this.registerIncomingStreamIds
          incoming := this.incoming ++ [id] }) this).tables ((ids.map .placed).reverse ++ past) := by
  induction ids generalizing this past with
  | nil => exact h
  | cons id ids ih =>
    obtain ⟨hnot, hnodup⟩ := List.nodup_cons.mp hnodup
    have hnone : ∀ e ∈ ([] : List IncomingEvent), e = .reported id := fun e he => by cases he
    have hplace := h.place hnone (hfresh id List.mem_cons_self) (hpeer id List.mem_cons_self)
    have hnext : ∀ id' ∈ ids, id' ∉ placedIds ([.placed id].reverse ++ past) := by
      intro id' hid' hmem
      rw [placedIds_append] at hmem
      rcases List.mem_append.mp hmem with hmem | hmem
      · exact hfresh id' (List.mem_cons_of_mem _ hid') hmem
      · cases List.mem_singleton.mp hmem
        exact hnot hid'
    rw [List.foldl_cons, List.map_cons, List.reverse_cons, List.append_assoc]
    refine ih ?_ hnodup hnext fun id' hid' => hpeer id' (List.mem_cons_of_mem _ hid')
    rw [if_pos (hpeer id List.mem_cons_self)]
    exact hplace

/-- The constructor places the streams that `quiche` reports as readable. -/
theorem acceptsOnce_new (now pingTimeout : Nanos) (q : Q) (first : StreamId) (hnodup : (quiche.readable q).Nodup)
    (hpeer : ∀ id ∈ quiche.readable q, id % 2 ≠ first % 2) :
    AcceptsOnce first (QuicConnState.new quiche now q pingTimeout first).state.tables
      ((quiche.readable q).map .placed).reverse := by
  rw [← List.append_nil (List.reverse _)]
  refine acceptsOnce_foldl ?_ hnodup (fun _ _ hmem => by cases hmem) hpeer
  exact {
    queue := rfl
    nodup := List.nodup_nil
    registered := fun id => by simp [RawQuicConnState.tables, placedIds]
    peer := fun id hid => by cases hid
    lastest := rfl
    opened := fun id hid => by cases hid
    reported := fun id hid => by cases hid }

theorem acceptsOnce_of_reachable (now pingTimeout : Nanos) (q : Q) (first : StreamId) (hnodup : (quiche.readable q).Nodup)
    (hpeer : ∀ id ∈ quiche.readable q, id % 2 ≠ first % 2) {s : ConnCalls Q × List IncomingEvent}
    (h : Reachable (traced (step quiche) (incomingEvents quiche))
      ({ conn := .new quiche now q pingTimeout first }, ((quiche.readable q).map .placed).reverse) s) :
    AcceptsOnce first s.1.conn.state.tables s.2 := by
  induction h with
  | refl => exact acceptsOnce_new now pingTimeout q first hnodup hpeer
  | step _ _ hs ih =>
    obtain ⟨s₁, hs₁, rfl⟩ := Option.map_eq_some_iff.mp hs
    exact acceptsOnce_step ih hs₁

/-- In every run: the ids ever placed in the incoming queue are those that `accept` has returned and those still in it,
    they are pairwise distinct, have the parity of the peer and not that of an id returned by `open_stream`, and they
    include every id of that parity that `handle_stream_events` has obtained. No id is accepted twice, and none that was
    opened here. -/
theorem peer_streams_accepted_once (quiche : Quiche Q) (now pingTimeout : Nanos) (q : Q) (first : StreamId)
    (hnodup : (quiche.readable q).Nodup) (hpeer : ∀ id ∈ quiche.readable q, id % 2 ≠ first % 2)
    (s : ConnCalls Q) (past : List IncomingEvent)
    (h : Reachable (traced (step quiche) (incomingEvents quiche))
      ({ conn := .new quiche now q pingTimeout first }, ((quiche.readable q).map .placed).reverse) (s, past)) :
    placedIds past = acceptedIds past ++ s.conn.state.incoming ∧ (placedIds past).Nodup ∧
      (∀ id, .placed id ∈ past → id % 2 ≠ first % 2) ∧ (∀ id, .opened id ∈ past → id % 2 = first % 2) ∧
      (∀ id, .reported id ∈ past → id % 2 ≠ first % 2 → .placed id ∈ past) ∧
      (acceptedIds past).Nodup ∧ ∀ id, .accepted id ∈ past → .opened id ∉ past := by
  have hinv := acceptsOnce_of_reachable now pingTimeout q first hnodup hpeer h
  have hsub : ∀ id ∈ acceptedIds past, id ∈ placedIds past := by
    intro id hid
    rw [hinv.queue]
    exact List.mem_append_left _ hid
  refine ⟨hinv.queue, hinv.nodup, fun id hid => hinv.peer id (mem_placedIds.mpr hid), hinv.opened,
    fun id hid hparity => mem_placedIds.mp (hinv.reported id hid hparity), ?_, fun id hid hopened => ?_⟩
  · have hnodup := hinv.nodup
    rw [hinv.queue] at hnodup
    exact (List.nodup_append.mp hnodup).1
  · exact hinv.peer id (hsub id (mem_acceptedIds.mpr hid)) (hinv.opened id hopened)

/-- The peer sends on stream 4, the server opens a stream, reads the first byte and accepts the stream; the peer sends on
    it again. -/
def acceptRun : List (Nat × ConnAction) :=
  [(0, .call 0 (.write (StreamSample.packet [0x0a, 4, 1, 7]) (Sample.loopback 5000))), (0, .task 0 1 []),
    (0, .call 1 .openStream), (0, .task 1 0 []), (0, .call 2 (.loop (.streamRecv 4 16))), (0, .task 2 0 []),
    (0, .call 3 (.loop .accept)), (0, .task 3 0 []),
    (0, .call 4 (.write (StreamSample.packet [0x0a, 4, 1, 8]) (Sample.loopback 5000))), (0, .task 4 1 [])]

theorem peer_streams_accepted_once_acceptRun :
    ∃ s, run (traced (step StreamSample.quiche) (incomingEvents StreamSample.quiche)) ({ conn := StreamSample.conn }, [])
        acceptRun = some (s, [.reported 4, .accepted 4, .opened 5, .placed 4, .reported 4]) ∧
      (acceptedIds [.reported 4, .accepted 4, .opened 5, .placed 4, .reported 4]).Nodup := by
  refine ⟨_, rfl, ?_⟩
  have hreachable : Reachable (traced (step StreamSample.quiche) (incomingEvents StreamSample.quiche))
      ({ conn := StreamSample.conn }, []) (_, [.reported 4, .accepted 4, .opened 5, .placed 4, .reported 4]) :=
    .of_run acceptRun rfl
  obtain ⟨-, -, -, -, -, hnodup, -⟩ := peer_streams_accepted_once StreamSample.quiche 0 1000000000
    ({ limit := 4 } : StreamSample) 5 List.nodup_nil (fun id hid => by cases hid) _ _ hreachable
  exact hnodup

end ConnCalls

end Hala.Quic
