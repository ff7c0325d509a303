import Hala.Quic.Sample
import Hala.Theorems.Quic.Tables

/-! When a stream is closed once.

`close_stream` does not look whether its stream is in the dropping queue, is half closed or has been so: `poll_close` and
the drop of the last clone both put a stream in the queue. A stream that is put there once goes through the queue and
`half_closed_streams` and does not come back. -/

namespace Hala.Quic
open Machine
variable {Q : Type} {quiche : Quiche Q} {t t' : RawQuicConnState Unit} {past : List CloseEvent}

/-- A stream that was put in the dropping queue is there, is half closed or has left, and only one of these. -/
structure ClosedOnce (t : RawQuicConnState Unit) (past : List CloseEvent) : Prop where
  nodup : t.droppingStreamQueue.Nodup
  once : ∀ id ∈ t.droppingStreamQueue, id ∉ t.halfClosedStreams
  queue : ∀ id ∈ t.droppingStreamQueue, .enqueued id ∈ past
  half : ∀ id ∈ t.halfClosedStreams, .enqueued id ∈ past
  left : ∀ ids id, .left ids ∈ past → id ∈ ids →
    .enqueued id ∈ past ∧ id ∉ t.droppingStreamQueue ∧ id ∉ t.halfClosedStreams

/-- Streams go from the queue to the half closed ones, and from there away. -/
theorem ClosedOnce.move (h : ClosedOnce t past) (hqueue : t'.droppingStreamQueue.Sublist t.droppingStreamQueue)
    (hhalf : ∀ id ∈ t'.halfClosedStreams, id ∈ t.halfClosedStreams ∨ id ∈ t.droppingStreamQueue)
    (honce : ∀ id ∈ t'.halfClosedStreams, id ∈ t'.droppingStreamQueue → id ∈ t.halfClosedStreams) :
    ClosedOnce t' (.left (t.halfClosedStreams \ t'.halfClosedStreams) :: past) := by
  have henqueued : ∀ id ∈ t'.halfClosedStreams, .enqueued id ∈ past := by
    intro id hid
    rcases hhalf id hid with hid | hid
    · exact h.half id hid
    · exact h.queue id hid
  refine {
    nodup := h.nodup.sublist hqueue
    once := fun id hid hclosed => h.once id (hqueue.subset hid) (honce id hclosed hid)
    queue := fun id hid => List.mem_cons_of_mem _ (h.queue id (hqueue.subset hid))
    half := fun id hid => List.mem_cons_of_mem _ (henqueued id hid)
    left := fun ids id hids hid => ?_ }
  rcases List.mem_cons.mp hids with heq | hids
  · cases heq
    obtain ⟨hold, hgone⟩ := Finset.mem_sdiff.mp hid
    exact ⟨List.mem_cons_of_mem _ (h.half id hold), fun hmem => h.once id (hqueue.subset hmem) hold, hgone⟩
  · obtain ⟨hpast, hnotQueue, hnotHalf⟩ := h.left ids id hids hid
    refine ⟨List.mem_cons_of_mem _ hpast, fun hmem => hnotQueue (hqueue.subset hmem), fun hmem => ?_⟩
    rcases hhalf id hmem with hmem | hmem
    · exact hnotHalf hmem
    · exact hnotQueue hmem

/-- The first `close_stream` of a stream that puts it in the queue. -/
theorem ClosedOnce.enqueue {id : StreamId} (h : ClosedOnce t past) (hfirst : .enqueued id ∉ past) :
    ClosedOnce { t with droppingStreamQueue := t.droppingStreamQueue ++ [id] } (.enqueued id :: past) := by
  have hnotQueue : id ∉ t.droppingStreamQueue := fun hmem => hfirst (h.queue id hmem)
  have hnotHalf : id ∉ t.halfClosedStreams := fun hmem => hfirst (h.half id hmem)
  refine {
    nodup := ?_
    once := fun x hx => ?_
    queue := fun x hx => ?_
    half := fun x hx => List.mem_cons_of_mem _ (h.half x hx)
    left := fun ids x hids hx => ?_ }
  · refine List.nodup_append.mpr ⟨h.nodup, List.nodup_singleton id, fun x hx y hy hxy => ?_⟩
    rw [hxy, List.mem_singleton.mp hy] at hx
    exact hnotQueue hx
  · rcases List.mem_append.mp hx with hx | hx
    · exact h.once x hx
    · rw [List.mem_singleton.mp hx]
      exact hnotHalf
  · rcases List.mem_append.mp hx with hx | hx
    · exact List.mem_cons_of_mem _ (h.queue x hx)
    · rw [List.mem_singleton.mp hx]
      exact List.mem_cons_self
  · rcases List.mem_cons.mp hids with heq | hids
    · cases heq
    · obtain ⟨hpast, hqueue, hhalf⟩ := h.left ids x hids hx
      refine ⟨List.mem_cons_of_mem _ hpast, fun hmem => ?_, hhalf⟩
      rcases List.mem_append.mp hmem with hmem | hmem
      · exact hqueue hmem
      · rw [List.mem_singleton.mp hmem] at hpast
        exact hfirst hpast

theorem ClosedOnce.pass {reported enqueued : Option StreamId} {op : Op} {call : Call} (h : ClosedOnce t past)
    (hpass : PassTables t reported enqueued op call t') (hfirst : ∀ id, enqueued = some id → .enqueued id ∉ past) :
    ClosedOnce t'
      ((enqueued.toList.map CloseEvent.enqueued ++ [CloseEvent.left (t.halfClosedStreams \ t'.halfClosedStreams)]).reverse ++ past) := by
  cases hpass with
  | closed => exact (h.enqueue (hfirst _ rfl)).move (.refl _) (fun _ hid => Or.inl hid) fun _ hid _ => hid
  | received hleft => exact h.move (.refl _) (fun _ hid => Or.inl (hleft hid)) fun _ hid _ => hleft hid
  | events | sent | accepted | opened | unregistered =>
    exact h.move (.refl _) (fun _ hid => Or.inl hid) fun _ hid _ => hid

theorem ConnCalls.closedOnce_step {s s' : ConnCalls Q} {a : Nat × ConnAction} (h : ClosedOnce s.conn.state.tables past)
    (hs : s.step quiche a = some s') (hfirst : ∀ id, s.enqueues quiche a = some id → .enqueued id ∉ past) :
    ClosedOnce s'.conn.state.tables ((s.closeEvents quiche a).reverse ++ past) := by
  rw [closeEvents, hs]
  rw [enqueues] at hfirst ⊢
  rcases step_tables hs with ⟨op, call, hpassed, hpass⟩ | ⟨hnone, hdropped⟩
  · rw [hpassed] at hfirst ⊢
    exact h.pass hpass hfirst
  · rw [hnone]
    exact h.move hdropped.queue hdropped.half (hdropped.once h.nodup)

namespace StreamTasks
variable {s s' : StreamTasks Q} {a : StreamAction}

theorem closedOnce_step (h : ClosedOnce s.conn.conn.state.tables past) (hs : s.step quiche a = some s')
    (hfirst : firstClose quiche (s, past) a = true) :
    ClosedOnce s'.conn.conn.state.tables ((s.closeEvents quiche a).reverse ++ past) := by
  unfold step at hs
  unfold firstClose at hfirst
  rw [closeEvents]
  split at hs
  · cases hs
  · next heffect =>
    cases hs
    rw [heffect]
    exact h
  · next b heffect =>
    obtain ⟨conn, hstep, rfl⟩ := Option.map_eq_some_iff.mp hs
    rw [heffect] at hfirst ⊢
    refine ConnCalls.closedOnce_step h hstep fun id hid => ?_
    simpa [hid] using hfirst

theorem closedOnce_of_reaches {init s : StreamTasks Q × List CloseEvent} (hinit : ClosedOnce init.1.conn.conn.state.tables init.2)
    (h : Reaches (traced (step quiche) (closeEvents quiche)) (fun s a => firstClose quiche s a = true) init s) :
    ClosedOnce s.1.conn.conn.state.tables s.2 := by
  induction h with
  | refl => exact hinit
  | step _ hok hs ih =>
    obtain ⟨s₁, hs₁, rfl⟩ := Option.map_eq_some_iff.mp hs
    exact closedOnce_step ih hs₁ hok

/-- The constructor closes nothing. -/
theorem closedOnce_new (quiche : Quiche Q) (now pingTimeout : Nanos) (q : Q) (first : StreamId) :
    ClosedOnce (QuicConnState.new quiche now q pingTimeout first).state.tables [] := by
  unfold QuicConnState.new RawQuicConnState.new
  refine List.foldlRecOn (motive := fun this : RawQuicConnState Q => ClosedOnce this.tables []) _ _ ?_ ?_
  · exact {
      nodup := List.nodup_nil
      once := fun id hid => by cases hid
      queue := fun id hid => by cases hid
      half := fun id hid => by cases hid
      left := fun ids id hids => by cases hids }
  · intro this h id _
    exact ⟨h.nodup, h.once, h.queue, h.half, h.left⟩

/-- In every run in which each `close_stream` that puts its stream in the dropping queue is the first one that does: no
    stream is twice in the dropping queue and `half_closed_streams` taken together, and one that has left the half closed
    ones is in neither. -/
theorem streams_closed_once (quiche : Quiche Q) (now pingTimeout : Nanos) (q : Q) (first : StreamId) (s : StreamTasks Q)
    (past : List CloseEvent)
    (h : Reaches (traced (step quiche) (closeEvents quiche)) (fun s a => firstClose quiche s a = true)
      ({ conn := { conn := .new quiche now q pingTimeout first } }, []) (s, past)) :
    s.conn.conn.state.droppingStreamQueue.Nodup ∧
      (∀ id ∈ s.conn.conn.state.droppingStreamQueue, id ∉ s.conn.conn.state.halfClosedStreams) ∧
      ∀ ids id, .left ids ∈ past → id ∈ ids →
        id ∉ s.conn.conn.state.droppingStreamQueue ∧ id ∉ s.conn.conn.state.halfClosedStreams := by
  have hinv : ClosedOnce s.conn.conn.state.tables past :=
    closedOnce_of_reaches (closedOnce_new quiche now pingTimeout q first) h
  exact ⟨hinv.nodup, hinv.once, fun ids id hids hid => (hinv.left ids id hids hid).2⟩

/-- The peer sends on stream 4, and the server accepts it and makes the `QuicStream` of call 1. -/
def acceptFour : List StreamAction :=
  [.conn (0, .call 0 (.write (StreamSample.packet [0x0a, 4, 1, 7]) (Sample.loopback 5000))), .conn (0, .task 0 1 []),
    .conn (0, .call 1 (.loop .accept)), .conn (0, .task 1 0 []), .wrap 1]

/-- The stream is dropped, and `read` ends it. -/
def dropRun : List StreamAction :=
  acceptFour ++ [.drop 1 2, .conn (0, .task 2 0 []), .conn (0, .read 1200), .conn (0, .reader)]

theorem streams_closed_once_dropRun :
    ∃ s past, runIf (traced (step StreamSample.quiche) (closeEvents StreamSample.quiche)) (firstClose StreamSample.quiche)
        ({ conn := { conn := StreamSample.conn } }, []) dropRun = some (s, past) ∧ .enqueued 4 ∈ past ∧
      s.conn.conn.state.halfClosedStreams = {4} ∧ s.conn.conn.state.droppingStreamQueue.Nodup := by
  refine ⟨_, _, rfl, by decide, by decide, ?_⟩
  have hreaches : Reaches (traced (step StreamSample.quiche) (closeEvents StreamSample.quiche))
      (fun s a => firstClose StreamSample.quiche s a = true) ({ conn := { conn := StreamSample.conn } }, []) _ :=
    .of_runIf dropRun (fun _ _ h => h) rfl
  exact (streams_closed_once StreamSample.quiche 0 1000000000 ({ limit := 4 } : StreamSample) 5 _ _ hreaches).1

/-- The stream is closed through `poll_close`, and its last clone is dropped. -/
def closeThenDropRun : List StreamAction :=
  acceptFour ++ [.pollClose 1 2, .conn (0, .task 2 0 []), .drop 1 3, .conn (0, .task 3 0 [])]

theorem stream_closed_twice :
    ∃ s, Reachable (step StreamSample.quiche) { conn := { conn := StreamSample.conn } } s ∧
      s.conn.conn.state.droppingStreamQueue = [4, 4] :=
  ⟨_, Reachable.of_run closeThenDropRun rfl, rfl⟩

end StreamTasks

end Hala.Quic
