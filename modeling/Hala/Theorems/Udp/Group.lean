import Hala.Theorems.Future.Batching
import Hala.Theorems.Udp.Bind

/-! Each datagram goes to the buffer of the call that returns it.

`Handles` says where the operation of a handle is: in the batcher, on its way back with an output, or about to be pushed
again. `Memory` says where the boxed buffer is: in the slot, with the closure that the poller is in, or freed. A closure only
runs in a poll, and a poll only belongs to a call that has swapped its own buffer into the slot. -/

namespace Hala.Udp
open Machine
open Io (Handle)
variable {Req Resp ε : Type} {op : BatchOp Req Resp} {group : UdpGroup} {s s' : Calls Req ε} {past : List (Event Req Resp ε)}

/-! ### The batcher -/

section Batcher
variable {b b' : Batching.State}

/-- The operation whose output the poll is about to return, or has returned. -/
def delivered (b : Batching.State) : Option Batching.Fut :=
  match b.poller, b.last with
  | .loadWaker fut, _ | .exchangeWaker fut _, _ | .leaveReady fut, _ | .idle, some (.readySome fut) => some fut
  | _, _ => none

/-- The operation has been given to `push`. -/
def Started (b : Batching.State) (f : Batching.Fut) : Prop := b.pushed f ≠ none ∨ ∃ id, b.calls f = .insertPending id

/-- What a step leaves that is none of the poller. -/
structure Beside (b b' : Batching.State) : Prop where
  poller : b'.poller = b.poller
  last : b'.last = b.last
  finished : b'.finished = b.finished
  started : ∀ f, Started b' f ↔ Started b f
  inserting : ∀ f id, b'.calls f = .insertPending id → b.calls f = .insertPending id

theorem Beside.delivered (h : Beside b b') : delivered b' = delivered b := by
  rw [Udp.delivered, Udp.delivered, h.poller, h.last]

/-- A call of the batcher that moves on behind its insertion. -/
theorem beside_setCall {c : Nat} {call : Batching.Call} (hcalls : b'.calls = (b.setCall c call).calls)
    (hbefore : ∀ id, b.calls c ≠ .insertPending id) (hcall : ∀ id, call ≠ .insertPending id) (hpushed : b'.pushed = b.pushed)
    (hpoller : b'.poller = b.poller) (hlast : b'.last = b.last) (hfinished : b'.finished = b.finished) : Beside b b' := by
  have hinserting : ∀ f id, b'.calls f = .insertPending id ↔ b.calls f = .insertPending id := by
    intro f id
    rw [hcalls]
    rcases eq_or_ne f c with rfl | hne
    · rw [Batching.setCall_self]
      exact iff_of_false (hcall id) (hbefore id)
    · rw [Batching.setCall_of_ne _ _ hne]
  refine ⟨hpoller, hlast, hfinished, fun f => ?_, fun f id => (hinserting f id).mp⟩
  rw [Started, Started, hpushed]
  exact or_congr_right (exists_congr fun id => hinserting f id)

theorem beside_wake {c : Nat} {id : Batching.FutureId} (h : Batching.step b (.wake c id) = some b') : Beside b b' := by
  rw [Batching.step, Option.ite_none_right_eq_some] at h
  obtain ⟨⟨hidle, -⟩, h⟩ := h
  cases h
  refine beside_setCall rfl (fun id => ?_) (by simp) rfl rfl rfl rfl
  simp [hidle]

theorem beside_call {c : Nat} {choice : Batching.Choice} (h : Batching.step b (.call c choice) = some b') : Beside b b' := by
  cases Batching.call_cases h with
  | @stored id hc =>
    refine ⟨rfl, rfl, rfl, fun f => ?_, fun f id' hf => ?_⟩
    · rcases eq_or_ne f c with rfl | hne
      · refine iff_of_true (.inl ?_) (.inr ⟨id, hc⟩)
        simp [Batching.State.setCall]
      · simp [Started, Batching.State.setCall, hne]
    · rcases eq_or_ne f c with rfl | hne
      · rw [Batching.setCall_self] at hf
        cases hf
      · rwa [Batching.setCall_of_ne _ _ hne] at hf
  | tookTicket hc | filledSlot hc | noWaker hc | foundWaker hc | lostExchange hc | tookWaker hc | woke hc =>
    refine beside_setCall rfl (fun id => ?_) (by simp) rfl rfl rfl rfl
    simp [hc]

/-- What a step of the poller leaves. -/
theorem next_calls {choice : Batching.Choice} (h : Batching.step b (.next choice) = some b') :
    b'.calls = b.calls ∧ b'.pushed = b.pushed := by
  cases Batching.poll_cases h with
  | _ => exact ⟨rfl, rfl⟩

/-- A step of a poll that is neither in a future nor behind its end. -/
theorem next_cases {choice : Batching.Choice} (harmed : Batching.Armed b) (hlast : b.last ≠ some .readyNone)
    (hfuture : ∀ id fut, b.poller ≠ .pollFuture id fut) (h : Batching.step b (.next choice) = some b') :
    delivered b' = delivered b ∧ b'.finished = b.finished ∧ b'.last ≠ some .readyNone := by
  have harmed' : Batching.Armed b' := harmed.step rfl h
  cases Batching.poll_cases h with
  | foundClosed _ hclosed =>
    rw [harmed.notClosed] at hclosed
    cases hclosed
  | panicked => exact absurd rfl harmed'.notPanicked
  | ready hp => exact absurd hp (hfuture _ _)
  | notReady hp => exact absurd hp (hfuture _ _)
  | began hp | addedWaker hp | loadedHead hp | foundEmpty hp | foundTicket hp | lostClaim hp | claimed hp | emptiedSlot hp
  | stillOpen hp | notThere hp | tookFuture hp | putBack hp | leftPending hp | noWaker hp | foundWaker hp | lostExchange hp
  | tookWaker hp =>
    refine ⟨?_, rfl, hlast⟩
    simp [delivered, hp]
  | leftReady hp | returnedPending hp =>
    refine ⟨?_, rfl, nofun⟩
    simp [delivered, hp]

end Batcher

/-! ### Where the operations are -/

/-- The handles whose operations have still to be pushed. -/
def Task.waiting : Task ε → List Handle
  | .push handles _ | .inPush _ handles _ => handles
  | _ => []

namespace Calls

/-- The operation whose output the poll of the task returns. -/
def delivered (s : Calls Req ε) : Option Batching.Fut :=
  match s.task with
  | .polling _ => Udp.delivered s.batch
  | _ => none

/-- The operation of the handle has no output yet. -/
def Live (s : Calls Req ε) (fd : Handle) : Prop := ∃ f laddr, s.ops f = some (fd, laddr) ∧ f ∉ s.batch.finished

def Delivered (s : Calls Req ε) (fd : Handle) : Prop := ∃ f laddr, s.delivered = some f ∧ s.ops f = some (fd, laddr)

end Calls

/-- Every handle has one operation: in the batcher, with its output, or before its push. -/
structure Handles (group : UdpGroup) (s : Calls Req ε) : Prop where
  cover : ∀ laddr fd, (laddr, fd) ∈ group.fds → s.Live fd ∨ fd ∈ s.task.waiting ∨ s.Delivered fd
  unique : ∀ f f' fd laddr laddr', s.ops f = some (fd, laddr) → s.ops f' = some (fd, laddr') → f ∉ s.batch.finished →
    f' ∉ s.batch.finished → f = f'
  ops_bound : ∀ f fd laddr, s.ops f = some (fd, laddr) → (laddr, fd) ∈ group.fds
  waiting_nodup : s.task.waiting.Nodup
  waiting_bound : ∀ fd ∈ s.task.waiting, ∃ laddr, (laddr, fd) ∈ group.fds
  waiting_not_live : ∀ fd ∈ s.task.waiting, ¬s.Live fd
  delivered_not_live : ∀ fd, s.Delivered fd → ¬s.Live fd

theorem Handles.frame (h : Handles group s) (hops : s'.ops = s.ops) (hfinished : s'.batch.finished = s.batch.finished)
    (hwaiting : s'.task.waiting = s.task.waiting) (hdelivered : s'.delivered = s.delivered) : Handles group s' := by
  have hlive : s'.Live = s.Live := by
    funext fd
    rw [Calls.Live, Calls.Live, hops, hfinished]
  have hback : s'.Delivered = s.Delivered := by
    funext fd
    rw [Calls.Delivered, Calls.Delivered, hdelivered, hops]
  obtain ⟨hcover, hunique, hbound, hnodup, hwbound, hwlive, hdlive⟩ := h
  refine ⟨?_, ?_, ?_, ?_, ?_, ?_, ?_⟩
  · rwa [hlive, hwaiting, hback]
  · rwa [hops, hfinished]
  · rwa [hops]
  · rwa [hwaiting]
  · rwa [hwaiting]
  · rwa [hwaiting, hlive]
  · rwa [hback, hlive]

/-- The operation of a handle is pushed. -/
theorem Handles.push (h : Handles group s) {handle : Handle} {handles : List Handle} {laddr : SocketAddr} {c : Batching.Fut}
    (hwaiting : s.task.waiting = handle :: handles) (hbound : (laddr, handle) ∈ group.fds) (hc : s.ops c = none)
    (hnew : c ∉ s.batch.finished) (hops : s'.ops = Function.update s.ops c (some (handle, laddr)))
    (hfinished : s'.batch.finished = s.batch.finished) (hwaiting' : s'.task.waiting = handles)
    (hdelivered : s.delivered = none) (hdelivered' : s'.delivered = none) : Handles group s' := by
  have hnodup := h.waiting_nodup
  rw [hwaiting, List.nodup_cons] at hnodup
  have hself : s'.ops c = some (handle, laddr) := by rw [hops, Function.update_self]
  have hold : ∀ {f fd laddr'}, s.ops f = some (fd, laddr') → s'.ops f = some (fd, laddr') := by
    intro f fd laddr' hf
    have hne : f ≠ c := by
      rintro rfl
      rw [hc] at hf
      cases hf
    rw [hops, Function.update_of_ne hne, hf]
  have hops_cases : ∀ {f fd laddr'}, s'.ops f = some (fd, laddr') →
      (f = c ∧ fd = handle ∧ laddr' = laddr) ∨ s.ops f = some (fd, laddr') := by
    intro f fd laddr' hf
    rw [hops] at hf
    rcases eq_or_ne f c with rfl | hne
    · rw [Function.update_self] at hf
      cases hf
      exact .inl ⟨rfl, rfl, rfl⟩
    · rw [Function.update_of_ne hne] at hf
      exact .inr hf
  have hlive_cases : ∀ {fd}, s'.Live fd → fd = handle ∨ s.Live fd := by
    rintro fd ⟨f, laddr', hf, hunfinished⟩
    rw [hfinished] at hunfinished
    rcases hops_cases hf with ⟨-, rfl, -⟩ | hf
    · exact .inl rfl
    · exact .inr ⟨f, laddr', hf, hunfinished⟩
  have hnone : ∀ fd, ¬s'.Delivered fd := by
    rintro fd ⟨f, laddr', hf, -⟩
    rw [hdelivered'] at hf
    cases hf
  have hnotLive : ¬s.Live handle := h.waiting_not_live handle (hwaiting ▸ List.mem_cons_self)
  refine ⟨fun laddr' fd hmem => ?_, fun f f' fd a a' hf hf' hu hu' => ?_, fun f fd laddr' hf => ?_, ?_, fun fd hfd => ?_,
    fun fd hfd hlive => ?_, fun fd hback => absurd hback (hnone fd)⟩
  · rcases h.cover laddr' fd hmem with ⟨f, a, hf, hunfinished⟩ | hfd | ⟨f, -, hf, -⟩
    · exact .inl ⟨f, a, hold hf, hfinished ▸ hunfinished⟩
    · rw [hwaiting] at hfd
      rcases List.mem_cons.mp hfd with rfl | hfd
      · exact .inl ⟨c, laddr, hself, hfinished ▸ hnew⟩
      · exact .inr (.inl (hwaiting' ▸ hfd))
    · rw [hdelivered] at hf
      cases hf
  · rw [hfinished] at hu hu'
    rcases hops_cases hf with ⟨rfl, rfl, rfl⟩ | hf
    · rcases hops_cases hf' with ⟨rfl, -, -⟩ | hf'
      · rfl
      · exact absurd ⟨f', a', hf', hu'⟩ hnotLive
    · rcases hops_cases hf' with ⟨rfl, rfl, rfl⟩ | hf'
      · exact absurd ⟨f, a, hf, hu⟩ hnotLive
      · exact h.unique f f' fd a a' hf hf' hu hu'
  · rcases hops_cases hf with ⟨-, rfl, rfl⟩ | hf
    · exact hbound
    · exact h.ops_bound f fd laddr' hf
  · rw [hwaiting']
    exact hnodup.2
  · rw [hwaiting'] at hfd
    exact h.waiting_bound fd (hwaiting ▸ List.mem_cons_of_mem _ hfd)
  · rw [hwaiting'] at hfd
    rcases hlive_cases hlive with rfl | hlive
    · exact hnodup.1 hfd
    · exact h.waiting_not_live fd (hwaiting ▸ List.mem_cons_of_mem _ hfd) hlive

/-- The operation of a handle has an output. -/
theorem Handles.finish (h : Handles group s) {fut : Batching.Fut} {handle : Handle} {laddr : SocketAddr}
    (hfut : s.ops fut = some (handle, laddr)) (hlive : fut ∉ s.batch.finished) (hops : s'.ops = s.ops)
    (hfinished : s'.batch.finished = fut :: s.batch.finished) (hwaiting : s.task.waiting = [])
    (hwaiting' : s'.task.waiting = []) (hdelivered : s.delivered = none) (hdelivered' : s'.delivered = some fut) :
    Handles group s' := by
  have hmem : ∀ {f}, f ∉ s'.batch.finished ↔ f ≠ fut ∧ f ∉ s.batch.finished := by
    intro f
    rw [hfinished, List.mem_cons, not_or]
  have hlive_of : ∀ {fd}, s'.Live fd → s.Live fd := by
    rintro fd ⟨f, a, hf, hu⟩
    exact ⟨f, a, hops ▸ hf, (hmem.mp hu).2⟩
  refine ⟨fun laddr' fd hbound => ?_, fun f f' fd a a' hf hf' hu hu' => ?_, ?_, ?_, ?_, ?_, ?_⟩
  · rcases h.cover laddr' fd hbound with ⟨f, a, hf, hu⟩ | hfd | ⟨f, -, hf, -⟩
    · rcases eq_or_ne f fut with rfl | hne
      · exact .inr (.inr ⟨f, a, hdelivered', hops ▸ hf⟩)
      · exact .inl ⟨f, a, hops ▸ hf, hmem.mpr ⟨hne, hu⟩⟩
    · rw [hwaiting] at hfd
      cases hfd
    · rw [hdelivered] at hf
      cases hf
  · rw [hops] at hf hf'
    exact h.unique f f' fd a a' hf hf' (hmem.mp hu).2 (hmem.mp hu').2
  · rw [hops]
    exact h.ops_bound
  · rw [hwaiting']
    exact .nil
  · rw [hwaiting']
    nofun
  · rw [hwaiting']
    nofun
  · rintro fd ⟨f, a, hf, ha⟩ ⟨f', a', hf', hu'⟩
    rw [hdelivered'] at hf
    cases hf
    rw [hops] at ha hf'
    obtain ⟨hne, hu'⟩ := hmem.mp hu'
    exact hne (h.unique f' fut fd a' a hf' ha hu' hlive)

/-- The task has the output of an operation, whose handle it pushes again. -/
theorem Handles.await (h : Handles group s) {fut : Batching.Fut} {handle : Handle} {laddr : SocketAddr}
    (hfut : s.ops fut = some (handle, laddr)) (hops : s'.ops = s.ops) (hfinished : s'.batch.finished = s.batch.finished)
    (hwaiting : s.task.waiting = []) (hwaiting' : s'.task.waiting = [handle]) (hdelivered : s.delivered = some fut)
    (hdelivered' : s'.delivered = none) : Handles group s' := by
  have hlive : s'.Live = s.Live := by
    funext fd
    rw [Calls.Live, Calls.Live, hops, hfinished]
  refine ⟨fun laddr' fd hbound => ?_, ?_, ?_, ?_, ?_, ?_, ?_⟩
  · rcases h.cover laddr' fd hbound with hl | hfd | ⟨f, a, hf, ha⟩
    · exact .inl (hlive ▸ hl)
    · rw [hwaiting] at hfd
      cases hfd
    · rw [hdelivered] at hf
      cases hf
      rw [hfut] at ha
      cases ha
      exact .inr (.inl (hwaiting' ▸ List.mem_singleton_self _))
  · rw [hops, hfinished]
    exact h.unique
  · rw [hops]
    exact h.ops_bound
  · rw [hwaiting']
    exact List.nodup_cons.mpr ⟨List.not_mem_nil, .nil⟩
  · rw [hwaiting']
    intro fd hfd
    rw [List.mem_singleton.mp hfd]
    exact ⟨laddr, h.ops_bound fut handle laddr hfut⟩
  · rw [hwaiting', hlive]
    intro fd hfd
    rw [List.mem_singleton.mp hfd]
    exact h.delivered_not_live handle ⟨fut, laddr, hdelivered, hfut⟩
  · rintro fd ⟨f, -, hf, -⟩
    rw [hdelivered'] at hf
    cases hf

end Hala.Udp
