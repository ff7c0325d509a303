import Hala.Theorems.Udp.Group

/-! What `Memory` says of the slot and of the boxed buffers, and the run of the calls. -/

namespace Hala.Udp
open Machine
open Io (Handle Mio Os)
open Net (ErrorInfo)
variable {Req Resp ε : Type} {op : BatchOp Req Resp} {names : Names Req Resp} {group : UdpGroup} {s s' : Calls Req ε}
  {past past' : List (Event Req Resp ε)} {choice : TaskChoice Resp ε}

/-- The paths of the operation are those that `names` allows. -/
def BatchOp.Follows (op : BatchOp Req Resp) (names : Names Req Resp) : Prop :=
  ∀ laddr req resp, names laddr req resp (op.path laddr req resp)

theorem BatchOp.Follows.gives (hfollows : op.Follows names) {laddr : SocketAddr} {req : Req} {answer : Answer Resp ε}
    {result : Result ε} (h : op.result laddr req answer = some result) : answer.Gives (names laddr req) result := by
  cases answer with
  | ok size resp =>
    cases h
    exact ⟨rfl, hfollows laddr req resp⟩
  | wouldBlock => cases h
  | error e =>
    cases h
    rfl

/-! ### Where the buffer is -/

namespace Calls

/-- The slot holds no box that has been freed. -/
def Kept (s : Calls Req ε) : Prop := ∀ ptr, s.slot = some ptr → s.boxes ptr ≠ none

/-- The box at the address is the one of the call that has not ended. -/
def Holds (s : Calls Req ε) (past : List (Event Req Resp ε)) (call : Nat) (ptr : Addr) : Prop :=
  ∃ req, s.boxes ptr = some { buf := call, req } ∧ current past = some (call, req)

def Stored (s : Calls Req ε) (past : List (Event Req Resp ε)) (call : Nat) : Prop :=
  ∃ ptr, s.slot = some ptr ∧ s.Holds past call ptr

/-- The output is what the driver has just answered the operation in a poll of the call. -/
def Answered (names : Names Req Resp) (s : Calls Req ε) (past : List (Event Req Resp ε)) (call : Nat) (fut : Batching.Fut)
    (output : Batched ε) : Prop :=
  ∃ laddr boxed answer before, past = .fdCntl call output.handle boxed answer :: before ∧
    s.ops fut = some (output.handle, laddr) ∧ answer.Gives (names laddr boxed.req) output.result

/-- The buffer while a poll of the call runs and has no output. -/
def Running (names : Names Req Resp) (s : Calls Req ε) (past : List (Event Req Resp ε)) (call : Nat) : Prop :=
  match s.op with
  | .load => s.Stored past call
  | .take ptr => s.slot = some ptr ∧ s.Holds past call ptr
  | .fdCntl ptr | .giveBack ptr => s.slot = none ∧ s.Holds past call ptr
  | .ready ptr output => s.slot = none ∧ s.boxes ptr ≠ none ∧
    ∀ id fut, s.batch.poller = .pollFuture id fut → s.Answered names past call fut output

end Calls

/-- Where the buffer is, by what the task does. -/
def Memory (names : Names Req Resp) (group : UdpGroup) (s : Calls Req ε) (past : List (Event Req Resp ε)) : Prop :=
  match s.task with
  | .push _ none | .inPush _ _ none | .idle => s.Kept ∧ current past = none
  | .push _ (some (call, result)) | .inPush _ _ (some (call, result)) =>
    s.Kept ∧ Proper names group past (.returned call result)
  | .wait call | .suspended call => s.Stored past call
  | .polling call =>
    match delivered s.batch with
    | none => s.Running names past call
    | some fut => s.slot = none ∧ ∃ output, s.outputs fut = some output ∧ s.Answered names past call fut output
  | .failed _ => False

structure GroupInv (names : Names Req Resp) (group : UdpGroup) (s : Calls Req ε) (past : List (Event Req Resp ε)) :
    Prop where
  owned : Batching.Owned s.batch
  armed : Batching.Armed s.batch
  notClosed : s.batch.last ≠ some .readyNone
  running : s.batch.poller = .idle ∨ ∃ call, s.task = .polling call
  inOp : s.op = .load ∨ ∃ id fut, s.batch.poller = .pollFuture id fut
  started : ∀ f, s.ops f ≠ none ↔ Started s.batch f
  inserting : ∀ f id, s.batch.calls f = .insertPending id → ∃ handles ended, s.task = .inPush f handles ended
  handles : Handles group s
  memory : Memory names group s past
  proper : Throughout (Proper names group) past

/-- A step that leaves the calls of the batcher and the operations as they are. -/
theorem GroupInv.frame (h : GroupInv names group s past) (ho : Batching.Owned s'.batch) (ha : Batching.Armed s'.batch)
    (hlast : s'.batch.last ≠ some .readyNone) (hcalls : s'.batch.calls = s.batch.calls ∧ s'.batch.pushed = s.batch.pushed)
    (hops : s'.ops = s.ops) (hrunning : s'.batch.poller = .idle ∨ ∃ call, s'.task = .polling call)
    (hinOp : s'.op = .load ∨ ∃ id fut, s'.batch.poller = .pollFuture id fut)
    (hinserting : ∀ f handles ended id, s.task = .inPush f handles ended → s.batch.calls f ≠ .insertPending id)
    (hhandles : Handles group s') (hmemory : Memory names group s' past') (hproper : Throughout (Proper names group) past') :
    GroupInv names group s' past' where
  owned := ho
  armed := ha
  notClosed := hlast
  running := hrunning
  inOp := hinOp
  started := by
    unfold Started
    rw [hops, hcalls.1, hcalls.2]
    exact h.started
  inserting f id hf := by
    rw [hcalls.1] at hf
    obtain ⟨handles, ended, htask⟩ := h.inserting f id hf
    exact absurd hf (hinserting f handles ended id htask)
  handles := hhandles
  memory := hmemory
  proper := hproper

/-- A step that is none of the batcher. -/
theorem GroupInv.move (h : GroupInv names group s past) (hbatch : s'.batch = s.batch) (hops : s'.ops = s.ops)
    (hrunning : s'.batch.poller = .idle ∨ ∃ call, s'.task = .polling call)
    (hinOp : s'.op = .load ∨ ∃ id fut, s'.batch.poller = .pollFuture id fut)
    (hinserting : ∀ f handles ended id, s.task = .inPush f handles ended → s.batch.calls f ≠ .insertPending id)
    (hhandles : Handles group s') (hmemory : Memory names group s' past') (hproper : Throughout (Proper names group) past') :
    GroupInv names group s' past' :=
  h.frame (hbatch ▸ h.owned) (hbatch ▸ h.armed) (hbatch ▸ h.notClosed) ⟨by rw [hbatch], by rw [hbatch]⟩ hops hrunning hinOp
    hinserting hhandles hmemory hproper

/-- A step of the batcher that is none of the poller. -/
theorem GroupInv.beside (h : GroupInv names group s past) {b : Batching.State} (hb : Beside s.batch b)
    (ho : Batching.Owned b) (ha : Batching.Armed b) : GroupInv names group (s.setBatch b) past where
  owned := ho
  armed := ha
  notClosed := hb.last ▸ h.notClosed
  running := hb.poller ▸ h.running
  inOp := hb.poller ▸ h.inOp
  started f := (h.started f).trans (hb.started f).symm
  inserting f id hf := h.inserting f id (hb.inserting f id hf)
  handles := by
    refine h.handles.frame rfl hb.finished rfl ?_
    rw [Calls.delivered, Calls.delivered, Calls.setBatch, hb.delivered]
  memory := by
    have hmemory := h.memory
    unfold Memory Calls.Running at hmemory ⊢
    rw [Calls.setBatch, hb.delivered, hb.poller]
    exact hmemory
  proper := h.proper

/-! ### The task outside of a poll -/

/-- The poller only runs in a poll of the task. -/
theorem GroupInv.poller_idle (h : GroupInv names group s past) (htask : ∀ call, s.task ≠ .polling call) :
    s.batch.poller = .idle := by
  rcases h.running with hidle | ⟨call, hpolling⟩
  · exact hidle
  · exact absurd hpolling (htask call)

/-- Outside of a future no closure has begun. -/
theorem GroupInv.op_load (h : GroupInv names group s past) (hfuture : ∀ id fut, s.batch.poller ≠ .pollFuture id fut) :
    s.op = .load := by
  rcases h.inOp with hload | ⟨id, fut, hp⟩
  · exact hload
  · exact absurd hp (hfuture id fut)

/-- A call puts its own box into the slot; the box that it frees is the one it found there. -/
theorem swap_eq {ptr : Addr} (req : Req) (hkept : s.Kept) (hfresh : s.boxes ptr = none) :
    ∃ boxes, boxes ptr = some { buf := s.called, req } ∧
      s.swap ptr req = { s with slot := some ptr, boxes, task := .wait s.called, called := s.called + 1 } := by
  cases hslot : s.slot with
  | none => exact ⟨_, Function.update_self .., by rw [Calls.swap, hslot]⟩
  | some old =>
    have hold : s.boxes old ≠ none := hkept old hslot
    have hne : ptr ≠ old := by
      rintro rfl
      exact hold hfresh
    refine ⟨Function.update (Function.update s.boxes ptr (some { buf := s.called, req })) old none, ?_, ?_⟩
    · rw [Function.update_of_ne hne, Function.update_self]
    · simp only [Calls.swap, hslot, hold, if_false]

theorem GroupInv.call (h : GroupInv names group s past) {ptr : Addr} {req : Req} (htask : s.task = .idle)
    (hfresh : s.boxes ptr = none) : GroupInv names group (s.swap ptr req) (.begun s.called req :: past) := by
  have hmemory := h.memory
  rw [Memory, htask] at hmemory
  obtain ⟨boxes, hboxes, hswap⟩ := swap_eq req hmemory.1 hfresh
  have hidle : s.batch.poller = .idle := h.poller_idle (by simp [htask])
  rw [hswap]
  refine h.move rfl rfl (.inl hidle) h.inOp (by simp [htask]) ?_ ⟨ptr, rfl, req, hboxes, rfl⟩ ⟨trivial, h.proper⟩
  exact h.handles.frame rfl rfl (by rw [htask]; rfl) (by simp only [Calls.delivered, htask])

theorem GroupInv.drop (h : GroupInv names group s past) {call : Nat} (htask : s.task = .suspended call) :
    GroupInv names group { s with task := .idle } (.dropped call :: past) := by
  have hmemory := h.memory
  rw [Memory, htask] at hmemory
  obtain ⟨ptr, hslot, req, hbox, -⟩ := hmemory
  have hidle : s.batch.poller = .idle := h.poller_idle (by simp [htask])
  have hkept : s.Kept := by
    intro ptr' hslot'
    rw [hslot] at hslot'
    cases hslot'
    simp [hbox]
  refine h.move rfl rfl (.inl hidle) h.inOp (by simp [htask]) ?_ ⟨hkept, rfl⟩ ⟨trivial, h.proper⟩
  exact h.handles.frame rfl rfl (by rw [htask]; rfl) (by simp only [Calls.delivered, htask])

theorem GroupInv.poll (h : GroupInv names group s past) {call : Nat} {waker : Batching.TaskWaker} {b : Batching.State}
    (htask : s.task = .wait call ∨ s.task = .suspended call) (hstep : Batching.step s.batch (.poll waker) = some b) :
    GroupInv names group { s with batch := b, task := .polling call } past := by
  have ha : Batching.Armed b := h.armed.step rfl hstep
  have hstored : s.Stored past call := by
    have hmemory := h.memory
    rcases htask with htask | htask
    all_goals
      rw [Memory, htask] at hmemory
      exact hmemory
  have hidle : s.batch.poller = .idle := h.poller_idle (by rcases htask with htask | htask <;> simp [htask])
  have hload : s.op = .load := h.op_load (by simp [hidle])
  have hwaiting : s.task.waiting = [] := by rcases htask with htask | htask <;> rw [htask] <;> rfl
  have hdelivered : s.delivered = none := by rcases htask with htask | htask <;> simp only [Calls.delivered, htask]
  have ho : Batching.Owned b := h.owned.step hstep
  rw [Batching.step, Option.ite_none_right_eq_some] at hstep
  obtain ⟨-, hstep⟩ := hstep
  split at hstep
  · cases hstep
    refine h.frame ho ha h.notClosed ⟨rfl, rfl⟩ rfl (.inr ⟨call, rfl⟩) (.inl hload) ?_ ?_ ?_ h.proper
    · rcases htask with htask | htask <;> simp [htask]
    · exact h.handles.frame rfl rfl hwaiting.symm hdelivered.symm
    · simp only [Memory, delivered, Calls.Running, hload]
      exact hstored
  · cases hstep
    exact absurd rfl ha.notPanicked

/-! ### The pushes -/

/-- The last push has returned, and a call that was awaited returns with it. -/
theorem GroupInv.pushed (h : GroupInv names group s past) {ended : Option (Nat × Result ε)}
    (htask : s.task = .push [] ended) :
    GroupInv names group { s with task := .idle } ((events s (.task choice)).reverse ++ past) := by
  have hmemory := h.memory
  rw [Memory, htask] at hmemory
  have hidle : s.batch.poller = .idle := h.poller_idle (by simp [htask])
  have hhandles : Handles group { s with task := .idle } :=
    h.handles.frame rfl rfl (by rw [htask]; rfl) (by simp only [Calls.delivered, htask])
  cases ended with
  | none =>
    simp only [events, htask]
    exact h.move rfl rfl (.inl hidle) h.inOp (by simp [htask]) hhandles hmemory h.proper
  | some ended =>
    simp only [events, htask]
    exact h.move rfl rfl (.inl hidle) h.inOp (by simp [htask]) hhandles ⟨hmemory.1, rfl⟩ ⟨hmemory.2, h.proper⟩

theorem GroupInv.push (h : GroupInv names group s past) {handle : Handle} {handles : List Handle} {laddr : SocketAddr}
    {ended : Option (Nat × Result ε)} {c : Nat} {b : Batching.State} (htask : s.task = .push (handle :: handles) ended)
    (hbound : (laddr, handle) ∈ group.fds) (hstep : Batching.step s.batch (.push c) = some b) :
    GroupInv names group
      { s with batch := b, ops := Function.update s.ops c (some (handle, laddr)), task := .inPush c handles ended }
      past := by
  have ho : Batching.Owned b := h.owned.step hstep
  have ha : Batching.Armed b := h.armed.step rfl hstep
  have hidle : s.batch.poller = .idle := h.poller_idle (by simp [htask])
  rw [Batching.step, Option.ite_none_right_eq_some] at hstep
  obtain ⟨hc, hstep⟩ := hstep
  cases hstep
  have hunpushed : s.batch.pushed c = none := h.owned.unpushed c (.inl hc)
  have hnone : s.ops c = none := by
    by_contra hsome
    rcases (h.started c).mp hsome with hpushed | ⟨id, hinserting⟩
    · exact hpushed hunpushed
    · rw [hc] at hinserting
      cases hinserting
  have hnew : c ∉ s.batch.finished := by
    intro hmem
    obtain ⟨id, hpushed⟩ := h.owned.finished_pushed c hmem
    rw [hunpushed] at hpushed
    cases hpushed
  refine ⟨ho, ha, h.notClosed, .inl hidle, h.inOp, fun f => ?_, fun f id hf => ?_, ?_, ?_, h.proper⟩
  · rcases eq_or_ne f c with rfl | hne
    · refine iff_of_true ?_ (.inr ⟨_, Batching.setCall_self ..⟩)
      simp
    · dsimp only
      rw [Function.update_of_ne hne, h.started f, Started, Started, Batching.setCall_of_ne _ _ hne]
      exact Iff.rfl
  · rcases eq_or_ne f c with rfl | hne
    · exact ⟨handles, ended, rfl⟩
    · rw [Batching.setCall_of_ne _ _ hne] at hf
      obtain ⟨handles', ended', htask'⟩ := h.inserting f id hf
      rw [htask] at htask'
      cases htask'
  · exact h.handles.push (by rw [htask]; rfl) hbound hnone hnew rfl rfl rfl (by simp only [Calls.delivered, htask]) rfl
  · have hmemory := h.memory
    rw [Memory, htask] at hmemory
    cases ended with
    | none => exact hmemory
    | some ended => exact hmemory

theorem GroupInv.inPush (h : GroupInv names group s past) {c : Nat} {handles : List Handle} {ended : Option (Nat × Result ε)}
    (htask : s.task = .inPush c handles ended) (hdone : s.batch.calls c = .done) :
    GroupInv names group { s with task := .push handles ended } past := by
  have hidle : s.batch.poller = .idle := h.poller_idle (by simp [htask])
  refine h.move rfl rfl (.inl hidle) h.inOp (fun f handles' ended' id htask' hf => ?_) ?_ ?_ h.proper
  · rw [htask] at htask'
    cases htask'
    rw [hdone] at hf
    cases hf
  · exact h.handles.frame rfl rfl (by rw [htask]; rfl) (by simp only [Calls.delivered, htask])
  · have hmemory := h.memory
    rw [Memory, htask] at hmemory
    cases ended with
    | none => exact hmemory
    | some ended => exact hmemory

/-! ### The polls -/

theorem GroupInv.suspend (h : GroupInv names group s past) {call : Nat} (htask : s.task = .polling call)
    (hidle : s.batch.poller = .idle) (hlast : s.batch.last = some .pending) :
    GroupInv names group { s with task := .suspended call } past := by
  have hload : s.op = .load := h.op_load (by simp [hidle])
  have hmemory := h.memory
  simp only [Memory, htask, delivered, hidle, hlast, Calls.Running, hload] at hmemory
  refine h.move rfl rfl (.inl hidle) h.inOp (by simp [htask]) ?_ hmemory h.proper
  exact h.handles.frame rfl rfl (by rw [htask]; rfl) (by simp only [Calls.delivered, htask, delivered, hidle, hlast])

/-- The poll of `wait()` has returned the output of an operation. -/
theorem GroupInv.await (h : GroupInv names group s past) {next : Io.Token} (hmapped : group.Mapped next) {call : Nat}
    {fut : Batching.Fut} {output : Batched ε} (htask : s.task = .polling call) (hidle : s.batch.poller = .idle)
    (hlast : s.batch.last = some (.readySome fut)) (houtput : s.outputs fut = some output) :
    GroupInv names group { s with task := .push [output.handle] (some (call, output.result)) } past := by
  have hmemory := h.memory
  simp only [Memory, htask, delivered, hidle, hlast] at hmemory
  obtain ⟨hslot, output', houtput', laddr, boxed, answer, before, hpast, hfut, hresult⟩ := hmemory
  rw [houtput] at houtput'
  cases houtput'
  have hbound : (laddr, output.handle) ∈ group.fds := h.handles.ops_bound fut output.handle laddr hfut
  refine h.move rfl rfl (.inl hidle) h.inOp (by simp [htask]) ?_ ⟨?_, ?_⟩ h.proper
  · refine h.handles.await hfut rfl rfl (by rw [htask]; rfl) rfl ?_ rfl
    simp only [Calls.delivered, htask, delivered, hidle, hlast]
  · intro ptr hptr
    rw [hslot] at hptr
    cases hptr
  · exact ⟨output.handle, laddr, boxed, answer, before, hpast, hmapped.laddr laddr output.handle hbound, hresult⟩

/-- The inner future is not ready. -/
theorem next_notReady {b : Batching.State} {id : Batching.FutureId} {fut : Batching.Fut} {c : Batching.Choice}
    (hp : b.poller = .pollFuture id fut) :
    Batching.step b (.next { c with ready := false }) = some { b with poller := .insertPending id fut } := by
  simp [Batching.step, Batching.pollStep, hp]

theorem next_ready {b : Batching.State} {id : Batching.FutureId} {fut : Batching.Fut} {c : Batching.Choice}
    (hp : b.poller = .pollFuture id fut) :
    Batching.step b (.next { c with ready := true }) =
      some { b with finished := fut :: b.finished, poller := .loadWaker fut } := by
  simp [Batching.step, Batching.pollStep, hp]

/-- The closure takes its next step, and finds what it asserts. -/
theorem GroupInv.opStep (h : GroupInv names group s past) (hfollows : op.Follows names) {call : Nat}
    {id : Batching.FutureId} {fut : Batching.Fut} (htask : s.task = .polling call)
    (hp : s.batch.poller = .pollFuture id fut) (hstep : s.opStep op fut choice = some s') :
    GroupInv names group s' ((events s (.task choice)).reverse ++ past) := by
  have hmemory := h.memory
  simp only [Memory, htask, delivered, hp] at hmemory
  have hnotPush : ∀ f handles ended i, s.task = .inPush f handles ended → s.batch.calls f ≠ .insertPending i := by
    simp [htask]
  have hpoll : ∃ id fut, s.batch.poller = .pollFuture id fut := ⟨id, fut, hp⟩
  have hdelivered : s.delivered = none := by simp only [Calls.delivered, htask, delivered, hp]
  cases hop : s.op with
  | load =>
    simp only [Calls.Running, hop] at hmemory
    obtain ⟨ptr, hslot, hholds⟩ := hmemory
    simp only [Calls.opStep, hop, hslot, Option.some.injEq] at hstep
    simp only [events, htask, hp, hop]
    subst hstep
    refine h.move rfl rfl (.inr ⟨call, htask⟩) (.inr hpoll) hnotPush (h.handles.frame rfl rfl rfl rfl) ?_ h.proper
    simp only [Memory, htask, delivered, hp, Calls.Running]
    exact ⟨trivial, hholds⟩
  | take ptr =>
    simp only [Calls.Running, hop] at hmemory
    obtain ⟨hslot, hholds⟩ := hmemory
    simp only [Calls.opStep, hop, hslot, if_true, Option.some.injEq] at hstep
    simp only [events, htask, hp, hop]
    subst hstep
    refine h.move rfl rfl (.inr ⟨call, htask⟩) (.inr hpoll) hnotPush (h.handles.frame rfl rfl rfl rfl) ?_ h.proper
    simp only [Memory, htask, delivered, hp, Calls.Running]
    exact ⟨trivial, hholds⟩
  | fdCntl ptr =>
    simp only [Calls.Running, hop] at hmemory
    obtain ⟨hslot, req, hbox, hcurrent⟩ := hmemory
    cases hfut : s.ops fut with
    | none =>
      simp only [Calls.opStep, hop, hfut] at hstep
      cases hstep
    | some entry =>
      obtain ⟨handle, laddr⟩ := entry
      simp only [Calls.opStep, hop, hfut, hbox] at hstep
      simp only [events, htask, hp, hop, hfut, hbox, List.reverse_singleton, List.singleton_append]
      have hproper : Throughout (Proper names group) (.fdCntl call handle ⟨call, req⟩ choice.answer :: past) :=
        ⟨⟨rfl, hcurrent⟩, h.proper⟩
      cases hresult : op.result laddr req choice.answer with
      | none =>
        rw [hresult] at hstep
        cases hstep
        refine h.move rfl rfl (.inr ⟨call, htask⟩) (.inr hpoll) hnotPush (h.handles.frame rfl rfl rfl rfl) ?_ hproper
        simp only [Memory, htask, delivered, hp, Calls.Running]
        exact ⟨hslot, req, hbox, hcurrent⟩
      | some result =>
        rw [hresult] at hstep
        cases hstep
        refine h.move rfl rfl (.inr ⟨call, htask⟩) (.inr hpoll) hnotPush (h.handles.frame rfl rfl rfl rfl) ?_ hproper
        simp only [Memory, htask, delivered, hp, Calls.Running]
        refine ⟨hslot, by simp [hbox], fun id' fut' hp' => ?_⟩
        cases hp'
        exact ⟨laddr, _, choice.answer, past, rfl, hfut, hfollows.gives hresult⟩
  | giveBack ptr =>
    simp only [Calls.Running, hop] at hmemory
    obtain ⟨hslot, hholds⟩ := hmemory
    have hnext := next_notReady (c := choice.batch) hp
    have ho := h.owned.step hnext
    have ha := h.armed.step rfl hnext
    simp only [Calls.opStep, hop, hslot, if_true, hnext, Option.map_some, Option.some.injEq] at hstep
    simp only [events, htask, hp, hop]
    subst hstep
    refine h.frame ho ha h.notClosed ⟨rfl, rfl⟩ rfl (.inr ⟨call, htask⟩) (.inl rfl) hnotPush ?_ ?_ h.proper
    · exact h.handles.frame rfl rfl rfl (by rw [hdelivered]; simp only [Calls.delivered, htask, delivered])
    · simp only [Memory, htask, delivered, Calls.Running]
      exact ⟨ptr, rfl, hholds⟩
  | ready ptr output =>
    simp only [Calls.Running, hop] at hmemory
    obtain ⟨hslot, hbox, hanswered⟩ := hmemory
    obtain ⟨laddr, boxed, answer, before, hpast, hfut, hresult⟩ := hanswered id fut hp
    have hnext := next_ready (c := choice.batch) hp
    have ho := h.owned.step hnext
    have ha := h.armed.step rfl hnext
    have hunfinished : fut ∉ s.batch.finished := (h.owned.held id fut (by rw [hp]; rfl)).2.1
    obtain ⟨boxed', hbox⟩ := Option.ne_none_iff_exists'.mp hbox
    simp only [Calls.opStep, hop, hbox, hnext, Option.map_some, Option.some.injEq] at hstep
    simp only [events, htask, hp, hop]
    subst hstep
    refine h.frame ho ha h.notClosed ⟨rfl, rfl⟩ rfl (.inr ⟨call, htask⟩) (.inl rfl) hnotPush ?_ ?_ h.proper
    · refine h.handles.finish hfut hunfinished rfl rfl (by rw [htask]; rfl) (by dsimp only; rw [htask]; rfl) hdelivered ?_
      simp only [Calls.delivered, htask, delivered]
    · simp only [Memory, htask, delivered]
      exact ⟨hslot, output, Function.update_self .., laddr, boxed, answer, before, hpast, hfut, hresult⟩

/-- A step of the poll that is in no closure. -/
theorem GroupInv.next (h : GroupInv names group s past) {call : Nat} {c : Batching.Choice} {b : Batching.State}
    (htask : s.task = .polling call) (hfuture : ∀ id fut, s.batch.poller ≠ .pollFuture id fut)
    (hstep : Batching.step s.batch (.next c) = some b) : GroupInv names group (s.setBatch b) past := by
  obtain ⟨hdelivered, hfinished, hlast⟩ := next_cases h.armed h.notClosed hfuture hstep
  have hload : s.op = .load := h.op_load hfuture
  refine h.frame (h.owned.step hstep) (h.armed.step rfl hstep) hlast (next_calls hstep) rfl (.inr ⟨call, htask⟩) (.inl hload)
    (by simp [htask]) ?_ ?_ h.proper
  · exact h.handles.frame rfl hfinished rfl (by simp only [Calls.delivered, Calls.setBatch, hdelivered])
  · have hmemory := h.memory
    simp only [Memory, htask, Calls.Running, hload] at hmemory
    simp only [Memory, htask, Calls.setBatch, hdelivered, Calls.Running, hload]
    exact hmemory

/-! ### Every step -/

theorem GroupInv.pollingStep (h : GroupInv names group s past) {next : Io.Token} (hmapped : group.Mapped next)
    (hfollows : op.Follows names) {call : Nat} (htask : s.task = .polling call)
    (hstep : s.pollingStep op call choice = some s') :
    GroupInv names group s' ((events s (.task choice)).reverse ++ past) := by
  unfold Calls.pollingStep at hstep
  split at hstep
  · next hidle =>
    simp only [events, htask, hidle]
    split at hstep
    · cases hstep
    · next hlast =>
      cases hstep
      exact h.suspend htask hidle hlast
    · next hlast => exact absurd hlast h.notClosed
    · next fut hlast =>
      obtain ⟨output, houtput, rfl⟩ := Option.map_eq_some_iff.mp hstep
      exact h.await hmapped htask hidle hlast houtput
  · next hp => exact h.opStep hfollows htask hp hstep
  · next hfuture =>
    obtain ⟨b, hb, rfl⟩ := Option.map_eq_some_iff.mp hstep
    have hnone : events s (.task choice : Action Req Resp ε) = [] := by
      simp only [events, htask]
      split
      · next hp _ => exact absurd hp (hfuture _ _)
      · rfl
    rw [hnone]
    exact h.next htask (fun id fut hp => hfuture id fut hp) hb

theorem GroupInv.taskStep (h : GroupInv names group s past) {next : Io.Token} (hmapped : group.Mapped next)
    (hfollows : op.Follows names) (hstep : s.taskStep op group choice = some s') :
    GroupInv names group s' ((events s (.task choice)).reverse ++ past) := by
  cases htask : s.task with
  | idle | wait | suspended | failed =>
    simp only [Calls.taskStep, htask] at hstep
    cases hstep
  | push handles ended =>
    cases handles with
    | nil =>
      simp only [Calls.taskStep, htask] at hstep
      cases hstep
      exact h.pushed htask
    | cons handle handles =>
      obtain ⟨laddr, hbound⟩ := h.handles.waiting_bound handle (by rw [htask]; exact List.mem_cons_self)
      simp only [Calls.taskStep, htask, hmapped.laddr laddr handle hbound] at hstep
      obtain ⟨b, hb, rfl⟩ := Option.map_eq_some_iff.mp hstep
      simp only [events, htask]
      exact h.push htask hbound hb
  | inPush c handles ended =>
    simp only [Calls.taskStep, htask] at hstep
    simp only [events, htask]
    split at hstep
    · next hdone =>
      cases hstep
      exact h.inPush htask hdone
    · obtain ⟨b, hb, rfl⟩ := Option.map_eq_some_iff.mp hstep
      exact h.beside (beside_call hb) (h.owned.step hb) (h.armed.step rfl hb)
  | polling call =>
    simp only [Calls.taskStep, htask] at hstep
    exact h.pollingStep hmapped hfollows htask hstep

theorem GroupInv.step (h : GroupInv names group s past) {next : Io.Token} (hmapped : group.Mapped next)
    (hfollows : op.Follows names) {a : Action Req Resp ε} (hstep : Calls.step op group s a = some s') :
    GroupInv names group s' ((events s a).reverse ++ past) := by
  cases a with
  | call ptr req =>
    cases htask : s.task with
    | idle =>
      simp only [Calls.step, htask, Option.ite_none_right_eq_some] at hstep
      obtain ⟨hfresh, hstep⟩ := hstep
      cases hstep
      exact h.call htask hfresh
    | _ =>
      simp only [Calls.step, htask] at hstep
      cases hstep
  | poll waker =>
    cases htask : s.task with
    | wait call =>
      simp only [Calls.step, htask] at hstep
      obtain ⟨b, hb, rfl⟩ := Option.map_eq_some_iff.mp hstep
      exact h.poll (.inl htask) hb
    | suspended call =>
      simp only [Calls.step, htask] at hstep
      obtain ⟨b, hb, rfl⟩ := Option.map_eq_some_iff.mp hstep
      exact h.poll (.inr htask) hb
    | _ =>
      simp only [Calls.step, htask] at hstep
      cases hstep
  | drop =>
    cases htask : s.task with
    | suspended call =>
      simp only [Calls.step, htask] at hstep
      cases hstep
      simp only [events, htask]
      exact h.drop htask
    | _ =>
      simp only [Calls.step, htask] at hstep
      cases hstep
  | task choice => exact h.taskStep hmapped hfollows hstep
  | wake c id =>
    obtain ⟨b, hb, rfl⟩ := Option.map_eq_some_iff.mp hstep
    exact h.beside (beside_wake hb) (h.owned.step hb) (h.armed.step rfl hb)
  | waker c choice =>
    obtain ⟨b, hb, rfl⟩ := Option.map_eq_some_iff.mp hstep
    exact h.beside (beside_call hb) (h.owned.step hb) (h.armed.step rfl hb)

/-! ### Every run -/

theorem groupInv_init {next : Io.Token} (hmapped : group.Mapped next) {handles : List Handle}
    (hperm : handles.Perm (group.fds.map Prod.snd)) :
    GroupInv names group (Calls.init handles : Calls Req ε) ([] : List (Event Req Resp ε)) where
  owned := Batching.owned_init
  armed := Batching.armed_init
  notClosed := nofun
  running := .inl rfl
  inOp := .inl rfl
  started f := by
    refine iff_of_false (fun h => h rfl) ?_
    rintro (hpushed | ⟨id, hinserting⟩)
    · exact hpushed rfl
    · cases hinserting
  inserting := nofun
  handles :=
    { cover := fun laddr fd hmem => .inr (.inl (hperm.mem_iff.mpr (List.mem_map.mpr ⟨(laddr, fd), hmem, rfl⟩)))
      unique := nofun
      ops_bound := nofun
      waiting_nodup := hperm.nodup_iff.mpr hmapped.nodup
      waiting_bound := by
        intro fd hfd
        obtain ⟨⟨laddr, fd'⟩, hmem, rfl⟩ := List.mem_map.mp (hperm.mem_iff.mp hfd)
        exact ⟨laddr, hmem⟩
      waiting_not_live := by
        rintro fd - ⟨f, laddr, hf, -⟩
        cases hf
      delivered_not_live := by
        rintro fd ⟨f, laddr, hf, -⟩
        cases hf }
  memory := ⟨nofun, rfl⟩
  proper := trivial

theorem GroupInv.reaches {next : Io.Token} (hmapped : group.Mapped next) (hfollows : op.Follows names)
    {handles : List Handle} (hperm : handles.Perm (group.fds.map Prod.snd)) {t : Calls Req ε × List (Event Req Resp ε)}
    (h : Reachable (traced (Calls.step op group) events) (Calls.init handles, []) t) : GroupInv names group t.1 t.2 :=
  h.traced_invariant (groupInv_init hmapped hperm) fun hinv _ hs => hinv.step hmapped hfollows hs

/-- Between two calls every operation is in the map of the batcher. -/
theorem GroupInv.allPending (h : GroupInv names group s past) {next : Io.Token} (hmapped : group.Mapped next)
    (htask : s.task = .idle) : AllPending group s := by
  have hidle : s.batch.poller = .idle := h.poller_idle (by simp [htask])
  intro laddr fd hmem
  rcases h.handles.cover laddr fd hmem with ⟨f, laddr', hf, hunfinished⟩ | hfd | ⟨f, -, hf, -⟩
  · have hbound : (laddr', fd) ∈ group.fds := h.handles.ops_bound f fd laddr' hf
    have heq : laddr' = laddr := Option.some.inj ((hmapped.laddr laddr' fd hbound).symm.trans (hmapped.laddr laddr fd hmem))
    subst heq
    obtain ⟨id, hid⟩ : ∃ id, s.batch.pushed f = some id := by
      rcases (h.started f).mp (by simp [hf]) with hpushed | ⟨id, hinserting⟩
      · exact Option.ne_none_iff_exists'.mp hpushed
      · obtain ⟨handles, ended, htask'⟩ := h.inserting f id hinserting
        rw [htask] at htask'
        cases htask'
    refine ⟨id, ⟨f, h.owned.kept f id hid hunfinished (by simp [hidle, Batching.Poller.holds]), hf⟩, ?_⟩
    rintro id' ⟨f', hpending, hf'⟩
    obtain ⟨hid', hunfinished'⟩ := h.owned.stored id' f' hpending
    rw [h.handles.unique f' f fd laddr' laddr' hf' hf hunfinished' hunfinished, hid] at hid'
    exact (Option.some.inj hid').symm
  · rw [htask] at hfd
    cases hfd
  · simp only [Calls.delivered, htask] at hf
    cases hf

theorem GroupInv.served (h : GroupInv names group s past) {next : Io.Token} (hmapped : group.Mapped next) :
    Served names group s past where
  notFailed failure htask := by
    have hmemory := h.memory
    rw [Memory, htask] at hmemory
    exact hmemory
  notPanicked := h.armed.notPanicked
  proper := h.proper
  pending htask := h.allPending hmapped htask

/-- In every run of the calls of `recv_from`, and in every run of those of `send_to`, of a group that `bind` has returned: no
    assertion fails, each call has its own buffer and a path with the local address of its handle, and between two calls
    every handle has one pending operation. -/
theorem group_served {O ε : Type} (os : Os O SocketAddr ε) (info : ErrorInfo SocketAddr ε) (mio mio' : Mio O)
    (poller : Handle) (hpoller : Mio.IsPoller mio poller) (laddrs : Except ε (List SocketAddr)) (group : UdpGroup)
    (h : bind os info mio poller laddrs = (mio', .ok group)) (handles : List Handle)
    (horder : handles.Perm (group.fds.map Prod.snd)) :
    (∀ (s : Calls Unit ε) past,
      Reachable (traced (Calls.step pushBatchRead group) events) (Calls.init handles, []) (s, past) →
        Served receivedBy group s past) ∧
    ∀ (s : Calls SocketAddr ε) past,
      Reachable (traced (Calls.step pushBatchWrite group) events) (Calls.init handles, []) (s, past) →
        Served sentBy group s past := by
  have hmapped : group.Mapped mio'.heap.next := bind_mapped hpoller h
  have hread : pushBatchRead.Follows receivedBy := fun _ _ _ => ⟨rfl, rfl⟩
  have hwrite : pushBatchWrite.Follows sentBy := fun _ _ _ => ⟨rfl, rfl⟩
  exact ⟨fun s past hs => (GroupInv.reaches hmapped hread horder hs).served hmapped,
    fun s past hs => (GroupInv.reaches hmapped hwrite horder hs).served hmapped⟩

/-- The group of one address on a system that assigns its port. -/
def oneSocket : UdpGroup := UdpGroup.insert {} 40001 { token := 1, desc := .udpSocket }

/-- Call 0 with request `req`, which the driver answers on 4 bytes. -/
def callOne {Req Resp : Type} (req : Req) (resp : Resp) : List (Action Req Resp String) :=
  List.replicate 7 (.task {}) ++ [.call 3 req, .poll 5] ++ List.replicate 10 (.task {}) ++
    [.task { answer := .ok 4 resp }] ++ List.replicate 5 (.task {}) ++ List.replicate 7 (.task { c := 1 })

/-- A datagram is received from address 9, and one is sent to it. -/
theorem group_served_one :
    (∃ s past, run (traced (Calls.step pushBatchRead oneSocket) events) (Calls.init (oneSocket.fds.map Prod.snd), [])
        (callOne () 9) = some (s, past) ∧
      past.head? = some (.returned 0 (.ok (4, { fromAddr := 9, toAddr := 40001 }))) ∧ AllPending oneSocket s) ∧
    ∃ s past, run (traced (Calls.step pushBatchWrite oneSocket) events) (Calls.init (oneSocket.fds.map Prod.snd), [])
        (callOne 9 ()) = some (s, past) ∧
      past.head? = some (.returned 0 (.ok (4, { fromAddr := 40001, toAddr := 9 }))) ∧ AllPending oneSocket s := by
  obtain ⟨mio', hbind⟩ :
      ∃ mio', bind (system [] true true) errorInfo started startedPoller (.ok [0]) = (mio', .ok oneSocket) := ⟨_, rfl⟩
  have hserved := group_served (system [] true true) errorInfo started mio' startedPoller ⟨rfl, rfl⟩ (.ok [0]) oneSocket
    hbind _ (.refl _)
  exact ⟨⟨_, _, rfl, rfl, (hserved.1 _ _ (.of_run (callOne () 9) rfl)).pending rfl⟩,
    _, _, rfl, rfl, (hserved.2 _ _ (.of_run (callOne 9 ()) rfl)).pending rfl⟩

end Hala.Udp
