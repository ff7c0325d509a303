import Hala.Future.Batching
import Hala.Lib.Tasks

/-! `FutureBatcher` delivers each future once and loses no wake-up, as long as it is not closed.

`Owned` says where a future is: with the map, with the poller or finished. `Armed` says who will wake the task
of a poll: from `add_waker` on, its waker is in the waker word, or in the hands of a call, or it was woken; and
behind an empty queue every new ticket belongs to a call that has still to look at the waker word. -/

namespace Hala.Batching
open Machine Lockfree Tasks

/-! ## What a step can do -/

section Cases
variable {s s' : State} {c : Nat} {choice : Choice}

theorem exchange_eq_some {ptr : Addr} {spurious : Bool} {waker : TaskWaker} (h : s.exchange ptr spurious = some (waker, s')) :
    s.rawWaker = some (ptr, waker) ∧ s' = { s with rawWaker := none } := by
  unfold State.exchange at h
  split at h
  · cases h
  · next ptr' waker' hw =>
    split at h
    · next heq =>
      cases h
      exact ⟨heq.1 ▸ hw, rfl⟩
    · cases h

/-- The steps of a call. -/
inductive CallCases (c : Nat) (choice : Choice) (s : State) : State → Prop
  | stored {id : FutureId} : s.calls c = .insertPending id →
      CallCases c choice s
        ({ s with pendingFutures := Function.update s.pendingFutures id (some c)
                  pushed := Function.update s.pushed c (some id) }.setCall c (.takeTicket id))
  | tookTicket {id : FutureId} : s.calls c = .takeTicket id →
      CallCases c choice s
        ({ s with wakeupFutures := s.wakeupFutures.takeTicket.2 }.setCall c (.insertSlot id s.wakeupFutures.takeTicket.1))
  | filledSlot {id : FutureId} {offset : Nat} : s.calls c = .insertSlot id offset →
      CallCases c choice s ({ s with wakeupFutures := s.wakeupFutures.insertSlot offset id }.setCall c .loadWaker)
  | noWaker : s.calls c = .loadWaker → s.rawWaker = none → CallCases c choice s (s.setCall c .done)
  | foundWaker {ptr : Addr} {waker : TaskWaker} : s.calls c = .loadWaker → s.rawWaker = some (ptr, waker) →
      CallCases c choice s (s.setCall c (.exchangeWaker ptr))
  | lostExchange {ptr : Addr} : s.calls c = .exchangeWaker ptr → s.exchange ptr choice.spurious = none →
      CallCases c choice s (s.setCall c .loadWaker)
  | tookWaker {ptr : Addr} {waker : TaskWaker} : s.calls c = .exchangeWaker ptr → s.rawWaker = some (ptr, waker) →
      CallCases c choice s ({ s with rawWaker := none }.setCall c (.wakeTask waker))
  | woke {waker : TaskWaker} : s.calls c = .wakeTask waker →
      CallCases c choice s ({ s with woken := s.woken || waker == s.taskWaker }.setCall c .done)

theorem call_cases (h : callStep s c choice = some s') : CallCases c choice s s' := by
  cases hc : s.calls c with
  | idle | done =>
    simp only [callStep, hc] at h
    cases h
  | insertPending id =>
    simp only [callStep, hc] at h
    cases h
    exact .stored hc
  | takeTicket id =>
    simp only [callStep, hc] at h
    cases h
    exact .tookTicket hc
  | insertSlot id offset =>
    simp only [callStep, hc] at h
    cases h
    exact .filledSlot hc
  | loadWaker =>
    simp only [callStep, hc] at h
    split at h <;> cases h
    · next hraw => exact .noWaker hc hraw
    · next hraw => exact .foundWaker hc hraw
  | exchangeWaker ptr =>
    simp only [callStep, hc] at h
    split at h <;> cases h
    · next hexchange => exact .lostExchange hc hexchange
    · next hexchange =>
      obtain ⟨hraw, rfl⟩ := exchange_eq_some hexchange
      exact .tookWaker hc hraw
  | wakeTask waker =>
    simp only [callStep, hc] at h
    cases h
    exact .woke hc

/-- The steps of a poll. -/
inductive PollCases (choice : Choice) (s : State) : State → Prop
  | foundClosed : (∃ waker, s.poller = .loadClosed waker) ∨ (∃ id, s.poller = .loadClosedAgain id) ∨ s.poller = .loadClosedLast →
      s.closed = true → PollCases choice s { s with poller := .idle, last := some .readyNone }
  | began {waker : TaskWaker} : s.poller = .loadClosed waker → s.closed = false →
      PollCases choice s { s with poller := .addWaker waker }
  | addedWaker {waker : TaskWaker} : s.poller = .addWaker waker →
      PollCases choice s { s with rawWaker := some (choice.addr, waker), poller := .loadHead }
  | loadedHead : s.poller = .loadHead → PollCases choice s { s with poller := .loadTail s.wakeupFutures.head }
  | foundEmpty {header : Nat} : s.poller = .loadTail header → header = s.wakeupFutures.tail →
      PollCases choice s { s with poller := .leavePending }
  | foundTicket {header : Nat} : s.poller = .loadTail header → header ≠ s.wakeupFutures.tail →
      PollCases choice s { s with poller := .claim header }
  | lostClaim {header : Nat} : s.poller = .claim header → s.wakeupFutures.claim header = none →
      PollCases choice s { s with poller := .loadHead }
  | claimed {header : Nat} {wakeupFutures : Queue FutureId} : s.poller = .claim header →
      s.wakeupFutures.claim header = some wakeupFutures →
      PollCases choice s { s with wakeupFutures, poller := .removeSlot header }
  | emptiedSlot {index : Nat} {id : FutureId} {wakeupFutures : Queue FutureId} : s.poller = .removeSlot index →
      s.wakeupFutures.removeSlot index = some (id, wakeupFutures) →
      PollCases choice s { s with wakeupFutures, poller := .loadClosedAgain id }
  | stillOpen {id : FutureId} : s.poller = .loadClosedAgain id → s.closed = false →
      PollCases choice s { s with poller := .removePending id }
  | notThere {id : FutureId} : s.poller = .removePending id → s.pendingFutures id = none →
      PollCases choice s { s with poller := .loadHead }
  | tookFuture {id : FutureId} {fut : Fut} : s.poller = .removePending id → s.pendingFutures id = some fut →
      PollCases choice s
        { s with pendingFutures := Function.update s.pendingFutures id none
                 handed := Function.update s.handed id true
                 poller := .pollFuture id fut }
  | ready {id : FutureId} {fut : Fut} : s.poller = .pollFuture id fut → choice.ready = true →
      PollCases choice s { s with finished := fut :: s.finished, poller := .loadWaker fut }
  | notReady {id : FutureId} {fut : Fut} : s.poller = .pollFuture id fut → choice.ready = false →
      PollCases choice s { s with poller := .insertPending id fut }
  | putBack {id : FutureId} {fut : Fut} : s.poller = .insertPending id fut →
      PollCases choice s
        { s with pendingFutures := Function.update s.pendingFutures id (some fut), poller := .loadHead }
  | noWaker {fut : Fut} : s.poller = .loadWaker fut → s.rawWaker = none →
      PollCases choice s { s with poller := .leaveReady fut }
  | foundWaker {fut : Fut} {ptr : Addr} {waker : TaskWaker} : s.poller = .loadWaker fut → s.rawWaker = some (ptr, waker) →
      PollCases choice s { s with poller := .exchangeWaker fut ptr }
  | lostExchange {fut : Fut} {ptr : Addr} : s.poller = .exchangeWaker fut ptr → s.exchange ptr choice.spurious = none →
      PollCases choice s { s with poller := .loadWaker fut }
  | tookWaker {fut : Fut} {ptr : Addr} {waker : TaskWaker} : s.poller = .exchangeWaker fut ptr →
      s.rawWaker = some (ptr, waker) → PollCases choice s { s with rawWaker := none, poller := .leaveReady fut }
  | leftReady {fut : Fut} : s.poller = .leaveReady fut → s.awaitCounter = 1 →
      PollCases choice s
        { s with awaitCounter := 0, returned := fut :: s.returned, poller := .idle, last := some (.readySome fut) }
  | leftPending : s.poller = .leavePending → s.awaitCounter = 1 →
      PollCases choice s { s with awaitCounter := 0, poller := .loadClosedLast }
  | panicked : (∃ fut, s.poller = .leaveReady fut) ∨ s.poller = .leavePending → s.awaitCounter ≠ 1 →
      PollCases choice s { s with awaitCounter := s.awaitCounter - 1, poller := .panicked }
  | returnedPending : s.poller = .loadClosedLast → s.closed = false →
      PollCases choice s { s with poller := .idle, last := some .pending }

theorem poll_cases (h : pollStep s choice = some s') : PollCases choice s s' := by
  cases hp : s.poller with
  | idle | panicked =>
    simp only [pollStep, hp] at h
    cases h
  | loadClosed waker =>
    simp only [pollStep, hp] at h
    split at h <;> cases h
    · next hclosed => exact .foundClosed (Or.inl ⟨waker, hp⟩) hclosed
    · next hopen => exact .began hp (by simpa using hopen)
  | addWaker waker =>
    simp only [pollStep, hp] at h
    cases h
    exact .addedWaker hp
  | loadHead =>
    simp only [pollStep, hp] at h
    cases h
    exact .loadedHead hp
  | loadTail header =>
    simp only [pollStep, hp] at h
    split at h <;> cases h
    · next hempty => exact .foundEmpty hp hempty
    · next hticket => exact .foundTicket hp hticket
  | claim header =>
    simp only [pollStep, hp] at h
    split at h <;> cases h
    · next hclaim => exact .lostClaim hp hclaim
    · next hclaim => exact .claimed hp hclaim
  | removeSlot index =>
    simp only [pollStep, hp] at h
    split at h <;> cases h
    next hslot => exact .emptiedSlot hp hslot
  | loadClosedAgain id =>
    simp only [pollStep, hp] at h
    split at h <;> cases h
    · next hclosed => exact .foundClosed (Or.inr (Or.inl ⟨id, hp⟩)) hclosed
    · next hopen => exact .stillOpen hp (by simpa using hopen)
  | removePending id =>
    simp only [pollStep, hp] at h
    split at h <;> cases h
    · next hget => exact .notThere hp hget
    · next hget => exact .tookFuture hp hget
  | pollFuture id fut =>
    simp only [pollStep, hp] at h
    split at h <;> cases h
    · next hready => exact .ready hp hready
    · next hready => exact .notReady hp (by simpa using hready)
  | insertPending id fut =>
    simp only [pollStep, hp] at h
    cases h
    exact .putBack hp
  | loadWaker fut =>
    simp only [pollStep, hp] at h
    split at h <;> cases h
    · next hraw => exact .noWaker hp hraw
    · next hraw => exact .foundWaker hp hraw
  | exchangeWaker fut ptr =>
    simp only [pollStep, hp] at h
    split at h <;> cases h
    · next hexchange => exact .lostExchange hp hexchange
    · next hexchange =>
      obtain ⟨hraw, rfl⟩ := exchange_eq_some hexchange
      exact .tookWaker hp hraw
  | leaveReady fut =>
    simp only [pollStep, hp] at h
    split at h <;> cases h
    · next hone => exact .leftReady hp hone
    · next hone => exact .panicked (Or.inl ⟨fut, hp⟩) hone
  | leavePending =>
    simp only [pollStep, hp] at h
    split at h <;> cases h
    · next hone => exact .leftPending hp hone
    · next hone => exact .panicked (Or.inr hp) hone
  | loadClosedLast =>
    simp only [pollStep, hp] at h
    split at h <;> cases h
    · next hclosed => exact .foundClosed (Or.inr (Or.inr hp)) hclosed
    · next hopen => exact .returnedPending hp (by simpa using hopen)

end Cases

namespace Poller

/-- The future that the poller has taken out of the map. -/
def holds : Poller → Option (FutureId × Fut)
  | .pollFuture id fut | .insertPending id fut => some (id, fut)
  | _ => none

/-- The finished future whose output the poll is about to return. -/
def delivers : Poller → Option Fut
  | .loadWaker fut | .exchangeWaker fut _ | .leaveReady fut => some fut
  | _ => none

end Poller

/-! ## Where a future is -/

structure Owned (s : State) : Prop where
  pushed_lt : ∀ c id, s.pushed c = some id → id < s.idgen
  pushed_unique : ∀ c d id, s.pushed c = some id → s.pushed d = some id → c = d
  inserting_lt : ∀ c id, s.calls c = .insertPending id → id < s.idgen
  inserting_unique : ∀ c d id, s.calls c = .insertPending id → s.calls d = .insertPending id → c = d
  inserting_new : ∀ c d id, s.calls c = .insertPending id → s.pushed d ≠ some id
  unpushed : ∀ c, s.calls c = .idle ∨ (∃ id, s.calls c = .insertPending id) → s.pushed c = none
  stored : ∀ id c, s.pendingFutures id = some c → s.pushed c = some id ∧ c ∉ s.finished
  held : ∀ id c, s.poller.holds = some (id, c) → s.pushed c = some id ∧ c ∉ s.finished ∧ s.pendingFutures id = none
  kept : ∀ c id, s.pushed c = some id → c ∉ s.finished → s.poller.holds ≠ some (id, c) → s.pendingFutures id = some c
  finished_pushed : ∀ c ∈ s.finished, ∃ id, s.pushed c = some id
  delivered : ∀ c, s.poller.delivers = some c → c ∈ s.finished ∧ c ∉ s.returned
  returned_finished : ∀ c ∈ s.returned, c ∈ s.finished
  returned_nodup : s.returned.Nodup

theorem owned_init : Owned {} := by
  constructor <;> simp [Poller.holds, Poller.delivers]

section Owned
variable {s s' : State} {c : Nat}

theorem setCall_of_ne (s : State) (call : Call) {c d : Nat} (h : d ≠ c) : (s.setCall c call).calls d = s.calls d := by
  simp [State.setCall, h]

@[simp] theorem setCall_self (s : State) (c : Nat) (call : Call) : (s.setCall c call).calls c = call := by
  simp [State.setCall]

/-- A step that leaves the map and the futures as they are, and starts no insertion. -/
theorem Owned.frame (ho : Owned s) (hidgen : s'.idgen = s.idgen) (hpending : s'.pendingFutures = s.pendingFutures)
    (hpushed : s'.pushed = s.pushed) (hfinished : s'.finished = s.finished) (hreturned : s'.returned = s.returned)
    (hholds : s'.poller.holds = s.poller.holds) (hdelivers : ∀ c, s'.poller.delivers = some c → s.poller.delivers = some c)
    (hinsert : ∀ d id, s'.calls d = .insertPending id → s.calls d = .insertPending id)
    (hidle : ∀ d, s'.calls d = .idle → s.calls d = .idle) : Owned s' where
  pushed_lt c id h := by
    rw [hidgen]
    exact ho.pushed_lt c id (hpushed ▸ h)
  pushed_unique c d id h h' := ho.pushed_unique c d id (hpushed ▸ h) (hpushed ▸ h')
  inserting_lt c id h := by
    rw [hidgen]
    exact ho.inserting_lt c id (hinsert c id h)
  inserting_unique c d id h h' := ho.inserting_unique c d id (hinsert c id h) (hinsert d id h')
  inserting_new c d id h := by
    rw [hpushed]
    exact ho.inserting_new c d id (hinsert c id h)
  unpushed c h := by
    rw [hpushed]
    rcases h with h | ⟨id, h⟩
    · exact ho.unpushed c (Or.inl (hidle c h))
    · exact ho.unpushed c (Or.inr ⟨id, hinsert c id h⟩)
  stored id c h := by
    rw [hpushed, hfinished]
    exact ho.stored id c (hpending ▸ h)
  held id c h := by
    rw [hpushed, hfinished, hpending]
    exact ho.held id c (hholds ▸ h)
  kept c id h hf hh := by
    rw [hpending]
    exact ho.kept c id (hpushed ▸ h) (hfinished ▸ hf) (hholds ▸ hh)
  finished_pushed c h := by
    rw [hpushed]
    exact ho.finished_pushed c (hfinished ▸ h)
  delivered c h := by
    rw [hfinished, hreturned]
    exact ho.delivered c (hdelivers c h)
  returned_finished c h := by
    rw [hfinished]
    exact ho.returned_finished c (hreturned ▸ h)
  returned_nodup := hreturned ▸ ho.returned_nodup

theorem Owned.same (ho : Owned s) (hidgen : s'.idgen = s.idgen) (hpending : s'.pendingFutures = s.pendingFutures)
    (hpushed : s'.pushed = s.pushed) (hfinished : s'.finished = s.finished) (hreturned : s'.returned = s.returned)
    (hpoller : s'.poller = s.poller) (hcalls : s'.calls = s.calls) : Owned s' :=
  ho.frame hidgen hpending hpushed hfinished hreturned (by rw [hpoller]) (fun _ h => hpoller ▸ h)
    (fun _ _ h => hcalls ▸ h) fun _ h => hcalls ▸ h

/-- A call that moves on without inserting. -/
theorem Owned.setCall (ho : Owned s) {call : Call} (hinsert : ∀ id, call ≠ .insertPending id) (hidle : call ≠ .idle) :
    Owned (s.setCall c call) := by
  refine ho.frame rfl rfl rfl rfl rfl rfl (fun _ h => h) (fun d id h => ?_) fun d h => ?_
  · rcases eq_or_ne d c with rfl | hd
    · exact absurd (setCall_self s d call ▸ h) (hinsert id)
    · exact setCall_of_ne s call hd ▸ h
  · rcases eq_or_ne d c with rfl | hd
    · exact absurd (setCall_self s d call ▸ h) hidle
    · exact setCall_of_ne s call hd ▸ h

/-- `push` takes a fresh id. -/
theorem Owned.push (ho : Owned s) (hc : s.calls c = .idle) :
    Owned ({ s with idgen := s.idgen + 1 }.setCall c (.insertPending s.idgen)) where
  pushed_lt d id h := Nat.lt_succ_of_lt (ho.pushed_lt d id h)
  pushed_unique := ho.pushed_unique
  inserting_lt d id h := by
    rcases eq_or_ne d c with rfl | hd
    · rw [setCall_self] at h
      cases h
      exact Nat.lt_succ_self _
    · rw [setCall_of_ne _ _ hd] at h
      exact Nat.lt_succ_of_lt (ho.inserting_lt d id h)
  inserting_unique d e id h h' := by
    -- The new id is above all others.
    rcases eq_or_ne d c with rfl | hd
    · rw [setCall_self] at h
      cases h
      rcases eq_or_ne e d with rfl | he
      · rfl
      · rw [setCall_of_ne _ _ he] at h'
        exact absurd (ho.inserting_lt e _ h') (Nat.lt_irrefl _)
    · rw [setCall_of_ne _ _ hd] at h
      rcases eq_or_ne e c with rfl | he
      · rw [setCall_self] at h'
        cases h'
        exact absurd (ho.inserting_lt d _ h) (Nat.lt_irrefl _)
      · rw [setCall_of_ne _ _ he] at h'
        exact ho.inserting_unique d e id h h'
  inserting_new d e id h := by
    rcases eq_or_ne d c with rfl | hd
    · rw [setCall_self] at h
      cases h
      exact fun hp => Nat.lt_irrefl _ (ho.pushed_lt e _ hp)
    · rw [setCall_of_ne _ _ hd] at h
      exact ho.inserting_new d e id h
  unpushed d h := by
    rcases eq_or_ne d c with rfl | hd
    · exact ho.unpushed d (Or.inl hc)
    · rw [setCall_of_ne _ _ hd] at h
      exact ho.unpushed d h
  stored := ho.stored
  held := ho.held
  kept := ho.kept
  finished_pushed := ho.finished_pushed
  delivered := ho.delivered
  returned_finished := ho.returned_finished
  returned_nodup := ho.returned_nodup

/-- `push` stores the future under its id, which no other future has. -/
theorem Owned.insertPending (ho : Owned s) {id : FutureId} (hc : s.calls c = .insertPending id) :
    Owned ({ s with pendingFutures := Function.update s.pendingFutures id (some c)
                    pushed := Function.update s.pushed c (some id) }.setCall c (.takeTicket id)) := by
  have hnone : s.pushed c = none := ho.unpushed c (Or.inr ⟨id, hc⟩)
  have hnew : ∀ d, s.pushed d ≠ some id := fun d => ho.inserting_new c d id hc
  have hother : ∀ {d i}, s.pushed d = some i → d ≠ c := by
    rintro d i h rfl
    rw [hnone] at h
    cases h
  have hkeep : ∀ {d i}, s.pushed d = some i → Function.update s.pushed c (some id) d = some i := by
    intro d i h
    rw [Function.update_of_ne (hother h), h]
  have hinserting : ∀ {d i}, Function.update s.calls c (.takeTicket id) d = .insertPending i →
      d ≠ c ∧ s.calls d = .insertPending i := by
    intro d i h
    rcases update_cases h with ⟨-, h⟩ | h
    · cases h
    · exact h
  refine
    { pushed_lt := ?_, pushed_unique := ?_, inserting_lt := ?_, inserting_unique := ?_, inserting_new := ?_, unpushed := ?_,
      stored := ?_, held := ?_, kept := ?_, finished_pushed := ?_, delivered := ho.delivered,
      returned_finished := ho.returned_finished, returned_nodup := ho.returned_nodup }
  · intro d i h
    rcases update_cases h with ⟨rfl, hi⟩ | ⟨-, h⟩
    · cases hi
      exact ho.inserting_lt d id hc
    · exact ho.pushed_lt d i h
  · intro d e i h h'
    rcases update_cases h with ⟨rfl, hi⟩ | ⟨-, h⟩
    · cases hi
      rcases update_cases h' with ⟨rfl, -⟩ | ⟨-, h'⟩
      · rfl
      · exact absurd h' (hnew e)
    · rcases update_cases h' with ⟨-, hi⟩ | ⟨-, h'⟩
      · cases hi
        exact absurd h (hnew d)
      · exact ho.pushed_unique d e i h h'
  · intro d i h
    exact ho.inserting_lt d i (hinserting h).2
  · intro d e i h h'
    exact ho.inserting_unique d e i (hinserting h).2 (hinserting h').2
  · intro d e i h hp
    obtain ⟨hd, h⟩ := hinserting h
    rcases update_cases hp with ⟨-, hi⟩ | ⟨-, hp⟩
    · cases hi
      exact hd (ho.inserting_unique d c id h hc)
    · exact ho.inserting_new d e i h hp
  · rintro d (h | ⟨i, h⟩)
    · rcases update_cases h with ⟨-, h⟩ | ⟨hd, h⟩
      · cases h
      · exact (Function.update_of_ne hd _ _).trans (ho.unpushed d (Or.inl h))
    · obtain ⟨hd, h⟩ := hinserting h
      exact (Function.update_of_ne hd _ _).trans (ho.unpushed d (Or.inr ⟨i, h⟩))
  · intro i d h
    rcases update_cases h with ⟨rfl, hd⟩ | ⟨-, h⟩
    · cases hd
      refine ⟨Function.update_self _ _ _, fun hf => ?_⟩
      obtain ⟨j, hj⟩ := ho.finished_pushed c hf
      exact hother hj rfl
    · obtain ⟨hp, hf⟩ := ho.stored i d h
      exact ⟨hkeep hp, hf⟩
  · intro i d h
    obtain ⟨hp, hf, hn⟩ := ho.held i d h
    have hi : i ≠ id := by
      rintro rfl
      exact hnew d hp
    exact ⟨hkeep hp, hf, (Function.update_of_ne hi _ _).trans hn⟩
  · intro d i h hf hh
    rcases update_cases h with ⟨rfl, hi⟩ | ⟨-, hp⟩
    · cases hi
      exact Function.update_self _ _ _
    · have hi : i ≠ id := by
        rintro rfl
        exact hnew d hp
      exact (Function.update_of_ne hi _ _).trans (ho.kept d i hp hf hh)
  · intro d h
    obtain ⟨i, hi⟩ := ho.finished_pushed d h
    exact ⟨i, hkeep hi⟩

theorem Owned.callStep (ho : Owned s) {choice : Choice} (h : CallCases c choice s s') : Owned s' := by
  cases h with
  | stored hc => exact ho.insertPending hc
  | noWaker | foundWaker | lostExchange => exact ho.setCall nofun nofun
  | tookTicket | filledSlot | tookWaker | woke =>
    refine Owned.setCall ?_ nofun nofun
    exact ho.same rfl rfl rfl rfl rfl rfl rfl

/-- A step of the poller while it holds no future and has none to deliver, or keeps the one it has. -/
theorem Owned.poller (ho : Owned s) (hidgen : s'.idgen = s.idgen) (hpending : s'.pendingFutures = s.pendingFutures)
    (hpushed : s'.pushed = s.pushed) (hfinished : s'.finished = s.finished) (hreturned : s'.returned = s.returned)
    (hcalls : s'.calls = s.calls) (hholds : s'.poller.holds = s.poller.holds)
    (hdelivers : s'.poller.delivers = none ∨ s'.poller.delivers = s.poller.delivers) : Owned s' := by
  refine ho.frame hidgen hpending hpushed hfinished hreturned hholds (fun c h => ?_) (fun _ _ h => hcalls ▸ h)
    fun _ h => hcalls ▸ h
  rcases hdelivers with hn | he
  · rw [hn] at h
    cases h
  · exact he ▸ h

/-- The poller takes a future out of the map. -/
theorem Owned.removePending (ho : Owned s) {id : FutureId} {fut : Fut} (hp : s.poller = .removePending id)
    (hget : s.pendingFutures id = some fut) :
    Owned { s with pendingFutures := Function.update s.pendingFutures id none
                   handed := Function.update s.handed id true
                   poller := .pollFuture id fut } := by
  obtain ⟨hpushed, hunfinished⟩ := ho.stored id fut hget
  refine { ho with stored := ?_, held := ?_, kept := ?_, delivered := nofun }
  · intro i d h
    rcases update_cases h with ⟨-, h⟩ | ⟨-, h⟩
    · cases h
    · exact ho.stored i d h
  · intro i d h
    cases h
    exact ⟨hpushed, hunfinished, Function.update_self _ _ _⟩
  · intro d i h hf hh
    -- An entry other than the one taken out is of another future.
    have hi : i ≠ id := by
      rintro rfl
      exact hh (by rw [ho.pushed_unique d fut i h hpushed]; rfl)
    refine (Function.update_of_ne hi _ _).trans (ho.kept d i h hf ?_)
    rw [hp]
    nofun

/-- A future that returned `Ready` is finished, and its output is on its way. -/
theorem Owned.ready (ho : Owned s) {id : FutureId} {fut : Fut} (hp : s.poller = .pollFuture id fut) :
    Owned { s with finished := fut :: s.finished, poller := .loadWaker fut } := by
  obtain ⟨hpushed, hunfinished, hnone⟩ := ho.held id fut (by rw [hp]; rfl)
  refine
    { ho with stored := ?_, held := nofun, kept := ?_, finished_pushed := ?_, delivered := ?_, returned_finished := ?_ }
  · intro i d h
    obtain ⟨hd, hf⟩ := ho.stored i d h
    refine ⟨hd, fun hmem => ?_⟩
    -- The future that was polled is not in the map.
    rcases List.mem_cons.mp hmem with rfl | hmem
    · cases hd.symm.trans hpushed
      rw [hnone] at h
      cases h
    · exact hf hmem
  · intro d i h hf _
    refine ho.kept d i h (List.not_mem_of_not_mem_cons hf) fun hh => ?_
    rw [hp] at hh
    cases hh
    exact List.ne_of_not_mem_cons hf rfl
  · intro d h
    rcases List.mem_cons.mp h with rfl | h
    · exact ⟨id, hpushed⟩
    · exact ho.finished_pushed d h
  · intro d h
    cases h
    exact ⟨List.mem_cons_self, fun hmem => hunfinished (ho.returned_finished fut hmem)⟩
  · intro d h
    exact List.mem_cons_of_mem fut (ho.returned_finished d h)

/-- A future that returned `Pending` goes back to the map. -/
theorem Owned.putBack (ho : Owned s) {id : FutureId} {fut : Fut} (hp : s.poller = .insertPending id fut) :
    Owned { s with pendingFutures := Function.update s.pendingFutures id (some fut), poller := .loadHead } := by
  obtain ⟨hpushed, hunfinished, -⟩ := ho.held id fut (by rw [hp]; rfl)
  refine { ho with stored := ?_, held := nofun, kept := ?_, delivered := nofun }
  · intro i d h
    rcases update_cases h with ⟨rfl, hfut⟩ | ⟨-, h⟩
    · cases hfut
      exact ⟨hpushed, hunfinished⟩
    · exact ho.stored i d h
  · intro d i h hf _
    by_cases hd : d = fut
    · subst hd
      cases h.symm.trans hpushed
      exact Function.update_self _ _ _
    · have hi : i ≠ id := by
        rintro rfl
        exact hd (ho.pushed_unique d fut i h hpushed)
      refine (Function.update_of_ne hi _ _).trans (ho.kept d i h hf fun hh => ?_)
      rw [hp] at hh
      cases hh
      exact hd rfl

/-- The poll returns the output of a finished future for the first time. -/
theorem Owned.leaveReady (ho : Owned s) {fut : Fut} (hp : s.poller = .leaveReady fut) (counter : Nat) :
    Owned { s with awaitCounter := counter, returned := fut :: s.returned, poller := .idle,
                   last := some (.readySome fut) } := by
  obtain ⟨hfinished, hnew⟩ := ho.delivered fut (by rw [hp]; rfl)
  refine { ho with held := nofun, kept := ?_, delivered := nofun, returned_finished := ?_, returned_nodup := ?_ }
  · intro d i h hf _
    refine ho.kept d i h hf ?_
    rw [hp]
    nofun
  · intro d h
    rcases List.mem_cons.mp h with rfl | h
    · exact hfinished
    · exact ho.returned_finished d h
  · exact List.nodup_cons.mpr ⟨hnew, ho.returned_nodup⟩

theorem Owned.pollStep (ho : Owned s) {choice : Choice} (h : PollCases choice s s') : Owned s' := by
  cases h with
  | tookFuture hp hget => exact ho.removePending hp hget
  | ready hp => exact ho.ready hp
  | putBack hp => exact ho.putBack hp
  | leftReady hp => exact ho.leaveReady hp 0
  | noWaker hp | foundWaker hp | lostExchange hp | tookWaker hp =>
    exact ho.poller rfl rfl rfl rfl rfl rfl (by rw [hp]; rfl) (Or.inr (by rw [hp]; rfl))
  | foundClosed hp =>
    rcases hp with ⟨waker, hp⟩ | ⟨id, hp⟩ | hp <;>
      exact ho.poller rfl rfl rfl rfl rfl rfl (by rw [hp]; rfl) (Or.inl rfl)
  | panicked hp =>
    rcases hp with ⟨fut, hp⟩ | hp <;> exact ho.poller rfl rfl rfl rfl rfl rfl (by rw [hp]; rfl) (Or.inl rfl)
  | began hp | addedWaker hp | loadedHead hp | foundEmpty hp | foundTicket hp | lostClaim hp | claimed hp | emptiedSlot hp
  | stillOpen hp | notThere hp | notReady hp | leftPending hp | returnedPending hp =>
    exact ho.poller rfl rfl rfl rfl rfl rfl (by rw [hp]; rfl) (Or.inl rfl)

theorem Owned.step (ho : Owned s) {a : Action} (h : step s a = some s') : Owned s' := by
  cases a with
  | push c =>
    simp only [Batching.step, Option.ite_none_right_eq_some, Option.some.injEq] at h
    obtain ⟨hc, rfl⟩ := h
    exact ho.push hc
  | wake c id =>
    simp only [Batching.step, Option.ite_none_right_eq_some, Option.some.injEq] at h
    obtain ⟨-, rfl⟩ := h
    exact ho.setCall nofun nofun
  | close c =>
    simp only [Batching.step, Option.ite_none_right_eq_some] at h
    obtain ⟨-, h⟩ := h
    split at h <;> cases h
    · exact ho.setCall nofun nofun
    · refine Owned.setCall ?_ nofun nofun
      exact ho.same rfl rfl rfl rfl rfl rfl rfl
  | call c choice => exact ho.callStep (call_cases h)
  | poll waker =>
    simp only [Batching.step, Option.ite_none_right_eq_some, Option.some.injEq] at h
    obtain ⟨hp, rfl⟩ := h
    refine ho.poller rfl rfl rfl rfl rfl rfl ?_ (Or.inl ?_) <;> dsimp only <;> split <;> simp [hp, Poller.holds, Poller.delivers]
  | next choice => exact ho.pollStep (poll_cases h)

end Owned

/-! ## Who wakes the task -/

/-- What `await_counter` is while the poller is there. -/
def Poller.counted : Poller → Nat
  | .idle | .loadClosedLast => 0
  | _ => 1

/-- The poll has found the queue empty, and has returned `Pending` or is about to. -/
def State.waits (s : State) : Bool :=
  match s.poller with
  | .leavePending | .loadClosedLast => true
  | .idle => s.last == some .pending
  | _ => false

/-- The task waker of the poll has been put in the waker word and is still needed. -/
def State.listens (s : State) : Bool :=
  match s.poller with
  | .loadHead | .loadTail _ | .claim _ | .removeSlot _ | .loadClosedAgain _ | .removePending _ | .pollFuture _ _
  | .insertPending _ _ => true
  | _ => s.waits

/-- The call has taken a ticket and has not yet looked at the waker word, or has taken `waker` from it. -/
def Call.willWake (waker : TaskWaker) : Call → Bool
  | .insertSlot _ _ | .loadWaker | .exchangeWaker _ => true
  | .wakeTask waker' => waker' == waker
  | _ => false

structure Armed (s : State) : Prop where
  notClosed : s.closed = false
  notPanicked : s.poller ≠ .panicked
  counted : s.awaitCounter = s.poller.counted
  waker : ∀ waker, s.poller = .loadClosed waker ∨ s.poller = .addWaker waker → waker = s.taskWaker
  loadedHead : ∀ header, s.poller = .loadTail header → s.wakeupFutures.head = header
  armed : s.listens = true → (∃ ptr, s.rawWaker = some (ptr, s.taskWaker)) ∨ s.woken = true ∨
    ∃ c, s.calls c = .wakeTask s.taskWaker
  queued : s.waits = true → s.wakeupFutures.head = s.wakeupFutures.tail ∨ s.woken = true ∨
    ∃ c, (s.calls c).willWake s.taskWaker = true

theorem armed_init : Armed {} := by
  constructor <;> simp [Poller.counted, State.listens, State.waits]

section Armed
variable {s s' : State} {c : Nat}

theorem waits_of_poller (hpoller : s'.poller = s.poller) (hlast : s'.last = s.last) : s'.waits = s.waits := by
  simp only [State.waits, hpoller, hlast]

theorem listens_of_poller (hpoller : s'.poller = s.poller) (hlast : s'.last = s.last) : s'.listens = s.listens := by
  simp only [State.listens, hpoller, waits_of_poller hpoller hlast]

theorem listens_of_waits (h : s.waits = true) : s.listens = true := by
  unfold State.waits at h
  unfold State.listens State.waits
  split at h <;> simp_all

/-- A step of a call: the poller and the head of the queue stay. What the call did for the waker of the poll it
    still does, or it woke the task, or another call has the waker. -/
theorem Armed.call (ha : Armed s) {call : Call} (hclosed : s'.closed = s.closed) (hpoller : s'.poller = s.poller)
    (hlast : s'.last = s.last) (hcounter : s'.awaitCounter = s.awaitCounter) (hwaker : s'.taskWaker = s.taskWaker)
    (hhead : s'.wakeupFutures.head = s.wakeupFutures.head) (hcalls : s'.calls = (s.setCall c call).calls)
    (hwoken : s.woken = true → s'.woken = true)
    (htail : s'.wakeupFutures.tail = s.wakeupFutures.tail ∨ call.willWake s.taskWaker = true)
    (hraw : ∀ ptr, s.rawWaker = some (ptr, s.taskWaker) →
      s'.rawWaker = some (ptr, s.taskWaker) ∨ call = .wakeTask s.taskWaker)
    (htask : s.calls c = .wakeTask s.taskWaker → s'.woken = true)
    (hwill : (s.calls c).willWake s.taskWaker = true → s.listens = true → s'.woken = true ∨
      call.willWake s.taskWaker = true ∨ ∃ d, d ≠ c ∧ s.calls d = .wakeTask s.taskWaker) : Armed s' := by
  have hself : s'.calls c = call := by rw [hcalls, setCall_self]
  have hother : ∀ d, d ≠ c → s'.calls d = s.calls d := fun d hd => by rw [hcalls, setCall_of_ne _ _ hd]
  refine ⟨hclosed.trans ha.notClosed, hpoller ▸ ha.notPanicked, by rw [hcounter, hpoller, ha.counted], ?_, ?_, ?_, ?_⟩
  · intro waker h
    rw [hwaker]
    exact ha.waker waker (hpoller ▸ h)
  · intro header h
    rw [hhead]
    exact ha.loadedHead header (hpoller ▸ h)
  · intro h
    rw [hwaker]
    rw [listens_of_poller hpoller hlast] at h
    rcases ha.armed h with ⟨ptr, hp⟩ | hw | ⟨d, hd⟩
    · rcases hraw ptr hp with hp' | hc
      · exact Or.inl ⟨ptr, hp'⟩
      · exact Or.inr (Or.inr ⟨c, hself.trans hc⟩)
    · exact Or.inr (Or.inl (hwoken hw))
    · rcases eq_or_ne d c with rfl | hdc
      · exact Or.inr (Or.inl (htask hd))
      · exact Or.inr (Or.inr ⟨d, (hother d hdc).trans hd⟩)
  · intro h
    rw [hwaker, hhead]
    rw [waits_of_poller hpoller hlast] at h
    rcases htail with htail | hcall
    · rw [htail]
      rcases ha.queued h with he | hw | ⟨d, hd⟩
      · exact Or.inl he
      · exact Or.inr (Or.inl (hwoken hw))
      · rcases eq_or_ne d c with rfl | hdc
        · rcases hwill hd (listens_of_waits h) with hw | hc | ⟨e, he, hcall⟩
          · exact Or.inr (Or.inl hw)
          · exact Or.inr (Or.inr ⟨d, by rw [hself]; exact hc⟩)
          · exact Or.inr (Or.inr ⟨e, by rw [hother e he, hcall]; simp [Call.willWake]⟩)
        · exact Or.inr (Or.inr ⟨d, by rw [hother d hdc]; exact hd⟩)
    · exact Or.inr (Or.inr ⟨c, by rw [hself]; exact hcall⟩)

/-- A call that does not have the waker and moves on without touching the waker word. -/
theorem Armed.setCall (ha : Armed s) {call : Call} (hc : ∀ w, s.calls c ≠ .wakeTask w)
    (hwill : (s.calls c).willWake s.taskWaker = true → s.listens = true → call.willWake s.taskWaker = true ∨
      s.woken = true ∨ ∃ d, s.calls d = .wakeTask s.taskWaker) : Armed (s.setCall c call) := by
  refine ha.call rfl rfl rfl rfl rfl rfl rfl id (Or.inl rfl) (fun _ h => Or.inl h) (fun h => absurd h (hc _)) fun h hl => ?_
  rcases hwill h hl with hw | hw | ⟨d, hd⟩
  · exact Or.inr (Or.inl hw)
  · exact Or.inl hw
  · exact Or.inr (Or.inr ⟨d, fun hdc => hc _ (hdc ▸ hd), hd⟩)

theorem Armed.callStep (ha : Armed s) {choice : Choice} (h : CallCases c choice s s') : Armed s' := by
  cases h with
  | stored hc =>
    refine ha.call rfl rfl rfl rfl rfl rfl rfl (fun h => h) (Or.inl rfl) (fun _ h => Or.inl h) ?_ ?_ <;>
      simp [hc, Call.willWake]
  | tookTicket hc =>
    exact ha.call rfl rfl rfl rfl rfl rfl rfl (fun h => h) (Or.inr rfl) (fun _ h => Or.inl h) (by simp [hc])
      fun _ _ => Or.inr (Or.inl rfl)
  | filledSlot hc =>
    exact ha.call rfl rfl rfl rfl rfl rfl rfl (fun h => h) (Or.inl rfl) (fun _ h => Or.inl h) (by simp [hc])
      fun _ _ => Or.inr (Or.inl rfl)
  | noWaker hc hraw =>
    -- Without a waker in the word, another call has it or has used it.
    refine ha.setCall (by simp [hc]) fun _ hl => Or.inr ?_
    rcases ha.armed hl with ⟨ptr, hp⟩ | hw | hd
    · rw [hraw] at hp
      cases hp
    · exact Or.inl hw
    · exact Or.inr hd
  | foundWaker hc | lostExchange hc => exact ha.setCall (by simp [hc]) fun _ _ => Or.inl rfl
  | tookWaker hc hraw =>
    refine ha.call rfl rfl rfl rfl rfl rfl rfl (fun h => h) (Or.inl rfl) (fun ptr' h => Or.inr ?_) (by simp [hc])
      fun _ hl => ?_
    · rw [hraw] at h
      cases h
      rfl
    · rcases ha.armed hl with ⟨ptr', hp⟩ | hw | ⟨d, hd⟩
      · rw [hraw] at hp
        cases hp
        exact Or.inr (Or.inl (by simp [Call.willWake]))
      · exact Or.inl hw
      · have hdc : d ≠ c := by
          rintro rfl
          rw [hc] at hd
          cases hd
        exact Or.inr (Or.inr ⟨d, hdc, hd⟩)
  | @woke waker hc =>
    have hset : waker = s.taskWaker → (s.woken || waker == s.taskWaker) = true := by
      rintro rfl
      simp
    refine ha.call rfl rfl rfl rfl rfl rfl rfl (fun h => Bool.or_eq_true_iff.mpr (Or.inl h)) (Or.inl rfl)
      (fun _ h => Or.inl h) (fun h => ?_) fun h _ => Or.inl ?_
    · rw [hc] at h
      exact hset (Call.wakeTask.inj h)
    · rw [hc] at h
      exact hset (by simpa [Call.willWake] using h)

/-- A step of the poller that leaves the waker word and the calls. -/
theorem Armed.poller (ha : Armed s) (hclosed : s'.closed = s.closed) (hraw : s'.rawWaker = s.rawWaker)
    (hcalls : s'.calls = s.calls) (hwaker : s'.taskWaker = s.taskWaker) (hwoken : s'.woken = s.woken)
    (hpanic : s'.poller ≠ .panicked) (hcounted : s'.awaitCounter = s'.poller.counted)
    (hadd : ∀ waker, s'.poller = .loadClosed waker ∨ s'.poller = .addWaker waker → s.poller = .loadClosed waker)
    (hhead : ∀ header, s'.poller = .loadTail header → s'.wakeupFutures.head = header)
    (hlisten : s'.listens = true → s.listens = true)
    (hwait : s'.waits = true → s'.wakeupFutures = s.wakeupFutures ∧
      (s.waits = true ∨ s.wakeupFutures.head = s.wakeupFutures.tail)) : Armed s' where
  notClosed := hclosed.trans ha.notClosed
  notPanicked := hpanic
  counted := hcounted
  waker w h := by
    rw [hwaker]
    exact ha.waker w (Or.inl (hadd w h))
  loadedHead := hhead
  armed h := by
    rw [hraw, hwaker, hwoken, hcalls]
    exact ha.armed (hlisten h)
  queued h := by
    obtain ⟨hq, hw⟩ := hwait h
    rw [hq, hwaker, hwoken, hcalls]
    rcases hw with hw | he
    · exact ha.queued hw
    · exact Or.inl he

theorem Armed.pollStep (ha : Armed s) {choice : Choice} (h : PollCases choice s s') : Armed s' := by
  have hcount := ha.counted
  cases h with
  | foundClosed _ hclosed =>
    rw [ha.notClosed] at hclosed
    cases hclosed
  | panicked hp hne =>
    rcases hp with ⟨fut, hp⟩ | hp
    · exact absurd (by rw [hcount, hp]; rfl) hne
    · exact absurd (by rw [hcount, hp]; rfl) hne
  | began hp =>
    refine ha.poller rfl rfl rfl rfl rfl nofun (by rw [hcount, hp]; rfl) ?_ nofun nofun nofun
    rintro w (h | h) <;> cases h
    exact hp
  | @addedWaker waker hp =>
    -- From here on the waker word holds the waker of this poll.
    have hw := ha.waker waker (Or.inr hp)
    exact ⟨ha.notClosed, nofun, by rw [hcount, hp]; rfl, nofun, nofun, fun _ => Or.inl ⟨choice.addr, by rw [hw]⟩, nofun⟩
  | loadedHead hp =>
    refine ha.poller rfl rfl rfl rfl rfl nofun (by rw [hcount, hp]; rfl) nofun ?_ (fun _ => by simp [State.listens, hp]) nofun
    intro header h
    exact Poller.loadTail.inj h
  | @foundEmpty header hp hempty =>
    refine ha.poller rfl rfl rfl rfl rfl nofun (by rw [hcount, hp]; rfl) nofun nofun (fun _ => by simp [State.listens, hp]) ?_
    exact fun _ => ⟨rfl, Or.inr ((ha.loadedHead header hp).trans hempty)⟩
  | foundTicket hp | lostClaim hp | claimed hp | emptiedSlot hp | stillOpen hp | notThere hp | tookFuture hp | notReady hp
  | putBack hp =>
    exact ha.poller rfl rfl rfl rfl rfl nofun (by rw [hcount, hp]; rfl) nofun nofun
      (fun _ => by simp [State.listens, hp]) nofun
  | ready hp | noWaker hp | foundWaker hp | lostExchange hp =>
    exact ha.poller rfl rfl rfl rfl rfl nofun (by rw [hcount, hp]; rfl) nofun nofun nofun nofun
  | tookWaker hp => exact ⟨ha.notClosed, nofun, by rw [hcount, hp]; rfl, nofun, nofun, nofun, nofun⟩
  | leftReady hp => exact ha.poller rfl rfl rfl rfl rfl nofun rfl nofun nofun nofun nofun
  | leftPending hp =>
    exact ha.poller rfl rfl rfl rfl rfl nofun rfl nofun nofun (fun _ => by simp [State.listens, State.waits, hp])
      fun _ => ⟨rfl, Or.inl (by simp [State.waits, hp])⟩
  | returnedPending hp =>
    exact ha.poller rfl rfl rfl rfl rfl nofun (by rw [hcount, hp]; rfl) nofun nofun
      (fun _ => by simp [State.listens, State.waits, hp]) fun _ => ⟨rfl, Or.inl (by simp [State.waits, hp])⟩

theorem Armed.step (ha : Armed s) {a : Action} (hok : notClose s a = true) (h : step s a = some s') : Armed s' := by
  cases a with
  | push c =>
    simp only [Batching.step, Option.ite_none_right_eq_some, Option.some.injEq] at h
    obtain ⟨hc, rfl⟩ := h
    refine ha.call rfl rfl rfl rfl rfl rfl rfl (fun h => h) (Or.inl rfl) (fun _ h => Or.inl h) ?_ ?_ <;>
      simp [hc, Call.willWake]
  | wake c id =>
    simp only [Batching.step, Option.ite_none_right_eq_some, Option.some.injEq] at h
    obtain ⟨⟨hc, -⟩, rfl⟩ := h
    refine ha.setCall ?_ ?_ <;> simp [hc, Call.willWake]
  | close c => cases hok
  | call c choice => exact ha.callStep (call_cases h)
  | poll waker =>
    simp only [Batching.step, Option.ite_none_right_eq_some, Option.some.injEq] at h
    obtain ⟨hp, rfl⟩ := h
    have hzero : s.awaitCounter = 0 := by rw [ha.counted, hp]; rfl
    refine ⟨ha.notClosed, ?_, ?_, ?_, ?_, ?_, ?_⟩ <;> simp [hzero, Poller.counted, State.listens, State.waits]
  | next choice => exact ha.pollStep (poll_cases h)

end Armed

/-- On a batcher that is not closed, in every reachable state: no output was returned twice and no finished
    future is being polled; a pushed future that is neither finished nor with the poller is in the map; and when
    the last poll returned `Pending`, the queue is not empty and no call is midway, the task was woken. -/
theorem batcher_safe (s : State) (h : Reaches step (fun s a => notClose s a = true) {} s) :
    (s.returned.Nodup ∧ ∀ id fut, s.poller = .pollFuture id fut → fut ∉ s.finished) ∧
    (∀ fut id, s.pushed fut = some id → fut ∉ s.finished → s.poller.holds ≠ some (id, fut) →
      s.pendingFutures id = some fut) ∧
    (s.poller = .idle → s.last = some .pending → s.wakeupFutures.head ≠ s.wakeupFutures.tail →
      (∀ c, (s.calls c).midway = false) → s.woken = true) := by
  have ho : Owned s := h.invariant owned_init fun ho _ hs => ho.step hs
  have ha : Armed s := h.invariant armed_init fun ha hok hs => ha.step hok hs
  refine ⟨⟨ho.returned_nodup, ?_⟩, ho.kept, ?_⟩
  · intro id fut hp
    exact (ho.held id fut (by rw [hp]; rfl)).2.1
  · intro hp hlast hqueue hcalls
    rcases ha.queued (by simp [State.waits, hp, hlast]) with he | hw | ⟨c, hc⟩
    · exact absurd he hqueue
    · exact hw
    · have := hcalls c
      cases hcall : s.calls c <;> simp_all [Call.midway, Call.willWake]

/-- Call 0 pushes a future; a poll finds it pending; call 1 wakes it. -/
def wakeAfterPending : List Action :=
  [.push 0] ++ List.replicate 4 (.call 0 {}) ++ [.poll 5] ++ List.replicate 14 (.next {}) ++
    [.wake 1 0] ++ List.replicate 5 (.call 1 {})

theorem batcher_safe_wake :
    ∃ s, runIf step notClose {} wakeAfterPending = some s ∧ s.last = some .pending ∧
      s.wakeupFutures.head ≠ s.wakeupFutures.tail ∧ s.woken = true := by
  refine ⟨_, rfl, rfl, by decide, (batcher_safe _ (.of_runIf wakeAfterPending (fun _ _ h => h) rfl)).2.2 rfl rfl (by decide) ?_⟩
  intro c
  match c with
  | 0 => rfl
  | 1 => rfl
  | n + 2 => rfl

end Hala.Batching
