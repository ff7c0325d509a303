import Hala.Lib.Tally
import Hala.Lib.Tasks
import Hala.Rproxy.Rproxy
import Mathlib.Data.Nat.Cast.Order.Basic

/-! The reverse proxy in every run: its statistics count the sessions, a closing is given to one call at most, and a call
that waits for its session is woken when the session is closed. -/

namespace Hala.Proxy
open Machine
variable {ε : Type} {s s' : Rproxy ε} {i : Nat} {task task' : Handshake ε}

/-- No more than this many calls were counted, or closed, when the call has read a counter. -/
def Stats.Within (opened closed : Nat) : Stats → Prop
  | .idle => True
  | .loadClosed actived => actived.toNat ≤ opened
  | .returned actived closed' => actived.toNat ≤ opened ∧ closed'.toNat ≤ closed

theorem Stats.Within.mono {opened closed opened' closed' : Nat} {stats : Stats} (h : stats.Within opened closed)
    (hopened : opened ≤ opened') (hclosed : closed ≤ closed') : stats.Within opened' closed' := by
  cases stats with
  | idle => trivial
  | loadClosed actived => exact Nat.le_trans h hopened
  | returned actived closed => exact ⟨Nat.le_trans h.1 hopened, Nat.le_trans h.2 hclosed⟩

namespace Rproxy

/-! ### The counters -/

structure Inv (s : Rproxy ε) : Prop where
  idle : ∀ i, s.spawned ≤ i → s.tasks i = .idle
  conns : s.conns = (s.count Handshake.active : BitVec 64)
  closed : s.closedConns = (s.count Handshake.hasClosed : BitVec 64)
  stats : ∀ j, (s.stats j).Within (s.count Handshake.opened) (s.count Handshake.hasClosed)

theorem Inv.lt_spawned (h : Inv s) (htask : s.tasks i = task) (hidle : task ≠ .idle) : i < s.spawned := by
  by_contra hge
  exact hidle (htask ▸ h.idle i (Nat.le_of_not_lt hge))

/-- A call that moves changes what is counted by what it was and what it is. -/
theorem Inv.count_moved (h : Inv s) (htask : s.tasks i = task) (hidle : task ≠ .idle) (hspawned : s'.spawned = s.spawned)
    (htasks : s'.tasks = Function.update s.tasks i task') (is : Handshake ε → Bool) :
    s'.count is + (is task).toNat = s.count is + (is task').toNat := by
  have := Tally.card_update s.tasks task' is (Finset.mem_range.mpr (h.lt_spawned htask hidle))
  rw [htask] at this
  rw [count, count, hspawned, htasks]
  exact this

theorem cast_moved {c c' : BitVec 64} {n n' : Nat} {b b' : Bool} (hn : n' + b.toNat = n + b'.toNat) (hc : c = (n : BitVec 64))
    (hc' : c' = c - (b.toNat : BitVec 64) + (b'.toNat : BitVec 64)) : c' = (n' : BitVec 64) := by
  have hcast : (n' : BitVec 64) + (b.toNat : BitVec 64) = (n : BitVec 64) + (b'.toNat : BitVec 64) := by
    rw [← Nat.cast_add, hn, Nat.cast_add]
  rw [hc', hc, sub_add_eq_add_sub, ← hcast, add_sub_cancel_right]

theorem active_le_opened (task : Handshake ε) : task.active = true → task.opened = true := by
  cases task with
  | dropped session => cases session <;> simp [Handshake.active, Handshake.opened]
  | _ => simp [Handshake.active, Handshake.opened]

theorem count_mono {is is' : Handshake ε → Bool} (h : ∀ task, is task = true → is' task = true) : s.count is ≤ s.count is' :=
  Finset.card_le_card (Finset.monotone_filter_right _ fun _ _ hi => h _ hi)

theorem toNat_cast_le (n : Nat) : ((n : BitVec 64)).toNat ≤ n := by
  rw [BitVec.natCast_eq_ofNat, BitVec.toNat_ofNat]
  exact Nat.mod_le _ _

/-- Call `i` has moved on: what it counts for, the counters have been changed by. -/
theorem Inv.moved (h : Inv s) (htask : s.tasks i = task) (hidle : task ≠ .idle) (hspawned : s'.spawned = s.spawned)
    (htasks : s'.tasks = Function.update s.tasks i task') (hstats : s'.stats = s.stats)
    (hconns : s'.conns = s.conns - (task.active.toNat : BitVec 64) + (task'.active.toNat : BitVec 64))
    (hclosed : s'.closedConns = s.closedConns - (task.hasClosed.toNat : BitVec 64) + (task'.hasClosed.toNat : BitVec 64))
    (hopened : task.opened = true → task'.opened = true) (hleft : task.hasClosed = false) : Inv s' where
  idle j hj := by
    rw [hspawned] at hj
    rw [htasks, Function.update_of_ne, h.idle j hj]
    exact (Nat.lt_of_lt_of_le (h.lt_spawned htask hidle) hj).ne'
  conns := cast_moved (h.count_moved htask hidle hspawned htasks _) h.conns hconns
  closed := cast_moved (h.count_moved htask hidle hspawned htasks _) h.closed hclosed
  stats j := by
    have hopen := h.count_moved htask hidle hspawned htasks Handshake.opened
    have hclose := h.count_moved htask hidle hspawned htasks Handshake.hasClosed
    have hle : s.count Handshake.opened ≤ s'.count Handshake.opened := by
      cases ho : task.opened with
      | false => simp [ho] at hopen; omega
      | true => simp [ho, hopened ho] at hopen; omega
    have hle' : s.count Handshake.hasClosed ≤ s'.count Handshake.hasClosed := by
      simp [hleft] at hclose
      omega
    rw [hstats]
    exact (h.stats j).mono hle hle'

/-- What the counters and the calls are like is not changed. -/
theorem Inv.keep (h : Inv s) (hspawned : s'.spawned = s.spawned) (htasks : s'.tasks = s.tasks) (hstats : s'.stats = s.stats)
    (hconns : s'.conns = s.conns) (hclosed : s'.closedConns = s.closedConns) : Inv s' := by
  have hcount : ∀ is, s'.count is = s.count is := by
    intro is
    rw [count, count, hspawned, htasks]
  constructor
  · rw [hspawned, htasks]
    exact h.idle
  · rw [hcount, hconns, h.conns]
  · rw [hcount, hclosed, h.closed]
  · rw [hstats, hcount, hcount]
    exact h.stats

theorem inv_init : Inv ({} : Rproxy ε) where
  idle _ _ := rfl
  conns := rfl
  closed := rfl
  stats _ := trivial

theorem Inv.wake (h : Inv s) (waker : Option Nat) : Inv (s.wake waker) := by
  cases waker with
  | none => exact h
  | some i => exact h.keep rfl rfl rfl rfl rfl

theorem Inv.spawn (h : Inv s) :
    Inv ({ s with spawned := s.spawned + 1 }.setTask s.spawned .handshake) := by
  have hcount : ∀ is : Handshake ε → Bool, is .handshake = false →
      ({ s with spawned := s.spawned + 1 }.setTask s.spawned .handshake).count is = s.count is := by
    intro is his
    have := Tally.card_update_succ s.tasks .handshake is s.spawned
    rw [his] at this
    exact this
  constructor
  · intro j hj
    have hj' : s.spawned + 1 ≤ j := hj
    simp only [setTask]
    rw [Function.update_of_ne (by omega), h.idle j (by omega)]
  · rw [hcount _ rfl]
    exact h.conns
  · rw [hcount _ rfl]
    exact h.closed
  · rw [hcount _ rfl, hcount _ rfl]
    exact h.stats

theorem Inv.taskStep (h : Inv s) (hs : s.taskStep i (s.tasks i) = some s') : Inv s' := by
  cases htask : s.tasks i with
  | addConn session =>
    rw [htask] at hs
    cases hs
    exact h.moved htask nofun rfl rfl rfl (by simp [setTask, Handshake.active]) (by simp [setTask, Handshake.hasClosed])
      nofun rfl
  | poll session =>
    simp only [htask, Rproxy.taskStep] at hs
    split at hs
    · cases hs
      exact h.moved htask nofun rfl rfl rfl (by simp [setTask, setSession, Handshake.active])
        (by simp [setTask, setSession, Handshake.hasClosed]) (fun _ => rfl) rfl
    · cases hs
      exact h.moved htask nofun rfl rfl rfl (by simp [setTask, setSession, Handshake.active])
        (by simp [setTask, setSession, Handshake.hasClosed]) (fun _ => rfl) rfl
  | pending session =>
    rw [htask] at hs
    cases hs
    exact h.moved htask nofun rfl rfl rfl (by simp [setTask, Handshake.active]) (by simp [setTask, Handshake.hasClosed])
      (fun _ => rfl) rfl
  | subConn session r =>
    rw [htask] at hs
    cases hs
    exact h.moved htask nofun rfl rfl rfl (by simp [setTask, Handshake.active]) (by simp [setTask, Handshake.hasClosed])
      (fun _ => rfl) rfl
  | addClosed session r =>
    rw [htask] at hs
    cases hs
    exact h.moved htask nofun rfl rfl rfl (by simp [setTask, Handshake.active]) (by simp [setTask, Handshake.hasClosed])
      (fun _ => rfl) rfl
  | _ =>
    rw [htask] at hs
    cases hs

theorem Inv.dropTask (h : Inv s) (hs : s.dropTask i (s.tasks i) = some s') : Inv s' := by
  cases htask : s.tasks i with
  | handshake =>
    rw [htask] at hs
    cases hs
    exact h.moved htask nofun rfl rfl rfl (by simp [setTask, Handshake.active]) (by simp [setTask, Handshake.hasClosed])
      nofun rfl
  | pending session =>
    rw [htask] at hs
    cases hs
    exact h.moved htask nofun rfl rfl rfl (by simp [setTask, Handshake.active]) (by simp [setTask, Handshake.hasClosed])
      (fun _ => rfl) rfl
  | _ =>
    rw [htask] at hs
    cases hs

theorem Inv.statsStep {j : Nat} (h : Inv s) (hs : s.statsStep j (s.stats j) = some s') : Inv s' := by
  have hactive : s.conns.toNat ≤ s.count Handshake.opened := by
    rw [h.conns]
    exact (toNat_cast_le _).trans (count_mono active_le_opened)
  have hclosed : s.closedConns.toNat ≤ s.count Handshake.hasClosed := by
    rw [h.closed]
    exact toNat_cast_le _
  have hj := h.stats j
  -- The call goes on, and the calls of `handshake` stay as they are.
  have hnext : ∀ stats : Stats, stats.Within (s.count Handshake.opened) (s.count Handshake.hasClosed) →
      Inv { s with stats := Function.update s.stats j stats } := by
    intro stats hwithin
    refine { h with stats := fun k => ?_ }
    change (Function.update s.stats j stats k).Within (s.count _) (s.count _)
    rcases eq_or_ne k j with rfl | hne
    · rw [Function.update_self]
      exact hwithin
    · rw [Function.update_of_ne hne]
      exact h.stats k
  cases hstats : s.stats j with
  | idle =>
    rw [hstats] at hs
    cases hs
    exact hnext _ hactive
  | loadClosed actived =>
    have hj := h.stats j
    rw [hstats] at hs hj
    cases hs
    exact hnext _ ⟨hj, hclosed⟩
  | returned actived closed =>
    rw [hstats] at hs
    cases hs

theorem inv_step {action : RproxyAction ε} (h : Inv s) (hs : step s action = some s') : Inv s' := by
  cases action with
  | accept =>
    obtain ⟨-, hs⟩ := Option.ite_none_right_eq_some.mp hs
    cases hs
    exact h.spawn
  | stop =>
    obtain ⟨-, hs⟩ := Option.ite_none_right_eq_some.mp hs
    cases hs
    exact h.keep rfl rfl rfl rfl rfl
  | handshaken i result =>
    simp only [step] at hs
    split at hs
    case h_3 => cases hs
    all_goals
      rename_i htask
      cases hs
      exact h.moved htask nofun rfl rfl rfl (by simp [setTask, Handshake.active])
        (by simp [setTask, Handshake.hasClosed]) nofun rfl
  | task i => exact h.taskStep hs
  | drop i => exact h.dropTask hs
  | closedWith session r =>
    cases hs
    exact (h.keep rfl rfl rfl rfl rfl : Inv (s.setSession session _)).wake _
  | stats j => exact h.statsStep hs

theorem Inv.of_reachable (h : Reachable step {} s) : Inv s := h.invariant inv_init fun h _ => inv_step h

/-- Every call that was counted is active, has just left, or is among the closed ones. -/
theorem count_opened (s : Rproxy ε) :
    s.count Handshake.opened = s.count Handshake.active + s.count Handshake.leaving + s.count Handshake.hasClosed := by
  simp only [count, Finset.card_filter, ← Finset.sum_add_distrib]
  refine Finset.sum_congr rfl fun i _ => ?_
  cases s.tasks i with
  | dropped session => cases session <;> rfl
  | _ => rfl

/-- The statistics in every run, with any number of inbound connections: `conns` is the number of the calls of `handshake`
    that are in their session or were dropped in it, and `closed_conns` that of the calls whose session was closed; every call
    whose handshake succeeded is in one of them, except between its two updates. What `stats` has returned is never more than
    the sessions that there were, and the sessions that were closed. -/
theorem stats_count (h : Reachable step {} s) :
    s.conns = (s.count Handshake.active : BitVec 64) ∧ s.closedConns = (s.count Handshake.hasClosed : BitVec 64) ∧
    s.count Handshake.opened = s.count Handshake.active + s.count Handshake.leaving + s.count Handshake.hasClosed ∧
    ∀ j actived closed, s.stats j = .returned actived closed →
      actived.toNat ≤ s.count Handshake.opened ∧ closed.toNat ≤ s.count Handshake.hasClosed := by
  have hinv := Inv.of_reachable h
  refine ⟨hinv.conns, hinv.closed, s.count_opened, ?_⟩
  intro j actived closed hstats
  have := hinv.stats j
  rwa [hstats] at this

/-- Two inbound connections: the session of the first is closed while its call waits, and the call of the second is dropped.
    Then `stats` is called. -/
def served : List (RproxyAction String) :=
  [.accept, .accept, .handshaken 0 (.ok 0), .task 0, .task 0, .handshaken 1 (.ok 1), .task 1, .task 1, .closedWith 0 (.ok ()),
    .task 0, .task 0, .task 0, .task 0, .drop 1, .stats 0, .stats 0]

theorem served_stats : ∃ s, run step {} served = some s ∧ s.stats 0 = .returned 1 1 ∧
    s.conns = (s.count Handshake.active : BitVec 64) ∧ s.closedConns = (s.count Handshake.hasClosed : BitVec 64) := by
  refine ⟨_, rfl, rfl, ?_⟩
  have h := stats_count (Reachable.of_run served rfl)
  exact ⟨h.1, h.2.1⟩

/-! ### The results -/

section Delivered
variable {session : Nat} {p : Except ε Unit → Bool} {past : List (Except ε Unit)}

/-- The calls to which the session has given a result that meets `p`, and the one that it still has, are no more than the
    closings with such a result. -/
def Delivered (session : Nat) (p : Except ε Unit → Bool) (s : Rproxy ε) (past : List (Except ε Unit)) : Prop :=
  s.count (Handshake.delivered session p) + ((s.sessions session).closed.any p).toNat ≤ past.countP p

theorem Delivered.moved (hd : Delivered session p s past) (h : Inv s) (htask : s.tasks i = task) (hidle : task ≠ .idle)
    (hspawned : s'.spawned = s.spawned) (htasks : s'.tasks = Function.update s.tasks i task')
    (hgiven : (task'.delivered session p).toNat + ((s'.sessions session).closed.any p).toNat ≤
      (task.delivered session p).toNat + ((s.sessions session).closed.any p).toNat) : Delivered session p s' past := by
  have := h.count_moved htask hidle hspawned htasks (Handshake.delivered session p)
  rw [Delivered] at hd ⊢
  omega

theorem Delivered.keep (hd : Delivered session p s past) (hspawned : s'.spawned = s.spawned) (htasks : s'.tasks = s.tasks)
    (hsessions : s'.sessions = s.sessions) : Delivered session p s' past := by
  rw [Delivered, count, hspawned, htasks, hsessions]
  exact hd

theorem Delivered.wake (hd : Delivered session p s past) (waker : Option Nat) : Delivered session p (s.wake waker) past := by
  cases waker with
  | none => exact hd
  | some i => exact hd.keep rfl rfl rfl

/-- A poll takes the result out of the session that it has given. -/
theorem given_by_poll (session : Nat) (p : Except ε Unit → Bool) {session' waker : Nat} {flag : SessionFlag ε}
    {r : Option (Except ε Unit)} (hpoll : (s.sessions session').poll waker = (flag, r)) :
    (match r with | some r => session' == session && p r | none => false).toNat +
        (((Function.update s.sessions session' flag) session).closed.any p).toNat =
      ((s.sessions session).closed.any p).toNat := by
  cases hclosed : (s.sessions session').closed with
  | none =>
    simp only [SessionFlag.poll, hclosed, Prod.mk.injEq] at hpoll
    obtain ⟨rfl, rfl⟩ := hpoll
    rcases eq_or_ne session session' with rfl | hne
    · simp [hclosed]
    · simp [Function.update_of_ne hne]
  | some r' =>
    simp only [SessionFlag.poll, hclosed, Prod.mk.injEq] at hpoll
    obtain ⟨rfl, rfl⟩ := hpoll
    rcases eq_or_ne session session' with rfl | hne
    · simp [hclosed]
    · simp [Function.update_of_ne hne, hne.symm]

theorem Delivered.taskStep (hd : Delivered session p s past) (h : Inv s) (hs : s.taskStep i (s.tasks i) = some s') :
    Delivered session p s' past := by
  cases htask : s.tasks i with
  | poll session' =>
    simp only [htask, Rproxy.taskStep] at hs
    split at hs
    all_goals
      rename_i hpoll
      have hgiven := given_by_poll session p hpoll
      cases hs
      refine hd.moved h htask nofun rfl rfl ?_
      simp only [setTask, setSession, Handshake.delivered]
      simp only [Bool.toNat_false, Nat.zero_add] at hgiven ⊢
      omega
  | _ =>
    rw [htask] at hs
    cases hs
    all_goals exact hd.moved h htask nofun rfl rfl (Nat.le_refl _)

theorem Delivered.step {action : RproxyAction ε} (hd : Delivered session p s past) (h : Inv s)
    (hs : step s action = some s') : Delivered session p s' ((closings session action).reverse ++ past) := by
  cases action with
  | accept =>
    obtain ⟨-, hs⟩ := Option.ite_none_right_eq_some.mp hs
    cases hs
    have := Tally.card_update_succ s.tasks .handshake (Handshake.delivered session p) s.spawned
    rw [Delivered] at hd ⊢
    exact (Nat.add_le_add_right this.le _).trans hd
  | stop =>
    obtain ⟨-, hs⟩ := Option.ite_none_right_eq_some.mp hs
    cases hs
    exact hd
  | handshaken i result =>
    simp only [Rproxy.step] at hs
    split at hs
    case h_3 => cases hs
    all_goals
      rename_i htask
      cases hs
      exact hd.moved h htask nofun rfl rfl (Nat.le_refl _)
  | task i => exact hd.taskStep h hs
  | drop i =>
    simp only [Rproxy.step] at hs
    cases htask : s.tasks i with
    | handshake | pending session' =>
      rw [htask] at hs
      cases hs
      exact hd.moved h htask nofun rfl rfl (Nat.le_refl _)
    | _ =>
      rw [htask] at hs
      cases hs
  | closedWith session' r =>
    cases hs
    refine Delivered.wake ?_ _
    change s.count _ + ((Function.update s.sessions session' { closed := some r } session).closed.any p).toNat ≤ _
    rw [Delivered] at hd
    rcases eq_or_ne session session' with rfl | hne
    · rw [Function.update_self, closings, if_pos rfl, List.reverse_singleton, List.singleton_append, List.countP_cons]
      cases hp : p r <;> simp [hp] <;> omega
    · rw [Function.update_of_ne hne, closings, if_neg hne.symm]
      exact hd
  | stats j =>
    simp only [Rproxy.step] at hs
    cases hstats : s.stats j with
    | idle | loadClosed actived =>
      rw [hstats] at hs
      cases hs
      exact hd
    | returned actived closed =>
      rw [hstats] at hs
      cases hs

end Delivered

/-- In every run, and for every kind of result: the calls of `handshake` to which a session gives such a result, together
    with the result that it keeps, are no more than the calls of `closed_with` with such a result. However many clones of the
    session are awaited, what it is closed with is returned once at most. -/
theorem closed_once (session : Nat) (p : Except ε Unit → Bool) {t : Rproxy ε × List (Except ε Unit)}
    (h : Reachable (traced step fun _ => closings session) ({}, []) t) :
    t.1.count (Handshake.delivered session p) + ((t.1.sessions session).closed.any p).toNat ≤ t.2.countP p := by
  let Both (s : Rproxy ε) (past : List (Except ε Unit)) := Inv s ∧ Delivered session p s past
  have hinit : Both {} [] := ⟨inv_init, by simp [Delivered, count]⟩
  have hboth : Both t.1 t.2 := h.traced_invariant hinit fun h _ hs => ⟨inv_step h.1 hs, h.2.step h.1 hs⟩
  exact hboth.2

/-- A session is closed twice while two calls await clones of it, and each of them has one of the results. -/
def cloned : List (RproxyAction String) :=
  [.accept, .accept, .handshaken 0 (.ok 0), .handshaken 1 (.ok 0), .task 0, .closedWith 0 (.error "reset"), .task 0, .task 1,
    .closedWith 0 (.ok ()), .task 1]

theorem cloned_closed_once : ∃ t : Rproxy String × List (Except String Unit),
    run (traced step fun _ => closings 0) ({}, []) cloned = some t ∧
    t.1.tasks 0 = .subConn 0 (.error "reset") ∧ t.1.tasks 1 = .subConn 0 (.ok ()) ∧
    t.1.count (Handshake.delivered 0 fun _ => true) + ((t.1.sessions 0).closed.any fun _ => true).toNat ≤
      t.2.countP fun _ => true :=
  ⟨_, rfl, rfl, rfl, closed_once 0 _ (Reachable.of_run cloned rfl)⟩

/-! ### The waiting calls -/

/-- No two calls have the same session, and one that waits for its session has been woken, or the session is open and has
    its waker. -/
structure Waits (s : Rproxy ε) : Prop where
  own : ∀ i j session, (s.tasks i).session? = some session → (s.tasks j).session? = some session → i = j
  pending : ∀ i session, s.tasks i = .pending session →
    s.woken i = true ∨ (s.sessions session).closed = none ∧ (s.sessions session).waker = some i

theorem waits_init : Waits ({} : Rproxy ε) where
  own _ _ _ h := by cases h
  pending _ _ h := by cases h

/-- Call `i` has moved on, and what the others wait for is as it was. -/
theorem Waits.moved (h : Waits s) (htasks : s'.tasks = Function.update s.tasks i task')
    (hown : ∀ session, task'.session? = some session → ∀ j, j ≠ i → (s.tasks j).session? ≠ some session)
    (hothers : ∀ j, j ≠ i → s'.woken j = s.woken j)
    (hsessions : ∀ session, (∃ j, j ≠ i ∧ s.tasks j = .pending session) → s'.sessions session = s.sessions session)
    (hpending : ∀ session, task' = .pending session →
      s'.woken i = true ∨ (s'.sessions session).closed = none ∧ (s'.sessions session).waker = some i) : Waits s' where
  own j k session hj hk := by
    rw [htasks] at hj hk
    rcases eq_or_ne j i with rfl | hji
    · rw [Function.update_self] at hj
      rcases eq_or_ne k j with rfl | hkj
      · rfl
      · rw [Function.update_of_ne hkj] at hk
        exact absurd hk (hown session hj k hkj)
    · rw [Function.update_of_ne hji] at hj
      rcases eq_or_ne k i with rfl | hki
      · rw [Function.update_self] at hk
        exact absurd hj (hown session hk j hji)
      · rw [Function.update_of_ne hki] at hk
        exact h.own j k session hj hk
  pending j session hj := by
    rw [htasks] at hj
    rcases Tasks.update_cases hj with ⟨rfl, htask'⟩ | ⟨hji, hj⟩
    · exact hpending session htask'
    · rw [hothers j hji, hsessions session ⟨j, hji, hj⟩]
      exact h.pending j session hj

/-- A call that goes on with its session, and changes nothing else. -/
theorem Waits.go (h : Waits s) (htasks : s'.tasks = Function.update s.tasks i task') (hwoken : s'.woken = s.woken)
    (hsessions : s'.sessions = s.sessions) (hsession : ∀ session, task'.session? = some session →
      (s.tasks i).session? = some session) (hpending : ∀ session, task' ≠ .pending session) : Waits s' := by
  refine h.moved htasks ?_ (fun j _ => by rw [hwoken]) (fun session _ => by rw [hsessions]) ?_
  · intro session htask' j hji hj
    exact hji (h.own j i session hj (hsession session htask'))
  · intro session htask'
    exact absurd htask' (hpending session)

theorem Waits.keep (h : Waits s) (htasks : s'.tasks = s.tasks) (hwoken : s'.woken = s.woken)
    (hsessions : s'.sessions = s.sessions) : Waits s' where
  own := by
    rw [htasks]
    exact h.own
  pending := by
    rw [htasks, hwoken, hsessions]
    exact h.pending

theorem Waits.taskStep (h : Waits s) (hs : s.taskStep i (s.tasks i) = some s') : Waits s' := by
  cases htask : s.tasks i with
  | poll session =>
    have halone : ∀ j, j ≠ i → s.tasks j ≠ .pending session := by
      intro j hji hj
      exact hji (h.own j i session (by rw [hj]; rfl) (by rw [htask]; rfl))
    have hrest : ∀ flag session', (∃ j, j ≠ i ∧ s.tasks j = .pending session') →
        Function.update s.sessions session flag session' = s.sessions session' := by
      rintro flag session' ⟨j, hji, hj⟩
      rw [Function.update_of_ne]
      rintro rfl
      exact halone j hji hj
    have hown : ∀ session', some session = some session' → ∀ j, j ≠ i → (s.tasks j).session? ≠ some session' := by
      intro session' heq j hji hj
      cases heq
      exact hji (h.own j i session hj (by rw [htask]; rfl))
    cases hclosed : (s.sessions session).closed with
    | some r =>
      simp only [htask, Rproxy.taskStep, SessionFlag.poll, hclosed] at hs
      cases hs
      exact h.moved rfl hown (fun _ _ => rfl) (hrest _) nofun
    | none =>
      simp only [htask, Rproxy.taskStep, SessionFlag.poll, hclosed] at hs
      cases hs
      refine h.moved rfl hown (fun j hji => ?_) (hrest _) fun session' heq => .inr ?_
      · simp [setTask, setSession, Function.update_of_ne hji]
      · cases heq
        simp [setTask, setSession]
  | _ =>
    rw [htask] at hs
    cases hs
    all_goals exact h.go rfl rfl rfl (by rw [htask]; exact fun _ heq => heq) nofun

theorem wake_tasks (s : Rproxy ε) (waker : Option Nat) : (s.wake waker).tasks = s.tasks := by
  cases waker <;> rfl

theorem wake_sessions (s : Rproxy ε) (waker : Option Nat) : (s.wake waker).sessions = s.sessions := by
  cases waker <;> rfl

theorem wake_woken {waker : Option Nat} (h : s.woken i = true) : (s.wake waker).woken i = true := by
  cases waker with
  | none => exact h
  | some j =>
    rcases eq_or_ne i j with rfl | hne
    · exact Function.update_self ..
    · exact (Function.update_of_ne hne ..).trans h

/-- `closed_with` finds the waker of the call that waits, and wakes it. -/
theorem Waits.closedWith (h : Waits s) (session : Nat) (r : Except ε Unit) :
    Waits ((s.setSession session ((s.sessions session).closedWith r).1).wake ((s.sessions session).closedWith r).2) where
  own := by
    rw [wake_tasks]
    exact h.own
  pending i session' htask := by
    rw [wake_tasks] at htask
    rw [wake_sessions]
    rcases h.pending i session' htask with hwoken | ⟨hclosed, hwaker⟩
    · exact .inl (wake_woken hwoken)
    · rcases eq_or_ne session' session with rfl | hne
      · left
        rw [SessionFlag.closedWith, hwaker]
        exact Function.update_self ..
      · right
        simp only [setSession, Function.update_of_ne hne]
        exact ⟨hclosed, hwaker⟩

theorem Waits.step {action : RproxyAction ε} (h : Waits s) (hown : OwnSession s action)
    (hs : step s action = some s') : Waits s' := by
  cases action with
  | accept =>
    obtain ⟨-, hs⟩ := Option.ite_none_right_eq_some.mp hs
    cases hs
    exact h.go rfl rfl rfl nofun nofun
  | stop =>
    obtain ⟨-, hs⟩ := Option.ite_none_right_eq_some.mp hs
    cases hs
    exact h.keep rfl rfl rfl
  | handshaken i result =>
    simp only [Rproxy.step] at hs
    split at hs
    · cases hs
      refine h.moved rfl (fun session heq j _ => ?_) (fun _ _ => rfl) (fun _ _ => rfl) nofun
      cases heq
      exact hown j
    · cases hs
      exact h.go rfl rfl rfl nofun nofun
    · cases hs
  | task i => exact h.taskStep hs
  | drop i =>
    simp only [Rproxy.step] at hs
    cases htask : s.tasks i with
    | handshake | pending session =>
      rw [htask] at hs
      cases hs
      exact h.go rfl rfl rfl (by rw [htask]; exact fun _ heq => heq) nofun
    | _ =>
      rw [htask] at hs
      cases hs
  | closedWith session r =>
    cases hs
    exact h.closedWith session r
  | stats j =>
    simp only [Rproxy.step] at hs
    cases hstats : s.stats j with
    | idle | loadClosed actived =>
      rw [hstats] at hs
      cases hs
      exact h.keep rfl rfl rfl
    | returned actived closed =>
      rw [hstats] at hs
      cases hs

theorem Waits.of_reaches (h : Reaches Rproxy.step OwnSession {} s) : Waits s :=
  h.invariant waits_init fun h hown hs => h.step hown hs

/-- When every handshake gives a session of its own: in every run, a call that waits for its session while the session has a
    result has been woken, and its next four steps return the result, with the call no longer active and among the closed
    ones. -/
theorem closed_returns {session : Nat} {r : Except ε Unit} (h : Reaches step OwnSession {} s)
    (htask : s.tasks i = .pending session) (hclosed : (s.sessions session).closed = some r) :
    s.woken i = true ∧ ∃ s', run step s [.task i, .task i, .task i, .task i] = some s' ∧
      s'.tasks i = .returned session r ∧ s'.conns = s.conns - 1 ∧ s'.closedConns = s.closedConns + 1 := by
  constructor
  · rcases (Waits.of_reaches h).pending i session htask with hwoken | ⟨hnone, -⟩
    · exact hwoken
    · rw [hclosed] at hnone
      cases hnone
  · simp [run, runIf, step, taskStep, htask, setTask, setSession, SessionFlag.poll, hclosed]

/-- A session is closed while its call waits for it. -/
theorem served_returns : ∃ s : Rproxy String,
    run step {} [.accept, .handshaken 0 (.ok 0), .task 0, .task 0, .closedWith 0 (.ok ())] = some s ∧ s.woken 0 = true ∧
    ∃ s', run step s [.task 0, .task 0, .task 0, .task 0] = some s' ∧ s'.tasks 0 = .returned 0 (.ok ()) := by
  refine ⟨_, rfl, ?_⟩
  have hspawned : Reaches step OwnSession ({} : Rproxy String) _ := .step .refl (a := .accept) trivial rfl
  have hown : OwnSession (({ spawned := 1 } : Rproxy String).setTask 0 .handshake) (.handshaken 0 (.ok 0)) := by
    intro j
    rcases eq_or_ne j 0 with rfl | hne
    · simp [setTask, Handshake.session?]
    · simp [setTask, Function.update_of_ne hne, Handshake.session?]
  have htask : ∀ s : Rproxy String, OwnSession s (.task 0) := fun _ => trivial
  have hclosed : ∀ s : Rproxy String, OwnSession s (.closedWith 0 (.ok ())) := fun _ => trivial
  have hwaits := (((hspawned.step hown rfl).step (htask _) rfl).step (htask _) rfl).step (hclosed _) rfl
  obtain ⟨hwoken, s', hrun, htask, -⟩ := closed_returns (i := 0) (r := .ok ()) hwaits rfl rfl
  exact ⟨hwoken, s', hrun, htask⟩

end Rproxy

end Hala.Proxy
