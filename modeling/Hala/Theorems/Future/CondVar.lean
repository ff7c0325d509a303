import Hala.Future.CondVar
import Hala.Lib.Tasks

/-! An `EventMap` with an async mutex is a condition variable.

A `Wait` registers itself while it holds the lock under which it has found the predicate false, and whoever makes the
predicate true takes the entry away before it unlocks. So a registered `Wait` whose entry is still there has a false
predicate, whenever nobody holds the lock. -/

namespace Hala
open Machine Tasks

/-- What a `Wait` returns for the reason. -/
def Reason.outcome : Reason → Option (Except EventMapError Unit)
  | none => .none
  | on => some (.ok ())
  | cancel => some (.error .cancel)
  | destroy => some (.error .destroy)

theorem WakerMap.load_eq {E : Type} (m : WakerMap E) (cell : Cell) : m.load cell = (m.reasons cell).outcome := by
  simp only [load]
  cases m.reasons cell <;> rfl

/-! ### Where a task stands -/

namespace CondWaiter

def holdsLock : CondWaiter → Bool
  | check | insert _ | unlock _ | found => true
  | _ => false

/-- The predicate has been found false, and the lock is still held. -/
def hasFoundFalse : CondWaiter → Bool
  | insert _ | unlock _ => true
  | _ => false

/-- The cell of its `Wait`. -/
def cell? : CondWaiter → Option Cell
  | insert cell | unlock cell | load cell | pending cell => some cell
  | _ => none

/-- The cell of its `Wait`, once that is registered. -/
def registered? : CondWaiter → Option Cell
  | unlock cell | load cell | pending cell => some cell
  | _ => none

theorem holdsLock_of_hasFoundFalse {waiter : CondWaiter} (h : waiter.hasFoundFalse = true) : waiter.holdsLock = true := by
  cases waiter <;> first | rfl | cases h

theorem cell?_of_registered? {waiter : CondWaiter} {cell : Cell} (h : waiter.registered? = some cell) :
    waiter.cell? = some cell := by
  cases waiter <;> first | exact h | cases h

end CondWaiter

namespace CondNotifier
variable {E : Type}

def holdsLock : CondNotifier E → Bool
  | setPredicate _ _ | remove _ _ | store _ _ _ | wake _ _ | unlock _ _ => true
  | _ => false

def reason? : CondNotifier E → Option Reason
  | lock _ reason | setPredicate _ reason | remove _ reason | store _ reason _ | wake reason _ | unlock reason _
  | done reason _ => some reason
  | idle => none

/-- It has made the predicate of the event true, and not looked for its entry. -/
def removing? : CondNotifier E → Option E
  | remove event _ => some event
  | _ => none

/-- It has removed the entry, and not stored the reason. -/
def storing? : CondNotifier E → Option (E × Cell)
  | store event _ cell => some (event, cell)
  | _ => none

/-- It has stored the reason, and not woken the task. -/
def waking? : CondNotifier E → Option Cell
  | wake _ cell => some cell
  | _ => none

/-- The `Wait` that it has resolved. -/
def resolved? : CondNotifier E → Option Cell
  | wake _ cell => some cell
  | unlock _ took | done _ took => took
  | _ => none

theorem holdsLock_of_storing? {notifier : CondNotifier E} {key : E × Cell} (h : notifier.storing? = some key) :
    notifier.holdsLock = true := by
  cases notifier <;> first | rfl | cases h

theorem holdsLock_of_removing? {notifier : CondNotifier E} {event : E} (h : notifier.removing? = some event) :
    notifier.holdsLock = true := by
  cases notifier <;> first | rfl | cases h

theorem holdsLock_of_waking? {notifier : CondNotifier E} {cell : Cell} (h : notifier.waking? = some cell) :
    notifier.holdsLock = true := by
  cases notifier <;> first | rfl | cases h

end CondNotifier

/-! ### The invariant -/

namespace CondVar
variable {E : Type}

/-- The task stands where it has the lock. -/
def holds (s : CondVar E) : Holder E → Bool
  | .waiter event => (s.waiters event).holdsLock
  | .notifier n => (s.notifiers n).holdsLock

/-- Every `Wait` has its own cell, and one that is registered without a reason can be found. -/
structure EntryInv (s : CondVar E) : Prop where
  lt : ∀ event cell, (s.waiters event).cell? = some cell → cell < s.cells
  unique : ∀ event event' cell, (s.waiters event).cell? = some cell → (s.waiters event').cell? = some cell → event = event'
  unset : ∀ event cell, (s.waiters event).cell? = some cell → (s.waiters event).registered? = none →
    s.map.reasons cell = .none
  entry : ∀ event entry, s.map.wakers event = some entry →
    (s.waiters event).registered? = some entry.reason ∧ s.map.reasons entry.reason = .none
  found : ∀ event cell, (s.waiters event).registered? = some cell → s.map.reasons cell = .none →
    s.map.wakers event ≠ none ∨ ∃ n, (s.notifiers n).storing? = some (event, cell)
  storing : ∀ n event cell, (s.notifiers n).storing? = some (event, cell) →
    (s.waiters event).registered? = some cell ∧ s.map.reasons cell = .none ∧ s.map.wakers event = none

/-- The predicate of a `Wait` that can be found is false, unless a notifier is about to remove the entry. -/
structure PredicateInv (s : CondVar E) : Prop where
  holding : ∀ event, (s.waiters event).hasFoundFalse = true → s.predicate event = false
  entry : ∀ event, s.map.wakers event ≠ none → s.predicate event = true →
    ∃ n, (s.notifiers n).removing? = some event

/-- Every reason has been left by one notifier, which wakes the task before it unlocks. -/
structure ReasonInv (s : CondVar E) : Prop where
  lt : ∀ cell, s.map.reasons cell ≠ .none → cell < s.cells
  set : ∀ n reason, (s.notifiers n).reason? = some reason → reason ≠ .none
  resolved : ∀ cell, s.map.reasons cell ≠ .none → ∃ n, (s.notifiers n).resolved? = some cell
  resolves : ∀ n cell, (s.notifiers n).resolved? = some cell → (s.notifiers n).reason? = some (s.map.reasons cell)
  unique : ∀ n n' cell, (s.notifiers n).resolved? = some cell → (s.notifiers n').resolved? = some cell → n = n'
  result : ∀ cell result, s.results cell = some result → s.map.load cell = some result
  woken : ∀ cell, s.map.reasons cell ≠ .none → cell ∈ s.map.woken ∨ ∃ n, (s.notifiers n).waking? = some cell

structure Inv (s : CondVar E) : Prop where
  lock : Held s.lock s.holds
  entries : EntryInv s
  predicates : PredicateInv s
  reasons : ReasonInv s

theorem inv_init (predicate : E → Bool) : Inv ({ predicate } : CondVar E) := by
  refine ⟨?_, ⟨?_, ?_, ?_, ?_, ?_, ?_⟩, ⟨?_, ?_⟩, ⟨?_, ?_, ?_, ?_, ?_, ?_, ?_⟩⟩
  · rintro (event | n) h <;> cases h
  all_goals
    simp [CondWaiter.cell?, CondWaiter.registered?, CondNotifier.storing?, CondWaiter.hasFoundFalse,
      CondNotifier.reason?, CondNotifier.resolved?]

/-! ### What a step leaves alone -/

section Frame
variable {s t : CondVar E}

theorem EntryInv.congr (hinv : EntryInv s) (hcells : t.cells = s.cells) (hwakers : t.map.wakers = s.map.wakers)
    (hreasons : t.map.reasons = s.map.reasons) (hcell : ∀ e, (t.waiters e).cell? = (s.waiters e).cell?)
    (hregistered : ∀ e, (t.waiters e).registered? = (s.waiters e).registered?)
    (hstoring : ∀ n, (t.notifiers n).storing? = (s.notifiers n).storing?) : EntryInv t := by
  constructor
  all_goals
    simp only [hcells, hwakers, hreasons, hcell, hregistered, hstoring]
  exacts [hinv.lt, hinv.unique, hinv.unset, hinv.entry, hinv.found, hinv.storing]

theorem PredicateInv.congr (hinv : PredicateInv s) (hpredicate : t.predicate = s.predicate)
    (hwakers : t.map.wakers = s.map.wakers)
    (hfound : ∀ e, (t.waiters e).hasFoundFalse = true → (s.waiters e).hasFoundFalse = true)
    (hremoving : ∀ n, (t.notifiers n).removing? = (s.notifiers n).removing?) : PredicateInv t := by
  constructor
  · intro event h
    rw [hpredicate]
    exact hinv.holding event (hfound event h)
  · simp only [hpredicate, hwakers, hremoving]
    exact hinv.entry

theorem ReasonInv.congr (hinv : ReasonInv s) (hcells : s.cells ≤ t.cells) (hreasons : t.map.reasons = s.map.reasons)
    (hwoken : t.map.woken = s.map.woken) (hresults : t.results = s.results)
    (hreason : ∀ n, (t.notifiers n).reason? = (s.notifiers n).reason?)
    (hresolved : ∀ n, (t.notifiers n).resolved? = (s.notifiers n).resolved?)
    (hwaking : ∀ n, (t.notifiers n).waking? = (s.notifiers n).waking?) : ReasonInv t := by
  constructor
  all_goals
    simp only [WakerMap.load, hreasons, hwoken, hresults, hreason, hresolved, hwaking]
  exacts [fun cell h => Nat.lt_of_lt_of_le (hinv.lt cell h) hcells, hinv.set, hinv.resolved, hinv.resolves, hinv.unique,
    hinv.result, hinv.woken]

theorem EntryInv.wakers_eq_none {event : E} (hinv : EntryInv s) (h : (s.waiters event).registered? = none) :
    s.map.wakers event = none := by
  cases hentry : s.map.wakers event with
  | none => rfl
  | some entry =>
    have := (hinv.entry event entry hentry).1
    rw [h] at this
    cases this

end Frame

section Waiter
variable [DecidableEq E] {s t : CondVar E} {event : E} {old waiter : CondWaiter}

omit [DecidableEq E] in
theorem holds_waiter (hwaiter : s.waiters event = old) (hold : old.holdsLock = true) : s.holds (.waiter event) = true := by
  rwa [holds, hwaiter]

theorem Inv.keepWaiter (hinv : Inv s) (hwaiter : s.waiters event = old) (hlock : t.lock = s.lock)
    (hwaiters : t.waiters = Function.update s.waiters event waiter) (hnotifiers : t.notifiers = s.notifiers)
    (hholds : waiter.holdsLock = true → old.holdsLock = true) : Held t.lock t.holds := by
  rw [hlock]
  refine hinv.lock.keep ?_
  rintro (e | n) h
  · rw [holds, hwaiters] at h
    exact view_of_update CondWaiter.holdsLock hwaiter hholds e h
  · simpa only [holds, hnotifiers] using h

theorem holds_setWaiter_of_ne {holder : Holder E} (hholder : holder ≠ .waiter event)
    (h : (s.setWaiter event waiter).holds holder = true) : s.holds holder = true := by
  obtain e | n := holder
  · have he : e ≠ event := fun he => hholder (he ▸ rfl)
    simpa only [holds, setWaiter, Function.update_of_ne he] using h
  · exact h

/-- A task that moves within its `Wait`, or outside of it. -/
theorem Inv.moveWaiter (hinv : Inv s) (hwaiter : s.waiters event = old) {lock : Option (Holder E)}
    (hlock : Held lock ({ s with lock }.setWaiter event waiter).holds) (hcell : waiter.cell? = old.cell?)
    (hregistered : waiter.registered? = old.registered?)
    (hfound : waiter.hasFoundFalse = true → old.hasFoundFalse = true) : Inv ({ s with lock }.setWaiter event waiter) where
  lock := hlock
  entries := hinv.entries.congr rfl rfl rfl (view_update _ hwaiter hcell) (view_update _ hwaiter hregistered) fun _ => rfl
  predicates := hinv.predicates.congr rfl rfl (view_of_update _ hwaiter hfound) fun _ => rfl
  reasons := hinv.reasons.congr Nat.le.refl rfl rfl rfl (fun _ => rfl) (fun _ => rfl) fun _ => rfl

/-- A task that makes a `Wait`, having found the predicate false. -/
theorem Inv.makeWait (hinv : Inv s) (hwaiter : s.waiters event = .check) (hpredicate : s.predicate event = false) :
    Inv ({ s with cells := s.cells + 1 }.setWaiter event (.insert s.cells)) where
  lock := hinv.keepWaiter hwaiter rfl rfl rfl fun _ => rfl
  entries := by
    have hcell : ∀ e c, (Function.update s.waiters event (.insert s.cells) e).cell? = some c →
        e = event ∧ c = s.cells ∨ e ≠ event ∧ (s.waiters e).cell? = some c := by
      intro e c h
      by_cases he : e = event
      · rw [he, Function.update_self] at h
        exact .inl ⟨he, (Option.some.inj h).symm⟩
      · rw [Function.update_of_ne he] at h
        exact .inr ⟨he, h⟩
    have hregistered : ∀ e, (Function.update s.waiters event (.insert s.cells) e).registered? = (s.waiters e).registered? :=
      view_update _ hwaiter rfl
    obtain ⟨hlt, hunique, hunset, hentry, hfound, hstoring⟩ := hinv.entries
    constructor
    case lt =>
      intro e c h
      obtain ⟨-, rfl⟩ | ⟨-, h⟩ := hcell e c h
      · exact Nat.lt_succ_self _
      · exact Nat.lt_succ_of_lt (hlt e c h)
    case unique =>
      -- The new cell is larger than those of all other `Wait`s.
      intro e e' c h h'
      obtain ⟨rfl, rfl⟩ | ⟨-, h⟩ := hcell e c h
      · obtain ⟨rfl, -⟩ | ⟨-, h'⟩ := hcell e' _ h'
        · rfl
        · exact absurd (hlt e' _ h') (Nat.lt_irrefl _)
      · obtain ⟨-, rfl⟩ | ⟨-, h'⟩ := hcell e' c h'
        · exact absurd (hlt e _ h) (Nat.lt_irrefl _)
        · exact hunique e e' c h h'
    case unset =>
      intro e c h hnone
      obtain ⟨-, rfl⟩ | ⟨-, h⟩ := hcell e c h
      · by_contra hset
        exact absurd (hinv.reasons.lt _ hset) (Nat.lt_irrefl _)
      · rw [setWaiter, hregistered] at hnone
        exact hunset e c h hnone
    all_goals
      simp only [setWaiter, hregistered]
    exacts [hentry, hfound, hstoring]
  predicates := by
    refine ⟨?_, hinv.predicates.entry⟩
    intro e h
    by_cases he : e = event
    · exact he ▸ hpredicate
    · simp only [setWaiter, Function.update_of_ne he] at h
      exact hinv.predicates.holding e h
  reasons := hinv.reasons.congr (Nat.le_succ _) rfl rfl rfl (fun _ => rfl) (fun _ => rfl) fun _ => rfl

/-- A task that registers its `Wait`. -/
theorem Inv.register (hinv : Inv s) {cell : Cell} (hwaiter : s.waiters event = .insert cell) :
    Inv ({ s with map := s.map.insert event { waker := cell, reason := cell } }.setWaiter event (.unlock cell)) where
  lock := hinv.keepWaiter hwaiter rfl rfl rfl fun _ => rfl
  entries := by
    have hcell : ∀ e, (Function.update s.waiters event (.unlock cell) e).cell? = (s.waiters e).cell? :=
      view_update _ hwaiter rfl
    have hself : (s.waiters event).registered? = none := by
      rw [hwaiter]
      rfl
    obtain ⟨hlt, hunique, hunset, hentry, hfound, hstoring⟩ := hinv.entries
    constructor
    case lt => simpa only [setWaiter, hcell] using hlt
    case unique => simpa only [setWaiter, hcell] using hunique
    case unset =>
      intro e c hc hnone
      simp only [setWaiter, hcell] at hc
      by_cases he : e = event
      · subst he
        exact hunset e c hc hself
      · simp only [setWaiter, Function.update_of_ne he] at hnone
        exact hunset e c hc hnone
    case entry =>
      intro e entry he'
      by_cases he : e = event
      · subst he
        simp only [setWaiter, WakerMap.insert, Function.update_self, Option.some.injEq] at he' ⊢
        subst he'
        exact ⟨rfl, hunset e cell (by rw [hwaiter]; rfl) hself⟩
      · simp only [setWaiter, WakerMap.insert, Function.update_of_ne he] at he' ⊢
        exact hentry e entry he'
    case found =>
      intro e c hregistered hreasons
      by_cases he : e = event
      · subst he
        simp [setWaiter, WakerMap.insert]
      · simp only [setWaiter, WakerMap.insert, Function.update_of_ne he] at hregistered ⊢
        exact hfound e c hregistered hreasons
    case storing =>
      -- Nobody has removed an entry of this `Wait` yet.
      intro n e c h
      obtain ⟨hregistered, hreasons, hnone⟩ := hstoring n e c h
      have he : e ≠ event := by
        rintro rfl
        rw [hself] at hregistered
        cases hregistered
      simp only [setWaiter, WakerMap.insert, Function.update_of_ne he]
      exact ⟨hregistered, hreasons, hnone⟩
  predicates := by
    obtain ⟨hholding, hentry⟩ := hinv.predicates
    constructor
    · exact fun e h => hholding e (view_of_update _ hwaiter (fun _ => rfl) e h)
    · intro e hsome hpredicate
      by_cases he : e = event
      · -- The predicate was found false under the lock that is still held.
        subst he
        have hfalse := hholding e (by rw [hwaiter]; rfl)
        rw [setWaiter, hfalse] at hpredicate
        cases hpredicate
      · simp only [setWaiter, WakerMap.insert, Function.update_of_ne he] at hsome
        exact hentry e hsome hpredicate
  reasons := hinv.reasons.congr Nat.le.refl rfl rfl rfl (fun _ => rfl) (fun _ => rfl) fun _ => rfl

/-- A `Wait` that returns what it has loaded. -/
theorem Inv.returned (hinv : Inv s) {cell : Cell} {result : Except EventMapError Unit}
    (hwaiter : s.waiters event = .load cell) (hload : s.map.load cell = some result)
    (hnext : waiter = .lock ∨ waiter = .idle) :
    Inv ({ s with results := Function.update s.results cell (some result) }.setWaiter event waiter) where
  lock := by
    refine hinv.keepWaiter hwaiter rfl rfl rfl ?_
    obtain rfl | rfl := hnext <;> intro h <;> cases h
  entries := by
    have hset : s.map.reasons cell ≠ .none := by
      intro h
      simp only [WakerMap.load, h] at hload
      cases hload
    have hnext : waiter.cell? = none ∧ waiter.registered? = none := by
      obtain rfl | rfl := hnext <;> exact ⟨rfl, rfl⟩
    have hregistered : (s.waiters event).registered? = some cell := by
      rw [hwaiter]
      rfl
    obtain ⟨hlt, hunique, hunset, hentry, hfound, hstoring⟩ := hinv.entries
    -- The task has no `Wait` any more, and the entry of the one it had is gone.
    have hgone : ∀ e c, (s.waiters e).registered? = some c → s.map.reasons c = .none → e ≠ event := by
      rintro e c h hunset rfl
      rw [hregistered] at h
      cases h
      exact hset hunset
    have hcell : ∀ e c, (Function.update s.waiters event waiter e).cell? = some c →
        e ≠ event ∧ (s.waiters e).cell? = some c := by
      intro e c h
      have he : e ≠ event := by
        rintro rfl
        rw [Function.update_self, hnext.1] at h
        cases h
      rw [Function.update_of_ne he] at h
      exact ⟨he, h⟩
    constructor
    case lt => exact fun e c h => hlt e c (hcell e c h).2
    case unique => exact fun e e' c h h' => hunique e e' c (hcell e c h).2 (hcell e' c h').2
    case unset =>
      intro e c h hnone
      obtain ⟨he, h⟩ := hcell e c h
      simp only [setWaiter, Function.update_of_ne he] at hnone
      exact hunset e c h hnone
    case entry =>
      intro e entry he
      obtain ⟨hentry, hreasons⟩ := hentry e entry he
      refine ⟨?_, hreasons⟩
      simpa only [setWaiter, Function.update_of_ne (hgone e _ hentry hreasons)] using hentry
    case found =>
      intro e c h
      have he : e ≠ event := by
        rintro rfl
        simp only [setWaiter, Function.update_self, hnext.2] at h
        cases h
      simp only [setWaiter, Function.update_of_ne he] at h
      exact hfound e c h
    case storing =>
      intro n e c h
      obtain ⟨hwaiting, hreasons, hnone⟩ := hstoring n e c h
      refine ⟨?_, hreasons, hnone⟩
      simpa only [setWaiter, Function.update_of_ne (hgone e _ hwaiting hreasons)] using hwaiting
  predicates := by
    refine hinv.predicates.congr rfl rfl (view_of_update _ hwaiter ?_) fun _ => rfl
    obtain rfl | rfl := hnext <;> intro h <;> cases h
  reasons := by
    obtain ⟨hlt, hset, hresolved, hresolves, hunique, hresult, hwoken⟩ := hinv.reasons
    refine ⟨hlt, hset, hresolved, hresolves, hunique, ?_, hwoken⟩
    intro other r h
    by_cases hother : other = cell
    · subst hother
      simp only [setWaiter, Function.update_self, Option.some.injEq] at h
      rw [← h]
      exact hload
    · simp only [setWaiter, Function.update_of_ne hother] at h
      exact hresult other r h

/-- A task that unlocks with a true predicate in its hand, and leaves it as it likes. -/
theorem Inv.leave (hinv : Inv s) (hwaiter : s.waiters event = .found) (value : Bool) :
    Inv (({ s with lock := none }.setPredicate event value).setWaiter event .idle) where
  lock := by
    refine hinv.lock.release (holds_waiter hwaiter rfl) ?_ fun other hother h => holds_setWaiter_of_ne hother h
    simp [holds, setWaiter, CondWaiter.holdsLock]
  entries := by
    exact hinv.entries.congr rfl rfl rfl (view_update _ hwaiter rfl) (view_update _ hwaiter rfl) fun _ => rfl
  predicates := by
    have hgone : s.map.wakers event = none := hinv.entries.wakers_eq_none (by rw [hwaiter]; rfl)
    constructor
    · intro e h
      have he : e ≠ event := by
        rintro rfl
        simp only [setWaiter, Function.update_self] at h
        cases h
      simp only [setWaiter, setPredicate, Function.update_of_ne he] at h ⊢
      exact hinv.predicates.holding e h
    · intro e hsome hpredicate
      have he : e ≠ event := by
        rintro rfl
        exact hsome hgone
      simp only [setWaiter, setPredicate, Function.update_of_ne he] at hpredicate
      exact hinv.predicates.entry e hsome hpredicate
  reasons := hinv.reasons.congr Nat.le.refl rfl rfl rfl (fun _ => rfl) (fun _ => rfl) fun _ => rfl

end Waiter

section Notifier
variable {s t : CondVar E} {n : Nat} {old notifier : CondNotifier E}

theorem holds_notifier (hnotifier : s.notifiers n = old) (hold : old.holdsLock = true) : s.holds (.notifier n) = true := by
  rwa [holds, hnotifier]

theorem Inv.keepNotifier (hinv : Inv s) (hnotifier : s.notifiers n = old) (hlock : t.lock = s.lock)
    (hwaiters : t.waiters = s.waiters) (hnotifiers : t.notifiers = Function.update s.notifiers n notifier)
    (hholds : notifier.holdsLock = true → old.holdsLock = true) : Held t.lock t.holds := by
  rw [hlock]
  refine hinv.lock.keep ?_
  rintro (e | n') h
  · simpa only [holds, hwaiters] using h
  · rw [holds, hnotifiers] at h
    exact view_of_update CondNotifier.holdsLock hnotifier hholds n' h

theorem holds_setNotifier_of_ne {holder : Holder E} (hholder : holder ≠ .notifier n)
    (h : (s.setNotifier n notifier).holds holder = true) : s.holds holder = true := by
  obtain e | n' := holder
  · exact h
  · have hn : n' ≠ n := fun hn => hholder (hn ▸ rfl)
    simpa only [holds, setNotifier, Function.update_of_ne hn] using h

/-- A notifier that takes the lock, or gives it back. -/
theorem Inv.moveNotifier (hinv : Inv s) (hnotifier : s.notifiers n = old) {lock : Option (Holder E)}
    (hlock : Held lock ({ s with lock }.setNotifier n notifier).holds)
    (hreason : notifier.reason? = old.reason?) (hremoving : notifier.removing? = old.removing?)
    (hstoring : notifier.storing? = old.storing?) (hwaking : notifier.waking? = old.waking?)
    (hresolved : notifier.resolved? = old.resolved?) : Inv ({ s with lock }.setNotifier n notifier) where
  lock := hlock
  entries := hinv.entries.congr rfl rfl rfl (fun _ => rfl) (fun _ => rfl) (view_update _ hnotifier hstoring)
  predicates := hinv.predicates.congr rfl rfl (fun _ h => h) (view_update _ hnotifier hremoving)
  reasons := hinv.reasons.congr Nat.le.refl rfl rfl rfl (view_update _ hnotifier hreason)
    (view_update _ hnotifier hresolved) (view_update _ hnotifier hwaking)

theorem Inv.startNotifier (hinv : Inv s) {event : E} {reason : Reason} (hnotifier : s.notifiers n = .idle)
    (hreason : reason ≠ .none) : Inv (s.setNotifier n (.lock event reason)) where
  lock := hinv.keepNotifier hnotifier rfl rfl rfl fun h => by cases h
  entries := hinv.entries.congr rfl rfl rfl (fun _ => rfl) (fun _ => rfl) (view_update _ hnotifier rfl)
  predicates := hinv.predicates.congr rfl rfl (fun _ h => h) (view_update _ hnotifier rfl)
  reasons := by
    have hresolve : ∀ n', (Function.update s.notifiers n (.lock event reason) n').resolved? = (s.notifiers n').resolved? :=
      view_update _ hnotifier rfl
    have hwaking : ∀ n', (Function.update s.notifiers n (.lock event reason) n').waking? = (s.notifiers n').waking? :=
      view_update _ hnotifier rfl
    obtain ⟨hlt, hset, hresolved, hresolves, hunique, hresult, hwoken⟩ := hinv.reasons
    constructor
    case set =>
      intro n' r h
      by_cases hn : n' = n
      · subst hn
        simp only [setNotifier, Function.update_self] at h
        cases h
        exact hreason
      · simp only [setNotifier, Function.update_of_ne hn] at h
        exact hset n' r h
    case resolves =>
      intro n' c h
      simp only [setNotifier, hresolve] at h
      have hn : n' ≠ n := by
        rintro rfl
        rw [hnotifier] at h
        cases h
      simp only [setNotifier, Function.update_of_ne hn]
      exact hresolves n' c h
    all_goals
      simp only [setNotifier, hresolve, hwaking]
    exacts [hlt, hresolved, hunique, hresult, hwoken]

/-- A notifier that makes the predicate true. -/
theorem Inv.makeTrue [DecidableEq E] (hinv : Inv s) {event : E} {reason : Reason}
    (hnotifier : s.notifiers n = .setPredicate event reason) :
    Inv ((s.setPredicate event true).setNotifier n (.remove event reason)) where
  lock := hinv.keepNotifier hnotifier rfl rfl rfl fun _ => rfl
  entries := hinv.entries.congr rfl rfl rfl (fun _ => rfl) (fun _ => rfl) (view_update _ hnotifier rfl)
  predicates := by
    have hheld : s.holds (.notifier n) = true := holds_notifier hnotifier rfl
    have hfree : ∀ e, (s.waiters e).hasFoundFalse = false := by
      intro e
      rw [← Bool.not_eq_true]
      intro h
      have hwaiter : s.holds (.waiter e) = true := CondWaiter.holdsLock_of_hasFoundFalse h
      cases hinv.lock.exclusive hwaiter hheld
    constructor
    · intro e h
      exact absurd h (Bool.not_eq_true _ ▸ hfree e)
    · intro e hsome hpredicate
      by_cases he : e = event
      · subst he
        exact exists_update_self CondNotifier.removing? rfl
      · simp only [setPredicate, setNotifier, Function.update_of_ne he] at hpredicate
        exact exists_update _ hnotifier (by simp [CondNotifier.removing?]) (hinv.predicates.entry e hsome hpredicate)
  reasons := hinv.reasons.congr Nat.le.refl rfl rfl rfl (view_update _ hnotifier rfl) (view_update _ hnotifier rfl)
    (view_update _ hnotifier rfl)

/-- A notifier that finds no entry. -/
theorem Inv.findNone (hinv : Inv s) {event : E} {reason : Reason} (hnotifier : s.notifiers n = .remove event reason)
    (hentry : s.map.wakers event = none) : Inv (s.setNotifier n (.unlock reason none)) where
  lock := hinv.keepNotifier hnotifier rfl rfl rfl fun _ => rfl
  entries := hinv.entries.congr rfl rfl rfl (fun _ => rfl) (fun _ => rfl) (view_update _ hnotifier rfl)
  predicates := by
    refine ⟨hinv.predicates.holding, ?_⟩
    intro e hsome hpredicate
    refine exists_update _ hnotifier ?_ (hinv.predicates.entry e hsome hpredicate)
    intro h
    cases h
    exact hsome hentry
  reasons := hinv.reasons.congr Nat.le.refl rfl rfl rfl (view_update _ hnotifier rfl) (view_update _ hnotifier rfl)
    (view_update _ hnotifier rfl)

/-- A notifier that takes an entry. -/
theorem Inv.takeEntry [DecidableEq E] (hinv : Inv s) {event : E} {reason : Reason} {entry : WakerWithReason}
    (hnotifier : s.notifiers n = .remove event reason) (hentry : s.map.wakers event = some entry) :
    Inv ({ s with map := s.map.remove event }.setNotifier n (.store event reason entry.reason)) where
  lock := hinv.keepNotifier hnotifier rfl rfl rfl fun _ => rfl
  entries := by
    obtain ⟨hlt, hunique, hunset, hentries, hfound, hstoring⟩ := hinv.entries
    obtain ⟨hregistered, hreasons⟩ := hentries event entry hentry
    refine ⟨hlt, hunique, hunset, ?_, ?_, ?_⟩
    · intro e entry' he'
      have he : e ≠ event := by
        rintro rfl
        simp [setNotifier, WakerMap.remove] at he'
      simp only [setNotifier, WakerMap.remove, Function.update_of_ne he] at he'
      exact hentries e entry' he'
    · intro e cell hcell hunset
      by_cases he : e = event
      · -- Its entry is in the hand of the notifier now.
        subst he
        have hcell : some entry.reason = some cell := hregistered.symm.trans hcell
        refine .inr (exists_update_self CondNotifier.storing? ?_)
        rw [CondNotifier.storing?, Option.some.inj hcell]
      · obtain hsome | hstoring := hfound e cell hcell hunset
        · exact .inl (by simpa only [setNotifier, WakerMap.remove, Function.update_of_ne he] using hsome)
        · exact .inr (exists_update _ hnotifier (by simp [CondNotifier.storing?]) hstoring)
    · intro n' e cell h
      by_cases hn : n' = n
      · subst hn
        simp only [setNotifier, Function.update_self, CondNotifier.storing?, Option.some.injEq, Prod.mk.injEq] at h
        obtain ⟨rfl, rfl⟩ := h
        exact ⟨hregistered, hreasons, Function.update_self ..⟩
      · simp only [setNotifier, Function.update_of_ne hn] at h
        obtain ⟨hregistered', hreasons', hnone⟩ := hstoring n' e cell h
        refine ⟨hregistered', hreasons', ?_⟩
        by_cases he : e = event
        · exact he ▸ Function.update_self ..
        · exact (Function.update_of_ne he ..).trans hnone
  predicates := by
    refine ⟨hinv.predicates.holding, ?_⟩
    intro e hsome hpredicate
    have he : e ≠ event := by
      rintro rfl
      simp [setNotifier, WakerMap.remove] at hsome
    simp only [setNotifier, WakerMap.remove, Function.update_of_ne he] at hsome
    refine exists_update _ hnotifier ?_ (hinv.predicates.entry e hsome hpredicate)
    intro h
    exact he (Option.some.inj h).symm
  reasons := hinv.reasons.congr Nat.le.refl rfl rfl rfl (view_update _ hnotifier rfl) (view_update _ hnotifier rfl)
    (view_update _ hnotifier rfl)

/-- A notifier that leaves the reason. -/
theorem Inv.storeReason (hinv : Inv s) {event : E} {reason : Reason} {cell : Cell}
    (hnotifier : s.notifiers n = .store event reason cell) :
    Inv ({ s with map := s.map.store cell reason }.setNotifier n (.wake reason cell)) where
  lock := hinv.keepNotifier hnotifier rfl rfl rfl fun _ => rfl
  entries := by
    have hreason : reason ≠ .none := hinv.reasons.set n reason (by rw [hnotifier]; rfl)
    have hheld : s.holds (.notifier n) = true := holds_notifier hnotifier rfl
    have halone : ∀ n' key, (s.notifiers n').storing? = some key → n' = n := by
      intro n' key h
      have hother : s.holds (.notifier n') = true := CondNotifier.holdsLock_of_storing? h
      cases hinv.lock.exclusive hother hheld
      rfl
    obtain ⟨hlt, hunique, hunset, hentries, hfound, hstoring⟩ := hinv.entries
    obtain ⟨hregistered, hunset', hnone⟩ := hstoring n event cell (by rw [hnotifier]; rfl)
    have hcell := CondWaiter.cell?_of_registered? hregistered
    refine ⟨hlt, hunique, ?_, ?_, ?_, ?_⟩
    · intro e c hc hwaiting
      have hne : c ≠ cell := by
        rintro rfl
        obtain rfl := hunique e event c hc hcell
        cases hregistered.symm.trans hwaiting
      exact (Function.update_of_ne hne ..).trans (hunset e c hc hwaiting)
    · intro e entry he
      obtain ⟨hentry, hreasons⟩ := hentries e entry he
      have hne : entry.reason ≠ cell := by
        intro heq
        rw [heq] at hentry
        obtain rfl := hunique e event cell (CondWaiter.cell?_of_registered? hentry) hcell
        cases he.symm.trans hnone
      exact ⟨hentry, (Function.update_of_ne hne ..).trans hreasons⟩
    · intro e c hc hreasons
      have hne : c ≠ cell := by
        rintro rfl
        exact hreason ((Function.update_self ..).symm.trans hreasons)
      obtain hsome | ⟨n', hn'⟩ := hfound e c hc ((Function.update_of_ne hne ..).symm.trans hreasons)
      · exact .inl hsome
      · -- The notifier that holds the lock is this one, and it stores in the other cell.
        obtain rfl := halone n' _ hn'
        rw [hnotifier] at hn'
        cases hn'
        exact absurd rfl hne
    · intro n' e c h
      have hn : n' ≠ n := by
        rintro rfl
        simp only [setNotifier, Function.update_self] at h
        cases h
      simp only [setNotifier, Function.update_of_ne hn] at h
      exact absurd (halone n' _ h) hn
  predicates := hinv.predicates.congr rfl rfl (fun _ h => h) (view_update _ hnotifier rfl)
  reasons := by
    have hreason : reason ≠ .none := hinv.reasons.set n reason (by rw [hnotifier]; rfl)
    obtain ⟨hregistered, hunset, -⟩ := hinv.entries.storing n event cell (by rw [hnotifier]; rfl)
    have hcell := hinv.entries.lt event cell (CondWaiter.cell?_of_registered? hregistered)
    have hfresh : ∀ n', (s.notifiers n').resolved? ≠ some cell := by
      intro n' h
      have := hinv.reasons.resolves n' cell h
      rw [hunset] at this
      exact hinv.reasons.set n' _ this rfl
    have hpending : s.results cell = none := by
      cases h : s.results cell with
      | none => rfl
      | some result =>
        have := hinv.reasons.result cell result h
        simp only [WakerMap.load, hunset] at this
        cases this
    have hself : ∀ n', (Function.update s.notifiers n (.wake reason cell) n').reason? = (s.notifiers n').reason? :=
      view_update _ hnotifier rfl
    have hresolving : ∀ n' c, (Function.update s.notifiers n (.wake reason cell) n').resolved? = some c →
        n' = n ∧ c = cell ∨ n' ≠ n ∧ c ≠ cell ∧ (s.notifiers n').resolved? = some c := by
      intro n' c h
      by_cases hn : n' = n
      · subst hn
        rw [Function.update_self] at h
        exact .inl ⟨rfl, (Option.some.inj h).symm⟩
      · rw [Function.update_of_ne hn] at h
        refine .inr ⟨hn, ?_, h⟩
        rintro rfl
        exact hfresh n' h
    obtain ⟨hlt, hset, hresolved, hresolves, hunique, hresult, hwoken⟩ := hinv.reasons
    constructor
    case lt =>
      intro c hc
      by_cases hne : c = cell
      · exact hne ▸ hcell
      · exact hlt c fun h => hc ((Function.update_of_ne hne ..).trans h)
    case set =>
      simp only [setNotifier, hself]
      exact hset
    case resolved =>
      intro c hc
      by_cases hne : c = cell
      · subst hne
        exact exists_update_self CondNotifier.resolved? rfl
      · have hold := hresolved c fun h => hc ((Function.update_of_ne hne ..).trans h)
        exact exists_update _ hnotifier (by simp [CondNotifier.resolved?]) hold
    case resolves =>
      intro n' c h
      simp only [setNotifier, hself]
      obtain ⟨rfl, rfl⟩ | ⟨-, hne, hn'⟩ := hresolving n' c h
      · rw [hnotifier]
        simp only [WakerMap.store, Function.update_self]
        rfl
      · simp only [WakerMap.store, Function.update_of_ne hne]
        exact hresolves n' c hn'
    case unique =>
      intro n₁ n₂ c h₁ h₂
      obtain ⟨rfl, rfl⟩ | ⟨-, hne, h₁⟩ := hresolving n₁ c h₁
      · obtain ⟨rfl, -⟩ | ⟨-, hne, -⟩ := hresolving n₂ _ h₂
        · rfl
        · exact absurd rfl hne
      · obtain ⟨-, rfl⟩ | ⟨-, -, h₂⟩ := hresolving n₂ c h₂
        · exact absurd rfl hne
        · exact hunique n₁ n₂ c h₁ h₂
    case result =>
      intro c result hc
      have hne : c ≠ cell := by
        rintro rfl
        cases hpending.symm.trans hc
      simp only [setNotifier, WakerMap.load, WakerMap.store, Function.update_of_ne hne]
      exact hresult c result hc
    case woken =>
      intro c hc
      by_cases hne : c = cell
      · subst hne
        exact .inr (exists_update_self CondNotifier.waking? rfl)
      · obtain hw | hwaking := hwoken c fun h => hc ((Function.update_of_ne hne ..).trans h)
        · exact .inl hw
        · exact .inr (exists_update _ hnotifier (by simp [CondNotifier.waking?]) hwaking)

/-- A notifier that wakes the task. -/
theorem Inv.wakeTask (hinv : Inv s) {reason : Reason} {cell : Cell} (hnotifier : s.notifiers n = .wake reason cell) :
    Inv ({ s with map := s.map.wake cell }.setNotifier n (.unlock reason (some cell))) where
  lock := hinv.keepNotifier hnotifier rfl rfl rfl fun _ => rfl
  entries := hinv.entries.congr rfl rfl rfl (fun _ => rfl) (fun _ => rfl) (view_update _ hnotifier rfl)
  predicates := hinv.predicates.congr rfl rfl (fun _ h => h) (view_update _ hnotifier rfl)
  reasons := by
    have hreason : ∀ n', (Function.update s.notifiers n (.unlock reason (some cell)) n').reason? = (s.notifiers n').reason? :=
      view_update _ hnotifier rfl
    have hresolve : ∀ n', (Function.update s.notifiers n (.unlock reason (some cell)) n').resolved? =
        (s.notifiers n').resolved? := view_update _ hnotifier rfl
    obtain ⟨hlt, hset, hresolved, hresolves, hunique, hresult, hwoken⟩ := hinv.reasons
    constructor
    case woken =>
      intro c hc
      obtain hw | hwaking := hwoken c hc
      · exact .inl (List.mem_cons_of_mem _ hw)
      · by_cases hne : c = cell
        · exact .inl (hne ▸ List.mem_cons_self)
        · refine .inr (exists_update _ hnotifier ?_ hwaking)
          intro h
          exact hne (Option.some.inj h).symm
    all_goals
      simp only [setNotifier, WakerMap.wake, hreason, hresolve]
    exacts [hlt, hset, hresolved, hresolves, hunique, hresult]

end Notifier

/-! ### Runs -/

section Runs
variable [DecidableEq E] {s s' : CondVar E} {event : E} {n : Nat}

theorem inv_waiterStep {consume : Bool} (hinv : Inv s) (h : s.waiterStep event consume = some s') : Inv s' := by
  unfold waiterStep at h
  cases hwaiter : s.waiters event with
  | idle => simp [hwaiter] at h
  | lock =>
    simp only [hwaiter, Option.ite_none_right_eq_some, Option.some.injEq] at h
    obtain ⟨hfree, rfl⟩ := h
    refine hinv.moveWaiter hwaiter ?_ rfl rfl fun h => by cases h
    exact hinv.lock.acquire hfree fun other hother h => holds_setWaiter_of_ne hother h
  | check =>
    simp only [hwaiter] at h
    split at h
    · cases h
      refine hinv.moveWaiter hwaiter ?_ rfl rfl fun h => by cases h
      exact hinv.keepWaiter hwaiter rfl rfl rfl fun _ => rfl
    · next hpredicate =>
      cases h
      exact hinv.makeWait hwaiter (Bool.not_eq_true _ ▸ hpredicate)
  | insert cell =>
    simp only [hwaiter, Option.some.injEq] at h
    subst h
    exact hinv.register hwaiter
  | unlock cell =>
    simp only [hwaiter, Option.some.injEq] at h
    subst h
    refine hinv.moveWaiter hwaiter ?_ rfl rfl fun h => by cases h
    refine hinv.lock.release (holds_waiter hwaiter rfl) ?_ fun other hother h => holds_setWaiter_of_ne hother h
    simp only [holds, setWaiter, Function.update_self]
    rfl
  | load cell =>
    simp only [hwaiter] at h
    split at h
    · cases h
      refine hinv.moveWaiter hwaiter ?_ rfl rfl fun h => by cases h
      exact hinv.keepWaiter hwaiter rfl rfl rfl fun h => by cases h
    · next hload =>
      cases h
      exact hinv.returned hwaiter hload (.inl rfl)
    · next hload =>
      cases h
      exact hinv.returned hwaiter hload (.inr rfl)
  | pending cell =>
    simp only [hwaiter, Option.some.injEq] at h
    subst h
    refine hinv.moveWaiter hwaiter ?_ rfl rfl fun h => by cases h
    exact hinv.keepWaiter hwaiter rfl rfl rfl fun h => by cases h
  | found =>
    simp only [hwaiter, Option.some.injEq] at h
    subst h
    exact hinv.leave hwaiter _

theorem inv_notifierStep (hinv : Inv s) (h : s.notifierStep n = some s') : Inv s' := by
  unfold notifierStep at h
  cases hnotifier : s.notifiers n with
  | idle => simp [hnotifier] at h
  | done reason took => simp [hnotifier] at h
  | lock event reason =>
    simp only [hnotifier, Option.ite_none_right_eq_some, Option.some.injEq] at h
    obtain ⟨hfree, rfl⟩ := h
    refine hinv.moveNotifier hnotifier ?_ rfl rfl rfl rfl rfl
    exact hinv.lock.acquire hfree fun other hother h => holds_setNotifier_of_ne hother h
  | setPredicate event reason =>
    simp only [hnotifier, Option.some.injEq] at h
    subst h
    exact hinv.makeTrue hnotifier
  | remove event reason =>
    simp only [hnotifier] at h
    split at h
    · next hentry =>
      cases h
      exact hinv.findNone hnotifier hentry
    · next entry hentry =>
      cases h
      exact hinv.takeEntry hnotifier hentry
  | store event reason cell =>
    simp only [hnotifier, Option.some.injEq] at h
    subst h
    exact hinv.storeReason hnotifier
  | wake reason cell =>
    simp only [hnotifier, Option.some.injEq] at h
    subst h
    exact hinv.wakeTask hnotifier
  | unlock reason took =>
    simp only [hnotifier, Option.some.injEq] at h
    subst h
    refine hinv.moveNotifier hnotifier ?_ rfl rfl rfl rfl rfl
    refine hinv.lock.release (holds_notifier hnotifier rfl) ?_ fun other hother h => holds_setNotifier_of_ne hother h
    simp only [holds, setNotifier, Function.update_self]
    rfl

theorem inv_step {a : CondAction E} (hinv : Inv s) (h : step s a = some s') : Inv s' := by
  cases a with
  | start event =>
    simp only [step, Option.ite_none_right_eq_some, Option.some.injEq] at h
    obtain ⟨hwaiter, rfl⟩ := h
    refine hinv.moveWaiter hwaiter ?_ rfl rfl fun h => by cases h
    exact hinv.keepWaiter hwaiter rfl rfl rfl fun h => by cases h
  | waiter event consume => exact inv_waiterStep hinv h
  | notify n event reason =>
    simp only [step, Option.ite_none_right_eq_some, Option.some.injEq] at h
    obtain ⟨⟨hnotifier, hreason⟩, rfl⟩ := h
    exact hinv.startNotifier hnotifier hreason
  | notifier n => exact inv_notifierStep hinv h

theorem inv_of_reachable {predicate : E → Bool} (h : Reachable step { predicate } s) : Inv s :=
  h.invariant (inv_init predicate) fun hinv _ hstep => inv_step hinv hstep

end Runs

/-! ### No wake-up is lost -/

/-- The notifier was called with the reason, and has left it in the cell. -/
def Resolves (s : CondVar E) (n : Nat) (reason : Reason) (cell : Cell) : Prop :=
  (s.notifiers n).reason? = some reason ∧ (s.notifiers n).resolved? = some cell

/-- A `Wait` that is registered has been given a reason, if the predicate is true and nobody holds the lock. -/
theorem Inv.reason_set {s : CondVar E} {event : E} {cell : Cell} (hinv : Inv s) (hfree : s.lock = none)
    (hpredicate : s.predicate event = true) (hregistered : (s.waiters event).registered? = some cell) :
    s.map.reasons cell ≠ .none := by
  intro hunset
  have hheld : ∀ n, s.holds (.notifier n) ≠ true := fun n => hinv.lock.not_holds hfree
  obtain hentry | ⟨n, hstoring⟩ := hinv.entries.found event cell hregistered hunset
  · obtain ⟨n, hremoving⟩ := hinv.predicates.entry event hentry hpredicate
    exact hheld n (CondNotifier.holdsLock_of_removing? hremoving)
  · exact hheld n (CondNotifier.holdsLock_of_storing? hstoring)

/-- With the lock free, whoever has been given a reason has been woken. -/
theorem Inv.woken {s : CondVar E} {cell : Cell} (hinv : Inv s) (hfree : s.lock = none)
    (hset : s.map.reasons cell ≠ .none) : cell ∈ s.map.woken := by
  obtain hwoken | ⟨n, hwaking⟩ := hinv.reasons.woken cell hset
  · exact hwoken
  · have hheld : s.holds (.notifier n) = true := CondNotifier.holdsLock_of_waking? hwaking
    exact absurd hheld (hinv.lock.not_holds hfree)

theorem Inv.resolves {s : CondVar E} {n : Nat} {reason : Reason} {cell : Cell} (hinv : Inv s)
    (h : s.Resolves n reason cell) : s.map.reasons cell = reason := by
  have := hinv.reasons.resolves n cell h.2
  rw [h.1] at this
  exact (Option.some.inj this).symm

theorem Inv.resolves_iff {s : CondVar E} {n n' : Nat} {reason reason' : Reason} {cell cell' : Cell} (hinv : Inv s)
    (h : s.Resolves n reason cell) (h' : s.Resolves n' reason' cell') : n' = n ↔ cell' = cell := by
  constructor
  · rintro rfl
    have := h.2
    rw [h'.2] at this
    exact Option.some.inj this
  · rintro rfl
    exact hinv.reasons.unique n' n cell' h'.2 h.2

/-- Nobody is left pending without a reason while the lock is free and the predicate true. The notifiers that have
    resolved a `Wait` and the `Wait`s that have returned correspond to one another, and a `Wait` returns what the
    reason says that its notifier was called with. -/
theorem condition_variable [DecidableEq E] (predicate : E → Bool) (s : CondVar E) (h : Reachable step { predicate } s) :
    (s.lock = none → ∀ event, s.predicate event = true → ∀ cell,
      s.waiters event = .load cell ∨ s.waiters event = .pending cell → s.map.reasons cell ≠ .none ∧ cell ∈ s.map.woken) ∧
    (∀ n reason cell, s.Resolves n reason cell → s.map.reasons cell = reason ∧
      ∀ n' reason' cell', s.Resolves n' reason' cell' → (n' = n ↔ cell' = cell)) ∧
    ∀ cell result, s.results cell = some result → ∃ n reason, s.Resolves n reason cell ∧ reason.outcome = some result := by
  have hinv := inv_of_reachable h
  refine ⟨?_, ?_, ?_⟩
  · intro hfree event hpredicate cell hwaiter
    have hregistered : (s.waiters event).registered? = some cell := by
      obtain hwaiter | hwaiter := hwaiter <;> rw [hwaiter] <;> rfl
    have hset := hinv.reason_set hfree hpredicate hregistered
    exact ⟨hset, hinv.woken hfree hset⟩
  · intro n reason cell hresolves
    exact ⟨hinv.resolves hresolves, fun n' reason' cell' h' => hinv.resolves_iff hresolves h'⟩
  · intro cell result hresult
    have hload := hinv.reasons.result cell result hresult
    rw [WakerMap.load_eq] at hload
    have hset : s.map.reasons cell ≠ .none := by
      intro hunset
      rw [hunset] at hload
      cases hload
    obtain ⟨n, hresolved⟩ := hinv.reasons.resolved cell hset
    exact ⟨n, _, ⟨hinv.reasons.resolves n cell hresolved, hresolved⟩, hload⟩

/-- A notifier runs between two steps of a `Wait`: after its unlock and before it loads the reason. -/
def betweenSteps : List (CondAction Nat) :=
  [.start 7] ++ List.replicate 4 (.waiter 7 false) ++ [.notify 0 7 .on] ++ List.replicate 3 (.notifier 0) ++
    [.waiter 7 false] ++ List.replicate 3 (.notifier 0)

theorem condition_variable_pending :
    ∃ s : CondVar Nat, run step { predicate := fun _ => false } betweenSteps = some s ∧ s.waiters 7 = .pending 0 ∧
      s.map.reasons 0 ≠ .none ∧ 0 ∈ s.map.woken := by
  have hrun : (run step ({ predicate := fun _ => false } : CondVar Nat) betweenSteps).map
      (fun s => (s.lock, s.predicate 7, s.waiters 7)) = some (none, true, .pending 0) := rfl
  obtain ⟨s, hrun, hs⟩ := Option.map_eq_some_iff.mp hrun
  simp only [Prod.mk.injEq] at hs
  obtain ⟨hfree, hpredicate, hwaiter⟩ := hs
  refine ⟨s, hrun, hwaiter, ?_⟩
  exact (condition_variable _ s (Reachable.of_run betweenSteps hrun)).1 hfree 7 hpredicate 0 (.inr hwaiter)

end CondVar

end Hala
