import Hala.Sync.Maker

/-! Safety of the async mutex, and that it loses no wake-up.

The invariant relates the registered keys, the holder of the inner lock and the guards that have released it
but not yet notified: a future whose poll returned `Pending` without being woken since is registered, and
someone holds the lock or still has to call `notify_all`. -/

namespace Hala.Sync
open Machine

namespace Pc

/-- The inner lock is held: its guard exists. -/
def holdsInner : Pc → Bool
  | .cancel | .returnReady | .guard | .releaseInner => true
  | _ => false

/-- A guard that has released the inner lock and has not run `notify_all` yet. -/
def owesNotify : Pc → Bool
  | .lockWakersToNotify | .notifyAll => true
  | _ => false

/-- The waker of the poll is with the mediator, until it is woken. -/
def registered : Pc → Bool
  | .tryLockAgain | .returnPending | .pending => true
  | _ => false

/-- The second `try_lock` has failed. -/
def refused : Pc → Bool
  | .returnPending | .pending => true
  | _ => false

end Pc

section Updates
variable (s : State) (f g : Nat) (l : LockFuture) (pc : Pc)

@[simp] theorem set_innerLocked : (s.set f l).innerLocked = s.innerLocked := rfl
@[simp] theorem set_mediator : (s.set f l).mediator = s.mediator := rfl
@[simp] theorem set_self : (s.set f l).futures f = l := by simp [State.set]

variable {f g} in
theorem set_of_ne (h : g ≠ f) : (s.set f l).futures g = s.futures g := by
  simp [State.set, h]

end Updates

structure Inv (s : State) : Prop where
  innerLocked_of_holds : ∀ f, (s.futures f).pc.holdsInner = true → s.innerLocked = true
  holder_unique : ∀ f g, (s.futures f).pc.holdsInner = true → (s.futures g).pc.holdsInner = true → f = g
  key_lt : ∀ f k, (s.futures f).waitKey = some k → k < s.mediator.keyNext
  key_unique : ∀ f g k, (s.futures f).waitKey = some k → (s.futures g).waitKey = some k → f = g
  cancel_key : ∀ f, (s.futures f).pc = .cancel ∨ (s.futures f).pc = .tryLockAgain → ∃ k, (s.futures f).waitKey = some k
  registered : ∀ f, (s.futures f).pc.registered = true →
    (s.futures f).woken = true ∨ ∃ k, (s.futures f).waitKey = some k ∧ (k, (s.futures f).waker) ∈ s.mediator.wakers
  waits : ∀ f, (s.futures f).pc.refused = true →
    (s.futures f).woken = true ∨ s.innerLocked = true ∨ ∃ g, (s.futures g).pc.owesNotify = true

theorem inv_init : Inv {} where
  innerLocked_of_holds f h := by cases h
  holder_unique f g h := by cases h
  key_lt f k h := by cases h
  key_unique f g k h := by cases h
  cancel_key f h := by rcases h with h | h <;> cases h
  registered f h := by cases h
  waits f h := by cases h

/-- What a step of `f` may change. The inner lock follows its holder; keys are fresh; the entries of the other
    futures stay unless they are woken; `f` returns `Pending` only while the lock is held; and a duty to notify
    ends only when all registered futures are woken. -/
structure Changed (s s' : State) (f : Nat) : Prop where
  pc : ∀ g, g ≠ f → (s'.futures g).pc = (s.futures g).pc
  waker : ∀ g, g ≠ f → (s'.futures g).waker = (s.futures g).waker
  waitKey : ∀ g, g ≠ f → (s'.futures g).waitKey = (s.futures g).waitKey
  woken : ∀ g, g ≠ f → (s.futures g).woken = true → (s'.futures g).woken = true
  keyNext : s.mediator.keyNext ≤ s'.mediator.keyNext
  key : ∀ k, (s'.futures f).waitKey = some k →
    (s.futures f).waitKey = some k ∨ k = s.mediator.keyNext ∧ k < s'.mediator.keyNext
  entry : ∀ g k, g ≠ f → (s.futures g).waitKey = some k → (k, (s.futures g).waker) ∈ s.mediator.wakers →
    (s'.futures g).woken = true ∨ (k, (s.futures g).waker) ∈ s'.mediator.wakers
  lock : (s'.futures f).pc.holdsInner = true → s'.innerLocked = true ∧
    ((s.futures f).pc.holdsInner = true ∨ s.innerLocked = false)
  unlock : s'.innerLocked = false → s.innerLocked = false ∨
    ((s.futures f).pc.holdsInner = true ∧ (s'.futures f).pc.holdsInner = false ∧ (s'.futures f).pc.owesNotify = true)
  cancel : (s'.futures f).pc = .cancel ∨ (s'.futures f).pc = .tryLockAgain → ∃ k, (s'.futures f).waitKey = some k
  registered : (s'.futures f).pc.registered = true → (s'.futures f).woken = true ∨
    ∃ k, (s'.futures f).waitKey = some k ∧ (k, (s'.futures f).waker) ∈ s'.mediator.wakers
  refused : (s'.futures f).pc.refused = true → s'.innerLocked = true ∨
    (s.futures f).pc.refused = true ∧ ((s.futures f).woken = true → (s'.futures f).woken = true)
  notify : (s.futures f).pc.owesNotify = true → (s'.futures f).pc.owesNotify = true ∨
    ∀ g, g ≠ f → (s.futures g).pc.registered = true → (s'.futures g).woken = true

section Preserved
variable {s s' : State} {f : Nat}

theorem Pc.registered_of_refused {pc : Pc} (h : pc.refused = true) : pc.registered = true := by
  cases pc <;> first | rfl | cases h

/-- No other future holds the lock when `f` gets or keeps it. -/
theorem Changed.holder (hc : Changed s s' f) (hi : Inv s) {g : Nat} (hg : g ≠ f)
    (hf : (s'.futures f).pc.holdsInner = true) : (s.futures g).pc.holdsInner = false := by
  cases hholds : (s.futures g).pc.holdsInner with
  | false => rfl
  | true =>
    rcases (hc.lock hf).2 with h | h
    · exact absurd (hi.holder_unique g f hholds h) hg
    · rw [hi.innerLocked_of_holds g hholds] at h
      cases h

theorem Changed.innerLocked_of_holds (hc : Changed s s' f) (hi : Inv s) (g : Nat)
    (hg : (s'.futures g).pc.holdsInner = true) : s'.innerLocked = true := by
  rcases eq_or_ne g f with rfl | hgf
  · exact (hc.lock hg).1
  · rw [hc.pc g hgf] at hg
    cases hin : s'.innerLocked with
    | true => rfl
    | false =>
      rcases hc.unlock hin with hs | ⟨hf, -, -⟩
      · rw [← hs, hi.innerLocked_of_holds g hg]
      · exact absurd (hi.holder_unique g f hg hf) hgf

theorem Changed.holder_unique (hc : Changed s s' f) (hi : Inv s) (g h : Nat) (hg : (s'.futures g).pc.holdsInner = true)
    (hh : (s'.futures h).pc.holdsInner = true) : g = h := by
  rcases eq_or_ne g f with rfl | hgf
  · rcases eq_or_ne h g with rfl | hhf
    · rfl
    · rw [hc.pc h hhf, hc.holder hi hhf hg] at hh
      cases hh
  · rcases eq_or_ne h f with rfl | hhf
    · rw [hc.pc g hgf, hc.holder hi hgf hh] at hg
      cases hg
    · rw [hc.pc g hgf] at hg
      rw [hc.pc h hhf] at hh
      exact hi.holder_unique g h hg hh

theorem Changed.key_lt (hc : Changed s s' f) (hi : Inv s) (g k : Nat) (hk : (s'.futures g).waitKey = some k) :
    k < s'.mediator.keyNext := by
  rcases eq_or_ne g f with rfl | hgf
  · rcases hc.key k hk with h | ⟨-, h⟩
    · exact Nat.lt_of_lt_of_le (hi.key_lt g k h) hc.keyNext
    · exact h
  · rw [hc.waitKey g hgf] at hk
    exact Nat.lt_of_lt_of_le (hi.key_lt g k hk) hc.keyNext

/-- A key of another future is not the one `f` has now: it is old, or `f`'s is. -/
theorem Changed.key_other (hc : Changed s s' f) (hi : Inv s) {g k : Nat} (hgf : g ≠ f)
    (hg : (s.futures g).waitKey = some k) (hf : (s'.futures f).waitKey = some k) : False := by
  rcases hc.key k hf with h | ⟨rfl, -⟩
  · exact hgf (hi.key_unique g f k hg h)
  · exact Nat.lt_irrefl _ (hi.key_lt g _ hg)

theorem Changed.key_unique (hc : Changed s s' f) (hi : Inv s) (g h k : Nat) (hg : (s'.futures g).waitKey = some k)
    (hh : (s'.futures h).waitKey = some k) : g = h := by
  rcases eq_or_ne g f with rfl | hgf
  · rcases eq_or_ne h g with rfl | hhf
    · rfl
    · rw [hc.waitKey h hhf] at hh
      exact (hc.key_other hi hhf hh hg).elim
  · rw [hc.waitKey g hgf] at hg
    rcases eq_or_ne h f with rfl | hhf
    · exact (hc.key_other hi hgf hg hh).elim
    · rw [hc.waitKey h hhf] at hh
      exact hi.key_unique g h k hg hh

theorem Changed.registered_all (hc : Changed s s' f) (hi : Inv s) (g : Nat) (hg : (s'.futures g).pc.registered = true) :
    (s'.futures g).woken = true ∨
      ∃ k, (s'.futures g).waitKey = some k ∧ (k, (s'.futures g).waker) ∈ s'.mediator.wakers := by
  rcases eq_or_ne g f with rfl | hgf
  · exact hc.registered hg
  · rw [hc.pc g hgf] at hg
    rcases hi.registered g hg with hw | ⟨k, hk, hmem⟩
    · exact Or.inl (hc.woken g hgf hw)
    · rcases hc.entry g k hgf hk hmem with hw | hmem'
      · exact Or.inl hw
      · refine Or.inr ⟨k, ?_, ?_⟩
        · rw [hc.waitKey g hgf, hk]
        · rw [hc.waker g hgf]
          exact hmem'

/-- Who waits for `g`'s sake: the lock is held, or a notify is owed, unless the step woke `g`. -/
theorem Changed.waits_kept (hc : Changed s s' f) (hi : Inv s) {g : Nat} (hg : (s.futures g).pc.refused = true)
    (hw : (s.futures g).woken = true → (s'.futures g).woken = true)
    (hn : g = f → (s'.futures f).pc.owesNotify = (s.futures f).pc.owesNotify) :
    (s'.futures g).woken = true ∨ s'.innerLocked = true ∨ ∃ h, (s'.futures h).pc.owesNotify = true := by
  rcases hi.waits g hg with h | hin | ⟨h, hh⟩
  · exact Or.inl (hw h)
  · cases hin' : s'.innerLocked with
    | true => exact Or.inr (Or.inl rfl)
    | false =>
      rcases hc.unlock hin' with hs | ⟨-, -, hpc⟩
      · rw [hin] at hs
        cases hs
      · exact Or.inr (Or.inr ⟨f, hpc⟩)
  · rcases eq_or_ne h f with rfl | hhf
    · rcases hc.notify hh with hpc | hall
      · exact Or.inr (Or.inr ⟨h, hpc⟩)
      · rcases eq_or_ne g h with rfl | hgh
        · exact Or.inr (Or.inr ⟨g, (hn rfl).trans hh⟩)
        · exact Or.inl (hall g hgh (Pc.registered_of_refused hg))
    · exact Or.inr (Or.inr ⟨h, (hc.pc h hhf).symm ▸ hh⟩)

theorem Pc.not_owes_of_refused {pc : Pc} (h : pc.refused = true) : pc.owesNotify = false := by
  cases pc <;> first | rfl | cases h

theorem Inv.changed (hi : Inv s) (hc : Changed s s' f) : Inv s' where
  innerLocked_of_holds := hc.innerLocked_of_holds hi
  holder_unique := hc.holder_unique hi
  key_lt := hc.key_lt hi
  key_unique := hc.key_unique hi
  cancel_key g hg := by
    rcases eq_or_ne g f with rfl | hgf
    · exact hc.cancel hg
    · rw [hc.pc g hgf] at hg
      rw [hc.waitKey g hgf]
      exact hi.cancel_key g hg
  registered := hc.registered_all hi
  waits g hg := by
    rcases eq_or_ne g f with rfl | hgf
    · rcases hc.refused hg with hin | ⟨href, hw⟩
      · exact Or.inr (Or.inl hin)
      · exact hc.waits_kept hi href hw fun _ =>
          (Pc.not_owes_of_refused hg).trans (Pc.not_owes_of_refused href).symm
    · rw [hc.pc g hgf] at hg
      exact hc.waits_kept hi hg (hc.woken g hgf) fun h => absurd h hgf

end Preserved

/-! ## The steps -/

section Steps
variable {s s' : State} {f : Nat}

/-- A step that only moves `f` and sets the locks. -/
theorem Inv.goto (hi : Inv s) (pc : Pc) (inner wakers : Bool)
    (hlock : pc.holdsInner = true → inner = true ∧ ((s.futures f).pc.holdsInner = true ∨ s.innerLocked = false))
    (hunlock : inner = false → s.innerLocked = false ∨
      ((s.futures f).pc.holdsInner = true ∧ pc.holdsInner = false ∧ pc.owesNotify = true))
    (hcancel : pc = .cancel ∨ pc = .tryLockAgain → (s.futures f).pc = .tryLockAgain)
    (hreg : pc.registered = true → (s.futures f).pc.registered = true)
    (hrefused : pc.refused = true → inner = true ∨ (s.futures f).pc.refused = true)
    (howes : (s.futures f).pc.owesNotify = true → pc.owesNotify = true) :
    Inv ({ s with innerLocked := inner, wakersLocked := wakers }.goto f pc) := by
  have hother : ∀ g, g ≠ f → ({ s with innerLocked := inner, wakersLocked := wakers }.goto f pc).futures g = s.futures g :=
    fun g hg => set_of_ne _ _ hg
  refine hi.changed ⟨fun g hg => by rw [hother g hg], fun g hg => by rw [hother g hg],
    fun g hg => by rw [hother g hg], fun g hg h => by rw [hother g hg, h], Nat.le_refl _, ?_, fun g k _ _ h => Or.inr h,
    ?_, ?_, ?_, ?_, ?_, ?_⟩ <;> simp only [State.goto, set_self, set_mediator, set_innerLocked]
  · exact fun k hk => Or.inl hk
  · exact hlock
  · exact hunlock
  · exact fun h => hi.cancel_key f (Or.inr (hcancel h))
  · exact fun h => hi.registered f (hreg h)
  · exact fun h => (hrefused h).imp_right fun h => ⟨h, id⟩
  · exact fun h => Or.inl (howes h)

/-- A future that starts a poll is neither registered nor a holder, and keeps its old key. -/
theorem Inv.poll (hi : Inv s) (waker : Waker) (hf : (s.futures f).pc = .created ∨ (s.futures f).pc = .pending) :
    Inv (s.set f { s.futures f with pc := .tryLock, waker, woken := false }) := by
  have howes : (s.futures f).pc.owesNotify = false := by rcases hf with h | h <;> rw [h] <;> rfl
  refine hi.changed ⟨fun g hg => by rw [set_of_ne _ _ hg], fun g hg => by rw [set_of_ne _ _ hg],
    fun g hg => by rw [set_of_ne _ _ hg], fun g hg h => by rw [set_of_ne _ _ hg, h], Nat.le_refl _, ?_,
    fun g k _ _ h => Or.inr h, ?_, ?_, ?_, ?_, ?_, ?_⟩ <;> simp only [set_self, set_mediator, set_innerLocked]
  · exact fun k hk => Or.inl hk
  · simp [Pc.holdsInner]
  · exact fun h => Or.inl h
  · simp
  · simp [Pc.registered]
  · simp [Pc.refused]
  · simp [howes]

/-- `wait_lockable` registers the waker under a fresh key and keeps the other entries. -/
theorem Inv.waitLockable (hi : Inv s) (hf : (s.futures f).pc = .waitLockable) :
    Inv ({ s with mediator := (s.mediator.waitLockable (s.futures f).waker).2 }.set f
      { s.futures f with pc := .tryLockAgain, waitKey := some (s.mediator.waitLockable (s.futures f).waker).1 }) := by
  refine hi.changed ⟨fun g hg => by rw [set_of_ne _ _ hg], fun g hg => by rw [set_of_ne _ _ hg],
    fun g hg => by rw [set_of_ne _ _ hg], fun g hg h => by rw [set_of_ne _ _ hg, h], Nat.le_succ _, ?_, ?_, ?_, ?_, ?_, ?_,
    ?_, ?_⟩ <;> simp only [set_self, set_mediator, set_innerLocked, Mediator.waitLockable]
  · rintro k hk
    cases hk
    exact Or.inr ⟨rfl, Nat.lt_succ_self _⟩
  · intro g k hg hk hmem
    have hne : k ≠ s.mediator.keyNext := Nat.ne_of_lt (hi.key_lt g k hk)
    exact Or.inr (List.mem_cons_of_mem _ (List.mem_filter.mpr ⟨hmem, by simpa using hne⟩))
  · simp [Pc.holdsInner]
  · exact fun h => Or.inl h
  · exact fun _ => ⟨_, rfl⟩
  · exact fun _ => Or.inr ⟨_, rfl, List.mem_cons_self⟩
  · simp [Pc.refused]
  · simp [hf, Pc.owesNotify]

/-- `cancel` removes no entry but that of `f`. -/
theorem Inv.cancel (hi : Inv s) {key : Nat} (hf : (s.futures f).pc = .cancel) (hkey : (s.futures f).waitKey = some key) :
    Inv ({ s with mediator := (s.mediator.cancel key).2 }.set f
      { s.futures f with pc := .returnReady, waitKey := none }) := by
  have hholds : (s.futures f).pc.holdsInner = true := by rw [hf]; rfl
  refine hi.changed ⟨fun g hg => by rw [set_of_ne _ _ hg], fun g hg => by rw [set_of_ne _ _ hg],
    fun g hg => by rw [set_of_ne _ _ hg], fun g hg h => by rw [set_of_ne _ _ hg, h], Nat.le_refl _, ?_, ?_, ?_, ?_, ?_, ?_,
    ?_, ?_⟩ <;> simp only [set_self, set_mediator, set_innerLocked, Mediator.cancel]
  · simp
  · intro g k hg hk hmem
    have hne : k ≠ key := fun h => hg (hi.key_unique g f key (h ▸ hk) hkey)
    exact Or.inr (List.mem_filter.mpr ⟨hmem, by simpa using hne⟩)
  · exact fun _ => ⟨hi.innerLocked_of_holds f hholds, Or.inl hholds⟩
  · exact fun h => Or.inl h
  · simp
  · simp [Pc.registered]
  · simp [Pc.refused]
  · simp [hf, Pc.owesNotify]

/-- `notify_all` wakes every registered future. -/
theorem Inv.notifyAll (hi : Inv s) (f : Nat) :
    Inv (({ s with mediator := s.mediator.notifyAll.2 }.wake s.mediator.notifyAll.1).goto f .unlockWakers) := by
  have hwoken : ∀ g, g ≠ f → (({ s with mediator := s.mediator.notifyAll.2 }.wake s.mediator.notifyAll.1).goto f
      .unlockWakers).futures g = { s.futures g with
        woken := (s.futures g).woken || s.mediator.notifyAll.1.contains (s.futures g).waker } :=
    fun g hg => set_of_ne _ _ hg
  -- A waker with an entry is among the drained ones.
  have hdrained : ∀ g k, (k, (s.futures g).waker) ∈ s.mediator.wakers →
      s.mediator.notifyAll.1.contains (s.futures g).waker = true := fun g k hmem =>
    List.contains_iff_mem.mpr (List.mem_map.mpr ⟨_, hmem, rfl⟩)
  refine hi.changed ⟨fun g hg => by rw [hwoken g hg], fun g hg => by rw [hwoken g hg],
    fun g hg => by rw [hwoken g hg], fun g hg h => by rw [hwoken g hg, h]; rfl, Nat.le_refl _, ?_,
    fun g k hg _ hmem => Or.inl (by rw [hwoken g hg, hdrained g k hmem, Bool.or_true]), ?_, ?_, ?_, ?_, ?_,
    fun _ => Or.inr fun g hg hreg => ?_⟩
  · simp only [State.goto, set_self]
    exact fun k hk => Or.inl hk
  · simp [State.goto, Pc.holdsInner]
  · exact fun h => Or.inl h
  · simp [State.goto]
  · simp [State.goto, Pc.registered]
  · simp [State.goto, Pc.refused]
  · rw [hwoken g hg]
    rcases hi.registered g hreg with h | ⟨k, -, hmem⟩
    · rw [h]
      rfl
    · rw [hdrained g k hmem, Bool.or_true]

theorem Inv.next (hi : Inv s) (h : next s f = some s') : Inv s' := by
  cases hpc : (s.futures f).pc with
  | created | pending | guard | finished | dropped | panicked =>
    simp only [Sync.next, hpc] at h
    cases h
  | tryLock =>
    simp only [Sync.next, hpc] at h
    split at h <;> cases h
    · exact hi.goto .lockWakers s.innerLocked s.wakersLocked (by simp [Pc.holdsInner]) Or.inl (by simp)
        (by simp [Pc.registered]) (by simp [Pc.refused]) (by simp [hpc, Pc.owesNotify])
    · next hfree =>
      exact hi.goto .guard true s.wakersLocked (fun _ => ⟨rfl, Or.inr (by simpa using hfree)⟩) (by simp) (by simp)
        (by simp [Pc.registered]) (by simp [Pc.refused]) (by simp [hpc, Pc.owesNotify])
  | lockWakers =>
    simp only [Sync.next, hpc] at h
    split at h <;> cases h
    exact hi.goto .waitLockable s.innerLocked true (by simp [Pc.holdsInner]) Or.inl (by simp) (by simp [Pc.registered])
      (by simp [Pc.refused]) (by simp [hpc, Pc.owesNotify])
  | waitLockable =>
    simp only [Sync.next, hpc] at h
    cases h
    exact hi.waitLockable hpc
  | tryLockAgain =>
    simp only [Sync.next, hpc] at h
    split at h <;> cases h
    · next hheld =>
      exact hi.goto .returnPending s.innerLocked s.wakersLocked (by simp [Pc.holdsInner]) Or.inl (by simp)
        (by simp [hpc, Pc.registered]) (fun _ => Or.inl hheld) (by simp [hpc, Pc.owesNotify])
    · next hfree =>
      exact hi.goto .cancel true s.wakersLocked (fun _ => ⟨rfl, Or.inr (by simpa using hfree)⟩) (by simp) (fun _ => hpc)
        (by simp [Pc.registered]) (by simp [Pc.refused]) (by simp [hpc, Pc.owesNotify])
  | cancel =>
    simp only [Sync.next, hpc] at h
    -- The key was set by `wait_lockable`, so `unwrap` does not panic.
    obtain ⟨key, hkey⟩ := hi.cancel_key f (Or.inl hpc)
    rw [hkey] at h
    cases h
    exact hi.cancel hpc hkey
  | returnReady =>
    simp only [Sync.next, hpc] at h
    cases h
    have hholds : (s.futures f).pc.holdsInner = true := by rw [hpc]; rfl
    exact hi.goto .guard s.innerLocked false (fun _ => ⟨hi.innerLocked_of_holds f hholds, Or.inl hholds⟩) Or.inl (by simp)
      (by simp [Pc.registered]) (by simp [Pc.refused]) (by simp [hpc, Pc.owesNotify])
  | returnPending =>
    simp only [Sync.next, hpc] at h
    cases h
    exact hi.goto .pending s.innerLocked false (by simp [Pc.holdsInner]) Or.inl (by simp) (by simp [hpc, Pc.registered])
      (fun _ => Or.inr (by rw [hpc]; rfl)) (by simp [hpc, Pc.owesNotify])
  | releaseInner =>
    simp only [Sync.next, hpc] at h
    cases h
    exact hi.goto .lockWakersToNotify false s.wakersLocked (by simp [Pc.holdsInner])
      (fun _ => Or.inr ⟨by rw [hpc]; rfl, rfl, rfl⟩) (by simp) (by simp [Pc.registered]) (by simp [Pc.refused])
      (by simp [hpc, Pc.owesNotify])
  | lockWakersToNotify =>
    simp only [Sync.next, hpc] at h
    split at h <;> cases h
    exact hi.goto .notifyAll s.innerLocked true (by simp [Pc.holdsInner]) Or.inl (by simp) (by simp [Pc.registered])
      (by simp [Pc.refused]) (fun _ => rfl)
  | notifyAll =>
    simp only [Sync.next, hpc] at h
    cases h
    exact hi.notifyAll f
  | unlockWakers =>
    simp only [Sync.next, hpc] at h
    cases h
    exact hi.goto .finished s.innerLocked false (by simp [Pc.holdsInner]) Or.inl (by simp) (by simp [Pc.registered])
      (by simp [Pc.refused]) (by simp [hpc, Pc.owesNotify])

theorem Inv.step (hi : Inv s) {a : Action} (h : step s a = some s') : Inv s' := by
  cases a with
  | poll f waker =>
    simp only [Sync.step, Option.ite_none_right_eq_some, Option.some.injEq] at h
    obtain ⟨hpc, rfl⟩ := h
    exact hi.poll waker hpc
  | next f => exact hi.next h
  | unlock f =>
    simp only [Sync.step, Option.ite_none_right_eq_some, Option.some.injEq] at h
    obtain ⟨hpc, rfl⟩ := h
    have hholds : (s.futures f).pc.holdsInner = true := by rw [hpc]; rfl
    exact hi.goto .releaseInner s.innerLocked s.wakersLocked
      (fun _ => ⟨hi.innerLocked_of_holds f hholds, Or.inl hholds⟩) Or.inl (by simp) (by simp [Pc.registered])
      (by simp [Pc.refused]) (by simp [hpc, Pc.owesNotify])
  | drop f =>
    simp only [Sync.step, Option.ite_none_right_eq_some, Option.some.injEq] at h
    obtain ⟨hpc, rfl⟩ := h
    exact hi.goto .dropped s.innerLocked s.wakersLocked (by simp [Pc.holdsInner]) Or.inl (by simp) (by simp [Pc.registered])
      (by simp [Pc.refused]) (by rcases hpc with hpc | hpc <;> simp [hpc, Pc.owesNotify])

end Steps

/-- In every reachable state at most one guard exists, and a future whose latest poll returned `Pending` while
    the inner lock is free has been woken, or a released guard has not run its `notify_all` yet. -/
theorem mutex_safe (s : State) (h : Reachable step {} s) :
    (∀ f g, (s.futures f).pc.holdsInner = true → (s.futures g).pc.holdsInner = true → f = g) ∧
    ∀ f, s.innerLocked = false → (s.futures f).pc = .pending →
      (s.futures f).woken = true ∨ ∃ g, (s.futures g).pc.owesNotify = true := by
  have hi : Inv s := h.invariant inv_init fun hi _ hs => hi.step hs
  refine ⟨hi.holder_unique, ?_⟩
  intro f hfree hpc
  rcases hi.waits f (by rw [hpc]; rfl) with hw | hin | hn
  · exact Or.inl hw
  · rw [hin] at hfree
    cases hfree
  · exact Or.inr hn

/-- Future 0 takes the lock, future 1 is refused, and future 0's guard releases the lock and notifies. -/
def handover : List Action :=
  [.poll 0 7, .next 0, .poll 1 8, .next 1, .next 1, .next 1, .next 1, .next 1, .unlock 0, .next 0, .next 0, .next 0]

theorem mutex_safe_handover :
    ∃ s, run step {} handover = some s ∧ s.innerLocked = false ∧ (s.futures 1).pc = .pending ∧
      ((s.futures 1).woken = true ∨ ∃ g, (s.futures g).pc.owesNotify = true) :=
  ⟨_, rfl, rfl, rfl, (mutex_safe _ (Reachable.of_run handover rfl)).2 1 rfl rfl⟩

end Hala.Sync
