import Hala.Sync.Spin

/-! Mutual exclusion of the spin mutex.

The flag is set as long as there is a guard, from the exchange of the flag before it is made to the store after it is
dropped; the guard word has its address in between. -/

namespace Hala.Sync
open Machine

namespace Spin
variable {s s' : Spin} {owner : Option GuardPlace} {t g : Nat} {ptr : Ptr} {call : SpinCall}

def holds (s : Spin) (place : GuardPlace) : Bool := (s.guardAt place).isSome

/-- What the flag and the guard word are, by the place of the guard. -/
inductive Owned (s : Spin) : Option GuardPlace → Prop
  | free (hmutex : s.mutex = ⟨false, 0⟩) : Owned s none
  | making {t : Nat} {ptr : Ptr} (hcall : s.calls t = .setGuard ptr) (hmutex : s.mutex = ⟨true, 0⟩) : Owned s (some (.making t))
  | returned {g : Nat} {ptr : Ptr} (hguard : s.guards g = some ptr) (hmutex : s.mutex = ⟨true, ptr⟩) :
      Owned s (some (.returned g))
  | unsetting {t : Nat} {ptr : Ptr} (hcall : s.calls t = .unsetGuard ptr) (hmutex : s.mutex = ⟨true, ptr⟩) :
      Owned s (some (.dropping t))
  | clearing {t : Nat} {ptr : Ptr} (hcall : s.calls t = .clearFlag ptr) (hmutex : s.mutex = ⟨true, 0⟩) :
      Owned s (some (.dropping t))

/-- There is no guard but that of the owner. -/
structure Inv (s : Spin) (owner : Option GuardPlace) : Prop where
  held : Tasks.Held owner s.holds
  owned : s.Owned owner
  no_panic : ∀ t, s.calls t ≠ .panicked

theorem inv_init : Inv {} none where
  held place h := by cases place <;> cases h
  owned := .free rfl
  no_panic _ h := by cases h

/-! ### Places -/

theorem holds_making (h : s.calls t = .setGuard ptr) : s.holds (.making t) = true := by
  simp [holds, guardAt, h, SpinCall.making]

theorem holds_returned (h : s.guards g = some ptr) : s.holds (.returned g) = true := by
  simp [holds, guardAt, h]

theorem holds_dropping (h : (s.calls t).dropping = some ptr) : s.holds (.dropping t) = true := by
  simp [holds, guardAt, h]

/-- A place where there is a guard after a step of `t` is one where there was, if it is not one of `t`. -/
theorem holds_of_update {mutex : SpinMutex} {guards : Nat → Option Ptr} {place : GuardPlace}
    (h : holds ⟨mutex, Function.update s.calls t call, guards⟩ place = true)
    (hguards : ∀ g ptr, place = .returned g → guards g = some ptr → s.guards g = some ptr)
    (hmaking : place = .making t → call.making = none) (hdropping : place = .dropping t → call.dropping = none) :
    s.holds place = true := by
  cases place with
  | returned g =>
    obtain ⟨ptr, hptr⟩ := Option.isSome_iff_exists.mp h
    exact holds_returned (hguards g ptr rfl hptr)
  | making u =>
    by_cases hu : u = t
    · subst hu
      simp [holds, guardAt, hmaking rfl] at h
    · simpa [holds, guardAt, hu] using h
  | dropping u =>
    by_cases hu : u = t
    · subst hu
      simp [holds, guardAt, hdropping rfl] at h
    · simpa [holds, guardAt, hu] using h

theorem no_panic_update (h : ∀ u, s.calls u ≠ .panicked) (hcall : call ≠ .panicked) (u : Nat) :
    Function.update s.calls t call u ≠ .panicked := by
  by_cases hu : u = t
  · rwa [hu, Function.update_self]
  · rw [Function.update_of_ne hu]
    exact h u

/-! ### The steps -/

/-- A thread without a guard goes on without one. -/
theorem Inv.goto (hi : Inv s owner) (hmaking : (s.calls t).making = none) (hdropping : (s.calls t).dropping = none)
    (hmaking' : call.making = none) (hdropping' : call.dropping = none) (hcall : call ≠ .panicked) :
    Inv (s.setCall t call) owner where
  held := hi.held.keep fun _ h => holds_of_update h (fun _ _ _ h => h) (fun _ => hmaking') (fun _ => hdropping')
  owned := by
    have hkept : ∀ u, (s.calls u).making ≠ none ∨ (s.calls u).dropping ≠ none → (s.setCall t call).calls u = s.calls u := by
      rintro u hu
      refine Function.update_of_ne ?_ _ _
      rintro rfl
      exact hu.elim (· hmaking) (· hdropping)
    cases hi.owned with
    | free hmutex => exact .free hmutex
    | making h hmutex => exact .making (by rw [hkept _ (by simp [h, SpinCall.making]), h]) hmutex
    | returned h hmutex => exact .returned h hmutex
    | unsetting h hmutex => exact .unsetting (by rw [hkept _ (by simp [h, SpinCall.dropping]), h]) hmutex
    | clearing h hmutex => exact .clearing (by rw [hkept _ (by simp [h, SpinCall.dropping]), h]) hmutex
  no_panic := no_panic_update hi.no_panic hcall

/-- The flag is exchanged only when there is no guard. -/
theorem Inv.take (hi : Inv s owner) (hflag : s.mutex.flag = false) (ptr : Ptr) :
    Inv ({ s with mutex := { s.mutex with flag := true } }.setCall t (.setGuard ptr)) (some (.making t)) := by
  have hfree : s.mutex = ⟨false, 0⟩ ∧ owner = none := by
    cases hi.owned with
    | free hmutex => exact ⟨hmutex, rfl⟩
    | making _ hmutex | returned _ hmutex | unsetting _ hmutex | clearing _ hmutex =>
      rw [hmutex] at hflag
      cases hflag
  obtain ⟨hmutex, rfl⟩ := hfree
  refine ⟨hi.held.acquire rfl fun place hplace h => ?_, ?_, no_panic_update hi.no_panic (by simp)⟩
  · exact holds_of_update h (fun _ _ _ h => h) (fun h => absurd h hplace) (fun _ => rfl)
  · exact .making (Function.update_self ..) (by simp [setCall, hmutex])

theorem Inv.mutex_of_making (hi : Inv s owner) (hcall : s.calls t = .setGuard ptr) : s.mutex = ⟨true, 0⟩ := by
  obtain rfl := hi.held _ (holds_making hcall)
  cases hi.owned with
  | making _ hmutex => exact hmutex

/-- The exchange of the guard word has succeeded, and the guard is returned. -/
theorem Inv.returned (hi : Inv s owner) (hcall : s.calls t = .setGuard ptr) (hname : s.guards g = none) :
    Inv (({ s with mutex := { s.mutex with guard := ptr } }.setCall t .idle).setGuard g (some ptr)) (some (.returned g)) := by
  have hholds := holds_making hcall
  have hmutex := hi.mutex_of_making hcall
  obtain rfl := hi.held _ hholds
  refine ⟨hi.held.pass hholds ?_ fun place hplace h => ?_, ?_, no_panic_update hi.no_panic (by simp)⟩
  · simp [holds, guardAt, setCall, Spin.setGuard, SpinCall.making]
  · refine holds_of_update h (fun g' ptr' hg' h => ?_) (fun _ => rfl) (fun _ => rfl)
    have hne : g' ≠ g := by
      rintro rfl
      exact hplace hg'
    rwa [Function.update_of_ne hne] at h
  · exact .returned (Function.update_self ..) (by simp [setCall, Spin.setGuard, hmutex])

/-- Whichever thread drops the guard. -/
theorem Inv.drop (hi : Inv s owner) (hguard : s.guards g = some ptr) :
    Inv ((s.setGuard g none).setCall t (.unsetGuard ptr)) (some (.dropping t)) := by
  have hholds := holds_returned hguard
  obtain rfl := hi.held _ hholds
  have hmutex : s.mutex = ⟨true, ptr⟩ := by
    cases hi.owned with
    | returned hguard' hmutex =>
      rw [hguard] at hguard'
      rw [hmutex, Option.some.inj hguard']
  refine ⟨hi.held.pass hholds ?_ fun place hplace h => ?_, ?_, no_panic_update hi.no_panic (by simp)⟩
  · simp [holds, guardAt, setCall, Spin.setGuard]
  · refine holds_of_update h (fun g' ptr' _ h => ?_) (fun _ => rfl) (fun h => absurd h hplace)
    rcases Tasks.update_cases h with ⟨-, hnone⟩ | ⟨-, hguard'⟩
    · cases hnone
    · exact hguard'
  · exact .unsetting (Function.update_self ..) hmutex

/-- The exchange of the guard word back succeeds. -/
theorem Inv.unset (hi : Inv s owner) (hcall : s.calls t = .unsetGuard ptr) : s.mutex.guard = ptr ∧
    Inv ({ s with mutex := { s.mutex with guard := 0 } }.setCall t (.clearFlag ptr)) (some (.dropping t)) := by
  have hdropping : (s.calls t).dropping = some ptr := by
    rw [hcall]
    rfl
  have hholds := holds_dropping hdropping
  obtain rfl := hi.held _ hholds
  have hmutex : s.mutex = ⟨true, ptr⟩ := by
    cases hi.owned with
    | unsetting hcall' hmutex =>
      rw [hcall] at hcall'
      cases hcall'
      exact hmutex
    | clearing hcall' hmutex =>
      rw [hcall] at hcall'
      cases hcall'
  refine ⟨by rw [hmutex], hi.held.keep fun place h => ?_, ?_, no_panic_update hi.no_panic (by simp)⟩
  · by_cases hplace : place = .dropping t
    · rwa [hplace]
    · exact holds_of_update h (fun _ _ _ h => h) (fun _ => rfl) (fun h => absurd h hplace)
  · exact .clearing (Function.update_self ..) (by simp [setCall, hmutex])

theorem Inv.clear (hi : Inv s owner) (hcall : s.calls t = .clearFlag ptr) :
    Inv ({ s with mutex := { s.mutex with flag := false } }.setCall t .idle) none := by
  have hdropping : (s.calls t).dropping = some ptr := by
    rw [hcall]
    rfl
  have hholds := holds_dropping hdropping
  obtain rfl := hi.held _ hholds
  have hmutex : s.mutex = ⟨true, 0⟩ := by
    cases hi.owned with
    | unsetting hcall' hmutex =>
      rw [hcall] at hcall'
      cases hcall'
    | clearing hcall' hmutex => exact hmutex
  refine ⟨hi.held.release hholds ?_ fun place _ h => ?_, ?_, no_panic_update hi.no_panic (by simp)⟩
  · simp [holds, guardAt, setCall, SpinCall.dropping]
  · exact holds_of_update h (fun _ _ _ h => h) (fun _ => rfl) (fun _ => rfl)
  · exact .free (by simp [setCall, hmutex])

theorem Inv.next {spurious : Bool} (hi : Inv s owner) (hs : s.next t spurious ptr g = some s') :
    ∃ owner', Inv s' owner' := by
  unfold Spin.next at hs
  split at hs
  · cases hs
  · cases hs
  · next hcall =>
    split at hs
    · obtain rfl := Option.some.inj hs
      exact ⟨owner, hi.goto (by rw [hcall]; rfl) (by rw [hcall]; rfl) rfl rfl (by simp)⟩
    · next hfree =>
      obtain rfl := Option.some.inj hs
      have hflag : s.mutex.flag = false := by
        rw [Bool.or_eq_true, not_or] at hfree
        exact Bool.eq_false_iff.mpr hfree.1
      exact ⟨_, hi.take hflag ptr⟩
  · next hcall =>
    obtain rfl := Option.some.inj hs
    refine ⟨owner, hi.goto (by rw [hcall]; rfl) (by rw [hcall]; rfl) ?_ ?_ ?_⟩ <;> split <;> simp [SpinCall.making, SpinCall.dropping]
  · next hcall =>
    split at hs
    · obtain rfl := Option.some.inj hs
      exact ⟨owner, hi.goto (by rw [hcall]; rfl) (by rw [hcall]; rfl) rfl rfl (by simp)⟩
    · next hfree =>
      obtain rfl := Option.some.inj hs
      exact ⟨_, hi.take (Bool.eq_false_iff.mpr hfree) ptr⟩
  · next ptr' hcall =>
    split at hs
    · split at hs
      · next hname =>
        obtain rfl := Option.some.inj hs
        exact ⟨_, hi.returned hcall hname⟩
      · cases hs
    · next hguard => exact absurd (by rw [hi.mutex_of_making hcall]) hguard
  · next ptr' hcall =>
    have hunset := hi.unset hcall
    rw [if_pos hunset.1] at hs
    obtain rfl := Option.some.inj hs
    exact ⟨_, hunset.2⟩
  · next ptr' hcall =>
    obtain rfl := Option.some.inj hs
    exact ⟨_, hi.clear hcall⟩

theorem Inv.step {a : SpinAction} (hi : Inv s owner) (hs : s.step a = some s') : ∃ owner', Inv s' owner' := by
  cases a with
  | lock t | tryLock t =>
    simp only [Spin.step] at hs
    split at hs
    · next hcall =>
      obtain rfl := Option.some.inj hs
      exact ⟨owner, hi.goto (by rw [hcall]; rfl) (by rw [hcall]; rfl) rfl rfl (by simp)⟩
    · cases hs
  | drop t g =>
    simp only [Spin.step] at hs
    split at hs
    · next hcall hguard =>
      obtain rfl := Option.some.inj hs
      exact ⟨_, hi.drop hguard⟩
    · cases hs
  | next t spurious ptr g => exact hi.next hs

theorem exists_inv (h : Reachable Spin.step {} s) : ∃ owner, Inv s owner := by
  induction h with
  | refl => exact ⟨none, inv_init⟩
  | step _ _ hs ih =>
    obtain ⟨owner, hi⟩ := ih
    exact hi.step hs

theorem Inv.exists_guard (hi : Inv s owner) (hflag : s.mutex.flag = true) : ∃ place ptr, s.guardAt place = some ptr := by
  cases hi.owned with
  | free hmutex =>
    rw [hmutex] at hflag
    cases hflag
  | @making t ptr hcall _ => exact ⟨.making t, ptr, by rw [guardAt, hcall]; rfl⟩
  | @returned g ptr hguard _ => exact ⟨.returned g, ptr, hguard⟩
  | @unsetting t ptr hcall _ | @clearing t ptr hcall _ => exact ⟨.dropping t, ptr, by rw [guardAt, hcall]; rfl⟩

/-- A `try_lock` is refused only while there is a guard. -/
theorem Inv.tryLock_refused {spurious : Bool} (hi : Inv s owner) (hcall : s.calls t = .tryLock)
    (hs : s.next t spurious ptr g = some s') (hrefused : s'.calls t = .idle) : ∃ place ptr, s.guardAt place = some ptr := by
  simp only [Spin.next, hcall] at hs
  split at hs
  · next hflag => exact hi.exists_guard hflag
  · obtain rfl := Option.some.inj hs
    simp [setCall] at hrefused

/-- The guard word is the address of the guard, if it is set. -/
theorem Inv.word (hi : Inv s owner) (hword : s.mutex.guard ≠ 0) :
    s.mutex.flag = true ∧ ∃ place ptr, s.guardAt place = some ptr ∧ s.mutex.guard = ptr := by
  cases hi.owned with
  | free hmutex | making _ hmutex | clearing _ hmutex => exact absurd (by rw [hmutex]) hword
  | @returned g ptr hguard hmutex => exact ⟨by rw [hmutex], .returned g, ptr, hguard, by rw [hmutex]⟩
  | @unsetting t ptr hcall hmutex =>
    exact ⟨by rw [hmutex], .dropping t, ptr, by rw [guardAt, hcall]; rfl, by rw [hmutex]⟩

end Spin

/-- In every state of every run: there is at most one guard, be it that it is being made or dropped; the guard word is not
    zero only while the flag is set, and is then the `ptr` of the guard; and no `expect` has failed. -/
theorem spin_excludes {s : Spin} (h : Reachable Spin.step {} s) :
    (∀ place place' ptr ptr', s.guardAt place = some ptr → s.guardAt place' = some ptr' → place = place') ∧
    (s.mutex.guard ≠ 0 → s.mutex.flag = true ∧ ∃ place ptr, s.guardAt place = some ptr ∧ s.mutex.guard = ptr) ∧
    ∀ t, s.calls t ≠ .panicked := by
  obtain ⟨owner, hi⟩ := Spin.exists_inv h
  refine ⟨fun place place' ptr ptr' hplace hplace' => ?_, hi.word, hi.no_panic⟩
  exact hi.held.exclusive (by rw [Spin.holds, hplace]; rfl) (by rw [Spin.holds, hplace']; rfl)

/-- Thread 0 locks; its guard is dropped by thread 1, which has exchanged the guard word back. -/
def movedGuard : List SpinAction :=
  [.lock 0, .next 0 false ⟨7, by decide⟩ 0, .next 0 false ⟨7, by decide⟩ 0, .tryLock 2, .drop 1 0,
    .next 1 false ⟨7, by decide⟩ 0]

theorem spin_excludes_moved : ∃ s, run Spin.step {} movedGuard = some s ∧ s.mutex = ⟨true, 0⟩ ∧
    (∀ place place' ptr ptr', s.guardAt place = some ptr → s.guardAt place' = some ptr' → place = place') ∧
    (s.mutex.guard ≠ 0 → s.mutex.flag = true ∧ ∃ place ptr, s.guardAt place = some ptr ∧ s.mutex.guard = ptr) ∧
    ∀ t, s.calls t ≠ .panicked :=
  ⟨_, rfl, rfl, spin_excludes (.of_run movedGuard rfl)⟩

end Hala.Sync
