import Hala.Theorems.Lockfree.Queue

/-! `Queue::len` loads the tail before the head.

Pushes in between do no harm. Pops do, as soon as they claim tickets that were not there when the tail was loaded: the head
overtakes it, and the difference of the two is negative. -/

namespace Hala.Lockfree.Queue
open Machine
variable {T : Type}

/-- The head moves only where a pop claims a ticket. -/
theorem step_head {s s' : Calls T} {a : Action T} (hs : s.step a = some s') :
    s'.queue.head = s.queue.head ∨
      ∃ c, a = .pop c ∧ s.pops c = .claim s.queue.head ∧ s'.queue.head = s.queue.head + 1 := by
  cases a with
  | callPush c value =>
    simp only [Calls.step] at hs
    split at hs <;> cases hs
    exact .inl rfl
  | push c =>
    cases push_cases hs with
    | tookTicket | inserted => exact .inl rfl
  | callPop c =>
    simp only [Calls.step] at hs
    split at hs <;> cases hs
    exact .inl rfl
  | pop c =>
    cases pop_cases hs with
    | claimed hc hhead => exact .inr ⟨c, rfl, hhead.symm ▸ hc, congrArg (· + 1) hhead.symm⟩
    | loadedHead | foundEmpty | foundTicket | lost | spins | removed => exact .inl rfl

section Lens
variable {s s' : Lens T} {c : Nat}

theorem setLen_self (s : Lens T) (c : Nat) (len : Len) : (s.setLen c len).lens c = len := Function.update_self ..

theorem setLen_of_ne (s : Lens T) (len : Len) {c d : Nat} (h : d ≠ c) : (s.setLen c len).lens d = s.lens d :=
  Function.update_of_ne h ..

theorem lenStep_eq (hs : s.lenStep c = some s') : ∃ len, s' = s.setLen c len := by
  unfold Lens.lenStep at hs
  cases hc : s.lens c with
  | idle | done | overflow => simp [hc] at hs
  | loadTail =>
    simp only [hc, Option.some.injEq] at hs
    exact ⟨_, hs.symm⟩
  | loadHead tail unclaimed =>
    simp only [hc] at hs
    split at hs
    all_goals
      cases hs
      exact ⟨_, rfl⟩

/-- What the head is for a call of `len`. -/
def Len.exact (head : Nat) : Len → Prop
  | .idle | .loadTail => True
  | .loadHead tail unclaimed => head ≤ tail ∧ tail - head ≤ unclaimed
  | .done result unclaimed => result ≤ unclaimed
  | .overflow => False

structure LenInv (s : Lens T) : Prop where
  queue : ∃ values, Inv s.calls values
  lens : ∀ c, (s.lens c).exact s.calls.queue.head

theorem LenInv.init : LenInv ({} : Lens T) where
  queue := ⟨[], inv_init⟩
  lens _ := trivial

theorem LenInv.setLen (h : LenInv s) {len : Len} (hlen : len.exact s.calls.queue.head) : LenInv (s.setLen c len) where
  queue := h.queue
  lens d := by
    rcases eq_or_ne d c with rfl | hne
    · rw [setLen_self]
      exact hlen
    · rw [setLen_of_ne _ _ hne]
      exact h.lens d

theorem LenInv.step {a : LenAction T} (h : LenInv s) (hfront : s.inFront a) (hs : s.step a = some s') : LenInv s' := by
  obtain ⟨values, hqueue⟩ := h.queue
  cases a with
  | queue a =>
    obtain ⟨calls, hcalls, rfl⟩ := Option.map_eq_some_iff.mp hs
    obtain ⟨values', hqueue', -⟩ := hqueue.step hcalls
    refine ⟨⟨values', hqueue'⟩, fun d => ?_⟩
    rcases step_head hcalls with hsame | ⟨c, rfl, hclaim, hnext⟩
    · have hd := h.lens d
      rwa [← hsame] at hd
    · have hd := h.lens d
      dsimp only
      rw [hnext]
      cases hc : s.lens d with
      | loadHead tail unclaimed =>
        -- The claimed ticket was there when the tail was loaded.
        have hlt : s.calls.queue.head < tail := hfront _ hclaim rfl d tail unclaimed hc
        rw [hc] at hd
        refine ⟨hlt, ?_⟩
        exact Nat.le_trans (Nat.sub_le_sub_left (Nat.le_succ _) _) hd.2
      | overflow =>
        rw [hc] at hd
        exact hd
      | done result unclaimed =>
        rw [hc] at hd
        exact hd
      | idle | loadTail => trivial
  | callLen c =>
    rw [Lens.step, Option.ite_none_right_eq_some] at hs
    cases hs.2
    exact h.setLen trivial
  | len c =>
    have hlen := h.lens c
    unfold Lens.step Lens.lenStep at hs
    cases hc : s.lens c with
    | idle | done | overflow => simp [hc] at hs
    | loadTail =>
      simp only [hc, Option.some.injEq] at hs
      subst hs
      exact h.setLen ⟨hqueue.head_le, Nat.le_refl _⟩
    | loadHead tail unclaimed =>
      rw [hc] at hlen
      simp only [hc, if_neg (Nat.not_lt.mpr hlen.1), Option.some.injEq] at hs
      subst hs
      exact h.setLen hlen.2

/-- A call of `len` whose tail the head has overtaken does not come to its end any more. -/
theorem overflows {tail unclaimed : Nat} (hc : s.lens c = .loadHead tail unclaimed) (hlt : tail < s.calls.queue.head)
    (h : Reaches Lens.step (fun _ a => a ≠ .len c) s s') : (s'.step (.len c)).map (·.lens c) = some .overflow := by
  have hstays : s'.lens c = .loadHead tail unclaimed ∧ tail < s'.calls.queue.head := by
    induction h with
    | refl => exact ⟨hc, hlt⟩
    | @step t t' a _ hne hs ih =>
      cases a with
      | queue a =>
        obtain ⟨calls, hcalls, rfl⟩ := Option.map_eq_some_iff.mp hs
        refine ⟨ih.1, Nat.lt_of_lt_of_le ih.2 ?_⟩
        rcases step_head hcalls with hsame | ⟨-, -, -, hnext⟩
        · exact Nat.le_of_eq hsame.symm
        · exact Nat.le_trans (Nat.le_succ _) (Nat.le_of_eq hnext.symm)
      | callLen d =>
        rw [Lens.step, Option.ite_none_right_eq_some] at hs
        obtain ⟨hidle, hs⟩ := hs
        cases hs
        have hother : c ≠ d := by
          rintro rfl
          rw [ih.1] at hidle
          cases hidle
        exact ⟨(setLen_of_ne _ _ hother).trans ih.1, ih.2⟩
      | len d =>
        have hother : c ≠ d := by
          rintro rfl
          exact hne rfl
        obtain ⟨len, rfl⟩ := lenStep_eq hs
        exact ⟨(setLen_of_ne _ _ hother).trans ih.1, ih.2⟩
  simp only [Lens.step, Lens.lenStep, hstays.1, if_pos hstays.2, Option.map_some, setLen_self]

/-- In every run in which no pop claims a ticket that is not in front of the tail of a running `len`, no `len` underflows,
    and its result is at most the number of the tickets that were unclaimed when it loaded the tail; the first pop that is
    different makes a `len` underflow, whenever this loads the head. -/
theorem len_exact (s : Lens T) (h : Reaches Lens.step Lens.inFront {} s) :
    (∀ c, s.lens c ≠ .overflow) ∧ (∀ c result unclaimed, s.lens c = .done result unclaimed → result ≤ unclaimed) ∧
    ∀ a s', s.step a = some s' → ¬s.inFront a →
      ∃ c tail unclaimed, s.lens c = .loadHead tail unclaimed ∧
        ∀ t, Reaches Lens.step (fun _ a => a ≠ .len c) s' t → (t.step (.len c)).map (·.lens c) = some .overflow := by
  have hinv : LenInv s := h.invariant .init fun h hfront hs => h.step hfront hs
  refine ⟨fun c hc => ?_, fun c result unclaimed hc => ?_, fun a s' hs hfront => ?_⟩
  · have hlen := hinv.lens c
    rwa [hc] at hlen
  · have hlen := hinv.lens c
    rwa [hc] at hlen
  · cases a with
    | callLen | len => exact absurd trivial hfront
    | queue a =>
      cases a with
      | callPush | push | callPop => exact absurd trivial hfront
      | pop c =>
        simp only [Lens.inFront, not_forall, Nat.not_lt] at hfront
        obtain ⟨header, hclaim, hhead, d, tail, unclaimed, hd, hle⟩ := hfront
        refine ⟨d, tail, unclaimed, hd, fun t ht => ?_⟩
        obtain ⟨calls, hcalls, rfl⟩ := Option.map_eq_some_iff.mp hs
        have hnext : calls.queue.head = header + 1 := by
          simp only [Calls.step, Calls.popStep, hclaim, claim, hhead, if_true, Option.some.injEq] at hcalls
          rw [← hcalls]
          rfl
        have hd' : ({ s with calls } : Lens T).lens d = .loadHead tail unclaimed := hd
        have hlt : tail < calls.queue.head := by
          rw [hnext]
          exact Nat.lt_succ_of_le hle
        exact overflows hd' hlt ht

end Lens

/-- No pop claims a ticket in the step. -/
def noClaim (s : Lens T) : LenAction T → Bool
  | .queue (.pop c) =>
    match s.calls.pops c with
    | .claim _ => false
    | _ => true
  | _ => true

theorem inFront_of_noClaim {s : Lens T} {a : LenAction T} (h : noClaim s a = true) : s.inFront a := by
  cases a with
  | callLen | len => trivial
  | queue a =>
    cases a with
    | callPush | push | callPop => trivial
    | pop c =>
      intro header hclaim
      simp [noClaim, hclaim] at h

/-- A pop has claimed ticket 0 before `len` begins, and a push takes ticket 2 while it runs. -/
theorem len_exact_pushed :
    ∃ s : Lens Nat, Reaches Lens.step Lens.inFront {} s ∧ s.calls.queue.tail = 3 ∧ s.lens 0 = .done 1 1 ∧
      ∀ c, s.lens c ≠ .overflow := by
  obtain ⟨s₁, s₂, s, hs₁, hidle, hs₂, hs, htail, hdone⟩ : ∃ s₁ s₂ s : Lens Nat,
      runIf Lens.step noClaim {} [.queue (.callPush 0 7), .queue (.push 0), .queue (.push 0), .queue (.callPush 1 8),
          .queue (.push 1), .queue (.callPop 0), .queue (.pop 0), .queue (.pop 0)] = some s₁ ∧ (∀ c, s₁.lens c = .idle) ∧
        s₁.step (.queue (.pop 0)) = some s₂ ∧
        runIf Lens.step noClaim s₂ [.callLen 0, .len 0, .queue (.callPush 2 9), .queue (.push 2), .len 0] = some s ∧
        s.calls.queue.tail = 3 ∧ s.lens 0 = .done 1 1 := ⟨_, _, _, rfl, fun _ => rfl, rfl, rfl, rfl, rfl⟩
  have hfront : s₁.inFront (.queue (.pop 0)) := by
    intro header _ _ d tail unclaimed hd
    rw [hidle] at hd
    cases hd
  have hbefore : Reaches Lens.step Lens.inFront {} s₁ := .of_runIf _ (fun _ _ => inFront_of_noClaim) hs₁
  have hreaches : Reaches Lens.step Lens.inFront {} s :=
    .of_runIf_from (hbefore.step hfront hs₂) (fun _ _ => inFront_of_noClaim) hs
  exact ⟨s, hreaches, htail, hdone, (len_exact s hreaches).1⟩

/-- A push and a pop between the two loads. -/
theorem len_underflows :
    ∃ s : Lens Nat, run Lens.step {} [.callLen 0, .len 0, .queue (.callPush 0 7), .queue (.push 0), .queue (.push 0),
        .queue (.callPop 0), .queue (.pop 0), .queue (.pop 0), .queue (.pop 0), .len 0] = some s ∧ s.lens 0 = .overflow :=
  ⟨_, rfl, rfl⟩

end Hala.Lockfree.Queue
