/-! Programs that make calls and go on by what these return, and rules for their runs.

A handler answers the calls; `none` is its failure. -/

namespace Program

inductive Prog (Op : Type) (Ret : Op → Type) (α : Type) where
  | done (a : α)
  | call (op : Op) (next : Ret op → Prog Op Ret α)

namespace Prog
variable {Op : Type} {Ret : Op → Type} {α σ τ : Type}

section Runs
variable (handle : (op : Op) → σ → Option (σ × Ret op))

def run : Prog Op Ret α → σ → Option (σ × α)
  | .done a, s => some (s, a)
  | .call op next, s => (handle op s).bind fun (s, r) => (next r).run s

theorem run_call (op : Op) (next : Ret op → Prog Op Ret α) (s : σ) :
    run handle (.call op next) s = (handle op s).bind fun x => (next x.2).run handle x.1 := rfl

end Runs

section Rules
variable (handle : (op : Op) → σ → Option (σ × Ret op)) {s s' : σ} {a : α}

/-- Where no call fails, and each keeps what that rests on, no run does. -/
theorem run_total {I : σ → Prop} (hcall : ∀ op s, I s → ∃ s' r, handle op s = some (s', r) ∧ I s') (p : Prog Op Ret α)
    (h : I s) : ∃ s' a, run handle p s = some (s', a) ∧ I s' := by
  induction p generalizing s with
  | done a => exact ⟨s, a, rfl, h⟩
  | call op next ih =>
    obtain ⟨s₁, r, hhandle, h₁⟩ := hcall op s h
    obtain ⟨s', a, hrun, h'⟩ := ih r h₁
    exact ⟨s', a, by rw [run_call, hhandle]; exact hrun, h'⟩

/-- However its calls are answered, the program ends with a result that `ok` allows after what `track` has kept of them. -/
def Ends (track : τ → (op : Op) → Ret op → τ) (ok : τ → α → Prop) : τ → Prog Op Ret α → Prop
  | t, .done a => ok t a
  | t, .call op next => ∀ r, Ends track ok (track t op r) (next r)

/-- A relation between what is tracked and the state that every call keeps holds at the end of a run, of a result that is
    allowed. -/
theorem run_ends {track : τ → (op : Op) → Ret op → τ} {ok : τ → α → Prop} {R : τ → σ → Prop}
    (hcall : ∀ {t op s s' r}, R t s → handle op s = some (s', r) → R (track t op r) s') {t : τ} {p : Prog Op Ret α}
    (hp : Ends track ok t p) (h : R t s) (hrun : run handle p s = some (s', a)) : ∃ t', R t' s' ∧ ok t' a := by
  induction p generalizing s t with
  | done b =>
    cases hrun
    exact ⟨t, h, hp⟩
  | call op next ih =>
    obtain ⟨⟨s₁, r⟩, hhandle, hrest⟩ := Option.bind_eq_some_iff.mp hrun
    exact ih r (hp r) (hcall h hhandle) hrest

end Rules

end Prog

end Program
