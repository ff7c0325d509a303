import Mathlib.Data.List.Basic
import Mathlib.Logic.Function.Basic

/-! Machines and their runs.

A machine is a partial step function on states and actions: an action that a state does not allow has no
successor. `Reaches` are the runs in which every step meets a condition on the state and the action. -/

namespace Machine
variable {σ α : Type}

/-- The states of the runs from `init` in which every step meets `ok`. -/
inductive Reaches (step : σ → α → Option σ) (ok : σ → α → Prop) (init : σ) : σ → Prop
  | refl : Reaches step ok init init
  | step {s s' : σ} {a : α} : Reaches step ok init s → ok s a → step s a = some s' → Reaches step ok init s'

/-- The states of all runs. -/
abbrev Reachable (step : σ → α → Option σ) (init : σ) : σ → Prop := Reaches step (fun _ _ => True) init

/-- The state after the actions, if each of them was allowed and met `ok`. -/
def runIf (step : σ → α → Option σ) (ok : σ → α → Bool) (s : σ) : List α → Option σ
  | [] => some s
  | a :: as => if ok s a then (step s a).bind fun s' => runIf step ok s' as else none

/-- The state after the actions, if each of them was allowed. -/
def run (step : σ → α → Option σ) (s : σ) (as : List α) : Option σ := runIf step (fun _ _ => true) s as

section Invariants
variable {step : σ → α → Option σ} {ok : σ → α → Prop} {init s s' : σ} {as : List α}

/-- A property of the first state that every step keeps holds in every state of a run. -/
theorem Reaches.invariant {Inv : σ → Prop} (h : Reaches step ok init s) (hinit : Inv init)
    (hstep : ∀ {s a s'}, Inv s → ok s a → step s a = some s' → Inv s') : Inv s := by
  induction h with
  | refl => exact hinit
  | step _ hok hs ih => exact hstep ih hok hs

theorem Reaches.mono {ok' : σ → α → Prop} (h : Reaches step ok init s) (hok : ∀ s a, ok s a → ok' s a) :
    Reaches step ok' init s := by
  induction h with
  | refl => exact .refl
  | step _ h hs ih => exact ih.step (hok _ _ h) hs

/-- A run goes on with any other run. -/
theorem Reaches.reachable_trans (h : Reaches step ok s s') (hs : Reachable step init s) : Reachable step init s' :=
  h.invariant hs fun hs _ hstep => .step hs trivial hstep

theorem Reaches.of_runIf_from {okb : σ → α → Bool} (hs : Reaches step ok init s) (hok : ∀ s a, okb s a = true → ok s a)
    (h : runIf step okb s as = some s') : Reaches step ok init s' := by
  induction as generalizing s with
  | nil =>
    cases h
    exact hs
  | cons a as ih =>
    rw [runIf, Option.ite_none_right_eq_some] at h
    obtain ⟨s₁, hstep, hrest⟩ := Option.bind_eq_some_iff.mp h.2
    exact ih (.step hs (hok s a h.1) hstep) hrest

/-- An executed list of actions that met the condition reaches its last state. -/
theorem Reaches.of_runIf {okb : σ → α → Bool} (as : List α) (hok : ∀ s a, okb s a = true → ok s a)
    (h : runIf step okb init as = some s) : Reaches step ok init s :=
  Reaches.of_runIf_from .refl hok h

theorem Reachable.of_run (as : List α) (h : run step init as = some s) : Reachable step init s :=
  Reaches.of_runIf_from .refl (fun _ _ _ => trivial) h

end Invariants

section Histories
variable {ε : Type}

/-- The machine with a history of what its steps bring about, the latest first. -/
def traced (step : σ → α → Option σ) (events : σ → α → List ε) (s : σ × List ε) (a : α) : Option (σ × List ε) :=
  (step s.1 a).map fun s' => (s', (events s.1 a).reverse ++ s.2)

/-- What holds of the first state and its history, and is kept by every step with what it brings about, holds in every run. -/
theorem Reaches.traced_invariant {step : σ → α → Option σ} {events : σ → α → List ε} {ok : σ × List ε → α → Prop}
    {init : σ} {before : List ε} {t : σ × List ε} {Inv : σ → List ε → Prop}
    (h : Reaches (traced step events) ok (init, before) t) (hinit : Inv init before)
    (hstep : ∀ {s past a s'}, Inv s past → ok (s, past) a → step s a = some s' → Inv s' ((events s a).reverse ++ past)) :
    Inv t.1 t.2 := by
  induction h with
  | refl => exact hinit
  | step _ hok hs ih =>
    obtain ⟨s', hs', rfl⟩ := Option.map_eq_some_iff.mp hs
    exact hstep ih hok hs'

/-- Every event of the history meets `P` together with what had happened before it. -/
def Throughout (P : List ε → ε → Prop) : List ε → Prop
  | [] => True
  | e :: past => P past e ∧ Throughout P past

theorem Throughout.of_append {P : List ε → ε → Prop} {later before : List ε} {e : ε}
    (h : Throughout P (later ++ e :: before)) : P before e := by
  induction later with
  | nil => exact h.1
  | cons _ _ ih => exact ih h.2

theorem Throughout.mono {P P' : List ε → ε → Prop} {past : List ε} (h : Throughout P past)
    (himp : ∀ e before, e :: before <:+ past → P before e → P' before e) : Throughout P' past := by
  induction past with
  | nil => trivial
  | cons e past ih =>
    refine ⟨himp e past List.suffix_rfl h.1, ih h.2 fun e' before hsuffix => ?_⟩
    exact himp e' before (hsuffix.trans (List.suffix_cons e past))

end Histories

end Machine
