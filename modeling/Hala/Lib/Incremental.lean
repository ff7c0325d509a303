import Mathlib.Data.List.Basic

/-! Incremental scanners.

A scanner works on a buffer that grows at its end. One step fails, goes on with what is left of the buffer,
waits for more input or is done; a drain repeats it while the buffer has something in it. A step is stable
when more input behind the buffer does not change what it decides, except that a step that had to wait may
be done. Then every way of cutting an input that is never done into pieces ends alike (`Feeds.eq`). -/

namespace Incremental

/-- What one step of a scanner decides, with the state and the rest of the buffer after it. -/
inductive Move (σ β ε : Type) where
  | fail (e : ε)
  | go (s : σ) (rest : List β)
  | wait (s : σ) (rest : List β)
  | done (s : σ) (rest : List β)

def Move.isGo {σ β ε : Type} : Move σ β ε → Bool
  | .go _ _ => true
  | _ => false

def Move.isDone {σ β ε : Type} : Move σ β ε → Bool
  | .done _ _ => true
  | _ => false

variable {σ β ε : Type}

/-- A drain of the buffer: steps as long as they go on and the buffer is not empty. -/
inductive Drains (step : σ → List β → Move σ β ε) : σ → List β → Move σ β ε → Prop
  | empty (s : σ) : Drains step s [] (.wait s [])
  | stop {s : σ} {buf : List β} : buf ≠ [] → (step s buf).isGo = false → Drains step s buf (step s buf)
  | go {s s' : σ} {buf rest : List β} {m : Move σ β ε} :
      buf ≠ [] → step s buf = .go s' rest → Drains step s' rest m → Drains step s buf m

/-- More input behind the buffer does not change a step, except that a step that waits may be done. -/
structure Stable (step : σ → List β → Move σ β ε) : Prop where
  fail : ∀ {s buf e}, step s buf = .fail e → ∀ more, step s (buf ++ more) = .fail e
  go : ∀ {s buf s' rest}, step s buf = .go s' rest → ∀ more, step s (buf ++ more) = .go s' (rest ++ more)
  done : ∀ {s buf s' rest}, step s buf = .done s' rest → ∀ more, (step s (buf ++ more)).isDone = true
  wait : ∀ {s buf s' rest}, step s buf = .wait s' rest → ∀ more,
    step s (buf ++ more) = step s' (rest ++ more) ∨ (step s (buf ++ more)).isDone = true

section Drains
variable {step : σ → List β → Move σ β ε} {s s' : σ} {buf rest more : List β} {m m' : Move σ β ε} {e : ε}

theorem Move.isGo_of_isDone (h : m.isDone = true) : m.isGo = false := by
  cases m <;> first | rfl | cases h

theorem Drains.not_go (h : Drains step s buf m) : m.isGo = false := by
  induction h with
  | empty => rfl
  | stop _ hgo => exact hgo
  | go _ _ _ ih => exact ih

theorem Drains.det (h : Drains step s buf m) (h' : Drains step s buf m') : m = m' := by
  induction h with
  | empty =>
    cases h' with
    | empty => rfl
    | stop hne => exact absurd rfl hne
    | go hne => exact absurd rfl hne
  | stop hne hgo =>
    cases h' with
    | empty => exact absurd rfl hne
    | stop => rfl
    | go _ hs => rw [hs] at hgo; cases hgo
  | go hne hs _ ih =>
    cases h' with
    | empty => exact absurd rfl hne
    | stop _ hgo => rw [hs] at hgo; cases hgo
    | go _ hs' h' =>
      rw [hs] at hs'
      cases hs'
      exact ih h'

/-- A failure does not depend on what follows. -/
theorem Drains.append_fail (st : Stable step) (h : Drains step s buf (.fail e)) (more : List β) :
    Drains step s (buf ++ more) (.fail e) := by
  generalize hm : Move.fail e = m at h
  induction h with
  | empty => cases hm
  | @stop s buf hne hgo =>
    have hs := st.fail hm.symm more
    exact hm ▸ hs ▸ .stop (by simp [hne]) (by rw [hs]; rfl)
  | go hne hs _ ih => exact .go (by simp [hne]) (st.go hs more) (ih hm)

/-- Once a drain is done, it is done whatever follows. -/
theorem Drains.append_done (st : Stable step) (h : Drains step s buf m) (hm : m.isDone = true) (more : List β) :
    ∃ m', Drains step s (buf ++ more) m' ∧ m'.isDone = true := by
  induction h with
  | empty => cases hm
  | @stop s buf hne hgo =>
    cases hs : step s buf with
    | done s' rest =>
      have hd := st.done hs more
      exact ⟨_, .stop (by simp [hne]) (Move.isGo_of_isDone hd), hd⟩
    | fail e => rw [hs] at hm; cases hm
    | go s' rest => rw [hs] at hm; cases hm
    | wait s' rest => rw [hs] at hm; cases hm
  | go hne hs _ ih =>
    obtain ⟨m', h', hd⟩ := ih hm
    exact ⟨m', .go (by simp [hne]) (st.go hs more) h', hd⟩

/-- Two buffers on which the step decides the same drain alike. -/
theorem Drains.of_step_eq (hne : buf ≠ []) (hs : step s buf = step s' rest) (h : Drains step s' rest m)
    (hrest : rest ≠ []) : Drains step s buf m := by
  cases h with
  | empty => exact absurd rfl hrest
  | stop _ hgo => exact hs ▸ .stop hne (hs ▸ hgo)
  | go _ hgo h => exact .go hne (hs ▸ hgo) h

/-- A drain that waited resumes with more input as if it had all been there, unless it is done. -/
theorem Drains.append_wait (st : Stable step) (h : Drains step s buf (.wait s' rest)) (hmore : more ≠ []) :
    (∀ m, Drains step s' (rest ++ more) m → Drains step s (buf ++ more) m) ∨
      ∃ m, Drains step s (buf ++ more) m ∧ m.isDone = true := by
  generalize hm : Move.wait s' rest = m at h
  induction h with
  | empty s =>
    cases hm
    exact Or.inl fun m h => h
  | @stop s buf hne hgo =>
    rcases st.wait hm.symm more with hs | hd
    · exact Or.inl fun m h => h.of_step_eq (by simp [hne]) hs (by simp [hmore])
    · exact Or.inr ⟨_, .stop (by simp [hne]) (Move.isGo_of_isDone hd), hd⟩
  | go hne hs _ ih =>
    rcases ih hm with h' | ⟨m, h', hd⟩
    · exact Or.inl fun m hm' => .go (by simp [hne]) (st.go hs more) (h' m hm')
    · exact Or.inr ⟨m, .go (by simp [hne]) (st.go hs more) h', hd⟩

end Drains

/-- How a sequence of pieces ends: with an error, done with the pieces that were not needed, or starved. -/
inductive Ending (σ β ε : Type) where
  | fail (e : ε)
  | done (s : σ) (rest : List β) (left : List (List β))
  | starved (s : σ) (rest : List β)

/-- Feeding pieces one after the other, each drained before the next one is taken. -/
inductive Feeds (step : σ → List β → Move σ β ε) : σ → List β → List (List β) → Ending σ β ε → Prop
  | starved (s : σ) (buf : List β) : Feeds step s buf [] (.starved s buf)
  | fail {s : σ} {buf piece : List β} {pieces : List (List β)} {e : ε} :
      Drains step s (buf ++ piece) (.fail e) → Feeds step s buf (piece :: pieces) (.fail e)
  | done {s s' : σ} {buf piece rest : List β} {pieces : List (List β)} :
      Drains step s (buf ++ piece) (.done s' rest) → Feeds step s buf (piece :: pieces) (.done s' rest pieces)
  | wait {s s' : σ} {buf piece rest : List β} {pieces : List (List β)} {r : Ending σ β ε} :
      Drains step s (buf ++ piece) (.wait s' rest) → Feeds step s' rest pieces r → Feeds step s buf (piece :: pieces) r

section Feeds
variable {step : σ → List β → Move σ β ε} {s₀ s : σ} {buf seen : List β} {pieces : List (List β)} {r : Ending σ β ε}

/-- What an input that is never done ends with, in one piece. -/
def Verdict (m : Move σ β ε) (r : Ending σ β ε) : Prop :=
  match m, r with
  | .fail e, .fail e' => e = e'
  | .wait _ _, .starved _ _ => True
  | _, _ => False

/-- Nothing is done on the way to a drain that is not done. -/
theorem Drains.prefix_not_done (st : Stable step) {m m' : Move σ β ε} {more : List β} (hm : m.isDone = false)
    (hall : Drains step s₀ (seen ++ more) m) (h : Drains step s₀ seen m') : m'.isDone = false := by
  cases hd : m'.isDone with
  | false => rfl
  | true =>
    obtain ⟨m'', h'', hd''⟩ := h.append_done st hd more
    rw [← hall.det h'', hm] at hd''
    cases hd''

/-- When the whole is not done, a piece drains behind everything seen as it drains behind the buffer. -/
theorem Drains.resume (st : Stable step) {m m' : Move σ β ε} {piece more : List β} (hm : m.isDone = false)
    (hall : Drains step s₀ (seen ++ piece ++ more) m) (hseen : Drains step s₀ seen (.wait s buf)) (hne : piece ≠ [])
    (h : Drains step s (buf ++ piece) m') : Drains step s₀ (seen ++ piece) m' := by
  rcases hseen.append_wait st hne with h' | ⟨m'', h'', hd⟩
  · exact h' m' h
  · rw [hall.prefix_not_done st hm h''] at hd
    cases hd

/-- An input that is not done in one piece ends alike however it is cut into non-empty pieces: with the
    same error, or starved. `seen` is what has been fed so far. -/
theorem Feeds.eq (st : Stable step) {m : Move σ β ε} (hm : m.isDone = false) (h : Feeds step s buf pieces r)
    (hseen : Drains step s₀ seen (.wait s buf)) (hne : ∀ piece ∈ pieces, piece ≠ [])
    (hall : Drains step s₀ (seen ++ pieces.flatten) m) : Verdict m r := by
  induction h generalizing seen with
  | starved s buf =>
    rw [List.flatten_nil, List.append_nil] at hall
    rw [hall.det hseen]
    trivial
  | fail hd =>
    rw [List.flatten_cons, ← List.append_assoc] at hall
    have h' := hall.resume st hm hseen (hne _ List.mem_cons_self) hd
    rw [hall.det (h'.append_fail st _)]
    rfl
  | done hd =>
    rw [List.flatten_cons, ← List.append_assoc] at hall
    have h' := hall.resume st hm hseen (hne _ List.mem_cons_self) hd
    cases hall.prefix_not_done st hm h'
  | wait hd _ ih =>
    rw [List.flatten_cons, ← List.append_assoc] at hall
    exact ih (hall.resume st hm hseen (hne _ List.mem_cons_self) hd) (fun x hx => hne x (List.mem_cons_of_mem _ hx)) hall

end Feeds

end Incremental
