import Mathlib.Data.List.DropRight

/-! Scanning a list for the first element with a property.

`cut p xs` splits `xs` before that element. The characterisation `cut_eq_some_iff` is the only thing later
proofs use of it: a cut is found once its element has arrived, and more input behind it changes nothing. -/

namespace Scan

variable {α : Type} {p : α → Bool} {xs ys pre post : List α}

/-- The elements before the first one with `p`, and the rest from that one on. -/
def cut (p : α → Bool) (xs : List α) : Option (List α × List α) :=
  (xs.findIdx? p).map fun n => (xs.take n, xs.drop n)

theorem cut_nil : cut p [] = none := rfl

theorem cut_cons (x : α) (xs : List α) :
    cut p (x :: xs) = if p x then some ([], x :: xs) else (cut p xs).map fun r => (x :: r.1, r.2) := by
  unfold cut
  rw [List.findIdx?_cons]
  split
  · rfl
  · cases xs.findIdx? p <;> rfl

theorem cut_eq_some_iff :
    cut p xs = some (pre, post) ↔ xs = pre ++ post ∧ (∀ x ∈ pre, p x = false) ∧ ∃ y ys, post = y :: ys ∧ p y = true := by
  induction xs generalizing pre post with
  | nil =>
    simp only [cut_nil, reduceCtorEq, false_iff]
    rintro ⟨h, -, y, ys, rfl, -⟩
    simp at h
  | cons x xs ih =>
    rw [cut_cons]
    by_cases hx : p x = true
    · simp only [hx, if_true, Option.some.injEq, Prod.mk.injEq]
      constructor
      · rintro ⟨rfl, rfl⟩
        exact ⟨rfl, by simp, x, xs, rfl, hx⟩
      · rintro ⟨h, hpre, -⟩
        cases pre with
        | nil => exact ⟨rfl, h⟩
        | cons z zs =>
          obtain ⟨rfl, -⟩ := List.cons.inj h
          have := hpre x List.mem_cons_self
          simp [hx] at this
    · simp only [hx, Bool.false_eq_true, if_false, Option.map_eq_some_iff, Prod.mk.injEq, Prod.exists]
      constructor
      · rintro ⟨a, b, hab, rfl, rfl⟩
        obtain ⟨rfl, hpre, hy⟩ := ih.mp hab
        refine ⟨rfl, fun z hz => ?_, hy⟩
        rcases List.mem_cons.mp hz with rfl | hz
        · simpa using hx
        · exact hpre z hz
      · rintro ⟨h, hpre, y, ys, rfl, hy⟩
        cases pre with
        | nil =>
          obtain ⟨rfl, -⟩ := List.cons.inj h
          exact absurd hy hx
        | cons z zs =>
          obtain ⟨rfl, rfl⟩ := List.cons.inj h
          exact ⟨zs, y :: ys, ih.mpr ⟨rfl, fun w hw => hpre w (List.mem_cons_of_mem _ hw), y, ys, rfl, hy⟩, rfl, rfl⟩

theorem cut_eq_none_iff : cut p xs = none ↔ ∀ x ∈ xs, p x = false := by
  simp [cut, List.findIdx?_eq_none_iff]

/-- A cut stays where it is when more elements arrive. -/
theorem cut_append (h : cut p xs = some (pre, post)) (ys : List α) : cut p (xs ++ ys) = some (pre, post ++ ys) := by
  obtain ⟨rfl, hpre, y, zs, rfl, hy⟩ := cut_eq_some_iff.mp h
  exact cut_eq_some_iff.mpr ⟨by simp, hpre, y, zs ++ ys, rfl, hy⟩

/-- Elements without the property are passed over. -/
theorem cut_append_of_all (h : ∀ x ∈ xs, p x = false) :
    cut p (xs ++ ys) = (cut p ys).map fun r => (xs ++ r.1, r.2) := by
  induction xs with
  | nil => simp
  | cons x xs ih =>
    rw [List.cons_append, cut_cons, if_neg (by simp [h x List.mem_cons_self]),
      ih fun z hz => h z (List.mem_cons_of_mem _ hz), Option.map_map]
    rfl

/-- A cut that the last element made possible is a cut before that element. -/
theorem cut_snoc {x : α} (h : cut p xs = none) (hx : cut p (xs ++ [x]) = some (pre, post)) : post = [x] := by
  rw [cut_append_of_all (cut_eq_none_iff.mp h), cut_cons] at hx
  by_cases hp : p x = true
  · simp [hp] at hx
    exact hx.2.symm
  · simp [hp, cut_nil] at hx

theorem length_of_cut (h : cut p xs = some (pre, post)) : xs.length = pre.length + post.length ∧ 0 < post.length := by
  obtain ⟨rfl, -, y, ys, rfl, -⟩ := cut_eq_some_iff.mp h
  simp

/-- The offset that a loop over the elements returns is the length of the part before the cut. -/
theorem findIdx?_eq_cut (p : α → Bool) (xs : List α) : xs.findIdx? p = (cut p xs).map fun r => r.1.length := by
  unfold cut
  cases h : xs.findIdx? p with
  | none => rfl
  | some n =>
    obtain ⟨hn, -⟩ := List.findIdx?_eq_some_iff_getElem.mp h
    simp only [Option.map_some, List.length_take, Option.some.injEq]
    omega

theorem dropWhile_append_of_ne_nil (h : xs.dropWhile p ≠ []) (ys : List α) :
    (xs ++ ys).dropWhile p = xs.dropWhile p ++ ys := by
  rw [List.dropWhile_append, if_neg (by simpa using h)]

theorem head_of_dropWhile {y : α} {t : List α} (h : xs.dropWhile p = y :: t) : p y = false := by
  induction xs with
  | nil => simp at h
  | cons x xs ih =>
    rw [List.dropWhile_cons] at h
    split at h
    · exact ih h
    · next hx =>
      obtain ⟨rfl, -⟩ := List.cons.inj h
      simpa using hx

theorem dropWhile_dropWhile_append (xs ys : List α) :
    (xs.dropWhile p ++ ys).dropWhile p = (xs ++ ys).dropWhile p := by
  rw [List.dropWhile_append, List.dropWhile_append, List.dropWhile_idempotent]

end Scan
