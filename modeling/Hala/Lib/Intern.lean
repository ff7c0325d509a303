import Mathlib.Data.List.Basic
import Mathlib.Logic.Function.Basic

/-! Interning: a list of entries that grows at its end, and an index beside it that knows where the entry of a key is.

The positions are counted from `base`. The index and the entries are two things, so that one can be taken away without
the other. -/

namespace Intern
variable {κ ε : Type} {index : κ → Option Nat} {key : ε → κ} {base : Nat} {entries more : List ε} {k : κ} {e : ε}

/-- Where the index knows a key, there is an entry of the key. -/
def Sound (index : κ → Option Nat) (key : ε → κ) (base : Nat) (entries : List ε) : Prop :=
  ∀ k n, index k = some n → ∃ i e, n = base + i ∧ entries[i]? = some e ∧ key e = k

/-- The index knows the key, and no entry is one of it. -/
def Lost (index : κ → Option Nat) (key : ε → κ) (entries : List ε) (k : κ) : Prop :=
  index k ≠ none ∧ ∀ e ∈ entries, key e ≠ k

theorem Sound.empty : Sound (fun _ => none) key base entries := by
  intro k n h
  cases h

/-- What is at a position stays there. -/
theorem getElem?_of_prefix {i : Nat} (hpre : entries <+: more) (h : entries[i]? = some e) : more[i]? = some e := by
  obtain ⟨hlt, rfl⟩ := List.getElem?_eq_some_iff.mp h
  exact List.prefix_iff_getElem?.mp hpre i hlt

/-- The entry of a new key is pushed, and the index learns its position. -/
theorem Sound.push [DecidableEq κ] (hsound : Sound index key base entries) (e : ε) :
    Sound (Function.update index (key e) (some (base + entries.length))) key base (entries ++ [e]) := by
  intro k n h
  by_cases hk : k = key e
  · subst hk
    rw [Function.update_self, Option.some.injEq] at h
    exact ⟨entries.length, e, h.symm, by rw [List.getElem?_concat_length], rfl⟩
  · rw [Function.update_of_ne hk] at h
    obtain ⟨i, e', hn, hget, hkey⟩ := hsound k n h
    exact ⟨i, e', hn, getElem?_of_prefix (List.prefix_append _ _) hget, hkey⟩

/-- All entries have been taken. -/
theorem Lost.drained (h : index k ≠ none) : Lost index key [] k := ⟨h, fun _ he => by cases he⟩

/-- The entry of a lost key does not come back: only keys that the index does not know are pushed. -/
theorem Lost.push [DecidableEq κ] (hlost : Lost index key entries k) (e : ε) (hnew : index (key e) = none) (n : Nat) :
    Lost (Function.update index (key e) (some n)) key (entries ++ [e]) k := by
  have hne : key e ≠ k := by
    rintro rfl
    exact hlost.1 hnew
  refine ⟨?_, ?_⟩
  · rw [Function.update_of_ne hne.symm]
    exact hlost.1
  · intro e' he'
    rcases List.mem_append.mp he' with he' | he'
    · exact hlost.2 e' he'
    · rwa [List.mem_singleton.mp he']

/-- A lost key is not at the position that the index gives for it. -/
theorem Lost.getElem?_ne {n : Nat} (hlost : Lost index key entries k) (hget : entries[n]? = some e) : key e ≠ k :=
  hlost.2 e (List.mem_of_getElem? hget)

/-! ### Entries that carry their position -/

section Numbered
variable {number : ε → Nat}

/-- Each entry has the number of its position. -/
def Numbered (number : ε → Nat) (base : Nat) (entries : List ε) : Prop :=
  ∀ i e, entries[i]? = some e → number e = base + i

theorem Numbered.nodup (h : Numbered number base entries) : (entries.map number).Nodup := by
  have hrange : entries.map number = List.range' base entries.length := by
    apply List.ext_getElem?
    intro i
    rw [List.getElem?_map]
    by_cases hi : i < entries.length
    · have hget := List.getElem?_eq_getElem hi
      rw [hget, Option.map_some, h i _ hget, List.getElem?_range' hi, Nat.one_mul]
    · rw [List.getElem?_eq_none (Nat.le_of_not_lt hi), Option.map_none]
      exact (List.getElem?_eq_none (by simpa using hi)).symm
  rw [hrange]
  exact List.nodup_range'

/-- The first entry of a number is the one at its position. -/
theorem Numbered.find? (h : Numbered number base entries) {i : Nat} (hget : entries[i]? = some e) :
    entries.find? (number · == base + i) = some e := by
  obtain ⟨hi, hei⟩ := List.getElem?_eq_some_iff.mp hget
  refine List.find?_eq_some_iff_getElem.mpr ⟨by simp [h i e hget], i, hi, hei, fun j hj => ?_⟩
  have hnumber := h j _ (List.getElem?_eq_getElem (Nat.lt_trans hj hi))
  simp only [hnumber, Bool.not_eq_true', beq_eq_false_iff_ne]
  omega

theorem Numbered.ne_zero (h : Numbered number base entries) (hbase : 0 < base) (e : ε) (he : e ∈ entries) : number e ≠ 0 := by
  obtain ⟨i, hget⟩ := List.mem_iff_getElem?.mp he
  have := h i e hget
  omega

end Numbered

end Intern
