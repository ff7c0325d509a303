import Mathlib.Algebra.Order.Ring.Nat
import Mathlib.Data.List.Basic

/-! Numbers in groups of seven bits.

The lowest group is first, and every byte but the last has its high bit set; `more` bytes can follow the first. -/

namespace Varint

def write : Nat → Nat → List UInt8
  | 0, n => [UInt8.ofNat n]
  | more + 1, n => if n < 128 then [UInt8.ofNat n] else UInt8.ofNat (n % 128 + 128) :: write more (n / 128)

def read : Nat → List UInt8 → Option (Nat × List UInt8)
  | _, [] => none
  | 0, byte :: input => if byte.toNat < 128 then some (byte.toNat, input) else none
  | more + 1, byte :: input =>
    if byte.toNat < 128 then some (byte.toNat, input)
    else (read more input).map fun (n, input) => (128 * n + (byte.toNat - 128), input)

/-- Bytes behind their length. -/
def readBytes (more : Nat) (input : List UInt8) : Option (List UInt8 × List UInt8) :=
  (read more input).bind fun (n, input) =>
    if n ≤ input.length then some (input.take n, input.drop n) else none

/-- The numbers in the input, of which there are at most as many as bytes. -/
def readAll (more : Nat) : Nat → List UInt8 → Option (List Nat)
  | _, [] => some []
  | 0, _ :: _ => none
  | fuel + 1, input => (read more input).bind fun (n, input) => (readAll more fuel input).map (n :: ·)

variable {more n : Nat}

theorem toNat_ofNat (h : n < 256) : (UInt8.ofNat n).toNat = n := by
  rw [UInt8.toNat_ofNat', Nat.mod_eq_of_lt h]

theorem write_of_lt (h : n < 128) : write more n = [UInt8.ofNat n] := by
  cases more with
  | zero => rfl
  | succ more => exact if_pos h

/-- What follows a number is left. -/
theorem read_write (h : n < 128 ^ (more + 1)) (rest : List UInt8) : read more (write more n ++ rest) = some (n, rest) := by
  induction more generalizing n with
  | zero =>
    have hlt : n < 128 := h
    rw [write, List.singleton_append, read, toNat_ofNat (by omega), if_pos hlt]
  | succ more ih =>
    rw [write]
    split
    · next hlt => rw [List.singleton_append, read, toNat_ofNat (by omega), if_pos hlt]
    · have hrest : n / 128 < 128 ^ (more + 1) := Nat.div_lt_of_lt_mul (by rwa [Nat.pow_succ, Nat.mul_comm] at h)
      have hbyte : (UInt8.ofNat (n % 128 + 128)).toNat = n % 128 + 128 := toNat_ofNat (by omega)
      rw [List.cons_append, read, hbyte, if_neg (by omega), ih hrest, Option.map_some, Nat.add_sub_cancel]
      change some (128 * (n / 128) + n % 128, rest) = some (n, rest)
      rw [Nat.div_add_mod]

/-- What follows the last byte of a number does not matter. -/
theorem read_front {input rest : List UInt8} (h : read more input = some (n, rest)) :
    ∃ front, front ≠ [] ∧ input = front ++ rest ∧ ∀ rest', read more (front ++ rest') = some (n, rest') := by
  induction more generalizing input n with
  | zero =>
    cases input with
    | nil => cases h
    | cons byte input =>
      simp only [read] at h
      split at h
      · next hlt =>
        cases h
        exact ⟨[byte], List.cons_ne_nil _ _, rfl, fun rest' => if_pos hlt⟩
      · cases h
  | succ more ih =>
    cases input with
    | nil => cases h
    | cons byte input =>
      simp only [read] at h
      split at h
      · next hlt =>
        cases h
        exact ⟨[byte], List.cons_ne_nil _ _, rfl, fun rest' => if_pos hlt⟩
      · next hlt =>
        obtain ⟨⟨high, rest⟩, hread, hn⟩ := Option.map_eq_some_iff.mp h
        obtain ⟨rfl, rfl⟩ := Prod.mk.inj hn
        obtain ⟨front, -, rfl, hfront⟩ := ih hread
        refine ⟨byte :: front, List.cons_ne_nil _ _, rfl, fun rest' => ?_⟩
        simp only [List.cons_append, read, if_neg hlt, hfront rest', Option.map_some]

theorem readBytes_front {input bytes rest : List UInt8} (h : readBytes more input = some (bytes, rest)) :
    ∃ front, input = front ++ rest ∧ ∀ rest', readBytes more (front ++ rest') = some (bytes, rest') := by
  obtain ⟨⟨n, body⟩, hread, hbytes⟩ := Option.bind_eq_some_iff.mp h
  obtain ⟨front, -, rfl, hfront⟩ := read_front hread
  dsimp only at hbytes
  split at hbytes
  · next hle =>
    cases hbytes
    refine ⟨front ++ body.take n, by rw [List.append_assoc, List.take_append_drop], fun rest' => ?_⟩
    have hlen : (body.take n).length = n := List.length_take_of_le hle
    have hle' : n ≤ (body.take n ++ rest').length := by
      rw [List.length_append, hlen]
      exact Nat.le_add_right ..
    rw [List.append_assoc, readBytes, hfront, Option.bind_some]
    change (if n ≤ (body.take n ++ rest').length then _ else _) = _
    rw [if_pos hle', List.take_left' hlen, List.drop_left' hlen]
  · cases hbytes

theorem readBytes_append {bytes : List UInt8} (h : bytes.length < 128 ^ (more + 1)) (rest : List UInt8) :
    readBytes more (write more bytes.length ++ bytes ++ rest) = some (bytes, rest) := by
  have hle : bytes.length ≤ (bytes ++ rest).length := by simp
  rw [List.append_assoc, readBytes, read_write h, Option.bind_some]
  change (if bytes.length ≤ (bytes ++ rest).length then _ else _) = _
  rw [if_pos hle, List.take_left, List.drop_left]

end Varint
