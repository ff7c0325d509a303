import Mathlib.Algebra.Group.Nat.Defs
import Mathlib.Tactic.Common

/-! Numbers of a fixed width as bytes.

`bytes w n` are the lowest `w` digits of `n` to the base 256, the least one first, and `value` reads them back. The two
are inverse to each other between the lists of `w` bytes and the numbers below `256 ^ w`. -/

namespace Radix

def bytes : Nat → Nat → List UInt8
  | 0, _ => []
  | w + 1, n => UInt8.ofNat n :: bytes w (n / 256)

def value : List UInt8 → Nat
  | [] => 0
  | b :: bs => b.toNat + 256 * value bs

@[simp] theorem length_bytes (w n : Nat) : (bytes w n).length = w := by
  induction w generalizing n with
  | zero => rfl
  | succ w ih => exact congrArg (· + 1) (ih _)

theorem value_lt (bs : List UInt8) : value bs < 256 ^ bs.length := by
  induction bs with
  | nil => exact Nat.one_pos
  | cons b bs ih =>
    have hb : b.toNat < 256 := b.toNat_lt
    rw [value, List.length_cons, Nat.pow_succ]
    omega

theorem value_bytes {w n : Nat} (h : n < 256 ^ w) : value (bytes w n) = n := by
  induction w generalizing n with
  | zero => exact (Nat.lt_one_iff.mp h).symm
  | succ w ih =>
    have hrest : n / 256 < 256 ^ w := Nat.div_lt_of_lt_mul (by rwa [Nat.pow_succ'] at h)
    rw [bytes, value, ih hrest, UInt8.toNat_ofNat']
    exact Nat.mod_add_div n 256

theorem bytes_value (bs : List UInt8) : bytes bs.length (value bs) = bs := by
  induction bs with
  | nil => rfl
  | cons b bs ih =>
    have hb : b.toNat < 256 := b.toNat_lt
    have hhead : UInt8.ofNat (b.toNat + 256 * value bs) = b := by
      apply UInt8.toNat_inj.mp
      rw [UInt8.toNat_ofNat']
      omega
    have htail : (b.toNat + 256 * value bs) / 256 = value bs := by omega
    rw [List.length_cons, value, bytes, hhead, htail, ih]

/-- The bytes of a number are known by their length and what they read as. -/
theorem eq_bytes_iff {w n : Nat} (h : n < 256 ^ w) {bs : List UInt8} : bs = bytes w n ↔ bs.length = w ∧ value bs = n := by
  constructor
  · intro hbs
    rw [hbs]
    exact ⟨length_bytes w n, value_bytes h⟩
  · rintro ⟨rfl, rfl⟩
    exact (bytes_value bs).symm

end Radix
