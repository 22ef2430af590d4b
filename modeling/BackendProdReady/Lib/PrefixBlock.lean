import Mathlib.Data.Nat.Bitwise
import Mathlib.Tactic.Common

/-!
# Prefix blocks of a fixed-width address space

An address of `w` bits is a number below `2 ^ w`; the block of prefix length `p`
around `x` is the set of addresses that agree with `x` on the first `p` bits.
Masking with the netmask picks the first address of the block, so membership is
an equation between quotients by the block size `2 ^ (w - p)`.
-/

namespace BackendProdReady.Lib.PrefixBlock

/-- The `w`-bit word of `p` ones followed by zeros. -/
def netmask (w p : Nat) : Nat := (2 ^ w - 1) ^^^ ((2 ^ w - 1) >>> p)

theorem testBit_netmask {w p : Nat} (hp : p ≤ w) (i : Nat) :
    (netmask w p).testBit i = (decide (w - p ≤ i) && decide (i < w)) := by
  rw [netmask, Nat.testBit_xor, Nat.testBit_shiftRight, Nat.testBit_two_pow_sub_one,
    Nat.testBit_two_pow_sub_one]
  by_cases hi : i < w <;> by_cases hk : w - p ≤ i <;> simp [hi, hk] <;> omega

/-- Masking rounds down to the first address of the block. -/
theorem land_netmask {w p x : Nat} (hp : p ≤ w) (hx : x < 2 ^ w) :
    x &&& netmask w p = x / 2 ^ (w - p) * 2 ^ (w - p) := by
  apply Nat.eq_of_testBit_eq
  intro i
  rw [Nat.testBit_and, testBit_netmask hp, Nat.testBit_mul_two_pow, Nat.testBit_div_two_pow]
  by_cases hk : w - p ≤ i
  · rw [Nat.sub_add_cancel hk]
    by_cases hi : i < w
    · simp [hk, hi]
    · have hout : x.testBit i = false :=
        Nat.testBit_eq_false_of_lt (hx.trans_le (Nat.pow_le_pow_right (by omega) (by omega)))
      simp [hout]
  · simp [hk]

theorem land_netmask_idem (w p x : Nat) :
    (x &&& netmask w p) &&& netmask w p = x &&& netmask w p := by
  rw [Nat.and_assoc, Nat.and_self]

/-- Two masked addresses are equal exactly when their quotients are. -/
theorem land_netmask_eq_iff {w p x y : Nat} (hp : p ≤ w) (hx : x < 2 ^ w) (hy : y < 2 ^ w) :
    x &&& netmask w p = y &&& netmask w p ↔ x / 2 ^ (w - p) = y / 2 ^ (w - p) := by
  rw [land_netmask hp hx, land_netmask hp hy]
  exact Nat.mul_left_inj (Nat.two_pow_pos _).ne'

/-- Addresses that agree on `p` bits agree on any shorter prefix. -/
theorem div_eq_of_prefix_le {w p q x y : Nat} (hpq : q ≤ p) (hp : p ≤ w)
    (h : x / 2 ^ (w - p) = y / 2 ^ (w - p)) : x / 2 ^ (w - q) = y / 2 ^ (w - q) := by
  have hsplit : 2 ^ (w - q) = 2 ^ (w - p) * 2 ^ (p - q) := by
    rw [← Nat.pow_add]
    congr 1
    omega
  rw [hsplit, ← Nat.div_div_eq_div_mul, ← Nat.div_div_eq_div_mul, h]

end BackendProdReady.Lib.PrefixBlock
