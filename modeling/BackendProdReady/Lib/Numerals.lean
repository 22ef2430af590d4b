import Mathlib.Algebra.Order.Ring.Nat
import Mathlib.Tactic.Common

/-!
# Positional numerals of a fixed width

Natural numbers as digits of a base up to sixteen, filled up with zeros on the left, and the
value of such digits.
-/

namespace BackendProdReady.Lib.Numerals

def padded (base width n : Nat) : List Char :=
  (Nat.toDigits base n).leftpad width '0'

def digitValue (c : Char) : Nat :=
  if c.toNat ≤ '9'.toNat then c.toNat - '0'.toNat else c.toNat - 'a'.toNat + 10

/-- The value of digits that follow digits of the value `acc`. -/
def valueFrom (base acc : Nat) (cs : List Char) : Nat :=
  cs.foldl (fun value c => base * value + digitValue c) acc

def valueOf (base : Nat) (cs : List Char) : Nat := valueFrom base 0 cs

section Base

variable {base width n : Nat}

theorem digitValue_digitChar {d : Nat} (h : d < 16) : digitValue d.digitChar = d := by
  have hall : ∀ d : Fin 16, digitValue d.val.digitChar = d := by decide
  exact hall ⟨d, h⟩

theorem valueFrom_append (acc : Nat) (cs ds : List Char) :
    valueFrom base acc (cs ++ ds) = valueFrom base (valueFrom base acc cs) ds :=
  List.foldl_append

theorem valueFrom_zeros (k : Nat) : valueFrom base 0 (List.replicate k '0') = 0 := by
  induction k with
  | zero => rfl
  | succ k ih =>
      rw [List.replicate_succ', valueFrom_append, ih]
      simp [valueFrom, digitValue]

/-- Zeros on the left do not count. -/
theorem valueOf_zeros_append (k : Nat) (cs : List Char) :
    valueOf base (List.replicate k '0' ++ cs) = valueOf base cs := by
  rw [valueOf, valueFrom_append, valueFrom_zeros, valueOf]

theorem valueOf_toDigits (hbase : 1 < base) (hsixteen : base ≤ 16) (n : Nat) :
    valueOf base (Nat.toDigits base n) = n := by
  induction n using Nat.strongRecOn with
  | ind n ih =>
      have hmod : n % base < 16 := by
        have := Nat.mod_lt n (Nat.zero_lt_of_lt hbase)
        omega
      by_cases hn : n < base
      · rw [Nat.toDigits_of_lt_base hn]
        have hdigit : digitValue n.digitChar = n := digitValue_digitChar (by omega)
        simp [valueOf, valueFrom, hdigit]
      · have hle : base ≤ n := Nat.le_of_not_lt hn
        have hdiv : n / base < n := Nat.div_lt_self (by omega) hbase
        rw [Nat.toDigits_of_base_le hbase hle, valueOf, valueFrom_append]
        have hfront : valueFrom base 0 (Nat.toDigits base (n / base)) = n / base := ih _ hdiv
        rw [hfront]
        simp only [valueFrom, List.foldl_cons, List.foldl_nil, digitValue_digitChar hmod]
        exact Nat.div_add_mod n base

@[simp] theorem valueOf_padded (hbase : 1 < base) (hsixteen : base ≤ 16) :
    valueOf base (padded base width n) = n := by
  rw [padded, List.leftpad, valueOf_zeros_append, valueOf_toDigits hbase hsixteen]

theorem padded_inj (hbase : 1 < base) (hsixteen : base ≤ 16) {m : Nat}
    (h : padded base width m = padded base width n) : m = n := by
  calc m = valueOf base (padded base width m) := (valueOf_padded hbase hsixteen).symm
    _ = valueOf base (padded base width n) := by rw [h]
    _ = n := valueOf_padded hbase hsixteen

theorem mem_toDigits (hbase : 1 < base) (n : Nat) {c : Char} (hc : c ∈ Nat.toDigits base n) :
    ∃ d < base, c = d.digitChar := by
  induction n using Nat.strongRecOn with
  | ind n ih =>
      by_cases hn : n < base
      · rw [Nat.toDigits_of_lt_base hn, List.mem_singleton] at hc
        exact ⟨n, hn, hc⟩
      · have hle : base ≤ n := Nat.le_of_not_lt hn
        rw [Nat.toDigits_of_base_le hbase hle, List.mem_append, List.mem_singleton] at hc
        rcases hc with hfront | hlast
        · exact ih _ (Nat.div_lt_self (by omega) hbase) hfront
        · exact ⟨n % base, Nat.mod_lt n (by omega), hlast⟩

theorem mem_padded (hbase : 1 < base) {c : Char} (hc : c ∈ padded base width n) :
    ∃ d < base, c = d.digitChar := by
  rcases List.mem_append.mp hc with hzero | hdigit
  · exact ⟨0, by omega, (List.mem_replicate.mp hzero).2⟩
  · exact mem_toDigits hbase n hdigit

theorem padded_ne_nil : padded base width n ≠ [] := by
  simp [padded, List.leftpad, Nat.toDigits_ne_nil]

end Base

end BackendProdReady.Lib.Numerals
