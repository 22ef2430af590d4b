import Mathlib.Data.List.Basic
import Mathlib.Algebra.Order.Ring.Nat

/-!
# Windows of a list

Consecutive windows of one size, the last one possibly shorter, and how many of
them it takes to cover a list.
-/

namespace BackendProdReady.Lib.Windows

variable {α : Type*}

def window (size i : Nat) (xs : List α) : List α := (xs.drop (i * size)).take size

def windowCount (size length : Nat) : Nat := (length + size - 1) / size

theorem flatten_windows (size n : Nat) (xs : List α) :
    ((List.range n).map fun i => window size i xs).flatten = xs.take (n * size) := by
  induction n with
  | zero => simp
  | succ n ih =>
      rw [List.range_succ, List.map_append, List.flatten_append, ih, Nat.succ_mul, List.take_add]
      simp [window]

theorem lt_windowCount_iff {size : Nat} (hsize : 0 < size) (i length : Nat) :
    i < windowCount size length ↔ i * size < length := by
  calc i < windowCount size length
      ↔ i + 1 ≤ (length + size - 1) / size := Nat.succ_le_iff.symm
    _ ↔ (i + 1) * size ≤ length + size - 1 := Nat.le_div_iff_mul_le hsize
    _ ↔ i * size < length := by
        rw [Nat.succ_mul]
        omega

theorem length_le_windowCount_mul {size : Nat} (hsize : 0 < size) (length : Nat) :
    length ≤ windowCount size length * size := by
  have hnot := (lt_windowCount_iff hsize (windowCount size length) length).not
  exact Nat.not_lt.mp (hnot.mp (Nat.lt_irrefl _))

/-- The windows that are not empty are the whole list. -/
theorem flatten_windows_of_le {size n : Nat} {xs : List α} (h : xs.length ≤ n * size) :
    ((List.range n).map fun i => window size i xs).flatten = xs := by
  rw [flatten_windows, List.take_of_length_le h]

theorem window_eq_nil_of_le {size i : Nat} {xs : List α} (h : xs.length ≤ i * size) :
    window size i xs = [] := by
  rw [window, List.drop_of_length_le h, List.take_nil]

theorem length_window_of_le {size i : Nat} {xs : List α} (h : (i + 1) * size ≤ xs.length) :
    (window size i xs).length = size := by
  rw [window, List.length_take, List.length_drop]
  rw [Nat.succ_mul] at h
  omega

/-- One item more than a window is there exactly when something comes after it. -/
theorem size_lt_length_take_succ_iff (size i : Nat) (xs : List α) :
    size < ((xs.drop (i * size)).take (size + 1)).length ↔ (i + 1) * size < xs.length := by
  rw [List.length_take, List.length_drop, Nat.succ_mul]
  omega

end BackendProdReady.Lib.Windows
