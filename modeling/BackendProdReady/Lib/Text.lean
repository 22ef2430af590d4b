import Mathlib.Algebra.Order.BigOperators.Group.List
import Mathlib.Algebra.Order.Ring.Nat
import Mathlib.Data.List.DropRight
import Mathlib.Tactic.Common

/-!
# Text operations of the Python language

`str.split`, `str.join`, `str.strip`, `str.rstrip`, `str.endswith`, `str.title` and the digit
tests, on Lean strings read as lists of code points.
-/

namespace BackendProdReady.Lib.Text

def split (sep : Char) (s : String) : List String :=
  (s.toList.splitOn sep).map String.ofList

/-- The code points `str.isspace` accepts, which `str.strip()` removes. -/
def isSpace (c : Char) : Bool :=
  let n := c.toNat
  (9 ≤ n && n ≤ 13) || (28 ≤ n && n ≤ 32) || n == 0x85 || n == 0xa0 || n == 0x1680 ||
    (0x2000 ≤ n && n ≤ 0x200a) || n == 0x2028 || n == 0x2029 || n == 0x202f ||
    n == 0x205f || n == 0x3000

def strip (s : String) : String :=
  String.ofList ((s.toList.dropWhile isSpace).rdropWhile isSpace)

def rstripChar (c : Char) (s : String) : String :=
  String.ofList (s.toList.rdropWhile (· == c))

def stripChar (c : Char) (s : String) : String :=
  String.ofList ((s.toList.dropWhile (· == c)).rdropWhile (· == c))

def replaceChar (old new : Char) (s : String) : String :=
  String.ofList (s.toList.map fun c => if c = old then new else c)

def truncate (n : Nat) (s : String) : String := String.ofList (s.toList.take n)

def endsWith (s suffix : String) : Bool :=
  suffix.toList.isSuffixOf s.toList

def contains (s sub : String) : Bool :=
  s.toList.tails.any sub.toList.isPrefixOf

def isAsciiDigits (s : String) : Bool :=
  !s.toList.isEmpty && s.toList.all Char.isDigit

def digitsValue (s : String) : Nat :=
  s.toList.foldl (fun acc c => 10 * acc + (c.toNat - '0'.toNat)) 0

/-- `s.title()` after a letter or not: the first letter of each run of letters becomes a
capital, the others become small.  As in `Char.isAlpha`, letters are those of ASCII. -/
def titleFrom (afterLetter : Bool) : List Char → List Char
  | [] => []
  | c :: cs => (if afterLetter then c.toLower else c.toUpper) :: titleFrom c.isAlpha cs

def title (s : String) : String := String.ofList (titleFrom false s.toList)

theorem split_append {sep : Char} {mid : String} (hmid : mid.toList = [sep])
    (a b : String) : split sep (a ++ mid ++ b) = split sep a ++ split sep b := by
  unfold split List.splitOn
  rw [String.toList_append, String.toList_append, hmid, List.append_assoc,
    List.singleton_append, List.splitOnP_append_cons _ _ (by simp), List.map_append]

/-- A separator closes an empty first part; another character joins the first part. -/
theorem splitOn_cons_cases {a c : Char} {cs first : List Char} {rest : List (List Char)}
    (h : (c :: cs).splitOn a = first :: rest) :
    ∃ next others, cs.splitOn a = next :: others ∧
      (c = a ∧ first = [] ∧ rest = next :: others ∨
        c ≠ a ∧ first = c :: next ∧ rest = others) := by
  rcases List.exists_cons_of_ne_nil (List.splitOn_ne_nil a cs) with ⟨next, others, hsplit⟩
  rw [List.splitOn_cons_eq_if_modifyHead, hsplit] at h
  refine ⟨next, others, hsplit, ?_⟩
  by_cases hc : c = a
  · rw [if_pos (by simp [hc]), List.cons.injEq] at h
    exact .inl ⟨hc, h.1.symm, h.2.symm⟩
  · rw [if_neg (by simpa using hc), List.modifyHead_cons, List.cons.injEq] at h
    exact .inr ⟨hc, h.1.symm, h.2.symm⟩

private theorem dropWhile_eq_self_of_prefix {p : Char → Bool} {l m : List Char}
    (hm : m <+: l.dropWhile p) : m.dropWhile p = m := by
  rw [List.dropWhile_eq_self_iff]
  intro hpos
  have hlen : 0 < (l.dropWhile p).length := Nat.lt_of_lt_of_le hpos hm.length_le
  have hhead : m[0] = (l.dropWhile p)[0] := hm.getElem hpos
  rw [hhead]
  exact List.dropWhile_eq_self_iff.mp (List.dropWhile_idempotent p l) hlen

@[simp] theorem strip_strip (s : String) : strip (strip s) = strip s := by
  have hpre := List.rdropWhile_prefix isSpace (s.toList.dropWhile isSpace)
  unfold strip
  rw [String.toList_ofList, dropWhile_eq_self_of_prefix hpre,
    List.rdropWhile_idempotent]

/-! ## Letters -/

theorem isLower_iff {c : Char} : c.isLower = true ↔ 97 ≤ c.toNat ∧ c.toNat ≤ 122 := by
  have hdef : c.isLower = (decide ('a'.val ≤ c.val) && decide (c.val ≤ 'z'.val)) := rfl
  rw [hdef, Bool.and_eq_true, decide_eq_true_eq, decide_eq_true_eq, UInt32.le_iff_toNat_le,
    UInt32.le_iff_toNat_le]
  rfl

theorem isUpper_iff {c : Char} : c.isUpper = true ↔ 65 ≤ c.toNat ∧ c.toNat ≤ 90 := by
  have hdef : c.isUpper = decide ('A'.val ≤ c.val ∧ c.val ≤ 'Z'.val) := rfl
  rw [hdef, decide_eq_true_eq, UInt32.le_iff_toNat_le, UInt32.le_iff_toNat_le]
  rfl

theorem isDigit_iff {c : Char} : c.isDigit = true ↔ 48 ≤ c.toNat ∧ c.toNat ≤ 57 :=
  Char.isDigit_iff_toNat

theorem isAlpha_eq (c : Char) : c.isAlpha = (c.isUpper || c.isLower) := rfl

theorem isAlpha_of_isLower {c : Char} (h : c.isLower = true) : c.isAlpha = true := by
  rw [isAlpha_eq, h, Bool.or_true]

theorem not_isUpper_of_isLower {c : Char} (h : c.isLower = true) : c.isUpper = false := by
  rw [isLower_iff] at h
  rw [← Bool.not_eq_true, isUpper_iff]
  omega

theorem not_isAlpha_of_isDigit {c : Char} (h : c.isDigit = true) : c.isAlpha = false := by
  rw [isDigit_iff] at h
  rw [isAlpha_eq, Bool.or_eq_false_iff, ← Bool.not_eq_true, ← Bool.not_eq_true, isUpper_iff,
    isLower_iff]
  omega

theorem not_isDigit_of_isLower {c : Char} (h : c.isLower = true) : c.isDigit = false := by
  rw [isLower_iff] at h
  rw [← Bool.not_eq_true, isDigit_iff]
  omega

/-- A small letter, its capital, and back. -/
theorem case_of_isLower {c : Char} (h : c.isLower = true) :
    c.toLower = c ∧ c.toUpper.isUpper = true ∧ c.toUpper.toLower = c := by
  have hletters : ∀ n < 123, 97 ≤ n → (Char.ofNat n).toLower = Char.ofNat n ∧
      (Char.ofNat n).toUpper.isUpper = true ∧
      (Char.ofNat n).toUpper.toLower = Char.ofNat n := by decide
  have hbounds := isLower_iff.mp h
  have hc := hletters c.toNat (by omega) hbounds.1
  rwa [Char.ofNat_toNat] at hc

/-- A digit has no case. -/
theorem case_of_isDigit {c : Char} (h : c.isDigit = true) :
    c.toLower = c ∧ c.toUpper = c ∧ c.isUpper = false := by
  have hdigits : ∀ n < 58, 48 ≤ n → (Char.ofNat n).toLower = Char.ofNat n ∧
      (Char.ofNat n).toUpper = Char.ofNat n ∧ (Char.ofNat n).isUpper = false := by decide
  have hbounds := isDigit_iff.mp h
  have hc := hdigits c.toNat (by omega) hbounds.1
  rwa [Char.ofNat_toNat] at hc

/-! ## Digits -/

theorem isAsciiDigits_toString (n : Nat) : isAsciiDigits (toString n) = true := by
  have hlist : (toString n).toList = Nat.toDigits 10 n := Nat.toList_repr
  simp only [isAsciiDigits, hlist, Bool.and_eq_true, Bool.not_eq_true', List.isEmpty_eq_false_iff,
    List.all_eq_true]
  exact ⟨Nat.toDigits_ne_nil, fun c hc => Nat.isDigit_of_mem_toDigits (by decide) (by decide) hc⟩

theorem notMem_of_isAsciiDigits {s : String} (h : isAsciiDigits s = true) {c : Char}
    (hc : c.isDigit = false) : c ∉ s.toList := by
  simp only [isAsciiDigits, Bool.and_eq_true, List.all_eq_true] at h
  intro hmem
  rw [h.2 c hmem] at hc
  cases hc

theorem notMem_toString_int {c : Char} (hc : c.isDigit = false) (hminus : c ≠ '-') (i : Int) :
    c ∉ (toString i).toList := by
  cases i with
  | ofNat n => exact notMem_of_isAsciiDigits (isAsciiDigits_toString n) hc
  | negSucc n =>
      have htext : toString (Int.negSucc n) = "-" ++ toString (n + 1) := rfl
      rw [htext, String.toList_append, List.mem_append, not_or]
      exact ⟨by simpa using hminus,
        notMem_of_isAsciiDigits (isAsciiDigits_toString (n + 1)) hc⟩

/-! ## Joined texts -/

theorem length_intercalate (sep : String) (l : List String) :
    (sep.intercalate l).length =
      (l.map String.length).sum + (l.length - 1) * sep.length := by
  induction l with
  | nil => simp
  | cons s l ih =>
      cases l with
      | nil => simp
      | cons t l =>
          rw [String.intercalate_cons_cons, String.length_append, String.length_append, ih]
          simp only [List.map_cons, List.sum_cons, List.length_cons, Nat.add_sub_cancel,
            Nat.add_mul, Nat.one_mul]
          omega

/-- A join loses length with each text that is left out, as long as one stays. -/
theorem length_intercalate_lt_of_sublist {sep : String} (hsep : 0 < sep.length)
    {kept texts : List String} (hsub : kept.Sublist texts) (hlen : kept.length < texts.length)
    (hkept : kept ≠ []) : (sep.intercalate kept).length < (sep.intercalate texts).length := by
  have hsum : (kept.map String.length).sum ≤ (texts.map String.length).sum :=
    (hsub.map String.length).sum_le_sum (by simp)
  have hpos : 0 < kept.length := List.length_pos_iff.mpr hkept
  have hseps : (kept.length - 1) * sep.length < (texts.length - 1) * sep.length :=
    Nat.mul_lt_mul_of_pos_right (by omega) hsep
  rw [length_intercalate, length_intercalate]
  omega

example : split ',' "10.0.0.1, 10.0.0.2" = ["10.0.0.1", " 10.0.0.2"] := by decide

example : title "a1b2 cD" = "A1B2 Cd" := by decide

example : strip " \t10.0.0.2 " = "10.0.0.2" := by decide

end BackendProdReady.Lib.Text
