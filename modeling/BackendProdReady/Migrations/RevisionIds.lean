import BackendProdReady.Lib.Numerals
import BackendProdReady.Lib.Runs
import BackendProdReady.Lib.Text
import BackendProdReady.Observability.PathNormalisation
import Mathlib.Data.List.Nodup

/-!
# Revision ids

`process_revision_directives` numbers the migrations 001, 002, 003 and so on: it reads the
number of the current head and adds one.  A head that is not a number starts again at 001,
and so does 000, whose digits `lstrip` removes altogether.
-/

namespace BackendProdReady.Migrations.RevisionIds

open BackendProdReady.Lib.Numerals
open BackendProdReady.Lib.Runs
open BackendProdReady.Lib.Text (isSpace)
open BackendProdReady.Observability.PathNormalisation (decimalZeros)

/-! ## Integers of the Python language -/

/-- `int` and `format` refuse numbers of more digits than this. -/
def maxStrDigits : Nat := 4300

def decimalValue (c : Char) : Option Nat :=
  (decimalZeros.find? fun z => z ≤ c.toNat && c.toNat < z + 10).map (c.toNat - ·)

/-- The digits of a numeral; a single underscore may stand between two of them. -/
def intDigits : List Char → Option (List Nat)
  | [] => none
  | [c] => (decimalValue c).map ([·])
  | c :: '_' :: cs => (decimalValue c).bind fun d => (intDigits cs).map (d :: ·)
  | c :: c' :: cs => (decimalValue c).bind fun d => (intDigits (c' :: cs)).map (d :: ·)

def magnitude (cs : List Char) : Option Nat :=
  (intDigits cs).bind fun ds =>
    if ds.length ≤ maxStrDigits then some (ds.foldl (fun value d => 10 * value + d) 0) else none

/-- What `int` removes around a number: the separators 28 to 31 are not among it. -/
def isIntSpace (c : Char) : Bool := isSpace c && !(28 ≤ c.toNat && c.toNat ≤ 31)

/-- `int(s)`; `none` is its `ValueError`. -/
def int (cs : List Char) : Option Int :=
  match (cs.dropWhile isIntSpace).rdropWhile isIntSpace with
  | '-' :: cs => (magnitude cs).map fun n : Nat => -(n : Int)
  | '+' :: cs => (magnitude cs).map fun n : Nat => (n : Int)
  | cs => (magnitude cs).map fun n : Nat => (n : Int)

/-- `f"{n:03d}"`; the sign is one of the three characters. -/
def format (n : Int) : List Char :=
  if 0 ≤ n then padded 10 3 n.natAbs else '-' :: padded 10 2 n.natAbs

/-! ## Source -/

def newRevId (headRevision : Option String) : Int :=
  match headRevision with
  | none => 1
  | some headRevision =>
      match int (headRevision.toList.dropWhile (· == '0')) with
      | some lastRevId => lastRevId + 1
      | none => 1

/-- `process_revision_directives`; `none` is the `ValueError` of a number that is too long
to be written. -/
def processRevisionDirectives (headRevision : Option String) : Option String :=
  let n := newRevId headRevision
  if (Nat.toDigits 10 n.natAbs).length ≤ maxStrDigits then some (String.ofList (format n)) else none

/-- A migration is generated on top of the revisions there are, of which the last is the
head. -/
def generate (revisions : List String) (_ : Unit) : Option (List String) :=
  (processRevisionDirectives revisions.getLast?).map fun revId => revisions ++ [revId]

abbrev Step := StepOf generate

/-! ## Reading back what was written -/

theorem decimalValue_digitChar {d : Nat} (h : d < 10) : decimalValue d.digitChar = some d := by
  have hall : ∀ d : Fin 10, decimalValue d.val.digitChar = some d.val := by decide
  exact hall ⟨d, h⟩

def IsDigit (c : Char) : Prop := ∃ d < 10, c = d.digitChar

theorem IsDigit.notSpace {c : Char} (h : IsDigit c) : isIntSpace c = false := by
  obtain ⟨d, hd, rfl⟩ := h
  have hall : ∀ d : Fin 10, isIntSpace d.val.digitChar = false := by decide
  exact hall ⟨d, hd⟩

theorem IsDigit.ne {c : Char} (h : IsDigit c) : c ≠ '-' ∧ c ≠ '+' ∧ c ≠ '_' := by
  obtain ⟨d, hd, rfl⟩ := h
  have hall : ∀ d : Fin 10, d.val.digitChar ≠ '-' ∧ d.val.digitChar ≠ '+' ∧
      d.val.digitChar ≠ '_' := by decide
  exact hall ⟨d, hd⟩

theorem IsDigit.decimalValue {c : Char} (h : IsDigit c) :
    decimalValue c = some (digitValue c) := by
  obtain ⟨d, hd, rfl⟩ := h
  rw [decimalValue_digitChar hd, digitValue_digitChar (by omega)]

theorem intDigits_of_digits {cs : List Char} (hne : cs ≠ []) (h : ∀ c ∈ cs, IsDigit c) :
    intDigits cs = some (cs.map digitValue) := by
  induction cs with
  | nil => exact absurd rfl hne
  | cons c cs ih =>
      have hc := (h c List.mem_cons_self).decimalValue
      cases cs with
      | nil => simp [intDigits, hc]
      | cons c' cs =>
          have hrest := ih (List.cons_ne_nil _ _) fun x hx => h x (List.mem_cons_of_mem _ hx)
          have hunderscore := (h c' (by simp)).ne.2.2
          rw [intDigits.eq_4 _ _ _ (fun hc' => hunderscore hc')]
          simp [hc, hrest]

theorem magnitude_of_digits {cs : List Char} (hne : cs ≠ []) (h : ∀ c ∈ cs, IsDigit c)
    (hlength : cs.length ≤ maxStrDigits) : magnitude cs = some (valueOf 10 cs) := by
  rw [magnitude, intDigits_of_digits hne h, Option.bind_some, List.length_map, if_pos hlength,
    List.foldl_map]
  rfl

theorem dropWhile_isIntSpace {c : Char} {cs : List Char} (hc : isIntSpace c = false)
    (hlast : ∀ hne : c :: cs ≠ [], isIntSpace ((c :: cs).getLast hne) = false) :
    ((c :: cs).dropWhile isIntSpace).rdropWhile isIntSpace = c :: cs := by
  rw [List.dropWhile_cons_of_neg (by simp [hc]), List.rdropWhile_eq_self_iff]
  intro hne
  simp [hlast hne]

theorem int_of_digits {cs : List Char} (hne : cs ≠ []) (h : ∀ c ∈ cs, IsDigit c)
    (hlength : cs.length ≤ maxStrDigits) : int cs = some (valueOf 10 cs : Int) := by
  cases cs with
  | nil => exact absurd rfl hne
  | cons c cs =>
      have hc := h c List.mem_cons_self
      have hstrip := dropWhile_isIntSpace hc.notSpace
        fun hne => (h _ (List.getLast_mem hne)).notSpace
      rw [int, hstrip]
      split
      · rename_i heq
        exact absurd (List.cons.inj heq).1 hc.ne.1
      · rename_i heq
        exact absurd (List.cons.inj heq).1 hc.ne.2.1
      · rw [magnitude_of_digits hne h hlength]
        rfl

theorem int_of_minus {cs : List Char} (hne : cs ≠ []) (h : ∀ c ∈ cs, IsDigit c)
    (hlength : cs.length ≤ maxStrDigits) : int ('-' :: cs) = some (-(valueOf 10 cs : Int)) := by
  have hlast : ∀ hcons : '-' :: cs ≠ [], isIntSpace (('-' :: cs).getLast hcons) = false := by
    intro hcons
    rw [List.getLast_cons hne]
    exact (h _ (List.getLast_mem hne)).notSpace
  rw [int, dropWhile_isIntSpace (by decide) hlast]
  simp only [magnitude_of_digits hne h hlength, Option.map_some]

theorem isDigit_of_mem_padded {width n : Nat} {c : Char} (hc : c ∈ padded 10 width n) :
    IsDigit c :=
  mem_padded (by decide) hc

/-- The digits without the zeros on their left have the same value. -/
theorem valueOf_dropWhile (cs : List Char) :
    valueOf 10 (cs.dropWhile (· == '0')) = valueOf 10 cs := by
  induction cs with
  | nil => rfl
  | cons c cs ih =>
      by_cases hc : c = '0'
      · have hzero : valueOf 10 ('0' :: cs) = valueOf 10 cs := valueOf_zeros_append 1 cs
        rw [hc, List.dropWhile_cons_of_pos (by rfl), ih]
        exact hzero.symm
      · rw [List.dropWhile_cons_of_neg (by simpa using hc)]

theorem int_lstrip_padded {n : Nat} (hpos : 0 < n)
    (hlength : (Nat.toDigits 10 n).length ≤ maxStrDigits) :
    int ((padded 10 3 n).dropWhile (· == '0')) = some (n : Int) := by
  have hvalue : valueOf 10 ((padded 10 3 n).dropWhile (· == '0')) = n := by
    rw [valueOf_dropWhile, valueOf_padded (by decide) (by decide)]
  have hne : (padded 10 3 n).dropWhile (· == '0') ≠ [] := by
    intro hnil
    rw [hnil] at hvalue
    exact Nat.ne_of_lt hpos hvalue
  have hshort : ((padded 10 3 n).dropWhile (· == '0')).length ≤ maxStrDigits := by
    rw [padded, List.leftpad, List.dropWhile_append_of_pos (by simp [List.mem_replicate])]
    exact (List.length_dropWhile_le _ _).trans hlength
  rw [int_of_digits hne (fun c hc => isDigit_of_mem_padded
    ((List.dropWhile_sublist _).mem hc)) hshort, hvalue]

theorem length_padded_le {width n : Nat} (hwidth : width ≤ maxStrDigits)
    (hlength : (Nat.toDigits 10 n).length ≤ maxStrDigits) :
    (padded 10 width n).length ≤ maxStrDigits := by
  simp only [padded, List.leftpad, List.length_append, List.length_replicate]
  omega

/-- The number after one that was written is read back from it. -/
theorem newRevId_format {n : Int} (hlength : (Nat.toDigits 10 n.natAbs).length ≤ maxStrDigits) :
    newRevId (some (String.ofList (format n))) = n + 1 := by
  have hlist : (String.ofList (format n)).toList = format n := String.toList_ofList
  rw [newRevId, hlist]
  rcases Int.lt_trichotomy n 0 with hneg | rfl | hpos
  · rw [format, if_neg (by omega), List.dropWhile_cons_of_neg (by decide),
      int_of_minus padded_ne_nil (fun c hc => isDigit_of_mem_padded hc)
        (length_padded_le (by decide) hlength), valueOf_padded (by decide) (by decide)]
    simp only
    omega
  · rfl
  · have hread := int_lstrip_padded (n := n.natAbs) (by omega) hlength
    rw [format, if_pos hpos.le, hread]
    simp only
    omega

theorem format_inj {m n : Int} (h : format m = format n) : m = n := by
  unfold format at h
  have hsign : ∀ {k : Nat} {cs : List Char}, padded 10 3 k ≠ '-' :: cs := fun {k cs} heq =>
    (isDigit_of_mem_padded (heq ▸ List.mem_cons_self)).ne.1 rfl
  split_ifs at h with hm hn hn
  · have habs := padded_inj (by decide) (by decide) h
    omega
  · exact absurd h hsign
  · exact absurd h.symm hsign
  · have habs := padded_inj (by decide) (by decide) (List.cons.inj h).2
    omega

/-! ## Every chain of migrations -/

/-- The ids of `k` migrations from a number on. -/
def numbered (first : Int) (k : Nat) : List String :=
  (List.range k).map fun i : Nat => String.ofList (format (first + i))

theorem mem_numbered {first : Int} {k : Nat} {revId : String} :
    revId ∈ numbered first k ↔ ∃ i < k, revId = String.ofList (format (first + i)) := by
  simp [numbered, eq_comm]

theorem nodup_numbered (first : Int) (k : Nat) : (numbered first k).Nodup := by
  refine List.Nodup.map (fun i j h => ?_) List.nodup_range
  have hformat : format (first + i) = format (first + j) := by
    simpa using congrArg String.toList h
  have heq := format_inj hformat
  omega

theorem numbered_succ (first : Int) (k : Nat) :
    numbered first (k + 1) = numbered first k ++ [String.ofList (format (first + k))] := by
  simp [numbered, List.range_succ]

theorem generate_cases {revisions revisions' : List String} {u : Unit}
    (h : Step revisions u revisions') :
    (Nat.toDigits 10 (newRevId revisions.getLast?).natAbs).length ≤ maxStrDigits ∧
      revisions' = revisions ++ [String.ofList (format (newRevId revisions.getLast?))] := by
  obtain ⟨revId, hrevId, rfl⟩ := Option.map_eq_some_iff.mp h
  simp only [processRevisionDirectives] at hrevId
  split_ifs at hrevId with hlength
  exact ⟨hlength, by rw [Option.some.inj hrevId]⟩

theorem numbered_run {before revisions : List String} {us : List Unit}
    (hrun : Run Step before us revisions) :
    revisions = before ++ numbered (newRevId before.getLast?) us.length ∧
      newRevId revisions.getLast? = newRevId before.getLast? + us.length := by
  induction hrun with
  | refl => exact ⟨by simp [numbered], by simp⟩
  | tail _ hstep ih =>
      obtain ⟨hlength, rfl⟩ := generate_cases hstep
      obtain ⟨hrevisions, hnext⟩ := ih
      have hread := newRevId_format hlength
      rw [hnext] at hread ⊢
      refine ⟨?_, ?_⟩
      · rw [List.length_append, List.length_singleton, numbered_succ, ← List.append_assoc,
          ← hrevisions]
      · rw [List.getLast?_concat, hread, List.length_append, List.length_singleton]
        push_cast
        omega

structure RevisionContract (before : List String) (k : Nat) (revisions : List String) : Prop where
  consecutive : revisions = before ++ numbered (newRevId before.getLast?) k
  /-- An id is repeated only if an older revision already has it. -/
  distinct : revisions.Nodup ↔
    before.Nodup ∧ ∀ i : Nat, i < k → String.ofList (format (newRevId before.getLast? + i)) ∉ before

/-- On top of whatever revisions there are, the generated ones count on from the head in
steps of one, and two of them never have the same id. -/
theorem revision_ids {before revisions : List String} {us : List Unit}
    (hrun : Run Step before us revisions) : RevisionContract before us.length revisions := by
  obtain ⟨hrevisions, -⟩ := numbered_run hrun
  refine ⟨hrevisions, ?_⟩
  rw [hrevisions, List.nodup_append']
  constructor
  · rintro ⟨hbefore, -, hdisjoint⟩
    exact ⟨hbefore, fun i hi hmem => hdisjoint hmem (mem_numbered.mpr ⟨i, hi, rfl⟩)⟩
  · rintro ⟨hbefore, hnew⟩
    refine ⟨hbefore, nodup_numbered _ _, fun revId hold hgenerated => ?_⟩
    obtain ⟨i, hi, rfl⟩ := mem_numbered.mp hgenerated
    exact hnew i hi hold

/-- A migration with a hash of its own restarts the count, so that 001 is there twice. -/
theorem revision_ids_afterHash :
    RevisionContract ["001", "1975ea83b712"] 1 ["001", "1975ea83b712", "001"] :=
  have hrun : Run Step ["001", "1975ea83b712"] [()] ["001", "1975ea83b712", "001"] :=
    run_of_foldlM (by decide +kernel)
  revision_ids hrun

end BackendProdReady.Migrations.RevisionIds
