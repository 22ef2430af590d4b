import BackendProdReady.Lib.Text
import Mathlib.Data.List.Count

/-!
# Paths of a POSIX file system

`pathlib.PurePosixPath`: parsing, joining, and the lexical meaning of `..`, which removes
the component before it.  `Below base k p` says that `p` resolves to a place at least `k`
components under `base`; joining a relative text keeps it as long as the text goes up no
further than that.
-/

namespace BackendProdReady.Lib.PosixPath

open BackendProdReady.Lib.Text

/-- A pure path; `root` is empty in a relative one. -/
structure Path where
  root : String
  parts : List String
deriving DecidableEq

def isAbsolute (s : String) : Bool := s.toList.head? == some '/'

/-- `posixpath.splitroot(s)[1]`; POSIX leaves the meaning of exactly two slashes open. -/
def rootOf (s : String) : String :=
  match s.toList with
  | ['/', '/'] => "//"
  | '/' :: '/' :: c :: _ => if c = '/' then "/" else "//"
  | '/' :: _ => "/"
  | _ => ""

def components (s : String) : List String :=
  (split '/' s).filter fun part => part ≠ "" ∧ part ≠ "."

namespace Path

def parse (s : String) : Path := ⟨rootOf s, components s⟩

def join (path : Path) (s : String) : Path :=
  if isAbsolute s then parse s else ⟨path.root, path.parts ++ components s⟩

def str (path : Path) : String :=
  if path.root = "" ∧ path.parts = [] then "." else path.root ++ "/".intercalate path.parts

def name (path : Path) : String := path.parts.getLast?.getD ""

/-- `..` removes the component before it; the root is its own parent. -/
def ascend (above : List String) (part : String) : List String :=
  if part = ".." then above.dropLast else above ++ [part]

/-- The components of the place a path names, when no component is a symbolic link. -/
def resolve (path : Path) : List String := path.parts.foldl ascend []

/-- `path` names a place at least `depth` components under `base`. -/
def Below (base : Path) (depth : Nat) (path : Path) : Prop :=
  path.root = base.root ∧
    ∃ rest, path.resolve = base.resolve ++ rest ∧ depth ≤ rest.length

end Path

/-! ## Steps up and down -/

def ups (s : String) : Nat := (components s).count ".."

def downs (s : String) : Nat := (components s).length - ups s

theorem foldl_ascend (base rest parts : List String)
    (h : parts.count ".." ≤ rest.length) :
    ∃ rest', parts.foldl Path.ascend (base ++ rest) = base ++ rest' ∧
      rest'.length + 2 * parts.count ".." = rest.length + parts.length := by
  induction parts generalizing rest with
  | nil => exact ⟨rest, rfl, by simp⟩
  | cons part parts ih =>
      by_cases hup : part = ".."
      · subst hup
        rw [List.count_cons_self] at h
        have hne : rest ≠ [] := by
          apply List.ne_nil_of_length_pos
          omega
        have hstep : Path.ascend (base ++ rest) ".." = base ++ rest.dropLast := by
          rw [Path.ascend, if_pos rfl, List.dropLast_append_of_ne_nil hne]
        rcases ih rest.dropLast (by rw [List.length_dropLast]; omega) with
          ⟨rest', hfold, hlen⟩
        refine ⟨rest', by rw [List.foldl_cons, hstep, hfold], ?_⟩
        rw [List.length_dropLast] at hlen
        rw [List.count_cons_self, List.length_cons]
        omega
      · have hstep : Path.ascend (base ++ rest) part = base ++ (rest ++ [part]) := by
          rw [Path.ascend, if_neg hup, List.append_assoc]
        rw [List.count_cons_of_ne (by simpa using hup)] at h ⊢
        rcases ih (rest ++ [part]) (by rw [List.length_append]; omega) with
          ⟨rest', hfold, hlen⟩
        refine ⟨rest', by rw [List.foldl_cons, hstep, hfold], ?_⟩
        rw [List.length_append, List.length_singleton] at hlen
        rw [List.length_cons]
        omega

namespace Path

theorem below_self (base : Path) : Below base 0 base :=
  ⟨rfl, [], by simp, by simp⟩

theorem Below.mono {base path : Path} {depth least : Nat} (h : Below base depth path)
    (hle : least ≤ depth) : Below base least path := by
  rcases h with ⟨hroot, rest, hresolve, hdepth⟩
  exact ⟨hroot, rest, hresolve, hle.trans hdepth⟩

/-- A relative text that goes up no further than `base` stays below it. -/
theorem Below.join {base path : Path} {depth : Nat} (h : Below base depth path) {s : String}
    (hrelative : isAbsolute s = false) (hups : ups s ≤ depth) :
    Below base (depth + downs s - ups s) (path.join s) := by
  rcases h with ⟨hroot, rest, hresolve, hdepth⟩
  have hjoin : path.join s = ⟨path.root, path.parts ++ components s⟩ := by
    simp [Path.join, hrelative]
  rcases foldl_ascend base.resolve rest (components s) (hups.trans hdepth) with
    ⟨rest', hfold, hlen⟩
  rw [hjoin]
  refine ⟨hroot, rest', ?_, ?_⟩
  · rw [resolve, List.foldl_append, ← resolve, hresolve, hfold]
  · have hcount : ups s ≤ (components s).length := List.count_le_length
    unfold downs
    unfold ups at hcount hups ⊢
    omega

end Path

/-! ## How far a text can go up -/

section Split

variable {a : Char}

theorem splitOn_append_of_notMem {l : List Char} (hl : a ∉ l) (cs : List Char)
    {first : List Char} {rest : List (List Char)} (h : cs.splitOn a = first :: rest) :
    (l ++ cs).splitOn a = (l ++ first) :: rest := by
  induction l with
  | nil => exact h
  | cons c l ih =>
      simp only [List.mem_cons, not_or] at hl
      rw [List.cons_append, List.splitOn_cons_eq_if_modifyHead, ih hl.2,
        if_neg (by simpa using Ne.symm hl.1), List.modifyHead_cons, List.cons_append]

/-- A text without separators behind another one goes to its last component. -/
theorem exists_splitOn_append {l : List Char} (hl : a ∉ l) (cs : List Char) :
    ∃ init last, cs.splitOn a = init ++ [last] ∧ (cs ++ l).splitOn a = init ++ [last ++ l] := by
  induction cs with
  | nil => exact ⟨[], [], rfl, List.splitOn_eq_singleton hl⟩
  | cons c cs ih =>
      rcases ih with ⟨init, last, hcs, happend⟩
      rw [List.cons_append, List.splitOn_cons_eq_if_modifyHead,
        List.splitOn_cons_eq_if_modifyHead, hcs, happend]
      by_cases hc : c = a
      · exact ⟨[] :: init, last, by simp [hc], by simp [hc]⟩
      · cases init with
        | nil => exact ⟨[], c :: last, by simp [hc], by simp [hc]⟩
        | cons first init => exact ⟨(c :: first) :: init, last, by simp [hc], by simp [hc]⟩

/-- Each component takes its own characters and a separator. -/
theorem sum_length_splitOn (a : Char) (cs : List Char) :
    ((cs.splitOn a).map fun part => part.length + 1).sum = cs.length + 1 := by
  induction cs with
  | nil => simp
  | cons c cs ih =>
      rcases List.exists_cons_of_ne_nil (List.splitOn_ne_nil a cs) with ⟨first, rest, hsplit⟩
      rw [hsplit, List.map_cons, List.sum_cons] at ih
      rw [List.splitOn_cons_eq_if_modifyHead, hsplit]
      by_cases hc : c = a
      · rw [if_pos (by simp [hc]), List.map_cons, List.sum_cons, List.map_cons, List.sum_cons, ih,
          List.length_nil, List.length_cons]
        omega
      · rw [if_neg (by simpa using hc), List.modifyHead_cons, List.map_cons, List.sum_cons,
          List.length_cons, List.length_cons]
        omega

end Split

theorem three_mul_count_le (parts : List (List Char)) :
    3 * parts.count ['.', '.'] ≤ (parts.map fun part => part.length + 1).sum := by
  induction parts with
  | nil => simp
  | cons part parts ih =>
      rw [List.map_cons, List.sum_cons]
      by_cases hup : part = ['.', '.']
      · rw [hup, List.count_cons_self, List.length_cons, List.length_singleton]
        omega
      · rw [List.count_cons_of_ne (by simpa using hup)]
        omega

theorem count_cons_of_long {part : List Char} (h : 2 < part.length) (parts : List (List Char)) :
    (part :: parts).count ['.', '.'] = parts.count ['.', '.'] := by
  rw [List.count_cons_of_ne]
  intro heq
  rw [heq] at h
  simp at h

theorem ups_eq_count (s : String) : ups s = (s.toList.splitOn '/').count ['.', '.'] := by
  have hup : ".." = String.ofList ['.', '.'] := rfl
  unfold ups components split
  rw [List.count_filter (by decide), hup,
    List.count_map_of_injective _ _ (fun _ _ heq => String.ofList_injective heq)]

/-- Between two texts without slashes that are no part of `..`, each step up takes three of
the characters. -/
theorem three_mul_ups_le {front back : String} (hfront : '/' ∉ front.toList)
    (hback : '/' ∉ back.toList) (hfrontLength : 2 < front.length)
    (hbackLength : 2 < back.length) (s : String) :
    3 * ups (front ++ s ++ back) ≤ s.length := by
  rw [ups_eq_count, String.toList_append, String.toList_append, List.append_assoc]
  rw [← String.length_toList] at hfrontLength hbackLength ⊢
  rcases exists_splitOn_append hback s.toList with ⟨init, last, hs, happend⟩
  have hsum := sum_length_splitOn '/' s.toList
  have hlast : [last ++ back.toList].count ['.', '.'] = 0 := by
    rw [count_cons_of_long (by rw [List.length_append]; omega), List.count_nil]
  cases init with
  | nil =>
      rw [splitOn_append_of_notMem hfront _ happend,
        count_cons_of_long (by rw [List.length_append]; omega), List.count_nil]
      omega
  | cons first init =>
      have hbound := three_mul_count_le init
      rw [splitOn_append_of_notMem hfront _ happend,
        count_cons_of_long (by rw [List.length_append]; omega)]
      rw [hs, List.cons_append, List.map_cons, List.sum_cons, List.map_append,
        List.sum_append] at hsum
      calc 3 * (init ++ [last ++ back.toList]).count ['.', '.']
          = 3 * init.count ['.', '.'] := by rw [List.count_append, hlast, Nat.add_zero]
        _ ≤ (init.map fun part => part.length + 1).sum := hbound
        _ ≤ s.toList.length := by omega

/-- Such a text ends in a step down. -/
theorem downs_pos {back : String} (hback : '/' ∉ back.toList) (hbackLength : 2 < back.length)
    (s : String) : 0 < downs (s ++ back) := by
  rw [← String.length_toList] at hbackLength
  rcases exists_splitOn_append hback s.toList with ⟨init, last, -, happend⟩
  have hlong : 2 < (String.ofList (last ++ back.toList)).length := by
    rw [String.length_ofList, List.length_append]
    omega
  have hne : ∀ t : String, t.length ≤ 2 → String.ofList (last ++ back.toList) ≠ t := by
    intro t ht heq
    rw [heq] at hlong
    omega
  have hmem : String.ofList (last ++ back.toList) ∈ components (s ++ back) := by
    unfold components split
    rw [String.toList_append, happend, List.mem_filter, List.map_append, List.mem_append]
    refine ⟨.inr (by simp), ?_⟩
    rw [decide_eq_true_eq]
    exact ⟨hne "" (by decide), hne "." (by decide)⟩
  have hcount : (components (s ++ back)).count ".." ≠ (components (s ++ back)).length := by
    intro heq
    exact hne ".." (by decide) (List.count_eq_length.mp heq _ hmem).symm
  have hle : (components (s ++ back)).count ".." ≤ (components (s ++ back)).length :=
    List.count_le_length
  unfold downs ups
  omega

/-! ## Single components -/

theorem components_append {mid : String} (hmid : mid.toList = ['/']) (s t : String) :
    components (s ++ mid ++ t) = components s ++ components t := by
  unfold components
  rw [split_append hmid, List.filter_append]

theorem ups_le_one {s : String} (h : '/' ∉ s.toList) : ups s ≤ 1 := by
  have hlength : (components s).length ≤ [s].length := by
    rw [components, split, List.splitOn_eq_singleton h, List.map_singleton, String.ofList_toList]
    exact List.length_filter_le _ _
  exact List.count_le_length.trans hlength

/-- A component of digits. -/
theorem components_of_isAsciiDigits {s : String} (h : isAsciiDigits s = true) :
    components s = [s] ∧ s ≠ ".." := by
  have hslash : '/' ∉ s.toList := notMem_of_isAsciiDigits h (by decide)
  have hdot : '.' ∉ s.toList := notMem_of_isAsciiDigits h (by decide)
  have hsplit : split '/' s = [s] := by
    rw [split, List.splitOn_eq_singleton hslash, List.map_singleton, String.ofList_toList]
  have hempty : s ≠ "" := by
    rintro rfl
    cases h
  have hne : s ≠ "." ∧ s ≠ ".." := by
    constructor
    · rintro rfl
      exact hdot (by decide)
    · rintro rfl
      exact hdot (by decide)
  rw [components, hsplit]
  exact ⟨by simp [hempty, hne.1], hne.2⟩

theorem isAbsolute_of_notMem {s : String} (h : '/' ∉ s.toList) : isAbsolute s = false := by
  unfold isAbsolute
  cases hs : s.toList with
  | nil => rfl
  | cons c cs =>
      rw [hs, List.mem_cons, not_or] at h
      simpa using Ne.symm h.1

theorem isAbsolute_append {s : String} (h : isAbsolute s = false) (hne : s ≠ "") (t : String) :
    isAbsolute (s ++ t) = false := by
  unfold isAbsolute at h ⊢
  rw [String.toList_append]
  cases hs : s.toList with
  | nil => exact absurd (String.toList_eq_nil_iff.mp hs) hne
  | cons c cs =>
      rw [hs] at h
      exact h

end BackendProdReady.Lib.PosixPath
