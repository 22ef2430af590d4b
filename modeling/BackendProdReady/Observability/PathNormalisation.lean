import BackendProdReady.Lib.Regex
import Mathlib.Data.List.TakeWhile

/-!
# Paths as metric labels

`_normalize_path` makes two substitutions.  The one for UUIDs works inside the segments of a
path.  The one for numbers takes a `/`, the digits and the `/` after them, so that the next
segment has lost the `/` it needs to be replaced as well.
-/

namespace BackendProdReady.Observability.PathNormalisation

open BackendProdReady.Lib.Regex

/-! ## Source -/

/-- The zeros of the decimal digits of Unicode 14, ten in a row each. -/
def decimalZeros : List Nat :=
  [0x30, 0x660, 0x6f0, 0x7c0, 0x966, 0x9e6, 0xa66, 0xae6, 0xb66, 0xbe6, 0xc66, 0xce6, 0xd66,
    0xde6, 0xe50, 0xed0, 0xf20, 0x1040, 0x1090, 0x17e0, 0x1810, 0x1946, 0x19d0, 0x1a80, 0x1a90,
    0x1b50, 0x1bb0, 0x1c40, 0x1c50, 0xa620, 0xa8d0, 0xa900, 0xa9d0, 0xa9f0, 0xaa50, 0xabf0,
    0xff10, 0x104a0, 0x10d30, 0x11066, 0x110f0, 0x11136, 0x111d0, 0x112f0, 0x11450, 0x114d0,
    0x11650, 0x116c0, 0x11730, 0x118e0, 0x11950, 0x11c50, 0x11d50, 0x11da0, 0x16a60, 0x16ac0,
    0x16b50, 0x1d7ce, 0x1d7d8, 0x1d7e2, 0x1d7ec, 0x1d7f6, 0x1e140, 0x1e2f0, 0x1e950, 0x1fbf0]

def isDecimal (c : Char) : Bool :=
  decimalZeros.any fun z => z ≤ c.toNat && c.toNat < z + 10

def isHex (c : Char) : Bool :=
  ('0' ≤ c && c ≤ '9') || ('a' ≤ c && c ≤ 'f') || ('A' ≤ c && c ≤ 'F')

def uuidClasses : List (Char → Bool) :=
  let hyphen : List (Char → Bool) := [(· == '-')]
  List.replicate 8 isHex ++ hyphen ++ List.replicate 4 isHex ++ hyphen ++ List.replicate 4 isHex ++
    hyphen ++ List.replicate 4 isHex ++ hyphen ++ List.replicate 12 isHex

def delimiter : Pattern := .group (.alt (.one (· == '/')) .atEnd)

def numericId : Pattern := .seq (.one (· == '/')) (.seq (.plus isDecimal) delimiter)

def placeholder : List Char := ['{', 'i', 'd', '}']

def replaceUuids (path : List Char) : List Char :=
  sub (classes uuidClasses) (fun _ => placeholder) path

def replaceNumericIds (path : List Char) : List Char :=
  sub numericId (fun delimiter => '/' :: placeholder ++ delimiter) path

def normalizePath (path : String) : String :=
  String.ofList (replaceNumericIds (replaceUuids path.toList))

/-! ## Segments -/

def isNumeric (segment : List Char) : Bool := !segment.isEmpty && segment.all isDecimal

/-- A number and a newline, before which `$` matches as well. -/
def isNumericLine (segment : List Char) : Bool :=
  segment.getLast? == some '\n' && isNumeric segment.dropLast

def segments (path : String) : List (List Char) := path.toList.splitOn '/'

/-- `/` and a segment, for each of the segments. -/
def tailText (tail : List (List Char)) : List Char := tail.flatMap ('/' :: ·)

/-- What the second substitution does to the segments after the first one. -/
def replaceTail : List (List Char) → List (List Char)
  | [] => []
  | [s] =>
      [if isNumeric s then placeholder else if isNumericLine s then placeholder ++ ['\n'] else s]
  | s :: t :: tail =>
      if isNumeric s then placeholder :: t :: replaceTail tail else s :: replaceTail (t :: tail)

/-- The first segment of the list is one that the substitution matches. -/
def startsWithId : List (List Char) → Bool
  | [] => false
  | [s] => isNumeric s || isNumericLine s
  | s :: _ :: _ => isNumeric s

def containsId : List (List Char) → Bool
  | [] => false
  | s :: tail => startsWithId (s :: tail) || containsId tail

/-- No identifier stands right after another one. -/
def isolated : List (List Char) → Bool
  | [] => true
  | s :: tail => !(startsWithId (s :: tail) && startsWithId tail) && isolated tail

example : normalizePath "/users/1/orders/2" = "/users/\x7bid\x7d/orders/\x7bid\x7d" := by
  decide +kernel

/-! ## The second substitution -/

theorem search_delimiter_slash (s : List Char) :
    search delimiter ('/' :: s) = some ⟨['/'], some ['/'], s⟩ := rfl

theorem search_delimiter_end {s : List Char} (h : s = [] ∨ s = ['\n']) :
    search delimiter s = some ⟨[], some [], s⟩ := by
  rcases h with rfl | rfl
  · rfl
  · rfl

theorem ways_delimiter_eq_nil {c : Char} {s : List Char} (hslash : c ≠ '/')
    (hend : c :: s ≠ ['\n']) : ways delimiter (c :: s) = [] := by
  simp [delimiter, ways, oneWays, hslash]
  simpa using hend

theorem search_numericId (s : List Char) :
    search numericId ('/' :: s) =
      if s.takeWhile isDecimal = [] then none
      else (search delimiter (s.dropWhile isDecimal)).map
        (Way.andThen ⟨'/' :: s.takeWhile isDecimal, none, s.dropWhile isDecimal⟩) := by
  have hdelimiter : ∀ c s, isDecimal c = true → ways delimiter (c :: s) = [] := by
    intro c s hc
    apply ways_delimiter_eq_nil
    · rintro rfl
      exact absurd hc (by decide)
    · intro hline
      rw [(List.cons.inj hline).1] at hc
      exact absurd hc (by decide)
  rw [numericId, search_one_seq, if_pos (by rfl), search_plus_seq hdelimiter]
  split_ifs
  · rfl
  · rw [Option.map_map]
    congr 1
    funext w
    exact (andThen_assoc _ _ w).symm

theorem search_numericId_of_ne {c : Char} (hc : c ≠ '/') (s : List Char) :
    search numericId (c :: s) = none := by
  rw [numericId, search_one_seq, if_neg (by simpa using hc)]

theorem consuming_numericId : Consuming numericId := consuming_one_seq _ _

theorem replaceNumericIds_segment {s : List Char} (hs : '/' ∉ s) (rest : List Char) :
    replaceNumericIds (s ++ rest) = s ++ replaceNumericIds rest := by
  apply sub_append_of_copied
  intro c hc
  exact search_numericId_of_ne (fun h => hs (h ▸ hc))

theorem all_of_isNumeric {s : List Char} (h : isNumeric s = true) :
    s ≠ [] ∧ ∀ c ∈ s, isDecimal c = true := by
  rw [isNumeric, Bool.and_eq_true, List.all_eq_true] at h
  exact ⟨by simpa using h.1, h.2⟩

/-- A number before a delimiter. -/
theorem search_of_isNumeric {s : List Char} (hs : isNumeric s = true) (rest : List Char)
    (hrest : rest.takeWhile isDecimal = []) :
    search numericId ('/' :: (s ++ rest)) =
      (search delimiter rest).map (Way.andThen ⟨'/' :: s, none, rest⟩) := by
  obtain ⟨hne, hall⟩ := all_of_isNumeric hs
  have hdrop : rest.dropWhile isDecimal = rest := by
    conv_rhs => rw [← List.takeWhile_append_dropWhile (p := isDecimal) (l := rest), hrest]
    rfl
  rw [search_numericId, List.takeWhile_append_of_pos hall, List.dropWhile_append_of_pos hall,
    hrest, hdrop, List.append_nil, if_neg hne]

theorem replaceNumericIds_of_slash {s : List Char} (hs : isNumeric s = true) (rest : List Char) :
    replaceNumericIds ('/' :: (s ++ '/' :: rest)) =
      '/' :: placeholder ++ '/' :: replaceNumericIds rest := by
  have hsearch := search_of_isNumeric hs ('/' :: rest) (by rfl)
  rw [search_delimiter_slash, Option.map_some] at hsearch
  rw [replaceNumericIds, sub_of_some consuming_numericId hsearch]
  rfl

theorem replaceNumericIds_of_end {s : List Char} (hs : isNumeric s = true) {rest : List Char}
    (hrest : rest = [] ∨ rest = ['\n']) :
    replaceNumericIds ('/' :: (s ++ rest)) = '/' :: placeholder ++ rest := by
  have htake : rest.takeWhile isDecimal = [] := by
    rcases hrest with rfl | rfl
    · rfl
    · rfl
  have hsearch := search_of_isNumeric hs rest htake
  rw [search_delimiter_end hrest, Option.map_some] at hsearch
  rw [replaceNumericIds, sub_of_some consuming_numericId hsearch]
  rcases hrest with rfl | rfl
  · rfl
  · rfl

theorem isNumeric_of_all {s : List Char} (hne : s ≠ []) (h : ∀ c ∈ s, isDecimal c = true) :
    isNumeric s = true := by
  rw [isNumeric, Bool.and_eq_true, List.all_eq_true]
  exact ⟨by simpa using hne, h⟩

/-- A list with an element that fails the test decides where its prefix ends. -/
theorem takeWhile_dropWhile_append {p : Char → Bool} {s s' : List Char} {c : Char}
    (hdrop : s.dropWhile p = c :: s') (rest : List Char) :
    (s ++ rest).takeWhile p = s.takeWhile p ∧ (s ++ rest).dropWhile p = c :: (s' ++ rest) := by
  have hlen := congrArg List.length (List.takeWhile_append_dropWhile (p := p) (l := s))
  rw [List.length_append, hdrop, List.length_cons] at hlen
  constructor
  · rw [List.takeWhile_append, if_neg (by omega)]
  · rw [List.dropWhile_append, hdrop]
    rfl

/-- No delimiter follows the leading digits of a segment that is no identifier. -/
theorem search_delimiter_eq_none {s s' rest : List Char} {c : Char} (hslash : '/' ∉ s)
    (hdrop : s.dropWhile isDecimal = c :: s') (hdigits : s.takeWhile isDecimal ≠ [])
    (hline : rest = [] → isNumericLine s = false) :
    search delimiter (c :: (s' ++ rest)) = none := by
  have hsplit := List.takeWhile_append_dropWhile (p := isDecimal) (l := s)
  rw [hdrop] at hsplit
  rw [search, ways_delimiter_eq_nil, List.head?_nil]
  · rintro rfl
    apply hslash
    rw [← hsplit]
    exact List.mem_append_right _ List.mem_cons_self
  · intro heq
    obtain ⟨rfl, htail⟩ := List.cons.inj heq
    obtain ⟨rfl, rfl⟩ := List.append_eq_nil_iff.mp htail
    -- The segment is its leading digits and a newline.
    have hlast : isNumericLine s = true := by
      rw [isNumericLine, ← hsplit, List.getLast?_concat, List.dropLast_concat,
        isNumeric_of_all hdigits fun c hc => List.mem_takeWhile_imp hc]
      rfl
    rw [hline rfl] at hlast
    cases hlast

theorem search_eq_none {s rest : List Char} (hslash : '/' ∉ s)
    (hrest : rest.takeWhile isDecimal = []) (hs : isNumeric s = false)
    (hline : rest = [] → isNumericLine s = false) :
    search numericId ('/' :: (s ++ rest)) = none := by
  rw [search_numericId]
  split_ifs with htake
  · rfl
  · rw [Option.map_eq_none_iff]
    cases hdrop : s.dropWhile isDecimal with
    | nil =>
        have hempty : s = [] := by
          by_contra hne
          have hnumeric := isNumeric_of_all hne (List.dropWhile_eq_nil_iff.mp hdrop)
          rw [hs] at hnumeric
          cases hnumeric
        rw [hempty, List.nil_append] at htake
        exact absurd hrest htake
    | cons c s' =>
        obtain ⟨htake', hdrop'⟩ := takeWhile_dropWhile_append hdrop rest
        rw [htake'] at htake
        rw [hdrop', search_delimiter_eq_none hslash hdrop htake hline]

/-- A segment that is no identifier, at the end or before the next segment. -/
theorem replaceNumericIds_of_other {s rest : List Char} (hslash : '/' ∉ s)
    (hrest : rest.takeWhile isDecimal = []) (hs : isNumeric s = false)
    (hline : rest = [] → isNumericLine s = false) :
    replaceNumericIds ('/' :: (s ++ rest)) = '/' :: (s ++ replaceNumericIds rest) := by
  have hnone := search_eq_none hslash hrest hs hline
  rw [replaceNumericIds, sub_of_none hnone, ← replaceNumericIds, replaceNumericIds_segment hslash]

theorem takeWhile_tailText (tail : List (List Char)) :
    (tailText tail).takeWhile isDecimal = [] := by
  cases tail with
  | nil => rfl
  | cons s tail => rfl

theorem tailText_cons (s : List Char) (tail : List (List Char)) :
    tailText (s :: tail) = '/' :: (s ++ tailText tail) := rfl

theorem eq_concat_of_isNumericLine {s : List Char} (h : isNumericLine s = true) :
    isNumeric s.dropLast = true ∧ s = s.dropLast ++ ['\n'] := by
  rw [isNumericLine, Bool.and_eq_true, beq_iff_eq] at h
  exact ⟨h.2, (List.dropLast_append_getLast? _ (Option.mem_def.mpr h.1)).symm⟩

theorem replaceNumericIds_tailText {tail : List (List Char)} (hslash : ∀ s ∈ tail, '/' ∉ s) :
    replaceNumericIds (tailText tail) = tailText (replaceTail tail) := by
  induction tail using replaceTail.induct with
  | case1 => rfl
  | case2 s =>
      have hs := hslash s List.mem_cons_self
      rw [replaceTail, tailText_cons, tailText_cons]
      by_cases hnumeric : isNumeric s = true
      · rw [if_pos hnumeric]
        exact replaceNumericIds_of_end hnumeric (.inl rfl)
      · rw [if_neg hnumeric]
        by_cases hline : isNumericLine s = true
        · obtain ⟨hdigits, hsplit⟩ := eq_concat_of_isNumericLine hline
          rw [if_pos hline, hsplit, List.append_assoc]
          exact replaceNumericIds_of_end hdigits (.inr rfl)
        · rw [if_neg hline]
          exact replaceNumericIds_of_other hs rfl (by simpa using hnumeric)
            fun _ => by simpa using hline
  | case3 s t tail hs ih =>
      have ht := hslash t (by simp)
      rw [replaceTail, if_pos hs, tailText_cons, tailText_cons, tailText_cons, tailText_cons,
        replaceNumericIds_of_slash hs, replaceNumericIds_segment ht,
        ih fun s' hs' => hslash s' (by simp [hs'])]
      rfl
  | case4 s t tail hs ih =>
      rw [replaceTail, if_neg hs, tailText_cons, tailText_cons s (replaceTail _),
        replaceNumericIds_of_other (hslash s List.mem_cons_self) (takeWhile_tailText _)
          (by simpa using hs) (fun h => by cases h),
        ih fun s' hs' => hslash s' (List.mem_cons_of_mem _ hs')]

/-! ## Identifiers in a row -/

theorem not_isNumeric_placeholder : isNumeric placeholder = false := by decide

theorem startsWithId_placeholder (tail : List (List Char)) :
    startsWithId (placeholder :: tail) = false := by
  cases tail with
  | nil => decide
  | cons t tail => exact not_isNumeric_placeholder

/-- Whether a segment is an identifier depends on the rest by its emptiness only. -/
theorem startsWithId_cons {s : List Char} {tail tail' : List (List Char)}
    (h : tail = [] ↔ tail' = []) : startsWithId (s :: tail) = startsWithId (s :: tail') := by
  cases tail with
  | nil =>
      rw [h.mp rfl]
  | cons t tail =>
      cases tail' with
      | nil => cases h.mpr rfl
      | cons t' tail' => rfl

theorem replaceTail_eq_nil (tail : List (List Char)) : replaceTail tail = [] ↔ tail = [] := by
  induction tail using replaceTail.induct with
  | case1 => exact Iff.rfl
  | case2 s => simp [replaceTail]
  | case3 s t tail hs ih => simp [replaceTail, hs]
  | case4 s t tail hs ih => simp [replaceTail, hs]

theorem isolated_cons (s : List Char) (tail : List (List Char)) :
    isolated (s :: tail) =
      (!(startsWithId (s :: tail) && startsWithId tail) && isolated tail) := rfl

/-- One pass leaves no identifier exactly when no two of them were adjacent. -/
theorem containsId_replaceTail (tail : List (List Char)) :
    containsId (replaceTail tail) = !isolated tail := by
  induction tail using replaceTail.induct with
  | case1 => rfl
  | case2 s =>
      have hisolated : isolated [s] = true := by
        rw [isolated, isolated, startsWithId.eq_def [], Bool.and_false, Bool.not_false,
          Bool.and_self]
      have hline : startsWithId [placeholder ++ ['\n']] = false := by decide
      rw [hisolated, replaceTail, containsId, containsId, Bool.or_false, Bool.not_true]
      by_cases hs : isNumeric s = true
      · rw [if_pos hs, startsWithId_placeholder]
      · rw [if_neg hs]
        by_cases hs' : isNumericLine s = true
        · rw [if_pos hs', hline]
        · rw [if_neg hs', startsWithId, Bool.or_eq_false_iff]
          exact ⟨by simpa using hs, by simpa using hs'⟩
  | case3 s t tail hs ih =>
      have hfirst : startsWithId (s :: t :: tail) = true := hs
      rw [replaceTail, if_pos hs, containsId, containsId, startsWithId_placeholder, ih,
        startsWithId_cons (replaceTail_eq_nil tail), isolated, isolated, hfirst]
      cases startsWithId (t :: tail) with
      | false => simp
      | true => simp
  | case4 s t tail hs ih =>
      have hfirst : startsWithId (s :: t :: tail) = false := Bool.eq_false_iff.mpr hs
      have hsame := startsWithId_cons (s := s) (replaceTail_eq_nil (t :: tail))
      rw [replaceTail, if_neg hs, containsId, ih, hsame, isolated_cons s, hfirst, Bool.false_or,
        Bool.false_and, Bool.not_false, Bool.true_and]

theorem ne_placeholder {s : List Char} (hs : isNumeric s = true) : placeholder ≠ s := by
  rintro rfl
  exact absurd hs (by decide)

theorem replaceTail_eq_self (tail : List (List Char)) :
    replaceTail tail = tail ↔ containsId tail = false := by
  induction tail using replaceTail.induct with
  | case1 => exact ⟨fun _ => rfl, fun _ => rfl⟩
  | case2 s =>
      rw [replaceTail, containsId, containsId, Bool.or_false, startsWithId, List.cons.injEq]
      by_cases hs : isNumeric s = true
      · simp [hs, ne_placeholder hs]
      · rw [if_neg hs]
        by_cases hline : isNumericLine s = true
        · obtain ⟨hdigits, hsplit⟩ := eq_concat_of_isNumericLine hline
          have hne : placeholder ++ ['\n'] ≠ s := by
            rw [hsplit]
            intro heq
            exact ne_placeholder hdigits (List.append_cancel_right heq)
          simp [hline, hne]
        · simp [hs, hline]
  | case3 s t tail hs ih =>
      have hfirst : startsWithId (s :: t :: tail) = true := hs
      rw [replaceTail, if_pos hs, containsId, hfirst, List.cons.injEq]
      simp [ne_placeholder hs]
  | case4 s t tail hs ih =>
      have hfirst : startsWithId (s :: t :: tail) = false := Bool.eq_false_iff.mpr hs
      rw [replaceTail, if_neg hs, containsId, hfirst, Bool.false_or, ← ih, List.cons.injEq]
      exact and_iff_right rfl

/-! ## UUIDs -/

theorem uuidClasses_eq : ∃ ps qs, uuidClasses = isHex :: isHex :: ps ++ (· == '-') :: qs :=
  ⟨List.replicate 6 isHex, _, rfl⟩

theorem uuidClasses_ne_nil : uuidClasses ≠ [] := by
  obtain ⟨ps, qs, huuid⟩ := uuidClasses_eq
  rw [huuid]
  exact List.cons_ne_nil _ _

theorem consuming_uuidClasses : Consuming (classes uuidClasses) :=
  consuming_classes uuidClasses_ne_nil

/-- The only characters of a UUID are hexadecimal digits and hyphens. -/
theorem uuidClasses_not_accept {c : Char} (hhex : isHex c = false) (hhyphen : c ≠ '-') :
    ∀ p ∈ uuidClasses, p c = false := by
  intro p hp
  simp only [uuidClasses, List.mem_append, List.mem_replicate, List.mem_singleton] at hp
  have hclass : p = isHex ∨ p = (· == '-') := by tauto
  rcases hclass with rfl | rfl
  · exact hhex
  · exact beq_eq_false_iff_ne.mpr hhyphen

/-- A character that is no hexadecimal digit starts no UUID. -/
theorem occurs_cons {c : Char} (hhex : isHex c = false) (s : List Char) :
    occurs uuidClasses (c :: s) = occurs uuidClasses s := by
  obtain ⟨ps, qs, huuid⟩ := uuidClasses_eq
  rw [occurs, huuid, List.cons_append, List.cons_append, startsWith, hhex, Bool.false_and,
    Bool.false_or]

/-- The placeholder is part of no UUID: its `d` is followed by a brace. -/
theorem occurs_placeholder (s : List Char) :
    occurs uuidClasses (placeholder ++ s) = occurs uuidClasses s := by
  obtain ⟨ps, qs, huuid⟩ := uuidClasses_eq
  have hd : occurs uuidClasses ('d' :: '}' :: s) = occurs uuidClasses ('}' :: s) := by
    rw [occurs, huuid, List.cons_append, List.cons_append, startsWith, startsWith,
      show isHex '}' = false by decide, Bool.false_and, Bool.and_false, Bool.false_or]
  show occurs uuidClasses ('{' :: 'i' :: 'd' :: '}' :: s) = _
  rw [occurs_cons (by decide), occurs_cons (by decide), hd, occurs_cons (by decide)]

theorem occurs_replaceUuids (path : List Char) :
    occurs uuidClasses (replaceUuids path) = false := by
  apply occurs_sub consuming_uuidClasses uuidClasses_ne_nil
    (uuidClasses_not_accept (by decide) (by decide) : ∀ p ∈ uuidClasses, p '{' = false)
  · exact fun _ => ⟨_, rfl⟩
  · exact fun _ _ _ => occurs_placeholder
  · exact fun _ _ _ => search_classes_eq_none.mp

theorem group_of_delimiter {s : List Char} {w : Way} (h : w ∈ ways delimiter s) :
    w.group = some [] ∨ w.group = some ['/'] := by
  obtain ⟨w', hw', rfl⟩ := List.mem_map.mp h
  rcases List.mem_append.mp hw' with hw' | hw'
  · obtain ⟨c, rest, -, hc, rfl⟩ := mem_oneWays hw'
    rw [beq_iff_eq.mp hc]
    exact .inr rfl
  · rw [ways] at hw'
    split_ifs at hw'
    · rw [List.mem_singleton.mp hw']
      exact .inl rfl
    · cases hw'

theorem group_of_search {s : List Char} {w : Way} (h : search numericId s = some w) :
    w.group.getD [] = [] ∨ w.group.getD [] = ['/'] := by
  cases s with
  | nil => cases h
  | cons c s =>
      by_cases hc : c = '/'
      · rw [hc, search_numericId] at h
        split_ifs at h
        obtain ⟨w', hw', rfl⟩ := Option.map_eq_some_iff.mp h
        rcases group_of_delimiter (search_mem hw') with hgroup | hgroup
        · exact .inl (by rw [Way.andThen, hgroup]; rfl)
        · exact .inr (by rw [Way.andThen, hgroup]; rfl)
      · rw [search_numericId_of_ne hc] at h
        cases h

theorem occurs_replaceNumericIds {path : List Char} (h : occurs uuidClasses path = false) :
    occurs uuidClasses (replaceNumericIds path) = false := by
  apply occurs_sub consuming_numericId uuidClasses_ne_nil
    (uuidClasses_not_accept (by decide) (by decide) : ∀ p ∈ uuidClasses, p '/' = false)
  · exact fun _ => ⟨_, rfl⟩
  · intro s w hw t
    rw [List.append_assoc, List.cons_append, occurs_cons (by decide), occurs_placeholder]
    rcases group_of_search hw with hgroup | hgroup
    · rw [hgroup, List.nil_append]
    · rw [hgroup]
      exact occurs_cons (by decide) t
  · intro c u hu _
    rw [Bool.eq_false_iff]
    intro hstart
    rw [occurs_of_suffix hu hstart] at h
    cases h

/-! ## Both substitutions on segments -/

theorem replaceUuids_of_not_mem {s : List Char} (h : '-' ∉ s) : replaceUuids s = s := by
  obtain ⟨ps, qs, huuid⟩ := uuidClasses_eq
  apply sub_of_not_occurs
  rw [huuid]
  exact not_occurs_of_not_mem h

/-- A property that excludes hyphens and braces holds before the first substitution when it
holds after it. -/
theorem replaceUuids_kept {P : List Char → Bool}
    (hP : ∀ s, P s = true → '-' ∉ s ∧ '{' ∉ s) (s : List Char) : P (replaceUuids s) = P s := by
  rw [Bool.eq_iff_iff]
  constructor
  · intro h
    have hmark : replaceUuids s = s ∨ '{' ∈ replaceUuids s :=
      sub_eq_self_or_mem consuming_uuidClasses (fun _ => ⟨['i', 'd', '}'], rfl⟩) s
    rcases hmark with hs | hs
    · rwa [hs] at h
    · exact absurd hs (hP _ h).2
  · intro h
    rwa [replaceUuids_of_not_mem (hP s h).1]

theorem isNumeric_replaceUuids (s : List Char) : isNumeric (replaceUuids s) = isNumeric s := by
  apply replaceUuids_kept
  intro s hs
  constructor
  · intro hmem
    exact absurd ((all_of_isNumeric hs).2 _ hmem) (by decide)
  · intro hmem
    exact absurd ((all_of_isNumeric hs).2 _ hmem) (by decide)

theorem isNumericLine_replaceUuids (s : List Char) :
    isNumericLine (replaceUuids s) = isNumericLine s := by
  apply replaceUuids_kept
  intro s hs
  obtain ⟨hdigits, hsplit⟩ := eq_concat_of_isNumericLine hs
  have hall : ∀ c ∈ s, isDecimal c = true ∨ c = '\n' := by
    intro c hc
    rw [hsplit] at hc
    rcases List.mem_append.mp hc with hc | hc
    · exact .inl ((all_of_isNumeric hdigits).2 c hc)
    · exact .inr (List.mem_singleton.mp hc)
  constructor
  · intro hmem
    exact absurd (hall _ hmem) (by decide)
  · intro hmem
    exact absurd (hall _ hmem) (by decide)

theorem isolated_map {f : List Char → List Char} (hnumeric : ∀ s, isNumeric (f s) = isNumeric s)
    (hline : ∀ s, isNumericLine (f s) = isNumericLine s) (tail : List (List Char)) :
    isolated (tail.map f) = isolated tail := by
  have hfirst : ∀ tail, startsWithId (tail.map f) = startsWithId tail := by
    intro tail
    match tail with
    | [] => rfl
    | [s] => exact congrArg₂ (· || ·) (hnumeric s) (hline s)
    | s :: _ :: _ => exact hnumeric s
  induction tail with
  | nil => rfl
  | cons s tail ih =>
      rw [List.map_cons, isolated_cons, isolated_cons, ih, ← List.map_cons, hfirst, hfirst]

theorem not_mem_replaceUuids {s : List Char} (h : '/' ∉ s) : '/' ∉ replaceUuids s := by
  intro hmem
  rcases mem_sub consuming_uuidClasses hmem with hs | ⟨_, hplaceholder⟩
  · exact h hs
  · exact absurd hplaceholder (by decide)

theorem slashFree_cons {s : List Char} {tail : List (List Char)} (hs : '/' ∉ s)
    (htail : ∀ t ∈ tail, '/' ∉ t) : ∀ t ∈ s :: tail, '/' ∉ t := by
  rw [List.forall_mem_cons]
  exact ⟨hs, htail⟩

theorem not_mem_replaceTail {tail : List (List Char)} (h : ∀ s ∈ tail, '/' ∉ s) :
    ∀ s ∈ replaceTail tail, '/' ∉ s := by
  have hplaceholder : '/' ∉ placeholder := by decide
  induction tail using replaceTail.induct with
  | case1 => exact h
  | case2 s =>
      intro s' hs'
      rw [replaceTail, List.mem_singleton] at hs'
      rw [hs']
      split_ifs
      · exact hplaceholder
      · decide
      · exact h s List.mem_cons_self
  | case3 s t tail hs ih =>
      rw [List.forall_mem_cons, List.forall_mem_cons] at h
      rw [replaceTail, if_pos hs, List.forall_mem_cons, List.forall_mem_cons]
      exact ⟨hplaceholder, h.2.1, ih h.2.2⟩
  | case4 s t tail hs ih =>
      rw [List.forall_mem_cons] at h
      rw [replaceTail, if_neg hs, List.forall_mem_cons]
      exact ⟨h.1, ih h.2⟩

theorem replaceUuids_segments (s : List Char) (tail : List (List Char)) :
    replaceUuids (s ++ tailText tail) = replaceUuids s ++ tailText (tail.map replaceUuids) := by
  induction tail generalizing s with
  | nil => simp [tailText]
  | cons t tail ih =>
      have hsep := uuidClasses_not_accept (c := '/') (by decide) (by decide)
      rw [tailText_cons, replaceUuids, sub_append_sep hsep uuidClasses_ne_nil, ← replaceUuids,
        ← replaceUuids, ih, List.map_cons, tailText_cons]

theorem splitOn_eq {s : List Char} {tail : List (List Char)} (hslash : ∀ t ∈ s :: tail, '/' ∉ t) :
    (s ++ tailText tail).splitOn '/' = s :: tail := by
  induction tail generalizing s with
  | nil =>
      rw [tailText, List.flatMap_nil, List.append_nil]
      exact List.splitOn_eq_singleton (hslash s List.mem_cons_self)
  | cons t tail ih =>
      rw [tailText_cons, List.splitOn_append_cons_self_of_not_mem (hslash s List.mem_cons_self),
        ih fun t' ht' => hslash t' (List.mem_cons_of_mem _ ht')]

theorem exists_segments (path : List Char) : ∃ s tail,
    path = s ++ tailText tail ∧ ∀ t ∈ s :: tail, '/' ∉ t := by
  induction path with
  | nil => exact ⟨[], [], rfl, by simp⟩
  | cons c path ih =>
      obtain ⟨s, tail, rfl, hslash⟩ := ih
      by_cases hc : c = '/'
      · exact ⟨[], s :: tail, by rw [hc]; rfl, slashFree_cons (by simp) hslash⟩
      · rw [List.forall_mem_cons] at hslash
        refine ⟨c :: s, tail, rfl, slashFree_cons ?_ hslash.2⟩
        rw [List.mem_cons, not_or]
        exact ⟨Ne.symm hc, hslash.1⟩

theorem not_isNumeric_of_containsId {tail : List (List Char)} (h : containsId tail = false) :
    ∀ s ∈ tail, isNumeric s = false := by
  induction tail with
  | nil => exact fun s hs => nomatch hs
  | cons s tail ih =>
      rw [containsId, Bool.or_eq_false_iff] at h
      rw [List.forall_mem_cons]
      refine ⟨?_, ih h.2⟩
      cases tail with
      | nil => exact (Bool.or_eq_false_iff.mp h.1).1
      | cons t tail => exact h.1

/-- The result of a path, from its segments. -/
structure Result (path : String) (s : List Char) (tail : List (List Char)) : Prop where
  toList : (normalizePath path).toList =
    replaceUuids s ++ tailText (replaceTail (tail.map replaceUuids))
  slash : ∀ t ∈ replaceUuids s :: replaceTail (tail.map replaceUuids), '/' ∉ t
  segments : segments (normalizePath path) = replaceUuids s :: replaceTail (tail.map replaceUuids)
  occurs : occurs uuidClasses (normalizePath path).toList = false

theorem result {path : String} {s : List Char} {tail : List (List Char)}
    (hpath : path.toList = s ++ tailText tail) (hslash : ∀ t ∈ s :: tail, '/' ∉ t) :
    Result path s tail := by
  obtain ⟨hs, htail⟩ := List.forall_mem_cons.mp hslash
  have hs' := not_mem_replaceUuids hs
  have htail' : ∀ t ∈ tail.map replaceUuids, '/' ∉ t := by
    intro t ht
    obtain ⟨t', ht', rfl⟩ := List.mem_map.mp ht
    exact not_mem_replaceUuids (htail t' ht')
  have htoList : (normalizePath path).toList =
      replaceUuids s ++ tailText (replaceTail (tail.map replaceUuids)) := by
    rw [normalizePath, String.toList_ofList, hpath, replaceUuids_segments,
      replaceNumericIds_segment hs', replaceNumericIds_tailText htail']
  have hslash' := slashFree_cons hs' (not_mem_replaceTail htail')
  refine ⟨htoList, hslash', ?_, ?_⟩
  · rw [segments, htoList]
    exact splitOn_eq hslash'
  · rw [normalizePath, String.toList_ofList]
    exact occurs_replaceNumericIds (occurs_replaceUuids _)

theorem isolated_replaceUuids (tail : List (List Char)) :
    containsId (replaceTail (tail.map replaceUuids)) = !isolated tail := by
  rw [containsId_replaceTail, isolated_map isNumeric_replaceUuids isNumericLine_replaceUuids]

theorem idempotent_iff {path : String} {s : List Char} {tail : List (List Char)}
    (hpath : path.toList = s ++ tailText tail) (hslash : ∀ t ∈ s :: tail, '/' ∉ t) :
    normalizePath (normalizePath path) = normalizePath path ↔ isolated tail = true := by
  have hresult := result hpath hslash
  obtain ⟨hs, htail⟩ := List.forall_mem_cons.mp hresult.slash
  have hagain : (normalizePath (normalizePath path)).toList =
      replaceUuids s ++ tailText (replaceTail (replaceTail (tail.map replaceUuids))) := by
    have huuids : replaceUuids (normalizePath path).toList = (normalizePath path).toList :=
      sub_of_not_occurs hresult.occurs
    rw [normalizePath, String.toList_ofList, huuids, hresult.toList, replaceNumericIds_segment hs,
      replaceNumericIds_tailText htail]
  calc normalizePath (normalizePath path) = normalizePath path
    _ ↔ replaceTail (replaceTail (tail.map replaceUuids)) =
          replaceTail (tail.map replaceUuids) := by
        rw [← String.toList_inj, hagain, hresult.toList]
        constructor
        · intro heq
          have hsplit := congrArg (List.splitOn '/') heq
          have hslash' := slashFree_cons hs (not_mem_replaceTail htail)
          rw [splitOn_eq hslash', splitOn_eq hresult.slash] at hsplit
          exact (List.cons.inj hsplit).2
        · intro heq
          rw [heq]
    _ ↔ isolated tail = true := by
        rw [replaceTail_eq_self, isolated_replaceUuids, Bool.not_eq_false']

/-! ## Main result -/

/-- A first segment that is a number has no `/` before it, and a number right after another
one has lost it. -/
theorem normalized_iff (path : String) :
    ((∀ s ∈ segments (normalizePath path), isNumeric s = false) ∧
      occurs uuidClasses (normalizePath path).toList = false ∧
      normalizePath (normalizePath path) = normalizePath path) ↔
    (∀ s ∈ (segments path).head?, isNumeric s = false) ∧
      isolated (segments path).tail = true := by
  obtain ⟨s, tail, hpath, hslash⟩ := exists_segments path.toList
  have hresult := result hpath hslash
  have hsegments : segments path = s :: tail := by
    rw [segments, hpath]
    exact splitOn_eq hslash
  have hfirst : (∀ t ∈ (segments path).head?, isNumeric t = false) ↔
      isNumeric (replaceUuids s) = false := by
    rw [hsegments, List.head?_cons, isNumeric_replaceUuids]
    exact ⟨fun h => h s rfl, fun h t ht => Option.some.inj ht ▸ h⟩
  rw [idempotent_iff hpath hslash, hresult.segments, hfirst, List.forall_mem_cons, hsegments,
    List.tail_cons]
  constructor
  · rintro ⟨⟨hs, -⟩, -, hisolated⟩
    exact ⟨hs, hisolated⟩
  · rintro ⟨hs, hisolated⟩
    have hnone : containsId (replaceTail (tail.map replaceUuids)) = false := by
      rw [isolated_replaceUuids, hisolated, Bool.not_true]
    exact ⟨⟨hs, not_isNumeric_of_containsId hnone⟩, hresult.occurs, hisolated⟩

/-- Two numbers in a row. -/
theorem adjacent_numbers :
    normalizePath "/1/2" = "/\x7bid\x7d/2" ∧
      normalizePath (normalizePath "/1/2") = "/\x7bid\x7d/\x7bid\x7d" ∧
    ¬ ((∀ s ∈ segments (normalizePath "/1/2"), isNumeric s = false) ∧
      occurs uuidClasses (normalizePath "/1/2").toList = false ∧
      normalizePath (normalizePath "/1/2") = normalizePath "/1/2") := by
  decide +kernel

end BackendProdReady.Observability.PathNormalisation
