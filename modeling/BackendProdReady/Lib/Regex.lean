import Mathlib.Data.List.Basic
import Mathlib.Tactic.Common

/-!
# Regular expressions and substitution

A backtracking matcher tries the ways to match in a fixed order and stops at the first one
that lets the whole expression match.  Here an expression is read as the list of all these
ways, in that order; `search` takes its head and `sub` goes through a text as Python's
`re.sub` does, for expressions that never match the empty text.
-/

namespace BackendProdReady.Lib.Regex

/-- `one p` is a character class, `plus p` is the greedy `p+`, `atEnd` is `$` without the
multi-line flag, `group` is the group numbered 1. -/
inductive Pattern
  | empty
  | one (p : Char → Bool)
  | plus (p : Char → Bool)
  | atEnd
  | seq (r q : Pattern)
  | alt (r q : Pattern)
  | group (r : Pattern)

structure Way where
  text : List Char
  group : Option (List Char)
  rest : List Char
deriving DecidableEq

def Way.andThen (w w' : Way) : Way := ⟨w.text ++ w'.text, w'.group.or w.group, w'.rest⟩

def oneWays (p : Char → Bool) : List Char → List Way
  | [] => []
  | c :: s => if p c then [⟨[c], none, s⟩] else []

/-- The longest way comes first. -/
def plusWays (p : Char → Bool) : List Char → List Way
  | [] => []
  | c :: s =>
      if p c then (plusWays p s).map (Way.andThen ⟨[c], none, s⟩) ++ [⟨[c], none, s⟩] else []

def ways : Pattern → List Char → List Way
  | .empty, s => [⟨[], none, s⟩]
  | .one p, s => oneWays p s
  | .plus p, s => plusWays p s
  | .atEnd, s => if s = [] ∨ s = ['\n'] then [⟨[], none, s⟩] else []
  | .seq r q, s => (ways r s).flatMap fun w => (ways q w.rest).map w.andThen
  | .alt r q, s => ways r s ++ ways q s
  | .group r, s => (ways r s).map fun w => { w with group := some w.text }

/-- The match at the start of the text. -/
def search (r : Pattern) (s : List Char) : Option Way := (ways r s).head?

/-- `re.sub`, with `skip` characters of the last match still to be passed over.  The
template is a function of the text of the group. -/
def subFrom (r : Pattern) (template : List Char → List Char) : Nat → List Char → List Char
  | _, [] => []
  | skip + 1, _ :: s => subFrom r template skip s
  | 0, c :: s =>
      match search r (c :: s) with
      | some w => template (w.group.getD []) ++ subFrom r template (w.text.length - 1) s
      | none => c :: subFrom r template 0 s

def sub (r : Pattern) (template : List Char → List Char) (s : List Char) : List Char :=
  subFrom r template 0 s

/-! ## Ways -/

theorem mem_oneWays {p : Char → Bool} {s : List Char} {w : Way} (hw : w ∈ oneWays p s) :
    ∃ c rest, s = c :: rest ∧ p c = true ∧ w = ⟨[c], none, rest⟩ := by
  cases s with
  | nil => cases hw
  | cons c rest =>
      rw [oneWays] at hw
      split_ifs at hw with hc
      · exact ⟨c, rest, rfl, hc, List.mem_singleton.mp hw⟩
      · cases hw

theorem text_append_rest_plus {p : Char → Bool} {s : List Char} {w : Way}
    (hw : w ∈ plusWays p s) : w.text ++ w.rest = s := by
  induction s generalizing w with
  | nil => cases hw
  | cons c s ih =>
      rw [plusWays] at hw
      split_ifs at hw
      · rcases List.mem_append.mp hw with hw | hw
        · obtain ⟨w', hw', rfl⟩ := List.mem_map.mp hw
          exact congrArg (c :: ·) (ih hw')
        · rw [List.mem_singleton.mp hw]
          rfl
      · cases hw

theorem text_append_rest {r : Pattern} : ∀ {s : List Char} {w : Way}, w ∈ ways r s →
    w.text ++ w.rest = s := by
  induction r with
  | empty =>
      intro s w hw
      rw [List.mem_singleton.mp hw]
      rfl
  | one p =>
      intro s w hw
      obtain ⟨c, rest, rfl, -, rfl⟩ := mem_oneWays hw
      rfl
  | plus p => exact text_append_rest_plus
  | atEnd =>
      intro s w hw
      rw [ways] at hw
      split_ifs at hw
      · rw [List.mem_singleton.mp hw]
        rfl
      · cases hw
  | seq r q ihr ihq =>
      intro s w hw
      obtain ⟨w₁, hw₁, hw⟩ := List.mem_flatMap.mp hw
      obtain ⟨w₂, hw₂, rfl⟩ := List.mem_map.mp hw
      rw [Way.andThen, List.append_assoc, ihq hw₂, ihr hw₁]
  | alt r q ihr ihq =>
      intro s w hw
      rcases List.mem_append.mp hw with hw | hw
      · exact ihr hw
      · exact ihq hw
  | group r ih =>
      intro s w hw
      obtain ⟨w', hw', rfl⟩ := List.mem_map.mp hw
      exact ih (w := w') hw'

theorem search_mem {r : Pattern} {s : List Char} {w : Way} (h : search r s = some w) :
    w ∈ ways r s :=
  List.mem_of_mem_head? (Option.mem_def.mpr h)

def Consuming (r : Pattern) : Prop := ∀ s, ∀ w ∈ ways r s, w.text ≠ []

theorem consuming_one_seq (p : Char → Bool) (q : Pattern) : Consuming (.seq (.one p) q) := by
  intro s w hw
  obtain ⟨w₁, hw₁, hw⟩ := List.mem_flatMap.mp hw
  obtain ⟨w₂, -, rfl⟩ := List.mem_map.mp hw
  obtain ⟨c, rest, -, -, rfl⟩ := mem_oneWays hw₁
  exact List.cons_ne_nil _ _

theorem search_one_seq (p : Char → Bool) (q : Pattern) (c : Char) (s : List Char) :
    search (.seq (.one p) q) (c :: s) =
      if p c then (search q s).map (Way.andThen ⟨[c], none, s⟩) else none := by
  rw [search, ways, ways, oneWays]
  split_ifs
  · rw [List.flatMap_singleton, List.head?_map]
    rfl
  · rfl

theorem andThen_assoc (w₁ w₂ w₃ : Way) :
    (w₁.andThen w₂).andThen w₃ = w₁.andThen (w₂.andThen w₃) := by
  simp only [Way.andThen, List.append_assoc, Option.or_assoc]

/-- When `q` cannot start with a character of the class, `p+` takes all of them. -/
theorem search_plus_seq {p : Char → Bool} {q : Pattern}
    (hq : ∀ c s, p c = true → ways q (c :: s) = []) (s : List Char) :
    search (.seq (.plus p) q) s =
      if s.takeWhile p = [] then none
      else (search q (s.dropWhile p)).map
        (Way.andThen ⟨s.takeWhile p, none, s.dropWhile p⟩) := by
  induction s with
  | nil => rfl
  | cons c s ih =>
      by_cases hc : p c = true
      · let w : Way := ⟨[c], none, s⟩
        have hstep : search (.seq (.plus p) q) (c :: s) =
            ((search (.seq (.plus p) q) s).map w.andThen).or ((search q s).map w.andThen) := by
          simp only [search, ways, plusWays, if_pos hc, List.flatMap_append, List.flatMap_map,
            List.flatMap_singleton, List.head?_append, ← List.head?_map, List.map_flatMap,
            List.map_map]
          congr 3
          funext w'
          exact List.map_congr_left fun w'' _ => andThen_assoc w w' w''
        rw [hstep, ih, List.takeWhile_cons_of_pos hc, List.dropWhile_cons_of_pos hc,
          if_neg (List.cons_ne_nil _ _)]
        cases s with
        | nil => rfl
        | cons d s =>
            by_cases hd : p d = true
            · have hnone : search q (d :: s) = none := by rw [search, hq d s hd, List.head?_nil]
              rw [hnone, Option.map_none, Option.or_none, List.takeWhile_cons_of_pos hd,
                if_neg (List.cons_ne_nil _ _), Option.map_map]
              congr 1
              funext w'
              exact (andThen_assoc w _ w').symm
            · rw [List.takeWhile_cons_of_neg hd, List.dropWhile_cons_of_neg hd, if_pos rfl,
                Option.map_none, Option.none_or]
      · rw [search, ways, ways, plusWays, if_neg hc, List.takeWhile_cons_of_neg hc, if_pos rfl]
        rfl

/-! ## Substitution -/

section

variable {r : Pattern} {template : List Char → List Char}

theorem subFrom_eq (skip : Nat) (s : List Char) :
    subFrom r template skip s = sub r template (s.drop skip) := by
  induction skip generalizing s with
  | zero => rfl
  | succ skip ih =>
      cases s with
      | nil => rfl
      | cons c s => exact ih s

@[simp] theorem sub_nil : sub r template [] = [] := rfl

theorem sub_of_none {c : Char} {s : List Char} (h : search r (c :: s) = none) :
    sub r template (c :: s) = c :: sub r template s := by
  rw [sub, subFrom, h]
  rfl

theorem sub_of_some (hr : Consuming r) {s : List Char} {w : Way} (h : search r s = some w) :
    sub r template s = template (w.group.getD []) ++ sub r template w.rest := by
  have hsplit := text_append_rest (search_mem h)
  obtain ⟨d, text, htext⟩ := List.exists_cons_of_ne_nil (hr s w (search_mem h))
  rw [htext, List.cons_append] at hsplit
  rw [← hsplit] at h ⊢
  rw [sub, subFrom, h]
  dsimp only
  rw [subFrom_eq, htext, List.length_cons, Nat.add_sub_cancel, List.drop_left]

/-- Induction along the scan of `re.sub`. -/
theorem scanInduction (hr : Consuming r) {motive : List Char → Prop} (nil : motive [])
    (replaced : ∀ s w, search r s = some w → motive w.rest → motive s)
    (copied : ∀ c s, search r (c :: s) = none → motive s → motive (c :: s)) :
    ∀ s, motive s := by
  suffices h : ∀ n s, s.length ≤ n → motive s from
    fun s => h s.length s (Nat.le_refl _)
  intro n
  induction n with
  | zero =>
      intro s hs
      rw [List.length_eq_zero_iff.mp (Nat.le_zero.mp hs)]
      exact nil
  | succ n ih =>
      intro s hs
      cases hsearch : search r s with
      | some w =>
          have hpos := List.length_pos_of_ne_nil (hr s w (search_mem hsearch))
          have hlen := congrArg List.length (text_append_rest (search_mem hsearch))
          rw [List.length_append] at hlen
          exact replaced s w hsearch (ih w.rest (by omega))
      | none =>
          cases s with
          | nil => exact nil
          | cons c s => exact copied c s hsearch (ih s (Nat.le_of_succ_le_succ hs))

/-- What cannot start a match is copied. -/
theorem sub_append_of_copied {u : List Char} (hu : ∀ c ∈ u, ∀ s, search r (c :: s) = none)
    (s : List Char) : sub r template (u ++ s) = u ++ sub r template s := by
  induction u with
  | nil => rfl
  | cons c u ih =>
      obtain ⟨hc, hu⟩ := List.forall_mem_cons.mp hu
      rw [List.cons_append, sub_of_none (hc _), ih hu, List.cons_append]

theorem mem_sub (hr : Consuming r) {c : Char} {s : List Char} (h : c ∈ sub r template s) :
    c ∈ s ∨ ∃ group, c ∈ template group := by
  induction s using scanInduction hr with
  | nil => cases h
  | replaced s w hw ih =>
      rw [sub_of_some hr hw] at h
      rcases List.mem_append.mp h with h | h
      · exact .inr ⟨_, h⟩
      · rw [← text_append_rest (search_mem hw)]
        exact (ih h).imp_left (List.mem_append_right _)
  | copied d s hd ih =>
      rw [sub_of_none hd] at h
      rcases List.mem_cons.mp h with rfl | h
      · exact .inl List.mem_cons_self
      · exact (ih h).imp_left (List.mem_cons_of_mem _)

/-- A text that changes shows the character with which every replacement starts. -/
theorem sub_eq_self_or_mem (hr : Consuming r) {mark : Char}
    (htemplate : ∀ group, ∃ l, template group = mark :: l) (s : List Char) :
    sub r template s = s ∨ mark ∈ sub r template s := by
  induction s using scanInduction hr with
  | nil => exact .inl rfl
  | replaced s w hw ih =>
      obtain ⟨l, hl⟩ := htemplate (w.group.getD [])
      rw [sub_of_some hr hw, hl]
      exact .inr List.mem_cons_self
  | copied c s hc ih =>
      rw [sub_of_none hc]
      exact ih.imp (congrArg _) (List.mem_cons_of_mem _)

end

/-! ## Sequences of character classes -/

def classes : List (Char → Bool) → Pattern
  | [] => .empty
  | p :: ps => .seq (.one p) (classes ps)

def startsWith : List (Char → Bool) → List Char → Bool
  | [], _ => true
  | _ :: _, [] => false
  | p :: ps, c :: s => p c && startsWith ps s

/-- Some part of the text matches the classes. -/
def occurs (ps : List (Char → Bool)) : List Char → Bool
  | [] => startsWith ps []
  | c :: s => startsWith ps (c :: s) || occurs ps s

theorem search_classes (ps : List (Char → Bool)) (s : List Char) :
    search (classes ps) s =
      if startsWith ps s then some ⟨s.take ps.length, none, s.drop ps.length⟩ else none := by
  induction ps generalizing s with
  | nil => rfl
  | cons p ps ih =>
      cases s with
      | nil => rfl
      | cons c s =>
          rw [classes, search_one_seq, ih, startsWith]
          cases p c with
          | false => rfl
          | true =>
              rw [if_pos rfl, Bool.true_and]
              split_ifs <;> rfl

theorem search_classes_eq_none {ps : List (Char → Bool)} {s : List Char} :
    search (classes ps) s = none ↔ startsWith ps s = false := by
  rw [search_classes]
  cases startsWith ps s with
  | false => exact ⟨fun _ => rfl, fun _ => rfl⟩
  | true => simp

theorem length_le_of_startsWith {ps : List (Char → Bool)} {s : List Char}
    (h : startsWith ps s = true) : ps.length ≤ s.length := by
  induction ps generalizing s with
  | nil => exact Nat.zero_le _
  | cons p ps ih =>
      cases s with
      | nil => cases h
      | cons c s => exact Nat.succ_le_succ (ih (Bool.and_eq_true_iff.mp h).2)

theorem startsWith_nil {ps : List (Char → Bool)} (hne : ps ≠ []) : startsWith ps [] = false := by
  cases ps with
  | nil => exact absurd rfl hne
  | cons p ps => rfl

theorem consuming_classes {ps : List (Char → Bool)} (hne : ps ≠ []) : Consuming (classes ps) := by
  cases ps with
  | nil => exact absurd rfl hne
  | cons p ps => exact consuming_one_seq p (classes ps)

theorem occurs_of_suffix {ps : List (Char → Bool)} {u s : List Char} (hu : u <:+ s)
    (h : startsWith ps u = true) : occurs ps s = true := by
  induction s with
  | nil =>
      rw [List.suffix_nil.mp hu] at h
      exact h
  | cons c s ih =>
      rw [occurs]
      rcases List.suffix_cons_iff.mp hu with rfl | hu
      · rw [h, Bool.true_or]
      · rw [ih hu, Bool.or_true]

theorem mem_of_startsWith {c : Char} {ps qs : List (Char → Bool)} {s : List Char}
    (h : startsWith (ps ++ (· == c) :: qs) s = true) : c ∈ s := by
  induction ps generalizing s with
  | nil =>
      cases s with
      | nil => cases h
      | cons d s =>
          rw [List.nil_append, startsWith, Bool.and_eq_true, beq_iff_eq] at h
          rw [h.1]
          exact List.mem_cons_self
  | cons p ps ih =>
      cases s with
      | nil => cases h
      | cons d s => exact List.mem_cons_of_mem _ (ih (Bool.and_eq_true_iff.mp h).2)

theorem not_occurs_of_not_mem {c : Char} {ps qs : List (Char → Bool)} {s : List Char}
    (h : c ∉ s) : occurs (ps ++ (· == c) :: qs) s = false := by
  have hstart : ∀ u, c ∉ u → startsWith (ps ++ (· == c) :: qs) u = false :=
    fun u hu => Bool.eq_false_iff.mpr fun hstart => hu (mem_of_startsWith hstart)
  induction s with
  | nil => exact hstart [] h
  | cons d s ih => rw [occurs, hstart _ h, ih (List.not_mem_of_not_mem_cons h), Bool.or_self]

theorem sub_of_not_occurs {ps : List (Char → Bool)} {template : List Char → List Char}
    {s : List Char} (h : occurs ps s = false) : sub (classes ps) template s = s := by
  induction s with
  | nil => rfl
  | cons c s ih =>
      obtain ⟨hstart, hs⟩ := Bool.or_eq_false_iff.mp h
      rw [sub_of_none (search_classes_eq_none.mpr hstart), ih hs]

/-! ### A separator that no class accepts -/

section

variable {ps : List (Char → Bool)} {sep : Char} (hsep : ∀ p ∈ ps, p sep = false)
include hsep

theorem startsWith_append_sep (a b : List Char) :
    startsWith ps (a ++ sep :: b) = startsWith ps a := by
  induction ps generalizing a with
  | nil => rfl
  | cons p ps ih =>
      obtain ⟨hp, hps⟩ := List.forall_mem_cons.mp hsep
      cases a with
      | nil =>
          show (p sep && startsWith ps b) = false
          rw [hp, Bool.false_and]
      | cons c a => rw [List.cons_append, startsWith, startsWith, ih hps]

theorem sub_append_sep (hne : ps ≠ []) (template : List Char → List Char) (a b : List Char) :
    sub (classes ps) template (a ++ sep :: b) =
      sub (classes ps) template a ++ sep :: sub (classes ps) template b := by
  have hr := consuming_classes hne
  induction a using scanInduction hr with
  | nil =>
      apply sub_of_none
      rw [search_classes_eq_none, ← List.nil_append (sep :: b), startsWith_append_sep hsep]
      exact startsWith_nil hne
  | replaced a w hw ih =>
      have hstart : startsWith ps a = true := by
        by_contra hstart
        rw [search_classes, if_neg hstart] at hw
        cases hw
      rw [search_classes, if_pos hstart, Option.some.injEq] at hw
      have hmatch : search (classes ps) (a ++ sep :: b) =
          some ⟨w.text, w.group, w.rest ++ sep :: b⟩ := by
        have hlen := length_le_of_startsWith hstart
        rw [search_classes, startsWith_append_sep hsep, if_pos hstart, ← hw,
          List.take_append_of_le_length hlen, List.drop_append_of_le_length hlen]
      have hmatch' : search (classes ps) a = some w := by rw [search_classes, if_pos hstart, hw]
      rw [sub_of_some hr hmatch, sub_of_some hr hmatch', ih, List.append_assoc]
  | copied c a hc ih =>
      have hc' : search (classes ps) (c :: (a ++ sep :: b)) = none := by
        rw [search_classes_eq_none] at hc ⊢
        rw [← List.cons_append, startsWith_append_sep hsep, hc]
      rw [List.cons_append, sub_of_none hc', sub_of_none hc, ih, List.cons_append]

end

/-! ### Occurrences after a substitution -/

section

variable {ps : List (Char → Bool)} {r : Pattern} {template : List Char → List Char}

/-- A match at the start of the result was there before, when every replacement starts with a
character that no class accepts. -/
theorem startsWith_of_sub (hr : Consuming r) {mark : Char} (hmark : ∀ p ∈ ps, p mark = false)
    (htemplate : ∀ group, ∃ l, template group = mark :: l)
    {s : List Char} (h : startsWith ps (sub r template s) = true) : startsWith ps s = true := by
  induction ps generalizing s with
  | nil => rfl
  | cons p ps ih =>
      obtain ⟨hp, hps⟩ := List.forall_mem_cons.mp hmark
      cases hsearch : search r s with
      | some w =>
          obtain ⟨l, hl⟩ := htemplate (w.group.getD [])
          rw [sub_of_some hr hsearch, hl, List.cons_append, startsWith, hp, Bool.false_and] at h
          cases h
      | none =>
          cases s with
          | nil => exact h
          | cons c s =>
              rw [sub_of_none hsearch, startsWith, Bool.and_eq_true] at h
              rw [startsWith, h.1, ih hps h.2, Bool.and_self]

theorem occurs_sub (hr : Consuming r) (hne : ps ≠ []) {mark : Char}
    (hmark : ∀ p ∈ ps, p mark = false)
    (htemplate : ∀ group, ∃ l, template group = mark :: l)
    (hreplaced : ∀ s w, search r s = some w →
      ∀ t, occurs ps (template (w.group.getD []) ++ t) = occurs ps t)
    {s : List Char}
    (hcopied : ∀ c u, (c :: u) <:+ s → search r (c :: u) = none → startsWith ps (c :: u) = false) :
    occurs ps (sub r template s) = false := by
  induction s using scanInduction hr with
  | nil => exact startsWith_nil hne
  | replaced s w hw ih =>
      rw [sub_of_some hr hw, hreplaced s w hw]
      apply ih
      intro c u hu
      apply hcopied c u
      exact hu.trans ⟨w.text, text_append_rest (search_mem hw)⟩
  | copied c s hc ih =>
      rw [sub_of_none hc, occurs, Bool.or_eq_false_iff]
      constructor
      · rw [← sub_of_none hc, Bool.eq_false_iff]
        intro hstart
        have hstart := startsWith_of_sub hr hmark htemplate hstart
        rw [hcopied c s (List.suffix_refl _) hc] at hstart
        cases hstart
      · apply ih
        intro d u hu
        exact hcopied d u (hu.trans (List.suffix_cons c s))

end

end BackendProdReady.Lib.Regex
