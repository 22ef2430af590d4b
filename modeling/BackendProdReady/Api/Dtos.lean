import BackendProdReady.Lib.Text

/-!
# Camel-case aliases

`to_camel` drops the underscores of a field name and puts the components after the first
through `str.title`, which makes a capital of every letter that does not follow a letter.
A letter after a digit becomes one whether an underscore stood before it or not, so an
alias tells the name up to its underscores after digits.
-/

namespace BackendProdReady.Api.Dtos

open BackendProdReady.Lib.Text

/-! ## Field names and aliases -/

def toCamel (string : String) : String :=
  match split '_' string with
  | [] => ""
  | first :: components => first ++ String.join (components.map title)

/-- A small letter, then small letters and digits. -/
def isSegment : List Char → Bool
  | [] => false
  | c :: cs => c.isLower && cs.all fun d => d.isLower || d.isDigit

def SnakeCase (name : String) : Prop :=
  ∀ segment ∈ name.toList.splitOn '_', isSegment segment = true

instance (name : String) : Decidable (SnakeCase name) :=
  inferInstanceAs (Decidable (∀ segment ∈ name.toList.splitOn '_', isSegment segment = true))

structure FieldName where
  text : String
  snakeCase : SnakeCase text

/-- A request or response DTO; no two fields of a class have one name. -/
structure Dto where
  fields : List FieldName
  distinct : (fields.map FieldName.text).Nodup

def Dto.aliases (dto : Dto) : List String := dto.fields.map fun field => toCamel field.text

/-! ## What an alias tells -/

def dropAfterDigit (afterDigit : Bool) : List Char → List Char
  | [] => []
  | c :: cs =>
      if c = '_' then
        if afterDigit then dropAfterDigit false cs else '_' :: dropAfterDigit false cs
      else c :: dropAfterDigit c.isDigit cs

def keptChars (name : List Char) : List Char :=
  name.takeWhile (· ≠ '_') ++
    match name.dropWhile (· ≠ '_') with
    | [] => []
    | underscore :: cs => underscore :: dropAfterDigit false cs

def withoutDigitUnderscores (name : String) : String := String.ofList (keptChars name.toList)

/-! ## The alias, one character at a time -/

/-- What `to_camel` makes of the part of a name that starts at an underscore. -/
def camelFrom (afterLetter : Bool) : List Char → List Char
  | [] => []
  | c :: cs =>
      if c = '_' then camelFrom false cs
      else (if afterLetter then c.toLower else c.toUpper) :: camelFrom c.isAlpha cs

def camelChars (name : List Char) : List Char :=
  name.takeWhile (· ≠ '_') ++ camelFrom false (name.dropWhile (· ≠ '_'))

theorem camelFrom_splitOn (cs : List Char) (afterLetter : Bool) {segment : List Char}
    {rest : List (List Char)} (h : cs.splitOn '_' = segment :: rest) :
    titleFrom afterLetter segment ++ rest.flatMap (titleFrom false) = camelFrom afterLetter cs := by
  induction cs generalizing afterLetter segment rest with
  | nil =>
      rw [List.splitOn_nil] at h
      simp only [List.cons.injEq] at h
      rw [← h.1, ← h.2]
      rfl
  | cons c cs ih =>
      rcases splitOn_cons_cases h with
        ⟨next, others, hsplit, ⟨hc, rfl, rfl⟩ | ⟨hc, rfl, rfl⟩⟩
      · rw [camelFrom, if_pos hc, ← ih false hsplit]
        rfl
      · rw [camelFrom, if_neg hc, ← ih c.isAlpha hsplit]
        rfl

theorem camelChars_splitOn (cs : List Char) {first : List Char} {rest : List (List Char)}
    (h : cs.splitOn '_' = first :: rest) :
    first ++ rest.flatMap (titleFrom false) = camelChars cs := by
  induction cs generalizing first rest with
  | nil =>
      rw [List.splitOn_nil] at h
      simp only [List.cons.injEq] at h
      rw [← h.1, ← h.2]
      rfl
  | cons c cs ih =>
      rcases splitOn_cons_cases h with
        ⟨next, others, hsplit, ⟨hc, rfl, rfl⟩ | ⟨hc, rfl, rfl⟩⟩
      · rw [hc]
        simpa [camelChars, camelFrom] using camelFrom_splitOn cs false hsplit
      · rw [List.cons_append, ih hsplit]
        simp [camelChars, hc]

theorem toList_toCamel (name : String) : (toCamel name).toList = camelChars name.toList := by
  rcases List.exists_cons_of_ne_nil (List.splitOn_ne_nil '_' name.toList) with
    ⟨first, rest, hsplit⟩
  rw [toCamel, split, hsplit, ← camelChars_splitOn _ hsplit]
  simp [title, List.flatMap_map]

/-- An underscore after a digit leaves no trace: the letter after it becomes a capital
with it or without it. -/
theorem camelFrom_dropAfterDigit (cs : List Char) {afterLetter afterDigit : Bool}
    (h : afterDigit = true → afterLetter = false) :
    camelFrom afterLetter (dropAfterDigit afterDigit cs) = camelFrom afterLetter cs := by
  induction cs generalizing afterLetter afterDigit with
  | nil => rfl
  | cons c cs ih =>
      by_cases hc : c = '_'
      · rw [dropAfterDigit, if_pos hc, camelFrom, if_pos hc]
        split_ifs with hdigit
        · rw [h hdigit, ih (by simp)]
        · rw [camelFrom, if_pos rfl, ih (by simp)]
      · rw [dropAfterDigit, if_neg hc, camelFrom, if_neg hc, camelFrom, if_neg hc,
          ih not_isAlpha_of_isDigit]

/-! ## Reading an alias back -/

/-- The part of a name behind its first underscore.  A capital that follows a letter
begins a segment; one that does not may begin one or not. -/
def nameFrom (afterLetter : Bool) : List Char → List Char
  | [] => []
  | c :: cs =>
      if c.isUpper then
        if afterLetter then '_' :: c.toLower :: nameFrom true cs
        else c.toLower :: nameFrom true cs
      else c :: nameFrom c.isAlpha cs

def nameChars (camel : List Char) : List Char :=
  camel.takeWhile (!·.isUpper) ++
    match camel.dropWhile (!·.isUpper) with
    | [] => []
    | capital :: cs => '_' :: nameFrom false (capital :: cs)

/-- Small letters and digits, with underscores between them that a small letter follows. -/
inductive SnakeChars : List Char → Prop
  | nil : SnakeChars []
  | letter {c : Char} {cs : List Char} (hc : c.isLower = true) :
      SnakeChars cs → SnakeChars (c :: cs)
  | digit {c : Char} {cs : List Char} (hc : c.isDigit = true) :
      SnakeChars cs → SnakeChars (c :: cs)
  | underscore {c : Char} {cs : List Char} (hc : c.isLower = true) :
      SnakeChars (c :: cs) → SnakeChars ('_' :: c :: cs)

theorem ne_underscore_of_isLower {c : Char} (h : c.isLower = true) : c ≠ '_' := by
  rintro rfl
  cases h

theorem ne_underscore_of_isDigit {c : Char} (h : c.isDigit = true) : c ≠ '_' := by
  rintro rfl
  cases h

theorem exists_cons_of_splitOn {cs ds : List Char} {d : Char} {others : List (List Char)}
    (h : cs.splitOn '_' = (d :: ds) :: others) : ∃ rest, cs = d :: rest := by
  cases cs with
  | nil => simp at h
  | cons c cs =>
      rcases splitOn_cons_cases h with
        ⟨next, others, -, ⟨-, hempty, -⟩ | ⟨-, hfirst, -⟩⟩
      · cases hempty
      · exact ⟨cs, by rw [(List.cons.inj hfirst).1]⟩

theorem chars_of_isSegment {segment : List Char} (h : isSegment segment = true) :
    ∀ c ∈ segment, c.isLower = true ∨ c.isDigit = true := by
  cases segment with
  | nil => simp
  | cons d ds =>
      simp only [isSegment, Bool.and_eq_true, List.all_eq_true, Bool.or_eq_true] at h
      intro c hc
      rcases List.mem_cons.mp hc with rfl | hc
      · exact .inl h.1
      · exact h.2 c hc

theorem snakeChars_of_splitOn (cs : List Char) {first : List Char} {rest : List (List Char)}
    (h : cs.splitOn '_' = first :: rest)
    (hfirst : ∀ c ∈ first, c.isLower = true ∨ c.isDigit = true)
    (hrest : ∀ segment ∈ rest, isSegment segment = true) : SnakeChars cs := by
  induction cs generalizing first rest with
  | nil => exact .nil
  | cons c cs ih =>
      rcases splitOn_cons_cases h with
        ⟨next, others, hsplit, ⟨hc, rfl, rfl⟩ | ⟨hc, rfl, rfl⟩⟩
      · have hnext := hrest next (by simp)
        have hcs : SnakeChars cs := ih hsplit (chars_of_isSegment hnext)
          (fun segment hmem => hrest segment (by simp [hmem]))
        cases next with
        | nil => cases hnext
        | cons d ds =>
            rcases exists_cons_of_splitOn hsplit with ⟨tail, rfl⟩
            have hd : d.isLower = true := by
              simp only [isSegment, Bool.and_eq_true] at hnext
              exact hnext.1
            rw [hc]
            exact .underscore hd hcs
      · have hcs : SnakeChars cs :=
          ih hsplit (fun c hmem => hfirst c (by simp [hmem])) hrest
        rcases hfirst c (by simp) with hlower | hdigit
        · exact .letter hlower hcs
        · exact .digit hdigit hcs

theorem FieldName.snakeChars (field : FieldName) : SnakeChars field.text.toList := by
  rcases List.exists_cons_of_ne_nil (List.splitOn_ne_nil '_' field.text.toList) with
    ⟨first, rest, hsplit⟩
  have hsegments := field.snakeCase
  unfold SnakeCase at hsegments
  rw [hsplit] at hsegments
  exact snakeChars_of_splitOn _ hsplit (chars_of_isSegment (hsegments first (by simp)))
    (fun segment hmem => hsegments segment (by simp [hmem]))

/-! ### One character of a name -/

section Characters

variable {c : Char} (cs : List Char)

theorem camelFrom_letter (hc : c.isLower = true) (afterLetter : Bool) :
    camelFrom afterLetter (c :: cs) =
      (if afterLetter then c else c.toUpper) :: camelFrom true cs := by
  rw [camelFrom, if_neg (ne_underscore_of_isLower hc), isAlpha_of_isLower hc,
    (case_of_isLower hc).1]

theorem camelFrom_digit (hc : c.isDigit = true) (afterLetter : Bool) :
    camelFrom afterLetter (c :: cs) = c :: camelFrom false cs := by
  rw [camelFrom, if_neg (ne_underscore_of_isDigit hc), not_isAlpha_of_isDigit hc,
    (case_of_isDigit hc).1, (case_of_isDigit hc).2.1, ite_self]

theorem nameFrom_letter (hc : c.isLower = true) (afterLetter : Bool) :
    nameFrom afterLetter (c :: cs) = c :: nameFrom true cs := by
  rw [nameFrom, not_isUpper_of_isLower hc, isAlpha_of_isLower hc]
  rfl

theorem nameFrom_capital (hc : c.isLower = true) (afterLetter : Bool) :
    nameFrom afterLetter (c.toUpper :: cs) =
      if afterLetter then '_' :: c :: nameFrom true cs else c :: nameFrom true cs := by
  rw [nameFrom, (case_of_isLower hc).2.1, (case_of_isLower hc).2.2]
  rfl

theorem nameFrom_digit (hc : c.isDigit = true) (afterLetter : Bool) :
    nameFrom afterLetter (c :: cs) = c :: nameFrom false cs := by
  rw [nameFrom, (case_of_isDigit hc).2.2, not_isAlpha_of_isDigit hc]
  rfl

theorem dropAfterDigit_letter (hc : c.isLower = true) (afterDigit : Bool) :
    dropAfterDigit afterDigit (c :: cs) = c :: dropAfterDigit false cs := by
  rw [dropAfterDigit, if_neg (ne_underscore_of_isLower hc), not_isDigit_of_isLower hc]

theorem dropAfterDigit_digit (hc : c.isDigit = true) (afterDigit : Bool) :
    dropAfterDigit afterDigit (c :: cs) = c :: dropAfterDigit true cs := by
  rw [dropAfterDigit, if_neg (ne_underscore_of_isDigit hc), hc]

end Characters

theorem nameFrom_camelFrom {cs : List Char} (h : SnakeChars cs) (afterLetter : Bool) :
    nameFrom afterLetter (camelFrom afterLetter cs) = dropAfterDigit (!afterLetter) cs := by
  induction h generalizing afterLetter with
  | nil => rfl
  | letter hc hcs ih =>
      rw [camelFrom_letter _ hc, dropAfterDigit_letter _ hc]
      cases afterLetter with
      | true =>
          rw [if_pos rfl, nameFrom_letter _ hc, ih]
          rfl
      | false =>
          rw [if_neg (by simp), nameFrom_capital _ hc, if_neg (by simp), ih]
          rfl
  | digit hc hcs ih =>
      rw [camelFrom_digit _ hc, nameFrom_digit _ hc, dropAfterDigit_digit _ hc, ih]
      rfl
  | underscore hc hcs ih =>
      -- The next letter becomes a capital; whether it begins a segment shows after a letter only.
      have hnext := ih false
      rw [camelFrom_letter _ hc, if_neg (by simp), nameFrom_capital _ hc, if_neg (by simp),
        dropAfterDigit_letter _ hc] at hnext
      rw [camelFrom, if_pos rfl, camelFrom_letter _ hc, if_neg (by simp), nameFrom_capital _ hc,
        dropAfterDigit, if_pos rfl, dropAfterDigit_letter _ hc, hnext]
      cases afterLetter <;> rfl

/-- A character that is no underscore and no capital stands for itself up to the first
capital. -/
theorem nameChars_camelChars_cons {c : Char} (cs : List Char) (hunderscore : c ≠ '_')
    (hcapital : c.isUpper = false) (ih : nameChars (camelChars cs) = keptChars cs) :
    nameChars (camelChars (c :: cs)) = keptChars (c :: cs) := by
  have hcamel : camelChars (c :: cs) = c :: camelChars cs := by simp [camelChars, hunderscore]
  have hname : nameChars (c :: camelChars cs) = c :: nameChars (camelChars cs) := by
    simp [nameChars, hcapital]
  have hkept : keptChars (c :: cs) = c :: keptChars cs := by simp [keptChars, hunderscore]
  rw [hcamel, hname, hkept, ih]

theorem nameChars_camelChars {cs : List Char} (h : SnakeChars cs) :
    nameChars (camelChars cs) = keptChars cs := by
  induction h with
  | nil => rfl
  | letter hc hcs ih =>
      exact nameChars_camelChars_cons _ (ne_underscore_of_isLower hc) (not_isUpper_of_isLower hc) ih
  | digit hc hcs ih =>
      exact nameChars_camelChars_cons _ (ne_underscore_of_isDigit hc) (case_of_isDigit hc).2.2 ih
  | underscore hc hcs ih =>
      rename_i c cs
      have hcamel : camelChars ('_' :: c :: cs) = camelFrom false (c :: cs) := by
        simp [camelChars, camelFrom]
      have hkept : keptChars ('_' :: c :: cs) = '_' :: dropAfterDigit true (c :: cs) := by
        simp [keptChars, dropAfterDigit_letter _ hc]
      have hname := nameFrom_camelFrom hcs false
      rw [hcamel, hkept, ← Bool.not_false, ← hname, camelFrom_letter _ hc, if_neg (by simp)]
      simp [nameChars, (case_of_isLower hc).2.1]

theorem camelChars_keptChars (cs : List Char) : camelChars (keptChars cs) = camelChars cs := by
  induction cs with
  | nil => rfl
  | cons c cs ih =>
      by_cases hc : c = '_'
      · simp [keptChars, camelChars, camelFrom, hc, camelFrom_dropAfterDigit]
      · have hkept : keptChars (c :: cs) = c :: keptChars cs := by simp [keptChars, hc]
        have hcamel : ∀ l, camelChars (c :: l) = c :: camelChars l := by
          intro l
          simp [camelChars, hc]
        rw [hkept, hcamel, hcamel, ih]

/-! ## Collisions -/

/-- Two names have one alias exactly when they are the same name without the underscores
that follow a digit. -/
theorem toCamel_eq_iff (field other : FieldName) :
    toCamel field.text = toCamel other.text ↔
      withoutDigitUnderscores field.text = withoutDigitUnderscores other.text := by
  constructor
  · intro h
    unfold withoutDigitUnderscores
    rw [← nameChars_camelChars field.snakeChars, ← nameChars_camelChars other.snakeChars,
      ← toList_toCamel, ← toList_toCamel, h]
  · intro h
    have hkept : keptChars field.text.toList = keptChars other.text.toList :=
      String.ofList_injective h
    apply String.toList_injective
    rw [toList_toCamel, toList_toCamel, ← camelChars_keptChars, hkept, camelChars_keptChars]

/-- Two names have different aliases, and the fields of a DTO different wire names, exactly
when they stay different without the underscores that follow a digit. -/
theorem aliases_distinct_iff (field other : FieldName) (dto : Dto) :
    (toCamel field.text ≠ toCamel other.text ↔
      withoutDigitUnderscores field.text ≠ withoutDigitUnderscores other.text) ∧
    (dto.aliases.Nodup ↔
      (dto.fields.map fun field => withoutDigitUnderscores field.text).Nodup) := by
  refine ⟨not_congr (toCamel_eq_iff field other), ?_⟩
  unfold Dto.aliases List.Nodup
  rw [List.pairwise_map, List.pairwise_map]
  constructor
  · intro h
    exact h.imp fun hne heq => hne ((toCamel_eq_iff _ _).mpr heq)
  · intro h
    exact h.imp fun hne heq => hne ((toCamel_eq_iff _ _).mp heq)

/-- A DTO whose two fields share a wire name. -/
def addressDto : Dto where
  fields := [⟨"line_a1b", by decide⟩, ⟨"line_a1_b", by decide⟩]
  distinct := by decide

theorem line_a1b_collides :
    toCamel "line_a1b" = "lineA1B" ∧ toCamel "line_a1_b" = "lineA1B" ∧
      "line_a1b" ≠ "line_a1_b" ∧ ¬ addressDto.aliases.Nodup := by
  decide

end BackendProdReady.Api.Dtos
