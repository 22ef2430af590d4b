import BackendProdReady.Lib.NestedValues
import BackendProdReady.Lib.Text

/-!
# Query parameters in the error log

`_sanitize_params` replaces what must not reach the log before the parameters of
a failed statement are written.  A dict is redacted by key, at its top level; of
a list or a tuple only items that look like a token are redacted.
-/

namespace BackendProdReady.Database.ParamSanitizing

open Lib.NestedValues (Value)
open Lib.NestedValues.Value

def sensitiveFieldPatterns : List String :=
  ["password", "passwd", "pwd", "secret", "token", "api_key", "apikey", "api-key",
    "access_token", "refresh_token", "auth", "authorization", "credential", "private_key",
    "privatekey", "credit_card", "creditcard", "card_number", "cvv", "ssn",
    "social_security"]

inductive Scalar (ω : Type) where
  | none
  | str (s : String)
  | other (o : ω)

/-- `dict[str, Any] | tuple[Any, ...] | list[Any] | None`. -/
inductive Params (κ ω : Type) where
  | none
  | dict (items : List (κ × Value κ (Scalar ω)))
  | list (items : List (Value κ (Scalar ω)))
  | tuple (items : List (Value κ (Scalar ω)))

/-- The texts Python gives keys and objects, and the alphabet of `str.isalnum`,
in which no opening bracket is. -/
structure Texts (κ ω : Type) where
  strKey : κ → String
  reprKey : κ → String
  strOther : ω → String
  reprOther : ω → String
  reprStr : String → String
  lower : String → String
  isAlnumChar : Char → Bool
  isAlnumChar_brackets : ∀ c ∈ ['(', '[', '\x7b'], isAlnumChar c = false

section
variable {κ ω : Type} (t : Texts κ ω)

def redactedValue : Value κ (Scalar ω) := .object (.str "[REDACTED]")

def reprScalar : Scalar ω → String
  | .none => "None"
  | .str s => t.reprStr s
  | .other o => t.reprOther o

def strValue : Value κ (Scalar ω) → String
  | .object .none => "None"
  | .object (.str s) => s
  | .object (.other o) => t.strOther o
  | v => reprText t.reprKey (reprScalar t) v

def isalnum (s : String) : Bool :=
  !s.toList.isEmpty && s.toList.all t.isAlnumChar

/-- `any(pattern in str(key).lower() for pattern in SENSITIVE_FIELD_PATTERNS)`. -/
def sensitiveKey (key : κ) : Bool :=
  sensitiveFieldPatterns.any (Lib.Text.contains (t.lower (t.strKey key)))

/-- An item of a dict; `sanitized[key]` is set once for each key, in order. -/
def sanitizeItem (e : κ × Value κ (Scalar ω)) : κ × Value κ (Scalar ω) :=
  (e.1, if sensitiveKey t e.1 then redactedValue else e.2)

/-- A value of a list or a tuple. -/
def sanitizePositional (value : Value κ (Scalar ω)) : Value κ (Scalar ω) :=
  let text := match value with
    | .object .none => ""
    | v => strValue t v
  if 32 < text.length && isalnum t text then redactedValue else value

def sanitizeParams : Params κ ω → String
  | .none => ""
  | .dict items => reprText t.reprKey (reprScalar t) (.dict (items.map (sanitizeItem t)))
  | .list items => reprText t.reprKey (reprScalar t) (.list (items.map (sanitizePositional t)))
  | .tuple items => reprText t.reprKey (reprScalar t) (.tuple (items.map (sanitizePositional t)))

/-! ## Structures that differ only under sensitive keys -/

/-- `p` with each value under a sensitive key, at any depth, passed through `f`. -/
def Params.replaceSensitive (f : Value κ (Scalar ω) → Value κ (Scalar ω)) :
    Params κ ω → Params κ ω
  | .none => .none
  | .dict items => .dict (replaceItems (sensitiveKey t) f items)
  | .list items => .list (replaceAll (sensitiveKey t) f items)
  | .tuple items => .tuple (replaceAll (sensitiveKey t) f items)

/-- The two become identical once every value under a sensitive key, at any depth,
is redacted. -/
def SameButSensitive (p q : Params κ ω) : Prop :=
  p.replaceSensitive t (fun _ => redactedValue) = q.replaceSensitive t fun _ => redactedValue

/-- A sensitive key below the top level: inside a value the sanitizer writes as it
stands. -/
def nestedSensitive : Params κ ω → Bool
  | .none => false
  | .dict items => items.any fun e => !sensitiveKey t e.1 && hasSelected (sensitiveKey t) e.2
  | .list items => items.any (hasSelected (sensitiveKey t))
  | .tuple items => items.any (hasSelected (sensitiveKey t))

variable {t}

theorem nestedSensitive_replaceSensitive (f : Value κ (Scalar ω) → Value κ (Scalar ω))
    (p : Params κ ω) : nestedSensitive t (p.replaceSensitive t f) = nestedSensitive t p := by
  cases p with
  | none => rfl
  | dict items =>
      simp only [Params.replaceSensitive, nestedSensitive, replaceItems_eq, List.any_map]
      rw [Bool.eq_iff_iff, List.any_eq_true, List.any_eq_true]
      refine exists_congr fun e => and_congr_right fun _ => ?_
      cases hk : sensitiveKey t e.1 with
      | true => simp [hk]
      | false => simp [hk]
  | list items | tuple items =>
      simp only [Params.replaceSensitive, nestedSensitive, replaceAll_eq, List.any_map]
      rw [Bool.eq_iff_iff, List.any_eq_true, List.any_eq_true]
      exact exists_congr fun v => and_congr_right fun _ => by
        rw [Function.comp, hasSelected_replaceUnder]

/-- With no sensitive key below the top level the text is that of the structure
redacted at every depth. -/
theorem sanitizeParams_of_not_nested {p : Params κ ω} (h : nestedSensitive t p = false) :
    sanitizeParams t p = sanitizeParams t (p.replaceSensitive t fun _ => redactedValue) := by
  cases p with
  | none => rfl
  | dict items =>
      simp only [nestedSensitive, List.any_eq_false, Bool.and_eq_true, not_and,
        Bool.not_eq_true, Bool.not_eq_eq_eq_not, Bool.not_true] at h
      simp only [sanitizeParams, Params.replaceSensitive, replaceItems_eq, List.map_map]
      refine congrArg (fun l => reprText _ _ (.dict l)) (List.map_congr_left fun e he => ?_)
      cases hk : sensitiveKey t e.1 with
      | true => simp [sanitizeItem, hk]
      | false =>
          simp [sanitizeItem, hk, replaceUnder_of_not_hasSelected _ (h e he hk)]
  | list items | tuple items =>
      simp only [nestedSensitive, List.any_eq_false, Bool.not_eq_true] at h
      have hsame : replaceAll (sensitiveKey t) (fun _ => redactedValue) items = items := by
        rw [replaceAll_eq]
        exact (List.map_congr_left fun v hv =>
          replaceUnder_of_not_hasSelected _ (h v hv)).trans (List.map_id items)
      simp only [sanitizeParams, Params.replaceSensitive, hsame]

theorem isalnum_of_bracket {c : Char} (hc : c ∈ ['(', '[', '\x7b']) {bracket : String}
    (hbracket : bracket.toList = [c]) (body close : String) :
    isalnum t (bracket ++ body ++ close) = false := by
  simp [isalnum, hbracket, t.isAlnumChar_brackets c hc]

/-- A container among the positional values is written as it stands. -/
theorem sanitizePositional_of_not_object {v : Value κ (Scalar ω)}
    (h : ∀ a, v ≠ .object a) : sanitizePositional t v = v := by
  have hnot : isalnum t (strValue t v) = false := by
    cases v with
    | object a => exact absurd rfl (h a)
    | dict items =>
        exact isalnum_of_bracket (c := '\x7b') (by simp) (by decide) _ _
    | list items => exact isalnum_of_bracket (c := '[') (by simp) (by decide) _ _
    | tuple items => exact isalnum_of_bracket (c := '(') (by simp) (by decide) _ _
  cases v with
  | object a => exact absurd rfl (h a)
  | dict items | list items | tuple items =>
      unfold sanitizePositional
      dsimp only
      rw [hnot, Bool.and_false, if_neg Bool.false_ne_true]

theorem sanitizePositional_object (a : Scalar ω) :
    ∃ b, sanitizePositional t (.object a : Value κ (Scalar ω)) = .object b := by
  unfold sanitizePositional
  dsimp only
  split_ifs with hlong
  · exact ⟨_, rfl⟩
  · exact ⟨a, rfl⟩

theorem sanitizePositional_replaceUnder (f : Value κ (Scalar ω) → Value κ (Scalar ω))
    (v : Value κ (Scalar ω)) :
    sanitizePositional t (replaceUnder (sensitiveKey t) f v) =
      replaceUnder (sensitiveKey t) f (sanitizePositional t v) := by
  cases v with
  | object a =>
      obtain ⟨b, hb⟩ := sanitizePositional_object (t := t) a
      rw [replaceUnder_object, hb, replaceUnder_object]
  | dict items | list items | tuple items =>
      rw [sanitizePositional_of_not_object (by simp),
        sanitizePositional_of_not_object (by simp)]

@[simp] theorem hasSelected_sanitizePositional (v : Value κ (Scalar ω)) :
    hasSelected (sensitiveKey t) (sanitizePositional t v) =
      hasSelected (sensitiveKey t) v := by
  cases v with
  | object a =>
      obtain ⟨b, hb⟩ := sanitizePositional_object (t := t) a
      rw [hb]
      rfl
  | dict items | list items | tuple items =>
      rw [sanitizePositional_of_not_object (by simp)]

theorem sameButSensitive_replaceSensitive (f : Value κ (Scalar ω) → Value κ (Scalar ω))
    (p : Params κ ω) : SameButSensitive t p (p.replaceSensitive t f) := by
  cases p with
  | none => rfl
  | dict items =>
      exact congrArg Params.dict (Value.dict.inj
        (replaceUnder_const_replaceUnder redactedValue f (.dict items))).symm
  | list items =>
      exact congrArg Params.list (Value.list.inj
        (replaceUnder_const_replaceUnder redactedValue f (.list items))).symm
  | tuple items =>
      exact congrArg Params.tuple (Value.tuple.inj
        (replaceUnder_const_replaceUnder redactedValue f (.tuple items))).symm

/-- Below the top level a sensitive value is written out: a longer one makes a
longer text. -/
theorem sanitizeParams_of_nested {p : Params κ ω} (h : nestedSensitive t p = true) :
    (sanitizeParams t p).length <
      (sanitizeParams t (p.replaceSensitive t fun v => .list [v])).length := by
  have hpositional : ∀ items : List (Value κ (Scalar ω)),
      items.any (hasSelected (sensitiveKey t)) = true →
      (replaceAll (sensitiveKey t) (fun v => .list [v]) items).map (sanitizePositional t) =
          replaceAll (sensitiveKey t) (fun v => .list [v]) (items.map (sanitizePositional t)) ∧
        hasSelectedIn (sensitiveKey t) (items.map (sanitizePositional t)) = true := by
    intro items hany
    refine ⟨?_, ?_⟩
    · simp [replaceAll_eq, Function.comp_def, sanitizePositional_replaceUnder]
    · simpa [hasSelectedIn_eq, Function.comp_def] using hany
  cases p with
  | none => simp [nestedSensitive] at h
  | dict items =>
      obtain ⟨e, he, hnested⟩ := List.any_eq_true.mp h
      simp only [Bool.and_eq_true, Bool.not_eq_true'] at hnested
      simp only [sanitizeParams, Params.replaceSensitive, reprText, reprItems_eq,
        replaceItems_eq, List.map_map, String.length_append, Nat.add_lt_add_iff_right,
        Nat.add_lt_add_iff_left]
      refine length_intercalate_map_lt _ (fun e' _ => ?_) ⟨e, he, ?_⟩
      · cases hk : sensitiveKey t e'.1 with
        | true => simp [sanitizeItem, hk]
        | false =>
            simpa [sanitizeItem, hk] using
              (length_reprText_replaceUnder length_reprText_lt_list e'.2).1
      · simpa [sanitizeItem, hnested.1] using
          (length_reprText_replaceUnder length_reprText_lt_list e.2).2 hnested.2
  | list items =>
      obtain ⟨hitems, hsel⟩ := hpositional items h
      simp only [sanitizeParams, Params.replaceSensitive, hitems]
      exact (length_reprText_replaceUnder length_reprText_lt_list (.list _)).2 hsel
  | tuple items =>
      obtain ⟨hitems, hsel⟩ := hpositional items h
      simp only [sanitizeParams, Params.replaceSensitive, hitems]
      exact (length_reprText_replaceUnder length_reprText_lt_list (.tuple _)).2 hsel

/-! ## Main result -/

/-- The text of `p` shows nothing of the values under sensitive keys exactly when
no such key is below the top level. -/
theorem same_text_iff (t : Texts κ ω) (p : Params κ ω) :
    (∀ q, SameButSensitive t p q → sanitizeParams t p = sanitizeParams t q) ↔
      nestedSensitive t p = false := by
  constructor
  · intro hsame
    by_contra hnested
    rw [Bool.not_eq_false] at hnested
    have heq := hsame _ (sameButSensitive_replaceSensitive (fun v => .list [v]) p)
    exact absurd (congrArg String.length heq) (sanitizeParams_of_nested hnested).ne
  · intro hp q hpq
    have hq : nestedSensitive t q = false := by
      rw [← nestedSensitive_replaceSensitive (fun _ => redactedValue) q, ← hpq,
        nestedSensitive_replaceSensitive, hp]
    rw [sanitizeParams_of_not_nested hp, sanitizeParams_of_not_nested hq, hpq]

end

/-! ## A bulk statement -/

/-- String keys and values in ASCII, quoted without escapes. -/
def asciiTexts : Texts String Nat where
  strKey k := k
  reprKey k := "'" ++ k ++ "'"
  strOther n := toString n
  reprOther n := toString n
  reprStr s := "'" ++ s ++ "'"
  lower s := String.ofList (s.toList.map Char.toLower)
  isAlnumChar := Char.isAlphanum
  isAlnumChar_brackets := by
    intro c hc
    simp only [List.mem_cons, List.not_mem_nil, or_false] at hc
    rcases hc with rfl | rfl | rfl <;> rfl

/-- The parameters of an `executemany` that changes one password. -/
def passwordRows (password : String) : Params String Nat :=
  .list [.dict [("password", .object (.str password))]]

/-- Two bulk statements that differ in a password have different texts, and the
password is part of them. -/
theorem password_in_text :
    SameButSensitive asciiTexts (passwordRows "hunter2") (passwordRows "swordfish") ∧
      sanitizeParams asciiTexts (passwordRows "hunter2") =
        "[\x7b'password': 'hunter2'\x7d]" ∧
      sanitizeParams asciiTexts (passwordRows "hunter2") ≠
        sanitizeParams asciiTexts (passwordRows "swordfish") := by
  have hpassword : sensitiveKey asciiTexts "password" = true := by decide
  have hredacted (password : String) :
      (passwordRows password).replaceSensitive asciiTexts (fun _ => redactedValue) =
        .list [.dict [("password", redactedValue)]] := by
    rw [passwordRows, Params.replaceSensitive, replaceAll, replaceAll, replaceUnder_dict,
      replaceItems, replaceItems, if_pos hpassword]
  exact ⟨(hredacted _).trans (hredacted _).symm, by decide, by decide⟩

end BackendProdReady.Database.ParamSanitizing
