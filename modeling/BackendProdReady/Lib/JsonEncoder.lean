import Mathlib.Tactic.Common

/-!
# Encoding Python values as JSON

`json.dumps(…, ensure_ascii=False, allow_nan=False)` followed by `encode("utf-8")`, as a
partial function from values to JSON trees; `none` is any exception.  What the encoder cannot
write is a leaf it does not know, a float that is not finite, an integer of more digits than
Python prints, a key that is no scalar, a text with a lone surrogate, and nesting that uses up
the recursion limit.
-/

namespace BackendProdReady.Lib.JsonEncoder

/-! ## Texts -/

/-- A code point of a Python `str`. -/
inductive CodePoint
  | char (c : Char)
  | surrogate (n : Fin 2048)
deriving DecidableEq

abbrev PyStr := List CodePoint

def pyStr (s : String) : PyStr := s.toList.map .char

/-- The text as UTF-8 has it. -/
def utf8 : PyStr → Option (List Char)
  | [] => some []
  | .char c :: s => (utf8 s).map (c :: ·)
  | .surrogate _ :: _ => none

theorem utf8_pyStr (s : String) : utf8 (pyStr s) = some s.toList := by
  unfold pyStr
  induction s.toList with
  | nil => rfl
  | cons c s ih => rw [List.map_cons, utf8, ih, Option.map_some]

theorem isSome_utf8_append (s t : PyStr) :
    (utf8 (s ++ t)).isSome = ((utf8 s).isSome && (utf8 t).isSome) := by
  induction s with
  | nil => rfl
  | cons c s ih =>
      cases c with
      | char c => rw [List.cons_append, utf8, utf8, Option.isSome_map, Option.isSome_map, ih]
      | surrogate n => rfl

/-! ## Values -/

/-- `F` is the type of floats, `O` that of the objects that are no JSON: dates, decimals, sets,
containers that contain themselves. -/
inductive Value (F O : Type)
  | none
  | bool (b : Bool)
  | int (n : Int)
  | float (f : F)
  | str (s : PyStr)
  /-- A list or a tuple. -/
  | list (items : List (Value F O))
  | dict (items : List (Value F O × Value F O))
  | other (o : O)

inductive Json (F : Type)
  | null
  | bool (b : Bool)
  | int (n : Int)
  | float (f : F)
  | string (s : List Char)
  | array (items : List (Json F))
  | object (fields : List (List Char × Json F))

/-- The floats: which are finite, and what `float.__repr__` prints. -/
structure Floats (F : Type) where
  isFinite : F → Bool
  text : F → String

/-- `sys.get_int_max_str_digits()` -/
def maxDigits : Nat := 4300

def printable (n : Int) : Bool := n.natAbs < Nat.pow 10 maxDigits

section

variable {F O : Type} (floats : Floats F)

def encodeKey : Value F O → Option (List Char)
  | .str s => utf8 s
  | .bool b => some (if b then "true" else "false").toList
  | .none => some "null".toList
  | .int n => if printable n then some (toString n).toList else none
  | .float f => if floats.isFinite f then some (floats.text f).toList else none
  | .list _ | .dict _ | .other _ => none

mutual
/-- `nesting` is how many containers may still be opened inside one another. -/
def encode : Value F O → Nat → Option (Json F)
  | .none, _ => some .null
  | .bool b, _ => some (.bool b)
  | .int n, _ => if printable n then some (.int n) else none
  | .float f, _ => if floats.isFinite f then some (.float f) else none
  | .str s, _ => (utf8 s).map .string
  | .list _, 0 => none
  | .list items, nesting + 1 => (encodeAll items nesting).map .array
  | .dict _, 0 => none
  | .dict items, nesting + 1 => (encodeItems items nesting).map .object
  | .other _, _ => none

def encodeAll : List (Value F O) → Nat → Option (List (Json F))
  | [], _ => some []
  | v :: items, nesting =>
      match encode v nesting with
      | none => none
      | some j => (encodeAll items nesting).map (j :: ·)

def encodeItems : List (Value F O × Value F O) → Nat → Option (List (List Char × Json F))
  | [], _ => some []
  | (k, v) :: items, nesting =>
      match encodeKey floats k with
      | none => none
      | some key =>
          match encode v nesting with
          | none => none
          | some j => (encodeItems items nesting).map ((key, j) :: ·)
end

theorem encodeItems_cons (k v : Value F O) (items : List (Value F O × Value F O)) (nesting : Nat) :
    encodeItems floats ((k, v) :: items) nesting =
      (encodeKey floats k).bind fun key => (encode floats v nesting).bind fun j =>
        (encodeItems floats items nesting).map ((key, j) :: ·) := by
  rw [encodeItems]
  cases encodeKey floats k with
  | none => rfl
  | some key =>
      cases encode floats v nesting with
      | none => rfl
      | some j => rfl

theorem encodeItems_isSome {items : List (Value F O × Value F O)} {nesting : Nat} :
    (encodeItems floats items nesting).isSome = true ↔
      ∀ item ∈ items, (encodeKey floats item.1).isSome = true ∧
        (encode floats item.2 nesting).isSome = true := by
  induction items with
  | nil => simp [encodeItems]
  | cons item items ih =>
      obtain ⟨k, v⟩ := item
      rw [encodeItems_cons, List.forall_mem_cons, ← ih]
      cases encodeKey floats k with
      | none => simp
      | some key =>
          cases encode floats v nesting with
          | none => simp
          | some j => simp

end

example : encode (F := Unit) (O := Unit) ⟨fun _ => false, fun _ => "nan"⟩
    (.dict [(.str (pyStr "limit"), .float ())]) 5 = none := rfl

end BackendProdReady.Lib.JsonEncoder
