import BackendProdReady.Lib.Text
import Mathlib.Algebra.Order.BigOperators.Group.List
import Mathlib.Algebra.Order.Ring.Nat
import Mathlib.Tactic.Common

/-!
# Nested containers of the Python language

Dicts, lists and tuples over leaf objects, nested to any depth, with the text
`repr` writes for them.  `replaceUnder` rewrites what stands under selected
dictionary keys, at any depth, and leaves everything else as it is.
-/

namespace BackendProdReady.Lib.NestedValues

open BackendProdReady.Lib.Text (length_intercalate)

/-- A leaf object, or a container of values.  A dict is its items in insertion
order. -/
inductive Value (κ α : Type) where
  | object (a : α)
  | dict (items : List (κ × Value κ α))
  | list (items : List (Value κ α))
  | tuple (items : List (Value κ α))

namespace Value

variable {κ α : Type}

@[elab_as_elim]
theorem nestedInduction {motive : Value κ α → Prop} (object : ∀ a, motive (.object a))
    (dict : ∀ items, (∀ e ∈ items, motive e.2) → motive (.dict items))
    (list : ∀ items, (∀ v ∈ items, motive v) → motive (.list items))
    (tuple : ∀ items, (∀ v ∈ items, motive v) → motive (.tuple items)) : ∀ v, motive v
  | .object a => object a
  | .dict items => dict items fun e _he => nestedInduction object dict list tuple e.2
  | .list items => list items fun v _hv => nestedInduction object dict list tuple v
  | .tuple items => tuple items fun v _hv => nestedInduction object dict list tuple v
termination_by v => sizeOf v
decreasing_by
  · have hlt := List.sizeOf_lt_of_mem _he
    obtain ⟨k, w⟩ := e
    simp only [Prod.mk.sizeOf_spec, Value.dict.sizeOf_spec] at hlt ⊢
    omega
  · have hlt := List.sizeOf_lt_of_mem _hv
    simp only [Value.list.sizeOf_spec]
    omega
  · have hlt := List.sizeOf_lt_of_mem _hv
    simp only [Value.tuple.sizeOf_spec]
    omega

/-! ## The text of a value -/

/-- What stands between the parentheses of a tuple: one item keeps a comma. -/
def tupleBody : List String → String
  | [s] => s ++ ","
  | l => ", ".intercalate l

section
variable (reprKey : κ → String) (reprObject : α → String)

mutual
/-- `repr(v)`, from the texts of the keys and of the leaves. -/
def reprText : Value κ α → String
  | .object a => reprObject a
  | .dict items => "\x7b" ++ ", ".intercalate (reprItems items) ++ "\x7d"
  | .list items => "[" ++ ", ".intercalate (reprAll items) ++ "]"
  | .tuple items => "(" ++ tupleBody (reprAll items) ++ ")"

def reprItems : List (κ × Value κ α) → List String
  | [] => []
  | (k, v) :: items => (reprKey k ++ ": " ++ reprText v) :: reprItems items

def reprAll : List (Value κ α) → List String
  | [] => []
  | v :: items => reprText v :: reprAll items
end

theorem reprItems_eq (items : List (κ × Value κ α)) :
    reprItems reprKey reprObject items =
      items.map fun e => reprKey e.1 ++ ": " ++ reprText reprKey reprObject e.2 := by
  induction items with
  | nil => rfl
  | cons e items ih => simp [reprItems, ih]

theorem reprAll_eq (items : List (Value κ α)) :
    reprAll reprKey reprObject items = items.map (reprText reprKey reprObject) := by
  induction items with
  | nil => rfl
  | cons v items ih => simp [reprAll, ih]

end

/-! ## What stands under selected keys -/

section
variable (selected : κ → Bool)

mutual
/-- `v` with each value under a selected key, at any depth, passed through `f`. -/
def replaceUnder (f : Value κ α → Value κ α) : Value κ α → Value κ α
  | .object a => .object a
  | .dict items => .dict (replaceItems f items)
  | .list items => .list (replaceAll f items)
  | .tuple items => .tuple (replaceAll f items)

def replaceItems (f : Value κ α → Value κ α) : List (κ × Value κ α) → List (κ × Value κ α)
  | [] => []
  | (k, v) :: items =>
      (k, if selected k then f v else replaceUnder f v) :: replaceItems f items

def replaceAll (f : Value κ α → Value κ α) : List (Value κ α) → List (Value κ α)
  | [] => []
  | v :: items => replaceUnder f v :: replaceAll f items
end

mutual
def hasSelected : Value κ α → Bool
  | .object _ => false
  | .dict items => hasSelectedItem items
  | .list items => hasSelectedIn items
  | .tuple items => hasSelectedIn items

def hasSelectedItem : List (κ × Value κ α) → Bool
  | [] => false
  | (k, v) :: items => selected k || hasSelected v || hasSelectedItem items

def hasSelectedIn : List (Value κ α) → Bool
  | [] => false
  | v :: items => hasSelected v || hasSelectedIn items
end

variable {selected}

@[simp] theorem replaceUnder_object (f : Value κ α → Value κ α) (a : α) :
    replaceUnder selected f (.object a) = .object a := rfl

@[simp] theorem replaceUnder_dict (f : Value κ α → Value κ α)
    (items : List (κ × Value κ α)) :
    replaceUnder selected f (.dict items) = .dict (replaceItems selected f items) := rfl

@[simp] theorem replaceUnder_list (f : Value κ α → Value κ α) (items : List (Value κ α)) :
    replaceUnder selected f (.list items) = .list (replaceAll selected f items) := rfl

@[simp] theorem replaceUnder_tuple (f : Value κ α → Value κ α) (items : List (Value κ α)) :
    replaceUnder selected f (.tuple items) = .tuple (replaceAll selected f items) := rfl

theorem replaceItems_eq (f : Value κ α → Value κ α) (items : List (κ × Value κ α)) :
    replaceItems selected f items =
      items.map fun e => (e.1, if selected e.1 then f e.2 else replaceUnder selected f e.2) := by
  induction items with
  | nil => rfl
  | cons e items ih => simp [replaceItems, ih]

theorem replaceAll_eq (f : Value κ α → Value κ α) (items : List (Value κ α)) :
    replaceAll selected f items = items.map (replaceUnder selected f) := by
  induction items with
  | nil => rfl
  | cons v items ih => simp [replaceAll, ih]

theorem hasSelectedItem_eq (items : List (κ × Value κ α)) :
    hasSelectedItem selected items =
      items.any fun e => selected e.1 || hasSelected selected e.2 := by
  induction items with
  | nil => rfl
  | cons e items ih => simp [hasSelectedItem, ih]

theorem hasSelectedIn_eq (items : List (Value κ α)) :
    hasSelectedIn selected items = items.any (hasSelected selected) := by
  induction items with
  | nil => rfl
  | cons v items ih => simp [hasSelectedIn, ih]

theorem replaceUnder_of_not_hasSelected (f : Value κ α → Value κ α) {v : Value κ α}
    (h : hasSelected selected v = false) : replaceUnder selected f v = v := by
  induction v using nestedInduction with
  | object a => rfl
  | dict items ih =>
      simp only [hasSelected, hasSelectedItem_eq, List.any_eq_false, Bool.or_eq_true,
        not_or, Bool.not_eq_true] at h
      rw [replaceUnder_dict, replaceItems_eq]
      refine congrArg dict ((List.map_congr_left fun e he => ?_).trans (List.map_id items))
      rw [(h e he).1, ih e he (h e he).2]
      rfl
  | list items ih | tuple items ih =>
      simp only [hasSelected, hasSelectedIn_eq, List.any_eq_false, Bool.not_eq_true] at h
      simp only [replaceUnder_list, replaceUnder_tuple, replaceAll_eq]
      refine congrArg _ ((List.map_congr_left fun v hv => ?_).trans (List.map_id items))
      exact ih v hv (h v hv)

/-- A replacement keeps every key, so the selected ones stay where they are. -/
@[simp] theorem hasSelected_replaceUnder (f : Value κ α → Value κ α) (v : Value κ α) :
    hasSelected selected (replaceUnder selected f v) = hasSelected selected v := by
  induction v using nestedInduction with
  | object a => rfl
  | dict items ih =>
      simp only [replaceUnder_dict, hasSelected, hasSelectedItem_eq, replaceItems_eq,
        List.any_map]
      rw [Bool.eq_iff_iff, List.any_eq_true, List.any_eq_true]
      refine exists_congr fun e => and_congr_right fun he => ?_
      cases hk : selected e.1 with
      | true => simp [hk]
      | false => simp [hk, ih e he]
  | list items ih | tuple items ih =>
      simp only [replaceUnder_list, replaceUnder_tuple, hasSelected, hasSelectedIn_eq,
        replaceAll_eq, List.any_map]
      rw [Bool.eq_iff_iff, List.any_eq_true, List.any_eq_true]
      exact exists_congr fun v => and_congr_right fun hv => by rw [Function.comp, ih v hv]

/-- A constant hides what another replacement wrote under the same keys. -/
theorem replaceUnder_const_replaceUnder (c : Value κ α) (f : Value κ α → Value κ α)
    (v : Value κ α) :
    replaceUnder selected (fun _ => c) (replaceUnder selected f v) =
      replaceUnder selected (fun _ => c) v := by
  induction v using nestedInduction with
  | object a => rfl
  | dict items ih =>
      simp only [replaceUnder_dict, replaceItems_eq, List.map_map]
      refine congrArg dict (List.map_congr_left fun e he => ?_)
      cases hk : selected e.1 with
      | true => simp [hk]
      | false => simp [hk, ih e he]
  | list items ih | tuple items ih =>
      simp only [replaceUnder_list, replaceUnder_tuple, replaceAll_eq, List.map_map]
      exact congrArg _ (List.map_congr_left fun v hv => ih v hv)

end

/-! ## A replacement by longer texts shows -/

theorem length_tupleBody (l : List String) :
    (tupleBody l).length =
      (", ".intercalate l).length + if l.length = 1 then 1 else 0 := by
  match l with
  | [] => rfl
  | [s] =>
      rw [String.intercalate_singleton, if_pos (List.length_singleton)]
      exact String.length_append s ","
  | s :: t :: l => simp [tupleBody]

section

variable {selected : κ → Bool} {reprKey : κ → String} {reprObject : α → String}

theorem length_intercalate_map_le {ε : Type} (sep : String) {items : List ε}
    {g g' : ε → String} (h : ∀ e ∈ items, (g e).length ≤ (g' e).length) :
    (sep.intercalate (items.map g)).length ≤ (sep.intercalate (items.map g')).length := by
  have hsum := List.sum_le_sum h
  simp only [length_intercalate, List.map_map, Function.comp_def, List.length_map]
  omega

theorem length_intercalate_map_lt {ε : Type} (sep : String) {items : List ε}
    {g g' : ε → String} (h : ∀ e ∈ items, (g e).length ≤ (g' e).length)
    (hlt : ∃ e ∈ items, (g e).length < (g' e).length) :
    (sep.intercalate (items.map g)).length < (sep.intercalate (items.map g')).length := by
  have hsum := List.sum_lt_sum _ _ h hlt
  simp only [length_intercalate, List.map_map, Function.comp_def, List.length_map]
  omega

theorem length_reprText_lt_list (v : Value κ α) :
    (reprText reprKey reprObject v).length < (reprText reprKey reprObject (.list [v])).length := by
  have hopen : "[".length = 1 := by decide
  simp only [reprText, reprAll, String.intercalate_singleton, String.length_append, hopen]
  omega

/-- A replacement that lengthens every text lengthens a text that holds a
selected key, and shortens none. -/
theorem length_reprText_replaceUnder {f : Value κ α → Value κ α}
    (hf : ∀ v, (reprText reprKey reprObject v).length < (reprText reprKey reprObject (f v)).length)
    (v : Value κ α) :
    (reprText reprKey reprObject v).length ≤
        (reprText reprKey reprObject (replaceUnder selected f v)).length ∧
      (hasSelected selected v = true →
        (reprText reprKey reprObject v).length <
          (reprText reprKey reprObject (replaceUnder selected f v)).length) := by
  induction v using nestedInduction with
  | object a => exact ⟨Nat.le_refl _, fun h => by simp [hasSelected] at h⟩
  | dict items ih =>
      simp only [replaceUnder_dict, reprText, reprItems_eq, replaceItems_eq, List.map_map,
        hasSelected, hasSelectedItem_eq, List.any_eq_true, String.length_append,
        Nat.add_lt_add_iff_right, Nat.add_lt_add_iff_left, Nat.add_le_add_iff_right,
        Nat.add_le_add_iff_left]
      have hle : ∀ e ∈ items, (reprKey e.1 ++ ": " ++ reprText reprKey reprObject e.2).length ≤
          (reprKey e.1 ++ ": " ++ reprText reprKey reprObject
            (if selected e.1 then f e.2 else replaceUnder selected f e.2)).length := by
        intro e he
        have hrec := (ih e he).1
        have hnew := hf e.2
        simp only [String.length_append]
        split <;> omega
      refine ⟨length_intercalate_map_le _ hle, fun hsel => length_intercalate_map_lt _ hle ?_⟩
      obtain ⟨e, he, hor⟩ := hsel
      refine ⟨e, he, ?_⟩
      have hrec := (ih e he).2
      have hnew := hf e.2
      simp only [String.length_append, Function.comp_apply]
      split
      · omega
      · have hin := hrec (by simpa [‹¬_›] using hor)
        omega
  | list items ih =>
      simp only [replaceUnder_list, reprText, reprAll_eq, replaceAll_eq, List.map_map,
        hasSelected, hasSelectedIn_eq, List.any_eq_true, String.length_append,
        Nat.add_lt_add_iff_right, Nat.add_lt_add_iff_left, Nat.add_le_add_iff_right,
        Nat.add_le_add_iff_left]
      have hle := fun v hv => (ih v hv).1
      refine ⟨length_intercalate_map_le _ hle, fun hsel => length_intercalate_map_lt _ hle ?_⟩
      obtain ⟨v, hv, hin⟩ := hsel
      exact ⟨v, hv, (ih v hv).2 hin⟩
  | tuple items ih =>
      simp only [replaceUnder_tuple, reprText, reprAll_eq, replaceAll_eq, List.map_map,
        hasSelected, hasSelectedIn_eq, List.any_eq_true, String.length_append,
        length_tupleBody, List.length_map, Nat.add_lt_add_iff_right,
        Nat.add_lt_add_iff_left, Nat.add_le_add_iff_right, Nat.add_le_add_iff_left]
      have hle := fun v hv => (ih v hv).1
      refine ⟨length_intercalate_map_le _ hle, fun hsel => length_intercalate_map_lt _ hle ?_⟩
      obtain ⟨v, hv, hin⟩ := hsel
      exact ⟨v, hv, (ih v hv).2 hin⟩

end

end Value

end BackendProdReady.Lib.NestedValues
