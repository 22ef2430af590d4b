import Mathlib.Tactic.Common

/-!
# Domain models as dictionaries

`BaseDomain.to_dict` runs two traversals, one after the other.  `dataclasses.asdict` goes
through lists, dicts and dataclasses to any depth and turns every dataclass into a dict of
all its fields; `_convert_value` goes through lists only, so that it meets neither what
is inside a dict nor a nested domain object, which is a dict by then.
-/

namespace BackendProdReady.Domain.Serialisation

/-! ## Values -/

/-- A dictionary key.  `P` is the type of plain values, `E` that of enum members. -/
inductive Key (P E : Type)
  | text (s : String)
  | plain (a : P)
  | enum (e : E)
deriving DecidableEq

/-- What a field can hold.  A domain object has the fields of `BaseDomain` and then those
of its own class. -/
inductive Value (P E : Type)
  | plain (a : P)
  | enum (e : E)
  | list (items : List (Value P E))
  | dict (items : List (Key P E × Value P E))
  | domain (id createdAt updatedAt validationErrors : Value P E)
      (fields : List (String × Value P E))

structure BaseDomain (P E : Type) where
  id : Value P E
  createdAt : Value P E
  updatedAt : Value P E
  validationErrors : Value P E
  fields : List (String × Value P E)

variable {P E : Type}

def BaseDomain.toValue (self : BaseDomain P E) : Value P E :=
  .domain self.id self.createdAt self.updatedAt self.validationErrors self.fields

def domainItems (id createdAt updatedAt validationErrors : Value P E)
    (fields : List (String × Value P E)) : List (String × Value P E) :=
  ("id", id) :: ("created_at", createdAt) :: ("updated_at", updatedAt) ::
    ("_validation_errors", validationErrors) :: fields

def BaseDomain.items (self : BaseDomain P E) : List (String × Value P E) :=
  domainItems self.id self.createdAt self.updatedAt self.validationErrors self.fields

def textItems (items : List (String × Value P E)) : List (Key P E × Value P E) :=
  items.map fun item => (.text item.1, item.2)

/-! ## Source -/

mutual
def asdictInner : Value P E → Value P E
  | .plain a => .plain a
  | .enum e => .enum e
  | .list items => .list (asdictAll items)
  | .dict items => .dict (asdictItems items)
  | .domain id createdAt updatedAt validationErrors fields =>
      .dict (textItems (domainItems (asdictInner id) (asdictInner createdAt)
        (asdictInner updatedAt) (asdictInner validationErrors) (asdictFields fields)))

def asdictAll : List (Value P E) → List (Value P E)
  | [] => []
  | v :: items => asdictInner v :: asdictAll items

def asdictItems : List (Key P E × Value P E) → List (Key P E × Value P E)
  | [] => []
  | (k, v) :: items => (k, asdictInner v) :: asdictItems items

def asdictFields : List (String × Value P E) → List (String × Value P E)
  | [] => []
  | (name, v) :: fields => (name, asdictInner v) :: asdictFields fields
end

def asdict (self : BaseDomain P E) : List (String × Value P E) :=
  domainItems (asdictInner self.id) (asdictInner self.createdAt) (asdictInner self.updatedAt)
    (asdictInner self.validationErrors) (asdictFields self.fields)

section

variable (value : E → P)

mutual
/-- `_convert_value`; `toDict` is what it calls for a domain object. -/
def convertValue (toDict : BaseDomain P E → List (String × Value P E)) : Value P E → Value P E
  | .enum e => .plain (value e)
  | .domain id createdAt updatedAt validationErrors fields =>
      .dict (textItems (toDict ⟨id, createdAt, updatedAt, validationErrors, fields⟩))
  | .list items => .list (convertAll toDict items)
  | .plain a => .plain a
  | .dict items => .dict items

def convertAll (toDict : BaseDomain P E → List (String × Value P E)) :
    List (Value P E) → List (Value P E)
  | [] => []
  | v :: items => convertValue toDict v :: convertAll toDict items
end

def isPrivate (name : String) : Bool := ['_'].isPrefixOf name.toList

/-- The body of `to_dict`, which calls `toDict` for the objects that are left. -/
def toDictWith (toDict : BaseDomain P E → List (String × Value P E)) (self : BaseDomain P E) :
    List (String × Value P E) :=
  ((asdict self).filter fun item => !isPrivate item.1).map fun item =>
    (item.1, convertValue value toDict item.2)

/-- `to_dict`; its call of itself is never reached (`toDict_eq`). -/
def toDict (self : BaseDomain P E) : List (String × Value P E) :=
  toDictWith value (fun _ => []) self

end

/-! ## Induction on values -/

/-- Induction through lists and dicts; what is inside a domain object is not needed. -/
theorem nestedInduction {motive : Value P E → Prop} (plain : ∀ a, motive (.plain a))
    (enum : ∀ e, motive (.enum e)) (list : ∀ items, (∀ v ∈ items, motive v) → motive (.list items))
    (dict : ∀ items, (∀ item ∈ items, motive item.2) → motive (.dict items))
    (domain : ∀ id createdAt updatedAt validationErrors fields,
      motive (.domain id createdAt updatedAt validationErrors fields)) :
    ∀ v, motive v
  | .plain a => plain a
  | .enum e => enum e
  | .list items => list items fun v _hv => nestedInduction plain enum list dict domain v
  | .dict items => dict items fun item _hitem =>
      nestedInduction plain enum list dict domain item.2
  | .domain id createdAt updatedAt validationErrors fields =>
      domain id createdAt updatedAt validationErrors fields
termination_by v => sizeOf v
decreasing_by
  · have hlt := List.sizeOf_lt_of_mem _hv
    simp only [Value.list.sizeOf_spec]
    omega
  · have hlt := List.sizeOf_lt_of_mem _hitem
    obtain ⟨k, v⟩ := item
    simp only [Prod.mk.sizeOf_spec, Value.dict.sizeOf_spec] at hlt ⊢
    omega

theorem asdictAll_eq (items : List (Value P E)) : asdictAll items = items.map asdictInner := by
  induction items with
  | nil => rfl
  | cons v items ih => rw [asdictAll, ih, List.map_cons]

theorem asdictItems_eq (items : List (Key P E × Value P E)) :
    asdictItems items = items.map fun item => (item.1, asdictInner item.2) := by
  induction items with
  | nil => rfl
  | cons item items ih => rw [asdictItems, ih, List.map_cons]

theorem asdictFields_eq (fields : List (String × Value P E)) :
    asdictFields fields = fields.map fun field => (field.1, asdictInner field.2) := by
  induction fields with
  | nil => rfl
  | cons field fields ih => rw [asdictFields, ih, List.map_cons]

theorem convertAll_eq (value : E → P) (toDict : BaseDomain P E → List (String × Value P E))
    (items : List (Value P E)) :
    convertAll value toDict items = items.map (convertValue value toDict) := by
  induction items with
  | nil => rfl
  | cons v items ih => rw [convertAll, ih, List.map_cons]

/-! ## What a result should contain -/

/-- A key is neither an enum member nor private. -/
def keyAllowed : Key P E → Bool
  | .text s => !isPrivate s
  | .plain _ => true
  | .enum _ => false

mutual
def serialised : Value P E → Bool
  | .plain _ => true
  | .enum _ => false
  | .list items => serialisedAll items
  | .dict items => serialisedItems items
  | .domain _ _ _ _ _ => false

def serialisedAll : List (Value P E) → Bool
  | [] => true
  | v :: items => serialised v && serialisedAll items

def serialisedItems : List (Key P E × Value P E) → Bool
  | [] => true
  | (k, v) :: items => keyAllowed k && serialised v && serialisedItems items
end

mutual
/-- Enum members stand in lists only, and there is no domain object at any depth. -/
def convertible : Value P E → Bool
  | .plain _ => true
  | .enum _ => true
  | .list items => convertibleAll items
  | .dict items => serialisedItems items
  | .domain _ _ _ _ _ => false

def convertibleAll : List (Value P E) → Bool
  | [] => true
  | v :: items => convertible v && convertibleAll items
end

theorem serialisedAll_eq (items : List (Value P E)) :
    serialisedAll items = items.all serialised := by
  induction items with
  | nil => rfl
  | cons v items ih => rw [serialisedAll, ih, List.all_cons]

theorem serialisedItems_eq (items : List (Key P E × Value P E)) :
    serialisedItems items = items.all fun item => keyAllowed item.1 && serialised item.2 := by
  induction items with
  | nil => rfl
  | cons item items ih => rw [serialisedItems, ih, List.all_cons]

theorem convertibleAll_eq (items : List (Value P E)) :
    convertibleAll items = items.all convertible := by
  induction items with
  | nil => rfl
  | cons v items ih => rw [convertibleAll, ih, List.all_cons]

theorem all_map_eq {α β : Type} {f : α → β} {p : β → Bool} {q : α → Bool} {items : List α}
    (h : ∀ item ∈ items, p (f item) = q item) : (items.map f).all p = items.all q := by
  rw [List.all_map, Bool.eq_iff_iff, List.all_eq_true, List.all_eq_true]
  exact forall₂_congr fun item hitem => by rw [Function.comp_apply, h item hitem]

/-- A domain object in a list or a dict shows its private field. -/
theorem serialised_asdictInner (v : Value P E) : serialised (asdictInner v) = serialised v := by
  induction v using nestedInduction with
  | plain a => rfl
  | enum e => rfl
  | list items ih =>
      rw [asdictInner, serialised, serialised, serialisedAll_eq, serialisedAll_eq, asdictAll_eq]
      exact all_map_eq ih
  | dict items ih =>
      rw [asdictInner, serialised, serialised, serialisedItems_eq, serialisedItems_eq,
        asdictItems_eq]
      exact all_map_eq fun item hitem => by rw [ih item hitem]
  | domain id createdAt updatedAt validationErrors fields =>
      have hprivate : isPrivate "_validation_errors" = true := by decide
      rw [asdictInner, serialised, serialised, serialisedItems_eq]
      simp [textItems, domainItems, keyAllowed, hprivate]

theorem serialised_convertValue (value : E → P)
    (toDict : BaseDomain P E → List (String × Value P E)) (v : Value P E) :
    serialised (convertValue value toDict (asdictInner v)) = convertible v := by
  induction v using nestedInduction with
  | plain a => rfl
  | enum e => rfl
  | list items ih =>
      rw [asdictInner, convertValue, serialised, convertible, serialisedAll_eq, convertibleAll_eq,
        convertAll_eq, asdictAll_eq, List.map_map]
      exact all_map_eq ih
  | dict items ih => exact serialised_asdictInner (.dict items)
  | domain id createdAt updatedAt validationErrors fields =>
      exact serialised_asdictInner (.domain id createdAt updatedAt validationErrors fields)

/-- After `asdict` no domain object is left for `_convert_value` to find. -/
theorem convertValue_asdictInner (value : E → P)
    (toDict toDict' : BaseDomain P E → List (String × Value P E)) (v : Value P E) :
    convertValue value toDict (asdictInner v) = convertValue value toDict' (asdictInner v) := by
  induction v using nestedInduction with
  | plain a => rfl
  | enum e => rfl
  | list items ih =>
      rw [asdictInner, convertValue, convertValue, convertAll_eq, convertAll_eq, asdictAll_eq,
        List.map_map, List.map_map]
      exact congrArg _ (List.map_congr_left fun v hv => ih v hv)
  | dict items ih => rfl
  | domain id createdAt updatedAt validationErrors fields => rfl

/-- Every value of `asdict` went through `_asdict_inner`. -/
theorem asdict_eq (self : BaseDomain P E) :
    asdict self = self.items.map fun item => (item.1, asdictInner item.2) := by
  rw [asdict, asdictFields_eq]
  rfl

/-- `to_dict` calls itself for the objects that `_convert_value` finds. -/
theorem toDict_eq (value : E → P) (self : BaseDomain P E) :
    toDict value self = toDictWith value (toDict value) self := by
  rw [toDict, toDictWith, toDictWith]
  apply List.map_congr_left
  intro item hitem
  rw [asdict_eq] at hitem
  obtain ⟨field, _, rfl⟩ := List.mem_map.mp (List.mem_filter.mp hitem).1
  exact congrArg _ (convertValue_asdictInner value _ _ field.2)

theorem mem_toDict {value : E → P} {self : BaseDomain P E} {item : String × Value P E} :
    item ∈ toDict value self ↔ ∃ field ∈ self.items, isPrivate field.1 = false ∧
      (field.1, convertValue value (toDict value) (asdictInner field.2)) = item := by
  rw [toDict_eq, toDictWith, asdict_eq]
  simp only [List.mem_map, List.mem_filter, Bool.not_eq_true']
  constructor
  · rintro ⟨_, ⟨⟨field, hfield, rfl⟩, hpublic⟩, rfl⟩
    exact ⟨field, hfield, hpublic, rfl⟩
  · rintro ⟨field, hfield, hpublic, rfl⟩
    exact ⟨_, ⟨⟨field, hfield, rfl⟩, hpublic⟩, rfl⟩

/-! ## Structure -/

/-- The result is free of enum members and private keys, and nested objects appear as their
own `to_dict()`. -/
structure Structural (value : E → P) (d : BaseDomain P E) : Prop where
  serialised : serialisedItems (textItems (toDict value d)) = true
  object : ∀ name (o : BaseDomain P E), (name, o.toValue) ∈ d.items → isPrivate name = false →
    (name, .dict (textItems (toDict value o))) ∈ toDict value d
  objects : ∀ name (l : List (BaseDomain P E)),
    (name, .list (l.map BaseDomain.toValue)) ∈ d.items → isPrivate name = false →
    (name, .list (l.map fun o => .dict (textItems (toDict value o)))) ∈ toDict value d

theorem serialisedItems_toDict (value : E → P) (self : BaseDomain P E) :
    serialisedItems (textItems (toDict value self)) = true ↔
      ∀ field ∈ self.items, isPrivate field.1 = false → convertible field.2 = true := by
  rw [serialisedItems_eq, textItems, List.all_map, List.all_eq_true]
  constructor
  · intro h field hfield hpublic
    have hitem := h _ (mem_toDict.mpr ⟨field, hfield, hpublic, rfl⟩)
    rw [Function.comp_apply, Bool.and_eq_true] at hitem
    rw [← serialised_convertValue value (toDict value) field.2]
    exact hitem.2
  · intro h item hitem
    obtain ⟨field, hfield, hpublic, rfl⟩ := mem_toDict.mp hitem
    rw [Function.comp_apply, Bool.and_eq_true]
    constructor
    · rw [keyAllowed, hpublic, Bool.not_false]
    · rw [serialised_convertValue, h field hfield hpublic]

def customer : BaseDomain Nat Unit := ⟨.plain 7, .plain 0, .plain 0, .list [], []⟩

def order : BaseDomain Nat Unit :=
  ⟨.plain 1, .plain 0, .plain 0, .list [], [("customer", customer.toValue)]⟩

end BackendProdReady.Domain.Serialisation
