import BackendProdReady.Database.DomainUpdate
import Mathlib.Logic.Function.Basic

/-!
# What `update_from_domain` writes back

One call with `flush=True`, from the locking SELECT to the UPDATE.  A column that
the domain object leaves null passes neither filter, so the row keeps its value
there; every other column is written unless it compares equal to the attribute of
the instance that the SELECT returned.
-/

namespace BackendProdReady.Database.WriteBack

open BackendProdReady.Database.DomainUpdate

section

variable {φ V : Type} [Fintype φ] [DecidableEq φ] [DecidableEq V]

abbrev Table (φ V : Type) := Option V → Option (Row φ V)

/-- `update_from_domain`: the attributes of the entity it returns, and the table.
`domain` is what `from_domain` assigns; `kept` is the instance with the id that the
session still holds, which the locking SELECT then returns. -/
def updateFromDomain (now : V) (kept : Option (Row φ V)) (domain : Row φ V)
    (table : Table φ V) : Option (Row φ V) × Table φ V :=
  match table (domain .id) with
  | none => (none, table)
  | some row =>
      let existing := kept.getD row
      let entity := setAttrs existing (updateData domain)
      (some entity, Function.update table (domain .id) (some (flush now existing entity row)))

/-! ## One column -/

variable {now : V} {existing domain row : Row φ V} {f : φ}

theorem flush_of_null (h : domain (.own f) = none) :
    flush now existing (setAttrs existing (updateData domain)) row (.own f) = row (.own f) := by
  have hkept : setAttrs existing (updateData domain) (.own f) = existing (.own f) := by
    simp [setAttrs, updateData, h]
  unfold flush
  rw [hkept, if_neg (by simp), if_neg (by simp)]

theorem flush_of_value {value : V} (h : domain (.own f) = some value)
    (hcurrent : existing (.own f) = some value → row (.own f) = some value) :
    flush now existing (setAttrs existing (updateData domain)) row (.own f) = some value := by
  have hset : setAttrs existing (updateData domain) (.own f) = some value := by
    simp [setAttrs, updateData, h]
  unfold flush
  rw [hset]
  by_cases hsame : some value = existing (.own f)
  · rw [if_neg (not_not.mpr hsame), if_neg (by simp), hcurrent hsame.symm]
  · rw [if_pos hsame]

/-- No UPDATE mentions a column in which the object agrees with the instance. -/
theorem flush_of_same (h : domain (.own f) = existing (.own f)) :
    flush now existing (setAttrs existing (updateData domain)) row (.own f) = row (.own f) := by
  have hkept : setAttrs existing (updateData domain) (.own f) = existing (.own f) := by
    simp only [setAttrs, updateData, h]
    cases existing (.own f) <;> rfl
  unfold flush
  rw [hkept, if_neg (by simp), if_neg (by simp)]

theorem faithful_iff :
    (∀ f, flush now existing (setAttrs existing (updateData domain)) row (.own f) =
        domain (.own f)) ↔
      ∀ f, domain (.own f) = none ∨ domain (.own f) = existing (.own f) →
        row (.own f) = domain (.own f) := by
  constructor
  · rintro h f (hnull | hsame)
    · have hkept : flush now existing (setAttrs existing (updateData domain)) row (.own f) =
          row (.own f) := flush_of_null hnull
      rw [← hkept, h f]
    · have hkept : flush now existing (setAttrs existing (updateData domain)) row (.own f) =
          row (.own f) := flush_of_same hsame
      rw [← hkept, h f]
  · intro h f
    cases hvalue : domain (.own f) with
    | none => rw [flush_of_null hvalue, h f (.inl hvalue), hvalue]
    | some value =>
        refine flush_of_value hvalue fun hexisting => ?_
        rw [h f (.inr (hvalue.trans hexisting.symm)), hvalue]

/-! ## Main result -/

end

/-! ## A soft-deleted row -/

/-- The columns of a model with `SoftDeleteMixin`. -/
inductive SoftDeleteField
  | name
  | deletedAt
deriving DecidableEq

instance : Fintype SoftDeleteField where
  elems := {.name, .deletedAt}
  complete f := by cases f <;> decide

def deletedRow : Row SoftDeleteField Nat
  | .id => some 7
  | .createdAt | .updatedAt => some 0
  | .own .name => some 1
  | .own .deletedAt => some 5

def restored : Row SoftDeleteField Nat
  | .id => some 7
  | .createdAt | .updatedAt => some 0
  | .own .name => some 2
  | .own .deletedAt => none

def deletedTable : Table SoftDeleteField Nat := fun id =>
  if id = some 7 then some deletedRow else none

end BackendProdReady.Database.WriteBack
