import BackendProdReady.Lib.InsertionDict
import BackendProdReady.Lib.KeyedTable

/-!
# INSERT ... ON CONFLICT

`upsert_one_core` on a table whose conflict fields form its unique key.  A
statement without a column to set is refused when it is built, unless the list
of update fields is itself empty.
-/

namespace BackendProdReady.Database.Upsert

open BackendProdReady.Lib.InsertionDict
open BackendProdReady.Lib.KeyedTable

variable {κ ν : Type} [DecidableEq κ] [DecidableEq ν]

abbrev Row (κ ν : Type) := κ → ν

def keyOf (conflictFields : List κ) (row : Row κ ν) : List ν := conflictFields.map row

/-- A table whose unique key are the conflict fields. -/
abbrev KeyedRows (ν : Type) (conflictFields : List κ) :=
  Table (Row κ ν) (keyOf (ν := ν) conflictFields)

/-! ## Statements -/

inductive SetValue (κ ν : Type)
  | literal (value : ν)
  /-- `stmt.excluded[column]`, the value of the row proposed for insertion. -/
  | excluded (column : κ)
deriving DecidableEq

inductive OnConflict (κ ν : Type)
  | doNothing
  | doUpdate (set_ : Dict κ (SetValue κ ν))

inductive UpsertError
  /-- The `ValueError` of an empty `set_`. -/
  | emptySet
  | uniqueViolation
deriving DecidableEq

def onConflictDoUpdate (set_ : Dict κ (SetValue κ ν)) : Except UpsertError (OnConflict κ ν) :=
  if set_.isEmpty then .error .emptySet else .ok (.doUpdate set_)

def updateDict (data : Dict κ ν) (conflictFields : List κ) :
    Option (List κ) → Dict κ (SetValue κ ν)
  | none => (data.removeIf fun k => k ∈ conflictFields).mapValues .literal
  | some updateFields =>
      Dict.ofKeys .excluded (updateFields.filter fun k => (data.find k).isSome)

def onConflict (data : Dict κ ν) (conflictFields : List κ) (updateFields : Option (List κ))
    (doNothingOnConflict : Bool) : Except UpsertError (OnConflict κ ν) :=
  if doNothingOnConflict ∨ updateFields = some [] then .ok .doNothing
  else onConflictDoUpdate (updateDict data conflictFields updateFields)

/-! ## Execution -/

def proposed (defaults : Row κ ν) (data : Dict κ ν) : Row κ ν := fun c =>
  (data.find c).getD (defaults c)

def applySet (set_ : Dict κ (SetValue κ ν)) (excluded existing : Row κ ν) : Row κ ν := fun c =>
  match set_.find c with
  | none => existing c
  | some (.literal value) => value
  | some (.excluded column) => excluded column

variable {conflictFields : List κ}

/-- The row that RETURNING gives, and the table. -/
def execute (row : Row κ ν) (clause : OnConflict κ ν) (table : KeyedRows ν conflictFields) :
    Except UpsertError (Option (Row κ ν) × KeyedRows ν conflictFields) :=
  match h : table.find (keyOf conflictFields row), clause with
  | none, _ => .ok (some row, table.insert row h)
  | some _, .doNothing => .ok (none, table)
  | some existing, .doUpdate set_ =>
      match table.update (keyOf conflictFields row) (applySet set_ row) with
      | none => .error .uniqueViolation
      | some table' => .ok (some (applySet set_ row existing), table')

def upsertOneCore (defaults : Row κ ν) (data : Dict κ ν) (conflictFields : List κ)
    (updateFields : Option (List κ)) (returnEntity doNothingOnConflict : Bool)
    (table : KeyedRows ν conflictFields) :
    Except UpsertError (Option (Row κ ν) × KeyedRows ν conflictFields) :=
  match onConflict data conflictFields updateFields doNothingOnConflict with
  | .error e => .error e
  | .ok clause =>
      (execute (proposed defaults data) clause table).map fun done =>
        (if returnEntity then done.1 else none, done.2)

theorem upsertOneCore_of_execute {defaults : Row κ ν} {data : Dict κ ν}
    {updateFields : Option (List κ)} {doNothingOnConflict : Bool} {clause : OnConflict κ ν}
    (hclause : onConflict data conflictFields updateFields doNothingOnConflict = .ok clause)
    {table table' : KeyedRows ν conflictFields} {returned : Option (Row κ ν)}
    (hexecute : execute (proposed defaults data) clause table = .ok (returned, table'))
    (returnEntity : Bool) :
    upsertOneCore defaults data conflictFields updateFields returnEntity doNothingOnConflict
      table = .ok (if returnEntity then returned else none, table') := by
  simp only [upsertOneCore, hclause, hexecute]
  rfl

theorem execute_of_new {row : Row κ ν} {table : KeyedRows ν conflictFields}
    (h : table.find (keyOf conflictFields row) = none) (clause : OnConflict κ ν) :
    execute row clause table = .ok (some row, table.insert row h) := by
  unfold execute
  split
  · rfl
  all_goals simp_all

theorem execute_doNothing {row existing : Row κ ν} {table : KeyedRows ν conflictFields}
    (h : table.find (keyOf conflictFields row) = some existing) :
    execute row .doNothing table = .ok (none, table) := by
  unfold execute
  split
  · simp_all
  · rfl
  · simp_all

theorem execute_doUpdate {row existing : Row κ ν} {table table' : KeyedRows ν conflictFields}
    (h : table.find (keyOf conflictFields row) = some existing)
    {set_ : Dict κ (SetValue κ ν)}
    (hupdate : table.update (keyOf conflictFields row) (applySet set_ row) = some table') :
    execute row (.doUpdate set_) table = .ok (some (applySet set_ row existing), table') := by
  unfold execute
  split
  · simp_all
  · simp_all
  · simp_all

/-! ## The columns to update -/

/-- All non-conflict fields of the data, or the update fields that are in it. -/
def toUpdate (data : Dict κ ν) (conflictFields : List κ) : Option (List κ) → κ → Bool
  | none, c => (data.find c).isSome && decide (c ∉ conflictFields)
  | some updateFields, c => (data.find c).isSome && decide (c ∈ updateFields)

omit [DecidableEq ν] in
theorem isSome_of_toUpdate {data : Dict κ ν} {updateFields : Option (List κ)} {c : κ}
    (h : toUpdate data conflictFields updateFields c = true) : (data.find c).isSome = true := by
  cases updateFields with
  | none => exact (Bool.and_eq_true_iff.mp h).1
  | some fields => exact (Bool.and_eq_true_iff.mp h).1

omit [DecidableEq ν] in
theorem proposed_of_find {data : Dict κ ν} {c : κ} {v : ν} (h : data.find c = some v)
    (defaults : Row κ ν) : proposed defaults data c = v := by
  rw [proposed, h, Option.getD_some]

omit [DecidableEq ν] in
theorem find_updateDict (data : Dict κ ν) (conflictFields : List κ)
    (updateFields : Option (List κ)) (c : κ) :
    ((updateDict data conflictFields updateFields).find c).isSome =
      toUpdate data conflictFields updateFields c := by
  cases updateFields with
  | none =>
      rw [updateDict, Dict.find_mapValues, Option.isSome_map, Dict.find_removeIf, toUpdate]
      by_cases hc : c ∈ conflictFields
      · simp [hc]
      · simp [hc]
  | some fields =>
      rw [updateDict, Dict.find_ofKeys, toUpdate]
      by_cases hc : c ∈ fields
      · cases hfind : data.find c <;> simp [hc, hfind]
      · simp [hc]

omit [DecidableEq ν] in
theorem updateDict_isEmpty_iff (data : Dict κ ν) (conflictFields : List κ)
    (updateFields : Option (List κ)) :
    (updateDict data conflictFields updateFields).isEmpty = true ↔
      ∀ c, toUpdate data conflictFields updateFields c = false := by
  rw [List.isEmpty_iff, Dict.eq_nil_iff_find]
  refine forall_congr' fun c => ?_
  rw [← find_updateDict]
  cases (updateDict data conflictFields updateFields).find c <;> simp

omit [DecidableEq ν] in
/-- The SET clause gives the columns to update the data's values. -/
theorem applySet_updateDict (data : Dict κ ν) (conflictFields : List κ)
    (updateFields : Option (List κ)) (defaults existing : Row κ ν) (c : κ) :
    applySet (updateDict data conflictFields updateFields) (proposed defaults data) existing c =
      if toUpdate data conflictFields updateFields c then proposed defaults data c
      else existing c := by
  rw [applySet, ← find_updateDict]
  cases updateFields with
  | none =>
      rw [updateDict, Dict.find_mapValues, Dict.find_removeIf]
      cases decide (c ∈ conflictFields) with
      | true => rfl
      | false =>
          cases hfind : data.find c with
          | none => rfl
          | some v => exact (proposed_of_find hfind defaults).symm
  | some fields =>
      rw [updateDict, Dict.find_ofKeys]
      split_ifs <;> simp_all

omit [DecidableEq ν] in
theorem onConflict_cases {data : Dict κ ν} {updateFields : Option (List κ)}
    {clause : OnConflict κ ν}
    (h : onConflict data conflictFields updateFields false = .ok clause) :
    (updateFields = some [] ∧ clause = .doNothing) ∨
      clause = .doUpdate (updateDict data conflictFields updateFields) := by
  unfold onConflict at h
  by_cases hempty : updateFields = some []
  · rw [if_pos (.inr hempty)] at h
    exact .inl ⟨hempty, (Except.ok.inj h).symm⟩
  · rw [if_neg (by simpa using hempty), onConflictDoUpdate] at h
    split_ifs at h
    exact .inr (Except.ok.inj h).symm

/-! ## What the table holds afterwards -/

/-- The row has the values of the data in the conflict fields. -/
def HasKey (data : Dict κ ν) (conflictFields : List κ) (row : Row κ ν) : Prop :=
  ∀ c ∈ conflictFields, data.find c = some (row c)

instance (data : Dict κ ν) (conflictFields : List κ) (row : Row κ ν) :
    Decidable (HasKey data conflictFields row) :=
  inferInstanceAs (Decidable (∀ c ∈ conflictFields, data.find c = some (row c)))

structure Upserted (data : Dict κ ν) (updateFields : Option (List κ))
    (before after : KeyedRows ν conflictFields) : Prop where
  once : ∃ row, after.rows.filter (fun r => HasKey data conflictFields r) = [row]
  inserted : (∀ row ∈ before.rows, ¬ HasKey data conflictFields row) →
    ∀ row ∈ after.rows, HasKey data conflictFields row →
    ∀ c v, data.find c = some v → row c = v
  updated : ∀ old ∈ before.rows, HasKey data conflictFields old →
    ∀ row ∈ after.rows, HasKey data conflictFields row → ∀ c,
    if toUpdate data conflictFields updateFields c then data.find c = some (row c)
    else row c = old c
  others : after.rows.filter (fun r => ¬ HasKey data conflictFields r) =
    before.rows.filter fun r => ¬ HasKey data conflictFields r

/-- What is asked of a call with `do_nothing_on_conflict` false. -/
def Upserts (defaults : Row κ ν) (data : Dict κ ν) (updateFields : Option (List κ))
    (returnEntity : Bool) (table : KeyedRows ν conflictFields) : Prop :=
  ∃ returned table', upsertOneCore defaults data conflictFields updateFields returnEntity false
      table = .ok (returned, table') ∧
    Upserted data updateFields table table' ∧
    ∀ defaults', ∃ again, upsertOneCore defaults' data conflictFields updateFields returnEntity
      false table' = .ok (again, table')

section Contract

variable {data : Dict κ ν} (hkeyed : ∀ c ∈ conflictFields, (data.find c).isSome)

include hkeyed

omit [DecidableEq ν] in
theorem find_eq_proposed {c : κ} (hc : c ∈ conflictFields) (defaults : Row κ ν) :
    data.find c = some (proposed defaults data c) := by
  obtain ⟨v, hv⟩ := Option.isSome_iff_exists.mp (hkeyed c hc)
  rw [hv, proposed_of_find hv]

omit [DecidableEq ν] in
theorem hasKey_iff (defaults row : Row κ ν) :
    HasKey data conflictFields row ↔
      keyOf conflictFields row = keyOf conflictFields (proposed defaults data) := by
  rw [keyOf, keyOf, List.map_inj_left]
  refine forall₂_congr fun c hc => ?_
  rw [find_eq_proposed hkeyed hc defaults, Option.some.injEq, eq_comm]

omit [DecidableEq ν] hkeyed in
/-- The SET clause keeps the key. -/
theorem keyOf_applySet (updateFields : Option (List κ)) (defaults existing : Row κ ν)
    (hkey : keyOf conflictFields existing = keyOf conflictFields (proposed defaults data)) :
    keyOf conflictFields (applySet (updateDict data conflictFields updateFields)
      (proposed defaults data) existing) =
        keyOf conflictFields (proposed defaults data) := by
  rw [keyOf, keyOf, List.map_inj_left] at hkey ⊢
  intro c hc
  rw [applySet_updateDict]
  split_ifs
  · rfl
  · exact hkey c hc

/-- A call on a table whose row of the key already has what would be set. -/
theorem upsertOneCore_again {updateFields : Option (List κ)} {clause : OnConflict κ ν}
    (hclause : onConflict data conflictFields updateFields false = .ok clause)
    {table : KeyedRows ν conflictFields} {row : Row κ ν} (hmem : row ∈ table.rows)
    (hrow : HasKey data conflictFields row)
    (hset : ∀ c, toUpdate data conflictFields updateFields c = true → data.find c = some (row c))
    (defaults : Row κ ν) (returnEntity : Bool) :
    ∃ again, upsertOneCore defaults data conflictFields updateFields returnEntity false table =
      .ok (again, table) := by
  have hkey := (hasKey_iff hkeyed defaults row).mp hrow
  have hfind := Table.find_of_mem hmem
  rw [hkey] at hfind
  rcases onConflict_cases hclause with ⟨-, rfl⟩ | rfl
  · exact ⟨_, upsertOneCore_of_execute hclause (execute_doNothing hfind) returnEntity⟩
  · have hsame : ∀ r ∈ table.rows,
        keyOf conflictFields r = keyOf conflictFields (proposed defaults data) →
        applySet (updateDict data conflictFields updateFields) (proposed defaults data) r = r := by
      intro r hr hk
      have hother := Table.find_of_mem hr
      rw [hk, hfind, Option.some.injEq] at hother
      subst hother
      funext c
      rw [applySet_updateDict]
      split_ifs with hc
      · exact proposed_of_find (hset c hc) defaults
      · rfl
    exact ⟨_, upsertOneCore_of_execute hclause
      (execute_doUpdate hfind (table.update_eq_self hsame)) returnEntity⟩

theorem filter_hasKey (table : KeyedRows ν conflictFields) (defaults : Row κ ν) :
    table.rows.filter (fun r => HasKey data conflictFields r) =
      table.rows.filter fun r =>
        keyOf conflictFields r = keyOf conflictFields (proposed defaults data) := by
  refine List.filter_congr fun r _ => ?_
  simp only [hasKey_iff hkeyed defaults]

theorem filter_not_hasKey (table : KeyedRows ν conflictFields) (defaults : Row κ ν) :
    table.rows.filter (fun r => ¬ HasKey data conflictFields r) =
      table.rows.filter fun r =>
        keyOf conflictFields r ≠ keyOf conflictFields (proposed defaults data) := by
  refine List.filter_congr fun r _ => ?_
  simp only [hasKey_iff hkeyed defaults, ne_eq]

/-- A row of the data's key is the one that is found. -/
theorem eq_of_hasKey {table : KeyedRows ν conflictFields} {row other : Row κ ν}
    {defaults : Row κ ν}
    (hfind : table.find (keyOf conflictFields (proposed defaults data)) = some row)
    (hmem : other ∈ table.rows) (hother : HasKey data conflictFields other) : other = row := by
  have hfound := Table.find_of_mem hmem
  rw [(hasKey_iff hkeyed defaults other).mp hother, hfind, Option.some.injEq] at hfound
  exact hfound.symm

theorem upserted_insert {updateFields : Option (List κ)} {defaults : Row κ ν}
    {table : KeyedRows ν conflictFields}
    (hnew : table.find (keyOf conflictFields (proposed defaults data)) = none) :
    Upserted data updateFields table (table.insert (proposed defaults data) hnew) := by
  have hfound := table.find_insert_self (proposed defaults data) hnew
  constructor
  case once =>
    rw [filter_hasKey hkeyed _ defaults]
    exact ⟨_, Table.filter_key_of_find hfound⟩
  case inserted =>
    intro _ row hmem hrow c v hv
    rw [eq_of_hasKey hkeyed hfound hmem hrow]
    exact proposed_of_find hv defaults
  case updated =>
    intro old hold hkey
    exact absurd ((hasKey_iff hkeyed defaults old).mp hkey)
      (Table.find_eq_none_iff.mp hnew old hold)
  case others =>
    rw [filter_not_hasKey hkeyed _ defaults, filter_not_hasKey hkeyed _ defaults]
    exact table.filter_ne_insert (proposed defaults data) hnew

/-- The row of the key has changed as the SET clause says, or nothing was to be set. -/
theorem upserted_existing {updateFields : Option (List κ)} {defaults existing : Row κ ν}
    {table table' : KeyedRows ν conflictFields}
    (hfind : table.find (keyOf conflictFields (proposed defaults data)) = some existing)
    (hrows : table'.rows = table.changed (keyOf conflictFields (proposed defaults data))
      (applySet (updateDict data conflictFields updateFields) (proposed defaults data))) :
    Upserted data updateFields table table' := by
  have hkey := (Table.mem_of_find hfind).2
  have hfound := Table.find_changed hrows hfind (keyOf_applySet updateFields defaults existing hkey)
  constructor
  case once =>
    rw [filter_hasKey hkeyed _ defaults]
    exact ⟨_, Table.filter_key_of_find hfound⟩
  case inserted =>
    intro hnew
    have hmem := (Table.mem_of_find hfind).1
    exact absurd ((hasKey_iff hkeyed defaults existing).mpr hkey) (hnew existing hmem)
  case updated =>
    intro old hold holdKey row hmem hrow c
    rw [eq_of_hasKey hkeyed hfind hold holdKey, eq_of_hasKey hkeyed hfound hmem hrow,
      applySet_updateDict]
    split_ifs with hc
    · obtain ⟨v, hv⟩ := Option.isSome_iff_exists.mp (isSome_of_toUpdate hc)
      rw [hv, proposed_of_find hv]
    · rfl
  case others =>
    rw [filter_not_hasKey hkeyed _ defaults, filter_not_hasKey hkeyed _ defaults, hrows]
    exact table.filter_ne_changed fun row _ => keyOf_applySet updateFields defaults row

/-- A statement that could be built upserts. -/
theorem upserts_of_clause {updateFields : Option (List κ)} {clause : OnConflict κ ν}
    (hclause : onConflict data conflictFields updateFields false = .ok clause)
    (defaults : Row κ ν) (returnEntity : Bool) (table : KeyedRows ν conflictFields) :
    Upserts defaults data updateFields returnEntity table := by
  cases hfind : table.find (keyOf conflictFields (proposed defaults data)) with
  | none =>
      have hfound := table.find_insert_self (proposed defaults data) hfind
      refine ⟨_, _, upsertOneCore_of_execute hclause (execute_of_new hfind clause) returnEntity,
        upserted_insert hkeyed hfind, fun defaults' => ?_⟩
      obtain ⟨hmem, hkey⟩ := Table.mem_of_find hfound
      refine upsertOneCore_again hkeyed hclause hmem ((hasKey_iff hkeyed defaults _).mpr hkey)
        (fun c hc => ?_) defaults' returnEntity
      obtain ⟨v, hv⟩ := Option.isSome_iff_exists.mp (isSome_of_toUpdate hc)
      rw [hv, proposed_of_find hv]
  | some existing =>
      obtain ⟨hmem, hkey⟩ := Table.mem_of_find hfind
      rcases onConflict_cases hclause with ⟨rfl, rfl⟩ | rfl
      · -- nothing is to be set, and the statement does nothing
        have hsame : table.changed (keyOf conflictFields (proposed defaults data))
            (applySet (updateDict data conflictFields (some [])) (proposed defaults data)) =
            table.rows := table.changed_eq_self fun row _ _ => rfl
        refine ⟨_, table, upsertOneCore_of_execute hclause (execute_doNothing hfind) returnEntity,
          upserted_existing hkeyed hfind hsame.symm, fun defaults' => ?_⟩
        exact upsertOneCore_again hkeyed hclause hmem ((hasKey_iff hkeyed defaults _).mpr hkey)
          (fun c hc => by simp [toUpdate] at hc) defaults' returnEntity
      · obtain ⟨table', hupdate, hrows⟩ := table.update_eq_some fun row _ =>
          keyOf_applySet updateFields defaults row
        have hfound := Table.find_changed hrows hfind
          (keyOf_applySet updateFields defaults existing hkey)
        have hupserted := upserted_existing hkeyed hfind hrows
        refine ⟨_, table', upsertOneCore_of_execute hclause (execute_doUpdate hfind hupdate)
          returnEntity, hupserted, fun defaults' => ?_⟩
        obtain ⟨hmem', hkey'⟩ := Table.mem_of_find hfound
        have hrow := (hasKey_iff hkeyed defaults _).mpr hkey'
        refine upsertOneCore_again hkeyed hclause hmem' hrow (fun c hc => ?_) defaults'
          returnEntity
        have hset := hupserted.updated existing hmem ((hasKey_iff hkeyed defaults _).mpr hkey)
          _ hmem' hrow c
        rwa [if_pos hc] at hset

end Contract

/-- The list of update fields is empty, or there is a column to update. -/
def NamesColumns (data : Dict κ ν) (conflictFields : List κ) (updateFields : Option (List κ)) :
    Prop :=
  updateFields = some [] ∨ ∃ c, toUpdate data conflictFields updateFields c = true

omit [DecidableEq ν] in
theorem onConflict_ok_iff (data : Dict κ ν) (conflictFields : List κ)
    (updateFields : Option (List κ)) :
    (∃ clause, onConflict data conflictFields updateFields false = .ok clause) ↔
      NamesColumns data conflictFields updateFields := by
  unfold NamesColumns onConflict
  by_cases hempty : updateFields = some []
  · simp [hempty]
  · rw [if_neg (by simpa using hempty), onConflictDoUpdate]
    have hset := updateDict_isEmpty_iff data conflictFields updateFields
    split_ifs with hnone
    · simp [hempty, hset.mp hnone]
    · simpa [hempty] using hset.not.mp hnone

theorem upserts_iff {data : Dict κ ν} (hkeyed : ∀ c ∈ conflictFields, (data.find c).isSome)
    (defaults : Row κ ν) (updateFields : Option (List κ)) (returnEntity : Bool)
    (table : KeyedRows ν conflictFields) :
    Upserts defaults data updateFields returnEntity table ↔
      NamesColumns data conflictFields updateFields := by
  rw [← onConflict_ok_iff]
  constructor
  · rintro ⟨returned, table', hcall, -⟩
    cases hclause : onConflict data conflictFields updateFields false with
    | ok clause => exact ⟨clause, rfl⟩
    | error e =>
        rw [upsertOneCore, hclause] at hcall
        cases hcall
  · rintro ⟨clause, hclause⟩
    exact upserts_of_clause hkeyed hclause defaults returnEntity table

/-- The accounts of two users, keyed by id. -/
def accounts : KeyedRows String ["id"] where
  rows := [fun c => if c = "id" then "1" else "ada", fun c => if c = "id" then "2" else "bob"]
  unique := by decide

theorem upserts_name :
    Upserts (fun _ => "") [("id", "2"), ("name", "eve")] none true accounts :=
  (upserts_iff (by decide) _ none true accounts).mpr (.inr ⟨"name", by decide⟩)

/-- The data are a key and nothing else. -/
theorem upsert_of_bare_key_raises :
    upsertOneCore (fun _ => "") [("id", "3")] ["id"] none true false accounts =
        .error .emptySet ∧
      ¬ Upserts (fun _ => "") [("id", "3")] none true accounts := by
  refine ⟨rfl, ?_⟩
  rintro ⟨returned, table', hcall, -⟩
  cases hcall

end BackendProdReady.Database.Upsert
