import Mathlib.Data.List.Basic
import Mathlib.Data.List.Forall2
import Mathlib.Data.List.Nodup

/-!
# Scripts that define a schema

A database is a list of relations with their rows and a list of indexes, in the order of
their creation.  Tables, indexes and the indexes behind primary keys and unique constraints
share one name space.  A script stops at the first statement that fails.

Two rules carry the proofs.  What a script does to a part of a database it does to the
whole, if the rest does not use its names.  And the inverse script takes back what a script
created, whatever rows were stored in the meantime.
-/

namespace BackendProdReady.Lib.Ddl

/-! ## Databases -/

inductive SqlType
  | string (length : Nat)
  | text
  | uuid
  | bigInteger
  | boolean
  | date
  | dateTime (timezone : Bool)
  | jsonb
deriving DecidableEq

structure Column where
  name : String
  type : SqlType
  nullable : Bool
deriving DecidableEq

structure Key where
  name : String
  columns : List String
deriving DecidableEq

structure ForeignKey where
  name : String
  columns : List String
  table : String
  references : List String
  ondelete : Option String
deriving DecidableEq

structure Table where
  name : String
  columns : List Column
  primaryKey : Key
  uniques : List Key
  foreignKeys : List ForeignKey
deriving DecidableEq

structure Index where
  name : String
  table : String
  columns : List String
  unique : Bool
  condition : Option String
deriving DecidableEq

abbrev Row := List (String × String)

structure Relation where
  table : Table
  rows : List Row
deriving DecidableEq

structure Database where
  relations : List Relation
  indexes : List Index
deriving DecidableEq

def Table.keys (t : Table) : List Key := t.primaryKey :: t.uniques

def Table.columnNames (t : Table) : List String := t.columns.map Column.name

def Table.relationNames (t : Table) : List String := t.name :: t.keys.map Key.name

namespace Database

def empty : Database := ⟨[], []⟩

def append (db more : Database) : Database :=
  ⟨db.relations ++ more.relations, db.indexes ++ more.indexes⟩

def tableNames (db : Database) : List String := db.relations.map fun r => r.table.name

def names (db : Database) : List String :=
  (db.relations.flatMap fun r => r.table.relationNames) ++ db.indexes.map Index.name

end Database

/-! ## Statements -/

inductive Statement
  | createTable (t : Table)
  | createIndex (i : Index)
  | dropIndex (name : String)
  | dropTable (name : String)
  | insert (table : String) (row : Row)
deriving DecidableEq

/-- The columns are columns of the table, each once. -/
def Table.has (t : Table) (columns : List String) : Bool :=
  columns.all (t.columnNames.contains ·) && decide columns.Nodup

def Table.keyed (t : Table) (columns : List String) : Bool :=
  t.keys.any fun key => key.columns = columns

def Table.wellFormed (t : Table) : Bool :=
  decide t.columnNames.Nodup && decide t.relationNames.Nodup &&
    t.keys.all (fun key => t.has key.columns) &&
    t.foreignKeys.all (fun fk => t.has fk.columns && fk.columns.length = fk.references.length) &&
    decide ((t.keys.map Key.name ++ t.foreignKeys.map ForeignKey.name).Nodup)

def resolves (relations : List Relation) (fk : ForeignKey) : Bool :=
  relations.any fun r => r.table.name = fk.table && r.table.keyed fk.references

def agrees (columns : List String) (row other : Row) : Bool :=
  columns.all fun c => decide (row.lookup c = other.lookup c ∧ row.lookup c ≠ none)

/-- No two rows have a key in common. -/
def separates (columns : List String) (rows : List Row) : Bool :=
  decide (rows.Pairwise fun row other => agrees columns row other = false)

/-- What the index demands of the rows; the rows of a partial one are not told apart. -/
def Index.admits (i : Index) (rows : List Row) : Bool :=
  !i.unique || i.condition.isSome || separates i.columns rows

/-- The row may be added: its columns exist, the others may be null, and no key is taken. -/
def Relation.accepts (indexes : List Index) (row : Row) (r : Relation) : Bool :=
  r.table.has (row.map Prod.fst) &&
    r.table.columns.all (fun c => c.nullable || (row.lookup c.name).isSome) &&
    r.table.keys.all (fun key => separates key.columns (r.rows ++ [row])) &&
    indexes.all fun i => i.table ≠ r.table.name || i.admits (r.rows ++ [row])

def freshNames (db : Database) (names : List String) : Bool :=
  names.all fun name => !db.names.contains name

def Relation.refersTo (name : String) (r : Relation) : Bool :=
  r.table.foreignKeys.any fun fk => fk.table = name

def Relation.insert (table : String) (row : Row) (r : Relation) : Relation :=
  if r.table.name = table then { r with rows := r.rows ++ [row] } else r

def exec (db : Database) : Statement → Option Database
  | .createTable t =>
      if t.wellFormed && freshNames db t.relationNames &&
          t.foreignKeys.all (resolves (db.relations ++ [⟨t, []⟩])) then
        some { db with relations := db.relations ++ [⟨t, []⟩] }
      else none
  | .createIndex i =>
      if freshNames db [i.name] &&
          db.relations.any (fun r => r.table.name = i.table && r.table.has i.columns &&
            i.admits r.rows) then
        some { db with indexes := db.indexes ++ [i] }
      else none
  | .dropIndex name =>
      if db.indexes.any fun i => i.name = name then
        some { db with indexes := db.indexes.filter fun i => i.name ≠ name }
      else none
  | .dropTable name =>
      if db.tableNames.contains name &&
          db.relations.all (fun r => r.table.name = name || !r.refersTo name) then
        some ⟨db.relations.filter fun r => r.table.name ≠ name,
          db.indexes.filter fun i => i.table ≠ name⟩
      else none
  | .insert table row =>
      if db.relations.any fun r => r.table.name = table && r.accepts db.indexes row then
        some { db with relations := db.relations.map (Relation.insert table row) }
      else none

def run (db : Database) (script : List Statement) : Option Database := script.foldlM exec db

/-- The statement that takes back a creation. -/
def undo : Statement → Option Statement
  | .createTable t => some (.dropTable t.name)
  | .createIndex i => some (.dropIndex i.name)
  | _ => none

def inverse (script : List Statement) : List Statement := script.reverse.filterMap undo

def touched : Statement → List String
  | .createTable t => t.relationNames
  | .createIndex i => [i.name]
  | .insert table _ => [table]
  | .dropIndex name | .dropTable name => [name]

/-- It creates something, or adds a row. -/
def Additive : Statement → Bool
  | .createTable _ | .createIndex _ | .insert _ _ => true
  | _ => false

structure Closed (db : Database) : Prop where
  indexes : ∀ i ∈ db.indexes, i.table ∈ db.tableNames
  foreignKeys : ∀ r ∈ db.relations, ∀ fk ∈ r.table.foreignKeys, fk.table ∈ db.tableNames

section Equations

variable {db db' : Database} {st : Statement} {script more : List Statement}

theorem run_cons (db : Database) (st : Statement) (script : List Statement) :
    run db (st :: script) = (exec db st).bind fun db' => run db' script := rfl

theorem run_append (db : Database) (script more : List Statement) :
    run db (script ++ more) = (run db script).bind fun db' => run db' more := by
  unfold run
  rw [List.foldlM_append]
  rfl

theorem createTable_eq_some {t : Table} (h : exec db (.createTable t) = some db') :
    t.wellFormed = true ∧ freshNames db t.relationNames = true ∧
      t.foreignKeys.all (resolves (db.relations ++ [⟨t, []⟩])) = true ∧
      db' = { db with relations := db.relations ++ [⟨t, []⟩] } := by
  simp only [exec] at h
  split_ifs at h with hchecks
  simp only [Bool.and_eq_true] at hchecks
  exact ⟨hchecks.1.1, hchecks.1.2, hchecks.2, (Option.some.inj h).symm⟩

theorem createIndex_eq_some {i : Index} (h : exec db (.createIndex i) = some db') :
    freshNames db [i.name] = true ∧
      (db.relations.any fun r => r.table.name = i.table && r.table.has i.columns &&
        i.admits r.rows) = true ∧
      db' = { db with indexes := db.indexes ++ [i] } := by
  simp only [exec] at h
  split_ifs at h with hchecks
  simp only [Bool.and_eq_true] at hchecks
  exact ⟨hchecks.1, hchecks.2, (Option.some.inj h).symm⟩

theorem insert_eq_some {table : String} {row : Row}
    (h : exec db (.insert table row) = some db') :
    (db.relations.any fun r => r.table.name = table && r.accepts db.indexes row) = true ∧
      db' = { db with relations := db.relations.map (Relation.insert table row) } := by
  simp only [exec] at h
  split_ifs at h with hany
  exact ⟨hany, (Option.some.inj h).symm⟩

theorem freshNames_iff {names : List String} :
    freshNames db names = true ↔ ∀ name ∈ names, name ∉ db.names := by
  simp [freshNames]

theorem mem_names {name : String} :
    name ∈ db.names ↔ (∃ r ∈ db.relations, name ∈ r.table.relationNames) ∨
      ∃ i ∈ db.indexes, i.name = name := by
  simp [Database.names]

theorem name_mem_names {r : Relation} (h : r ∈ db.relations) : r.table.name ∈ db.names :=
  mem_names.mpr (.inl ⟨r, h, List.mem_cons_self⟩)

theorem mem_names_of_mem_tableNames {name : String} (h : name ∈ db.tableNames) :
    name ∈ db.names := by
  obtain ⟨r, hr, rfl⟩ := List.mem_map.mp h
  exact name_mem_names hr

end Equations

/-! ## The frame -/

section Frame

variable {db part part' : Database} {st : Statement} {script : List Statement}

theorem freshNames_append {names : List String} (hdb : ∀ name ∈ names, name ∉ db.names)
    (hpart : freshNames part names = true) : freshNames (db.append part) names = true := by
  rw [freshNames_iff] at hpart ⊢
  intro name hname hmem
  rcases mem_names.mp hmem with ⟨r, hr, hnames⟩ | ⟨i, hi, hnames⟩
  · rcases List.mem_append.mp hr with hr | hr
    · exact hdb name hname (mem_names.mpr (.inl ⟨r, hr, hnames⟩))
    · exact hpart name hname (mem_names.mpr (.inl ⟨r, hr, hnames⟩))
  · rcases List.mem_append.mp hi with hi | hi
    · exact hdb name hname (mem_names.mpr (.inr ⟨i, hi, hnames⟩))
    · exact hpart name hname (mem_names.mpr (.inr ⟨i, hi, hnames⟩))

theorem any_append_left {relations more : List Relation} {p : Relation → Bool}
    (h : more.any p = true) : (relations ++ more).any p = true := by
  rw [List.any_append, h, Bool.or_true]

theorem map_insert_of_fresh {table : String} {row : Row} (h : table ∉ db.names) :
    db.relations.map (Relation.insert table row) = db.relations := by
  refine (List.map_congr_left fun r hr => ?_).trans (List.map_id _)
  rw [Relation.insert, if_neg]
  · rfl
  · rintro rfl
    exact h (name_mem_names hr)

theorem accepts_append (hclosed : Closed db) {row : Row} {r : Relation}
    (hname : r.table.name ∉ db.names) (h : r.accepts part.indexes row = true) :
    r.accepts (db.append part).indexes row = true := by
  simp only [Relation.accepts, Bool.and_eq_true] at h ⊢
  refine ⟨h.1, ?_⟩
  change (db.indexes ++ part.indexes).all _ = true
  rw [List.all_append, h.2, Bool.and_true, List.all_eq_true]
  intro i hi
  rw [Bool.or_eq_true, decide_eq_true_eq]
  refine .inl fun hsame => hname ?_
  rw [← hsame]
  exact mem_names_of_mem_tableNames (hclosed.indexes i hi)

/-- A statement does to the whole what it does to a part. -/
theorem exec_frame (hclosed : Closed db) (hadditive : Additive st = true)
    (hdisjoint : ∀ name ∈ touched st, name ∉ db.names) (h : exec part st = some part') :
    exec (db.append part) st = some (db.append part') := by
  cases st with
  | createTable t =>
      obtain ⟨hwell, hfresh, hresolves, rfl⟩ := createTable_eq_some h
      have hmore : t.foreignKeys.all
          (resolves ((db.append part).relations ++ [⟨t, []⟩])) = true := by
        rw [List.all_eq_true] at hresolves ⊢
        intro fk hfk
        have hpart := hresolves fk hfk
        unfold resolves at hpart ⊢
        rw [Database.append, List.append_assoc]
        exact any_append_left hpart
      rw [exec, if_pos]
      · simp [Database.append]
      · simp only [Bool.and_eq_true]
        exact ⟨⟨hwell, freshNames_append hdisjoint hfresh⟩, hmore⟩
  | createIndex i =>
      obtain ⟨hfresh, htable, rfl⟩ := createIndex_eq_some h
      rw [exec, if_pos]
      · simp [Database.append]
      · simp only [Bool.and_eq_true]
        exact ⟨freshNames_append hdisjoint hfresh, any_append_left htable⟩
  | insert table row =>
      obtain ⟨htable, rfl⟩ := insert_eq_some h
      have hfresh : table ∉ db.names := hdisjoint table List.mem_cons_self
      have hany : ((db.append part).relations.any fun r =>
          r.table.name = table && r.accepts (db.append part).indexes row) = true := by
        refine any_append_left ?_
        rw [List.any_eq_true] at htable ⊢
        obtain ⟨r, hr, haccepts⟩ := htable
        rw [Bool.and_eq_true, decide_eq_true_eq] at haccepts
        obtain ⟨rfl, haccepts⟩ := haccepts
        refine ⟨r, hr, ?_⟩
        rw [Bool.and_eq_true]
        exact ⟨by simp, accepts_append hclosed hfresh haccepts⟩
      rw [exec, if_pos hany]
      simp only [Database.append, List.map_append, map_insert_of_fresh hfresh]
  | dropIndex name => cases hadditive
  | dropTable name => cases hadditive

theorem run_frame (hclosed : Closed db) (hadditive : ∀ st ∈ script, Additive st = true)
    (hdisjoint : ∀ st ∈ script, ∀ name ∈ touched st, name ∉ db.names)
    (h : run part script = some part') :
    run (db.append part) script = some (db.append part') := by
  induction script generalizing part with
  | nil =>
      obtain rfl := Option.some.inj h
      rfl
  | cons st script ih =>
      rw [run_cons, Option.bind_eq_some_iff] at h
      obtain ⟨mid, hfirst, hrest⟩ := h
      rw [run_cons, exec_frame hclosed (hadditive st List.mem_cons_self)
        (hdisjoint st List.mem_cons_self) hfirst]
      exact ih (fun st hst => hadditive st (List.mem_cons_of_mem _ hst))
        (fun st hst => hdisjoint st (List.mem_cons_of_mem _ hst)) hrest

end Frame

/-! ## Taking back -/

/-- The same tables and indexes; rows may have come and gone. -/
structure SameShape (db db' : Database) : Prop where
  tables : db'.relations.map Relation.table = db.relations.map Relation.table
  indexes : db'.indexes = db.indexes

section Inverse

variable {db db' mid d d' : Database} {st : Statement} {script : List Statement}

theorem SameShape.refl (db : Database) : SameShape db db := ⟨rfl, rfl⟩

theorem SameShape.trans (h : SameShape db mid) (h' : SameShape mid d) : SameShape db d :=
  ⟨h'.tables.trans h.tables, h'.indexes.trans h.indexes⟩

theorem sameShape_insert {table : String} {row : Row}
    (h : exec db (.insert table row) = some db') : SameShape db db' := by
  obtain ⟨-, rfl⟩ := insert_eq_some h
  refine ⟨?_, rfl⟩
  rw [List.map_map]
  refine List.map_congr_left fun r _ => ?_
  simp only [Function.comp_apply, Relation.insert]
  split_ifs
  · rfl
  · rfl

/-- Rows are added without a change of the schema. -/
theorem sameShape_run (hinserts : ∀ st ∈ script, ∃ table row, st = .insert table row)
    (h : run db script = some d) : SameShape db d := by
  induction script generalizing db with
  | nil =>
      obtain rfl := Option.some.inj h
      exact .refl db
  | cons st script ih =>
      rw [run_cons, Option.bind_eq_some_iff] at h
      obtain ⟨mid, hfirst, hrest⟩ := h
      obtain ⟨table, row, rfl⟩ := hinserts st List.mem_cons_self
      exact (sameShape_insert hfirst).trans
        (ih (fun st' hst' => hinserts st' (List.mem_cons_of_mem _ hst')) hrest)

theorem not_mem_of_freshNames {names : List String} {name : String}
    (h : freshNames db names = true) (hname : name ∈ names) : name ∉ db.names :=
  freshNames_iff.mp h name hname

theorem Closed.createTable {t : Table} (hclosed : Closed db)
    (h : exec db (.createTable t) = some db') : Closed db' := by
  obtain ⟨-, -, hresolves, rfl⟩ := createTable_eq_some h
  have hmono : ∀ name ∈ db.tableNames,
      name ∈ (⟨db.relations ++ [⟨t, []⟩], db.indexes⟩ : Database).tableNames := by
    intro name hname
    simp only [Database.tableNames, List.map_append, List.mem_append]
    exact .inl hname
  refine ⟨fun i hi => hmono _ (hclosed.indexes i hi), fun r hr fk hfk => ?_⟩
  rcases List.mem_append.mp hr with hr | hr
  · exact hmono _ (hclosed.foreignKeys r hr fk hfk)
  · obtain rfl := List.mem_singleton.mp hr
    have hfk' := List.all_eq_true.mp hresolves fk hfk
    simp only [resolves, List.any_eq_true, Bool.and_eq_true, decide_eq_true_eq] at hfk'
    obtain ⟨r, hr, hname, -⟩ := hfk'
    exact List.mem_map.mpr ⟨r, hr, hname⟩

theorem Closed.createIndex {i : Index} (hclosed : Closed db)
    (h : exec db (.createIndex i) = some db') : Closed db' := by
  obtain ⟨-, htable, rfl⟩ := createIndex_eq_some h
  refine ⟨fun j hj => ?_, hclosed.foreignKeys⟩
  rcases List.mem_append.mp hj with hj | hj
  · exact hclosed.indexes j hj
  · obtain rfl := List.mem_singleton.mp hj
    simp only [List.any_eq_true, Bool.and_eq_true, decide_eq_true_eq] at htable
    obtain ⟨r, hr, ⟨hname, -⟩, -⟩ := htable
    exact List.mem_map.mpr ⟨r, hr, hname⟩

/-- What the relations of `db` have become. -/
def restored (db d' : Database) : Database :=
  ⟨d'.relations.take db.relations.length, db.indexes⟩

theorem sameShape_restored (h : (d'.relations.take db.relations.length).map Relation.table =
    db.relations.map Relation.table) : SameShape db (restored db d') :=
  ⟨h, rfl⟩

/-- The relations before the last one, which holds the new table. -/
theorem split_createTable {t : Table}
    (hshape : SameShape ⟨db.relations ++ [⟨t, []⟩], db.indexes⟩ d') :
    ∃ rs r, d'.relations = rs ++ [r] ∧ rs.map Relation.table = db.relations.map Relation.table ∧
      r.table = t := by
  have htables := hshape.tables
  rw [List.map_append, List.map_singleton, List.map_eq_append_iff] at htables
  obtain ⟨rs, last, hsplit, hrs, hlast⟩ := htables
  obtain ⟨r, rfl, hr⟩ := List.map_eq_singleton_iff.mp hlast
  exact ⟨rs, r, hsplit, hrs, hr⟩

theorem dropTable_createTable {t : Table} (hclosed : Closed db)
    (h : exec db (.createTable t) = some mid) (hshape : SameShape mid d') :
    exec d' (.dropTable t.name) = some (restored db d') ∧ SameShape db (restored db d') := by
  obtain ⟨-, hfresh, -, rfl⟩ := createTable_eq_some h
  have hnew : t.name ∉ db.names := not_mem_of_freshNames hfresh List.mem_cons_self
  have hnotable : t.name ∉ db.tableNames := fun hmem => hnew (mem_names_of_mem_tableNames hmem)
  obtain ⟨rs, r, hsplit, hrs, rfl⟩ := split_createTable hshape
  have hlength : rs.length = db.relations.length := by
    have hlengths := congrArg List.length hrs
    rwa [List.length_map, List.length_map] at hlengths
  have htake : d'.relations.take db.relations.length = rs := by
    rw [hsplit, ← hlength, List.take_left]
  have hold : ∀ r' ∈ rs, r'.table.name ≠ r.table.name ∧ r'.refersTo r.table.name = false := by
    intro r' hr'
    have hmem : r'.table ∈ db.relations.map Relation.table := hrs ▸ List.mem_map_of_mem hr'
    obtain ⟨r'', hr'', htable⟩ := List.mem_map.mp hmem
    rw [← htable]
    refine ⟨fun hname => hnotable (List.mem_map.mpr ⟨r'', hr'', hname⟩), ?_⟩
    rw [Relation.refersTo, ← htable, List.any_eq_false]
    intro fk hfk hsame
    rw [decide_eq_true_eq] at hsame
    exact hnotable (hsame ▸ hclosed.foreignKeys r'' hr'' fk hfk)
  have hrelations : d'.relations.filter (fun r' => r'.table.name ≠ r.table.name) = rs := by
    rw [hsplit, List.filter_append, List.filter_eq_self.mpr fun r' hr' => by
      simpa using (hold r' hr').1]
    simp
  have hindexes : d'.indexes.filter (fun i => i.table ≠ r.table.name) = db.indexes := by
    rw [hshape.indexes]
    refine List.filter_eq_self.mpr fun i hi => ?_
    rw [decide_eq_true_eq]
    exact fun hsame => hnotable (hsame ▸ hclosed.indexes i hi)
  have hchecks : (d'.tableNames.contains r.table.name && d'.relations.all fun r' =>
      r'.table.name = r.table.name || !r'.refersTo r.table.name) = true := by
    rw [Bool.and_eq_true, List.all_eq_true, List.contains_iff_mem]
    refine ⟨List.mem_map.mpr ⟨r, by simp [hsplit], rfl⟩, fun r' hr' => ?_⟩
    rw [hsplit] at hr'
    rcases List.mem_append.mp hr' with hr' | hr'
    · simp [(hold r' hr').2]
    · simp [List.mem_singleton.mp hr']
  refine ⟨?_, sameShape_restored (by rw [htake, hrs])⟩
  rw [exec, if_pos hchecks, hrelations, hindexes, restored, htake]

theorem dropIndex_createIndex {i : Index} (h : exec db (.createIndex i) = some mid)
    (hshape : SameShape mid d') :
    exec d' (.dropIndex i.name) = some (restored db d') ∧ SameShape db (restored db d') := by
  obtain ⟨hfresh, -, rfl⟩ := createIndex_eq_some h
  have hnew : i.name ∉ db.names := not_mem_of_freshNames hfresh List.mem_cons_self
  have hlength : d'.relations.length = db.relations.length := by
    have hlengths := congrArg List.length hshape.tables
    rwa [List.length_map, List.length_map] at hlengths
  have htake : d'.relations.take db.relations.length = d'.relations := by
    rw [← hlength, List.take_length]
  have hindexes : d'.indexes.filter (fun j => j.name ≠ i.name) = db.indexes := by
    rw [hshape.indexes, List.filter_append, List.filter_eq_self.mpr]
    · simp
    · intro j hj
      rw [decide_eq_true_eq]
      exact fun hsame => hnew (mem_names.mpr (.inr ⟨j, hj, hsame⟩))
  have hany : (d'.indexes.any fun j => j.name = i.name) = true := by
    rw [hshape.indexes]
    simp
  refine ⟨?_, sameShape_restored (by rw [htake]; exact hshape.tables)⟩
  rw [exec, if_pos hany, hindexes, restored, htake]

/-- One creation and its inverse, with rows stored in between. -/
theorem undo_exec {back : Statement} (hclosed : Closed db) (hback : undo st = some back)
    (h : exec db st = some mid) :
    Closed mid ∧ ∀ d', SameShape mid d' →
      exec d' back = some (restored db d') ∧ SameShape db (restored db d') := by
  cases st with
  | createTable t =>
      obtain rfl := Option.some.inj hback
      exact ⟨hclosed.createTable h, fun d' hshape => dropTable_createTable hclosed h hshape⟩
  | createIndex i =>
      obtain rfl := Option.some.inj hback
      exact ⟨hclosed.createIndex h, fun d' hshape => dropIndex_createIndex h hshape⟩
  | _ => cases hback

theorem length_le_of_exec {back : Statement} (hback : undo st = some back)
    (h : exec db st = some mid) : db.relations.length ≤ mid.relations.length := by
  cases st with
  | createTable t =>
      obtain ⟨-, -, -, rfl⟩ := createTable_eq_some h
      simp
  | createIndex i =>
      obtain ⟨-, -, rfl⟩ := createIndex_eq_some h
      exact Nat.le_refl _
  | _ => cases hback

/-- The inverse of a script that only creates leaves the database as it was before, with
the rows that its tables have now. -/
theorem run_inverse (hclosed : Closed db) (hcreates : ∀ st ∈ script, (undo st).isSome = true)
    (h : run db script = some d) (hshape : SameShape d d') :
    run d' (inverse script) = some (restored db d') ∧ SameShape db (restored db d') := by
  induction script generalizing db with
  | nil =>
      obtain rfl := Option.some.inj h
      have hlength := congrArg List.length hshape.tables
      rw [List.length_map, List.length_map] at hlength
      have hsame : restored db d' = d' := by
        rw [restored, ← hlength, List.take_length, ← hshape.indexes]
      rw [hsame]
      exact ⟨rfl, hshape⟩
  | cons st script ih =>
      rw [run_cons, Option.bind_eq_some_iff] at h
      obtain ⟨mid, hfirst, hrest⟩ := h
      obtain ⟨back, hback⟩ := Option.isSome_iff_exists.mp (hcreates st List.mem_cons_self)
      obtain ⟨hclosed', hundo⟩ := undo_exec hclosed hback hfirst
      obtain ⟨hrun, hshape'⟩ :=
        ih hclosed' (fun st' hst' => hcreates st' (List.mem_cons_of_mem _ hst')) hrest
      obtain ⟨hexec, hlast⟩ := hundo _ hshape'
      have htwice : restored db (restored mid d') = restored db d' := by
        rw [restored, restored, restored, List.take_take,
          Nat.min_eq_left (length_le_of_exec hback hfirst)]
      rw [htwice] at hexec hlast
      refine ⟨?_, hlast⟩
      rw [inverse, List.reverse_cons, List.filterMap_append, List.filterMap_cons, hback, run_append,
        ← inverse, hrun]
      change run (restored mid d') [back] = some (restored db d')
      rw [run_cons, hexec]
      rfl

end Inverse

end BackendProdReady.Lib.Ddl
