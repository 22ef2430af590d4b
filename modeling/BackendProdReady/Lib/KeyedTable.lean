import Mathlib.Data.List.Nodup
import Mathlib.Tactic.Common

/-!
# Tables with a unique key

Rows of which no two have the same key, with inserting a row of a new key and
changing the row of a key.
-/

namespace BackendProdReady.Lib.KeyedTable

structure Table (ρ : Type) {ι : Type} (key : ρ → ι) where
  rows : List ρ
  unique : (rows.map key).Nodup

namespace Table

variable {ρ ι : Type} {key : ρ → ι}

theorem ext_rows {s t : Table ρ key} (h : s.rows = t.rows) : s = t := by
  cases s
  cases t
  congr

variable [DecidableEq ι]

def find (table : Table ρ key) (k : ι) : Option ρ := table.rows.find? fun row => key row = k

theorem find_eq_none_iff {table : Table ρ key} {k : ι} :
    table.find k = none ↔ ∀ row ∈ table.rows, key row ≠ k := by
  simp [find]

/-- Add a row of a new key. -/
def insert (table : Table ρ key) (row : ρ) (h : table.find (key row) = none) : Table ρ key where
  rows := table.rows ++ [row]
  unique := by
    rw [List.map_append, List.nodup_append]
    refine ⟨table.unique, List.nodup_singleton _, fun k hk l hl hsame => ?_⟩
    obtain ⟨old, hold, rfl⟩ := List.mem_map.mp hk
    rw [List.map_singleton, List.mem_singleton] at hl
    exact find_eq_none_iff.mp h old hold (hsame.trans hl)

def changed (table : Table ρ key) (k : ι) (change : ρ → ρ) : List ρ :=
  table.rows.map fun row => if key row = k then change row else row

/-- Change the row of a key; refused where two rows would have one key. -/
def update (table : Table ρ key) (k : ι) (change : ρ → ρ) : Option (Table ρ key) :=
  if unique : ((table.changed k change).map key).Nodup then some ⟨table.changed k change, unique⟩
  else none

theorem map_key_changed (table : Table ρ key) {k : ι} {change : ρ → ρ}
    (h : ∀ row ∈ table.rows, key row = k → key (change row) = k) :
    (table.changed k change).map key = table.rows.map key := by
  rw [changed, List.map_map, List.map_inj_left]
  intro row hrow
  rw [Function.comp_apply]
  split_ifs with hk
  · rw [h row hrow hk, hk]
  · rfl

/-- A change that keeps the key is not refused. -/
theorem update_eq_some (table : Table ρ key) {k : ι} {change : ρ → ρ}
    (h : ∀ row ∈ table.rows, key row = k → key (change row) = k) :
    ∃ table', table.update k change = some table' ∧ table'.rows = table.changed k change := by
  have hunique : ((table.changed k change).map key).Nodup := by
    rw [table.map_key_changed h]
    exact table.unique
  exact ⟨⟨_, hunique⟩, dif_pos hunique, rfl⟩

/-- A change of nothing leaves the rows as they are. -/
theorem changed_eq_self (table : Table ρ key) {k : ι} {change : ρ → ρ}
    (h : ∀ row ∈ table.rows, key row = k → change row = row) :
    table.changed k change = table.rows := by
  calc table.changed k change = table.rows.map id := by
        refine List.map_congr_left fun row hrow => ?_
        split_ifs with hk
        · exact h row hrow hk
        · rfl
    _ = table.rows := List.map_id _

theorem update_eq_self (table : Table ρ key) {k : ι} {change : ρ → ρ}
    (h : ∀ row ∈ table.rows, key row = k → change row = row) :
    table.update k change = some table := by
  have hkeeps : ∀ row ∈ table.rows, key row = k → key (change row) = k := by
    intro row hrow hk
    rw [h row hrow hk, hk]
  obtain ⟨table', hupdate, hrows⟩ := table.update_eq_some hkeeps
  rw [hupdate, ext_rows (hrows.trans (table.changed_eq_self h))]

/-- There is one row of a key that is there. -/
theorem filter_key_of_find {table : Table ρ key} {k : ι} {row : ρ}
    (h : table.find k = some row) : table.rows.filter (fun r => key r = k) = [row] := by
  obtain ⟨hk, before, after, hrows, hbefore⟩ := List.find?_eq_some_iff_append.mp h
  have hk : key row = k := of_decide_eq_true hk
  have hnodup := table.unique
  rw [hrows, List.map_append, List.map_cons] at hnodup
  have hafter : ∀ r ∈ after, key r ≠ k := by
    intro r hr hsame
    have hnot := (List.nodup_cons.mp (List.nodup_append.mp hnodup).2.1).1
    exact hnot (hk ▸ hsame ▸ List.mem_map_of_mem hr)
  have hnone : before.filter (fun r => key r = k) = [] := by
    rw [List.filter_eq_nil_iff]
    intro r hr
    simpa using hbefore r hr
  have hrest : after.filter (fun r => key r = k) = [] := by
    rw [List.filter_eq_nil_iff]
    intro r hr
    simpa using hafter r hr
  rw [hrows, List.filter_append, hnone, List.filter_cons_of_pos (by simpa using hk), hrest]
  rfl

theorem find_of_mem {table : Table ρ key} {row : ρ} (h : row ∈ table.rows) :
    table.find (key row) = some row := by
  cases hfind : table.find (key row) with
  | none => exact absurd rfl (find_eq_none_iff.mp hfind row h)
  | some other =>
      have hmem : row ∈ table.rows.filter (fun r => key r = key row) := by simp [h]
      rw [filter_key_of_find hfind, List.mem_singleton] at hmem
      rw [hmem]

theorem mem_of_find {table : Table ρ key} {k : ι} {row : ρ} (h : table.find k = some row) :
    row ∈ table.rows ∧ key row = k := by
  have hk := List.find?_some (p := fun row => decide (key row = k)) h
  exact ⟨List.mem_of_find?_eq_some h, of_decide_eq_true hk⟩

theorem find_insert_self (table : Table ρ key) (row : ρ) (h : table.find (key row) = none) :
    (table.insert row h).find (key row) = some row :=
  find_of_mem (List.mem_append_right _ (List.mem_singleton_self row))

theorem filter_ne_insert (table : Table ρ key) (row : ρ) (h : table.find (key row) = none) :
    (table.insert row h).rows.filter (fun r => key r ≠ key row) =
      table.rows.filter fun r => key r ≠ key row := by
  rw [insert, List.filter_append, List.filter_cons_of_neg (by simp), List.filter_nil,
    List.append_nil]

theorem find_changed {table table' : Table ρ key} {k : ι} {change : ρ → ρ} {row : ρ}
    (hrows : table'.rows = table.changed k change) (hfind : table.find k = some row)
    (hkey : key (change row) = k) : table'.find k = some (change row) := by
  obtain ⟨hmem, hk⟩ := mem_of_find hfind
  have hchanged : change row ∈ table'.rows := by
    rw [hrows]
    exact List.mem_map.mpr ⟨row, hmem, if_pos hk⟩
  have hfound := find_of_mem hchanged
  rwa [hkey] at hfound

/-- The rows of the other keys are unchanged, and in the same order. -/
theorem filter_ne_changed (table : Table ρ key) {k : ι} {change : ρ → ρ}
    (h : ∀ row ∈ table.rows, key row = k → key (change row) = k) :
    (table.changed k change).filter (fun r => key r ≠ k) =
      table.rows.filter fun r => key r ≠ k := by
  unfold changed
  generalize table.rows = rows at h ⊢
  induction rows with
  | nil => rfl
  | cons row rows ih =>
      have ih := ih fun r hr => h r (List.mem_cons_of_mem _ hr)
      rw [List.map_cons]
      by_cases hk : key row = k
      · have hchange := h row List.mem_cons_self hk
        rw [if_pos hk, List.filter_cons_of_neg (by simpa using hchange),
          List.filter_cons_of_neg (by simpa using hk), ih]
      · rw [if_neg hk, List.filter_cons_of_pos (by simpa using hk),
          List.filter_cons_of_pos (by simpa using hk), ih]

end Table

end BackendProdReady.Lib.KeyedTable
