import Mathlib.Data.List.Basic
import Mathlib.Tactic.Common

/-!
# Tasks of an event loop

Tasks are numbered in the order of their arrival, and a list holds the phase of each.
A step moves one task to another phase or appends one; the number of tasks in a class
of phases changes accordingly.
-/

namespace BackendProdReady.Lib.Tasks

variable {Phase : Type*}

theorem countP_set_add (p : Phase → Bool) {tasks : List Phase} {i : Nat} {old : Phase}
    (hi : tasks[i]? = some old) (new : Phase) :
    (tasks.set i new).countP p + (if p old then 1 else 0) =
      tasks.countP p + (if p new then 1 else 0) := by
  obtain ⟨hlt, hget⟩ := List.getElem?_eq_some_iff.mp hi
  have hpos : (if p old then 1 else 0) ≤ tasks.countP p := by
    split_ifs with hp
    · exact List.one_le_countP_iff.mpr ⟨old, hget ▸ List.getElem_mem hlt, hp⟩
    · omega
  rw [List.countP_set hlt, hget]
  omega

theorem countP_append_singleton (p : Phase → Bool) (tasks : List Phase) (new : Phase) :
    (tasks ++ [new]).countP p = tasks.countP p + (if p new then 1 else 0) := by
  rw [List.countP_append, List.countP_singleton]

theorem getElem?_set_eq_some_iff {tasks : List Phase} {i j : Nat} {old new phase : Phase}
    (hi : tasks[i]? = some old) :
    (tasks.set i new)[j]? = some phase ↔
      if j = i then phase = new else tasks[j]? = some phase := by
  have hlt := (List.getElem?_eq_some_iff.mp hi).1
  split_ifs with hj
  · rw [hj, List.getElem?_set_self hlt, Option.some_inj, eq_comm]
  · rw [List.getElem?_set_ne (Ne.symm hj)]

theorem getElem?_append_singleton_iff {tasks : List Phase} {j : Nat} {new phase : Phase} :
    (tasks ++ [new])[j]? = some phase ↔
      tasks[j]? = some phase ∨ j = tasks.length ∧ phase = new := by
  rcases Nat.lt_trichotomy j tasks.length with hlt | rfl | hgt
  · rw [List.getElem?_append_left hlt]
    simp [Nat.ne_of_lt hlt]
  · simp [eq_comm]
  · rw [List.getElem?_eq_none (by simp; omega), List.getElem?_eq_none (by omega)]
    simp [Nat.ne_of_gt hgt]

end BackendProdReady.Lib.Tasks
