import Mathlib.Logic.Function.Basic
import Mathlib.Tactic.Common

/-!
# Contexts of tasks

A task starts with a copy of the context of the task that spawns it, and what it sets
afterwards stays its own.  When every task that sets its context does so before it spawns
another one, a context is the one that the nearest task above it has set.
-/

namespace BackendProdReady.Lib.TaskContexts

/-- The numbers of the spawns that lead to a task, the last one first; `[]` is the main
program. -/
abbrev TaskId := List Nat

/-- The context of every task there is, and how many tasks each has spawned. -/
structure World (V : Type) where
  contexts : TaskId → Option V
  spawned : TaskId → Nat
  /-- Those are numbered in their order. -/
  numbered : ∀ k t, (contexts (k :: t)).isSome → k < spawned t
  closed : ∀ t, 0 < spawned t → (contexts t).isSome

variable {V : Type}

namespace World

def main (v : V) : World V where
  contexts := Function.update (fun _ => none) [] (some v)
  spawned := fun _ => 0
  numbered k t h := by
    rw [Function.update_of_ne (List.cons_ne_nil k t)] at h
    cases h
  closed t h := absurd h (Nat.lt_irrefl 0)

@[simp] theorem contexts_main (v : V) :
    (main v).contexts = Function.update (fun _ => none) [] (some v) := rfl

theorem isSome_update {w : World V} {t : TaskId} (v : V) {u : TaskId} :
    (Function.update w.contexts t (some v) u).isSome ↔ u = t ∨ (w.contexts u).isSome := by
  by_cases hu : u = t
  · rw [hu, Function.update_self]
    simp
  · rw [Function.update_of_ne hu]
    simp [hu]

def next (w : World V) (parent : TaskId) : TaskId := w.spawned parent :: parent

theorem contexts_next (w : World V) (parent : TaskId) : w.contexts (w.next parent) = none := by
  cases hnext : w.contexts (w.next parent) with
  | none => rfl
  | some v =>
      have hlt := w.numbered (w.spawned parent) parent (by rw [← next, hnext]; rfl)
      omega

def spawn (w : World V) (parent : TaskId) : Option (World V) :=
  match hparent : w.contexts parent with
  | none => none
  | some v =>
      some
        { contexts := Function.update w.contexts (w.next parent) (some v)
          spawned := Function.update w.spawned parent (w.spawned parent + 1)
          numbered := fun k t h => by
            rw [isSome_update] at h
            by_cases ht : t = parent
            · rw [ht, Function.update_self]
              rcases h with heq | hold
              · have hk : k = w.spawned parent := (List.cons.inj heq).1
                omega
              · have hlt := w.numbered k t hold
                rw [ht] at hlt
                omega
            · rw [Function.update_of_ne ht]
              exact w.numbered k t (h.resolve_left fun heq => ht (List.cons.inj heq).2)
          closed := fun t h => by
            rw [isSome_update]
            by_cases ht : t = parent
            · rw [ht, hparent]
              exact .inr rfl
            · rw [Function.update_of_ne ht] at h
              exact .inr (w.closed t h) }

def set (w : World V) (t : TaskId) (v : V) : Option (World V) :=
  if ht : (w.contexts t).isSome then
    some
      { contexts := Function.update w.contexts t (some v)
        spawned := w.spawned
        numbered := fun k u h => by
          rw [isSome_update] at h
          rcases h with heq | hold
          · exact w.numbered k u (heq ▸ ht)
          · exact w.numbered k u hold
        closed := fun u h => by
          rw [isSome_update]
          exact .inr (w.closed u h) }
  else none

theorem spawn_cases {w w' : World V} {parent : TaskId} (h : w.spawn parent = some w') :
    ∃ v, w.contexts parent = some v ∧
      w'.contexts = Function.update w.contexts (w.next parent) (some v) := by
  unfold spawn at h
  split at h
  · cases h
  · rename_i v hparent
    rw [← Option.some.inj h]
    exact ⟨v, hparent, rfl⟩

theorem set_cases {w w' : World V} {t : TaskId} {v : V} (h : w.set t v = some w') :
    (w.contexts t).isSome ∧ w'.contexts = Function.update w.contexts t (some v) := by
  unfold set at h
  split_ifs at h with ht
  rw [← Option.some.inj h]
  exact ⟨ht, rfl⟩

/-- Below a task that has spawned no other one there is none. -/
theorem eq_of_suffix {w : World V} {t u : TaskId} (hleaf : w.spawned t = 0)
    (hu : (w.contexts u).isSome) (hsuffix : t <:+ u) : u = t := by
  induction u with
  | nil => exact (List.suffix_nil.mp hsuffix).symm
  | cons k u ih =>
      rcases List.suffix_cons_iff.mp hsuffix with heq | hshorter
      · exact heq.symm
      · have hlt := w.numbered k u hu
        have hparent := ih (w.closed u (by omega)) hshorter
        rw [hparent, hleaf] at hlt
        omega

end World

/-! ## Inheritance -/

/-- What the nearest task above has set. -/
def inherited (default : V) (sets : TaskId → Option V) : TaskId → V
  | [] => (sets []).getD default
  | k :: t => (sets (k :: t)).getD (inherited default sets t)

section Inherited

variable {default : V} {sets : TaskId → Option V} {t u : TaskId} {v : V}

theorem inherited_of_set (h : sets t = some v) : inherited default sets t = v := by
  cases t with
  | nil => rw [inherited, h, Option.getD_some]
  | cons k t => rw [inherited, h, Option.getD_some]

theorem inherited_cons_of_unset {k : Nat} (h : sets (k :: t) = none) :
    inherited default sets (k :: t) = inherited default sets t := by
  rw [inherited, h, Option.getD_none]

theorem inherited_of_unset (h : ∀ q, q <:+ t → sets q = none) :
    inherited default sets t = default := by
  induction t with
  | nil => rw [inherited, h [] List.suffix_rfl, Option.getD_none]
  | cons k t ih =>
      rw [inherited_cons_of_unset (h _ List.suffix_rfl)]
      exact ih fun q hq => h q (List.suffix_cons_iff.mpr (.inr hq))

theorem inherited_of_forall {P : V → Prop} (hdefault : P default)
    (hsets : ∀ t v, sets t = some v → P v) (t : TaskId) : P (inherited default sets t) := by
  induction t with
  | nil =>
      cases h : sets [] with
      | none => rwa [inherited, h, Option.getD_none]
      | some v => exact inherited_of_set h ▸ hsets [] v h
  | cons k t ih =>
      cases h : sets (k :: t) with
      | none => rwa [inherited_cons_of_unset h]
      | some v => exact inherited_of_set h ▸ hsets (k :: t) v h

/-- `r` is the nearest task above `t` that has set its context. -/
structure Nearest (sets : TaskId → Option V) (r t : TaskId) : Prop where
  above : r <:+ t
  nearest : ∀ q, r <:+ q → q <:+ t → q ≠ r → sets q = none

theorem inherited_of_nearest {r : TaskId} (hr : sets r = some v) (h : Nearest sets r t) :
    inherited default sets t = v := by
  induction t with
  | nil =>
      obtain rfl := List.suffix_nil.mp h.above
      exact inherited_of_set hr
  | cons k t ih =>
      rcases List.suffix_cons_iff.mp h.above with heq | habove
      · exact inherited_of_set (heq ▸ hr)
      · have hne : k :: t ≠ r := by
          intro heq
          have hlength := habove.length_le
          rw [← heq, List.length_cons] at hlength
          omega
        rw [inherited_cons_of_unset (h.nearest _ h.above List.suffix_rfl hne)]
        exact ih ⟨habove, fun q hrq hqt => h.nearest q hrq (List.suffix_cons_iff.mpr (.inr hqt))⟩

theorem inherited_update_of_not_suffix (h : ¬ t <:+ u) :
    inherited default (Function.update sets t (some v)) u = inherited default sets u := by
  induction u with
  | nil =>
      have hne : [] ≠ t := fun heq => h (heq ▸ List.suffix_rfl)
      rw [inherited, inherited, Function.update_of_ne hne]
  | cons k u ih =>
      have hne : k :: u ≠ t := fun heq => h (heq ▸ List.suffix_rfl)
      rw [inherited, inherited, Function.update_of_ne hne,
        ih fun hshorter => h (List.suffix_cons_iff.mpr (.inr hshorter))]

end Inherited

/-- Every context is what the nearest task above has set. -/
structure Inherits (default : V) (sets : TaskId → Option V) (w : World V) : Prop where
  contexts : ∀ t v, w.contexts t = some v → v = inherited default sets t
  /-- Only a task that is there has set anything. -/
  sets : ∀ t, w.contexts t = none → sets t = none

section Steps

variable {default : V} {sets : TaskId → Option V} {w w' : World V} {t : TaskId} {v : V}

theorem inherits_main : Inherits default (fun _ => none) (World.main default) where
  contexts t v h := by
    rw [inherited_of_unset fun _ _ => rfl]
    by_cases ht : t = []
    · rw [ht] at h
      exact (Option.some.inj h).symm
    · rw [World.contexts_main, Function.update_of_ne ht] at h
      cases h
  sets _ _ := rfl

theorem Inherits.spawn (h : Inherits default sets w) (hspawn : w.spawn t = some w') :
    Inherits default sets w' := by
  obtain ⟨v, hparent, hcontexts⟩ := World.spawn_cases hspawn
  constructor
  · intro u x hu
    rw [hcontexts] at hu
    by_cases heq : u = w.next t
    · rw [heq, Function.update_self] at hu
      have hunset : sets (w.spawned t :: t) = none := h.sets _ (w.contexts_next t)
      rw [heq, World.next, inherited_cons_of_unset hunset, ← Option.some.inj hu]
      exact h.contexts t v hparent
    · rw [Function.update_of_ne heq] at hu
      exact h.contexts u x hu
  · intro u hu
    rw [hcontexts] at hu
    have hne : u ≠ w.next t := by
      rintro rfl
      rw [Function.update_self] at hu
      cases hu
    rw [Function.update_of_ne hne] at hu
    exact h.sets u hu

/-- A task that has spawned no other one yet changes no context but its own. -/
theorem Inherits.set (h : Inherits default sets w) (hleaf : w.spawned t = 0)
    (hset : w.set t v = some w') : Inherits default (Function.update sets t (some v)) w' := by
  obtain ⟨-, hcontexts⟩ := World.set_cases hset
  constructor
  · intro u x hu
    rw [hcontexts] at hu
    by_cases heq : u = t
    · rw [heq, Function.update_self] at hu
      rw [heq, ← Option.some.inj hu, inherited_of_set (Function.update_self _ _ _)]
    · rw [Function.update_of_ne heq] at hu
      have hbeside : ¬ t <:+ u := fun hsuffix =>
        heq (World.eq_of_suffix hleaf (Option.isSome_iff_exists.mpr ⟨x, hu⟩) hsuffix)
      rw [inherited_update_of_not_suffix hbeside]
      exact h.contexts u x hu
  · intro u hu
    rw [hcontexts] at hu
    have hne : u ≠ t := by
      rintro rfl
      rw [Function.update_self] at hu
      cases hu
    rw [Function.update_of_ne hne] at hu ⊢
    exact h.sets u hu

end Steps

end BackendProdReady.Lib.TaskContexts
