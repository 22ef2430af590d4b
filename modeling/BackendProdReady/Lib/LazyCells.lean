import BackendProdReady.Lib.Runs
import BackendProdReady.Lib.Tasks
import Mathlib.Data.List.Nodup
import Mathlib.Logic.Function.Basic

/-!
# Double-checked locking

A family of cells is filled on first use.  A thread looks at its cell, and if it is empty
takes a lock, looks again, creates a value and stores it; in the end it reads the cell.
Each of these steps is a step of its own here, and threads interleave between any two.
-/

namespace BackendProdReady.Lib.LazyCells

open BackendProdReady.Lib.Runs
open BackendProdReady.Lib.Tasks

variable {κ β : Type}

/-! ## The protocol -/

inductive Phase (κ β : Type)
  | checking (k : κ)
  | waiting (k : κ)
  | rechecking (k : κ)
  | creating (k : κ)
  | storing (k : κ) (v : β)
  | releasing (k : κ)
  | reading (k : κ)
  | returned (k : κ) (v : β)
  /-- The read found the cell empty. -/
  | missing (k : κ)
  /-- The constructor raised; the lock is still held. -/
  | raising
  | raised

/-- Between taking the lock and giving it back. -/
def Phase.holds : Phase κ β → Bool
  | rechecking _ | creating _ | storing _ _ | releasing _ | raising => true
  | _ => false

def Phase.finished : Phase κ β → Bool
  | returned _ _ | missing _ | raised => true
  | _ => false

structure Cells (κ β : Type) where
  value : κ → Option β
  holder : Option Nat
  /-- The values that were created, and for which cell. -/
  created : List (κ × β)
  threads : List (Phase κ β)

inductive Event (κ β : Type)
  | call (k : κ)
  | proceed (i : Nat)
  | create (i : Nat) (v : Option β)

namespace Cells

def empty : Cells κ β := ⟨fun _ => none, none, [], []⟩

def call (c : Cells κ β) (k : κ) : Cells κ β := { c with threads := c.threads ++ [.checking k] }

/-- A thread goes on, which may take the lock or give it back. -/
def move (c : Cells κ β) (i : Nat) (holder : Option Nat) (phase : Phase κ β) : Cells κ β :=
  { c with holder := holder, threads := c.threads.set i phase }

def store [DecidableEq κ] (c : Cells κ β) (k : κ) (v : β) : Cells κ β :=
  { c with value := Function.update c.value k (some v) }

def record (c : Cells κ β) (k : κ) (v : β) : Cells κ β :=
  { c with created := c.created ++ [(k, v)] }

def proceed [DecidableEq κ] (c : Cells κ β) (i : Nat) : Option (Cells κ β) :=
  match c.threads[i]? with
  | some (.checking k) =>
      some (c.move i c.holder (if (c.value k).isSome then .reading k else .waiting k))
  | some (.waiting k) =>
      if c.holder = none then some (c.move i (some i) (.rechecking k)) else none
  | some (.rechecking k) =>
      some (c.move i c.holder (if (c.value k).isSome then .releasing k else .creating k))
  | some (.storing k v) => some ((c.store k v).move i c.holder (.releasing k))
  | some (.releasing k) => some (c.move i none (.reading k))
  | some (.reading k) =>
      some (c.move i c.holder (match c.value k with
        | some v => .returned k v
        | none => .missing k))
  | some .raising => some (c.move i none .raised)
  | _ => none

/-- What the constructor returns satisfies `valid`, if it returns. -/
def create (valid : κ → β → Bool) (c : Cells κ β) (i : Nat) (v : Option β) :
    Option (Cells κ β) :=
  match c.threads[i]?, v with
  | some (.creating k), some v =>
      if valid k v then some ((c.record k v).move i c.holder (.storing k v)) else none
  | some (.creating _), none => some (c.move i c.holder .raising)
  | _, _ => none

def step [DecidableEq κ] (valid : κ → β → Bool) (c : Cells κ β) : Event κ β → Option (Cells κ β)
  | .call k => some (c.call k)
  | .proceed i => c.proceed i
  | .create i v => c.create valid i v

end Cells

/-! ## The invariant -/

def Fits (c : Cells κ β) : Phase κ β → Prop
  | .creating k => c.value k = none
  | .storing k v => c.value k = none ∧ (k, v) ∈ c.created
  | .releasing k | .reading k => (c.value k).isSome = true
  | .returned k v => c.value k = some v
  | .missing _ => False
  | _ => True

structure Inv (valid : κ → β → Bool) (c : Cells κ β) : Prop where
  lock : ∀ i : Nat, c.holder = some i ↔ ∃ phase, c.threads[i]? = some phase ∧ phase.holds = true
  phases : ∀ (i : Nat) (phase : Phase κ β), c.threads[i]? = some phase → Fits c phase
  stored : ∀ k v, c.value k = some v → (k, v) ∈ c.created
  pending : ∀ k v, (k, v) ∈ c.created →
    c.value k = some v ∨ ∃ i : Nat, c.threads[i]? = some (.storing k v)
  once : (c.created.map Prod.fst).Nodup
  valid : ∀ k v, (k, v) ∈ c.created → valid k v = true

section Steps

variable {valid : κ → β → Bool} {c c' : Cells κ β} {i : Nat}

theorem inv_empty : Inv valid (Cells.empty : Cells κ β) where
  lock := by simp [Cells.empty]
  phases := by simp [Cells.empty]
  stored := by simp [Cells.empty]
  pending := by simp [Cells.empty]
  once := by simp [Cells.empty]
  valid := by simp [Cells.empty]

theorem inv_call (h : Inv valid c) (k : κ) : Inv valid (c.call k) where
  lock j := by
    rw [Cells.call, h.lock]
    constructor
    · rintro ⟨phase, hphase, hholds⟩
      exact ⟨phase, getElem?_append_singleton_iff.mpr (.inl hphase), hholds⟩
    · rintro ⟨phase, hphase, hholds⟩
      rcases getElem?_append_singleton_iff.mp hphase with hold | ⟨-, rfl⟩
      · exact ⟨phase, hold, hholds⟩
      · cases hholds
  phases j phase hphase := by
    rcases getElem?_append_singleton_iff.mp hphase with hold | ⟨-, rfl⟩
    · exact h.phases j phase hold
    · trivial
  stored := h.stored
  pending k' v hmem := by
    rcases h.pending k' v hmem with hvalue | ⟨j, hj⟩
    · exact .inl hvalue
    · exact .inr ⟨j, getElem?_append_singleton_iff.mpr (.inl hj)⟩
  once := h.once
  valid := h.valid

/-- The lock after a thread went on. -/
theorem lock_move (h : Inv valid c) {old new : Phase κ β} (hi : c.threads[i]? = some old)
    {holder : Option Nat}
    (hfree : new.holds = true → old.holds = true ∨ c.holder = none)
    (hholder : holder = if new.holds then some i else if old.holds then none else c.holder)
    (j : Nat) :
    holder = some j ↔
      ∃ phase, (c.threads.set i new)[j]? = some phase ∧ phase.holds = true := by
  have hlock := h.lock j
  by_cases hj : j = i
  · subst hj
    have hset : (∃ phase, (c.threads.set j new)[j]? = some phase ∧ phase.holds = true) ↔
        new.holds = true := by
      simp only [getElem?_set_eq_some_iff hi, if_true, exists_eq_left]
    have hold : (∃ phase, c.threads[j]? = some phase ∧ phase.holds = true) ↔
        old.holds = true := by
      simp only [hi, Option.some_inj, exists_eq_left']
    rw [hset, hholder]
    rw [hold] at hlock
    cases hnew : new.holds with
    | true => simp
    | false =>
        cases hholds : old.holds with
        | true => simp
        | false => simpa [hholds] using hlock
  · have hset : (∃ phase, (c.threads.set i new)[j]? = some phase ∧ phase.holds = true) ↔
        ∃ phase, c.threads[j]? = some phase ∧ phase.holds = true := by
      simp only [getElem?_set_eq_some_iff hi, if_neg hj]
    rw [hset, ← hlock, hholder]
    cases hnew : new.holds with
    | true =>
        rcases hfree hnew with hholds | hnone
        · rw [(h.lock i).mpr ⟨old, hi, hholds⟩]
          rfl
        · simp [hnone, Ne.symm hj]
    | false =>
        cases hholds : old.holds with
        | true => simp [(h.lock i).mpr ⟨old, hi, hholds⟩, Ne.symm hj]
        | false => simp

/-- A thread goes on without touching the cells. -/
theorem inv_move (h : Inv valid c) {old new : Phase κ β} (hi : c.threads[i]? = some old)
    {holder : Option Nat}
    (hfree : new.holds = true → old.holds = true ∨ c.holder = none)
    (hholder : holder = if new.holds then some i else if old.holds then none else c.holder)
    (hfits : Fits c new) (hold : ∀ k v, old ≠ .storing k v) :
    Inv valid (c.move i holder new) where
  lock := lock_move h hi hfree hholder
  phases j phase hphase := by
    change (c.threads.set i new)[j]? = some phase at hphase
    rw [getElem?_set_eq_some_iff hi] at hphase
    split_ifs at hphase with hj
    · subst hphase
      cases phase <;> exact hfits
    · have hthere := h.phases j phase hphase
      cases phase <;> exact hthere
  stored := h.stored
  pending k v hmem := by
    rcases h.pending k v hmem with hvalue | ⟨j, hj⟩
    · exact .inl hvalue
    · refine .inr ⟨j, ?_⟩
      change (c.threads.set i new)[j]? = some (.storing k v)
      rw [getElem?_set_eq_some_iff hi, if_neg]
      · exact hj
      · rintro rfl
        exact hold k v (Option.some.inj (hi.symm.trans hj))
  once := h.once
  valid := h.valid

/-- Of two threads in the critical section, one is the other. -/
theorem holds_unique (h : Inv valid c) {j : Nat} {p q : Phase κ β}
    (hi : c.threads[i]? = some p) (hp : p.holds = true) (hj : c.threads[j]? = some q)
    (hq : q.holds = true) : j = i := by
  have hholder := (h.lock i).mpr ⟨p, hi, hp⟩
  rw [(h.lock j).mpr ⟨q, hj, hq⟩] at hholder
  exact Option.some.inj hholder

theorem not_mem_created (h : Inv valid c) {k : κ} (hi : c.threads[i]? = some (.creating k)) :
    k ∉ c.created.map Prod.fst := by
  intro hmem
  obtain ⟨⟨k', v⟩, hcreated, rfl⟩ := List.mem_map.mp hmem
  have hempty : c.value k' = none := h.phases i _ hi
  rcases h.pending k' v hcreated with hvalue | ⟨j, hj⟩
  · rw [hempty] at hvalue
    cases hvalue
  · obtain rfl := holds_unique h hi rfl hj rfl
    rw [hi] at hj
    cases hj

/-- Creating for an empty cell, under the lock, is the first creation for it. -/
theorem inv_create (h : Inv valid c) {k : κ} {v : β}
    (hi : c.threads[i]? = some (.creating k)) (hvalid : valid k v = true) :
    Inv valid ((c.record k v).move i c.holder (.storing k v)) where
  lock := lock_move h hi (fun _ => .inl rfl) ((h.lock i).mpr ⟨_, hi, rfl⟩)
  phases j phase hphase := by
    have hempty : c.value k = none := h.phases i _ hi
    change (c.threads.set i _)[j]? = some phase at hphase
    rw [getElem?_set_eq_some_iff hi] at hphase
    split_ifs at hphase with hj
    · subst hphase
      exact ⟨hempty, List.mem_append_right _ List.mem_cons_self⟩
    · have hthere := h.phases j phase hphase
      cases phase with
      | storing k' v' => exact ⟨hthere.1, List.mem_append_left _ hthere.2⟩
      | _ => exact hthere
  stored k' v' hvalue := List.mem_append_left _ (h.stored k' v' hvalue)
  pending k' v' hmem := by
    rcases List.mem_append.mp hmem with hmem | hmem
    · rcases h.pending k' v' hmem with hvalue | ⟨j, hj⟩
      · exact .inl hvalue
      · obtain rfl := holds_unique h hi rfl hj rfl
        rw [hi] at hj
        cases hj
    · obtain ⟨rfl, rfl⟩ := Prod.mk.inj (List.mem_singleton.mp hmem)
      exact .inr ⟨i, (getElem?_set_eq_some_iff hi).mpr (by simp)⟩
  once := by
    have hfresh := not_mem_created h hi
    change ((c.created ++ [(k, v)]).map Prod.fst).Nodup
    rw [List.map_append, List.nodup_append]
    refine ⟨h.once, List.nodup_singleton _, ?_⟩
    rintro a ha b hb rfl
    rw [List.map_singleton, List.mem_singleton] at hb
    subst hb
    exact hfresh ha
  valid k' v' hmem := by
    rcases List.mem_append.mp hmem with hmem | hmem
    · exact h.valid k' v' hmem
    · obtain ⟨rfl, rfl⟩ := Prod.mk.inj (List.mem_singleton.mp hmem)
      exact hvalid

theorem returned_eq (h : Inv valid c) {j : Nat} {k : κ} {v v' : β}
    (hi : c.threads[i]? = some (.returned k v)) (hj : c.threads[j]? = some (.returned k v')) :
    v = v' := by
  have hv : c.value k = some v := h.phases i _ hi
  have hv' : c.value k = some v' := h.phases j _ hj
  exact Option.some.inj (hv.symm.trans hv')

theorem returned_valid (h : Inv valid c) {k : κ} {v : β}
    (hi : c.threads[i]? = some (.returned k v)) : valid k v = true :=
  h.valid k v (h.stored k v (h.phases i _ hi))

variable [DecidableEq κ]

theorem inv_store (h : Inv valid c) {k : κ} {v : β}
    (hi : c.threads[i]? = some (.storing k v)) :
    Inv valid ((c.store k v).move i c.holder (.releasing k)) where
  lock := lock_move h hi (fun _ => .inl rfl) ((h.lock i).mpr ⟨_, hi, rfl⟩)
  phases j phase hphase := by
    obtain ⟨hempty, -⟩ : c.value k = none ∧ (k, v) ∈ c.created := h.phases i _ hi
    change (c.threads.set i _)[j]? = some phase at hphase
    rw [getElem?_set_eq_some_iff hi] at hphase
    split_ifs at hphase with hj
    · subst hphase
      change (Function.update c.value k (some v) k).isSome = true
      rw [Function.update_self]
      rfl
    · have hthere := h.phases j phase hphase
      -- Nobody else is in the critical section, and the other phases want a full cell.
      have hnot : phase.holds = false := by
        cases hholds : phase.holds with
        | false => rfl
        | true => exact absurd (holds_unique h hi rfl hphase hholds) hj
      cases phase with
      | creating k' => cases hnot
      | storing k' v' => cases hnot
      | releasing k' => cases hnot
      | reading k' =>
          change (Function.update c.value k (some v) k').isSome = true
          rw [Function.update_apply]
          split_ifs
          · rfl
          · exact hthere
      | returned k' v' =>
          change Function.update c.value k (some v) k' = some v'
          rw [Function.update_of_ne]
          · exact hthere
          · rintro rfl
            rw [show c.value k' = some v' from hthere] at hempty
            cases hempty
      | _ => exact hthere
  stored k' v' hvalue := by
    obtain ⟨-, hcreated⟩ : c.value k = none ∧ (k, v) ∈ c.created := h.phases i _ hi
    change Function.update c.value k (some v) k' = some v' at hvalue
    rw [Function.update_apply] at hvalue
    split_ifs at hvalue with hk
    · obtain rfl := Option.some.inj hvalue
      rwa [hk]
    · exact h.stored k' v' hvalue
  pending k' v' hmem := by
    obtain ⟨hempty, -⟩ : c.value k = none ∧ (k, v) ∈ c.created := h.phases i _ hi
    refine .inl ?_
    change Function.update c.value k (some v) k' = some v'
    rcases h.pending k' v' hmem with hvalue | ⟨j, hj⟩
    · rw [Function.update_of_ne]
      · exact hvalue
      · rintro rfl
        rw [hvalue] at hempty
        cases hempty
    · obtain rfl := holds_unique h hi rfl hj rfl
      rw [hi] at hj
      cases hj
      exact Function.update_self ..
  once := h.once
  valid := h.valid

theorem inv_proceed (h : Inv valid c) (hstep : c.proceed i = some c') : Inv valid c' := by
  unfold Cells.proceed at hstep
  split at hstep
  · rename_i k hi
    obtain rfl := Option.some.inj hstep
    cases hvalue : (c.value k).isSome with
    | true => exact inv_move h hi (by simp [Phase.holds]) rfl hvalue (by simp)
    | false => exact inv_move h hi (by simp [Phase.holds]) rfl trivial (by simp)
  · rename_i k hi
    split_ifs at hstep with hnone
    obtain rfl := Option.some.inj hstep
    exact inv_move h hi (fun _ => .inr hnone) rfl trivial (by simp)
  · rename_i k hi
    have hholder := (h.lock i).mpr ⟨_, hi, rfl⟩
    obtain rfl := Option.some.inj hstep
    cases hvalue : (c.value k).isSome with
    | true => exact inv_move h hi (fun _ => .inl rfl) hholder hvalue (by simp)
    | false =>
        have hnone : c.value k = none := by simpa using hvalue
        exact inv_move h hi (fun _ => .inl rfl) hholder hnone (by simp)
  · rename_i k v hi
    obtain rfl := Option.some.inj hstep
    exact inv_store h hi
  · rename_i k hi
    obtain rfl := Option.some.inj hstep
    have hfull : (c.value k).isSome = true := h.phases i _ hi
    exact inv_move h hi (by simp [Phase.holds]) rfl hfull (by simp)
  · rename_i k hi
    obtain rfl := Option.some.inj hstep
    have hfull : (c.value k).isSome = true := h.phases i _ hi
    obtain ⟨v, hv⟩ := Option.isSome_iff_exists.mp hfull
    rw [hv]
    exact inv_move h hi (by simp [Phase.holds]) rfl hv (by simp)
  · rename_i hi
    obtain rfl := Option.some.inj hstep
    exact inv_move h hi (by simp [Phase.holds]) rfl trivial (by simp)
  · cases hstep

theorem inv_step (c : Cells κ β) (e : Event κ β) (c' : Cells κ β) (h : Inv valid c)
    (hstep : StepOf (Cells.step valid) c e c') : Inv valid c' := by
  cases e with
  | call k =>
      obtain rfl := Option.some.inj hstep
      exact inv_call h k
  | proceed i => exact inv_proceed h hstep
  | create i v =>
      simp only [StepOf, Cells.step, Cells.create] at hstep
      split at hstep
      · rename_i k v' hi
        split_ifs at hstep with hvalid
        obtain rfl := Option.some.inj hstep
        exact inv_create h hi hvalid
      · rename_i k hi
        obtain rfl := Option.some.inj hstep
        exact inv_move h hi (fun _ => .inl rfl) ((h.lock i).mpr ⟨_, hi, rfl⟩) trivial (by simp)
      · cases hstep

/-- A cell that was filled stays as it is. -/
theorem value_step (h : Inv valid c) {e : Event κ β} (hstep : StepOf (Cells.step valid) c e c')
    {k : κ} {v : β} (hvalue : c.value k = some v) : c'.value k = some v := by
  simp only [StepOf, Cells.step] at hstep
  cases e with
  | call k' =>
      obtain rfl := Option.some.inj hstep
      exact hvalue
  | proceed i =>
      simp only [Cells.proceed] at hstep
      split at hstep
      case h_4 k' v' hi =>
        obtain ⟨hempty, -⟩ : c.value k' = none ∧ (k', v') ∈ c.created := h.phases i _ hi
        obtain rfl := Option.some.inj hstep
        change Function.update c.value k' (some v') k = some v
        rw [Function.update_of_ne]
        · exact hvalue
        · rintro rfl
          rw [hvalue] at hempty
          cases hempty
      case h_2 =>
        split_ifs at hstep
        obtain rfl := Option.some.inj hstep
        exact hvalue
      case h_8 => cases hstep
      all_goals
        obtain rfl := Option.some.inj hstep
        exact hvalue
  | create i v' =>
      simp only [Cells.create] at hstep
      split at hstep
      · split_ifs at hstep
        obtain rfl := Option.some.inj hstep
        exact hvalue
      · obtain rfl := Option.some.inj hstep
        exact hvalue
      · cases hstep

/-! ## No deadlock -/

def Event.isCall : Event κ β → Bool
  | call _ => true
  | _ => false

/-- Some thread that is already there can go on. -/
def CanProceed (valid : κ → β → Bool) (c : Cells κ β) : Prop :=
  ∃ e c', e.isCall = false ∧ StepOf (Cells.step valid) c e c'

theorem canProceed_of_proceed (hstep : (c.proceed i).isSome = true) : CanProceed valid c := by
  obtain ⟨c', hc'⟩ := Option.isSome_iff_exists.mp hstep
  exact ⟨.proceed i, c', rfl, hc'⟩

theorem canProceed_of_holds {phase : Phase κ β} (hi : c.threads[i]? = some phase)
    (hholds : phase.holds = true) : CanProceed valid c := by
  cases phase with
  | creating k =>
      refine ⟨.create i none, c.move i c.holder .raising, rfl, ?_⟩
      simp only [StepOf, Cells.step, Cells.create, hi]
  | rechecking k => exact canProceed_of_proceed (i := i) (by simp [Cells.proceed, hi])
  | storing k v => exact canProceed_of_proceed (i := i) (by simp [Cells.proceed, hi])
  | releasing k => exact canProceed_of_proceed (i := i) (by simp [Cells.proceed, hi])
  | raising => exact canProceed_of_proceed (i := i) (by simp [Cells.proceed, hi])
  | _ => cases hholds

/-- Whoever waits for the lock waits for a thread that can go on. -/
theorem canProceed (h : Inv valid c) {phase : Phase κ β} (hi : c.threads[i]? = some phase)
    (hunfinished : phase.finished = false) : CanProceed valid c := by
  cases phase with
  | checking k => exact canProceed_of_proceed (i := i) (by simp [Cells.proceed, hi])
  | reading k => exact canProceed_of_proceed (i := i) (by simp [Cells.proceed, hi])
  | waiting k =>
      cases hholder : c.holder with
      | none => exact canProceed_of_proceed (i := i) (by simp [Cells.proceed, hi, hholder])
      | some j =>
          obtain ⟨phase, hj, hholds⟩ := (h.lock j).mp hholder
          exact canProceed_of_holds hj hholds
  | returned k v => cases hunfinished
  | missing k => cases hunfinished
  | raised => cases hunfinished
  | _ => exact canProceed_of_holds hi rfl

end Steps

end BackendProdReady.Lib.LazyCells
