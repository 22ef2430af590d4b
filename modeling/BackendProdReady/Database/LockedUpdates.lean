import BackendProdReady.Database.DomainUpdate
import BackendProdReady.Lib.TwoPhaseLocking

/-!
# Updates of locked rows

A transaction reads its rows with `select_one_for_update` or `select_many_for_update`, which
locks them one by one, changes them with `update_one_orm` and flushes.  At READ COMMITTED a
locking SELECT finds the last committed version, but a session that still keeps an instance
of the row returns that, as it was loaded or last flushed: a commit expires nothing, and the
statement does not populate existing instances.
-/

namespace BackendProdReady.Database.LockedUpdates

open BackendProdReady.Lib.Runs
open BackendProdReady.Lib.TwoPhaseLocking
open BackendProdReady.Lib.TwoPhaseLocking.Store
open BackendProdReady.Database.DomainUpdate (Column Row flush)

/-! ## `_update_one_orm_internal` -/

section Update

variable {φ V : Type} [DecidableEq φ]

/-- One turn of the loop over `update_data`; `columnNamed` knows the column names. -/
def setAttr (columnNamed : String → Option (Column φ)) (entity : Row φ V)
    (field : String × Option V) : Row φ V :=
  match columnNamed field.1, field.2 with
  | some c, some value => Function.update entity c (some value)
  | _, _ => entity

def setAttrs (columnNamed : String → Option (Column φ)) (entity : Row φ V)
    (updateData : List (String × Option V)) : Row φ V :=
  updateData.foldl (setAttr columnNamed) entity

variable [Fintype φ] [DecidableEq V]

/-- The UPDATE of a flush on a row, of an instance that was loaded as `entity`. -/
def flushed (columnNamed : String → Option (Column φ)) (now : V)
    (updateData : List (String × Option V)) (entity row : Row φ V) : Row φ V :=
  flush now entity (setAttrs columnNamed entity updateData) row

/-- What the update is to make of the row, where there is one. -/
def updated (columnNamed : String → Option (Column φ)) (now : V)
    (updateData : List (String × Option V)) (row : Option (Row φ V)) : Option (Row φ V) :=
  row.map fun row => flushed columnNamed now updateData row row

end Update

/-! ## Sessions -/

/-- `τ` numbers the sessions, each of which runs one transaction after the other. -/
structure World (τ κ φ V : Type) where
  store : Store τ κ (Option (Row φ V))
  /-- A statement has failed, and the transaction can only be rolled back. -/
  failed : τ → Bool
  /-- The identity map of the session. -/
  instances : τ → κ → Option (Row φ V)

inductive Op (τ κ V : Type)
  /-- A SELECT without a lock. -/
  | select (t : τ) (k : κ)
  | selectForUpdate (t : τ) (k : κ) (skipLocked nowait : Bool)
  | updateOneOrm (t : τ) (k : κ) (updateData : List (String × Option V)) (now : V)
  /-- The last reference to the instance is dropped. -/
  | forget (t : τ) (k : κ)
  | commit (t : τ)
  | rollback (t : τ)

section Steps

variable {τ κ φ V : Type} [DecidableEq τ] [DecidableEq κ] [Fintype φ] [DecidableEq φ]
  [DecidableEq V]

def start (rows : κ → Option (Row φ V)) : World τ κ φ V :=
  ⟨.start rows, fun _ => false, fun _ _ => none⟩

def World.fail (w : World τ κ φ V) (t : τ) : World τ κ φ V :=
  { w with failed := Function.update w.failed t true }

def World.keep (w : World τ κ φ V) (t : τ) (k : κ) (entity : Option (Row φ V)) :
    World τ κ φ V :=
  { w with
    instances := Function.update w.instances t (Function.update (w.instances t) k entity) }

/-- What a SELECT of a row that is there returns: the instance that is kept, or a new one. -/
def World.entity (w : World τ κ φ V) (t : τ) (k : κ) : Option (Row φ V) :=
  (w.instances t k).or (w.store.view t k)

def selectForUpdate (w : World τ κ φ V) (t : τ) (k : κ) (skipLocked nowait : Bool) :
    Option (World τ κ φ V) :=
  -- `FOR UPDATE NOWAIT SKIP LOCKED` is no SQL.
  if skipLocked && nowait then some (w.fail t)
  -- A row that is not there is not locked.
  else if (w.store.view t k).isNone then some w
  else if w.store.lock k = none ∨ w.store.lock k = some t then
    some { w.keep t k (w.entity t k) with store := w.store.acquire t k (w.entity t k) }
  else if nowait then some (w.fail t)
  else if skipLocked then some w
  else none

def step (columnNamed : String → Option (Column φ)) (w : World τ κ φ V) :
    Op τ κ V → Option (World τ κ φ V)
  | .select t k =>
      if w.failed t then none
      else if (w.store.view t k).isNone then some w
      else some (w.keep t k (w.entity t k))
  | .selectForUpdate t k skipLocked nowait =>
      if w.failed t then none else selectForUpdate w t k skipLocked nowait
  | .updateOneOrm t k updateData now =>
      match w.instances t k with
      | none => none
      | some entity =>
          if w.failed t = false ∧ w.store.lock k = some t then
            some { w.keep t k (some (flushed columnNamed now updateData entity entity)) with
              store := w.store.write t k (updated columnNamed now updateData)
                ((w.store.working t k).map (flushed columnNamed now updateData entity)) }
          else none
  | .forget t k => some (w.keep t k none)
  | .commit t => if w.failed t then none else some { w with store := w.store.commit t }
  -- A rollback expires every instance.
  | .rollback t =>
      some ⟨w.store.rollback t, Function.update w.failed t false,
        Function.update w.instances t fun _ => none⟩

def Step (columnNamed : String → Option (Column φ)) :
    World τ κ φ V → Op τ κ V → World τ κ φ V → Prop := StepOf (step columnNamed)

/-- A session locks a row before it keeps an instance of it: it runs one transaction, or
has dropped what the earlier ones read. -/
def LocksFirst (w : World τ κ φ V) (op : Op τ κ V) (_ : World τ κ φ V) : Prop :=
  match op with
  | .selectForUpdate t k _ _ => w.store.lock k = some t ∨ w.instances t k = none
  | _ => True

/-- The instance of a row that a transaction holds has the attributes of its version. -/
structure Inv (rows : κ → Option (Row φ V)) (w : World τ κ φ V) : Prop where
  store : Store.Inv rows w.store
  instances : ∀ t k entity, w.store.lock k = some t → w.instances t k = some entity →
    w.store.working t k = some entity

variable {columnNamed : String → Option (Column φ)} {rows : κ → Option (Row φ V)}
  {w w' : World τ κ φ V}

omit [Fintype φ] [DecidableEq φ] [DecidableEq V] in
theorem entity_of_locksFirst (h : Inv rows w) {t : τ} {k : κ}
    (hfirst : w.store.lock k = some t ∨ w.instances t k = none) :
    w.entity t k = w.store.view t k := by
  unfold World.entity
  cases hkept : w.instances t k with
  | none => rfl
  | some entity =>
      have hlock : w.store.lock k = some t := hfirst.resolve_right (by simp [hkept])
      rw [view_of_lock hlock, h.instances t k entity hlock hkept]
      rfl

omit [Fintype φ] [DecidableEq φ] [DecidableEq V] in
/-- An instance that is added to the map is the version of the row, where the row is held. -/
theorem inv_keep (h : Inv rows w) {t : τ} {k : κ} {entity : Option (Row φ V)}
    (hentity : ∀ e, entity = some e → w.store.lock k = some t → w.store.working t k = some e) :
    Inv rows (w.keep t k entity) where
  store := h.store
  instances u k' e hlock hkept := by
    change Function.update w.instances t _ u k' = some e at hkept
    by_cases hu : u = t
    · subst hu
      rw [Function.update_self, Function.update_apply] at hkept
      split_ifs at hkept with hk
      · subst hk
        exact hentity e hkept hlock
      · exact h.instances u k' e hlock hkept
    · rw [Function.update_of_ne hu] at hkept
      exact h.instances u k' e hlock hkept

omit [Fintype φ] [DecidableEq φ] [DecidableEq V] in
theorem inv_select (h : Inv rows w) (t : τ) (k : κ) : Inv rows (w.keep t k (w.entity t k)) := by
  refine inv_keep h fun e he hlock => ?_
  rw [entity_of_locksFirst h (.inl hlock), view_of_lock hlock] at he
  exact he

omit [Fintype φ] [DecidableEq φ] [DecidableEq V] in
theorem inv_acquired (h : Inv rows w) {t : τ} {k : κ}
    (hfree : w.store.lock k = none ∨ w.store.lock k = some t)
    (hfirst : w.store.lock k = some t ∨ w.instances t k = none) :
    Inv rows { w.keep t k (w.entity t k) with
      store := w.store.acquire t k (w.entity t k) } where
  store := inv_acquire h.store hfree (entity_of_locksFirst h hfirst)
  instances u k' e hlock hkept := by
    change Function.update w.instances t _ u k' = some e at hkept
    change Function.update w.store.working t _ u k' = some e
    by_cases hu : u = t
    · subst hu
      rw [Function.update_self, Function.update_apply] at hkept ⊢
      by_cases hk : k' = k
      · rw [if_pos hk, entity_of_locksFirst h hfirst] at hkept
        rw [if_pos hk]
        exact hkept
      · rw [if_neg hk] at hkept ⊢
        exact h.instances u k' e ((lock_acquire_self.mp hlock).resolve_left hk) hkept
    · rw [Function.update_of_ne hu] at hkept ⊢
      exact h.instances u k' e ((lock_acquire_of_ne _ hfree hu k').mp hlock) hkept

omit [Fintype φ] [DecidableEq φ] [DecidableEq V] in
theorem inv_selectForUpdate (h : Inv rows w) {t : τ} {k : κ} {skipLocked nowait : Bool}
    (hfirst : w.store.lock k = some t ∨ w.instances t k = none)
    (hstep : selectForUpdate w t k skipLocked nowait = some w') : Inv rows w' := by
  unfold selectForUpdate at hstep
  split_ifs at hstep with hboth hmissing hfree
  · obtain rfl := Option.some.inj hstep
    exact ⟨h.store, h.instances⟩
  · obtain rfl := Option.some.inj hstep
    exact h
  · obtain rfl := Option.some.inj hstep
    exact inv_acquired h hfree hfirst
  · obtain rfl := Option.some.inj hstep
    exact ⟨h.store, h.instances⟩
  · obtain rfl := Option.some.inj hstep
    exact h

theorem inv_updateOneOrm (h : Inv rows w) {t : τ} {k : κ} {entity : Row φ V}
    (hkept : w.instances t k = some entity) (hlock : w.store.lock k = some t)
    (updateData : List (String × Option V)) (now : V) :
    Inv rows { w.keep t k (some (flushed columnNamed now updateData entity entity)) with
      store := w.store.write t k (updated columnNamed now updateData)
        ((w.store.working t k).map (flushed columnNamed now updateData entity)) } := by
  have hworking := h.instances t k entity hlock hkept
  refine ⟨inv_write h.store hlock (by rw [hworking]; rfl), fun u k' e hlock' hkept' => ?_⟩
  change Function.update w.instances t _ u k' = some e at hkept'
  change Function.update w.store.working t _ u k' = some e
  by_cases hu : u = t
  · subst hu
    rw [Function.update_self, Function.update_apply] at hkept' ⊢
    by_cases hk : k' = k
    · rw [if_pos hk] at hkept' ⊢
      rw [hworking]
      exact hkept'
    · rw [if_neg hk] at hkept' ⊢
      exact h.instances u k' e hlock' hkept'
  · rw [Function.update_of_ne hu] at hkept' ⊢
    exact h.instances u k' e hlock' hkept'

omit [Fintype φ] [DecidableEq φ] [DecidableEq V] in
theorem inv_rolledBack (h : Inv rows w) (t : τ) (failed : τ → Bool) :
    Inv rows ⟨w.store.rollback t, failed, Function.update w.instances t fun _ => none⟩ where
  store := inv_rollback h.store t
  instances u k e hlock hkept := by
    obtain ⟨hlock, hu⟩ := unlock_eq_some.mp hlock
    change Function.update w.instances t _ u k = some e at hkept
    rw [Function.update_of_ne hu] at hkept
    exact h.instances u k e hlock hkept

theorem inv_step (w : World τ κ φ V) (op : Op τ κ V) (w' : World τ κ φ V) (h : Inv rows w)
    (hstep : Guarded LocksFirst (Step columnNamed) w op w') : Inv rows w' := by
  obtain ⟨hstep, hfirst⟩ := hstep
  simp only [Step, StepOf, step] at hstep
  cases op with
  | select t k =>
      simp only at hstep
      split_ifs at hstep
      · obtain rfl := Option.some.inj hstep
        exact h
      · obtain rfl := Option.some.inj hstep
        exact inv_select h t k
  | selectForUpdate t k skipLocked nowait =>
      simp only at hstep
      split_ifs at hstep
      exact inv_selectForUpdate h hfirst hstep
  | updateOneOrm t k updateData now =>
      simp only at hstep
      split at hstep
      · cases hstep
      · split_ifs at hstep with hheld
        obtain rfl := Option.some.inj hstep
        exact inv_updateOneOrm h ‹_› hheld.2 updateData now
  | forget t k =>
      obtain rfl := Option.some.inj hstep
      exact inv_keep h fun e he => nomatch he
  | commit t =>
      simp only at hstep
      split_ifs at hstep
      obtain rfl := Option.some.inj hstep
      refine ⟨inv_commit h.store t, fun u k e hlock hkept => ?_⟩
      exact h.instances u k e (unlock_eq_some.mp hlock).1 hkept
  | rollback t =>
      obtain rfl := Option.some.inj hstep
      exact inv_rolledBack h t _

/-! ## Every interleaving -/

structure SerialContract (rows : κ → Option (Row φ V)) (w : World τ κ φ V) : Prop where
  /-- One after the other in the order of their commits, the committed transactions read
  what they read and leave the table as it is. -/
  serial : Replays w.store.serialHistory rows w.store.rows
  noLostUpdate : ∀ k, w.store.rows k = fold k (rows k) w.store.serialHistory
  /-- A transaction that is not over could begin now and read what it read. -/
  current : ∀ t, Replays (w.store.history t) w.store.rows (w.store.view t)

/-- Read-modify-write transactions on locked rows are serialisable in the order of their
commits, however they interleave, skip locked rows, fail or are rolled back, where every
row is locked before its session keeps an instance of it. -/
theorem locked_updates_serial {ops : List (Op τ κ V)} {w : World τ κ φ V}
    (hrun : Run (Guarded LocksFirst (Step columnNamed)) (start rows) ops w) :
    SerialContract rows w := by
  have hstart : Inv rows (start rows : World τ κ φ V) :=
    ⟨inv_start rows, fun t k entity hlock => nomatch hlock⟩
  have h : Inv rows w := hrun.invariant inv_step hstart
  exact ⟨h.store.serial, fun k => replays_fold h.store.serial k, h.store.current⟩

end Steps

/-! ## Two transactions -/

def account : Unit → Option (Row Unit Nat) := fun _ => some fun c =>
  match c with
  | .id => some 7
  | .createdAt | .updatedAt => some 0
  | .own _ => some 1

def accountColumns (field : String) : Option (Column Unit) :=
  if field = "balance" then some (.own ()) else none

/-- The second transaction skips the locked account and takes it later. -/
theorem locked_updates_serial_twoUpdates :
    ∃ w : World Bool Unit Unit Nat, SerialContract account w ∧
      (w.store.rows ()).map (fun row => row (.own ())) = some (some 3) :=
  have hrun : Run (Guarded LocksFirst (Step accountColumns)) (start account)
      ([] ++ [.selectForUpdate false () false false] ++ [.selectForUpdate true () true false] ++
        [.updateOneOrm false () [("balance", some 2), ("unknown", some 9)] 10] ++
        [.commit false] ++ [.selectForUpdate true () true false] ++
        [.updateOneOrm true () [("balance", some 3)] 20] ++ [.commit true]) _ :=
    .tail (.tail (.tail (.tail (.tail (.tail (.tail (.refl _) ⟨rfl, .inr rfl⟩) ⟨rfl, .inr rfl⟩)
      ⟨rfl, trivial⟩) ⟨rfl, trivial⟩) ⟨rfl, .inr rfl⟩) ⟨rfl, trivial⟩) ⟨rfl, trivial⟩
  ⟨_, locked_updates_serial hrun, rfl⟩

/-- A session that locks the account again works on what it kept from its first
transaction, and does not see the 2 that another session has committed. -/
example : ∃ w : World Bool Unit Unit Nat,
    Run (Step accountColumns) (start account)
      [.selectForUpdate true () false false, .commit true, .selectForUpdate false () false false,
        .updateOneOrm false () [("balance", some 2)] 10, .commit false,
        .selectForUpdate true () false false] w ∧
      (w.store.view true ()).map (fun row => row (.own ())) = some (some 2) ∧
      (w.instances true ()).map (fun row => row (.own ())) = some (some 1) :=
  ⟨_, run_of_foldlM rfl, rfl, rfl⟩

end BackendProdReady.Database.LockedUpdates
