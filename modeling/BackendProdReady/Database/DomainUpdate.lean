import BackendProdReady.Lib.Runs
import Mathlib.Data.Fintype.Basic
import Mathlib.Data.Finset.Image

/-!
# `update_from_domain` under the row lock

Transactions at READ COMMITTED on one row: each reads it as a domain object,
changes the object, and writes it back through `update_from_domain`, which locks
the row only then.  The mappers copy column by column.  The session may still
hold the instance the object was read from; then the locking SELECT returns that
instance with the attributes it was loaded with.
-/

namespace BackendProdReady.Database.DomainUpdate

open BackendProdReady.Lib.Runs

/-! ## Columns and rows -/

/-- The columns of `DbBaseModel` and those of a subclass. -/
inductive Column (φ : Type)
  | id
  | createdAt
  | updatedAt
  | own (field : φ)
deriving DecidableEq

instance {φ : Type} [Fintype φ] [DecidableEq φ] : Fintype (Column φ) where
  elems := {.id, .createdAt, .updatedAt} ∪ Finset.univ.image .own
  complete c := by cases c <;> simp

/-- `none` is NULL, and `None` in an object. -/
abbrev Row (φ V : Type) := Column φ → Option V

section Source

variable {φ V : Type}

def setFields (loaded changes : Row φ V) : Row φ V := fun c =>
  match changes c with
  | some value => some value
  | none => loaded c

/-- `_update_data`: the columns of the object that are written back. -/
def updateData (domain : Row φ V) : Row φ V
  | .id | .createdAt => none
  | c => domain c

def setAttrs (entity updateData : Row φ V) : Row φ V := fun c =>
  match updateData c with
  | some value => some value
  | none => entity c

variable [Fintype φ] [DecidableEq φ] [DecidableEq V]

/-- The UPDATE of a flush: the attributes that differ from those the instance was
loaded with, and `onupdate=func.now()` where none of them sets `updated_at`. -/
def flush (now : V) (loaded entity row : Row φ V) : Row φ V := fun c =>
  if entity c ≠ loaded c then entity c
  else if c = .updatedAt ∧ ∃ d, entity d ≠ loaded d then some now
  else row c

end Source

/-! ## Transactions -/

/-- What a transaction has done; `changes` are the fields it set in its object. -/
inductive Phase (φ V : Type)
  | started
  | loaded (values changes : Row φ V)
  /-- The locking SELECT returned an instance with the attributes `entity`. -/
  | locked (values changes entity : Row φ V)
  /-- The locking SELECT found no row of the object's id; nothing is written. -/
  | missed (changes : Row φ V)
  /-- Flushed, with its version of the row. -/
  | flushed (changes version : Row φ V)
  | committed (changes : Row φ V)
  | rolledBack

/-- The committed version of the row, and who holds its lock. -/
structure State (τ φ V : Type) where
  row : Row φ V
  lock : Option τ
  phase : τ → Phase φ V

inductive Op (τ φ V : Type)
  /-- `select_as_domain`, and the fields that are then set. -/
  | load (t : τ) (changes : Row φ V)
  /-- SELECT ... FOR UPDATE; `kept` while the session still holds the instance. -/
  | lock (t : τ) (kept : Bool)
  | flush (t : τ) (now : V)
  | commit (t : τ)
  | rollback (t : τ)

section Steps

variable {τ φ V : Type} [DecidableEq τ]

def State.setPhase (s : State τ φ V) (t : τ) (phase : Phase φ V) : State τ φ V :=
  { s with phase := Function.update s.phase t phase }

def State.unlock (s : State τ φ V) (t : τ) : Option τ :=
  if s.lock = some t then none else s.lock

variable [Fintype φ] [DecidableEq φ] [DecidableEq V]

/-- One step; `none` where the transaction is not at this point, or has to wait
for the lock. -/
def react (s : State τ φ V) : Op τ φ V → Option (State τ φ V)
  | .load t changes =>
      match s.phase t with
      | .started => some (s.setPhase t (.loaded s.row changes))
      | _ => none
  | .lock t kept =>
      match s.phase t with
      | .loaded values changes =>
          if setFields values changes .id ≠ s.row .id then
            some (s.setPhase t (.missed changes))
          else if s.lock = none then
            some { s.setPhase t (.locked values changes (if kept then values else s.row)) with
              lock := some t }
          else none
      | _ => none
  | .flush t now =>
      match s.phase t with
      | .locked values changes entity =>
          let domain := setFields values changes
          let version := flush now entity (setAttrs entity (updateData domain)) s.row
          some (s.setPhase t (.flushed changes version))
      | _ => none
  | .commit t =>
      match s.phase t with
      | .flushed changes version =>
          some { s.setPhase t (.committed changes) with row := version, lock := s.unlock t }
      | .missed changes => some (s.setPhase t (.committed changes))
      | _ => none
  | .rollback t =>
      match s.phase t with
      | .committed _ => none
      | _ => some { s.setPhase t .rolledBack with lock := s.unlock t }

def Step (s : State τ φ V) (op : Op τ φ V) (t : State τ φ V) : Prop := react s op = some t

def next (s : State τ φ V) (op : Op τ φ V) : State τ φ V := (react s op).getD s

theorem step_next {s : State τ φ V} {op : Op τ φ V} (h : (react s op).isSome = true) :
    Step s op (next s op) := by
  unfold Step next
  cases hreact : react s op with
  | none => simp [hreact] at h
  | some t => rfl

inductive Transition (s : State τ φ V) : Op τ φ V → State τ φ V → Prop
  | load {t : τ} {changes : Row φ V} (hphase : s.phase t = .started) :
      Transition s (.load t changes) (s.setPhase t (.loaded s.row changes))
  | miss {t : τ} {kept : Bool} {values changes : Row φ V}
      (hphase : s.phase t = .loaded values changes)
      (hid : setFields values changes .id ≠ s.row .id) :
      Transition s (.lock t kept) (s.setPhase t (.missed changes))
  | lock {t : τ} {kept : Bool} {values changes : Row φ V}
      (hphase : s.phase t = .loaded values changes) (hfree : s.lock = none) :
      Transition s (.lock t kept)
        { s.setPhase t (.locked values changes (if kept then values else s.row)) with
          lock := some t }
  | flush {t : τ} {now : V} {values changes entity : Row φ V}
      (hphase : s.phase t = .locked values changes entity) :
      Transition s (.flush t now)
        (s.setPhase t (.flushed changes
          (DomainUpdate.flush now entity
            (setAttrs entity (updateData (setFields values changes))) s.row)))
  | commit {t : τ} {changes version : Row φ V}
      (hphase : s.phase t = .flushed changes version) :
      Transition s (.commit t)
        { s.setPhase t (.committed changes) with row := version, lock := s.unlock t }
  | commitMissed {t : τ} {changes : Row φ V} (hphase : s.phase t = .missed changes) :
      Transition s (.commit t) (s.setPhase t (.committed changes))
  | rollback {t : τ} :
      Transition s (.rollback t) { s.setPhase t .rolledBack with lock := s.unlock t }

theorem step_cases {s u : State τ φ V} {op : Op τ φ V} (h : Step s op u) : Transition s op u := by
  unfold Step react at h
  cases op with
  | load t changes =>
      dsimp only at h
      split at h
      · rename_i hphase
        obtain rfl := Option.some.inj h
        exact .load hphase
      · cases h
  | lock t kept =>
      dsimp only at h
      split at h
      · rename_i values changes hphase
        by_cases hid : setFields values changes .id ≠ s.row .id
        · rw [if_pos hid] at h
          obtain rfl := Option.some.inj h
          exact .miss hphase hid
        · by_cases hfree : s.lock = none
          · rw [if_neg hid, if_pos hfree] at h
            obtain rfl := Option.some.inj h
            exact .lock hphase hfree
          · rw [if_neg hid, if_neg hfree] at h
            cases h
      · cases h
  | flush t now =>
      dsimp only at h
      split at h
      · rename_i hphase
        obtain rfl := Option.some.inj h
        exact .flush hphase
      · cases h
  | commit t =>
      dsimp only at h
      split at h
      · rename_i hphase
        obtain rfl := Option.some.inj h
        exact .commit hphase
      · rename_i hphase
        obtain rfl := Option.some.inj h
        exact .commitMissed hphase
      · cases h
  | rollback t =>
      dsimp only at h
      split at h
      · cases h
      · obtain rfl := Option.some.inj h
        exact .rollback

end Steps

end BackendProdReady.Database.DomainUpdate
