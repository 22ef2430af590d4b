import Mathlib.Data.List.Basic
import Mathlib.Logic.Function.Basic

/-!
# Strict two-phase locking

A transaction reads and writes a row only while it holds the lock of the row, works on its
own version, and gives its locks back when it ends.  What it takes the row for, and the version
it writes, are recorded as they are.  Where they are those of the store, the committed
transactions, run one after the other in the order of their commits, read what they read and
leave what they left.
-/

namespace BackendProdReady.Lib.TwoPhaseLocking

variable {τ κ V : Type}

/-! ## Histories -/

/-- What a transaction did to a row: read a value of it, or write a function of it. -/
inductive Action (κ V : Type)
  | read (k : κ) (v : V)
  | write (k : κ) (f : V → V)

def Action.key : Action κ V → κ
  | read k _ => k
  | write k _ => k

def keys (history : List (Action κ V)) : List κ := history.map Action.key

theorem mem_keys_append {history : List (Action κ V)} {action : Action κ V} {k : κ} :
    k ∈ keys (history ++ [action]) ↔ k ∈ keys history ∨ k = action.key := by
  simp [keys]

variable [DecidableEq κ]

/-- Done alone, from one table to another, the actions read what they read. -/
def Replays : List (Action κ V) → (κ → V) → (κ → V) → Prop
  | [], rows, rows' => rows' = rows
  | .read k v :: rest, rows, rows' => rows k = v ∧ Replays rest rows rows'
  | .write k f :: rest, rows, rows' =>
      Replays rest (Function.update rows k (f (rows k))) rows'

/-- What the actions make of one row. -/
def fold (k : κ) (v : V) (history : List (Action κ V)) : V :=
  history.foldl (fun v action =>
    match action with
    | .read _ _ => v
    | .write k' f => if k' = k then f v else v) v

section Histories

variable {history history' : List (Action κ V)} {rows rows' other : κ → V}

theorem replays_append :
    Replays (history ++ history') rows other ↔
      ∃ rows', Replays history rows rows' ∧ Replays history' rows' other := by
  induction history generalizing rows with
  | nil => simp [Replays]
  | cons action rest ih =>
      cases action with
      | read k v =>
          simp only [List.cons_append, Replays, ih]
          constructor
          · rintro ⟨hread, mid, hrest, hrest'⟩
            exact ⟨mid, ⟨hread, hrest⟩, hrest'⟩
          · rintro ⟨mid, ⟨hread, hrest⟩, hrest'⟩
            exact ⟨hread, mid, hrest, hrest'⟩
      | write k f => simp only [List.cons_append, Replays, ih]

/-- A replay looks at the rows of its actions only, and changes no other row. -/
theorem replays_congr {P : κ → Prop} (h : Replays history rows rows')
    (hkeys : ∀ k ∈ keys history, P k) (hsame : ∀ k, P k → other k = rows k) :
    ∃ other', Replays history other other' ∧ (∀ k, P k → other' k = rows' k) ∧
      ∀ k, ¬ P k → other' k = other k := by
  induction history generalizing rows other with
  | nil =>
      obtain rfl : rows' = rows := h
      exact ⟨other, rfl, hsame, fun _ _ => rfl⟩
  | cons action rest ih =>
      have hfirst : P action.key := hkeys _ List.mem_cons_self
      have hrest : ∀ k ∈ keys rest, P k := fun k hk => hkeys k (List.mem_cons_of_mem _ hk)
      cases action with
      | read k v =>
          obtain ⟨other', hreplay, hin, hout⟩ := ih h.2 hrest hsame
          exact ⟨other', ⟨(hsame k hfirst).trans h.1, hreplay⟩, hin, hout⟩
      | write k f =>
          have hkey : P k := hfirst
          have hsame' : ∀ k', P k' →
              Function.update other k (f (other k)) k' =
                Function.update rows k (f (rows k)) k' := by
            intro k' hk'
            rw [Function.update_apply, Function.update_apply, hsame k hkey, hsame k' hk']
          obtain ⟨other', hreplay, hin, hout⟩ := ih h hrest hsame'
          refine ⟨other', hreplay, hin, fun k' hk' => ?_⟩
          rw [hout k' hk', Function.update_of_ne]
          rintro rfl
          exact hk' hkey

theorem replays_fold (h : Replays history rows rows') (k : κ) :
    rows' k = fold k (rows k) history := by
  induction history generalizing rows with
  | nil =>
      obtain rfl : rows' = rows := h
      rfl
  | cons action rest ih =>
      cases action with
      | read k' v => exact ih h.2
      | write k' f =>
          refine (ih h).trans ?_
          change fold k _ rest = fold k (if k' = k then f (rows k) else rows k) rest
          rw [Function.update_apply]
          by_cases hk : k = k'
          · rw [if_pos hk, if_pos hk.symm, hk]
          · rw [if_neg hk, if_neg (Ne.symm hk)]

end Histories

/-! ## The store -/

structure Store (τ κ V : Type) where
  rows : κ → V
  lock : κ → Option τ
  /-- The versions of the rows that a transaction has locked. -/
  working : τ → κ → V
  history : τ → List (Action κ V)
  /-- The transactions that have committed, in this order. -/
  committed : List (τ × List (Action κ V))

namespace Store

variable [DecidableEq τ]

/-- What a transaction sees: its own versions over the committed rows. -/
def view (s : Store τ κ V) (t : τ) (k : κ) : V :=
  if s.lock k = some t then s.working t k else s.rows k

def unlock (s : Store τ κ V) (t : τ) (k : κ) : Option τ :=
  if s.lock k = some t then none else s.lock k

def commit (s : Store τ κ V) (t : τ) : Store τ κ V :=
  { s with
    rows := s.view t
    lock := s.unlock t
    history := Function.update s.history t []
    committed := s.committed ++ [(t, s.history t)] }

def rollback (s : Store τ κ V) (t : τ) : Store τ κ V :=
  { s with lock := s.unlock t, history := Function.update s.history t [] }

def serialHistory (s : Store τ κ V) : List (Action κ V) := s.committed.flatMap Prod.snd

section Views

variable {s : Store τ κ V} {t u : τ} {k : κ}

omit [DecidableEq κ]

theorem view_of_lock (h : s.lock k = some t) : s.view t k = s.working t k := by
  rw [view, if_pos h]

theorem view_of_not_lock (h : s.lock k ≠ some t) : s.view t k = s.rows k := by
  rw [view, if_neg h]

theorem unlock_eq_some : s.unlock t k = some u ↔ s.lock k = some u ∧ u ≠ t := by
  unfold unlock
  by_cases hk : s.lock k = some t
  · rw [if_pos hk, hk]
    simp [eq_comm]
  · rw [if_neg hk]
    constructor
    · intro hu
      refine ⟨hu, ?_⟩
      rintro rfl
      exact hk hu
    · exact And.left

theorem view_release_self (rows : κ → V) (history : τ → List (Action κ V))
    (committed : List (τ × List (Action κ V))) :
    ({ s with rows := rows, lock := s.unlock t, history := history, committed := committed } :
      Store τ κ V).view t = rows := by
  funext k
  exact view_of_not_lock fun hlock => (unlock_eq_some.mp hlock).2 rfl

omit [DecidableEq τ] in
theorem lock_ne (h : s.lock k = some t) (hne : u ≠ t) : s.lock k ≠ some u := by
  rw [h]
  exact fun heq => hne (Option.some.inj heq).symm

end Views

def start (rows : κ → V) : Store τ κ V := ⟨rows, fun _ => none, fun _ => rows, fun _ => [], []⟩

/-- Lock a row that is free, or held already; the transaction takes it for `seen`. -/
def acquire (s : Store τ κ V) (t : τ) (k : κ) (seen : V) : Store τ κ V :=
  { s with
    lock := Function.update s.lock k (some t)
    working := Function.update s.working t (Function.update (s.working t) k (s.view t k))
    history := Function.update s.history t (s.history t ++ [.read k seen]) }

/-- Give a row that is held the version `value`, which is to be `f` of the old one. -/
def write (s : Store τ κ V) (t : τ) (k : κ) (f : V → V) (value : V) : Store τ κ V :=
  { s with
    working := Function.update s.working t (Function.update (s.working t) k value)
    history := Function.update s.history t (s.history t ++ [.write k f]) }

def modify (s : Store τ κ V) (t : τ) (k : κ) (f : V → V) : Store τ κ V :=
  (s.acquire t k (s.view t k)).write t k f (f (s.view t k))

structure Inv (init : κ → V) (s : Store τ κ V) : Prop where
  serial : Replays s.serialHistory init s.rows
  current : ∀ t, Replays (s.history t) s.rows (s.view t)
  locked : ∀ t k, s.lock k = some t ↔ k ∈ keys (s.history t)

section Steps

variable {init : κ → V} {s : Store τ κ V} {t : τ} {k : κ} {seen value : V}

theorem inv_start (init : κ → V) : Inv init (start init : Store τ κ V) where
  serial := rfl
  current _ := rfl
  locked _ _ := by simp [start, keys]

theorem view_acquire_self : (s.acquire t k seen).view t = s.view t := by
  funext k'
  simp only [view, acquire, Function.update_self]
  by_cases hk : k' = k
  · rw [hk, Function.update_self, if_pos rfl, Function.update_self]
  · rw [Function.update_of_ne hk, Function.update_of_ne hk]

theorem view_acquire_of_ne {u : τ} (h : s.lock k = none ∨ s.lock k = some t) (hne : u ≠ t) :
    (s.acquire t k seen).view u = s.view u := by
  have hother : s.lock k ≠ some u := by
    rcases h with hnone | hsome
    · simp [hnone]
    · exact lock_ne hsome hne
  funext k'
  simp only [view, acquire, Function.update_of_ne hne]
  by_cases hk : k' = k
  · rw [hk, Function.update_self, if_neg hother, if_neg]
    exact fun heq => hne (Option.some.inj heq).symm
  · rw [Function.update_of_ne hk]

theorem lock_acquire_of_ne {u : τ} (seen : V) (h : s.lock k = none ∨ s.lock k = some t)
    (hne : u ≠ t) (k' : κ) : (s.acquire t k seen).lock k' = some u ↔ s.lock k' = some u := by
  change Function.update s.lock k (some t) k' = some u ↔ _
  by_cases hk : k' = k
  · have hother : s.lock k ≠ some u := by
      rcases h with hnone | hsome
      · simp [hnone]
      · exact lock_ne hsome hne
    simp [hk, hother, Ne.symm hne]
  · rw [Function.update_of_ne hk]

theorem lock_acquire_self {k' : κ} :
    (s.acquire t k seen).lock k' = some t ↔ k' = k ∨ s.lock k' = some t := by
  change Function.update s.lock k (some t) k' = some t ↔ _
  by_cases hk : k' = k
  · simp [hk]
  · rw [Function.update_of_ne hk]
    simp [hk]

theorem inv_acquire (h : Inv init s) (hfree : s.lock k = none ∨ s.lock k = some t)
    (hseen : seen = s.view t k) : Inv init (s.acquire t k seen) where
  serial := h.serial
  current u := by
    by_cases hu : u = t
    · subst hu
      rw [view_acquire_self]
      change Replays (Function.update s.history u _ u) s.rows _
      rw [Function.update_self]
      exact replays_append.mpr ⟨_, h.current u, hseen.symm, rfl⟩
    · rw [view_acquire_of_ne hfree hu]
      change Replays (Function.update s.history t _ u) s.rows _
      rw [Function.update_of_ne hu]
      exact h.current u
  locked u k' := by
    change Function.update s.lock k (some t) k' = some u ↔
      k' ∈ keys (Function.update s.history t _ u)
    by_cases hu : u = t
    · subst hu
      rw [Function.update_self, mem_keys_append, ← h.locked]
      by_cases hk : k' = k
      · simp [hk, Action.key]
      · simp [hk, Action.key]
    · rw [Function.update_of_ne hu, ← h.locked]
      exact lock_acquire_of_ne seen hfree hu k'

theorem view_write_self {f : V → V} (h : s.lock k = some t) (hvalue : value = f (s.working t k)) :
    (s.write t k f value).view t = Function.update (s.view t) k (f (s.view t k)) := by
  subst hvalue
  funext k'
  rw [view_of_lock h, Function.update_apply]
  simp only [view, write, Function.update_self]
  by_cases hk : k' = k
  · rw [hk, if_pos h, Function.update_self, if_pos rfl]
  · rw [Function.update_of_ne hk, if_neg hk]

theorem view_write_of_ne {u : τ} {f : V → V} (hne : u ≠ t) :
    (s.write t k f value).view u = s.view u := by
  funext k'
  simp only [view, write, Function.update_of_ne hne]

theorem view_modify_self {f : V → V} :
    (s.modify t k f).view t = Function.update (s.view t) k (f (s.view t k)) := by
  have hlock : (s.acquire t k (s.view t k)).lock k = some t := lock_acquire_self.mpr (.inl rfl)
  have hworking : (s.acquire t k (s.view t k)).working t k = s.view t k := by
    rw [← view_of_lock hlock, view_acquire_self]
  rw [modify, view_write_self hlock (by rw [hworking]), view_acquire_self]

theorem lock_modify_self {f : V → V} {k' : κ} :
    (s.modify t k f).lock k' = some t ↔ k' = k ∨ s.lock k' = some t := by
  change (s.acquire t k (s.view t k)).lock k' = some t ↔ _
  exact lock_acquire_self

theorem lock_modify_of_ne {u : τ} {f : V → V} (h : s.lock k = none ∨ s.lock k = some t)
    (hne : u ≠ t) (k' : κ) : (s.modify t k f).lock k' = some u ↔ s.lock k' = some u :=
  lock_acquire_of_ne (s.view t k) h hne k'

theorem view_modify_of_ne {u : τ} {f : V → V} (h : s.lock k = none ∨ s.lock k = some t)
    (hne : u ≠ t) : (s.modify t k f).view u = s.view u :=
  (view_write_of_ne hne).trans (view_acquire_of_ne h hne)

theorem inv_write (h : Inv init s) {f : V → V} (hlock : s.lock k = some t)
    (hvalue : value = f (s.working t k)) : Inv init (s.write t k f value) where
  serial := h.serial
  current u := by
    change Replays (Function.update s.history t _ u) s.rows _
    by_cases hu : u = t
    · subst hu
      rw [view_write_self hlock hvalue, Function.update_self]
      exact replays_append.mpr ⟨_, h.current u, rfl⟩
    · rw [view_write_of_ne hu, Function.update_of_ne hu]
      exact h.current u
  locked u k' := by
    change s.lock k' = some u ↔ k' ∈ keys (Function.update s.history t _ u)
    by_cases hu : u = t
    · subst hu
      rw [Function.update_self, mem_keys_append, ← h.locked]
      constructor
      · exact .inl
      · rintro (hold | rfl)
        · exact hold
        · exact hlock
    · rw [Function.update_of_ne hu]
      exact h.locked u k'

theorem locked_release (h : Inv init s) (u : τ) (k' : κ) :
    s.unlock t k' = some u ↔ k' ∈ keys (Function.update s.history t [] u) := by
  rw [unlock_eq_some]
  by_cases hu : u = t
  · subst hu
    simp [keys]
  · rw [Function.update_of_ne hu, ← h.locked, and_iff_left hu]

omit [DecidableEq κ] in
theorem view_commit_of_lock {u : τ} (hu : u ≠ t) (hk : s.lock k = some u) :
    (s.commit t).view u k = s.view u k := by
  have hlock : (s.commit t).lock k = some u := unlock_eq_some.mpr ⟨hk, hu⟩
  rw [view_of_lock hlock, view_of_lock hk]
  rfl

omit [DecidableEq κ] in
theorem view_commit_of_not_lock {u : τ} (hk : s.lock k ≠ some u) :
    (s.commit t).view u k = s.view t k := by
  have hlock : (s.commit t).lock k ≠ some u := fun heq => hk (unlock_eq_some.mp heq).1
  rw [view_of_not_lock hlock]
  rfl

/-- The rows that a transaction holds are not changed by the commit of another one. -/
theorem current_commit (h : Inv init s) {u : τ} (hu : u ≠ t) :
    Replays (s.history u) (s.view t) ((s.commit t).view u) := by
  have hsame : ∀ k, s.lock k = some u → s.view t k = s.rows k := fun k hk =>
    view_of_not_lock (lock_ne hk (Ne.symm hu))
  obtain ⟨other, hreplay, hin, hout⟩ := replays_congr (h.current u)
    (fun k hk => (h.locked u k).mpr hk) hsame
  have hview : (s.commit t).view u = other := by
    funext k
    by_cases hk : s.lock k = some u
    · rw [view_commit_of_lock hu hk, hin k hk]
    · rw [view_commit_of_not_lock hk, hout k hk]
  rw [hview]
  exact hreplay

theorem inv_commit (h : Inv init s) (t : τ) : Inv init (s.commit t) where
  serial := by
    change Replays ((s.committed ++ [(t, s.history t)]).flatMap Prod.snd) init (s.view t)
    rw [List.flatMap_append, List.flatMap_singleton]
    exact replays_append.mpr ⟨_, h.serial, h.current t⟩
  current u := by
    change Replays (Function.update s.history t [] u) (s.view t) _
    by_cases hu : u = t
    · subst hu
      rw [Function.update_self]
      exact view_release_self _ _ _
    · rw [Function.update_of_ne hu]
      exact current_commit h hu
  locked u k' := locked_release h u k'

omit [DecidableEq κ] in
theorem view_rollback_of_ne {u : τ} (hu : u ≠ t) : (s.rollback t).view u = s.view u := by
  funext k
  by_cases hk : s.lock k = some u
  · have hlock : (s.rollback t).lock k = some u := unlock_eq_some.mpr ⟨hk, hu⟩
    rw [view_of_lock hlock, view_of_lock hk]
    rfl
  · have hlock : (s.rollback t).lock k ≠ some u := fun heq => hk (unlock_eq_some.mp heq).1
    rw [view_of_not_lock hlock, view_of_not_lock hk]
    rfl

theorem inv_rollback (h : Inv init s) (t : τ) : Inv init (s.rollback t) where
  serial := h.serial
  current u := by
    change Replays (Function.update s.history t [] u) s.rows _
    by_cases hu : u = t
    · subst hu
      rw [Function.update_self]
      exact view_release_self _ _ _
    · rw [view_rollback_of_ne hu, Function.update_of_ne hu]
      exact h.current u
  locked u k' := locked_release h u k'

end Steps

end Store

end BackendProdReady.Lib.TwoPhaseLocking
