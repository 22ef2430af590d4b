import Mathlib.Tactic.Common

/-!
# Iterables

The iteration protocol of the Python language: `iter(obj)` gives an iterator, and `next`
an item or `StopIteration`.  Either may change the object.  A `for` loop drains an
iterator; what an object is worth after it depends on the object.  A list gives its items
again.  An iterator is its own `iter`, and once it has stopped it stays so.
-/

namespace BackendProdReady.Lib.Iterables

/-- An object of states `σ` with iterators of states `ι`.  Every traversal ends: `left`
bounds the items that are to come. -/
structure Iterable (σ ι α : Type) where
  iter : σ → ι × σ
  /-- `none` is `StopIteration`. -/
  next : ι → σ → Option α × ι × σ
  left : ι → σ → Nat
  left_next : ∀ {i : ι} {s : σ} {a : α} {i' : ι} {s' : σ},
    next i s = (some a, i', s') → left i' s' < left i s

namespace Iterable

variable {σ ι α : Type} (it : Iterable σ ι α)

/-- The items that an iterator gives, and what draining it leaves of the object. -/
inductive Drains : ι → σ → List α → σ → Prop
  | stop {i i' : ι} {s s' : σ} (hnext : it.next i s = (none, i', s')) : Drains i s [] s'
  | yield {i i' : ι} {s s' t : σ} {a : α} {items : List α}
      (hnext : it.next i s = (some a, i', s')) (hrest : Drains i' s' items t) :
      Drains i s (a :: items) t

def drain : Nat → ι → σ → List α × σ
  | 0, _, s => ([], s)
  | fuel + 1, i, s =>
      match it.next i s with
      | (none, _, s') => ([], s')
      | (some a, i', s') => (a :: (drain fuel i' s').1, (drain fuel i' s').2)

/-- `for item in obj`, and also `list(obj)`. -/
def traverse (s : σ) : List α × σ :=
  it.drain (it.left (it.iter s).1 (it.iter s).2 + 1) (it.iter s).1 (it.iter s).2

variable {it}

theorem drains_drain {fuel : Nat} {i : ι} {s : σ} (h : it.left i s < fuel) :
    it.Drains i s (it.drain fuel i s).1 (it.drain fuel i s).2 := by
  induction fuel generalizing i s with
  | zero => omega
  | succ fuel ih =>
      rw [drain]
      rcases hnext : it.next i s with ⟨item, i', s'⟩
      cases item with
      | none => exact .stop hnext
      | some a =>
          have hlt := it.left_next hnext
          exact .yield hnext (ih (by omega))

theorem drains_traverse (s : σ) :
    it.Drains (it.iter s).1 (it.iter s).2 (it.traverse s).1 (it.traverse s).2 :=
  drains_drain (Nat.lt_succ_self _)

theorem Drains.unique {i : ι} {s t t' : σ} {items items' : List α}
    (h : it.Drains i s items t) (h' : it.Drains i s items' t') : items = items' ∧ t = t' := by
  induction h generalizing items' with
  | stop hnext =>
      cases h' with
      | stop hnext' =>
          rw [hnext] at hnext'
          exact ⟨rfl, (Prod.mk.inj (Prod.mk.inj hnext').2).2⟩
      | yield hnext' _ =>
          rw [hnext] at hnext'
          cases hnext'
  | yield hnext _ ih =>
      cases h' with
      | stop hnext' =>
          rw [hnext] at hnext'
          cases hnext'
      | yield hnext' hrest' =>
          rw [hnext] at hnext'
          cases hnext'
          rcases ih hrest' with ⟨rfl, rfl⟩
          exact ⟨rfl, rfl⟩

theorem traverse_eq {s t : σ} {items : List α}
    (h : it.Drains (it.iter s).1 (it.iter s).2 items t) : it.traverse s = (items, t) := by
  rcases (drains_traverse s).unique h with ⟨hitems, ht⟩
  exact Prod.ext hitems ht

/-! ## Containers -/

def Stable (it : Iterable σ ι α) : Prop :=
  ∀ s, (it.traverse s).2 = s

/-! ## Iterators -/

/-- After a traversal there is nothing left: `iter` gives the object itself, which stays
stopped once it has stopped. -/
def OneShot (it : Iterable σ ι α) : Prop :=
  ∀ s, (it.traverse (it.traverse s).2).1 = []

/-- `iter(obj) is obj`, and `next` goes on raising `StopIteration` after the first time. -/
theorem oneShot_of_stays_stopped (hself : ∀ s, ∃ i, it.iter s = (i, s))
    (hstopped : ∀ i j s i' s', it.next i s = (none, i', s') → (it.next j s').1 = none) :
    OneShot it := by
  have hdrained : ∀ {i : ι} {s t : σ} {items : List α}, it.Drains i s items t →
      ∀ j, (it.next j t).1 = none := by
    intro i s t items h
    induction h with
    | stop hnext => exact fun j => hstopped _ j _ _ _ hnext
    | yield _ _ ih => exact ih
  intro s
  have hnone := hdrained (drains_traverse s)
  rcases hself (it.traverse s).2 with ⟨j, hj⟩
  rcases hnext : it.next j (it.traverse s).2 with ⟨item, i', t⟩
  have hitem : item = none := by
    have hj' := hnone j
    rwa [hnext] at hj'
  subst hitem
  have hempty : it.traverse (it.traverse s).2 = ([], t) := by
    apply traverse_eq
    rw [hj]
    exact .stop hnext
  rw [hempty]

/-! ## A sequence and a generator -/

/-- A list: its iterator is an index, and reading changes nothing. -/
def sequence (α : Type) : Iterable (List α) Nat α where
  iter := fun items => (0, items)
  next := fun i items => (items[i]?, i + 1, items)
  left := fun i items => items.length - i
  left_next := by
    intro i items a i' items' h
    simp only [Prod.mk.injEq] at h
    rcases h with ⟨hitem, rfl, rfl⟩
    have hlt : i < items.length := (List.getElem?_eq_some_iff.mp hitem).1
    omega

theorem drains_sequence (items : List α) (i : Nat) :
    (sequence α).Drains i items (items.drop i) items := by
  generalize hleft : items.length - i = left
  induction left generalizing i with
  | zero =>
      have hnone : items[i]? = none := List.getElem?_eq_none (by omega)
      rw [List.drop_eq_nil_of_le (by omega)]
      exact .stop (Prod.ext hnone rfl)
  | succ left ih =>
      have hlt : i < items.length := by omega
      rw [List.drop_eq_getElem_cons hlt]
      exact .yield (Prod.ext (List.getElem?_eq_getElem hlt) rfl) (ih (i + 1) (by omega))

theorem traverse_sequence (items : List α) : (sequence α).traverse items = (items, items) :=
  traverse_eq (drains_sequence items 0)

theorem stable_sequence : Stable (sequence α) := by
  intro items
  rw [traverse_sequence]

/-- A generator over the items that are to come; it is its own iterator. -/
def generator (α : Type) : Iterable (List α) Unit α where
  iter := fun items => ((), items)
  next := fun _ items =>
    match items with
    | [] => (none, (), [])
    | a :: rest => (some a, (), rest)
  left := fun _ items => items.length
  left_next := by
    intro i items a i' items' h
    cases items with
    | nil => cases h
    | cons b rest =>
        cases h
        exact Nat.lt_succ_self _

theorem drains_generator (items : List α) : (generator α).Drains () items items [] := by
  induction items with
  | nil => exact .stop rfl
  | cons a rest ih => exact .yield rfl ih

theorem traverse_generator (items : List α) : (generator α).traverse items = (items, []) :=
  traverse_eq (drains_generator items)

theorem oneShot_generator : OneShot (generator α) := by
  apply oneShot_of_stays_stopped
  · exact fun items => ⟨(), rfl⟩
  · intro i j items i' items' hnext
    cases items with
    | nil =>
        cases hnext
        rfl
    | cons a rest => cases hnext

end Iterable

end BackendProdReady.Lib.Iterables
