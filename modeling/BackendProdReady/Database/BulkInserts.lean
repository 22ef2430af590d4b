import BackendProdReady.Database.RepositoryStack
import BackendProdReady.Lib.Iterables

/-!
# Bulk inserts

`insert_many_orm` and `bulk_insert_orm` hand an iterable to the session, which runs
through it, and then return `list` of it, which runs through it a second time.  An
iterator has nothing left by then.
-/

namespace BackendProdReady.Database.BulkInserts

open BackendProdReady.Exceptions.Classes
open BackendProdReady.Lib.Iterables
open BackendProdReady.Database.RepositoryStack

variable {σ ι α : Type}

/-! ## The methods -/

structure Inserted (α : Type) where
  handed : List α
  result : Except Exc (List α)

/-- A call to the database: how it ends, and what its side effects leave of the iterable. -/
structure Saving (σ : Type) where
  outcome : BodyOutcome Unit
  after : σ → σ

/-- The body of a method that saves what it handed over and then lists the iterable. -/
def saveAndList (it : Iterable σ ι α) (saving : Saving σ) (instances : σ) :
    BodyOutcome (List α) :=
  match saving.outcome with
  | .returned _ => .returned (it.traverse (saving.after instances)).1
  | .raised e => .raised e
  | .exceeded => .exceeded

/-- `repository_method`; an open breaker does not run the body. -/
def repositoryMethod (isOpen : Bool) (openedState : ExcObject) (handed : List α)
    (body : BodyOutcome (List α)) : Inserted α where
  handed := if isOpen then [] else handed
  result := applyRepositoryDecorators isOpen openedState body

/-- `insert_many_orm`; `add_all` adds one instance after the other. -/
def insertManyOrm (isOpen : Bool) (openedState : ExcObject) (it : Iterable σ ι α)
    (instances : σ) (flush : Bool) (flushing : Saving σ) : Inserted α :=
  let added := it.traverse instances
  repositoryMethod isOpen openedState added.1
    (if flush then saveAndList it flushing added.2
    else .returned (it.traverse added.2).1)

/-- `bulk_insert_orm`; `bulk_save_objects` saves what it is given as it goes. -/
def bulkInsertOrm (isOpen : Bool) (openedState : ExcObject) (it : Iterable σ ι α)
    (instances : σ) (saving : Saving σ) : Inserted α :=
  let saved := it.traverse instances
  repositoryMethod isOpen openedState saved.1 (saveAndList it saving saved.2)

/-! ## What is returned -/

def ReturnsHanded (inserted : Inserted α) : Prop :=
  ∀ returned, inserted.result = .ok returned → returned = inserted.handed

def Rereads (it : Iterable σ ι α) (instances : σ) (after : σ → σ) : Prop :=
  (it.traverse (after (it.traverse instances).2)).1 = (it.traverse instances).1

theorem saveAndList_eq_returned_iff {it : Iterable σ ι α} {saving : Saving σ} {instances : σ}
    {returned : List α} :
    saveAndList it saving instances = .returned returned ↔
      saving.outcome = .returned () ∧ returned = (it.traverse (saving.after instances)).1 := by
  unfold saveAndList
  cases saving.outcome with
  | returned value => simp [eq_comm]
  | raised e | exceeded => simp

theorem returnsHanded_repositoryMethod {isOpen : Bool} {openedState : ExcObject}
    {handed : List α} {body : BodyOutcome (List α)} :
    ReturnsHanded (repositoryMethod isOpen openedState handed body) ↔
      (isOpen = false → ∀ returned, body = .returned returned → returned = handed) := by
  unfold ReturnsHanded repositoryMethod
  simp only [applyRepositoryDecorators_eq_ok_iff]
  cases isOpen with
  | true => simp
  | false => simp

theorem rereads_of_stable {it : Iterable σ ι α} (h : it.Stable) (instances : σ) :
    Rereads it instances id := by
  unfold Rereads
  rw [id_eq, h instances]

theorem rereads_sequence (items : List α) : Rereads (Iterable.sequence α) items id :=
  rereads_of_stable Iterable.stable_sequence items

/-- Of one-shot iterators, those that give nothing reread. -/
theorem rereads_oneShot_iff {it : Iterable σ ι α} (h : it.OneShot) (instances : σ) :
    Rereads it instances id ↔ (it.traverse instances).1 = [] := by
  unfold Rereads
  rw [id_eq, h instances]
  exact eq_comm

theorem rereads_generator_iff (items : List α) :
    Rereads (Iterable.generator α) items id ↔ items = [] := by
  rw [rereads_oneShot_iff Iterable.oneShot_generator, Iterable.traverse_generator]

theorem saveAndList_returns_iff {it : Iterable σ ι α} {saving : Saving σ} {instances : σ} :
    (∀ returned, saveAndList it saving (it.traverse instances).2 = .returned returned →
        returned = (it.traverse instances).1) ↔
      (saving.outcome = .returned () → Rereads it instances saving.after) := by
  simp only [saveAndList_eq_returned_iff]
  constructor
  · exact fun h houtcome => h _ ⟨houtcome, rfl⟩
  · rintro h returned ⟨houtcome, rfl⟩
    exact h houtcome

/-- Both methods return what they handed to the session exactly when the iterable, after
whatever the saving did to it, gives the same instances a second time.  Where the saving
does nothing to it, a container always does, and a one-shot iterator only when it is empty. -/
theorem returns_handed_iff (isOpen : Bool) (openedState : ExcObject) (it : Iterable σ ι α)
    (instances : σ) (flush : Bool) (saving : Saving σ) :
    (ReturnsHanded (insertManyOrm isOpen openedState it instances flush saving) ↔
      (isOpen = false → (flush = true → saving.outcome = .returned ()) →
        Rereads it instances (if flush then saving.after else id))) ∧
    (ReturnsHanded (bulkInsertOrm isOpen openedState it instances saving) ↔
      (isOpen = false → saving.outcome = .returned () → Rereads it instances saving.after)) ∧
    (it.Stable → Rereads it instances id) ∧
    (it.OneShot → (Rereads it instances id ↔ (it.traverse instances).1 = [])) := by
  refine ⟨?_, ?_, fun hstable => rereads_of_stable hstable instances,
    fun honce => rereads_oneShot_iff honce instances⟩
  · unfold insertManyOrm
    rw [returnsHanded_repositoryMethod]
    refine forall_congr' fun _ => ?_
    cases flush with
    | true =>
        simp only [if_true, forall_const]
        exact saveAndList_returns_iff
    | false =>
        simp [Rereads]
  · unfold bulkInsertOrm
    rw [returnsHanded_repositoryMethod]
    exact forall_congr' fun _ => saveAndList_returns_iff

/-- Two instances from a generator reach the session, and the caller gets none. -/
theorem generator_returns_nothing :
    insertManyOrm false purgatoryOpenedState (Iterable.generator Nat) [1, 2] true
        ⟨.returned (), id⟩ = ⟨[1, 2], .ok []⟩ ∧
      ¬ ReturnsHanded (insertManyOrm false purgatoryOpenedState (Iterable.generator Nat) [1, 2]
        true ⟨.returned (), id⟩) ∧
      ¬ ReturnsHanded (bulkInsertOrm false purgatoryOpenedState (Iterable.generator Nat) [1, 2]
        ⟨.returned (), id⟩) := by
  refine ⟨rfl, fun h => ?_, fun h => ?_⟩
  · cases h [] rfl
  · cases h [] rfl

end BackendProdReady.Database.BulkInserts
