import BackendProdReady.Database.ExitProtocol

/-!
# Units of work over a shared session

Inner units receive the session of the owning unit and must leave its
transaction alone.  A unit configured for sharing does; one given the session
through its constructor keeps `auto_commit`, and commits when its body ends
normally.
-/

namespace BackendProdReady.Database.SharedSession

open BackendProdReady.Lib.Calls
open BackendProdReady.Exceptions.Classes
open BackendProdReady.Database.Decorators
open BackendProdReady.Database.Uow
open BackendProdReady.Database.ExitProtocol

/-! ## Nested bodies -/

/-- How an inner unit was given the shared session, its `auto_commit` not set. -/
inductive Sharing
  | constructor (hasSessionFactory : Bool)
  | configured (constructedWith : Option SessionId) (hasSessionFactory : Bool)

def Sharing.unit (shared : SessionId) : Sharing → UnitOfWork
  | .constructor hasSessionFactory => init (some shared) hasSessionFactory true
  | .configured constructedWith hasSessionFactory =>
      configureForSharedSession shared (init constructedWith hasSessionFactory true)

/-- The body of a unit: statements on the session, and blocks of inner units.
What an inner block raises is caught, or ends the body. -/
inductive Body
  | ends (exc : Option ExcObject)
  | work (statement : String) (rest : Body)
  | flush (awaited : AwaitOutcome) (rest : Body)
  | addRepository (name : String) (rest : Body)
  | within (sharing : Sharing) (enter : EnterAwaits) (inner : Body) (exit : ExitAwaits)
      (rest : Body)

namespace Body

def outcome : Body → Option ExcObject
  | .ends exc => exc
  | .work _ rest | .flush _ rest | .addRepository _ rest | .within _ _ _ _ rest => rest.outcome

/-- The unit whose body this is, after it. -/
def state : Body → UnitOfWork → UnitOfWork
  | .ends _, uow => uow
  | .work _ rest, uow => rest.state uow
  | .flush awaited rest, uow => rest.state (Uow.flush awaited uow).state
  | .addRepository name rest, uow => rest.state (Uow.addRepository name uow).state
  | .within _ _ _ _ rest, uow => rest.state uow

end Body

inductive SessionEvent
  | work (statement : String)
  | call (c : SessionCall)
deriving DecidableEq

def Body.events (shared : SessionId) : Body → UnitOfWork → List SessionEvent
  | .ends _, _ => []
  | .work statement rest, uow => .work statement :: rest.events shared uow
  | .flush awaited rest, uow =>
      (Uow.flush awaited uow).calls.map .call ++
        rest.events shared (Uow.flush awaited uow).state
  | .addRepository name rest, uow =>
      (Uow.addRepository name uow).calls.map .call ++
        rest.events shared (Uow.addRepository name uow).state
  | .within sharing enter inner exit rest, uow =>
      let entered := aenter enter (sharing.unit shared)
      entered.calls.map .call ++
        (match entered.result with
          | .error _ => []
          | .ok () =>
              inner.events shared entered.state ++
                (aexit inner.outcome exit (inner.state entered.state)).calls.map .call) ++
        rest.events shared uow

/-! ## Transactions -/

def endsTransaction : SessionCall → Bool
  | .commit _ | .rollback _ | .close _ | .syncClose _ => true
  | .flush _ => false

/-- The transaction that is open on the shared session, and what was committed before. -/
structure Transaction where
  committed : List String
  pending : List String
deriving DecidableEq

def Transaction.apply (t : Transaction) : SessionEvent → Transaction
  | .work statement => { t with pending := t.pending ++ [statement] }
  | .call (.commit _) => ⟨t.committed ++ t.pending, []⟩
  | .call (.rollback _) | .call (.close _) | .call (.syncClose _) => { t with pending := [] }
  | .call (.flush _) => t

def statement? : SessionEvent → Option String
  | .work statement => some statement
  | .call _ => none

def Unended (events : List SessionEvent) : Prop :=
  ∀ c, .call c ∈ events → endsTransaction c = false

/-- Inner units leave the transaction to the owner of the session. -/
structure LeftToOwner (events : List SessionEvent) : Prop where
  unended : Unended events
  together : ∀ t : Transaction,
    events.foldl Transaction.apply t =
      { t with pending := t.pending ++ events.filterMap statement? }

theorem apply_of_not_ends {event : SessionEvent}
    (h : ∀ c, event = .call c → endsTransaction c = false) (t : Transaction) :
    t.apply event = { t with pending := t.pending ++ (statement? event).toList } := by
  cases event with
  | work statement => rfl
  | call c =>
      have hc := h c rfl
      cases c with
      | flush session => simp [Transaction.apply, statement?]
      | _ => cases hc

/-- Between two ends of a transaction everything stays pending. -/
theorem leftToOwner_of_unended {events : List SessionEvent} (h : Unended events) :
    LeftToOwner events := by
  refine ⟨h, ?_⟩
  induction events with
  | nil => simp
  | cons event events ih =>
      intro t
      have hhead : ∀ c, event = .call c → endsTransaction c = false := by
        rintro c rfl
        exact h c List.mem_cons_self
      have htail := ih fun c hc => h c (List.mem_cons_of_mem _ hc)
      rw [List.foldl_cons, htail, apply_of_not_ends hhead]
      cases hstatement : statement? event <;> simp [hstatement]

/-! ## Units that borrow the session -/

/-- A unit on a session it does not own. -/
structure Borrows (shared : SessionId) (autoCommit : Bool) (uow : UnitOfWork) : Prop where
  notOwner : uow.ownsSession = false
  session : uow.session = some shared
  autoCommit : uow.autoCommit = autoCommit

def Sharing.autoCommit : Sharing → Bool
  | .constructor _ => true
  | .configured _ _ => false

theorem Sharing.borrows (shared : SessionId) (sharing : Sharing) :
    Borrows shared sharing.autoCommit (sharing.unit shared) := by
  cases sharing with
  | constructor hasSessionFactory => exact ⟨rfl, rfl, rfl⟩
  | configured constructedWith hasSessionFactory => exact ⟨rfl, rfl, rfl⟩

section Borrowing

variable {shared : SessionId} {autoCommit : Bool} {uow : UnitOfWork}

theorem borrows_setTimeoutOccurred (uow : UnitOfWork) (h : Borrows shared autoCommit uow) :
    Borrows shared autoCommit (setTimeoutOccurred uow) :=
  ⟨h.notOwner, h.session, h.autoCommit⟩

theorem Borrows.addRepository (h : Borrows shared autoCommit uow) (name : String) :
    ∃ u, Uow.addRepository name uow = .done u ∧ Borrows shared autoCommit u := by
  rw [Uow.addRepository, h.session]
  exact ⟨_, rfl, h.notOwner, rfl, h.autoCommit⟩

theorem Borrows.body (body : Body) :
    ∀ {uow}, Borrows shared autoCommit uow → Borrows shared autoCommit (body.state uow) := by
  induction body with
  | ends exc => exact id
  | work statement rest ih => exact ih
  | flush awaited rest ih => exact fun h => ih (flush_state borrows_setTimeoutOccurred h awaited)
  | addRepository name rest ih =>
      intro uow h
      obtain ⟨u, hadd, hu⟩ := h.addRepository name
      rw [Body.state, hadd]
      exact ih hu
  | within sharing enter inner exit rest _ ih => exact ih

theorem Borrows.registerRepositories (awaits : EnterAwaits) (names : List String) :
    ∀ {uow}, Borrows shared autoCommit uow →
      let m := Uow.registerRepositories awaits names uow
      Borrows shared autoCommit m.state ∧ m.calls = [] ∧
        (m.result = .ok () ↔ awaits.registration = .ok ()) := by
  induction names with
  | nil =>
      intro uow h
      unfold Uow.registerRepositories
      cases awaits.registration with
      | ok => exact ⟨h, rfl, by simp [Effect.done]⟩
      | error e => exact ⟨h, rfl, by simp [Effect.raise]⟩
  | cons name names ih =>
      intro uow h
      obtain ⟨u, hadd, hu⟩ := h.addRepository name
      rw [Uow.registerRepositories, hadd, Effect.done_andThen]
      exact ih hu

theorem Borrows.closeAfterFailure (h : Borrows shared autoCommit uow) (awaits : EnterAwaits) :
    Uow.closeAfterFailure awaits uow = .done uow := by
  rw [Uow.closeAfterFailure, h.session, h.notOwner]

theorem borrows_failurePath {m : UowEffect} (awaits : EnterAwaits)
    (h : Borrows shared autoCommit m.state) :
    let block := m.tryExcept fun e =>
      if e.isInstance [.exception] then
        some fun u => (Uow.closeAfterFailure awaits u).andThen fun u => .raise u e
      else none
    Borrows shared autoCommit block.state ∧ block.calls = m.calls ∧
      (block.result = .ok () ↔ m.result = .ok ()) := by
  intro block
  cases hm : m.result with
  | ok =>
      have hblock : block = m := Effect.tryExcept_of_ok hm
      rw [hblock]
      exact ⟨h, rfl, by simp [hm]⟩
  | error e =>
      by_cases hexception : e.isInstance [.exception] = true
      · have hblock : block = m.after fun u =>
            (Uow.closeAfterFailure awaits u).andThen fun u => .raise u e :=
          Effect.tryExcept_of_handled hm (if_pos hexception)
        have hraise : (Uow.closeAfterFailure awaits m.state).andThen (fun u => .raise u e) =
            .raise m.state e := by
          rw [h.closeAfterFailure, Effect.done_andThen]
        rw [hblock, Effect.after_state, Effect.after_calls, Effect.after_result, hraise]
        exact ⟨h, List.append_nil _, by simp [Effect.raise]⟩
      · have hblock : block = m := Effect.tryExcept_of_unhandled hm (if_neg hexception)
        rw [hblock]
        exact ⟨h, rfl, by simp [hm]⟩

theorem Borrows.aenter (h : Borrows shared autoCommit uow) (awaits : EnterAwaits) :
    Borrows shared autoCommit (Uow.aenter awaits uow).state ∧
      (Uow.aenter awaits uow).calls = [] ∧
      ((Uow.aenter awaits uow).result = .ok () ↔ awaits.registration = .ok ()) := by
  have hcreate : createOwnSession awaits uow = .done uow := by
    simp [createOwnSession, h.notOwner]
  obtain ⟨hstate, hcalls, hresult⟩ := h.registerRepositories awaits awaits.registered
  obtain ⟨hblock, hblockCalls, hblockResult⟩ := borrows_failurePath awaits hstate
  rw [Uow.aenter, timeout_calls, databaseErrorHandler_calls, decorated_returned_iff,
    hcreate, Effect.done_andThen]
  refine ⟨timeout_state borrows_setTimeoutOccurred ?_, hblockCalls.trans hcalls,
    hblockResult.trans hresult⟩
  rw [databaseErrorHandler_state]
  exact hblock

/-- Only a commit at a normal end touches a session that is not owned. -/
theorem Borrows.endTransaction_calls (h : Borrows shared autoCommit uow)
    (exc : Option ExcObject) (awaits : ExitAwaits) :
    (∀ c ∈ (endTransaction exc awaits uow).calls, endsTransaction c = false) ↔
      (autoCommit = true → exc.any (·.typeTruth) = true) := by
  rw [endTransaction, h.notOwner, h.autoCommit]
  by_cases hraised : exc.any (·.typeTruth) = true
  · simp [hraised, Effect.done]
  · by_cases hauto : autoCommit = true
    · have hcommit := commit_mem_commit h.session awaits.commit
      simp only [hraised, hauto, if_true, forall_const]
      constructor
      · intro hends
        cases hends _ hcommit
      · exact fun hfalse => absurd hfalse (by simp)
    · simp [hraised, hauto, Effect.done]

theorem Borrows.aexit_calls (h : Borrows shared autoCommit uow) (exc : Option ExcObject)
    (awaits : ExitAwaits) :
    (∀ c ∈ (aexit exc awaits uow).calls, endsTransaction c = false) ↔
      (autoCommit = true → exc.any (·.typeTruth) = true) := by
  have hrelease : ∀ u, Borrows shared autoCommit u →
      (releaseSession awaits.cleanup u).calls = [] := by
    intro u hu
    simp [releaseSession, hu.notOwner, Effect.done]
  have hnotDetected : detectTimeout exc uow = .done uow →
      ((∀ c ∈ (aexit exc awaits uow).calls, endsTransaction c = false) ↔
        (autoCommit = true → exc.any (·.typeTruth) = true)) := by
    intro hdone
    rw [aexit, hdone, Effect.done_andThen, Effect.tryFinally_calls,
      hrelease _ (endTransaction_state borrows_setTimeoutOccurred h exc awaits), List.append_nil]
    exact h.endTransaction_calls exc awaits
  cases exc with
  | none => exact hnotDetected rfl
  | some e =>
      by_cases htruthy : (e.typeTruth && e.truth) = true
      · obtain ⟨htype, htruth⟩ := Bool.and_eq_true_iff.mp htruthy
        rw [aexit, detectTimeout_truthy htype htruth, Effect.raise_andThen,
          Effect.tryFinally_calls, Effect.raise_state, hrelease _ h]
        simp [htype]
      · exact hnotDetected (detectTimeout_falsy (Bool.not_eq_true _ ▸ htruthy) uow)

end Borrowing

/-! ## Main result -/

/-- Every unit that was given the session through its constructor, and entered,
has a body that ends in an exception. -/
def Body.ConstructedRaise : Body → Prop
  | .ends _ => True
  | .work _ rest | .flush _ rest | .addRepository _ rest => rest.ConstructedRaise
  | .within sharing enter inner _ rest =>
      (enter.registration = .ok () →
        inner.ConstructedRaise ∧
          (sharing.autoCommit = true → inner.outcome.any (·.typeTruth) = true)) ∧
        rest.ConstructedRaise

theorem flush_calls (awaited : AwaitOutcome) (uow : UnitOfWork) {c : SessionCall}
    (h : c ∈ (flush awaited uow).calls) : endsTransaction c = false := by
  rw [flush, timeout_calls, databaseErrorHandler_calls] at h
  split at h
  · cases h
  · obtain rfl := List.mem_singleton.mp h
    rfl

theorem addRepository_calls (name : String) (uow : UnitOfWork) :
    (addRepository name uow).calls = [] := by
  unfold addRepository
  split <;> rfl

theorem unended_append {events events' : List SessionEvent} :
    Unended (events ++ events') ↔ Unended events ∧ Unended events' := by
  simp only [Unended, List.mem_append]
  constructor
  · exact fun h => ⟨fun c hc => h c (.inl hc), fun c hc => h c (.inr hc)⟩
  · exact fun h c hc => hc.elim (h.1 c) (h.2 c)

theorem unended_calls {calls : List SessionCall} :
    Unended (calls.map .call) ↔ ∀ c ∈ calls, endsTransaction c = false := by
  simp [Unended]

theorem unended_iff (shared : SessionId) (body : Body) :
    ∀ uow, Unended (body.events shared uow) ↔ body.ConstructedRaise := by
  induction body with
  | ends exc =>
      intro uow
      simp [Unended, Body.events, Body.ConstructedRaise]
  | work statement rest ih =>
      intro uow
      simpa [Unended, Body.events, Body.ConstructedRaise] using ih uow
  | flush awaited rest ih =>
      intro uow
      rw [Body.events, unended_append, unended_calls, ih]
      exact and_iff_right fun c hc => flush_calls awaited uow hc
  | addRepository name rest ih =>
      intro uow
      rw [Body.events, addRepository_calls]
      exact ih _
  | within sharing enter inner exit rest ihInner ihRest =>
      intro uow
      obtain ⟨hentered, hcalls, hresult⟩ := (sharing.borrows shared).aenter enter
      rw [Body.events, Body.ConstructedRaise]
      simp only [hcalls, List.map_nil, List.nil_append]
      rw [unended_append, ihRest]
      refine and_congr_left fun _ => ?_
      cases hm : (aenter enter (sharing.unit shared)).result with
      | ok =>
          have hexit := (hentered.body inner).aexit_calls inner.outcome exit
          simp only [unended_append, unended_calls, ihInner, hexit, hresult.mp hm, forall_const]
      | error e =>
          have hfailed : enter.registration ≠ .ok () := fun hok => by
            simp [hresult.mpr hok] at hm
          simp [Unended, hfailed]

/-- The transaction is left to the owner exactly when no constructed unit ends
normally. -/
theorem leftToOwner_iff (shared : SessionId) (body : Body) (uow : UnitOfWork) :
    LeftToOwner (body.events shared uow) ↔ body.ConstructedRaise := by
  rw [← unended_iff shared body uow]
  exact ⟨fun h => h.unended, leftToOwner_of_unended⟩

/-- A block of a unit constructed on the session, between two statements of the owner. -/
def constructedBlock : Body :=
  .work "before" <|
    .within (.constructor false) ⟨.ok 2, ["users"], .ok (), .returned⟩
      (.work "inside" (.ends none)) allReturned <|
    .work "after" (.ends none)

/-- The inner unit commits what the owner did before it. -/
theorem inner_unit_commits :
    constructedBlock.events 1 openUnit =
        [.work "before", .work "inside", .call (.commit 1), .work "after"] ∧
      ¬ LeftToOwner (constructedBlock.events 1 openUnit) := by
  have hevents : constructedBlock.events 1 openUnit =
      [.work "before", .work "inside", .call (.commit 1), .work "after"] := rfl
  refine ⟨hevents, fun hleft => ?_⟩
  have hcommit := hleft.unended (.commit 1) (by simp [hevents])
  cases hcommit

end BackendProdReady.Database.SharedSession
