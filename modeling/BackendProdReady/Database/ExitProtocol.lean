import BackendProdReady.Database.Uow

/-!
# The exit protocol of an owning unit of work

A unit that owns its session commits at exit when its body ended normally and
rolls back when it raised, and the exception of the body is what the caller
sees.  The code keeps to this on a normal end only: on any other, `__aexit__`
imports a class that its module does not define before it reaches the rollback.
-/

namespace BackendProdReady.Database.ExitProtocol

open BackendProdReady.Lib.Calls
open BackendProdReady.Exceptions.Classes
open BackendProdReady.Database.Decorators
open BackendProdReady.Database.Uow

/-! ## What the transaction methods keep -/

section Kept

variable {P : UnitOfWork → Prop} (hflag : ∀ u, P u → P (setTimeoutOccurred u))
  {uow : UnitOfWork} (h : P uow)
include hflag h

/-- The handlers of both rollbacks set the flag or nothing. -/
theorem rolledBack_state {e : Exc} {ignored : List ExcClass} {next : UnitOfWork → UowEffect}
    (hnext : (if e.isInstance [.timeoutError] then
        some fun u => Effect.done (setTimeoutOccurred u)
      else if e.isInstance ignored then some Effect.done else none) = some next) :
    P (next uow).state := by
  split_ifs at hnext
  · obtain rfl := Option.some.inj hnext
    exact hflag uow h
  · obtain rfl := Option.some.inj hnext
    exact h

theorem rollback_state (awaited : AwaitOutcome) : P (rollback awaited uow).state := by
  rw [rollback, databaseErrorHandler_state]
  split
  · exact h
  · exact Effect.tryExcept_state h fun e next hnext u hu => rolledBack_state hflag hu hnext

theorem commit_state (awaits : CommitAwaits) : P (commit awaits uow).state := by
  refine timeout_state hflag ?_
  rw [cancelledWhile_state, databaseErrorHandler_state]
  split
  · split <;> exact h
  · refine Effect.tryExcept_state h fun e next hnext u hu => ?_
    split_ifs at hnext
    obtain rfl := Option.some.inj hnext
    exact Effect.andThen_state (rollback_state hflag hu _) fun _ hs => hs

theorem flush_state (awaited : AwaitOutcome) : P (flush awaited uow).state := by
  refine timeout_state hflag ?_
  rw [databaseErrorHandler_state]
  split <;> exact h

theorem safeRollback_state (awaited : AwaitOutcome) : P (safeRollback awaited uow).state := by
  unfold safeRollback
  split
  · exact h
  · exact Effect.tryExcept_state h fun e next hnext u hu => rolledBack_state hflag hu hnext

theorem endTransaction_state (exc : Option ExcObject) (awaits : ExitAwaits) :
    P (endTransaction exc awaits uow).state := by
  unfold endTransaction
  split_ifs
  · exact safeRollback_state hflag h _
  · exact h
  · exact commit_state hflag h _
  · exact h

end Kept

/-! ## Units that own an open session -/

/-- The unit owns the session it has open. -/
def OpenOn (session : SessionId) (uow : UnitOfWork) : Prop :=
  uow.ownsSession = true ∧ uow.session = some session

theorem openOn_setTimeoutOccurred {session : SessionId} (uow : UnitOfWork)
    (h : OpenOn session uow) : OpenOn session (setTimeoutOccurred uow) := h

theorem addRepository_openOn {session : SessionId} {uow : UnitOfWork}
    (h : OpenOn session uow) (name : String) :
    OpenOn session (addRepository name uow).state := by
  rw [addRepository, h.2]
  exact ⟨h.1, rfl⟩

/-- No action of the body leaves the unit without a session. -/
theorem action_openOn {session : SessionId} {uow : UnitOfWork} (h : OpenOn session uow)
    (action : BodyAction) : ∃ session', OpenOn session' (action.run uow).state := by
  cases action with
  | commit awaits => exact ⟨session, commit_state openOn_setTimeoutOccurred h awaits⟩
  | rollback awaited => exact ⟨session, rollback_state openOn_setTimeoutOccurred h awaited⟩
  | flush awaited => exact ⟨session, flush_state openOn_setTimeoutOccurred h awaited⟩
  | addRepository name => exact ⟨session, addRepository_openOn h name⟩
  | setAutoCommit autoCommit => exact ⟨session, h⟩
  | setSession session' => exact ⟨session', h.1, rfl⟩

theorem runBody_openOn (actions : List BodyAction) :
    ∀ {session uow}, OpenOn session uow → ∃ session', OpenOn session' (runBody actions uow) := by
  induction actions with
  | nil => exact fun h => ⟨_, h⟩
  | cons action actions ih =>
      intro session uow h
      obtain ⟨session', hnext⟩ := action_openOn h action
      exact ih hnext

theorem registerRepositories_openOn {session : SessionId} (awaits : EnterAwaits)
    (names : List String) :
    ∀ uow, OpenOn session uow →
      OpenOn session (registerRepositories awaits names uow).state := by
  induction names with
  | nil =>
      intro uow h
      rw [registerRepositories]
      split <;> exact h
  | cons name names ih =>
      intro uow h
      exact Effect.andThen_state (addRepository_openOn h name) ih

theorem createOwnSession_openOn {awaits : EnterAwaits} {uow : UnitOfWork}
    (howns : uow.ownsSession = true) (h : (createOwnSession awaits uow).result = .ok ()) :
    ∃ session, OpenOn session (createOwnSession awaits uow).state := by
  by_cases hfactory : uow.hasSessionFactory = true
  · cases hcreate : awaits.createSession with
    | error e => simp [createOwnSession, howns, hfactory, hcreate, Effect.raise] at h
    | ok session =>
        refine ⟨session, ?_⟩
        simp [createOwnSession, howns, hfactory, hcreate, Effect.done, OpenOn]
  · simp [createOwnSession, howns, hfactory, Effect.raise] at h

/-- A unit that is to own its session has one open once it is entered. -/
theorem aenter_openOn {awaits : EnterAwaits} {uow : UnitOfWork} (howns : uow.ownsSession = true)
    (hentered : (aenter awaits uow).result = .ok ()) :
    ∃ session, OpenOn session (aenter awaits uow).state := by
  obtain ⟨hhandler, htimeout⟩ := timeout_returned hentered
  rw [aenter, htimeout, databaseErrorHandler_state]
  have hsetup := databaseErrorHandler_returned hhandler
  obtain ⟨hok, hblock⟩ := Effect.tryExcept_returned (fun e next hnext u => by
    split_ifs at hnext
    obtain rfl := Option.some.inj hnext
    exact Effect.andThen_raise_ne_returned e) hsetup
  rw [hblock]
  obtain ⟨hcreate, hafter⟩ := Effect.andThen_returned hok
  rw [hafter, Effect.after_state]
  obtain ⟨session, hsession⟩ := createOwnSession_openOn howns hcreate
  exact ⟨session, registerRepositories_openOn awaits _ _ hsession⟩

/-- Whatever the body did, a unit that was entered reaches its exit open. -/
theorem openOn_of_entered {awaits : EnterAwaits} {uow : UnitOfWork}
    (howns : uow.ownsSession = true) (hentered : (aenter awaits uow).result = .ok ())
    (actions : List BodyAction) :
    ∃ session, OpenOn session (runBody actions (aenter awaits uow).state) := by
  obtain ⟨session, h⟩ := aenter_openOn howns hentered
  exact runBody_openOn actions h

/-! ## What each part of the exit awaits -/

theorem commit_mem_commit {session : SessionId} {uow : UnitOfWork}
    (h : uow.session = some session) (awaits : CommitAwaits) :
    .commit session ∈ (commit awaits uow).calls := by
  rw [commit_of_session h, timeout_calls, cancelledWhile_calls, databaseErrorHandler_calls]
  exact Effect.mem_tryExcept_of_mem (by simp [Effect.call])

theorem safeRollback_calls {session : SessionId} {uow : UnitOfWork}
    (h : OpenOn session uow) (awaited : AwaitOutcome) :
    (safeRollback awaited uow).calls = [.rollback session] := by
  rw [safeRollback, h.2]
  refine Effect.tryExcept_calls fun e next hnext u => ?_
  split_ifs at hnext
  · obtain rfl := Option.some.inj hnext
    rfl
  · obtain rfl := Option.some.inj hnext
    rfl

theorem cleanupDelay_cases (awaited : DelayOutcome) (uow : UnitOfWork) :
    cleanupDelay awaited uow = .done uow ∨ ∃ e, cleanupDelay awaited uow = .raise uow e := by
  unfold cleanupDelay
  split_ifs
  · cases awaited with
    | elapsed => exact .inl rfl
    | raised e => exact .inr ⟨_, rfl⟩
    | cancelled => exact .inr ⟨_, rfl⟩
  · exact .inl rfl

theorem not_mem_releaseSession {k : SessionCall} (hclose : ∀ s, k ≠ .close s)
    (hsync : ∀ s, k ≠ .syncClose s) (awaits : CleanupAwaits) (uow : UnitOfWork) :
    k ∉ (releaseSession awaits uow).calls := by
  have hforce : ∀ session u, k ∉ (forceSyncClose awaits.syncSession session u).calls := by
    intro session u
    unfold forceSyncClose
    split
    · simp [Effect.done]
    · simpa [Effect.call] using hsync session
    · refine Effect.not_mem_tryExcept (by simpa [Effect.call] using hsync session) ?_
      intro e next hnext u
      split_ifs at hnext
      obtain rfl := Option.some.inj hnext
      simp [Effect.done]
  have hcloseSession : ∀ session u, k ∉ (closeSession awaits session u).calls := by
    intro session u
    simp only [closeSession, Effect.tryFinally_calls, List.mem_append, not_or]
    refine ⟨Effect.not_mem_tryExcept (by simpa [Effect.call] using hclose session) ?_,
      by simp [Effect.done]⟩
    intro e next hnext u
    split_ifs at hnext
    all_goals obtain rfl := Option.some.inj hnext
    · exact hforce session u
    · simp [Effect.done]
    · simp [Effect.done]
  unfold releaseSession
  split
  · refine Effect.not_mem_andThen ?_ fun u => by simp [Effect.done]
    unfold cleanupSession
    split
    · simp [Effect.done]
    · refine Effect.not_mem_andThen ?_ fun u => hcloseSession _ u
      rcases cleanupDelay_cases awaits.delay uow with hdelay | ⟨e, hdelay⟩
      · simp [hdelay, Effect.done]
      · simp [hdelay, Effect.raise]
  · simp [Effect.done]

theorem closeSession_returned {awaits : CleanupAwaits} (hclose : awaits.close = .returned)
    (session : SessionId) (uow : UnitOfWork) :
    (closeSession awaits session uow).result = .ok () := by
  simp [closeSession, hclose, AwaitOutcome.underWaitFor, Effect.call, Effect.done,
    Effect.tryExcept, Effect.tryFinally]

theorem releaseSession_returned {session : SessionId} {uow : UnitOfWork}
    (h : OpenOn session uow) {awaits : CleanupAwaits} (hclose : awaits.close = .returned)
    (hmem : .close session ∈ (releaseSession awaits uow).calls) :
    (releaseSession awaits uow).result = .ok () := by
  rw [releaseSession, if_pos h.1, cleanup, cleanupSession, h.2] at hmem ⊢
  rcases cleanupDelay_cases awaits.delay uow with hdelay | ⟨e, hdelay⟩
  · have hreturned := closeSession_returned hclose session uow
    simp only [hdelay, Effect.done_andThen]
    rw [Effect.andThen_of_ok hreturned]
    rfl
  · simp [hdelay, Effect.raise, Effect.andThen] at hmem

/-! ## The protocol -/

structure Protocol (session : SessionId) (exc : Option ExcObject) (awaits : ExitAwaits)
    (uow : UnitOfWork) : Prop where
  commits : .commit session ∈ (aexit exc awaits uow).calls ↔ exc = none ∧ uow.autoCommit = true
  rollsBack : ∀ e, exc = some e →
    .rollback session ∈ (aexit exc awaits uow).calls ∧
      .commit session ∉ (aexit exc awaits uow).calls
  propagates : ∀ e, exc = some e → awaits.safeRollback = .returned →
    awaits.cleanup.close = .returned → .close session ∈ (aexit exc awaits uow).calls →
    leave exc awaits uow = .error (.object e)

theorem importFrom_timeoutException :
    importFrom httpExceptions "TimeoutException" =
      .error (.importError "backend.core.exceptions.http_exceptions" "TimeoutException") := by
  rfl

theorem detectTimeout_truthy {e : ExcObject} (htype : e.typeTruth = true)
    (htruth : e.truth = true) (uow : UnitOfWork) :
    detectTimeout (some e) uow =
      .raise uow (.importError "backend.core.exceptions.http_exceptions" "TimeoutException") := by
  rw [detectTimeout, htype, htruth, importFrom_timeoutException]
  rfl

theorem detectTimeout_falsy {e : ExcObject} (h : (e.typeTruth && e.truth) = false)
    (uow : UnitOfWork) : detectTimeout (some e) uow = .done uow := by
  simp [detectTimeout, h]

/-- An exception that is true in a boolean context stops at the second import. -/
theorem not_protocol_of_truthy {session : SessionId} {e : ExcObject} (htype : e.typeTruth = true)
    (htruth : e.truth = true) (uow : UnitOfWork) (awaits : ExitAwaits) :
    ¬ Protocol session (some e) awaits uow := by
  intro hprotocol
  have hcalled := (hprotocol.rollsBack e rfl).1
  rw [aexit, detectTimeout_truthy htype htruth, Effect.raise_andThen,
    Effect.tryFinally_calls] at hcalled
  have hrelease := not_mem_releaseSession (k := .rollback session)
    (by simp) (by simp) awaits.cleanup uow
  simp [Effect.raise, hrelease] at hcalled

section Exit

variable {session : SessionId} {uow : UnitOfWork} (h : OpenOn session uow)
include h

theorem protocol_of_return (awaits : ExitAwaits) : Protocol session none awaits uow where
  commits := by
    have hrelease := fun u => not_mem_releaseSession (k := .commit session)
      (by simp) (by simp) awaits.cleanup u
    simp only [aexit, detectTimeout, Effect.done_andThen, endTransaction, Option.any_none,
      Effect.tryFinally_calls, List.mem_append, hrelease, or_false, true_and]
    by_cases hauto : uow.autoCommit = true
    · simp [hauto, commit_mem_commit h.2]
    · simp [hauto, Effect.done]
  rollsBack := by simp
  propagates := by simp

theorem safeRollback_returned :
    (safeRollback .returned uow).result = .ok () ∧
      (safeRollback .returned uow).state = uow := by
  simp [safeRollback, h.2, AwaitOutcome.underWaitFor, Effect.call, Effect.tryExcept]

theorem protocol_of_falsy {e : ExcObject} (htype : e.typeTruth = true)
    (htruth : e.truth = false) (awaits : ExitAwaits) :
    Protocol session (some e) awaits uow := by
  have hblock : ((detectTimeout (some e) uow).andThen fun u =>
      endTransaction (some e) awaits u) = safeRollback awaits.safeRollback uow := by
    rw [detectTimeout_falsy (by simp [htruth]) uow, Effect.done_andThen]
    simp [endTransaction, htype, h.1]
  have hrelease := fun u => not_mem_releaseSession (k := .commit session)
    (by simp) (by simp) awaits.cleanup u
  refine ⟨?_, ?_, ?_⟩
  · simp [aexit, hblock, safeRollback_calls h, hrelease]
  · rintro _ -
    simp [aexit, hblock, safeRollback_calls h, hrelease]
  · intro e' he hrollback hclose hmem
    obtain rfl := Option.some.inj he
    rw [aexit, hblock, hrollback, Effect.tryFinally_calls] at hmem
    obtain ⟨hresult, hstate⟩ := safeRollback_returned h
    rw [hstate, safeRollback_calls h] at hmem
    have hreleased := releaseSession_returned h hclose (by simpa using hmem)
    have hexit : (aexit (some e) awaits uow).result = .ok () := by
      rw [aexit, hblock, hrollback,
        Effect.tryFinally_result_of_ok (by rw [hstate]; exact hreleased), hresult]
    simp [leave, hexit]

/-- An exception of a false class is taken for a normal end. -/
theorem not_protocol_of_falsy_class {e : ExcObject} (htype : e.typeTruth = false)
    (awaits : ExitAwaits) : ¬ Protocol session (some e) awaits uow := by
  intro hprotocol
  obtain ⟨hrollback, hcommit⟩ := hprotocol.rollsBack e rfl
  have hrelease := fun u => not_mem_releaseSession (k := .rollback session)
    (by simp) (by simp) awaits.cleanup u
  rw [aexit, detectTimeout_falsy (by simp [htype]) uow, Effect.done_andThen,
    Effect.tryFinally_calls] at hrollback hcommit
  by_cases hauto : uow.autoCommit = true
  · simp [endTransaction, htype, hauto, commit_mem_commit h.2] at hcommit
  · simp [endTransaction, htype, hauto, Effect.done, hrelease] at hrollback

end Exit

/-! ## Main result -/

/-- The exit of an owning unit keeps to its protocol exactly when the body ended
normally or raised an object that is false in a boolean context. -/
theorem exit_protocol_iff {session : SessionId} {uow : UnitOfWork} (h : OpenOn session uow)
    (exc : Option ExcObject) (awaits : ExitAwaits) :
    Protocol session exc awaits uow ↔
      ∀ e, exc = some e → e.typeTruth = true ∧ e.truth = false := by
  cases exc with
  | none => simp [protocol_of_return h]
  | some e =>
      simp only [Option.some.injEq, forall_eq']
      cases htype : e.typeTruth with
      | false => simp [not_protocol_of_falsy_class h htype]
      | true =>
          cases htruth : e.truth with
          | false => simp [protocol_of_falsy h htype htruth]
          | true => simp [not_protocol_of_truthy htype htruth]

def allReturned : ExitAwaits where
  commit := ⟨.returned, .returned, false⟩
  safeRollback := .returned
  cleanup := ⟨.elapsed, .returned, .closes⟩

def openUnit : UnitOfWork :=
  (aenter ⟨.ok 1, ["users"], .ok (), .returned⟩ (init none true true)).state

theorem openOn_openUnit : OpenOn 1 openUnit := ⟨rfl, rfl⟩

theorem exit_protocol_iff_return : Protocol 1 none allReturned openUnit :=
  (exit_protocol_iff openOn_openUnit none allReturned).mpr (by simp)

/-- A `RuntimeError` from the body is lost and the transaction is not rolled back. -/
theorem runtimeError_not_rolled_back :
    (aexit (some (.ofClass 0 .runtimeError)) allReturned openUnit).calls = [.close 1] ∧
      leave (some (.ofClass 0 .runtimeError)) allReturned openUnit =
        .error (.importError "backend.core.exceptions.http_exceptions" "TimeoutException") ∧
      ¬ Protocol 1 (some (.ofClass 0 .runtimeError)) allReturned openUnit := by
  have hcalls :
      (aexit (some (.ofClass 0 .runtimeError)) allReturned openUnit).calls = [.close 1] := rfl
  refine ⟨hcalls, rfl, fun hprotocol => ?_⟩
  have hrollback := (hprotocol.rollsBack _ rfl).1
  simp [hcalls] at hrollback

end BackendProdReady.Database.ExitProtocol
