import BackendProdReady.Database.SessionRelease

/-!
# Cancellation during the exit

Where the task that runs `__aexit__` is cancelled, `CancelledError` arrives at the
await it is suspended at.  The transaction methods let it through; the close of
the session catches it, and a `wait_for` whose call has ended drops it.  A deadline
of a `wait_for` of the exit itself is a timeout and no cancellation.
-/

namespace BackendProdReady.Database.Cancellation

open BackendProdReady.Lib.Calls
open BackendProdReady.Exceptions.Classes
open BackendProdReady.Database.Decorators
open BackendProdReady.Database.Uow
open BackendProdReady.Database.ExitProtocol
open BackendProdReady.Database.SessionRelease

def EndsCancelled (m : UowEffect) : Prop :=
  ∃ source, m.result = .error (.cancelledError source)

/-- An await under its own `wait_for` that a cancellation from outside ends. -/
def cancelledOutside : AwaitOutcome → Bool
  | .cancelled | .outerTimedOut => true
  | _ => false

/-- `CancelledError` arrives at an await that passes it on even where the call has
ended. -/
def cancelledAtAwait : AwaitOutcome → Bool
  | .cancelled | .cancelledLate _ => true
  | _ => false

/-- A cancellation from outside, in time or late. -/
def cancellationArrives : AwaitOutcome → Bool
  | .cancelled | .outerTimedOut | .cancelledLate _ => true
  | _ => false

/-! ## Where the cancellation arrives -/

section
variable (exc : Option ExcObject) (awaits : ExitAwaits) (uow : UnitOfWork)

/-- `__aexit__` reaches its commit: the body ended normally, or raised an object of
a class that is false in a boolean context. -/
def ReachesCommit : Prop := exc.any (·.typeTruth) = false ∧ uow.autoCommit = true

/-- `__aexit__` reaches its rollback: the body raised an object that is false in a
boolean context. -/
structure ReachesRollback : Prop where
  raised : ∃ e, exc = some e ∧ e.typeTruth = true ∧ e.truth = false
  owns : uow.ownsSession = true
  session : uow.session.isSome = true

/-- At the commit, at the rollback of a commit that failed, or at the rollback of a
body that raised. -/
inductive TransactionCancelled : Prop
  | commit (hreaches : ReachesCommit exc uow)
      (h : cancelledAtAwait awaits.commit.commit = true)
  | commitRollback (hreaches : ReachesCommit exc uow) (hsession : uow.session.isSome = true)
      (e : ExcObject) (hfailed : awaits.commit.commit = .raised e)
      (hexception : (Exc.object e).isInstance [.exception] = true)
      (h : cancelledAtAwait awaits.commit.rollback = true)
  | safeRollback (hreaches : ReachesRollback exc uow)
      (h : cancelledOutside awaits.safeRollback = true)

/-- At the `wait_for` of the commit or of the rollback, which has ended by then. -/
inductive LateCancelled : Prop
  | commit (hreaches : ReachesCommit exc uow) (h : awaits.commit.late = true)
  | safeRollback (hreaches : ReachesRollback exc uow) (ended : Except ExcObject Unit)
      (h : awaits.safeRollback = .cancelledLate ended)

/-- `_cleanup` runs on an open session. -/
def ReachesCleanup : Prop := uow.ownsSession = true ∧ uow.session.isSome = true

/-- At the sleep that follows a recorded timeout. -/
structure DelayCancelled : Prop where
  reaches : ReachesCleanup uow
  timedOut : timeoutRecorded exc awaits uow = true
  cancelled : awaits.cleanup.delay = .cancelled

structure CloseCancelled : Prop where
  reaches : ReachesCleanup uow
  elapsed : timeoutRecorded exc awaits uow = true → awaits.cleanup.delay = .elapsed
  cancelled : cancellationArrives awaits.cleanup.close = true

def Delivered : Prop :=
  TransactionCancelled exc awaits uow ∨ LateCancelled exc awaits uow ∨
    DelayCancelled exc awaits uow ∨ CloseCancelled exc awaits uow

end

/-! ## What the cleanup lets through -/

/-- The close of the sync session, where it is tried, raises nothing its clause
does not name. -/
def syncCloseQuiet : SyncSession → Bool
  | .missing | .closes => true
  | .raises e => (Exc.object e).isInstance [.osError, .runtimeError, .attributeError]

/-- The clauses after the close catch `e`. -/
def raisedQuiet (syncSession : SyncSession) (e : ExcObject) : Bool :=
  if (Exc.object e).isInstance [.timeoutError] then syncCloseQuiet syncSession
  else (Exc.object e).isInstance [.cancelledError] ||
    (Exc.object e).isInstance [.osError, .runtimeError]

def closeQuiet (awaits : CleanupAwaits) : Bool :=
  match awaits.close with
  | .returned | .cancelled | .outerTimedOut | .cancelledLate (.ok ()) => true
  | .timedOut => syncCloseQuiet awaits.syncSession
  | .raised e | .cancelledLate (.error e) => raisedQuiet awaits.syncSession e

def CleanupQuiet (exc : Option ExcObject) (awaits : ExitAwaits) (uow : UnitOfWork) : Prop :=
  ReachesCleanup uow →
    (timeoutRecorded exc awaits uow = true → awaits.cleanup.delay = .elapsed) ∧
      closeQuiet awaits.cleanup = true

/-! ## The transaction -/

theorem handleException_ne_cancelled {e : Exc} (h : e.isInstance [.exception] = true)
    (source : Canceller) : handleException e ≠ .cancelledError source := by
  cases hhttp : e.isInstance [.httpException] with
  | true =>
      rw [handleException_of_http hhttp]
      rintro rfl
      simp [cancelledError_exception] at h
  | false =>
      obtain ⟨target, -, heq⟩ := handleException_of_not_http hhttp
      rw [heq]
      exact Exc.noConfusion

theorem endsCancelled_of_error {m : UowEffect} {e : Exc} (h : m.result = .error e) :
    EndsCancelled m ↔ ∃ source, e = .cancelledError source := by
  simp [EndsCancelled, h]

theorem expired_eq_cancelled {e : Exc} {source : Canceller} :
    expired e = .cancelledError source ↔ e = .cancelledError .caller ∧ source = .caller := by
  cases e with
  | cancelledError source' =>
      cases source' with
      | deadline => simp [expired]
      | caller => simp [expired, eq_comm]
  | _ => simp [expired]

/-- The decorators let through the cancellation from outside, and no other. -/
theorem decorated_endsCancelled {m : UowEffect} {e : Exc} (h : m.result = .error e) :
    EndsCancelled (timeout setTimeoutOccurred (databaseErrorHandler m)) ↔
      e = .cancelledError .caller := by
  rw [endsCancelled_of_error (timeout_of_error (databaseErrorHandler_of_error h)).1]
  constructor
  · rintro ⟨source, heq⟩
    by_cases hexception : e.isInstance [.exception] = true
    · rw [if_pos hexception, expired_handleException e hexception] at heq
      split at heq
      · cases heq
      · exact absurd heq (handleException_ne_cancelled hexception source)
    · rw [if_neg hexception] at heq
      split at heq
      · cases heq
      · exact (expired_eq_cancelled.mp heq).1
  · rintro rfl
    exact ⟨.caller, rfl⟩

theorem commit_endsCancelled_of_overtaken {awaits : CommitAwaits} {session : SessionId}
    {uow : UnitOfWork} (h : uow.session = some session)
    (hovertaken : awaits.overtaken uow = true) : EndsCancelled (commit awaits uow) := by
  rw [commit_of_session h, hovertaken]
  exact ⟨.caller, (timeout_of_error (e := .cancelledError .caller) rfl).1⟩

theorem commit_endsCancelled (awaits : CommitAwaits) {session : SessionId} {uow : UnitOfWork}
    (h : uow.session = some session) :
    EndsCancelled (commit awaits uow) ↔
      cancelledAtAwait awaits.commit = true ∨
        ∃ e, awaits.commit = .raised e ∧ (Exc.object e).isInstance [.exception] = true ∧
          cancelledAtAwait awaits.rollback = true := by
  cases hovertaken : awaits.overtaken uow with
  | true =>
      obtain ⟨e, ended, hraised, hexception, hlate⟩ := (overtaken_iff h awaits).mp hovertaken
      refine iff_of_true (commit_endsCancelled_of_overtaken h hovertaken) ?_
      exact .inr ⟨e, hraised, hexception, by rw [hlate]; rfl⟩
  | false =>
      rw [commit_of_session h, hovertaken, cancelledWhile_false]
      cases hawait : awaits.commit with
      | returned =>
          have hok : (databaseErrorHandler ((Effect.call uow (.commit session)
              AwaitOutcome.returned.plain).tryExcept fun e =>
            if e.isInstance [.exception] then
              some fun u => (rollback awaits.rollback u).andThen fun u => .raise u e
            else none) : UowEffect).result = .ok () := rfl
          simp [EndsCancelled, timeout_of_ok hok, hok, cancelledAtAwait]
      | timedOut | outerTimedOut =>
          rw [decorated_endsCancelled (e := .cancelledError .deadline) rfl]
          simp [cancelledAtAwait]
      | cancelled | cancelledLate =>
          rw [decorated_endsCancelled (e := .cancelledError .caller) rfl]
          simp [cancelledAtAwait]
      | raised e =>
          have hcall : (Effect.call uow (.commit session)
              (AwaitOutcome.raised e).plain : UowEffect).result = .error (.object e) := rfl
          by_cases hexception : (Exc.object e).isInstance [.exception] = true
          · rw [Effect.tryExcept_of_handled hcall (if_pos hexception),
              decorated_endsCancelled (Effect.after_result.trans (Effect.andThen_raise_result _))]
            change Effect.raisedAfter (rollback awaits.rollback uow).result _ = _ ↔ _
            rw [rollback_result h]
            cases hrollback : awaits.rollback with
            | raised e' =>
                by_cases hrolled : (Exc.object e').isInstance [.exception] = true
                · simp [Effect.raisedAfter, hrolled, cancelledAtAwait]
                · simp [Effect.raisedAfter, hrolled, cancelledAtAwait]
            | cancelledLate ended =>
                simp [(overtaken_iff h awaits).mpr ⟨e, ended, hawait, hexception, hrollback⟩]
                  at hovertaken
            | _ => simp [Effect.raisedAfter, hexception, cancelledAtAwait]
          · rw [Effect.tryExcept_of_unhandled hcall (if_neg hexception),
              decorated_endsCancelled hcall]
            simp [hexception, cancelledAtAwait]

theorem commit_endsCancelled_of_no_session (awaits : CommitAwaits) {uow : UnitOfWork}
    (h : uow.session = none) :
    EndsCancelled (commit awaits uow) ↔ cancelledAtAwait awaits.commit = true := by
  have hovertaken : awaits.overtaken uow = false := by simp [CommitAwaits.overtaken, h]
  rw [commit, h, hovertaken, cancelledWhile_false]
  cases awaits.commit with
  | cancelled | cancelledLate =>
      exact iff_of_true ((decorated_endsCancelled rfl).mpr rfl) rfl
  | _ =>
      rw [decorated_endsCancelled rfl]
      simp [cancelledAtAwait]

theorem safeRollback_endsCancelled (awaited : AwaitOutcome) (uow : UnitOfWork) :
    EndsCancelled (safeRollback awaited uow) ↔
      uow.session.isSome = true ∧ cancelledOutside awaited = true := by
  have hraised : ∀ (session : SessionId) (e : ExcObject), ¬ EndsCancelled
      ((Effect.call uow (.rollback session) (.error (.object e)) : UowEffect).tryExcept fun e =>
        if e.isInstance [.timeoutError] then some fun u => .done (setTimeoutOccurred u)
        else if e.isInstance [.osError, .runtimeError] then some .done
        else none) := by
    intro session e
    by_cases htimeout : (Exc.object e).isInstance [.timeoutError] = true
    · simp [EndsCancelled, Effect.call, Effect.tryExcept, htimeout, Effect.done]
    · by_cases hignored : (Exc.object e).isInstance [.osError, .runtimeError] = true
      · simp [EndsCancelled, Effect.call, Effect.tryExcept, htimeout, hignored, Effect.done]
      · simp [EndsCancelled, Effect.call, Effect.tryExcept, htimeout, hignored]
  unfold safeRollback
  cases uow.session with
  | none => simp [EndsCancelled, Effect.done]
  | some session =>
      cases awaited with
      | raised e => exact iff_of_false (hraised session e) (by simp [cancelledOutside])
      | cancelledLate ended =>
          refine iff_of_false ?_ (by simp [cancelledOutside])
          cases ended with
          | ok => simp [EndsCancelled, Effect.call, AwaitOutcome.underWaitFor, Effect.tryExcept]
          | error e => exact hraised session e
      | _ => simp [EndsCancelled, Effect.call, AwaitOutcome.underWaitFor, Effect.tryExcept,
          cancelledOutside, Exc.isInstance, Exc.classes, mro, mroUpTo, base, Effect.done]

theorem transactionCancelled_of_normal {exc : Option ExcObject}
    (hnormal : exc.any (·.typeTruth) = false) {awaits : ExitAwaits} {uow : UnitOfWork} :
    TransactionCancelled exc awaits uow ↔
      ReachesCommit exc uow ∧
        (cancelledAtAwait awaits.commit.commit = true ∨
          uow.session.isSome = true ∧ ∃ e, awaits.commit.commit = .raised e ∧
            (Exc.object e).isInstance [.exception] = true ∧
            cancelledAtAwait awaits.commit.rollback = true) := by
  constructor
  · intro h
    cases h with
    | commit hreaches h => exact ⟨hreaches, .inl h⟩
    | commitRollback hreaches hsession e hfailed hexception h =>
        exact ⟨hreaches, .inr ⟨hsession, e, hfailed, hexception, h⟩⟩
    | safeRollback hreaches =>
        obtain ⟨e, rfl, htype, -⟩ := hreaches.raised
        simp [htype] at hnormal
  · rintro ⟨hreaches, h | ⟨hsession, e, hfailed, hexception, h⟩⟩
    · exact .commit hreaches h
    · exact .commitRollback hreaches hsession e hfailed hexception h

theorem endTransaction_of_normal_endsCancelled {exc : Option ExcObject}
    (hnormal : exc.any (·.typeTruth) = false) (awaits : ExitAwaits) (uow : UnitOfWork) :
    EndsCancelled (endTransaction exc awaits uow) ↔ TransactionCancelled exc awaits uow := by
  rw [endTransaction, hnormal, transactionCancelled_of_normal hnormal, ReachesCommit]
  cases hauto : uow.autoCommit with
  | false => simp [EndsCancelled, Effect.done]
  | true =>
      cases hsession : uow.session with
      | none => simp [commit_endsCancelled_of_no_session awaits.commit hsession, hnormal]
      | some session => simp [commit_endsCancelled awaits.commit hsession, hnormal]

theorem transactionCancelled_of_falsy {e : ExcObject} (htype : e.typeTruth = true)
    (htruth : e.truth = false) {awaits : ExitAwaits} {uow : UnitOfWork} :
    TransactionCancelled (some e) awaits uow ↔
      ReachesCleanup uow ∧ cancelledOutside awaits.safeRollback = true := by
  constructor
  · intro h
    cases h with
    | commit hreaches | commitRollback hreaches => simp [ReachesCommit, htype] at hreaches
    | safeRollback hreaches h => exact ⟨⟨hreaches.owns, hreaches.session⟩, h⟩
  · rintro ⟨⟨howns, hsession⟩, h⟩
    exact .safeRollback ⟨⟨e, rfl, htype, htruth⟩, howns, hsession⟩ h

/-- The `try` block ends cancelled exactly where the cancellation arrives in it. -/
theorem tryBlock_endsCancelled (exc : Option ExcObject) (awaits : ExitAwaits)
    (uow : UnitOfWork) :
    EndsCancelled (tryBlock exc awaits uow) ↔ TransactionCancelled exc awaits uow := by
  cases exc with
  | none => exact endTransaction_of_normal_endsCancelled rfl awaits uow
  | some e =>
      rw [tryBlock]
      cases htype : e.typeTruth with
      | false =>
          rw [detectTimeout_falsy (by simp [htype]), Effect.done_andThen]
          exact endTransaction_of_normal_endsCancelled (by simp [htype]) awaits uow
      | true =>
          cases htruth : e.truth with
          | true =>
              rw [detectTimeout_truthy htype htruth, Effect.raise_andThen]
              refine iff_of_false (fun h => ?_) fun h => ?_
              · obtain ⟨source, hsource⟩ := h
                cases hsource
              · cases h with
                | commit hreaches | commitRollback hreaches =>
                    simp [ReachesCommit, htype] at hreaches
                | safeRollback hreaches =>
                    obtain ⟨e', he', -, htruth'⟩ := hreaches.raised
                    obtain rfl := Option.some.inj he'
                    simp [htruth] at htruth'
          | false =>
              rw [detectTimeout_falsy (by simp [htruth]), Effect.done_andThen]
              rw [transactionCancelled_of_falsy htype htruth, ReachesCleanup, endTransaction]
              cases howns : uow.ownsSession with
              | false => simp [htype, EndsCancelled, Effect.done]
              | true => simp [htype, safeRollback_endsCancelled]

/-! ## The cleanup -/

theorem forceSyncClose_result (syncSession : SyncSession) (session : SessionId)
    (uow : UnitOfWork) :
    ¬ EndsCancelled (forceSyncClose syncSession session uow) ∧
      ((forceSyncClose syncSession session uow).result = .ok () ↔
        syncCloseQuiet syncSession = true) := by
  cases syncSession with
  | missing | closes => simp [forceSyncClose, EndsCancelled, Effect.done, Effect.call,
      syncCloseQuiet]
  | raises e =>
      by_cases hquiet :
          (Exc.object e).isInstance [.osError, .runtimeError, .attributeError] = true
      · simp [forceSyncClose, EndsCancelled, Effect.call, Effect.tryExcept, Effect.done,
          syncCloseQuiet, hquiet]
      · simp [forceSyncClose, EndsCancelled, Effect.call, Effect.tryExcept, syncCloseQuiet,
          hquiet]

theorem closeSession_result_of_raised {awaits : CleanupAwaits} {e : ExcObject}
    (hraised : awaits.close.underWaitFor = .error (.object e)) (session : SessionId)
    (uow : UnitOfWork) :
    ¬ EndsCancelled (closeSession awaits session uow) ∧
      ((closeSession awaits session uow).result = .ok () ↔
        raisedQuiet awaits.syncSession e = true) := by
  have hsync := forceSyncClose_result awaits.syncSession session uow
  rw [EndsCancelled, closeSession, Effect.tryFinally_result_of_ok rfl, hraised, raisedQuiet]
  by_cases htimeout : (Exc.object e).isInstance [.timeoutError] = true
  · simpa [Effect.call, Effect.tryExcept, htimeout, EndsCancelled] using hsync
  · by_cases hcancelled : (Exc.object e).isInstance [.cancelledError] = true
    · simp [Effect.call, Effect.tryExcept, htimeout, hcancelled, Effect.done]
    · by_cases hquiet : (Exc.object e).isInstance [.osError, .runtimeError] = true
      · simp [Effect.call, Effect.tryExcept, htimeout, hcancelled, hquiet, Effect.done]
      · simp [Effect.call, Effect.tryExcept, htimeout, hcancelled, hquiet]

/-- A cancellation at the close is caught there, or dropped by its `wait_for`. -/
theorem closeSession_result (awaits : CleanupAwaits) (session : SessionId)
    (uow : UnitOfWork) :
    ¬ EndsCancelled (closeSession awaits session uow) ∧
      ((closeSession awaits session uow).result = .ok () ↔ closeQuiet awaits = true) := by
  rw [closeQuiet]
  cases hclose : awaits.close with
  | raised e => exact closeSession_result_of_raised (by rw [hclose]; rfl) session uow
  | cancelledLate ended =>
      cases ended with
      | error e => exact closeSession_result_of_raised (by rw [hclose]; rfl) session uow
      | ok =>
          rw [EndsCancelled, closeSession, Effect.tryFinally_result_of_ok rfl, hclose]
          simp [AwaitOutcome.underWaitFor, Effect.call, Effect.tryExcept]
  | returned =>
      rw [EndsCancelled, closeSession, Effect.tryFinally_result_of_ok rfl, hclose]
      simp [AwaitOutcome.underWaitFor, Effect.call, Effect.tryExcept]
  | timedOut =>
      have hsync := forceSyncClose_result awaits.syncSession session uow
      rw [EndsCancelled, closeSession, Effect.tryFinally_result_of_ok rfl, hclose]
      exact hsync
  | outerTimedOut | cancelled =>
      have hcaught (source : Canceller) : ((Effect.call uow (.close session)
          (.error (.cancelledError source)) : UowEffect).tryExcept fun e =>
        if e.isInstance [.timeoutError] then some (forceSyncClose awaits.syncSession session)
        else if e.isInstance [.cancelledError] then some .done
        else if e.isInstance [.osError, .runtimeError] then some .done
        else none).result = .ok () := rfl
      rw [EndsCancelled, closeSession, Effect.tryFinally_result_of_ok rfl, hclose]
      simp [AwaitOutcome.underWaitFor, hcaught]

theorem cleanup_result (awaits : CleanupAwaits) (uow : UnitOfWork) :
    (cleanup awaits uow).result = (cleanupSession awaits uow).result := by
  unfold cleanup Effect.andThen
  split
  · simp [Effect.done, *]
  · rfl

theorem releaseSession_of_open {session : SessionId} {uow : UnitOfWork}
    (h : OpenOn session uow) (awaits : CleanupAwaits) :
    (releaseSession awaits uow).result =
      ((cleanupDelay awaits.delay uow).andThen fun u => closeSession awaits session u).result := by
  rw [releaseSession, if_pos h.1, cleanup_result, cleanupSession, h.2]

theorem releaseSession_returned_of_not_open {uow : UnitOfWork} (h : ¬ ReachesCleanup uow)
    (awaits : CleanupAwaits) : (releaseSession awaits uow).result = .ok () := by
  unfold releaseSession
  split_ifs with howns
  · have hnone : uow.session = none := by simpa [ReachesCleanup, howns] using h
    rw [cleanup_result, cleanupSession, hnone]
    rfl
  · rfl

theorem releaseSession_endsCancelled {session : SessionId} {uow : UnitOfWork}
    (h : OpenOn session uow) (awaits : CleanupAwaits) :
    EndsCancelled (releaseSession awaits uow) ↔
      uow.timeoutOccurred = true ∧ awaits.delay = .cancelled := by
  have hclose := (closeSession_result awaits session uow).1
  rw [EndsCancelled, releaseSession_of_open h]
  unfold cleanupDelay
  cases hflag : uow.timeoutOccurred with
  | false => simpa [EndsCancelled] using hclose
  | true =>
      cases awaits.delay with
      | elapsed => simpa [EndsCancelled] using hclose
      | raised e | cancelled =>
          simp only [if_true, Effect.raise_andThen]
          simp [Effect.raise]

theorem releaseSession_returned_iff {session : SessionId} {uow : UnitOfWork}
    (h : OpenOn session uow) (awaits : CleanupAwaits) :
    (releaseSession awaits uow).result = .ok () ↔
      (uow.timeoutOccurred = true → awaits.delay = .elapsed) ∧ closeQuiet awaits = true := by
  rw [releaseSession_of_open h]
  by_cases hdelay : uow.timeoutOccurred = true → awaits.delay = .elapsed
  · rw [cleanupDelay_eq_done hdelay, Effect.done_andThen,
      (closeSession_result awaits session uow).2]
    exact ⟨fun hquiet => ⟨hdelay, hquiet⟩, And.right⟩
  · obtain ⟨hflag, hne⟩ := Classical.not_imp.mp hdelay
    obtain ⟨e, hraise⟩ := cleanupDelay_eq_raise hflag hne
    rw [hraise, Effect.raise_andThen]
    exact iff_of_false (by simp [Effect.raise]) fun hquiet => hdelay hquiet.1

/-! ## The exit -/

theorem not_reachesCleanup_tryBlock {uow : UnitOfWork} (h : ¬ ReachesCleanup uow)
    (exc : Option ExcObject) (awaits : ExitAwaits) :
    ¬ ReachesCleanup (tryBlock exc awaits uow).state := by
  have hflag : ∀ u, ¬ ReachesCleanup u → ¬ ReachesCleanup (setTimeoutOccurred u) :=
    fun _ hu => hu
  refine Effect.andThen_state (P := fun u => ¬ ReachesCleanup u) ?_ fun u hu =>
    endTransaction_state hflag hu exc awaits
  cases exc with
  | none => exact h
  | some e =>
      cases hfalsy : e.typeTruth && e.truth with
      | false => rwa [detectTimeout_falsy hfalsy]
      | true =>
          obtain ⟨htype, htruth⟩ := (Bool.and_eq_true _ _).mp hfalsy
          rwa [detectTimeout_truthy htype htruth]

theorem tryFinally_endsCancelled {m : UowEffect} {last : UnitOfWork → UowEffect} :
    EndsCancelled (m.tryFinally last) ↔
      EndsCancelled (last m.state) ∨ (last m.state).result = .ok () ∧ EndsCancelled m := by
  unfold EndsCancelled Effect.tryFinally
  cases hlast : (last m.state).result with
  | ok => simp
  | error e => simp

/-- The exit raises the cancellation that arrives at the sleep, and one that arrives
in the transaction unless the cleanup raises something else. -/
theorem aexit_endsCancelled (exc : Option ExcObject) (awaits : ExitAwaits)
    (uow : UnitOfWork) :
    EndsCancelled (aexit exc awaits uow) ↔
      DelayCancelled exc awaits uow ∨
        TransactionCancelled exc awaits uow ∧ CleanupQuiet exc awaits uow := by
  change EndsCancelled ((tryBlock exc awaits uow).tryFinally _) ↔ _
  rw [tryFinally_endsCancelled, tryBlock_endsCancelled]
  by_cases hreaches : ReachesCleanup uow
  · obtain ⟨session, hsession⟩ := Option.isSome_iff_exists.mp hreaches.2
    obtain ⟨hopen, hflag⟩ := tryBlock_state ⟨hreaches.1, hsession⟩ exc awaits
    rw [releaseSession_endsCancelled hopen, releaseSession_returned_iff hopen, hflag]
    constructor
    · rintro (⟨htimedOut, hcancelled⟩ | ⟨hquiet, htransaction⟩)
      · exact .inl ⟨hreaches, htimedOut, hcancelled⟩
      · exact .inr ⟨htransaction, fun _ => hquiet⟩
    · rintro (hdelay | ⟨htransaction, hquiet⟩)
      · exact .inl ⟨hdelay.timedOut, hdelay.cancelled⟩
      · exact .inr ⟨hquiet hreaches, htransaction⟩
  · have hreturned := releaseSession_returned_of_not_open
      (not_reachesCleanup_tryBlock hreaches exc awaits) awaits.cleanup
    constructor
    · rintro (⟨source, hsource⟩ | ⟨-, htransaction⟩)
      · rw [hreturned] at hsource
        cases hsource
      · exact .inr ⟨htransaction, fun h => absurd h hreaches⟩
    · rintro (hdelay | ⟨htransaction, -⟩)
      · exact absurd hdelay.reaches hreaches
      · exact .inr ⟨hreturned, htransaction⟩

/-! ## Main result -/

/-- A cancellation delivered during the exit leaves it exactly when it arrives at
the sleep, or in the transaction before this has ended and with a cleanup that raises
nothing of its own. -/
theorem cancellation_surfaces_iff (exc : Option ExcObject) (awaits : ExitAwaits)
    (uow : UnitOfWork) :
    (Delivered exc awaits uow → EndsCancelled (aexit exc awaits uow)) ↔
      (Delivered exc awaits uow → DelayCancelled exc awaits uow ∨
        TransactionCancelled exc awaits uow ∧ CleanupQuiet exc awaits uow) := by
  rw [aexit_endsCancelled]

/-- The body and the commit return, and the request is cancelled during the close. -/
def cancelledClose : ExitAwaits where
  commit := ⟨.returned, .returned, false⟩
  safeRollback := .returned
  cleanup := ⟨.elapsed, .cancelled, .closes⟩

/-- The exit returns as if it had not been cancelled. -/
theorem cancellation_swallowed :
    CloseCancelled none cancelledClose openUnit ∧
      (aexit none cancelledClose openUnit).result = .ok () ∧
      leave none cancelledClose openUnit = .ok () ∧
      ¬ (Delivered none cancelledClose openUnit →
        EndsCancelled (aexit none cancelledClose openUnit)) := by
  have hclose : CloseCancelled none cancelledClose openUnit :=
    ⟨⟨rfl, rfl⟩, fun _ => rfl, rfl⟩
  have hresult : (aexit none cancelledClose openUnit).result = .ok () := rfl
  refine ⟨hclose, hresult, rfl, fun h => ?_⟩
  obtain ⟨source, hsource⟩ := h (.inr (.inr (.inr hclose)))
  rw [hresult] at hsource
  cases hsource

end BackendProdReady.Database.Cancellation
