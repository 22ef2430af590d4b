import BackendProdReady.Database.ExitProtocol

/-!
# The release of an owned session

`__aexit__` closes the session that a unit owns on every way out but one: the
sleep that follows a recorded timeout stands before the block whose `finally`
lets the session go, so a sleep that does not end normally leaves it open.
-/

namespace BackendProdReady.Database.SessionRelease

open BackendProdReady.Lib.Calls
open BackendProdReady.Exceptions.Classes
open BackendProdReady.Database.Decorators
open BackendProdReady.Database.Uow
open BackendProdReady.Database.ExitProtocol

structure Released (session : SessionId) (exit : UowEffect) : Prop where
  closed : .close session ∈ exit.calls
  forgotten : exit.state.session = none

/-! ## The cleanup -/

theorem closeSession_released (awaits : CleanupAwaits) (session : SessionId) (uow : UnitOfWork) :
    Released session (closeSession awaits session uow) := by
  refine ⟨?_, rfl⟩
  rw [closeSession, Effect.tryFinally_calls]
  exact List.mem_append_left _ (Effect.mem_tryExcept_of_mem (by simp [Effect.call]))

theorem cleanup_released {awaits : CleanupAwaits} {session : SessionId} {uow : UnitOfWork}
    (h : Released session (cleanupSession awaits uow)) :
    Released session (cleanup awaits uow) := by
  constructor
  · unfold cleanup Effect.andThen
    split
    · exact List.mem_append_left _ h.closed
    · exact h.closed
  · exact Effect.andThen_state (P := fun u : UnitOfWork => u.session = none) h.forgotten
      fun _ hu => hu

theorem cleanupDelay_eq_done {awaited : DelayOutcome} {uow : UnitOfWork}
    (h : uow.timeoutOccurred = true → awaited = .elapsed) :
    cleanupDelay awaited uow = .done uow := by
  unfold cleanupDelay
  split_ifs with hflag
  · rw [h hflag]
  · rfl

theorem cleanupDelay_eq_raise {awaited : DelayOutcome} {uow : UnitOfWork}
    (hflag : uow.timeoutOccurred = true) (h : awaited ≠ .elapsed) :
    ∃ e, cleanupDelay awaited uow = .raise uow e := by
  cases awaited with
  | elapsed => exact absurd rfl h
  | raised e => exact ⟨.object e, by simp [cleanupDelay, hflag]⟩
  | cancelled => exact ⟨.cancelledError .caller, by simp [cleanupDelay, hflag]⟩

theorem elapsed_of_forgotten {session : SessionId} {uow : UnitOfWork} (h : OpenOn session uow)
    {awaits : CleanupAwaits} (hforgotten : (releaseSession awaits uow).state.session = none)
    (hflag : uow.timeoutOccurred = true) : awaits.delay = .elapsed := by
  by_contra hdelay
  obtain ⟨e, hraise⟩ := cleanupDelay_eq_raise hflag hdelay
  have hkept : (releaseSession awaits uow).state = uow := by
    simp only [releaseSession, h.1, h.2, cleanup, cleanupSession, hraise, Effect.raise_andThen,
      if_true]
    rfl
  rw [hkept, h.2] at hforgotten
  cases hforgotten

/-- The close is reached unless the sleep before it is cut short. -/
theorem releaseSession_released {session : SessionId} {uow : UnitOfWork}
    (h : OpenOn session uow) {awaits : CleanupAwaits}
    (hdelay : uow.timeoutOccurred = true → awaits.delay = .elapsed) :
    Released session (releaseSession awaits uow) := by
  rw [releaseSession, if_pos h.1]
  apply cleanup_released
  rw [cleanupSession, h.2]
  simp only [cleanupDelay_eq_done hdelay, Effect.done_andThen]
  exact closeSession_released awaits session uow

/-! ## What is recorded as a timeout -/

def timesOut : AwaitOutcome → Bool
  | .timedOut => true
  | .raised e | .cancelledLate (.error e) => (Exc.object e).isInstance [.timeoutError]
  | _ => false

/-- A call on the session that fails with an `Exception` is followed by the
rollback; an exception that is both classes crosses `database_error_handler`
and is then taken for a timeout. -/
def commitTimesOut (awaits : CommitAwaits) : Bool :=
  match awaits.commit with
  | .returned | .cancelled | .cancelledLate _ => false
  | .timedOut | .outerTimedOut => true
  | .raised e =>
      let reraised := (Exc.object e).isInstance [.httpException] &&
        (Exc.object e).isInstance [.timeoutError]
      (Exc.object e).isInstance [.exception] &&
        match awaits.rollback with
        | .timedOut | .outerTimedOut => true
        | .cancelled | .cancelledLate (.ok ()) => false
        | .cancelledLate (.error e') => (Exc.object e').isInstance [.timeoutError]
        | .returned => reraised
        | .raised e' =>
            (Exc.object e').isInstance [.timeoutError] ||
              ((Exc.object e').isInstance [.exception] && reraised)

/-- The timeouts that `__aexit__` finds recorded, or records, before its cleanup. -/
def timeoutRecorded (exc : Option ExcObject) (awaits : ExitAwaits) (uow : UnitOfWork) : Bool :=
  uow.timeoutOccurred ||
    match exc with
    | none => uow.autoCommit && commitTimesOut awaits.commit
    | some e =>
        if e.typeTruth then !e.truth && timesOut awaits.safeRollback
        else uow.autoCommit && commitTimesOut awaits.commit

/-! ## The flag at the cleanup -/

def tryBlock (exc : Option ExcObject) (awaits : ExitAwaits) (uow : UnitOfWork) : UowEffect :=
  (detectTimeout exc uow).andThen fun u => endTransaction exc awaits u

theorem exception_of_timeoutError {e : Exc} (h : e.isInstance [.timeoutError] = true) :
    e.isInstance [.exception] = true :=
  Exc.isInstance_base (c := .osError) rfl (Exc.isInstance_base rfl h)

theorem serviceError_timeoutError {target : ExcClass}
    (h : target ∈ ExcClass.databaseError :: exceptionHandlers.map Prod.snd) :
    (serviceError target).isInstance [.timeoutError] = false := by
  revert target
  decide

theorem cancelledError_exception (source : Canceller) :
    (Exc.cancelledError source).isInstance [.exception] = false := rfl

/-- The table translates to no subclass of `TimeoutError`. -/
theorem handleException_timeoutError (e : Exc) :
    (handleException e).isInstance [.timeoutError] =
      (e.isInstance [.httpException] && e.isInstance [.timeoutError]) := by
  cases hhttp : e.isInstance [.httpException] with
  | true => rw [handleException_of_http hhttp, Bool.true_and]
  | false =>
      obtain ⟨target, hmem, heq⟩ := handleException_of_not_http hhttp
      rw [heq, serviceError_timeoutError hmem, Bool.false_and]

theorem expired_handleException (e : Exc) (h : e.isInstance [.exception] = true) :
    expired (handleException e) = handleException e := by
  cases hhttp : e.isInstance [.httpException] with
  | true =>
      rw [handleException_of_http hhttp]
      cases e with
      | cancelledError source => simp [cancelledError_exception] at h
      | _ => rfl
  | false =>
      obtain ⟨target, -, heq⟩ := handleException_of_not_http hhttp
      rw [heq]
      rfl

/-- The exceptions of a coroutine that its decorators take for a timeout. -/
def expires : Exc → Bool
  | .cancelledError .deadline => true
  | e => e.isInstance [.httpException] && e.isInstance [.timeoutError]

theorem expired_isInstance (e : Exc) :
    (expired (if e.isInstance [.exception] then handleException e else e)).isInstance
      [.timeoutError] = expires e := by
  split_ifs with hexception
  · rw [expired_handleException e hexception, handleException_timeoutError]
    cases e with
    | cancelledError source => simp [cancelledError_exception] at hexception
    | _ => rfl
  · have htimeout : e.isInstance [.timeoutError] = false := by
      rw [← Bool.not_eq_true]
      exact fun h => hexception (exception_of_timeoutError h)
    cases e with
    | cancelledError source => cases source <;> rfl
    | _ => simp [expired, expires, htimeout]

theorem decorated_timeoutOccurred {m : UowEffect} {e : Exc} (h : m.result = .error e) :
    (timeout setTimeoutOccurred (databaseErrorHandler m)).state.timeoutOccurred =
      (m.state.timeoutOccurred || expires e) := by
  rw [(timeout_of_error (databaseErrorHandler_of_error h)).2, expired_isInstance,
    databaseErrorHandler_state]
  cases expires e with
  | true => exact (Bool.or_true _).symm
  | false => exact (Bool.or_false _).symm

/-- The `except` clauses around a rollback: a `TimeoutError` sets the flag, and
what else they catch is only logged. -/
theorem caught_timeoutOccurred {m : UowEffect} {e : Exc} (h : m.result = .error e)
    (ignored : List ExcClass) :
    (m.tryExcept fun e =>
      if e.isInstance [.timeoutError] then some fun u => .done (setTimeoutOccurred u)
      else if e.isInstance ignored then some .done
      else none).state.timeoutOccurred =
        (m.state.timeoutOccurred || e.isInstance [.timeoutError]) := by
  by_cases htimeout : e.isInstance [.timeoutError] = true
  · rw [Effect.tryExcept_of_handled h (if_pos htimeout), htimeout, Bool.or_true]
    rfl
  · have hflag : e.isInstance [.timeoutError] = false := by simpa using htimeout
    rw [hflag, Bool.or_false]
    by_cases hignored : e.isInstance ignored = true
    · rw [Effect.tryExcept_of_handled h ((if_neg htimeout).trans (if_pos hignored))]
      rfl
    · rw [Effect.tryExcept_of_unhandled h ((if_neg htimeout).trans (if_neg hignored))]

theorem awaited_timeoutOccurred (call : SessionCall) (awaited : AwaitOutcome)
    (ignored : List ExcClass) (uow : UnitOfWork) :
    ((Effect.call uow call awaited.underWaitFor : UowEffect).tryExcept fun e =>
      if e.isInstance [.timeoutError] then some fun u => .done (setTimeoutOccurred u)
      else if e.isInstance ignored then some .done
      else none).state.timeoutOccurred = (uow.timeoutOccurred || timesOut awaited) := by
  cases awaited with
  | returned => exact (Bool.or_false _).symm
  | raised e =>
      exact caught_timeoutOccurred (m := .call uow call (.error (.object e))) rfl ignored
  | timedOut =>
      exact caught_timeoutOccurred (m := .call uow call (.error .timeoutError)) rfl ignored
  | outerTimedOut =>
      exact caught_timeoutOccurred (m := .call uow call (.error (.cancelledError .deadline))) rfl
        ignored
  | cancelled =>
      exact caught_timeoutOccurred (m := .call uow call (.error (.cancelledError .caller))) rfl
        ignored
  | cancelledLate ended =>
      cases ended with
      | ok => exact (Bool.or_false _).symm
      | error e =>
          exact caught_timeoutOccurred (m := .call uow call (.error (.object e))) rfl ignored

theorem rollback_result_of_raised {session : SessionId} {uow : UnitOfWork}
    (h : uow.session = some session) {awaited : AwaitOutcome} {e : ExcObject}
    (hraised : awaited.underWaitFor = .error (.object e)) :
    (rollback awaited uow).result =
      if (Exc.object e).isInstance [.exception] then .ok () else .error (.object e) := by
  rw [rollback, h]
  by_cases hexception : (Exc.object e).isInstance [.exception] = true
  · by_cases htimeout : (Exc.object e).isInstance [.timeoutError] = true
    · simp [databaseErrorHandler, Effect.tryExcept, Effect.call, hraised, Effect.done, htimeout,
        hexception]
    · simp [databaseErrorHandler, Effect.tryExcept, Effect.call, hraised, Effect.done, htimeout,
        hexception]
  · have htimeout := mt exception_of_timeoutError hexception
    simp [databaseErrorHandler, Effect.tryExcept, Effect.call, hraised, htimeout, hexception]

theorem rollback_result {session : SessionId} {uow : UnitOfWork}
    (h : uow.session = some session) (awaited : AwaitOutcome) :
    (rollback awaited uow).result =
      match awaited with
      | .returned | .timedOut | .cancelledLate (.ok ()) => .ok ()
      | .raised e | .cancelledLate (.error e) =>
          if (Exc.object e).isInstance [.exception] then .ok () else .error (.object e)
      | .outerTimedOut => .error (.cancelledError .deadline)
      | .cancelled => .error (.cancelledError .caller) := by
  cases awaited with
  | raised e => exact rollback_result_of_raised h rfl
  | cancelledLate ended =>
      cases ended with
      | ok =>
          rw [rollback, h]
          rfl
      | error e => exact rollback_result_of_raised h rfl
  | _ =>
      rw [rollback, h]
      rfl

theorem overtaken_iff {session : SessionId} {uow : UnitOfWork} (h : uow.session = some session)
    (awaits : CommitAwaits) :
    awaits.overtaken uow = true ↔
      ∃ e ended, awaits.commit = .raised e ∧ (Exc.object e).isInstance [.exception] = true ∧
        awaits.rollback = .cancelledLate ended := by
  unfold CommitAwaits.overtaken
  rw [h]
  cases awaits.commit with
  | raised e => cases awaits.rollback <;> simp
  | _ => simp

section Flag

variable {session : SessionId} {uow : UnitOfWork} (h : OpenOn session uow)
include h

theorem rollback_timeoutOccurred (awaited : AwaitOutcome) :
    (rollback awaited uow).state.timeoutOccurred =
      (uow.timeoutOccurred || timesOut awaited) := by
  rw [rollback, databaseErrorHandler_state, h.2]
  exact awaited_timeoutOccurred (.rollback session) awaited [.exception] uow

theorem safeRollback_timeoutOccurred (awaited : AwaitOutcome) :
    (safeRollback awaited uow).state.timeoutOccurred =
      (uow.timeoutOccurred || timesOut awaited) := by
  rw [safeRollback, h.2]
  exact awaited_timeoutOccurred (.rollback session) awaited [.osError, .runtimeError] uow

theorem commit_timeoutOccurred_of_raised {awaits : CommitAwaits} {e : ExcObject}
    (hraised : awaits.commit = .raised e) (hovertaken : awaits.overtaken uow = false) :
    (commit awaits uow).state.timeoutOccurred =
      (uow.timeoutOccurred ||
        if (Exc.object e).isInstance [.exception] then
          timesOut awaits.rollback ||
            expires (Effect.raisedAfter (rollback awaits.rollback uow).result (.object e))
        else false) := by
  have hcall : (Effect.call uow (.commit session)
      (AwaitOutcome.raised e).plain : UowEffect).result = .error (.object e) := rfl
  rw [commit_of_session h.2, hovertaken, cancelledWhile_false, hraised]
  by_cases hexception : (Exc.object e).isInstance [.exception] = true
  · rw [Effect.tryExcept_of_handled hcall (if_pos hexception),
      decorated_timeoutOccurred ((Effect.after_result).trans (Effect.andThen_raise_result _)),
      Effect.after_state, Effect.andThen_raise_state, if_pos hexception, ← Bool.or_assoc]
    have hrollback := rollback_timeoutOccurred h awaits.rollback
    exact congrArg₂ _ hrollback rfl
  · rw [Effect.tryExcept_of_unhandled hcall (if_neg hexception), decorated_timeoutOccurred hcall,
      if_neg hexception]
    have htimeout := mt exception_of_timeoutError hexception
    simp [Effect.call, expires, htimeout]

/-- The flag of an overtaken commit is that of its rollback. -/
theorem commit_timeoutOccurred_of_overtaken {awaits : CommitAwaits}
    (hovertaken : awaits.overtaken uow = true) :
    (commit awaits uow).state.timeoutOccurred =
      (uow.timeoutOccurred || timesOut awaits.rollback) := by
  obtain ⟨e, ended, hraised, hexception, -⟩ := (overtaken_iff h.2 awaits).mp hovertaken
  have hcall : (Effect.call uow (.commit session)
      (AwaitOutcome.raised e).plain : UowEffect).result = .error (.object e) := rfl
  rw [commit_of_session h.2, hovertaken, (timeout_of_error (e := .cancelledError .caller) rfl).2,
    cancelledWhile_state, databaseErrorHandler_state, hraised,
    Effect.tryExcept_of_handled hcall (if_pos hexception)]
  change (Effect.andThen (rollback awaits.rollback uow) _).state.timeoutOccurred = _
  rw [Effect.andThen_raise_state, rollback_timeoutOccurred h]

theorem commit_timeoutOccurred (awaits : CommitAwaits) :
    (commit awaits uow).state.timeoutOccurred =
      (uow.timeoutOccurred || commitTimesOut awaits) := by
  cases hovertaken : awaits.overtaken uow with
  | true =>
      rw [commit_timeoutOccurred_of_overtaken h hovertaken]
      obtain ⟨e, ended, hraised, hexception, hlate⟩ := (overtaken_iff h.2 awaits).mp hovertaken
      rw [commitTimesOut, hraised, hlate]
      cases ended <;> simp [hexception, timesOut]
  | false =>
      unfold commitTimesOut
      cases hawait : awaits.commit with
      | returned =>
          rw [commit, h.2, hovertaken, hawait]
          exact (Bool.or_false _).symm
      | raised e =>
          rw [commit_timeoutOccurred_of_raised h hawait hovertaken, rollback_result h.2]
          cases hrollback : awaits.rollback with
          | raised e' =>
              by_cases hexception : (Exc.object e').isInstance [.exception] = true
              · simp [timesOut, hexception, Effect.raisedAfter, expires]
              · have htimeout := mt exception_of_timeoutError hexception
                simp [timesOut, hexception, Effect.raisedAfter, expires, htimeout]
          | cancelled =>
              have hcaller : expires (.cancelledError .caller) = false := rfl
              simp [timesOut, Effect.raisedAfter, hcaller]
          | cancelledLate ended =>
              have hexception : (Exc.object e).isInstance [.exception] = false := by
                rw [← Bool.not_eq_true]
                intro hexception
                simp [(overtaken_iff h.2 awaits).mpr ⟨e, ended, hawait, hexception, hrollback⟩]
                  at hovertaken
              simp [hexception]
          | _ => simp [timesOut, Effect.raisedAfter, expires]
      | timedOut =>
          rw [commit, h.2, hovertaken, hawait]
          exact (Bool.or_true _).symm
      | outerTimedOut =>
          rw [commit, h.2, hovertaken, hawait]
          exact (Bool.or_true _).symm
      | cancelled =>
          rw [commit, h.2, hovertaken, hawait]
          exact (Bool.or_false _).symm
      | cancelledLate ended =>
          rw [commit, h.2, hovertaken, hawait]
          exact (Bool.or_false _).symm

theorem endTransaction_of_normal {exc : Option ExcObject}
    (hnormal : exc.any (·.typeTruth) = false) (awaits : ExitAwaits) :
    OpenOn session (endTransaction exc awaits uow).state ∧
      (endTransaction exc awaits uow).state.timeoutOccurred =
        (uow.timeoutOccurred || (uow.autoCommit && commitTimesOut awaits.commit)) := by
  rw [endTransaction, hnormal]
  by_cases hauto : uow.autoCommit = true
  · simp only [hauto, Bool.true_and, if_true]
    exact ⟨commit_state openOn_setTimeoutOccurred h _, commit_timeoutOccurred h _⟩
  · simp only [hauto, Bool.false_and, Bool.or_false]
    exact ⟨h, rfl⟩

theorem tryBlock_state (exc : Option ExcObject) (awaits : ExitAwaits) :
    OpenOn session (tryBlock exc awaits uow).state ∧
      (tryBlock exc awaits uow).state.timeoutOccurred = timeoutRecorded exc awaits uow := by
  unfold tryBlock
  cases exc with
  | none => exact endTransaction_of_normal h rfl awaits
  | some e =>
      cases htype : e.typeTruth with
      | false =>
          rw [detectTimeout_falsy (by simp [htype]), Effect.done_andThen]
          simpa [timeoutRecorded, htype] using
            endTransaction_of_normal h (show (some e).any _ = false by simp [htype]) awaits
      | true =>
          cases htruth : e.truth with
          | false =>
              rw [detectTimeout_falsy (by simp [htruth]), Effect.done_andThen]
              have hrollback : endTransaction (some e) awaits uow =
                  safeRollback awaits.safeRollback uow := by
                simp [endTransaction, htype, h.1]
              rw [hrollback, safeRollback_timeoutOccurred h]
              exact ⟨safeRollback_state openOn_setTimeoutOccurred h _,
                by simp [timeoutRecorded, htype, htruth]⟩
          | true =>
              rw [detectTimeout_truthy htype htruth, Effect.raise_andThen]
              exact ⟨h, by simp [timeoutRecorded, htype, htruth, Effect.raise]⟩

end Flag

/-! ## Main result -/

/-- An owned session is closed and let go at exit exactly when no recorded
timeout meets a cleanup delay that is cut short. -/
theorem aexit_released_iff {session : SessionId} {uow : UnitOfWork} (h : OpenOn session uow)
    (exc : Option ExcObject) (awaits : ExitAwaits) :
    Released session (aexit exc awaits uow) ↔
      (timeoutRecorded exc awaits uow = true → awaits.cleanup.delay = .elapsed) := by
  obtain ⟨hopen, hflag⟩ := tryBlock_state h exc awaits
  rw [← hflag]
  constructor
  · intro hreleased
    exact elapsed_of_forgotten hopen hreleased.forgotten
  · intro hdelay
    have hreleased := releaseSession_released hopen hdelay
    exact ⟨List.mem_append_right _ hreleased.closed, hreleased.forgotten⟩

theorem aexit_released_iff_return :
    Released 1 (aexit none allReturned openUnit) :=
  (aexit_released_iff openOn_openUnit none allReturned).mpr fun _ => rfl

/-- A commit that times out, and a caller that cancels the cleanup delay. -/
def cancelledDelay : ExitAwaits where
  commit := ⟨.timedOut, .returned, false⟩
  safeRollback := .returned
  cleanup := ⟨.cancelled, .returned, .closes⟩

/-- The session of a unit whose body returned is neither closed nor let go. -/
theorem session_leaked :
    OpenOn 1 openUnit ∧
      (aexit none cancelledDelay openUnit).calls = [.commit 1] ∧
      (aexit none cancelledDelay openUnit).state.session = some 1 ∧
      ¬ Released 1 (aexit none cancelledDelay openUnit) := by
  have hsession : (aexit none cancelledDelay openUnit).state.session = some 1 := rfl
  refine ⟨openOn_openUnit, rfl, hsession, fun hreleased => ?_⟩
  have hnone := hreleased.forgotten
  rw [hsession] at hnone
  cases hnone

end BackendProdReady.Database.SessionRelease
