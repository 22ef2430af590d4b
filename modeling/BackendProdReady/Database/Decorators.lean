import BackendProdReady.Exceptions.Classes
import BackendProdReady.Lib.Calls

/-!
# Timeouts and the translation of database exceptions

The decorators around every database coroutine: `timeout`, which runs it under
`asyncio.wait_for`, and `database_error_handler`, which maps driver exceptions
to service exceptions.  A suspended coroutine sees a deadline and a cancelled
task as the same `CancelledError`; only the `wait_for` whose deadline passed
turns it into `TimeoutError`.  A `wait_for` whose call has ended when it is
cancelled ends as the call did, as in CPython 3.11.  Logging is left out.
-/

namespace BackendProdReady.Database.Decorators

open BackendProdReady.Lib.Calls
open BackendProdReady.Exceptions.Classes

/-! ## Awaited calls -/

inductive AwaitOutcome
  | returned
  | raised (e : ExcObject)
  /-- The deadline of the nearest `wait_for` passes here. -/
  | timedOut
  /-- The deadline of a `wait_for` further out passes here. -/
  | outerTimedOut
  | cancelled
  /-- `CancelledError` arrives when the call has ended and its caller has not resumed. -/
  | cancelledLate (ended : Except ExcObject Unit)

/-- `await call` inside a coroutine that itself runs under `wait_for`. -/
def AwaitOutcome.plain : AwaitOutcome → Except Exc Unit
  | .returned => .ok ()
  | .raised e => .error (.object e)
  | .timedOut | .outerTimedOut => .error (.cancelledError .deadline)
  | .cancelled | .cancelledLate _ => .error (.cancelledError .caller)

/-- `await asyncio.wait_for(call, timeout=…)`. -/
def AwaitOutcome.underWaitFor : AwaitOutcome → Except Exc Unit
  | .returned => .ok ()
  | .raised e => .error (.object e)
  | .timedOut => .error .timeoutError
  | .outerTimedOut => .error (.cancelledError .deadline)
  | .cancelled => .error (.cancelledError .caller)
  | .cancelledLate (.ok ()) => .ok ()
  | .cancelledLate (.error e) => .error (.object e)

variable {σ κ : Type}

/-- `asyncio.wait_for` around a coroutine of this program. -/
def waitFor (m : Effect σ κ Exc) : Effect σ κ Exc :=
  match m.result with
  | .error (.cancelledError .deadline) => { m with result := .error .timeoutError }
  | _ => m

/-- A `wait_for` that is cancelled while its coroutine runs raises `CancelledError`,
however the coroutine takes it. -/
def cancelledWhile (cancelled : Bool) (m : Effect σ κ Exc) : Effect σ κ Exc :=
  if cancelled then { m with result := .error (.cancelledError .caller) } else m

/-! ## `timeout` -/

def requestTimedOut : Exc :=
  .service .requestTimeoutError "Request timed out. Please try again."
    [("retry_after", "5"),
      ("suggestion",
        "System is under load. Please retry with exponential backoff.")]

/-- `timeout(seconds, set_timeout_occurred=…)`; `setFlag` sets the flag of the
instance, or nothing. -/
def timeout (setFlag : σ → σ) (m : Effect σ κ Exc) : Effect σ κ Exc :=
  (waitFor m).tryExcept fun e =>
    if e.isInstance [.timeoutError] then some fun s => .raise (setFlag s) requestTimedOut
    else none

/-! ## `database_error_handler` -/

/-- `_EXCEPTION_HANDLERS`, without the texts for the log. -/
def exceptionHandlers : List (List ExcClass × ExcClass) :=
  [([.requestTimeoutError], .requestTimeoutError),
    ([.postgresConnectionError, .connectionFailureError, .connectionDoesNotExistError,
        .osError, .gaierror], .databaseDisconnectionError),
    ([.sqlalchemyTimeoutError], .databaseTimeoutError),
    ([.sqlalchemyOperationalError], .databaseOperationalError),
    ([.sqlalchemyInterfaceError], .databaseInterfaceError),
    ([.sqlalchemyDbapiError], .databaseDbapiError),
    ([.circuitBreakerFailed], .databaseCircuitBreakerOpenError)]

def serviceError (target : ExcClass) : Exc := .service target (defaultMessage target) []

/-- `_handle_exception`: what it raises for `e`. -/
def handleException (e : Exc) : Exc :=
  if e.isInstance [.httpException] then e
  else
    match exceptionHandlers.find? fun row => e.isInstance row.1 with
    | some (_, target) => serviceError target
    | none => serviceError .databaseError

def databaseErrorHandler (m : Effect σ κ Exc) : Effect σ κ Exc :=
  m.tryExcept fun e =>
    if e.isInstance [.exception] then some fun s => .raise s (handleException e) else none

theorem handleException_of_http {e : Exc} (h : e.isInstance [.httpException] = true) :
    handleException e = e := by
  rw [handleException, if_pos h]

theorem handleException_of_not_http {e : Exc} (h : e.isInstance [.httpException] = false) :
    ∃ target ∈ ExcClass.databaseError :: exceptionHandlers.map Prod.snd,
      handleException e = serviceError target := by
  simp only [handleException, h]
  cases hrow : exceptionHandlers.find? fun row => e.isInstance row.1 with
  | none => exact ⟨.databaseError, List.mem_cons_self, rfl⟩
  | some row =>
      have hmem := List.mem_of_find?_eq_some hrow
      exact ⟨row.2, List.mem_cons_of_mem _ (List.mem_map_of_mem hmem), rfl⟩

/-! ## What the decorators keep -/

section Kept

variable {m : Effect σ κ Exc}

@[simp] theorem waitFor_state : (waitFor m).state = m.state := by
  unfold waitFor
  split <;> rfl

@[simp] theorem waitFor_calls : (waitFor m).calls = m.calls := by
  unfold waitFor
  split <;> rfl

@[simp] theorem cancelledWhile_state (cancelled : Bool) :
    (cancelledWhile cancelled m).state = m.state := by
  cases cancelled <;> rfl

@[simp] theorem cancelledWhile_calls (cancelled : Bool) :
    (cancelledWhile cancelled m).calls = m.calls := by
  cases cancelled <;> rfl

@[simp] theorem cancelledWhile_false : cancelledWhile false m = m := rfl

@[simp] theorem timeout_calls (setFlag : σ → σ) : (timeout setFlag m).calls = m.calls := by
  refine (Effect.tryExcept_calls fun e next hnext s => ?_).trans waitFor_calls
  split at hnext
  · obtain rfl := Option.some.inj hnext
    rfl
  · cases hnext

theorem timeout_state {P : σ → Prop} {setFlag : σ → σ} (hflag : ∀ s, P s → P (setFlag s))
    (hm : P m.state) : P (timeout setFlag m).state := by
  refine Effect.tryExcept_state (by simpa using hm) fun e next hnext s hs => ?_
  split at hnext
  · obtain rfl := Option.some.inj hnext
    exact hflag s hs
  · cases hnext

@[simp] theorem databaseErrorHandler_state : (databaseErrorHandler m).state = m.state := by
  refine Effect.tryExcept_state (P := fun s => s = m.state) rfl fun e next hnext s hs => ?_
  split at hnext
  · obtain rfl := Option.some.inj hnext
    exact hs
  · cases hnext

@[simp] theorem databaseErrorHandler_calls : (databaseErrorHandler m).calls = m.calls := by
  refine Effect.tryExcept_calls fun e next hnext s => ?_
  split at hnext
  · obtain rfl := Option.some.inj hnext
    rfl
  · cases hnext

theorem waitFor_returned (h : (waitFor m).result = .ok ()) :
    m.result = .ok () ∧ waitFor m = m := by
  unfold waitFor at h ⊢
  split at h
  · cases h
  · exact ⟨h, rfl⟩

theorem timeout_returned {setFlag : σ → σ} (h : (timeout setFlag m).result = .ok ()) :
    m.result = .ok () ∧ timeout setFlag m = m := by
  have hraises : ∀ (e : Exc) (next : σ → Effect σ κ Exc),
      (if e.isInstance [.timeoutError] then
        some fun s => Effect.raise (setFlag s) requestTimedOut else none) = some next →
      ∀ s, (next s).result ≠ .ok () := by
    intro e next hnext s
    split_ifs at hnext
    obtain rfl := Option.some.inj hnext
    simp [Effect.raise]
  obtain ⟨hwait, htimeout⟩ := Effect.tryExcept_returned hraises h
  obtain ⟨hm, hwaitFor⟩ := waitFor_returned hwait
  exact ⟨hm, htimeout.trans hwaitFor⟩

theorem databaseErrorHandler_returned (h : (databaseErrorHandler m).result = .ok ()) :
    m.result = .ok () := by
  refine (Effect.tryExcept_returned (fun e next hnext s => ?_) h).1
  split_ifs at hnext
  obtain rfl := Option.some.inj hnext
  simp [Effect.raise]

theorem databaseErrorHandler_of_ok (h : m.result = .ok ()) : databaseErrorHandler m = m :=
  Effect.tryExcept_of_ok h

theorem databaseErrorHandler_of_error {e : Exc} (h : m.result = .error e) :
    (databaseErrorHandler m).result =
      .error (if e.isInstance [.exception] then handleException e else e) := by
  unfold databaseErrorHandler
  split_ifs with hexception
  · rw [Effect.tryExcept_of_handled h (if_pos hexception), Effect.after_result]
    rfl
  · rw [Effect.tryExcept_of_unhandled h (if_neg hexception), h]

/-- What `wait_for` raises where its coroutine raised `e`. -/
def expired : Exc → Exc
  | .cancelledError .deadline => .timeoutError
  | e => e

theorem waitFor_of_ok (h : m.result = .ok ()) : waitFor m = m := by
  simp [waitFor, h]

theorem waitFor_of_error {e : Exc} (h : m.result = .error e) :
    (waitFor m).result = .error (expired e) := by
  unfold waitFor expired
  rw [h]
  split <;> simp_all

theorem timeout_of_ok {setFlag : σ → σ} (h : m.result = .ok ()) : timeout setFlag m = m := by
  rw [timeout, waitFor_of_ok h]
  exact Effect.tryExcept_of_ok h

theorem timeout_of_error {setFlag : σ → σ} {e : Exc} (h : m.result = .error e) :
    (timeout setFlag m).result =
        .error (if (expired e).isInstance [.timeoutError] then requestTimedOut else expired e) ∧
      (timeout setFlag m).state =
        if (expired e).isInstance [.timeoutError] then setFlag m.state else m.state := by
  have hwait := waitFor_of_error h
  unfold timeout
  split_ifs with htimeout
  · rw [Effect.tryExcept_of_handled hwait (if_pos htimeout), Effect.after_result,
      Effect.after_state, waitFor_state]
    exact ⟨rfl, rfl⟩
  · rw [Effect.tryExcept_of_unhandled hwait (if_neg htimeout), waitFor_state]
    exact ⟨hwait, rfl⟩

theorem decorated_returned_iff {setFlag : σ → σ} :
    (timeout setFlag (databaseErrorHandler m)).result = .ok () ↔ m.result = .ok () := by
  constructor
  · exact fun h => databaseErrorHandler_returned (timeout_returned h).1
  · intro h
    rw [databaseErrorHandler_of_ok h, timeout_of_ok h, h]

end Kept

end BackendProdReady.Database.Decorators
