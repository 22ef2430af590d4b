import BackendProdReady.Database.Decorators

/-!
# The decorators of a repository method

`apply_repository_decorators` puts a method behind the circuit breaker, the
timeout and the error handler, in this order from the inside.  The breaker is a
parameter: open, it raises its own exception in place of the call; closed, it
passes on what the call returns or raises.
-/

namespace BackendProdReady.Database.RepositoryStack

open BackendProdReady.Lib.Calls
open BackendProdReady.Exceptions.Classes
open BackendProdReady.Database.Decorators

variable {α : Type}

/-! ## The stack -/

inductive BodyOutcome (α : Type)
  | returned (value : α)
  | raised (e : ExcObject)
  /-- `REPOSITORY_TIMEOUT` passes first, and `wait_for` cancels the body. -/
  | exceeded

def BodyOutcome.result : BodyOutcome α → Except Exc α
  | .returned value => .ok value
  | .raised e => .error (.object e)
  | .exceeded => .error (.cancelledError .deadline)

/-- `_db_circuit_breaker(func)`; `openedState` is what an open breaker raises. -/
def dbCircuitBreaker (isOpen : Bool) (openedState : ExcObject) (call : Except Exc α) :
    Except Exc α :=
  if isOpen then .error (.object openedState) else call

/-- `timeout(REPOSITORY_TIMEOUT)`, whose instance has no timeout flag. -/
def timeoutWrapper : Except Exc α → Except Exc α
  | .ok value => .ok value
  | .error e =>
      .error (if (expired e).isInstance [.timeoutError] then requestTimedOut else expired e)

def errorHandlerWrapper : Except Exc α → Except Exc α
  | .ok value => .ok value
  | .error e => .error (if e.isInstance [.exception] then handleException e else e)

def applyRepositoryDecorators (isOpen : Bool) (openedState : ExcObject)
    (body : BodyOutcome α) : Except Exc α :=
  errorHandlerWrapper (timeoutWrapper (dbCircuitBreaker isOpen openedState body.result))

/-- A decorated method returns just when the breaker is closed and its body returns. -/
theorem applyRepositoryDecorators_eq_ok_iff {isOpen : Bool} {openedState : ExcObject}
    {body : BodyOutcome α} {value : α} :
    applyRepositoryDecorators isOpen openedState body = .ok value ↔
      isOpen = false ∧ body = .returned value := by
  cases isOpen with
  | true => simp [applyRepositoryDecorators, dbCircuitBreaker, timeoutWrapper, errorHandlerWrapper]
  | false =>
      cases body with
      | returned other =>
          simp [applyRepositoryDecorators, dbCircuitBreaker, BodyOutcome.result, timeoutWrapper,
            errorHandlerWrapper]
      | raised e | exceeded =>
          simp [applyRepositoryDecorators, dbCircuitBreaker, BodyOutcome.result, timeoutWrapper,
            errorHandlerWrapper]

/-! ## The decorators of coroutines and their results -/

theorem timeoutWrapper_result {σ κ : Type} (m : Effect σ κ Exc) (setFlag : σ → σ) :
    (timeout setFlag m).result = timeoutWrapper m.result := by
  cases hm : m.result with
  | ok => rw [timeout_of_ok hm, hm, timeoutWrapper]
  | error e => rw [(timeout_of_error hm).1, timeoutWrapper]

theorem errorHandlerWrapper_result {σ κ : Type} (m : Effect σ κ Exc) :
    (databaseErrorHandler m).result = errorHandlerWrapper m.result := by
  cases hm : m.result with
  | ok => rw [databaseErrorHandler_of_ok hm, hm, errorHandlerWrapper]
  | error e => rw [databaseErrorHandler_of_error hm, errorHandlerWrapper]

/-! ## The mapping table -/

/-- The classes that `_handle_exception` raises in place of another exception. -/
def translations : List ExcClass := .databaseError :: exceptionHandlers.map Prod.snd

theorem translations_serviceException {target : ExcClass} (h : target ∈ translations) :
    .serviceException ∈ mro target := by
  revert target
  decide

theorem translations_httpException {target : ExcClass} (h : target ∈ translations) :
    (serviceError target).isInstance [.httpException] = true := by
  revert target
  decide

/-- The exception that stands for `e`: the one in the first row with a class of
`e`, or the default where no row has one. -/
def FirstMatch (e : ExcObject) (target : ExcClass) : Prop :=
  (∃ earlier row later, exceptionHandlers = earlier ++ row :: later ∧
    (∀ other ∈ earlier, (Exc.object e).isInstance other.1 = false) ∧
    (Exc.object e).isInstance row.1 = true ∧ target = row.2) ∨
  ((∀ row ∈ exceptionHandlers, (Exc.object e).isInstance row.1 = false) ∧
    target = .databaseError)

theorem FirstMatch.mem_translations {e : ExcObject} {target : ExcClass}
    (h : FirstMatch e target) : target ∈ translations := by
  rcases h with ⟨earlier, row, later, htable, -, -, rfl⟩ | ⟨-, rfl⟩
  · have hrow : row ∈ exceptionHandlers := by simp [htable]
    exact List.mem_cons_of_mem _ (List.mem_map_of_mem hrow)
  · exact List.mem_cons_self

theorem handleException_firstMatch {e : ExcObject}
    (hhttp : (Exc.object e).isInstance [.httpException] = false) :
    ∃ target, FirstMatch e target ∧ handleException (.object e) = serviceError target := by
  cases hfind : exceptionHandlers.find? fun row => (Exc.object e).isInstance row.1 with
  | none =>
      refine ⟨.databaseError, .inr ⟨?_, rfl⟩, by simp [handleException, hhttp, hfind]⟩
      simpa using List.find?_eq_none.mp hfind
  | some row =>
      obtain ⟨hrow, earlier, later, htable, hearlier⟩ := List.find?_eq_some_iff_append.mp hfind
      refine ⟨row.2, .inl ⟨earlier, row, later, htable, ?_, hrow, rfl⟩,
        by simp [handleException, hhttp, hfind]⟩
      simpa using hearlier

/-- What the handler raises it lets pass the second time. -/
theorem handleException_http (e : Exc) :
    (handleException e).isInstance [.httpException] = true := by
  cases hhttp : e.isInstance [.httpException] with
  | true => rw [handleException_of_http hhttp, hhttp]
  | false =>
      obtain ⟨target, hmem, heq⟩ := handleException_of_not_http hhttp
      rw [heq, translations_httpException hmem]

theorem errorHandlerWrapper_idem (outcome : Except Exc α) :
    errorHandlerWrapper (errorHandlerWrapper outcome) = errorHandlerWrapper outcome := by
  cases outcome with
  | ok value => rfl
  | error e =>
      by_cases hexception : e.isInstance [.exception] = true
      · simp only [errorHandlerWrapper, hexception, if_true,
          handleException_of_http (handleException_http e), ite_self]
      · simp [errorHandlerWrapper, hexception]

/-! ## What an open breaker raises -/

/-- An `Exception` that is none of the errors named in the table. -/
structure OpenedState (e : ExcObject) : Prop where
  exception : .exception ∈ e.classes
  unnamed : ∀ c ∈ [ExcClass.circuitBreakerFailed, .osError, .httpException,
    .postgresConnectionError, .sqlalchemyTimeoutError, .sqlalchemyDbapiError], c ∉ e.classes

theorem not_mem_of_base {e : ExcObject} {c b : ExcClass} (hb : base c = some b)
    (h : b ∉ e.classes) : c ∉ e.classes :=
  fun hc => h (e.closed c hc b hb)

theorem OpenedState.not_row {e : ExcObject} (h : OpenedState e) {row : List ExcClass × ExcClass}
    (hrow : row ∈ exceptionHandlers) : (Exc.object e).isInstance row.1 = false := by
  have hhttp := h.unnamed .httpException (by simp)
  have hpostgres := h.unnamed .postgresConnectionError (by simp)
  have hos := h.unnamed .osError (by simp)
  have hdbapi := h.unnamed .sqlalchemyDbapiError (by simp)
  have htimeout := h.unnamed .sqlalchemyTimeoutError (by simp)
  have hbreaker := h.unnamed .circuitBreakerFailed (by simp)
  have hservice := not_mem_of_base (c := .serviceException) rfl hhttp
  have hrequest := not_mem_of_base (c := .requestTimeoutError) rfl hservice
  have hfailure := not_mem_of_base (c := .connectionFailureError) rfl hpostgres
  have hmissing := not_mem_of_base (c := .connectionDoesNotExistError) rfl hpostgres
  have hgaierror := not_mem_of_base (c := .gaierror) rfl hos
  have hoperational := not_mem_of_base (c := .sqlalchemyOperationalError) rfl hdbapi
  have hinterface := not_mem_of_base (c := .sqlalchemyInterfaceError) rfl hdbapi
  simp only [exceptionHandlers, List.mem_cons, List.not_mem_nil, or_false] at hrow
  rcases hrow with rfl | rfl | rfl | rfl | rfl | rfl | rfl <;>
    simp [Exc.isInstance, Exc.classes, *]

theorem timeoutWrapper_object (e : ExcObject) :
    timeoutWrapper (.error (.object e) : Except Exc α) =
      .error (if (Exc.object e).isInstance [.timeoutError] then requestTimedOut else .object e) :=
  rfl

theorem rejected_databaseError {openedState : ExcObject} (h : OpenedState openedState)
    (body : BodyOutcome α) :
    applyRepositoryDecorators true openedState body = .error (serviceError .databaseError) := by
  have hos := h.unnamed .osError (by simp)
  have hhttp := h.unnamed .httpException (by simp)
  have htimeout : (Exc.object openedState).isInstance [.timeoutError] = false := by
    rw [Exc.isInstance_singleton, decide_eq_false_iff_not]
    exact not_mem_of_base (c := .timeoutError) rfl hos
  have hexception : (Exc.object openedState).isInstance [.exception] = true := by
    rw [Exc.isInstance_singleton, decide_eq_true_eq]
    exact h.exception
  have hnotHttp : (Exc.object openedState).isInstance [.httpException] = false := by
    rw [Exc.isInstance_singleton, decide_eq_false_iff_not]
    exact hhttp
  have hrow : exceptionHandlers.find? (fun row => (Exc.object openedState).isInstance row.1) =
      none := by
    rw [List.find?_eq_none]
    intro row hmem
    simp [h.not_row hmem]
  have hhandled : handleException (.object openedState) = serviceError .databaseError := by
    simp [handleException, hnotHttp, hrow]
  simp [applyRepositoryDecorators, dbCircuitBreaker, timeoutWrapper_object, htimeout,
    errorHandlerWrapper, hexception, hhandled]

/-! ## The contract -/

structure Contract (isOpen : Bool) (openedState : ExcObject) (body : BodyOutcome α) : Prop where
  returned : isOpen = false → ∀ value, body = .returned value →
    applyRepositoryDecorators isOpen openedState body = .ok value
  httpException : isOpen = false → ∀ e, body = .raised e →
    (Exc.object e).isInstance [.httpException] = true →
    applyRepositoryDecorators isOpen openedState body = .error (.object e)
  timedOut : isOpen = false → body = .exceeded →
    applyRepositoryDecorators isOpen openedState body = .error requestTimedOut ∧
      requestTimedOut.statusCode = some 408
  rejected : isOpen = true → ∃ message info,
    let e := Exc.service .databaseCircuitBreakerOpenError message info
    applyRepositoryDecorators isOpen openedState body = .error e ∧ e.statusCode = some 503
  timeoutError : isOpen = false → ∀ e, body = .raised e →
    (Exc.object e).isInstance [.httpException] = false →
    (Exc.object e).isInstance [.timeoutError] = true →
    applyRepositoryDecorators isOpen openedState body = .error requestTimedOut
  translated : isOpen = false → ∀ e, body = .raised e →
    (Exc.object e).isInstance [.exception] = true →
    (Exc.object e).isInstance [.httpException] = false →
    (Exc.object e).isInstance [.timeoutError] = false →
    ∃ target, FirstMatch e target ∧ .serviceException ∈ mro target ∧
      applyRepositoryDecorators isOpen openedState body =
        .error (.service target (defaultMessage target) [])
  idempotent : errorHandlerWrapper (applyRepositoryDecorators isOpen openedState body) =
    applyRepositoryDecorators isOpen openedState body

/-- An object that is both would be taken for a timeout before the handler sees
that it is an `HTTPException`. -/
def TimeoutAndHttp (body : BodyOutcome α) : Prop :=
  ∃ e, body = .raised e ∧ (Exc.object e).isInstance [.httpException] = true ∧
    (Exc.object e).isInstance [.timeoutError] = true

theorem raised_timeoutError {openedState e : ExcObject}
    (h : (Exc.object e).isInstance [.timeoutError] = true) :
    applyRepositoryDecorators false openedState (.raised e : BodyOutcome α) =
      .error requestTimedOut := by
  have hhandled : errorHandlerWrapper (.error requestTimedOut : Except Exc α) =
      .error requestTimedOut := rfl
  simp [applyRepositoryDecorators, dbCircuitBreaker, BodyOutcome.result,
    timeoutWrapper_object, h, hhandled]

theorem raised_other {openedState e : ExcObject}
    (hexception : (Exc.object e).isInstance [.exception] = true)
    (h : (Exc.object e).isInstance [.timeoutError] = false) :
    applyRepositoryDecorators false openedState (.raised e : BodyOutcome α) =
      .error (handleException (.object e)) := by
  simp [applyRepositoryDecorators, dbCircuitBreaker, BodyOutcome.result,
    timeoutWrapper_object, errorHandlerWrapper, h, hexception]

theorem contract_of_closed {openedState : ExcObject} {body : BodyOutcome α}
    (h : ¬ TimeoutAndHttp body) : Contract false openedState body where
  returned := by
    rintro - value rfl
    rfl
  httpException := by
    rintro - e rfl hhttp
    have htimeout : (Exc.object e).isInstance [.timeoutError] = false := by
      rw [← Bool.not_eq_true]
      exact fun htimeout => h ⟨e, rfl, hhttp, htimeout⟩
    rw [raised_other (Exc.isInstance_base rfl hhttp) htimeout, handleException_of_http hhttp]
  timedOut := by
    rintro - rfl
    exact ⟨rfl, rfl⟩
  rejected := by simp
  timeoutError := by
    -- `TimeoutError` is an `OSError`, but the timeout sees it before the table does.
    rintro - e rfl - htimeout
    exact raised_timeoutError htimeout
  translated := by
    rintro - e rfl hexception hhttp htimeout
    obtain ⟨target, hfirst, heq⟩ := handleException_firstMatch hhttp
    refine ⟨target, hfirst, translations_serviceException hfirst.mem_translations, ?_⟩
    rw [raised_other hexception htimeout, heq, serviceError]
  idempotent := errorHandlerWrapper_idem _

theorem not_contract_of_open {openedState : ExcObject} (hopened : OpenedState openedState)
    (body : BodyOutcome α) : ¬ Contract true openedState body := by
  intro h
  obtain ⟨message, info, hrejected, -⟩ := h.rejected rfl
  rw [rejected_databaseError hopened] at hrejected
  cases hrejected

theorem not_contract_of_timeoutAndHttp {openedState : ExcObject} {body : BodyOutcome α}
    (hbody : TimeoutAndHttp body) : ¬ Contract false openedState body := by
  obtain ⟨e, rfl, hhttp, htimeout⟩ := hbody
  intro h
  have hsame := h.httpException rfl e rfl hhttp
  rw [raised_timeoutError htimeout] at hsame
  cases hsame

/-- The stack keeps its contract exactly when the breaker is closed and the body
raises no object that is both an `HTTPException` and a `TimeoutError`. -/
theorem contract_iff {openedState : ExcObject} (hopened : OpenedState openedState)
    (isOpen : Bool) (body : BodyOutcome α) :
    Contract isOpen openedState body ↔ isOpen = false ∧ ¬ TimeoutAndHttp body := by
  cases isOpen with
  | true => simp [not_contract_of_open hopened body]
  | false =>
      constructor
      · exact fun h => ⟨rfl, fun hbody => not_contract_of_timeoutAndHttp hbody h⟩
      · exact fun h => contract_of_closed h.2

/-- An instance of purgatory's class, whose superclass is `Exception`. -/
def purgatoryOpenedState : ExcObject where
  ident := 0
  classes := [.other "OpenedState", .exception, .baseException]
  typeTruth := true
  truth := true
  closed := closed_openedState

theorem openedState_purgatoryOpenedState : OpenedState purgatoryOpenedState where
  exception := by decide
  unnamed := by decide

theorem contract_iff_returned :
    Contract false purgatoryOpenedState (.returned 7 : BodyOutcome Nat) :=
  (contract_iff openedState_purgatoryOpenedState false (.returned 7 : BodyOutcome Nat)).mpr
    ⟨rfl, by rintro ⟨e, he, -⟩; cases he⟩

theorem open_breaker_reports_databaseError :
    applyRepositoryDecorators true purgatoryOpenedState (.returned 7 : BodyOutcome Nat) =
        .error (.service .databaseError "Database error" []) ∧
      (Exc.service .databaseError "Database error" []).statusCode = some 500 ∧
      ¬ Contract true purgatoryOpenedState (.returned 7 : BodyOutcome Nat) := by
  have hrejected : applyRepositoryDecorators true purgatoryOpenedState
      (.returned 7 : BodyOutcome Nat) = .error (.service .databaseError "Database error" []) := rfl
  refine ⟨hrejected, rfl, fun hcontract => ?_⟩
  obtain ⟨message, info, hopen, -⟩ := hcontract.rejected rfl
  rw [hrejected] at hopen
  cases hopen

end BackendProdReady.Database.RepositoryStack
