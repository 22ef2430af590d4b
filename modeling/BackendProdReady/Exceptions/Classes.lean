import Mathlib.Tactic.Common

/-!
# Exception classes and the modules that define them

The classes that handlers of this program name, each with its superclass, and
the exception objects they are tested against.  An object lists the classes it
is an instance of; the list is closed under superclasses.  A module is the list
of classes it defines or imports, and importing any other name raises.
-/

namespace BackendProdReady.Exceptions.Classes

/-! ## Classes -/

inductive ExcClass
  | baseException
  | cancelledError
  | exception
  | attributeError
  | importError
  | runtimeError
  | osError
  | timeoutError
  | gaierror
  | httpException
  | serviceException
  | requestError
  | authenticationFailedError
  | permissionDeniedError
  | notFoundError
  | methodNotAllowedError
  | requestTimeoutError
  | conflictError
  | validationError
  | rateLimitExceededError
  | internalServerError
  | badGatewayError
  | serviceUnavailableError
  | databaseError
  | databaseConnectionError
  | databaseTimeoutError
  | databaseDisconnectionError
  | databaseInterfaceError
  | databaseOperationalError
  | databaseDbapiError
  | databaseCircuitBreakerOpenError
  | postgresConnectionError
  | connectionFailureError
  | connectionDoesNotExistError
  | sqlalchemyTimeoutError
  | sqlalchemyOperationalError
  | sqlalchemyInterfaceError
  | sqlalchemyDbapiError
  | circuitBreakerFailed
  | other (name : String)
deriving DecidableEq

/-- The nearest superclass in the list above; the drivers' own intermediate
classes are left out. -/
def base : ExcClass → Option ExcClass
  | .baseException | .other _ => none
  | .cancelledError | .exception => some .baseException
  | .attributeError | .importError | .runtimeError | .osError | .httpException
  | .postgresConnectionError | .sqlalchemyTimeoutError | .sqlalchemyDbapiError
  | .circuitBreakerFailed => some .exception
  | .timeoutError | .gaierror => some .osError
  | .serviceException => some .httpException
  | .requestError | .authenticationFailedError | .permissionDeniedError | .notFoundError
  | .methodNotAllowedError | .requestTimeoutError | .conflictError | .validationError
  | .rateLimitExceededError | .internalServerError | .badGatewayError
  | .serviceUnavailableError => some .serviceException
  | .databaseTimeoutError => some .requestTimeoutError
  | .databaseDisconnectionError | .databaseCircuitBreakerOpenError =>
      some .serviceUnavailableError
  | .databaseError | .databaseConnectionError | .databaseInterfaceError
  | .databaseOperationalError | .databaseDbapiError => some .internalServerError
  | .connectionFailureError | .connectionDoesNotExistError => some .postgresConnectionError
  | .sqlalchemyOperationalError | .sqlalchemyInterfaceError => some .sqlalchemyDbapiError

def depth : ExcClass → Nat
  | .baseException | .other _ => 0
  | .cancelledError | .exception => 1
  | .attributeError | .importError | .runtimeError | .osError | .httpException
  | .postgresConnectionError | .sqlalchemyTimeoutError | .sqlalchemyDbapiError
  | .circuitBreakerFailed => 2
  | .timeoutError | .gaierror | .serviceException | .connectionFailureError
  | .connectionDoesNotExistError | .sqlalchemyOperationalError
  | .sqlalchemyInterfaceError => 3
  | .requestError | .authenticationFailedError | .permissionDeniedError | .notFoundError
  | .methodNotAllowedError | .requestTimeoutError | .conflictError | .validationError
  | .rateLimitExceededError | .internalServerError | .badGatewayError
  | .serviceUnavailableError => 4
  | .databaseTimeoutError | .databaseDisconnectionError | .databaseCircuitBreakerOpenError
  | .databaseError | .databaseConnectionError | .databaseInterfaceError
  | .databaseOperationalError | .databaseDbapiError => 5

theorem depth_le (c : ExcClass) : depth c ≤ 5 := by
  cases c <;> simp [depth]

theorem depth_base {c b : ExcClass} (h : base c = some b) : depth b < depth c := by
  cases c <;> cases h <;> decide

def mroUpTo : Nat → ExcClass → List ExcClass
  | 0, c => [c]
  | steps + 1, c =>
      match base c with
      | none => [c]
      | some b => c :: mroUpTo steps b

theorem mem_mroUpTo_self (steps : Nat) (c : ExcClass) : c ∈ mroUpTo steps c := by
  cases steps with
  | zero => simp [mroUpTo]
  | succ steps =>
      rw [mroUpTo]
      split <;> simp

theorem mroUpTo_closed {steps : Nat} {c d b : ExcClass} (hsteps : depth c ≤ steps)
    (hd : d ∈ mroUpTo steps c) (hb : base d = some b) : b ∈ mroUpTo steps c := by
  induction steps generalizing c with
  | zero =>
      rw [mroUpTo, List.mem_singleton] at hd
      subst hd
      have hlt := depth_base hb
      omega
  | succ steps ih =>
      rw [mroUpTo] at hd ⊢
      cases hc : base c with
      | none =>
          simp only [hc, List.mem_singleton] at hd
          subst hd
          simp [hc] at hb
      | some c' =>
          have hlt := depth_base hc
          simp only [hc, List.mem_cons] at hd ⊢
          rcases hd with rfl | hd
          · obtain rfl : c' = b := Option.some.inj (hc.symm.trans hb)
            exact .inr (mem_mroUpTo_self _ _)
          · exact .inr (ih (by omega) hd)

def mro (c : ExcClass) : List ExcClass := mroUpTo 5 c

theorem mro_closed {c d b : ExcClass} (hd : d ∈ mro c) (hb : base d = some b) : b ∈ mro c :=
  mroUpTo_closed (depth_le c) hd hb

/-- The class attribute `message` of the service exceptions. -/
def defaultMessage : ExcClass → String
  | .serviceException | .internalServerError => "Internal Server Error"
  | .requestError => "Bad request"
  | .authenticationFailedError => "Authentication Failed."
  | .permissionDeniedError => "You do not have permission to perform this action."
  | .notFoundError => "Resource Not Found"
  | .methodNotAllowedError => "Method Not Allowed"
  | .requestTimeoutError => "Request Timeout"
  | .conflictError => "Conflict Error"
  | .validationError => "Validation Error"
  | .rateLimitExceededError => "Rate limit exceeded"
  | .badGatewayError => "Bad Gateway"
  | .serviceUnavailableError => "Service Unavailable"
  | .databaseError => "Database error"
  | .databaseConnectionError => "Database connection error"
  | .databaseTimeoutError => "Database timeout error"
  | .databaseDisconnectionError => "Database disconnection error"
  | .databaseInterfaceError => "Database interface error"
  | .databaseOperationalError => "Database operational error"
  | .databaseDbapiError => "Database DBAPI error"
  | .databaseCircuitBreakerOpenError =>
      "Database circuit breaker is open - too many failures"
  | _ => ""

/-- The class attribute `status_code` of the service exceptions. -/
def statusCode : ExcClass → Option Nat
  | .serviceException | .internalServerError | .databaseError | .databaseConnectionError
  | .databaseInterfaceError | .databaseOperationalError | .databaseDbapiError => some 500
  | .requestError => some 400
  | .authenticationFailedError => some 401
  | .permissionDeniedError => some 403
  | .notFoundError => some 404
  | .methodNotAllowedError => some 405
  | .requestTimeoutError | .databaseTimeoutError => some 408
  | .conflictError => some 409
  | .validationError => some 422
  | .rateLimitExceededError => some 429
  | .badGatewayError => some 502
  | .serviceUnavailableError | .databaseDisconnectionError
  | .databaseCircuitBreakerOpenError => some 503
  | _ => none

/-! ## Objects -/

/-- An exception object raised outside the modelled code.  `truth` and
`typeTruth` are `bool(exc)` and `bool(type(exc))`, which a class may redefine. -/
structure ExcObject where
  ident : Nat
  classes : List ExcClass
  typeTruth : Bool
  truth : Bool
  closed : ∀ d ∈ classes, ∀ b, base d = some b → b ∈ classes

/-- A class from outside, in front of classes that contain their superclasses. -/
theorem closed_cons_other (name : String) {classes : List ExcClass}
    (h : ∀ d ∈ classes, ∀ b, base d = some b → b ∈ classes) :
    ∀ d ∈ ExcClass.other name :: classes, ∀ b, base d = some b →
      b ∈ ExcClass.other name :: classes := by
  intro d hd b hb
  rcases List.mem_cons.mp hd with rfl | hd
  · cases hb
  · exact List.mem_cons_of_mem _ (h d hd b hb)

theorem closed_exception : ∀ d ∈ [ExcClass.exception, .baseException], ∀ b,
    base d = some b → b ∈ [ExcClass.exception, .baseException] :=
  fun _ hd _ hb => mro_closed (c := .exception) hd hb

theorem closed_openedState : ∀ d ∈ [ExcClass.other "OpenedState", .exception, .baseException],
    ∀ b, base d = some b → b ∈ [ExcClass.other "OpenedState", .exception, .baseException] :=
  closed_cons_other _ closed_exception

/-- A plain instance of a class. -/
def ExcObject.ofClass (ident : Nat) (c : ExcClass) : ExcObject :=
  ⟨ident, mro c, true, true, fun _ hd _ hb => mro_closed hd hb⟩

/-- Who cancels a suspended coroutine: the deadline of an enclosing `wait_for`,
or whoever awaits the task. -/
inductive Canceller
  | deadline
  | caller
deriving DecidableEq

/-- What propagates: an object from outside, or one that the code creates. -/
inductive Exc
  | object (e : ExcObject)
  | cancelledError (source : Canceller)
  | timeoutError
  | importError (moduleName name : String)
  | runtimeError (message : String)
  | service (cls : ExcClass) (message : String) (info : List (String × String))

def Exc.classes : Exc → List ExcClass
  | .object e => e.classes
  | .cancelledError _ => mro .cancelledError
  | .timeoutError => mro .timeoutError
  | .importError _ _ => mro .importError
  | .runtimeError _ => mro .runtimeError
  | .service cls _ _ => mro cls

/-- `isinstance(e, (c, …))`. -/
def Exc.isInstance (e : Exc) (classes : List ExcClass) : Bool :=
  classes.any fun c => c ∈ e.classes

theorem Exc.isInstance_singleton {e : Exc} {c : ExcClass} :
    e.isInstance [c] = decide (c ∈ e.classes) := by
  simp [Exc.isInstance]

theorem Exc.closed (e : Exc) {d b : ExcClass} (hd : d ∈ e.classes) (hb : base d = some b) :
    b ∈ e.classes := by
  cases e with
  | object e => exact e.closed d hd b hb
  | cancelledError _ => exact mro_closed hd hb
  | timeoutError => exact mro_closed hd hb
  | importError _ _ => exact mro_closed hd hb
  | runtimeError _ => exact mro_closed hd hb
  | service _ _ _ => exact mro_closed hd hb

theorem Exc.isInstance_base {e : Exc} {c b : ExcClass} (hb : base c = some b)
    (h : e.isInstance [c] = true) : e.isInstance [b] = true := by
  rw [Exc.isInstance_singleton, decide_eq_true_eq] at h ⊢
  exact e.closed h hb

def Exc.statusCode : Exc → Option Nat
  | .service cls _ _ => Classes.statusCode cls
  | _ => none

/-! ## Modules -/

structure PyModule where
  name : String
  bindings : List (String × ExcClass)

def httpExceptions : PyModule :=
  ⟨"backend.core.exceptions.http_exceptions",
    [("HTTPException", .httpException),
      ("ServiceException", .serviceException),
      ("RequestError", .requestError),
      ("AuthenticationFailedError", .authenticationFailedError),
      ("PermissionDeniedError", .permissionDeniedError),
      ("NotFoundError", .notFoundError),
      ("MethodNotAllowedError", .methodNotAllowedError),
      ("RequestTimeoutError", .requestTimeoutError),
      ("ConflictError", .conflictError),
      ("ValidationError", .validationError),
      ("RateLimitExceededError", .rateLimitExceededError),
      ("InternalServerError", .internalServerError),
      ("BadGatewayError", .badGatewayError),
      ("ServiceUnavailableError", .serviceUnavailableError)]⟩

def dbExceptions : PyModule :=
  ⟨"backend.core.exceptions.db_exceptions",
    [("InternalServerError", .internalServerError),
      ("RequestTimeoutError", .requestTimeoutError),
      ("ServiceUnavailableError", .serviceUnavailableError),
      ("DatabaseError", .databaseError),
      ("DatabaseConnectionError", .databaseConnectionError),
      ("DatabaseTimeoutError", .databaseTimeoutError),
      ("DatabaseDisconnectionError", .databaseDisconnectionError),
      ("DatabaseInterfaceError", .databaseInterfaceError),
      ("DatabaseOperationalError", .databaseOperationalError),
      ("DatabaseDBAPIError", .databaseDbapiError),
      ("DatabaseCircuitBreakerOpenError", .databaseCircuitBreakerOpenError)]⟩

def importFrom (m : PyModule) (name : String) : Except Exc ExcClass :=
  match m.bindings.lookup name with
  | some c => .ok c
  | none => .error (.importError m.name name)

end BackendProdReady.Exceptions.Classes
