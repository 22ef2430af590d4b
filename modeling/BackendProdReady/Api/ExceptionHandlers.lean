import BackendProdReady.Api.Middlewares
import BackendProdReady.Lib.InsertionDict

/-!
# Exception handlers

A service exception that a route raises is answered by the handler registered
for the first class of its MRO that has one.  `_configure_exception_handlers`
registers `ServiceException` but none of its subclasses, so the handler that adds
`Retry-After` to a 503 is never chosen.
-/

namespace BackendProdReady.Api.ExceptionHandlers

open BackendProdReady.Lib.InsertionDict
open BackendProdReady.Lib.HttpHeaders
open BackendProdReady.Exceptions.Classes
open BackendProdReady.Api.Middlewares (Response jsonResponse)

/-! ## Classes -/

/-- The classes of an MRO; `HTTPException` of fastapi and of starlette are one. -/
inductive PyClass
  | exc (c : ExcClass)
  | requestValidationError
  | pydanticValidationError
  | rateLimitExceeded
  | domainError
  | defined (name : String)
deriving DecidableEq

def errorCode : ExcClass → String
  | .requestError => "BAD_REQUEST"
  | .authenticationFailedError => "AUTHENTICATION_FAILED"
  | .permissionDeniedError => "PERMISSION_DENIED"
  | .notFoundError => "NOT_FOUND"
  | .methodNotAllowedError => "METHOD_NOT_ALLOWED"
  | .requestTimeoutError => "TIMEOUT"
  | .conflictError => "CONFLICT_ERROR"
  | .validationError => "VALIDATION_ERROR"
  | .rateLimitExceededError => "RATE_LIMIT_EXCEEDED"
  | .badGatewayError => "BAD_GATEWAY"
  | .serviceUnavailableError => "SERVICE_UNAVAILABLE"
  | .databaseError => "DATABASE_ERROR"
  | .databaseConnectionError => "DATABASE_CONNECTION_ERROR"
  | .databaseTimeoutError => "DATABASE_TIMEOUT_ERROR"
  | .databaseDisconnectionError => "DATABASE_DISCONNECTION_ERROR"
  | .databaseInterfaceError => "DATABASE_INTERFACE_ERROR"
  | .databaseOperationalError => "DATABASE_OPERATIONAL_ERROR"
  | .databaseDbapiError => "DATABASE_DBAPI_ERROR"
  | .databaseCircuitBreakerOpenError => "DATABASE_CIRCUIT_BREAKER_OPEN"
  | _ => "INTERNAL_SERVER_ERROR"

structure ServiceClass where
  mro : List PyClass
  message : String
  code : String
  statusCode : Nat

def ServiceClass.ofClass (c : ExcClass) : ServiceClass where
  mro := (Exceptions.Classes.mro c).map .exc
  message := defaultMessage c
  code := errorCode c
  statusCode := (Exceptions.Classes.statusCode c).getD 500

/-- A class statement with one base; `none` where it binds no attribute. -/
structure ClassBody where
  name : String
  message : Option String
  code : Option String
  statusCode : Option Nat

def ServiceClass.derive (parent : ServiceClass) (body : ClassBody) : ServiceClass where
  mro := .defined body.name :: parent.mro
  message := body.message.getD parent.message
  code := body.code.getD parent.code
  statusCode := body.statusCode.getD parent.statusCode

inductive UnavailableClass
  | serviceUnavailableError
  | databaseDisconnectionError
  | databaseCircuitBreakerOpenError
  | derived (parent : UnavailableClass) (body : ClassBody)

def UnavailableClass.attributes : UnavailableClass → ServiceClass
  | .serviceUnavailableError => .ofClass .serviceUnavailableError
  | .databaseDisconnectionError => .ofClass .databaseDisconnectionError
  | .databaseCircuitBreakerOpenError => .ofClass .databaseCircuitBreakerOpenError
  | .derived parent body => parent.attributes.derive body

/-! ## Exceptions -/

/-- An instance; `errors` is `payload["errors"]`. -/
structure ServiceException (V : Type) where
  cls : ServiceClass
  message : String
  code : String
  statusCode : Nat
  metadata : Dict String V
  errors : Option V

structure Arguments (V : Type) where
  message : Option String
  code : Option String
  errors : Option V
  statusCode : Option Nat
  metadata : Option (Dict String V)

structure ErrorContent (V : Type) where
  code : String
  message : String
  context : Dict String V

section Source

-- `truth` and `str` are Python's on the values of `meta`; `render` is the JSON text
-- of a response body, `none` where a value cannot be encoded.
variable {V : Type} (truth : V → Bool) (str : V → String)
  (render : ErrorContent V → Option String)

/-- `ServiceException.__init__`; an argument that is false in a boolean context
leaves the class attribute. -/
def ServiceException.init (cls : ServiceClass) (arguments : Arguments V) :
    ServiceException V where
  cls := cls
  message := (arguments.message.filter (· ≠ "")).getD cls.message
  code := (arguments.code.filter (· ≠ "")).getD cls.code
  statusCode := (arguments.statusCode.filter (· ≠ 0)).getD cls.statusCode
  metadata := arguments.metadata.getD []
  errors := arguments.errors.filter truth

def ServiceException.content (exc : ServiceException V) : ErrorContent V where
  code := exc.code
  message := exc.message
  context :=
    match exc.errors with
    | none => exc.metadata
    | some errors => Dict.assign exc.metadata "errors" errors

/-- `to_response`; `none` where rendering the body raises. -/
def ServiceException.toResponse (exc : ServiceException V) : Option Response :=
  (render exc.content).map fun text => jsonResponse exc.statusCode (.body text) []

/-! ## Handlers -/

def serviceExceptionHandler (exc : ServiceException V) : Option Response :=
  exc.toResponse render

/-- `exc.meta.get("retry_after", 60) if exc.meta else 60`, as a header value. -/
def retryAfter (exc : ServiceException V) : String :=
  match Dict.find exc.metadata "retry_after" with
  | some value => str value
  | none => "60"

def serviceUnavailableException (exc : ServiceException V) : Option Response :=
  (exc.toResponse render).map fun response =>
    { response with headers := response.headers.set "Retry-After" (retryAfter str exc) }

inductive Handler
  | validationException
  | rateLimitExceeded
  | serviceException
  | httpException
  | domainException
  | unhandledException
deriving DecidableEq

/-- The handlers after `_configure_exception_handlers`. -/
def exceptionHandlers : List (PyClass × Handler) :=
  [(.requestValidationError, .validationException),
    (.pydanticValidationError, .validationException),
    (.rateLimitExceeded, .rateLimitExceeded),
    (.exc .serviceException, .serviceException),
    (.exc .httpException, .httpException),
    (.domainError, .domainException),
    (.exc .exception, .unhandledException)]

def lookupHandler (classes : List PyClass) : Option Handler :=
  classes.findSome? fun c => exceptionHandlers.lookup c

/-- The response to an exception that a route raises.  The handlers of other
exceptions are a parameter. -/
def respond (others : Handler → Option Response) (exc : ServiceException V) :
    Option Response :=
  match lookupHandler exc.cls.mro with
  | some .serviceException => serviceExceptionHandler render exc
  | some handler => others handler
  | none => none

def TellsWhenToRetry (exc : ServiceException V) (response : Option Response) : Prop :=
  ∃ r, response = some r ∧ r.statusCode = 503 ∧
    r.headers.get "Retry-After" = some (retryAfter str exc)

end Source

/-! ## The handler of a 503 -/

section Results

variable {V : Type} {str : V → String} {render : ErrorContent V → Option String}

theorem lookupHandler_unavailable (cls : UnavailableClass) :
    lookupHandler cls.attributes.mro = some .serviceException := by
  induction cls with
  | derived parent body ih => exact ih
  | _ => decide

theorem toResponse_retryAfter {exc : ServiceException V} {response : Response}
    (h : exc.toResponse render = some response) :
    response.headers.get "Retry-After" = none := by
  obtain ⟨text, -, rfl⟩ := Option.map_eq_some_iff.mp h
  rfl

/-- The handler that is not registered says when to retry. -/
theorem serviceUnavailableException_tells {exc : ServiceException V}
    (hstatus : exc.statusCode = 503) {text : String} (hrender : render exc.content = some text) :
    TellsWhenToRetry str exc (serviceUnavailableException str render exc) := by
  refine ⟨_, by rw [serviceUnavailableException, ServiceException.toResponse, hrender]; rfl,
    hstatus, ?_⟩
  exact Headers.get_set_self _ _ _

/-- No 503 that a route raises as a service exception says when to retry. -/
theorem never_tells_when_to_retry (truth : V → Bool) (str : V → String)
    (render : ErrorContent V → Option String) (others : Handler → Option Response)
    (cls : UnavailableClass) (arguments : Arguments V) :
    ¬ TellsWhenToRetry str (.init truth cls.attributes arguments)
      (respond render others (.init truth cls.attributes arguments)) := by
  rintro ⟨response, hresponse, -, hheader⟩
  have hlookup : lookupHandler
      (ServiceException.init truth cls.attributes arguments).cls.mro = some .serviceException :=
    lookupHandler_unavailable cls
  rw [respond, hlookup] at hresponse
  rw [toResponse_retryAfter hresponse] at hheader
  cases hheader

end Results

/-- Bodies without a context. -/
def renderPlain (content : ErrorContent Nat) : Option String :=
  if content.context = [] then
    some ("\x7b\"success\":false,\"error\":\x7b\"code\":\"" ++ content.code ++
      "\",\"message\":\"" ++ content.message ++ "\"\x7d\x7d")
  else none

/-- `raise DatabaseDisconnectionError()`. -/
def disconnected : ServiceException Nat :=
  .init (· ≠ 0) (UnavailableClass.attributes .databaseDisconnectionError)
    ⟨none, none, none, none, none⟩

/-- The response to a lost database connection has no `Retry-After`. -/
theorem disconnection_without_retry_after :
    ∃ response, respond renderPlain (fun _ => none) disconnected = some response ∧
      response.statusCode = 503 ∧
      response.headers = [("content-type", "application/json")] ∧
      retryAfter toString disconnected = "60" ∧
      ¬ TellsWhenToRetry toString disconnected (some response) := by
  refine ⟨_, rfl, rfl, rfl, rfl, ?_⟩
  rintro ⟨response, hresponse, -, hheader⟩
  obtain rfl := Option.some.inj hresponse
  cases hheader

end BackendProdReady.Api.ExceptionHandlers
