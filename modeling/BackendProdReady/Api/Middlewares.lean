import BackendProdReady.Api.AdmissionControl
import BackendProdReady.Exceptions.Classes
import BackendProdReady.Lib.HttpHeaders
import Mathlib.Data.Rat.Defs

/-!
# The middlewares of the application

An application answers a request with a response or raises.  A middleware wraps
one application into another: the ids, the timeout and the admission control of
`core/api/middleware`, each as its `dispatch` for one request.
-/

namespace BackendProdReady.Api.Middlewares

open BackendProdReady.Lib
open BackendProdReady.Lib.HttpHeaders
open BackendProdReady.Exceptions.Classes

/-! ## Requests and responses -/

structure Request where
  path : String
  headers : Headers
  /-- `request.state.request_id`. -/
  requestId : Option String

inductive Content
  | body (text : String)
  | atCapacity (detail : String) (retryAfter : Nat)
  | failure (code message : String) (timeoutSeconds : Rat) (suggestion : String)

structure Response where
  statusCode : Nat
  headers : Headers
  content : Content

abbrev App := Request → Except Exc Response

abbrev Middleware := App → App

/-- `JSONResponse`; the `content-length` it adds is left out. -/
def jsonResponse (statusCode : Nat) (content : Content) (headers : List (String × String)) :
    Response where
  statusCode := statusCode
  headers := headers.map (fun header => (lower header.1, header.2)) ++
    [("content-type", "application/json")]
  content := content

/-! ## `RequestIdMiddleware` -/

/-- `request.headers.get("X-Request-ID") or str(uuid.uuid4())`. -/
def requestIdOf (uuid4 : String) (request : Request) : String :=
  match request.headers.get "X-Request-ID" with
  | none | some "" => uuid4
  | some requestId => requestId

def requestIdMiddleware (uuid4 : String) : Middleware := fun callNext request =>
  let requestId := requestIdOf uuid4 request
  (callNext { request with requestId := some requestId }).map fun response =>
    { response with headers := response.headers.set "X-Request-ID" requestId }

/-! ## `RequestTimeoutMiddleware` -/

namespace RequestTimeout

def exemptPaths : List String := ["/health", "/ready", "/live", "/metrics"]

def isExempt (path : String) : Bool :=
  let cleanPath := Text.rstripChar '/' path
  exemptPaths.any fun exempt => Text.endsWith cleanPath exempt

/-- `timeout or SETTINGS.TIMEOUTS.REQUEST_TIMEOUT`. -/
def init (timeout : Option Rat) (requestTimeout : Rat) : Rat :=
  match timeout with
  | none => requestTimeout
  | some timeout => if timeout = 0 then requestTimeout else timeout

def timedOut (timeout : Rat) : Response :=
  jsonResponse 504
    (.failure "REQUEST_TIMEOUT" "Request timed out. Please try again." timeout
      ("The server took too long to respond. " ++
        "Try again or reduce the complexity of your request."))
    [("Retry-After", "5")]

/-- `asyncio.wait_for`: the cancellation of its own timer comes out as `TimeoutError`. -/
def waitFor (outcome : Except Exc Response) : Except Exc Response :=
  match outcome with
  | .error (.cancelledError .deadline) => .error .timeoutError
  | _ => outcome

end RequestTimeout

/-- A `CancelledError` of another source is raised again. -/
def requestTimeoutMiddleware (timeout : Rat) : Middleware := fun callNext request =>
  if RequestTimeout.isExempt request.path then callNext request
  else
    match RequestTimeout.waitFor (callNext request) with
    | .ok response => .ok response
    | .error e =>
        if e.isInstance [.timeoutError] then .ok (RequestTimeout.timedOut timeout) else .error e

/-! ## `AdmissionControlMiddleware` -/

def capacityResponse (response : AdmissionControl.JSONResponse) : Response :=
  jsonResponse response.statusCode (.atCapacity response.detail response.retryAfter)
    response.headers

/-- `dispatch` from the state in which the request arrives.  What it answers does
not depend on the release of its permit. -/
def admissionControlMiddleware (m : AdmissionControl.AdmissionControlMiddleware)
    (arrival : Nat) : Middleware := fun callNext request =>
  match (AdmissionControl.dispatch m arrival request.path).2 with
  | .answered (.rejected response) => .ok (capacityResponse response)
  | _ => callNext request

end BackendProdReady.Api.Middlewares
