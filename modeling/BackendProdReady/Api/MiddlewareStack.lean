import BackendProdReady.Api.Middlewares

/-!
# The middleware stack

`add_middleware` puts a middleware in front of those added before it, so the one
added last is the outermost.  The stack of `_configure_middleware` is therefore
admission control around the timeout around the request ids around CORS, and the
two answers that are made outside the request ids carry none.
-/

namespace BackendProdReady.Api.MiddlewareStack

open BackendProdReady.Lib.HttpHeaders
open BackendProdReady.Exceptions.Classes
open BackendProdReady.Api.Middlewares

/-! ## Starlette's stack -/

/-- The list `user_middleware`, outermost first. -/
structure Application where
  userMiddleware : List Middleware

namespace Application

/-- `self.user_middleware.insert(0, …)`. -/
def addMiddleware (application : Application) (middleware : Middleware) : Application :=
  ⟨middleware :: application.userMiddleware⟩

/-- `for cls in reversed(middleware): app = cls(app)`. -/
def buildMiddlewareStack (application : Application) (app : App) : App :=
  application.userMiddleware.foldr (fun middleware inner => middleware inner) app

@[simp] theorem buildMiddlewareStack_addMiddleware (application : Application)
    (middleware : Middleware) (app : App) :
    (application.addMiddleware middleware).buildMiddlewareStack app =
      middleware (application.buildMiddlewareStack app) := rfl

end Application

/-! ## `_configure_middleware` -/

/-- `CORSMiddleware` with the configured origins. -/
structure CorsMiddleware where
  wrap : Middleware
  allowsOrigin : String → Bool

structure Serving where
  cors : CorsMiddleware
  uuid4 : String
  timeout : Rat
  admission : AdmissionControl.AdmissionControlMiddleware
  arrival : Nat

def configureMiddleware (serving : Serving) (application : Application) : Application :=
  let application := application.addMiddleware serving.cors.wrap
  let application := application.addMiddleware (requestIdMiddleware serving.uuid4)
  let application := application.addMiddleware (requestTimeoutMiddleware serving.timeout)
  application.addMiddleware (admissionControlMiddleware serving.admission serving.arrival)

def serve (serving : Serving) (app : App) : App :=
  (configureMiddleware serving ⟨[]⟩).buildMiddlewareStack app

theorem serve_eq (serving : Serving) (app : App) :
    serve serving app =
      admissionControlMiddleware serving.admission serving.arrival
        (requestTimeoutMiddleware serving.timeout
          (requestIdMiddleware serving.uuid4 (serving.cors.wrap app))) := by
  simp only [serve, configureMiddleware, Application.buildMiddlewareStack_addMiddleware]
  simp only [Application.buildMiddlewareStack, List.foldr_nil]

/-! ## Correlated and readable responses -/

/-- The response carries an id, the request's own if it sent one. -/
def Correlated (request : Request) (response : Response) : Prop :=
  ∃ requestId, response.headers.get "X-Request-ID" = some requestId ∧
    ∀ own, request.headers.get "X-Request-ID" = some own → own ≠ "" → requestId = own

/-- What a browser asks of a response to a request with credentials. -/
def corsHeaders : List String :=
  ["Access-Control-Allow-Origin", "Access-Control-Allow-Credentials"]

def FromAllowedOrigin (cors : CorsMiddleware) (request : Request) : Prop :=
  ∃ origin, request.headers.get "Origin" = some origin ∧ cors.allowsOrigin origin = true

def CorsReadable (cors : CorsMiddleware) (request : Request) (response : Response) : Prop :=
  FromAllowedOrigin cors request →
    ∀ name ∈ corsHeaders, (response.headers.get name).isSome = true

/-- Every response that comes through `CORSMiddleware` is readable. -/
def AddsHeaders (cors : CorsMiddleware) : Prop :=
  ∀ app request response, cors.wrap app request = .ok response →
    CorsReadable cors request response

/-- The claim about one outcome; an exception is no response of this stack. -/
def Holds (cors : CorsMiddleware) (request : Request) (outcome : Except Exc Response) : Prop :=
  ∀ response, outcome = .ok response →
    Correlated request response ∧ CorsReadable cors request response

/-! ## The condition -/

def Rejected (serving : Serving) (request : Request) : Prop :=
  AdmissionControl.isExempt request.path = false ∧
    (AdmissionControl.getSemaphore serving.admission).locked = true

/-- What CORS and the routes do with the request once it has its id. -/
def inside (serving : Serving) (app : App) (request : Request) : Except Exc Response :=
  serving.cors.wrap app
    { request with requestId := some (requestIdOf serving.uuid4 request) }

/-- Ended by the timer, or in a `TimeoutError` of its own. -/
def CutShort (outcome : Except Exc Response) : Prop :=
  ∃ e, outcome = .error e ∧ (e = .cancelledError .deadline ∨ e.isInstance [.timeoutError] = true)

def TimedOut (serving : Serving) (app : App) (request : Request) : Prop :=
  RequestTimeout.isExempt request.path = false ∧ CutShort (inside serving app request)

/-! ## Each middleware -/

section Layers

variable {serving : Serving} {callNext : App} {request : Request}

theorem admission_rejected (h : Rejected serving request) :
    admissionControlMiddleware serving.admission serving.arrival callNext request =
      .ok (capacityResponse AdmissionControl.atCapacity) := by
  obtain ⟨hexempt, hlocked⟩ := h
  unfold admissionControlMiddleware AdmissionControl.dispatch
  simp [hexempt, hlocked]

theorem admission_passes (h : ¬ Rejected serving request) :
    admissionControlMiddleware serving.admission serving.arrival callNext request =
      callNext request := by
  unfold admissionControlMiddleware AdmissionControl.dispatch
  cases hexempt : AdmissionControl.isExempt request.path with
  | true => rfl
  | false =>
      have hfree : (AdmissionControl.getSemaphore serving.admission).locked = false := by
        simpa [Rejected, hexempt] using h
      simp [hfree, AdmissionControl.Semaphore.acquire_of_not_locked hfree,
        AdmissionControl.enter]

theorem timeout_answers {timeout : Rat} (hexempt : RequestTimeout.isExempt request.path = false)
    (h : CutShort (callNext request)) :
    requestTimeoutMiddleware timeout callNext request = .ok (RequestTimeout.timedOut timeout) := by
  have htimeout : Exc.isInstance .timeoutError [.timeoutError] = true := by decide
  obtain ⟨e, he, rfl | hinstance⟩ := h
  · simp [requestTimeoutMiddleware, hexempt, he, RequestTimeout.waitFor, htimeout]
  · have hwait : RequestTimeout.waitFor (.error e) = .error .timeoutError ∨
        RequestTimeout.waitFor (.error e) = .error e := by
      unfold RequestTimeout.waitFor
      split
      · exact .inl rfl
      · exact .inr rfl
    rcases hwait with hwait | hwait
    · simp [requestTimeoutMiddleware, hexempt, he, hwait, htimeout]
    · simp [requestTimeoutMiddleware, hexempt, he, hwait, hinstance]

theorem timeout_passes {timeout : Rat}
    (h : ¬ (RequestTimeout.isExempt request.path = false ∧ CutShort (callNext request))) :
    requestTimeoutMiddleware timeout callNext request = callNext request := by
  unfold requestTimeoutMiddleware
  cases hexempt : RequestTimeout.isExempt request.path with
  | true => rfl
  | false =>
      cases houtcome : callNext request with
      | ok response => rfl
      | error e =>
          have hwhole : e ≠ .cancelledError .deadline ∧ e.isInstance [.timeoutError] = false := by
            simpa [hexempt, houtcome, CutShort] using h
          have hwait : RequestTimeout.waitFor (.error e) = .error e := by
            unfold RequestTimeout.waitFor
            split
            · rename_i heq
              exact absurd (Except.error.inj heq) hwhole.1
            · rfl
          simp [hwait, hwhole.2]

theorem requestId_cutShort {app : App} :
    CutShort (requestIdMiddleware serving.uuid4 (serving.cors.wrap app) request) ↔
      CutShort (inside serving app request) := by
  unfold requestIdMiddleware inside CutShort
  dsimp only
  cases serving.cors.wrap app
      { request with requestId := some (requestIdOf serving.uuid4 request) } with
  | ok response => simp [Except.map]
  | error e => simp [Except.map]

theorem requestIdOf_own {uuid4 own : String} (hown : request.headers.get "X-Request-ID" = some own)
    (hne : own ≠ "") : requestIdOf uuid4 request = own := by
  unfold requestIdOf
  split
  · rename_i hnone
    rw [hown] at hnone
    cases hnone
  · rename_i hempty
    rw [hown] at hempty
    exact absurd (Option.some.inj hempty) hne
  · rename_i heq
    rw [hown] at heq
    exact (Option.some.inj heq).symm

theorem requestId_holds {app : App} (hcors : AddsHeaders serving.cors) :
    Holds serving.cors request
      (requestIdMiddleware serving.uuid4 (serving.cors.wrap app) request) := by
  intro response hresponse
  unfold requestIdMiddleware at hresponse
  dsimp only at hresponse
  cases hinner : serving.cors.wrap app
      { request with requestId := some (requestIdOf serving.uuid4 request) } with
  | error e => simp [hinner, Except.map] at hresponse
  | ok answer =>
      rw [hinner] at hresponse
      obtain rfl := Except.ok.inj hresponse
      refine ⟨⟨_, Headers.get_set_self _ _ _, fun own hown hne => requestIdOf_own hown hne⟩, ?_⟩
      intro horigin name hname
      have hother : lower name ≠ lower "X-Request-ID" := by
        rcases List.mem_cons.mp hname with rfl | hname
        · decide
        · obtain rfl := List.mem_singleton.mp hname
          decide
      rw [Headers.get_set_of_ne hother]
      exact hcors app _ answer hinner horigin name hname

end Layers

/-! ## Main result -/

theorem not_correlated_of_none {request : Request} {response : Response}
    (h : response.headers.get "X-Request-ID" = none) : ¬ Correlated request response := by
  rintro ⟨requestId, hget, -⟩
  rw [h] at hget
  cases hget

/-- The stack answers with a correlated and readable response exactly when neither
admission control nor the timeout answers in its place. -/
theorem holds_iff {serving : Serving} (hcors : AddsHeaders serving.cors) (app : App)
    (request : Request) :
    Holds serving.cors request (serve serving app request) ↔
      ¬ Rejected serving request ∧ ¬ TimedOut serving app request := by
  rw [serve_eq]
  by_cases hrejected : Rejected serving request
  · rw [admission_rejected hrejected]
    simp only [hrejected, not_true_eq_false, false_and, iff_false]
    intro hholds
    exact not_correlated_of_none (by decide) (hholds _ rfl).1
  rw [admission_passes hrejected]
  by_cases htimedOut : TimedOut serving app request
  · obtain ⟨hexempt, hcut⟩ := htimedOut
    rw [timeout_answers hexempt (requestId_cutShort.mpr hcut)]
    simp only [TimedOut, hexempt, hcut, and_self, not_true_eq_false, and_false, iff_false]
    intro hholds
    exact not_correlated_of_none rfl (hholds _ rfl).1
  · have hpasses : ¬ (RequestTimeout.isExempt request.path = false ∧
        CutShort (requestIdMiddleware serving.uuid4 (serving.cors.wrap app) request)) := by
      rwa [requestId_cutShort]
    rw [timeout_passes hpasses]
    simp only [hrejected, htimedOut, not_false_eq_true, and_self, iff_true]
    exact requestId_holds hcors

/-! ## One request -/

/-- One allowed origin, reflected with credentials. -/
def sampleCors : CorsMiddleware where
  wrap app request := (app request).map fun response =>
    if request.headers.get "Origin" = some "http://localhost:3000" then
      { response with
        headers := (response.headers.set "Access-Control-Allow-Credentials" "true").set
          "Access-Control-Allow-Origin" "http://localhost:3000" }
    else response
  allowsOrigin origin := origin == "http://localhost:3000"

theorem sampleCors_addsHeaders : AddsHeaders sampleCors := by
  intro app request response hresponse horigin
  obtain ⟨origin, hget, hallowed⟩ := horigin
  obtain rfl : origin = "http://localhost:3000" := by simpa [sampleCors] using hallowed
  cases hinner : app request with
  | error e => simp [sampleCors, hinner, Except.map] at hresponse
  | ok answer =>
      simp only [sampleCors, hinner, Except.map, hget, if_true, Except.ok.injEq] at hresponse
      obtain rfl := hresponse
      have hother : lower "Access-Control-Allow-Credentials" ≠
          lower "Access-Control-Allow-Origin" := by decide
      simp [corsHeaders, Headers.get_set_of_ne hother]

def sampleRequest : Request :=
  ⟨"/api/v1/items", [("x-request-id", "req-1"), ("origin", "http://localhost:3000")], none⟩

/-- One permit, and nobody holds it. -/
def freeServing : Serving :=
  ⟨sampleCors, "7f1a", RequestTimeout.init none 30, AdmissionControl.init (some 1) 100, 0⟩

def busyServing : Serving :=
  { freeServing with
    admission := (AdmissionControl.dispatch (AdmissionControl.init (some 1) 100) 0
      "/api/v1/items").1
    arrival := 1 }

def answering : App := fun _ => .ok ⟨200, [], .body "ok"⟩

/-- The handler is still running when the timer fires. -/
def stuck : App := fun _ => .error (.cancelledError .deadline)

theorem holds_iff_answering :
    Holds sampleCors sampleRequest (serve freeServing answering sampleRequest) := by
  refine (holds_iff sampleCors_addsHeaders answering sampleRequest).mpr ⟨?_, ?_⟩
  · rintro ⟨-, hlocked⟩
    exact absurd hlocked (by decide)
  · rintro ⟨-, e, herror, -⟩
    cases herror

/-- The 503 and the 504 of one and the same request carry neither its id nor the
CORS headers. -/
theorem capacity_and_timeout_uncorrelated :
    sampleRequest.headers.get "X-Request-ID" = some "req-1" ∧
      FromAllowedOrigin sampleCors sampleRequest ∧
      (∃ response, serve busyServing answering sampleRequest = .ok response ∧
        response.statusCode = 503 ∧ response.headers.get "X-Request-ID" = none ∧
        response.headers.get "Access-Control-Allow-Origin" = none) ∧
      (∃ response, serve freeServing stuck sampleRequest = .ok response ∧
        response.statusCode = 504 ∧ response.headers.get "X-Request-ID" = none ∧
        response.headers.get "Access-Control-Allow-Origin" = none) ∧
      ¬ Holds sampleCors sampleRequest (serve busyServing answering sampleRequest) ∧
      ¬ Holds sampleCors sampleRequest (serve freeServing stuck sampleRequest) := by
  have hbusy : serve busyServing answering sampleRequest =
      .ok (capacityResponse AdmissionControl.atCapacity) := by
    rw [serve_eq, admission_rejected ⟨by decide, by decide⟩]
  have hstuck : serve freeServing stuck sampleRequest = .ok (RequestTimeout.timedOut 30) := by
    have hfree : ¬ Rejected freeServing sampleRequest := by
      rintro ⟨-, hlocked⟩
      exact absurd hlocked (by decide)
    rw [serve_eq, admission_passes hfree]
    exact timeout_answers (by decide) (requestId_cutShort.mpr ⟨_, rfl, .inl rfl⟩)
  rw [hbusy, hstuck]
  exact ⟨by decide, ⟨_, rfl, by decide⟩, ⟨_, rfl, rfl, by decide, by decide⟩,
    ⟨_, rfl, rfl, rfl, rfl⟩,
    fun h => not_correlated_of_none (by decide) (h _ rfl).1,
    fun h => not_correlated_of_none rfl (h _ rfl).1⟩

end BackendProdReady.Api.MiddlewareStack
