import BackendProdReady.Lib.Runs
import BackendProdReady.Lib.Text
import Mathlib.Tactic.Common

/-!
# The admission control middleware

`AdmissionControlMiddleware.dispatch` limits the requests in flight with an
`asyncio.Semaphore`.  A coroutine runs without interruption from one suspension
to the next, so the system has one step per segment: a request arrives and runs
to its first suspension or its answer, its downstream call ends, or a suspended
`acquire` resumes or is cancelled.  Requests are numbered in arrival order.
-/

namespace BackendProdReady.Api.AdmissionControl

open BackendProdReady.Lib.Runs
open BackendProdReady.Lib

/-! ## `asyncio.Semaphore` -/

/-- A request whose `acquire()` is suspended; `woken` once its future has a result. -/
structure Waiter where
  request : Nat
  woken : Bool
deriving DecidableEq

structure Semaphore where
  value : Int
  waiters : List Waiter
deriving DecidableEq

namespace Semaphore

def new (value : Nat) : Semaphore := ⟨value, []⟩

def locked (sem : Semaphore) : Bool :=
  sem.value == 0 || !sem.waiters.isEmpty

/-- The state `acquire()` leaves, and whether it returned without suspending. -/
def acquire (sem : Semaphore) (request : Nat) : Semaphore × Bool :=
  if sem.locked then
    ({ sem with waiters := sem.waiters ++ [⟨request, false⟩] }, false)
  else
    ({ sem with value := sem.value - 1 }, true)

def wakeFirst : List Waiter → Option (List Waiter)
  | [] => none
  | w :: ws =>
      if w.woken then (wakeFirst ws).map (w :: ·)
      else some ({ w with woken := true } :: ws)

def wakeUpNext (sem : Semaphore) : Semaphore :=
  match wakeFirst sem.waiters with
  | none => sem
  | some ws => ⟨sem.value - 1, ws⟩

def release (sem : Semaphore) : Semaphore :=
  { sem with value := sem.value + 1 }.wakeUpNext

/-- The rest of a suspended `acquire()` once its future has a result. -/
def resume (sem : Semaphore) (request : Nat) : Semaphore :=
  let sem := { sem with waiters := sem.waiters.filter (·.request != request) }
  if sem.value > 0 then sem.wakeUpNext else sem

/-- A suspended `acquire()` is cancelled; a permit it was already handed goes back. -/
def cancel (sem : Semaphore) (request : Nat) : Semaphore :=
  let handed := sem.waiters.any fun w => w.request == request && w.woken
  let sem := { sem with waiters := sem.waiters.filter (·.request != request) }
  if handed then sem.release else sem

theorem acquire_of_not_locked {sem : Semaphore} (h : sem.locked = false) (request : Nat) :
    sem.acquire request = ({ sem with value := sem.value - 1 }, true) := by
  simp [acquire, h]

theorem locked_of_no_waiters {sem : Semaphore} (h : sem.waiters = []) :
    sem.locked = decide (sem.value = 0) := by
  simp [locked, h, beq_eq_decide]

theorem release_of_no_waiters {sem : Semaphore} (h : sem.waiters = []) :
    sem.release = { sem with value := sem.value + 1 } := by
  simp [release, wakeUpNext, wakeFirst, h]

end Semaphore

/-! ## The middleware -/

structure JSONResponse where
  statusCode : Nat
  detail : String
  retryAfter : Nat
  headers : List (String × String)
deriving DecidableEq

structure AdmissionControlMiddleware where
  maxConcurrent : Nat
  /-- Created by the first request that needs it. -/
  semaphore : Option Semaphore
  currentRequests : Int
  totalRejected : Nat
deriving DecidableEq

def exemptPaths : List String := ["/health", "/ready", "/live", "/metrics"]

/-- `max_concurrent or SETTINGS.APP.MAX_CONCURRENT_REQUESTS`. -/
def init (maxConcurrent : Option Nat) (maxConcurrentRequests : Nat) :
    AdmissionControlMiddleware where
  maxConcurrent :=
    match maxConcurrent with
    | none | some 0 => maxConcurrentRequests
    | some n => n
  semaphore := none
  currentRequests := 0
  totalRejected := 0

def getSemaphore (m : AdmissionControlMiddleware) : Semaphore :=
  m.semaphore.getD (.new m.maxConcurrent)

def isExempt (path : String) : Bool :=
  let cleanPath := Text.rstripChar '/' path
  exemptPaths.any fun exempt => Text.endsWith cleanPath exempt

def atCapacity : JSONResponse where
  statusCode := 503
  detail := "Service temporarily unavailable - server at capacity"
  retryAfter := 5
  headers := [("Retry-After", "5")]

inductive Downstream
  | response
  | raised
  | cancelled
deriving DecidableEq

inductive Answer
  | passedOn (outcome : Downstream)
  | rejected (response : JSONResponse)
  /-- Cancelled while suspended in `acquire()`. -/
  | cancelledWaiting
deriving DecidableEq

/-- Where the coroutine of one request stands. -/
inductive Request
  | acquiring
  | downstream (exempt : Bool)
  | answered (answer : Answer)
deriving DecidableEq

/-- After `acquire()` has returned: count the request and call downstream. -/
def enter (m : AdmissionControlMiddleware) : AdmissionControlMiddleware × Request :=
  ({ m with currentRequests := m.currentRequests + 1 }, .downstream false)

/-- `dispatch` from its start to its first suspension or its return. -/
def dispatch (m : AdmissionControlMiddleware) (request : Nat) (path : String) :
    AdmissionControlMiddleware × Request :=
  if isExempt path then (m, .downstream true)
  else
    let semaphore := getSemaphore m
    if semaphore.locked then
      ({ m with semaphore := some semaphore, totalRejected := m.totalRejected + 1 },
        .answered (.rejected atCapacity))
    else
      let acquired := semaphore.acquire request
      let m := { m with semaphore := some acquired.1 }
      if acquired.2 then enter m else (m, .acquiring)

/-- The `finally` block of `dispatch`. -/
def leave (m : AdmissionControlMiddleware) : AdmissionControlMiddleware :=
  { m with
    currentRequests := m.currentRequests - 1
    semaphore := m.semaphore.map Semaphore.release }

/-! ## The event loop -/

structure World where
  mw : AdmissionControlMiddleware
  requests : List Request
deriving DecidableEq

inductive Event
  | arrive (path : String)
  | finish (i : Nat) (outcome : Downstream)
  | resumeAcquire (i : Nat)
  | cancelAcquire (i : Nat)
deriving DecidableEq

def start (maxConcurrent : Option Nat) (maxConcurrentRequests : Nat) : World :=
  ⟨init maxConcurrent maxConcurrentRequests, []⟩

def step (w : World) : Event → Option World
  | .arrive path =>
      let segment := dispatch w.mw w.requests.length path
      some ⟨segment.1, w.requests ++ [segment.2]⟩
  | .finish i outcome =>
      match w.requests[i]? with
      | some (.downstream exempt) =>
          some ⟨if exempt then w.mw else leave w.mw,
            w.requests.set i (.answered (.passedOn outcome))⟩
      | _ => none
  | .resumeAcquire i =>
      match w.requests[i]?, w.mw.semaphore with
      | some .acquiring, some sem =>
          if sem.waiters.any fun wt => wt.request == i && wt.woken then
            let segment := enter { w.mw with semaphore := some (sem.resume i) }
            some ⟨segment.1, w.requests.set i segment.2⟩
          else none
      | _, _ => none
  | .cancelAcquire i =>
      match w.requests[i]?, w.mw.semaphore with
      | some .acquiring, some sem =>
          some ⟨{ w.mw with semaphore := some (sem.cancel i) },
            w.requests.set i (.answered .cancelledWaiting)⟩
      | _, _ => none

def Step (w : World) (e : Event) (w' : World) : Prop := step w e = some w'

def Request.isAdmitted : Request → Bool
  | .downstream exempt => !exempt
  | _ => false

def Request.isRejected : Request → Bool
  | .answered (.rejected response) => response.statusCode == 503
  | _ => false

def inFlight (w : World) : Nat := w.requests.countP Request.isAdmitted

def rejectedAnswers (w : World) : Nat := w.requests.countP Request.isRejected

def permitsLeft (w : World) : Int := (getSemaphore w.mw).value

/-! ## What every run preserves -/

/-- The permits and the two counters agree with the requests in flight, and no
request ever waits for a permit. -/
structure Balanced (n : Nat) (w : World) : Prop where
  max : w.mw.maxConcurrent = n
  current : w.mw.currentRequests = inFlight w
  permits : permitsLeft w + inFlight w = n
  nonneg : 0 ≤ permitsLeft w
  rejected : w.mw.totalRejected = rejectedAnswers w
  noWaiters : (getSemaphore w.mw).waiters = []
  noneAcquiring : Request.acquiring ∉ w.requests

theorem balanced_start {n : Nat} (hn : 1 ≤ n) (setting : Nat) :
    Balanced n (start (some n) setting) := by
  obtain ⟨k, rfl⟩ : ∃ k, n = k + 1 := ⟨n - 1, by omega⟩
  constructor <;>
    simp [start, init, inFlight, rejectedAnswers, permitsLeft, getSemaphore, Semaphore.new]
  omega

theorem countP_set_add (p : Request → Bool) {requests : List Request} {i : Nat}
    {old : Request} (hi : requests[i]? = some old) (new : Request) :
    (requests.set i new).countP p + (if p old then 1 else 0) =
      requests.countP p + (if p new then 1 else 0) := by
  obtain ⟨hlt, hget⟩ := List.getElem?_eq_some_iff.mp hi
  have hpos : (if p old then 1 else 0) ≤ requests.countP p := by
    split_ifs with hp
    · exact List.one_le_countP_iff.mpr ⟨old, hget ▸ List.getElem_mem hlt, hp⟩
    · omega
  rw [List.countP_set hlt, hget]
  omega

theorem locked_iff {n : Nat} {w : World} (h : Balanced n w) :
    (getSemaphore w.mw).locked = true ↔ inFlight w = n := by
  have hpermits := h.permits
  rw [Semaphore.locked_of_no_waiters h.noWaiters, decide_eq_true_iff]
  change permitsLeft w = 0 ↔ _
  omega

/-- Everything an arrival can do, in a balanced state. -/
theorem arrive_cases {n : Nat} {w w' : World} {path : String} (h : Balanced n w)
    (hstep : Step w (.arrive path) w') :
    (isExempt path = true ∧
      w' = ⟨w.mw, w.requests ++ [.downstream true]⟩) ∨
    (isExempt path = false ∧ inFlight w = n ∧
      w' = ⟨{ w.mw with
                semaphore := some (getSemaphore w.mw)
                totalRejected := w.mw.totalRejected + 1 },
            w.requests ++ [.answered (.rejected atCapacity)]⟩) ∨
    (isExempt path = false ∧ inFlight w < n ∧
      w' = ⟨{ w.mw with
                semaphore := some ⟨permitsLeft w - 1, []⟩
                currentRequests := w.mw.currentRequests + 1 },
            w.requests ++ [.downstream false]⟩) := by
  have hlt : inFlight w ≠ n → inFlight w < n := by
    have hpermits := h.permits
    have hnonneg := h.nonneg
    omega
  have hw' : w' = ⟨(dispatch w.mw w.requests.length path).1,
      w.requests ++ [(dispatch w.mw w.requests.length path).2]⟩ := by
    simpa [Step, step] using hstep.symm
  have hnoWaiters := h.noWaiters
  subst hw'
  cases hexempt : isExempt path with
  | true => exact .inl ⟨rfl, by simp [dispatch, hexempt]⟩
  | false =>
      cases hlocked : (getSemaphore w.mw).locked with
      | true =>
          have hfull := (locked_iff h).mp hlocked
          exact .inr (.inl ⟨rfl, hfull, by simp [dispatch, hexempt, hlocked]⟩)
      | false =>
          have hfree : inFlight w ≠ n := fun hfull => by
            simp [(locked_iff h).mpr hfull] at hlocked
          refine .inr (.inr ⟨rfl, hlt hfree, ?_⟩)
          simp [dispatch, hexempt, hlocked, Semaphore.acquire_of_not_locked, enter,
            permitsLeft, hnoWaiters]

/-- An arriving request counts as what it becomes at once. -/
theorem inFlight_arrive (w : World) (mw : AdmissionControlMiddleware) (request : Request) :
    inFlight ⟨mw, w.requests ++ [request]⟩ =
      inFlight w + (if request.isAdmitted then 1 else 0) := by
  simp [inFlight, List.countP_append, List.countP_singleton]

theorem rejectedAnswers_arrive (w : World) (mw : AdmissionControlMiddleware)
    (request : Request) :
    rejectedAnswers ⟨mw, w.requests ++ [request]⟩ =
      rejectedAnswers w + (if request.isRejected then 1 else 0) := by
  simp [rejectedAnswers, List.countP_append, List.countP_singleton]

theorem balanced_arrive {n : Nat} {w w' : World} {path : String} (h : Balanced n w)
    (hstep : Step w (.arrive path) w') : Balanced n w' := by
  have hcurrent := h.current
  have hpermits := h.permits
  have hrejected := h.rejected
  have hnone : ∀ request, request ≠ .acquiring →
      Request.acquiring ∉ w.requests ++ [request] := by
    intro request hne hmem
    rcases List.mem_append.mp hmem with hold | hnew
    · exact h.noneAcquiring hold
    · exact hne (List.mem_singleton.mp hnew).symm
  rcases arrive_cases h hstep with ⟨-, rfl⟩ | ⟨-, -, rfl⟩ | ⟨-, hlt, rfl⟩
  · have hcount : inFlight ⟨w.mw, w.requests ++ [.downstream true]⟩ = inFlight w :=
      inFlight_arrive w _ _
    have hrefused := rejectedAnswers_arrive w w.mw (.downstream true)
    exact ⟨h.max, hcount ▸ hcurrent, hcount ▸ hpermits, h.nonneg,
      hrejected.trans hrefused.symm, h.noWaiters, hnone _ (by simp)⟩
  · refine ⟨h.max, ?_, ?_, h.nonneg, ?_, h.noWaiters, hnone _ (by simp)⟩
    · rw [inFlight_arrive]
      exact hcurrent
    · rw [inFlight_arrive]
      exact hpermits
    · rw [rejectedAnswers_arrive]
      exact congrArg (· + 1) hrejected
  · refine ⟨h.max, ?_, ?_, ?_, ?_, rfl, hnone _ (by simp)⟩
    · rw [inFlight_arrive]
      change w.mw.currentRequests + 1 = (inFlight w + 1 : Nat)
      omega
    · rw [inFlight_arrive]
      change permitsLeft w - 1 + (inFlight w + 1 : Nat) = n
      omega
    · change 0 ≤ permitsLeft w - 1
      omega
    · rw [rejectedAnswers_arrive]
      exact hrejected

theorem step_finish {w : World} {i : Nat} {exempt : Bool}
    (hi : w.requests[i]? = some (.downstream exempt)) (outcome : Downstream) :
    Step w (.finish i outcome)
      ⟨if exempt then w.mw else leave w.mw,
        w.requests.set i (.answered (.passedOn outcome))⟩ := by
  simp [Step, step, hi]

theorem finish_cases {w w' : World} {i : Nat} {outcome : Downstream}
    (hstep : Step w (.finish i outcome) w') :
    ∃ exempt, w.requests[i]? = some (.downstream exempt) ∧
      w' = ⟨if exempt then w.mw else leave w.mw,
        w.requests.set i (.answered (.passedOn outcome))⟩ := by
  simp only [Step, step] at hstep
  split at hstep
  · exact ⟨_, ‹_›, (Option.some.inj hstep).symm⟩
  · cases hstep

/-- A request in flight holds a permit of a semaphore that exists. -/
theorem semaphore_of_inFlight {n : Nat} {w : World} (h : Balanced n w) (hpos : 0 < inFlight w) :
    w.mw.semaphore = some ⟨permitsLeft w, []⟩ := by
  have hpermits := h.permits
  have hnoWaiters := h.noWaiters
  cases hsem : w.mw.semaphore with
  | none =>
      have hall : permitsLeft w = n := by
        simp [permitsLeft, getSemaphore, hsem, Semaphore.new, h.max]
      omega
  | some sem =>
      obtain ⟨value, waiters⟩ := sem
      simp_all [permitsLeft, getSemaphore]

theorem inFlight_finish {w : World} {i : Nat} {exempt : Bool}
    (hi : w.requests[i]? = some (.downstream exempt)) (mw : AdmissionControlMiddleware)
    (outcome : Downstream) :
    inFlight ⟨mw, w.requests.set i (.answered (.passedOn outcome))⟩ +
      (if exempt then 0 else 1) = inFlight w := by
  have hcount := countP_set_add Request.isAdmitted hi (.answered (.passedOn outcome))
  cases exempt <;> simpa [inFlight, Request.isAdmitted] using hcount

theorem rejectedAnswers_finish {w : World} {i : Nat} {exempt : Bool}
    (hi : w.requests[i]? = some (.downstream exempt)) (mw : AdmissionControlMiddleware)
    (outcome : Downstream) :
    rejectedAnswers ⟨mw, w.requests.set i (.answered (.passedOn outcome))⟩ =
      rejectedAnswers w := by
  have hcount := countP_set_add Request.isRejected hi (.answered (.passedOn outcome))
  simpa [rejectedAnswers, Request.isRejected] using hcount

theorem balanced_finish {n : Nat} {w w' : World} {i : Nat} {outcome : Downstream}
    (h : Balanced n w) (hstep : Step w (.finish i outcome) w') : Balanced n w' := by
  obtain ⟨exempt, hi, rfl⟩ := finish_cases hstep
  have hcount := inFlight_finish hi (if exempt then w.mw else leave w.mw) outcome
  have hrejected := rejectedAnswers_finish hi (if exempt then w.mw else leave w.mw) outcome
  have hnone : Request.acquiring ∉ w.requests.set i (.answered (.passedOn outcome)) :=
    fun hmem => by
      rcases List.mem_or_eq_of_mem_set hmem with hold | hnew
      · exact h.noneAcquiring hold
      · cases hnew
  have hcurrent := h.current
  have hpermits := h.permits
  have hnonneg := h.nonneg
  cases exempt with
  | true =>
      simp only [if_true, Nat.add_zero] at hcount hrejected
      exact ⟨h.max, hcount ▸ hcurrent, hcount ▸ hpermits, hnonneg,
        hrejected ▸ h.rejected, h.noWaiters, hnone⟩
  | false =>
      simp only [Bool.false_eq_true, if_false] at hcount hrejected ⊢
      have hsem := semaphore_of_inFlight h (by omega)
      have hleave : leave w.mw = { w.mw with
          currentRequests := w.mw.currentRequests - 1
          semaphore := some ⟨permitsLeft w + 1, []⟩ } := by
        simp [leave, hsem, Semaphore.release_of_no_waiters]
      rw [hleave] at hcount hrejected ⊢
      refine ⟨h.max, ?_, ?_, ?_, hrejected ▸ h.rejected, rfl, hnone⟩
      · change w.mw.currentRequests - 1 = _
        omega
      · change permitsLeft w + 1 + _ = _
        omega
      · change 0 ≤ permitsLeft w + 1
        omega

theorem balanced_step {n : Nat} (w : World) (e : Event) (w' : World) (h : Balanced n w)
    (hstep : Step w e w') : Balanced n w' := by
  have hnone : ∀ i, w.requests[i]? ≠ some Request.acquiring := fun i hi =>
    h.noneAcquiring (List.mem_of_getElem? hi)
  cases e with
  | arrive path => exact balanced_arrive h hstep
  | finish i outcome => exact balanced_finish h hstep
  | resumeAcquire i =>
      simp only [Step, step] at hstep
      split at hstep
      · exact absurd ‹_› (hnone i)
      · cases hstep
  | cancelAcquire i =>
      simp only [Step, step] at hstep
      split at hstep
      · exact absurd ‹_› (hnone i)
      · cases hstep

/-! ## The admission contract -/

structure ArrivalContract (n : Nat) (w : World) (path : String) (w' : World) : Prop where
  rejected_iff : isExempt path = false →
    ((∃ response, w'.requests = w.requests ++ [.answered (.rejected response)] ∧
        response.statusCode = 503 ∧ ("Retry-After", "5") ∈ response.headers) ↔
      inFlight w = n)
  passed : isExempt path = false → inFlight w ≠ n →
    w'.requests = w.requests ++ [.downstream false]
  exempt : isExempt path = true →
    w'.mw = w.mw ∧ w'.requests = w.requests ++ [.downstream true]

structure FinishContract (w : World) (i : Nat) (exempt : Bool) (outcome : Downstream)
    (w' : World) : Prop where
  answered : w'.requests = w.requests.set i (.answered (.passedOn outcome))
  exempt : exempt = true → w'.mw = w.mw

theorem arrivalContract {n : Nat} {w : World} (h : Balanced n w) (path : String) :
    ∃ w', Step w (.arrive path) w' ∧ ArrivalContract n w path w' := by
  refine ⟨_, rfl, ?_⟩
  rcases arrive_cases h rfl with ⟨hexempt, hw'⟩ | ⟨hexempt, hfull, hw'⟩ |
    ⟨hexempt, hlt, hw'⟩
  · rw [hw']
    exact ⟨by simp [hexempt], by simp [hexempt], fun _ => ⟨rfl, rfl⟩⟩
  · rw [hw']
    refine ⟨fun _ => ⟨fun _ => hfull, fun _ => ⟨atCapacity, rfl, rfl, ?_⟩⟩,
      fun _ hne => absurd hfull hne, by simp [hexempt]⟩
    exact List.mem_singleton_self _
  · rw [hw']
    refine ⟨fun _ => ⟨?_, fun hfull => by omega⟩, fun _ _ => rfl, by simp [hexempt]⟩
    rintro ⟨response, heq, -⟩
    simp at heq

/-- Admission control over every interleaving of arrivals, ends, failures and
cancellations of downstream calls. -/
theorem admission_control {n : Nat} (hn : 1 ≤ n) (setting : Nat) {es : List Event} {w : World}
    (hrun : Run Step (start (some n) setting) es w) :
    w.mw.currentRequests = inFlight w ∧
    inFlight w ≤ n ∧
    permitsLeft w + w.mw.currentRequests = n ∧
    w.mw.totalRejected = rejectedAnswers w ∧
    Request.acquiring ∉ w.requests ∧
    (∀ path, ∃ w', Step w (.arrive path) w' ∧ ArrivalContract n w path w') ∧
    (∀ i exempt outcome, w.requests[i]? = some (.downstream exempt) →
      ∃ w', Step w (.finish i outcome) w' ∧ FinishContract w i exempt outcome w') := by
  have h : Balanced n w := hrun.invariant balanced_step (balanced_start hn setting)
  have hpermits := h.permits
  have hnonneg := h.nonneg
  have hcurrent := h.current
  refine ⟨hcurrent, by omega, by omega, h.rejected, h.noneAcquiring, arrivalContract h, ?_⟩
  intro i exempt outcome hi
  exact ⟨_, step_finish hi outcome, rfl, fun hexempt => by simp [hexempt]⟩

/-- Two requests on a middleware with one permit: the second is rejected. -/
theorem admission_control_one_permit :
    ∃ w, Run Step (start (some 1) 100) [.arrive "/api/v1/items", .arrive "/api/v1/items"] w ∧
      rejectedAnswers w = 1 ∧ inFlight w ≤ 1 := by
  have hrun : Run Step (start (some 1) 100)
      ([] ++ [.arrive "/api/v1/items"] ++ [.arrive "/api/v1/items"]) _ :=
    .tail (.tail (.refl _) rfl) rfl
  exact ⟨_, hrun, by decide, (admission_control (by decide) 100 hrun).2.1⟩

end BackendProdReady.Api.AdmissionControl
