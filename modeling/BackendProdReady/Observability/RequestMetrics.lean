import BackendProdReady.Lib.Runs
import BackendProdReady.Lib.Tasks
import BackendProdReady.Observability.PathNormalisation
import Mathlib.Logic.Function.Basic

/-!
# The metrics of the requests

The middleware of `setup_metrics` raises the gauge before it calls the next layer, and its
`finally` block observes the duration, counts the request and lowers the gauge.  Requests
with the same method and normalised path share their labels.
-/

namespace BackendProdReady.Observability.RequestMetrics

open BackendProdReady.Lib.Runs
open BackendProdReady.Lib.Tasks
open BackendProdReady.Observability.PathNormalisation (normalizePath)

/-! ## `metrics_middleware` -/

structure Labels where
  method : String
  path : String
deriving DecidableEq

structure Metrics where
  httpRequestsInProgress : Labels → Int
  httpRequestDurationSeconds : Labels → List Nat
  httpRequestsTotal : Labels → Nat → Nat

namespace Metrics

def inc (m : Metrics) (l : Labels) : Metrics :=
  { m with
    httpRequestsInProgress :=
      Function.update m.httpRequestsInProgress l (m.httpRequestsInProgress l + 1) }

def dec (m : Metrics) (l : Labels) : Metrics :=
  { m with
    httpRequestsInProgress :=
      Function.update m.httpRequestsInProgress l (m.httpRequestsInProgress l - 1) }

def observe (m : Metrics) (l : Labels) (duration : Nat) : Metrics :=
  { m with
    httpRequestDurationSeconds :=
      Function.update m.httpRequestDurationSeconds l
        (m.httpRequestDurationSeconds l ++ [duration]) }

def count (m : Metrics) (l : Labels) (statusCode : Nat) : Metrics :=
  { m with
    httpRequestsTotal :=
      Function.update m.httpRequestsTotal l
        (Function.update (m.httpRequestsTotal l) statusCode
          (m.httpRequestsTotal l statusCode + 1)) }

def finish (m : Metrics) (l : Labels) (duration statusCode : Nat) : Metrics :=
  ((m.observe l duration).count l statusCode).dec l

end Metrics

/-- How `call_next` ends; it raises when the request is cancelled, too. -/
inductive Outcome
  | response (statusCode : Nat)
  | raised
deriving DecidableEq

def Outcome.statusCode : Outcome → Nat
  | response statusCode => statusCode
  | raised => 500

def skippedPaths : List String := ["/metrics", "/api/v1/system/metrics"]

/-- Where the middleware stands, with its locals. -/
inductive Request
  | skipped
  | active (labels : Labels) (startTime : Nat)
  | ended
deriving DecidableEq

structure World where
  now : Nat
  metrics : Metrics
  requests : List Request

inductive Event
  | arrive (method url : String)
  | advance (time : Nat)
  | finish (i : Nat) (outcome : Outcome)

def start : World := ⟨0, ⟨fun _ => 0, fun _ => [], fun _ _ => 0⟩, []⟩

def step (w : World) : Event → Option World
  | .arrive method url =>
      let path := normalizePath url
      if path ∈ skippedPaths then some { w with requests := w.requests ++ [.skipped] }
      else
        some { w with
          metrics := w.metrics.inc ⟨method, path⟩
          requests := w.requests ++ [.active ⟨method, path⟩ w.now] }
  | .advance time => some { w with now := w.now + time }
  | .finish i outcome =>
      match w.requests[i]? with
      | some .skipped => some { w with requests := w.requests.set i .ended }
      | some (.active labels startTime) =>
          let duration := w.now - startTime
          some { w with
            metrics := w.metrics.finish labels duration outcome.statusCode
            requests := w.requests.set i .ended }
      | _ => none

def Step : World → Event → World → Prop := StepOf step

/-! ## What happened -/

/-- The labels of a request that is to be shown. -/
def shownLabels (method url : String) : Option Labels :=
  let path := normalizePath url
  if path = "/metrics" ∨ path = "/api/v1/system/metrics" then none else some ⟨method, path⟩

structure Arrival where
  labels : Option Labels
  time : Nat

structure Ending where
  request : Nat
  outcome : Outcome
  time : Nat

def elapsed : List Event → Nat
  | [] => 0
  | .advance time :: es => time + elapsed es
  | _ :: es => elapsed es

/-- The requests of these events, which begin at `now`. -/
def arrivals (now : Nat) : List Event → List Arrival
  | [] => []
  | .arrive method url :: es => ⟨shownLabels method url, now⟩ :: arrivals now es
  | .advance time :: es => arrivals (now + time) es
  | .finish .. :: es => arrivals now es

def endings (now : Nat) : List Event → List Ending
  | [] => []
  | .arrive .. :: es => endings now es
  | .advance time :: es => endings (now + time) es
  | .finish i outcome :: es => ⟨i, outcome, now⟩ :: endings now es

theorem elapsed_append (es fs : List Event) : elapsed (es ++ fs) = elapsed es + elapsed fs := by
  induction es with
  | nil => simp [elapsed]
  | cons e es ih => cases e <;> simp [elapsed, ih, Nat.add_assoc]

theorem arrivals_append (now : Nat) (es fs : List Event) :
    arrivals now (es ++ fs) = arrivals now es ++ arrivals (now + elapsed es) fs := by
  induction es generalizing now with
  | nil => rfl
  | cons e es ih => cases e <;> simp [arrivals, elapsed, ih, Nat.add_assoc]

theorem endings_append (now : Nat) (es fs : List Event) :
    endings now (es ++ fs) = endings now es ++ endings (now + elapsed es) fs := by
  induction es generalizing now with
  | nil => rfl
  | cons e es ih => cases e <;> simp [endings, elapsed, ih, Nat.add_assoc]

/-! ## What the metrics should show -/

section Shown

variable (arrived : List Arrival)

def endsOf (l : Labels) (e : Ending) : Bool :=
  (arrived[e.request]?.bind Arrival.labels) = some l

/-- It is counted under its status, and under 500 where nothing was returned. -/
def endsWith (l : Labels) (statusCode : Nat) (e : Ending) : Bool :=
  endsOf arrived l e &&
    decide (e.outcome = .response statusCode ∨ e.outcome = .raised ∧ statusCode = 500)

def durationOf (l : Labels) (e : Ending) : Option Nat :=
  arrived[e.request]?.bind fun a => if a.labels = some l then some (e.time - a.time) else none

structure Accounted (ended : List Ending) (m : Metrics) : Prop where
  once : (ended.map Ending.request).Nodup
  known : ∀ e ∈ ended, e.request < arrived.length
  gauge : ∀ l, m.httpRequestsInProgress l + (ended.countP (endsOf arrived l) : Int) =
    arrived.countP fun a => a.labels = some l
  total : ∀ l statusCode,
    m.httpRequestsTotal l statusCode = ended.countP (endsWith arrived l statusCode)
  histogram : ∀ l,
    m.httpRequestDurationSeconds l = ended.filterMap (durationOf arrived l)

end Shown

section Accounted

variable {arrived : List Arrival} {ended : List Ending} {m : Metrics}

/-- What an ending shows does not depend on later arrivals. -/
theorem getElem?_append_of_arrived (h : Accounted arrived ended m) (a : Arrival) {e : Ending}
    (he : e ∈ ended) : (arrived ++ [a])[e.request]? = arrived[e.request]? :=
  List.getElem?_append_left (h.known e he)

theorem accounted_append (h : Accounted arrived ended m) (a : Arrival) {m' : Metrics}
    (hgauge : ∀ l, m'.httpRequestsInProgress l =
      m.httpRequestsInProgress l + (if a.labels = some l then 1 else 0))
    (htotal : m'.httpRequestsTotal = m.httpRequestsTotal)
    (hhistogram : m'.httpRequestDurationSeconds = m.httpRequestDurationSeconds) :
    Accounted (arrived ++ [a]) ended m' where
  once := h.once
  known e he := by
    rw [List.length_append]
    exact Nat.lt_add_right _ (h.known e he)
  gauge l := by
    have hold := h.gauge l
    have hcount : ended.countP (endsOf (arrived ++ [a]) l) = ended.countP (endsOf arrived l) :=
      List.countP_congr fun e he => by simp only [endsOf, getElem?_append_of_arrived h a he]
    rw [hcount, hgauge, countP_append_singleton]
    by_cases hl : a.labels = some l
    · simp only [hl, if_true, decide_true]
      omega
    · simp only [hl, if_false, decide_false, Bool.false_eq_true]
      omega
  total l statusCode := by
    rw [htotal, h.total l statusCode]
    exact List.countP_congr fun e he => by
      simp only [endsWith, endsOf, getElem?_append_of_arrived h a he]
  histogram l := by
    rw [hhistogram, h.histogram l]
    exact List.filterMap_congr fun e he => by
      simp only [durationOf, getElem?_append_of_arrived h a he]

theorem accounted_inc (h : Accounted arrived ended m) (l : Labels) (now : Nat) :
    Accounted (arrived ++ [⟨some l, now⟩]) ended (m.inc l) := by
  refine accounted_append h _ (fun l' => ?_) rfl rfl
  simp only [Metrics.inc, Function.update_apply, Option.some.injEq]
  by_cases hl : l' = l
  · simp [hl]
  · simp [hl, Ne.symm hl]

theorem once_append (h : Accounted arrived ended m) {e : Ending}
    (hnew : e.request ∉ ended.map Ending.request) :
    ((ended ++ [e]).map Ending.request).Nodup := by
  rw [List.map_append, List.nodup_append]
  refine ⟨h.once, by simp, fun i hi j hj => ?_⟩
  rw [List.map_singleton, List.mem_singleton] at hj
  exact fun heq => hnew (hj ▸ heq ▸ hi)

theorem known_append (h : Accounted arrived ended m) {e : Ending} {a : Arrival}
    (ha : arrived[e.request]? = some a) : ∀ e' ∈ ended ++ [e], e'.request < arrived.length := by
  intro e' he'
  rcases List.mem_append.mp he' with hold | hnew
  · exact h.known e' hold
  · rw [List.mem_singleton.mp hnew]
    exact (List.getElem?_eq_some_iff.mp ha).1

theorem accounted_skipped (h : Accounted arrived ended m) {e : Ending} {time : Nat}
    (ha : arrived[e.request]? = some ⟨none, time⟩)
    (hnew : e.request ∉ ended.map Ending.request) : Accounted arrived (ended ++ [e]) m where
  once := once_append h hnew
  known := known_append h ha
  gauge l := by
    have hends : endsOf arrived l e = false := by simp [endsOf, ha]
    rw [countP_append_singleton, hends]
    exact h.gauge l
  total l statusCode := by
    have hends : endsWith arrived l statusCode e = false := by simp [endsWith, endsOf, ha]
    rw [countP_append_singleton, hends]
    exact h.total l statusCode
  histogram l := by
    have hduration : durationOf arrived l e = none := by simp [durationOf, ha]
    rw [List.filterMap_append, h.histogram l]
    simp [hduration]

/-- The `finally` block shows the request that ends, under its labels alone. -/
theorem accounted_finish (h : Accounted arrived ended m) {e : Ending} {l : Labels} {time : Nat}
    (ha : arrived[e.request]? = some ⟨some l, time⟩)
    (hnew : e.request ∉ ended.map Ending.request) :
    Accounted arrived (ended ++ [e]) (m.finish l (e.time - time) e.outcome.statusCode) where
  once := once_append h hnew
  known := known_append h ha
  gauge l' := by
    have hold := h.gauge l'
    have hends : endsOf arrived l' e = decide (l = l') := by simp [endsOf, ha]
    rw [countP_append_singleton, hends]
    simp only [Metrics.finish, Metrics.dec, Metrics.count, Metrics.observe, Function.update_apply]
    by_cases hl : l' = l
    · simp only [hl, if_true, decide_true] at hold ⊢
      omega
    · simp only [hl, Ne.symm hl, if_false, decide_false, Bool.false_eq_true] at hold ⊢
      omega
  total l' statusCode := by
    have hold := h.total l' statusCode
    have hends : endsWith arrived l' statusCode e =
        decide (l = l' ∧ e.outcome.statusCode = statusCode) := by
      cases houtcome : e.outcome <;>
        simp [endsWith, endsOf, ha, houtcome, Outcome.statusCode, eq_comm]
    rw [countP_append_singleton, hends]
    simp only [Metrics.finish, Metrics.dec, Metrics.count, Metrics.observe, Function.update_apply]
    by_cases hl : l' = l
    · subst hl
      by_cases hc : statusCode = e.outcome.statusCode
      · subst hc
        simp [hold]
      · simp [hc, Ne.symm hc, hold]
    · simp [hl, Ne.symm hl, hold]
  histogram l' := by
    have hold := h.histogram l'
    simp only [Metrics.finish, Metrics.dec, Metrics.count, Metrics.observe, Function.update_apply,
      List.filterMap_append, ← hold]
    by_cases hl : l' = l
    · simp [hl, durationOf, ha]
    · simp [hl, Ne.symm hl, durationOf, ha]

end Accounted

/-! ## Every step -/

/-- The request as its middleware holds it until it ends. -/
def Arrival.request (a : Arrival) : Request :=
  match a.labels with
  | none => .skipped
  | some l => .active l a.time

structure Inv (es : List Event) (w : World) : Prop where
  now : w.now = elapsed es
  requests : ∀ i, w.requests[i]? = (arrivals 0 es)[i]?.map fun a =>
    if i ∈ (endings 0 es).map Ending.request then .ended else a.request
  accounted : Accounted (arrivals 0 es) (endings 0 es) w.metrics

section Steps

variable {es : List Event} {w w' : World}

theorem inv_start : Inv [] start where
  now := rfl
  requests _ := rfl
  accounted := ⟨.nil, by simp [endings], fun _ => rfl, fun _ _ => rfl, fun _ => rfl⟩

theorem inv_advance (h : Inv es w) (time : Nat) :
    Inv (es ++ [.advance time]) { w with now := w.now + time } where
  now := by
    rw [elapsed_append, ← h.now]
    rfl
  requests i := by simpa [arrivals_append, endings_append, arrivals, endings] using h.requests i
  accounted := by simpa [arrivals_append, endings_append, arrivals, endings] using h.accounted

theorem length_requests (h : Inv es w) : w.requests.length = (arrivals 0 es).length := by
  refine Nat.le_antisymm ?_ ?_
  · have hnone := h.requests (arrivals 0 es).length
    rw [List.getElem?_eq_none (Nat.le_refl _), Option.map_none] at hnone
    exact List.getElem?_eq_none_iff.mp hnone
  · have hnone := h.requests w.requests.length
    rw [List.getElem?_eq_none (Nat.le_refl _)] at hnone
    exact List.getElem?_eq_none_iff.mp (Option.map_eq_none_iff.mp hnone.symm)

theorem inv_arrive (h : Inv es w) {method url : String} {metrics : Metrics}
    (hmetrics : Accounted (arrivals 0 es ++ [⟨shownLabels method url, w.now⟩]) (endings 0 es)
      metrics) :
    Inv (es ++ [.arrive method url]) { w with
      metrics := metrics
      requests := w.requests ++ [(⟨shownLabels method url, w.now⟩ : Arrival).request] } := by
  have harrivals : arrivals 0 (es ++ [.arrive method url]) =
      arrivals 0 es ++ [⟨shownLabels method url, w.now⟩] := by
    rw [arrivals_append, Nat.zero_add, ← h.now]
    rfl
  have hendings : endings 0 (es ++ [.arrive method url]) = endings 0 es := by
    rw [endings_append]
    exact List.append_nil _
  refine ⟨by rw [elapsed_append, ← h.now]; rfl, fun i => ?_, ?_⟩
  · rw [harrivals, hendings]
    have hlength := length_requests h
    rcases Nat.lt_trichotomy i (arrivals 0 es).length with hlt | rfl | hgt
    · rw [List.getElem?_append_left hlt, List.getElem?_append_left (hlength ▸ hlt)]
      exact h.requests i
    · have hnew : (arrivals 0 es).length ∉ (endings 0 es).map Ending.request := by
        intro hmem
        obtain ⟨e, he, heq⟩ := List.mem_map.mp hmem
        exact absurd (h.accounted.known e he) (by omega)
      rw [List.getElem?_concat_length, Option.map_some, if_neg hnew, ← hlength,
        List.getElem?_concat_length]
    · rw [List.getElem?_eq_none (by simp; omega), List.getElem?_eq_none (by simp; omega)]
      rfl
  · rw [harrivals, hendings]
    exact hmetrics

/-- A request that has not ended is known from its arrival. -/
theorem arrival_of_request (h : Inv es w) {i : Nat} {request : Request}
    (hi : w.requests[i]? = some request) (hrunning : request ≠ .ended) :
    i ∉ (endings 0 es).map Ending.request ∧
      ∃ a, (arrivals 0 es)[i]? = some a ∧ a.request = request := by
  rw [h.requests, Option.map_eq_some_iff] at hi
  obtain ⟨a, ha, hrequest⟩ := hi
  split_ifs at hrequest with hended
  · exact absurd hrequest.symm hrunning
  · exact ⟨hended, a, ha, hrequest⟩

theorem inv_finish (h : Inv es w) {i : Nat} {outcome : Outcome} {request : Request}
    (hi : w.requests[i]? = some request) {metrics : Metrics}
    (hmetrics : Accounted (arrivals 0 es) (endings 0 es ++ [⟨i, outcome, w.now⟩]) metrics) :
    Inv (es ++ [.finish i outcome]) { w with
      metrics := metrics
      requests := w.requests.set i .ended } := by
  have harrivals : arrivals 0 (es ++ [.finish i outcome]) = arrivals 0 es := by
    rw [arrivals_append]
    exact List.append_nil _
  have hendings : endings 0 (es ++ [.finish i outcome]) =
      endings 0 es ++ [⟨i, outcome, w.now⟩] := by
    rw [endings_append, Nat.zero_add, ← h.now]
    rfl
  refine ⟨by rw [elapsed_append, ← h.now]; rfl, fun j => ?_, ?_⟩
  · rw [harrivals, hendings, List.map_append, List.map_singleton]
    by_cases hj : j = i
    · subst hj
      have hlt := (List.getElem?_eq_some_iff.mp hi).1
      rw [length_requests h] at hlt
      simp [List.getElem?_set_self (length_requests h ▸ hlt), List.getElem?_eq_getElem hlt]
    · rw [List.getElem?_set_ne (Ne.symm hj), h.requests j]
      simp [hj]
  · rw [harrivals, hendings]
    exact hmetrics

theorem inv_step {e : Event} (h : Inv es w) (hstep : Step w e w') : Inv (es ++ [e]) w' := by
  simp only [Step, StepOf] at hstep
  cases e with
  | arrive method url =>
      simp only [step] at hstep
      split_ifs at hstep with hskipped
      · obtain rfl := Option.some.inj hstep
        have hlabels : shownLabels method url = none :=
          if_pos (by simpa [skippedPaths] using hskipped)
        have hsame : Accounted (arrivals 0 es ++ [⟨shownLabels method url, w.now⟩])
            (endings 0 es) w.metrics :=
          accounted_append h.accounted _ (fun l => by simp [hlabels]) rfl rfl
        have hinv := inv_arrive h hsame
        simpa [hlabels, Arrival.request] using hinv
      · obtain rfl := Option.some.inj hstep
        have hlabels : shownLabels method url = some ⟨method, normalizePath url⟩ :=
          if_neg (by simpa [skippedPaths] using hskipped)
        have hmetrics := accounted_inc h.accounted ⟨method, normalizePath url⟩ w.now
        rw [← hlabels] at hmetrics
        have hinv := inv_arrive h hmetrics
        simpa [hlabels, Arrival.request] using hinv
  | advance time =>
      obtain rfl := Option.some.inj hstep
      exact inv_advance h time
  | finish i outcome =>
      simp only [step] at hstep
      split at hstep
      · rename_i hi
        obtain rfl := Option.some.inj hstep
        obtain ⟨hnew, ⟨labels, time⟩, ha, hrequest⟩ := arrival_of_request h hi (by simp)
        cases labels with
        | none =>
            exact inv_finish h hi (accounted_skipped (e := ⟨i, outcome, w.now⟩) h.accounted ha hnew)
        | some l => cases hrequest
      · rename_i l startTime hi
        obtain rfl := Option.some.inj hstep
        obtain ⟨hnew, ⟨labels, time⟩, ha, hrequest⟩ := arrival_of_request h hi (by simp)
        cases labels with
        | none => cases hrequest
        | some l' =>
            obtain ⟨rfl, rfl⟩ := Request.active.inj hrequest
            exact inv_finish h hi (accounted_finish (e := ⟨i, outcome, w.now⟩) h.accounted ha hnew)
      · cases hstep

theorem inv_run (hrun : Run Step start es w) : Inv es w := by
  induction hrun with
  | refl => exact inv_start
  | tail _ hlast ih => exact inv_step ih hlast

end Steps

/-! ## Every run -/

structure MetricsContract (es : List Event) (w : World) : Prop where
  accounted : Accounted (arrivals 0 es) (endings 0 es) w.metrics
  /-- Whatever request is running can end in every way. -/
  ends : ∀ i < (arrivals 0 es).length, i ∉ (endings 0 es).map Ending.request →
    ∀ outcome, ∃ w', Step w (.finish i outcome) w'

/-- Over every interleaving of requests, however they end, the gauge shows the requests in
progress and each request that ended is counted once, with its status and the time since its
arrival; scrapes of the metrics are not shown. -/
theorem request_metrics {es : List Event} {w : World} (hrun : Run Step start es w) :
    MetricsContract es w := by
  have h := inv_run hrun
  refine ⟨h.accounted, fun i hi hrunning outcome => ?_⟩
  have hrequest := h.requests i
  rw [List.getElem?_eq_getElem hi, Option.map_some, if_neg hrunning] at hrequest
  cases hlabels : (arrivals 0 es)[i].labels with
  | none => exact ⟨_, by simp only [Step, StepOf, step, hrequest, Arrival.request, hlabels]; rfl⟩
  | some l => exact ⟨_, by simp only [Step, StepOf, step, hrequest, Arrival.request, hlabels]; rfl⟩

/-- Two requests for the same user's orders; the first one fails. -/
def twoRequests : List Event :=
  [.arrive "GET" "/users/1/orders", .arrive "GET" "/users/2/orders", .advance 40, .finish 0 .raised]

theorem request_metrics_twoRequests :
    ∃ w, MetricsContract twoRequests w ∧
      w.metrics.httpRequestsTotal ⟨"GET", "/users/{id}/orders"⟩ 500 = 1 :=
  have hrun : Run Step start twoRequests _ := run_of_foldlM rfl
  have h := request_metrics hrun
  ⟨_, h, by rw [h.accounted.total]; decide +kernel⟩

end BackendProdReady.Observability.RequestMetrics
