import BackendProdReady.Cache.Connection
import Mathlib.Algebra.Order.Ring.Nat
import Mathlib.Algebra.Order.Group.Nat
import Mathlib.Tactic.Ring

/-!
# The backoff law

A failed attempt doubles the delay up to its cap, and `_should_attempt_connection`
lets the next one start when the delay has passed.  `close` lowers the flag but keeps
the counters.  The delay is kept by doubling it each time; here it is shown to be the
capped power that the number of failures gives.

Two operations inside `_ensure_connected` at once would both pass the backoff test, and
an attempt that ends in another exception is not recorded.  `Sequential` leaves out both.
-/

namespace BackendProdReady.Cache.Backoff

open BackendProdReady.Lib.Runs
open BackendProdReady.Cache.Connection

/-! ## The law -/

inductive AttemptResult
  | success
  | failure
deriving DecidableEq

section History

variable {ω : Type}

def attemptResult : Label ω → Option AttemptResult
  | (.pingEnded _ .pong, _) => some .success
  | (.pingEnded _ .otherException, _) => none
  | (.pingEnded _ _, _) => some .failure
  -- `from_url` refuses the URL.
  | (.ensureConnected _, .attemptSettled) => some .failure
  | _ => none

def countFailure (failures : Nat) (label : Label ω) : Nat :=
  match attemptResult label with
  | some .success => 0
  | some .failure => failures + 1
  | none => failures

def failuresSinceSuccess (labels : List (Label ω)) : Nat :=
  labels.foldl countFailure 0

def tick (now : Nat) (label : Label ω) : Nat :=
  match label.1 with
  | .advance ms => now + ms
  | _ => now

def timeAfter (now : Nat) (labels : List (Label ω)) : Nat :=
  labels.foldl tick now

end History

def backoffDelay (failures : Nat) : Nat :=
  min (initialRetryDelay * retryBackoffFactor ^ failures) maxRetryDelay

section System

variable {ω : Type}

/-- No other operation is inside `_ensure_connected`, and a failed attempt ends in one of
the exceptions that are caught. -/
def Sequential (s : System ω) (label : Label ω) (_ : System ω) : Prop :=
  match label.1 with
  | .ensureConnected _ => ∀ task, s.pinging task = false
  | .pingEnded _ outcome => outcome ≠ .otherException
  | _ => True

structure BackoffLaw (now : Nat) (labels : List (Label ω)) (service : CacheService) : Prop where
  failures : 1 ≤ failuresSinceSuccess labels →
    service.consecutiveFailures = failuresSinceSuccess labels ∧
      service.connectionRetryDelay = backoffDelay (failuresSinceSuccess labels)
  success : failuresSinceSuccess labels = 0 →
    service.consecutiveFailures = 0 ∧ service.connectionRetryDelay = initialRetryDelay
  /-- The next attempt starts no earlier than the delay after the failed one ended. -/
  spacing : ∀ before failed between next after,
    labels = before ++ failed :: (between ++ next :: after) →
    attemptResult failed = some .failure →
    (∀ label ∈ between, label.2.isAttempt = false) → next.2.isAttempt = true →
    timeAfter now (before ++ [failed]) + backoffDelay (failuresSinceSuccess (before ++ [failed])) ≤
      timeAfter now (before ++ failed :: between)

end System

/-! ## The counters -/

/-- The three fields the backoff is about. -/
structure Counters where
  consecutiveFailures : Nat
  connectionRetryDelay : Nat
  lastConnectionAttempt : Nat

def counters (service : CacheService) : Counters where
  consecutiveFailures := service.consecutiveFailures
  connectionRetryDelay := service.connectionRetryDelay
  lastConnectionAttempt := service.lastConnectionAttempt

def Counters.after (c : Counters) (now : Nat) : Option AttemptResult → Counters
  | none => c
  | some .success => ⟨0, initialRetryDelay, now⟩
  | some .failure =>
      ⟨c.consecutiveFailures + 1, min (c.connectionRetryDelay * retryBackoffFactor) maxRetryDelay,
        now⟩

section Segments

variable (service : CacheService) (settings : CacheSettings) (now : Nat)

theorem backoffDelay_zero : backoffDelay 0 = initialRetryDelay := rfl

theorem backoffDelay_succ (failures : Nat) :
    min (backoffDelay failures * retryBackoffFactor) maxRetryDelay =
      backoffDelay (failures + 1) := by
  have hdouble : initialRetryDelay * retryBackoffFactor ^ (failures + 1) =
      initialRetryDelay * retryBackoffFactor ^ failures * retryBackoffFactor := by ring
  unfold backoffDelay
  rw [hdouble]
  simp only [retryBackoffFactor, maxRetryDelay]
  omega

theorem counters_connectionFailed :
    counters (service.connectionFailed settings now) =
      (counters service).after now (some .failure) := by
  unfold CacheService.connectionFailed
  dsimp only
  split_ifs <;> rfl

theorem counters_ensureConnected {ω : Type} (task : ω) :
    counters (service.ensureConnected settings now).1 =
      (counters service).after now (attemptResult
        (Event.ensureConnected task, (service.ensureConnected settings now).2.observation)) := by
  unfold CacheService.ensureConnected
  split_ifs
  · rfl
  · rfl
  · exact counters_connectionFailed service settings now
  · rfl
  · rfl

theorem counters_pingEnded {ω : Type} (task : ω) (outcome : CacheService.PingOutcome) :
    counters (service.pingEnded settings now outcome) =
      (counters service).after now
        (attemptResult (Event.pingEnded task outcome, outcome.observation)) := by
  cases outcome with
  | pong | otherException => rfl
  | connectionError | timeoutError | valueError | typeError =>
      exact counters_connectionFailed service settings now

theorem counters_close : counters service.close.1 = counters service := by
  unfold CacheService.close
  dsimp only
  split_ifs <;> rfl

theorem counters_clientClosed (completed : Bool) :
    counters (service.clientClosed completed) = counters service := by
  cases completed <;> rfl

/-- An attempt starts only when no failure stands or the delay has passed. -/
theorem due_of_attempt (h : (service.ensureConnected settings now).2 ≠ .skipped)
    (hfailures : 1 ≤ service.consecutiveFailures) :
    service.connectionRetryDelay ≤ now - service.lastConnectionAttempt := by
  have hattempt : service.shouldAttemptConnection now = true := by
    by_contra hskip
    apply h
    unfold CacheService.ensureConnected
    by_cases hinit : service.initialized = true
    · rw [if_pos hinit]
    · rw [if_neg hinit, if_pos hskip]
      split_ifs <;> rfl
  unfold CacheService.shouldAttemptConnection at hattempt
  rw [if_neg (by omega)] at hattempt
  simpa using hattempt

end Segments

/-! ## Steps -/

def Idle {ω : Type} (s : System ω) : Prop :=
  ∀ task, s.pinging task = false

def AtMostOnePinging {ω : Type} (s : System ω) : Prop :=
  ∀ task other, s.pinging task = true → s.pinging other = true → task = other

section Steps

variable {ω : Type} [DecidableEq ω] {settings : CacheSettings} {s t : System ω} {label : Label ω}

theorem step_counters (h : Step settings s label t) :
    counters t.service = (counters s.service).after s.now (attemptResult label) := by
  obtain ⟨event, shown⟩ := label
  cases step_cases h with
  | advance ms => rfl
  | ensureConnected hidle hsegment =>
      subst hsegment
      exact counters_ensureConnected s.service settings s.now _
  | pingEnded hpinging outcome => exact counters_pingEnded s.service settings s.now _ outcome
  | inMemoryOperation hfallback hcache cache => rfl
  | close hopen hsegment =>
      subst hsegment
      exact counters_close s.service
  | clientClosed hclosing completed => exact counters_clientClosed s.service completed

theorem step_now (h : Step settings s label t) : t.now = tick s.now label := by
  obtain ⟨event, shown⟩ := label
  cases step_cases h <;> rfl

/-- A step that is no attempt ends none. -/
theorem attemptResult_of_not_attempt (h : Step settings s label t)
    (hlabel : label.2.isAttempt = false) : attemptResult label = none := by
  obtain ⟨event, shown⟩ := label
  cases step_cases h with
  | advance | inMemoryOperation | close | clientClosed => rfl
  | ensureConnected hidle hsegment =>
      rename_i segment
      obtain ⟨service, attempt⟩ := segment
      cases attempt with
      | skipped | pinging => rfl
      | refused => cases hlabel
  | pingEnded hpinging outcome =>
      cases outcome with
      | otherException => rfl
      | _ => cases hlabel

/-- An attempt is the end of a `ping()` or starts once the delay has passed. -/
theorem due_of_idle (h : Step settings s label t) (hidle : Idle s)
    (hlabel : label.2.isAttempt = true) (hfailures : 1 ≤ s.service.consecutiveFailures) :
    s.service.connectionRetryDelay ≤ s.now - s.service.lastConnectionAttempt := by
  obtain ⟨event, shown⟩ := label
  cases step_cases h with
  | advance | inMemoryOperation => cases hlabel
  | ensureConnected hnot hsegment =>
      subst hsegment
      refine due_of_attempt s.service settings s.now (fun hskipped => ?_) hfailures
      rw [hskipped] at hlabel
      cases hlabel
  | pingEnded hpinging outcome =>
      rw [hidle] at hpinging
      cases hpinging
  | close hopen hsegment =>
      unfold closeObservation at hlabel
      split_ifs at hlabel <;> cases hlabel
  | clientClosed hclosing completed =>
      cases completed <;> cases hlabel

theorem idle_of_not_attempt (h : Step settings s label t) (hidle : Idle s)
    (hlabel : label.2.isAttempt = false) : Idle t := by
  obtain ⟨event, shown⟩ := label
  cases step_cases h with
  | advance | inMemoryOperation | close | clientClosed => exact hidle
  | ensureConnected hnot hsegment =>
      rename_i task segment
      obtain ⟨service, attempt⟩ := segment
      intro other
      cases attempt with
      | skipped | refused => by_cases hother : other = task <;> simp [hother, hidle other]
      | pinging => cases hlabel
  | pingEnded hpinging outcome =>
      rw [hidle] at hpinging
      cases hpinging

/-- The end of the only attempt there is leaves no task inside `_ensure_connected`. -/
theorem idle_of_settled (h : Guarded Sequential (Step settings) s label t)
    (hone : AtMostOnePinging s) (hlabel : attemptResult label = some .failure) : Idle t := by
  obtain ⟨hstep, halone⟩ := h
  obtain ⟨event, shown⟩ := label
  cases step_cases hstep with
  | advance | inMemoryOperation | close | clientClosed => cases hlabel
  | ensureConnected hnot hsegment =>
      rename_i task segment
      obtain ⟨service, attempt⟩ := segment
      intro other
      cases attempt with
      | refused => by_cases hother : other = task <;> simp [hother, halone other]
      | skipped | pinging => cases hlabel
  | pingEnded hpinging outcome =>
      rename_i task
      intro other
      by_cases hother : other = task
      · simp [hother]
      · have hnot : s.pinging other = false := by
          rw [← Bool.not_eq_true]
          exact fun hpings => hother (hone other task hpings hpinging)
        simp [hother, hnot]

theorem step_atMostOnePinging (hone : AtMostOnePinging s)
    (h : Guarded Sequential (Step settings) s label t) : AtMostOnePinging t := by
  obtain ⟨hstep, halone⟩ := h
  obtain ⟨event, shown⟩ := label
  cases step_cases hstep with
  | advance | inMemoryOperation | close | clientClosed => exact hone
  | ensureConnected hnot hsegment =>
      rename_i task segment
      have honly : ∀ other, Function.update s.pinging task (segment.2 = .pinging) other = true →
          other = task := by
        intro other hother
        by_contra hne
        rw [Function.update_of_ne hne, halone other] at hother
        cases hother
      exact fun a b ha hb => (honly a ha).trans (honly b hb).symm
  | pingEnded hpinging outcome =>
      rename_i task
      have hkept : ∀ other, Function.update s.pinging task false other = true →
          s.pinging other = true := by
        intro other hother
        by_cases hne : other = task
        · simp [hne] at hother
        · rwa [Function.update_of_ne hne] at hother
      exact fun a b ha hb => hone a b (hkept a ha) (hkept b hb)

end Steps

/-! ## Runs -/

section Runs

variable {ω : Type} [DecidableEq ω] {settings : CacheSettings} {s t : System ω}
  {labels : List (Label ω)}

theorem run_now (h : Run (Step settings) s labels t) : t.now = timeAfter s.now labels := by
  induction h with
  | refl => rfl
  | tail _ hstep ih =>
      rw [step_now hstep, ih, timeAfter, timeAfter, List.foldl_append]
      rfl

theorem run_failures {now : Nat} (h : Run (Step settings) (start now) labels s) :
    s.service.consecutiveFailures = failuresSinceSuccess labels ∧
      s.service.connectionRetryDelay = backoffDelay (failuresSinceSuccess labels) := by
  induction h with
  | refl => exact ⟨rfl, rfl⟩
  | tail hpre hstep ih =>
      rename_i r u es label
      obtain ⟨hfailures, hdelay⟩ := ih
      have hcounters := step_counters hstep
      have hcount : failuresSinceSuccess (es ++ [label]) =
          countFailure (failuresSinceSuccess es) label := by
        rw [failuresSinceSuccess, List.foldl_append]
        rfl
      rw [hcount]
      unfold countFailure
      simp only [counters, Counters.after] at hcounters
      cases hresult : attemptResult label with
      | none =>
          simp only [hresult, Counters.mk.injEq] at hcounters
          exact ⟨hcounters.1.trans hfailures, hcounters.2.1.trans hdelay⟩
      | some result =>
          cases result with
          | success =>
              simp only [hresult, Counters.mk.injEq] at hcounters
              exact ⟨hcounters.1, hcounters.2.1.trans backoffDelay_zero.symm⟩
          | failure =>
              simp only [hresult, Counters.mk.injEq] at hcounters
              refine ⟨by rw [hcounters.1, hfailures], ?_⟩
              rw [hcounters.2.1, hdelay]
              exact backoffDelay_succ _

/-- Between two attempts the counters stand still, however often `close` is called. -/
theorem run_between (h : Run (Step settings) s labels t) (hidle : Idle s)
    (hlabels : ∀ label ∈ labels, label.2.isAttempt = false) :
    Idle t ∧ counters t.service = counters s.service := by
  have hkeeps : ∀ (r : System ω) (label : Label ω) (r' : System ω), label.2.isAttempt = false →
      (Idle r ∧ counters r.service = counters s.service) → Step settings r label r' →
        Idle r' ∧ counters r'.service = counters s.service := by
    rintro r label r' hlabel ⟨hr, hcounters⟩ hstep
    refine ⟨idle_of_not_attempt hstep hr hlabel, ?_⟩
    rw [step_counters hstep, attemptResult_of_not_attempt hstep hlabel]
    exact hcounters
  exact h.invariant_of_forall hkeeps hlabels ⟨hidle, rfl⟩

theorem spacing {now : Nat} {before between after : List (Label ω)} {failed next : Label ω}
    (hrun : Run (Guarded Sequential (Step settings)) (start now)
      (before ++ failed :: (between ++ next :: after)) t)
    (hfailed : attemptResult failed = some .failure)
    (hbetween : ∀ label ∈ between, label.2.isAttempt = false) (hnext : next.2.isAttempt = true) :
    timeAfter now (before ++ [failed]) + backoffDelay (failuresSinceSuccess (before ++ [failed])) ≤
      timeAfter now (before ++ failed :: between) := by
  obtain ⟨r, hbefore, hrest⟩ := hrun.inv_append
  obtain ⟨u, hfail, hrest⟩ := hrest.inv_cons
  obtain ⟨v, hmiddle, hrest⟩ := hrest.inv_append
  obtain ⟨w, hattempt, -⟩ := hrest.inv_cons
  have hone : AtMostOnePinging r := by
    refine hbefore.invariant (fun r label r' hr hstep => step_atMostOnePinging hr hstep) ?_
    intro task other htask
    cases htask
  have hidle : Idle u := idle_of_settled hfail hone hfailed
  have huntil : Run (Step settings) (start now) (before ++ [failed]) u :=
    .tail hbefore.of_guarded hfail.1
  have hwhole : Run (Step settings) (start now) (before ++ failed :: between) v := by
    rw [List.append_cons]
    exact huntil.trans hmiddle.of_guarded
  obtain ⟨hfailures, hdelay⟩ := run_failures huntil
  have hlast := step_counters hfail.1
  rw [hfailed] at hlast
  have hclock : u.now = r.now := by
    rw [step_now hfail.1]
    obtain ⟨event, shown⟩ := failed
    cases event <;> first | rfl | cases hfailed
  obtain ⟨hidle', hsame⟩ := run_between hmiddle.of_guarded hidle hbetween
  simp only [counters, Counters.after, Counters.mk.injEq] at hlast hsame
  have hdue := due_of_idle hattempt.1 hidle' hnext (by omega)
  have hu : u.now = timeAfter now (before ++ [failed]) := run_now huntil
  have hv : v.now = timeAfter now (before ++ failed :: between) := run_now hwhole
  have hpositive : 0 < backoffDelay (failuresSinceSuccess (before ++ [failed])) := by
    unfold backoffDelay
    simp [initialRetryDelay, retryBackoffFactor, maxRetryDelay]
  rw [← hu, ← hv, ← hdelay]
  omega

/-- In a sequential run the counters follow the number of failed attempts since the last
success, and no attempt starts before the delay that this number gives has passed. -/
theorem backoff_law {now : Nat}
    (h : Run (Guarded Sequential (Step settings)) (start now) labels s) :
    BackoffLaw now labels s.service where
  failures := fun _ => run_failures h.of_guarded
  success := by
    intro hnone
    obtain ⟨hfailures, hdelay⟩ := run_failures h.of_guarded
    rw [hnone] at hfailures hdelay
    exact ⟨hfailures, hdelay⟩
  spacing := by
    rintro before failed between next after rfl hfailed hbetween hnext
    exact spacing h hfailed hbetween hnext

end Runs

/-- A production service; `redis.from_url` accepts its URL. -/
def remoteSettings : CacheSettings := ⟨.prod, true⟩

/-- Redis does not answer, the service is closed, and two seconds later it refuses the
next attempt too. -/
theorem backoff_law_second_failure :
    ∃ labels : List (Label Unit), ∃ s : System Unit,
      BackoffLaw 0 labels s.service ∧ failuresSinceSuccess labels = 2 ∧
        s.service.consecutiveFailures = 2 ∧ s.service.connectionRetryDelay = 4000 := by
  let pinging := next remoteSettings (start 0) (.ensureConnected () : Event Unit)
  let failed := next remoteSettings pinging (.pingEnded () .timeoutError)
  let closed := next remoteSettings failed (.close ())
  let later := next remoteSettings closed (.advance 2000)
  let again := next remoteSettings later (.ensureConnected ())
  let refused := next remoteSettings again (.pingEnded () .connectionError)
  have hrun : Run (Guarded Sequential (Step remoteSettings)) (start 0)
      [(.ensureConnected (), .attemptBegun), (.pingEnded () .timeoutError, .attemptSettled),
        (.close (), .closeReturned), (.advance 2000, .silent),
        (.ensureConnected (), .attemptBegun), (.pingEnded () .connectionError, .attemptSettled)]
      refused := by
    have hbegin : Guarded Sequential (Step remoteSettings) (start 0)
        (.ensureConnected (), .attemptBegun) pinging :=
      ⟨reaction_afterEvent (by decide), fun _ => rfl⟩
    have hfail : Guarded Sequential (Step remoteSettings) pinging
        (.pingEnded () .timeoutError, .attemptSettled) failed :=
      ⟨reaction_afterEvent (by decide), by unfold Sequential; decide⟩
    have hclose : Guarded Sequential (Step remoteSettings) failed
        (.close (), .closeReturned) closed := ⟨reaction_afterEvent (by decide), trivial⟩
    have hwait : Guarded Sequential (Step remoteSettings) closed
        (.advance 2000, .silent) later := ⟨reaction_afterEvent (by decide), trivial⟩
    have hretry : Guarded Sequential (Step remoteSettings) later
        (.ensureConnected (), .attemptBegun) again :=
      ⟨reaction_afterEvent (by decide), fun _ => by rfl⟩
    have hrefuse : Guarded Sequential (Step remoteSettings) again
        (.pingEnded () .connectionError, .attemptSettled) refused :=
      ⟨reaction_afterEvent (by decide), by unfold Sequential; decide⟩
    exact .tail (.tail (.tail (.tail (.tail (.single hbegin) hfail) hclose) hwait) hretry) hrefuse
  have hlaw := backoff_law hrun
  exact ⟨_, refused, hlaw, rfl, (hlaw.failures (by decide)).1, (hlaw.failures (by decide)).2⟩

end BackendProdReady.Cache.Backoff
