import BackendProdReady.Cache.InMemory
import BackendProdReady.Conf.Settings
import BackendProdReady.Lib.Runs
import Mathlib.Tactic.Common

/-!
# The connection of the cache service

`CacheService._ensure_connected`, its backoff and `close`.  A task suspends at
the `ping()` of a new client and at the `close()` of an old one, and the other
tasks run meanwhile; the system has one step for each segment between two
suspensions.  Of a client it keeps only whether it is there.  Times are in
milliseconds.
-/

namespace BackendProdReady.Cache.Connection

open BackendProdReady.Conf.Settings
open BackendProdReady.Lib.Runs
open BackendProdReady.Cache.InMemory

/-! ## The service -/

def initialRetryDelay : Nat := 1000

def maxRetryDelay : Nat := 60000

def retryBackoffFactor : Nat := 2

structure CacheService where
  redisClient : Bool
  inMemoryCache : Option InMemoryCache
  initialized : Bool
  usingFallback : Bool
  lastConnectionAttempt : Nat
  connectionRetryDelay : Nat
  consecutiveFailures : Nat
deriving DecidableEq

structure CacheSettings where
  environment : Environment
  /-- Whether `redis.from_url` accepts `REDIS_URL`. -/
  redisUrlValid : Bool

def fallbackEnvironments : List String := ["local", "dev", "test"]

namespace CacheService

def init : CacheService where
  redisClient := false
  inMemoryCache := none
  initialized := false
  usingFallback := false
  lastConnectionAttempt := 0
  connectionRetryDelay := initialRetryDelay
  consecutiveFailures := 0

/-! ## Backoff -/

def shouldUseFallback (settings : CacheSettings) : Bool :=
  settings.environment.value ∈ fallbackEnvironments

def shouldAttemptConnection (service : CacheService) (now : Nat) : Bool :=
  if service.consecutiveFailures = 0 then true
  else
    let timeSinceLast := now - service.lastConnectionAttempt
    timeSinceLast ≥ service.connectionRetryDelay

def recordConnectionSuccess (service : CacheService) (now : Nat) : CacheService :=
  { service with
    consecutiveFailures := 0
    connectionRetryDelay := initialRetryDelay
    lastConnectionAttempt := now }

def recordConnectionFailure (service : CacheService) (now : Nat) : CacheService :=
  { service with
    consecutiveFailures := service.consecutiveFailures + 1
    lastConnectionAttempt := now
    connectionRetryDelay :=
      min (service.connectionRetryDelay * retryBackoffFactor) maxRetryDelay }

/-! ## `_ensure_connected` -/

/-- What the first segment of `_ensure_connected` comes to. -/
inductive Attempt
  /-- It returns without an attempt. -/
  | skipped
  /-- `from_url` raises `ValueError`, and the attempt is over. -/
  | refused
  /-- It suspends in the `ping()` of a new client. -/
  | pinging
deriving DecidableEq

inductive PingOutcome
  | pong
  | connectionError
  | timeoutError
  | valueError
  | typeError
  /-- Any other exception, a cancellation among them. -/
  | otherException
deriving DecidableEq

/-- The two `except` clauses, which differ in their log lines only. -/
def connectionFailed (service : CacheService) (settings : CacheSettings) (now : Nat) :
    CacheService :=
  let service := { service with redisClient := false }.recordConnectionFailure now
  let service :=
    if shouldUseFallback settings then
      { service with inMemoryCache := some .init, usingFallback := true }
    else service
  { service with initialized := true }

/-- `_ensure_connected` up to its first suspension. -/
def ensureConnected (service : CacheService) (settings : CacheSettings) (now : Nat) :
    CacheService × Attempt :=
  if service.initialized then (service, .skipped)
  else if ¬ service.shouldAttemptConnection now then
    if shouldUseFallback settings ∧ service.inMemoryCache.isNone then
      ({ service with inMemoryCache := some .init, usingFallback := true }, .skipped)
    else (service, .skipped)
  else if settings.redisUrlValid then ({ service with redisClient := true }, .pinging)
  else (service.connectionFailed settings now, .refused)

/-- `_ensure_connected` after its `ping()`. -/
def pingEnded (service : CacheService) (settings : CacheSettings) (now : Nat) :
    PingOutcome → CacheService
  | .pong => { service with initialized := true }.recordConnectionSuccess now
  | .connectionError | .timeoutError | .valueError | .typeError =>
      service.connectionFailed settings now
  | .otherException => service

/-! ## `close` -/

/-- `close` up to its first suspension, and whether it has returned. -/
def close (service : CacheService) : CacheService × Bool :=
  let service :=
    if service.inMemoryCache.isSome then
      { service with inMemoryCache := none, usingFallback := false }
    else service
  if service.redisClient then (service, false)
  else ({ service with initialized := false }, true)

/-- `close` after the client's own `close()`; it is not `completed` when that
raises an exception other than the three `close` catches. -/
def clientClosed (service : CacheService) (completed : Bool) : CacheService :=
  let service := { service with redisClient := false }
  if completed then { service with initialized := false } else service

end CacheService

/-! ## Tasks -/

structure System (ω : Type) where
  now : Nat
  service : CacheService
  /-- Suspended in the `ping()` of a new client. -/
  pinging : ω → Bool
  /-- Suspended in `close()`. -/
  closing : ω → Bool

inductive Event (ω : Type)
  | advance (ms : Nat)
  /-- An operation of the task reaches `_ensure_connected`. -/
  | ensureConnected (task : ω)
  | pingEnded (task : ω) (outcome : CacheService.PingOutcome)
  /-- An operation served by the in-memory cache leaves `cache` there. -/
  | inMemoryOperation (cache : InMemoryCache)
  | close (task : ω)
  | clientClosed (task : ω) (completed : Bool)

inductive Observation
  | silent
  | attemptBegun
  /-- An attempt ended in a connection or in a failure that was recorded; one that
  `from_url` refuses begins and ends in one step. -/
  | attemptSettled
  | closeReturned
deriving DecidableEq

def Observation.isAttempt : Observation → Bool
  | .attemptBegun | .attemptSettled => true
  | .silent | .closeReturned => false

def CacheService.Attempt.observation : CacheService.Attempt → Observation
  | .skipped => .silent
  | .refused => .attemptSettled
  | .pinging => .attemptBegun

def CacheService.PingOutcome.observation : CacheService.PingOutcome → Observation
  | .otherException => .silent
  | _ => .attemptSettled

def closeObservation (returned : Bool) : Observation :=
  if returned then .closeReturned else .silent

section

variable {ω : Type} [DecidableEq ω]

def start (now : Nat) : System ω where
  now := now
  service := CacheService.init
  pinging := fun _ => false
  closing := fun _ => false

def react (settings : CacheSettings) (s : System ω) : Event ω → Option (System ω × Observation)
  | .advance ms => some ({ s with now := s.now + ms }, .silent)
  | .ensureConnected task =>
      if s.pinging task then none
      else
        let segment := s.service.ensureConnected settings s.now
        some ({ s with
          service := segment.1
          pinging := Function.update s.pinging task (segment.2 = .pinging) },
          segment.2.observation)
  | .pingEnded task outcome =>
      if s.pinging task then
        some ({ s with
          service := s.service.pingEnded settings s.now outcome
          pinging := Function.update s.pinging task false },
          outcome.observation)
      else none
  | .inMemoryOperation cache =>
      if s.service.usingFallback ∧ s.service.inMemoryCache.isSome then
        some ({ s with service := { s.service with inMemoryCache := some cache } }, .silent)
      else none
  | .close task =>
      if s.closing task then none
      else
        let segment := s.service.close
        some ({ s with
          service := segment.1
          closing := Function.update s.closing task (!segment.2) },
          closeObservation segment.2)
  | .clientClosed task completed =>
      if s.closing task then
        some ({ s with
          service := s.service.clientClosed completed
          closing := Function.update s.closing task false },
          closeObservation completed)
      else none

abbrev Label (ω : Type) := Event ω × Observation

def Step (settings : CacheSettings) (s : System ω) (label : Label ω) (t : System ω) : Prop :=
  react settings s label.1 = some (t, label.2)

inductive Transition (settings : CacheSettings) (s : System ω) :
    Event ω → Observation → System ω → Prop
  | advance (ms : Nat) : Transition settings s (.advance ms) .silent { s with now := s.now + ms }
  | ensureConnected {task : ω} {segment : CacheService × CacheService.Attempt}
      (hidle : s.pinging task = false)
      (hsegment : segment = s.service.ensureConnected settings s.now) :
      Transition settings s (.ensureConnected task) segment.2.observation
        { s with
          service := segment.1
          pinging := Function.update s.pinging task (segment.2 = .pinging) }
  | pingEnded {task : ω} (hpinging : s.pinging task = true)
      (outcome : CacheService.PingOutcome) :
      Transition settings s (.pingEnded task outcome) outcome.observation
        { s with
          service := s.service.pingEnded settings s.now outcome
          pinging := Function.update s.pinging task false }
  | inMemoryOperation (hfallback : s.service.usingFallback = true)
      (hcache : s.service.inMemoryCache.isSome = true) (cache : InMemoryCache) :
      Transition settings s (.inMemoryOperation cache) .silent
        { s with service := { s.service with inMemoryCache := some cache } }
  | close {task : ω} {segment : CacheService × Bool} (hopen : s.closing task = false)
      (hsegment : segment = s.service.close) :
      Transition settings s (.close task) (closeObservation segment.2)
        { s with
          service := segment.1
          closing := Function.update s.closing task (!segment.2) }
  | clientClosed {task : ω} (hclosing : s.closing task = true) (completed : Bool) :
      Transition settings s (.clientClosed task completed) (closeObservation completed)
        { s with
          service := s.service.clientClosed completed
          closing := Function.update s.closing task false }

theorem step_cases {settings : CacheSettings} {s t : System ω} {event : Event ω}
    {shown : Observation} (h : Step settings s (event, shown) t) :
    Transition settings s event shown t := by
  unfold Step react at h
  cases event with
  | advance ms =>
      obtain ⟨rfl, rfl⟩ := Prod.mk.inj (Option.some.inj h)
      exact .advance ms
  | ensureConnected task =>
      dsimp only at h
      split_ifs at h with hpinging
      obtain ⟨rfl, rfl⟩ := Prod.mk.inj (Option.some.inj h)
      exact .ensureConnected (Bool.not_eq_true _ ▸ hpinging) rfl
  | pingEnded task outcome =>
      dsimp only at h
      split_ifs at h with hpinging
      obtain ⟨rfl, rfl⟩ := Prod.mk.inj (Option.some.inj h)
      exact .pingEnded hpinging outcome
  | inMemoryOperation cache =>
      dsimp only at h
      split_ifs at h with hfallback
      obtain ⟨rfl, rfl⟩ := Prod.mk.inj (Option.some.inj h)
      exact .inMemoryOperation hfallback.1 hfallback.2 cache
  | close task =>
      dsimp only at h
      split_ifs at h with hclosing
      obtain ⟨rfl, rfl⟩ := Prod.mk.inj (Option.some.inj h)
      exact .close (Bool.not_eq_true _ ▸ hclosing) rfl
  | clientClosed task completed =>
      dsimp only at h
      split_ifs at h with hclosing
      obtain ⟨rfl, rfl⟩ := Prod.mk.inj (Option.some.inj h)
      exact .clientClosed hclosing completed

abbrev next (settings : CacheSettings) (s : System ω) (event : Event ω) : System ω :=
  afterEvent (react settings) s event

end

end BackendProdReady.Cache.Connection
