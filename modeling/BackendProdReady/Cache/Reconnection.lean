import BackendProdReady.Cache.Connection

/-!
# When an operation reconnects

The flag `_initialized` guards `_ensure_connected` before the backoff test is
reached, and both ways an attempt can settle set it.  So the flag says whether an
attempt has settled since `close()` last returned, and an operation that finds no
client and an elapsed delay makes an attempt just when none has.
-/

namespace BackendProdReady.Cache.Reconnection

open BackendProdReady.Conf.Settings
open BackendProdReady.Lib.Runs
open BackendProdReady.Cache.Connection

/-! ## The condition -/

/-- A client whose `ping()` has not been answered yet does not count. -/
def NotConnected (service : CacheService) : Prop :=
  service.redisClient = false ∨ service.initialized = false

def Due (service : CacheService) (now : Nat) : Prop :=
  service.lastConnectionAttempt + service.connectionRetryDelay ≤ now

def settledAfter (settled : Bool) : Observation → Bool
  | .attemptSettled => true
  | .closeReturned => false
  | .silent | .attemptBegun => settled

/-- An attempt has settled since the start or the last `close()` that returned. -/
def settledSinceClose (shown : List Observation) : Bool :=
  shown.foldl settledAfter false

/-! ## One segment of the service -/

section Segments

variable (service : CacheService) (settings : CacheSettings) (now : Nat)

theorem shouldAttemptConnection_of_due (h : Due service now) :
    service.shouldAttemptConnection now = true := by
  unfold Due at h
  unfold CacheService.shouldAttemptConnection
  split_ifs with hfailures
  · rfl
  · have hdelay : service.connectionRetryDelay ≤ now - service.lastConnectionAttempt := by omega
    simpa using hdelay

theorem ensureConnected_initialized :
    (service.ensureConnected settings now).1.initialized =
      settledAfter service.initialized (service.ensureConnected settings now).2.observation := by
  unfold CacheService.ensureConnected
  split_ifs <;> rfl

/-- The guard comes before the backoff test. -/
theorem ensureConnected_isAttempt :
    (service.ensureConnected settings now).2.observation.isAttempt =
      (!service.initialized && service.shouldAttemptConnection now) := by
  unfold CacheService.ensureConnected
  by_cases hinit : service.initialized
  · rw [if_pos hinit, hinit]
    rfl
  · rw [if_neg hinit]
    by_cases hattempt : service.shouldAttemptConnection now
    · rw [if_neg (by simpa using hattempt)]
      split_ifs <;> simp [hinit, hattempt, CacheService.Attempt.observation,
        Observation.isAttempt]
    · rw [if_pos hattempt]
      split_ifs <;> simp [hattempt, CacheService.Attempt.observation, Observation.isAttempt]

theorem pingEnded_initialized (outcome : CacheService.PingOutcome) :
    (service.pingEnded settings now outcome).initialized =
      settledAfter service.initialized outcome.observation := by
  cases outcome <;> rfl

theorem close_initialized :
    service.close.1.initialized =
      settledAfter service.initialized (closeObservation service.close.2) := by
  unfold CacheService.close
  dsimp only
  split_ifs <;> rfl

theorem clientClosed_initialized (completed : Bool) :
    (service.clientClosed completed).initialized =
      settledAfter service.initialized (closeObservation completed) := by
  cases completed <;> rfl

end Segments

/-! ## Steps and runs -/

section Runs

variable {ω : Type} [DecidableEq ω] {settings : CacheSettings} {s t : System ω}

theorem step_initialized {label : Label ω} (h : Step settings s label t) :
    t.service.initialized = settledAfter s.service.initialized label.2 := by
  obtain ⟨event, shown⟩ := label
  cases step_cases h with
  | advance ms => rfl
  | ensureConnected hidle hsegment =>
      subst hsegment
      exact ensureConnected_initialized s.service settings s.now
  | pingEnded hpinging outcome => exact pingEnded_initialized s.service settings s.now outcome
  | inMemoryOperation hfallback hcache cache => rfl
  | close hopen hsegment =>
      subst hsegment
      exact close_initialized s.service
  | clientClosed hclosing completed => exact clientClosed_initialized s.service completed

theorem run_initialized {labels : List (Label ω)} (h : Run (Step settings) s labels t) :
    t.service.initialized =
      (labels.map Prod.snd).foldl settledAfter s.service.initialized := by
  induction h with
  | refl => rfl
  | tail _ hstep ih =>
      rw [step_initialized hstep, ih, List.map_append, List.foldl_append]
      rfl

/-- An operation makes an attempt when the flag is down and the backoff lets it. -/
theorem step_ensureConnected {task : ω} {shown : Observation}
    (h : Step settings s (.ensureConnected task, shown) t) :
    shown.isAttempt = (!s.service.initialized && s.service.shouldAttemptConnection s.now) := by
  cases step_cases h with
  | ensureConnected hidle hsegment =>
      subst hsegment
      exact ensureConnected_isAttempt s.service settings s.now

/-- Once an attempt has settled, no operation makes another until `close()` returns,
however long that takes. -/
theorem no_attempt_until_closed {labels : List (Label ω)} (hs : s.service.initialized = true)
    (hrun : Run (Step settings) s labels t)
    (hopen : ∀ label ∈ labels, label.2 ≠ .closeReturned) {task : ω} {shown : Observation}
    {u : System ω} (h : Step settings t (.ensureConnected task, shown) u) :
    shown.isAttempt = false := by
  have hkeeps : ∀ (r : System ω) (label : Label ω) (r' : System ω),
      label.2 ≠ .closeReturned → r.service.initialized = true → Step settings r label r' →
        r'.service.initialized = true := by
    intro r label r' hlabel hr hstep
    rw [step_initialized hstep, hr]
    cases hshown : label.2 with
    | closeReturned => exact absurd hshown hlabel
    | silent | attemptBegun | attemptSettled => rfl
  have ht : t.service.initialized = true := hrun.invariant_of_forall hkeeps hopen hs
  rw [step_ensureConnected h, ht]
  rfl

/-- An operation that finds no connected client once the delay has passed makes an
attempt just when none has settled since `close()` last returned. -/
theorem reconnects_iff {now : Nat} {labels : List (Label ω)} {task : ω} {shown : Observation}
    (hrun : Run (Step settings) (start now) labels s)
    (h : Step settings s (.ensureConnected task, shown) t) :
    (NotConnected s.service → Due s.service s.now → shown.isAttempt = true) ↔
      (NotConnected s.service → Due s.service s.now →
        settledSinceClose (labels.map Prod.snd) = false) := by
  have hflag : s.service.initialized = settledSinceClose (labels.map Prod.snd) :=
    run_initialized hrun
  refine forall_congr' fun _ => forall_congr' fun hdue => ?_
  rw [step_ensureConnected h, shouldAttemptConnection_of_due _ _ hdue, Bool.and_true,
    hflag, Bool.not_eq_true']

end Runs

/-- A production service with a valid `REDIS_URL`. -/
def prodSettings : CacheSettings := ⟨.prod, true⟩

theorem reconnects_iff_first_second :
    ∃ s t : System Nat,
      Run (Step prodSettings) (start 0) [(.advance 1000, .silent)] s ∧
      NotConnected s.service ∧ Due s.service s.now ∧
      Step prodSettings s (.ensureConnected 0, .attemptBegun) t ∧
      Observation.attemptBegun.isAttempt = true := by
  let later := next prodSettings (start 0) (.advance 1000 : Event Nat)
  have hwait : Step prodSettings (start 0) (.advance 1000, .silent) later :=
    reaction_afterEvent (by decide)
  have hfirst : Step prodSettings later (.ensureConnected 0, .attemptBegun)
      (next prodSettings later (.ensureConnected 0)) := reaction_afterEvent (by decide)
  have hattempt := reconnects_iff (.single hwait) hfirst
  exact ⟨later, _, .single hwait, .inl rfl, by unfold Due; decide, hfirst,
    hattempt.mpr (fun _ _ => rfl) (.inl rfl) (by unfold Due; decide)⟩

/-- Redis is down when a production service starts.  Three seconds later the delay of
two has passed, and an operation finds no client and makes no attempt. -/
theorem failed_startup_not_retried :
    ∃ s t : System Nat, ∃ labels,
      Run (Step prodSettings) (start 0) labels s ∧
      s.service.redisClient = false ∧ Due s.service s.now ∧
      Step prodSettings s (.ensureConnected 1, .silent) t ∧
      Observation.silent.isAttempt = false := by
  let pinging := next prodSettings (start 0) (.ensureConnected 0 : Event Nat)
  let failed := next prodSettings pinging (.pingEnded 0 .connectionError)
  let later := next prodSettings failed (.advance 3000)
  have hbegin : Step prodSettings (start 0) (.ensureConnected 0, .attemptBegun) pinging :=
    reaction_afterEvent (by decide)
  have hfail : Step prodSettings pinging (.pingEnded 0 .connectionError, .attemptSettled)
      failed := reaction_afterEvent (by decide)
  have hwait : Step prodSettings failed (.advance 3000, .silent) later :=
    reaction_afterEvent (by decide)
  exact ⟨later, _, _, .tail (.tail (.single hbegin) hfail) hwait, by decide,
    by unfold Due; decide, reaction_afterEvent (by decide), rfl⟩

end BackendProdReady.Cache.Reconnection
