import BackendProdReady.Lib.Awaitables

/-!
# Shutting down the infrastructure

`shutdown_infrastructure` closes Redis and disposes of the Postgres engines at the same
time.  Each has five seconds, and both together `shutdown_timeout`; what takes longer is
left running behind its shield.
-/

namespace BackendProdReady.Lifecycle.Shutdown

open BackendProdReady.Lib.Awaitables
open BackendProdReady.Lib.Awaitables.Await
open BackendProdReady.Lib.Awaitables.World

/-! ## `shutdown_infrastructure` -/

/-- The exceptions that the `except` clauses tell apart. -/
inductive Exn
  | timeoutError
  | connectionError
  | runtimeError
  | attributeError
  | other
deriving DecidableEq

inductive Resource
  | redis
  | postgres
deriving DecidableEq

inductive Timer
  | resource (r : Resource)
  | overall
deriving DecidableEq

/-- The part of `_close_redis` and `_dispose_postgres` that waits. -/
def guarded (r : Resource) : Await Exn Resource Timer :=
  .waitFor (.resource r) ⟨false, false⟩ .timeoutError (.shield (.task r))

def closeRedis : Await Exn Resource Timer :=
  .tryExcept (fun e => e == .timeoutError || e == .connectionError || e == .runtimeError ||
    e == .attributeError) (guarded .redis)

def disposePostgres : Await Exn Resource Timer :=
  .tryExcept (fun e => e == .timeoutError || e == .connectionError || e == .runtimeError)
    (guarded .postgres)

/-- Without any time, `wait_for` cancels the two before their first step. -/
def shutdownInfrastructure (shutdownTimeout : Int) : Await Exn Resource Timer :=
  if shutdownTimeout ≤ 0 then .done .value
  else
    .tryExcept (fun e => e == .timeoutError || e == .runtimeError || e == .connectionError)
      (.waitFor .overall ⟨false, false⟩ .timeoutError (.gather false closeRedis disposePostgres))

section Timeout

variable {shutdownTimeout : Int}

theorem guarded_safe (r : Resource) : Safe (guarded r) :=
  ⟨rfl, rfl, trivial, rfl, trivial⟩

theorem shutdownInfrastructure_safe : Safe (shutdownInfrastructure shutdownTimeout) := by
  unfold shutdownInfrastructure
  split_ifs
  · trivial
  · exact ⟨rfl, rfl, rfl, ⟨trivial, trivial⟩, rfl, ⟨rfl, guarded_safe _⟩, rfl, guarded_safe _⟩

theorem shutdownInfrastructure_mentions (h : 0 < shutdownTimeout) (r : Resource) :
    Mentions r (shutdownInfrastructure shutdownTimeout) := by
  rw [shutdownInfrastructure, if_neg (Int.not_le.mpr h)]
  cases r with
  | redis => exact .inl rfl
  | postgres => exact .inr rfl

theorem shutdownInfrastructure_yields {result : Result Exn}
    (h : Yields (shutdownInfrastructure shutdownTimeout) result) : result = .value := by
  unfold shutdownInfrastructure at h
  split_ifs at h
  · exact h
  · rcases h with ⟨hvalue | hraised, hunhandled⟩ | ⟨hvalue, -⟩
    · exact hvalue
    · cases hunhandled _ hraised
    · exact hvalue

/-! ## Every order of ends, failures and timeouts -/

/-- The resource was closed, failed to close, or ran out of its five seconds. -/
def releasedIn (events : List (Event Exn Resource Timer)) (r : Resource) : Bool :=
  firedIn events (.resource r) || endedIn events r

structure ShutdownContract (events : List (Event Exn Resource Timer))
    (w : World Exn Resource Timer) : Prop where
  /-- Neither `close` nor `dispose` is ever cancelled. -/
  uncancelled : w.requested = []
  leftRunning : ∀ r, endedIn events r = false → w.Running r
  ends : w.root.isDone = true ↔
    firedIn events .overall = true ∨ ∀ r, releasedIn events r = true
  neverRaises : ∀ result, w.root = .done result → result = .value

theorem forall_releasedIn (events : List (Event Exn Resource Timer)) :
    (∀ r, releasedIn events r = true) ↔
      releasedIn events .redis = true ∧ releasedIn events .postgres = true := by
  constructor
  · exact fun h => ⟨h _, h _⟩
  · rintro ⟨hredis, hpostgres⟩ (_ | _)
    · exact hredis
    · exact hpostgres

theorem uncancelled_run (events : List (Event Exn Resource Timer)) :
    ((start (shutdownInfrastructure shutdownTimeout)).run events).requested = [] :=
  (calm_run events (calm_start shutdownInfrastructure_safe)).requested

theorem value_of_run (events : List (Event Exn Resource Timer)) {result : Result Exn}
    (h : ((start (shutdownInfrastructure shutdownTimeout)).run events).root = .done result) :
    result = .value := by
  have hsafe : Safe (shutdownInfrastructure shutdownTimeout) := shutdownInfrastructure_safe
  refine shutdownInfrastructure_yields (yields_run events (calm_start hsafe) ?_)
  rw [h]
  rfl

theorem shutdownContract_run (h : 0 < shutdownTimeout)
    (events : List (Event Exn Resource Timer)) :
    ShutdownContract events ((start (shutdownInfrastructure shutdownTimeout)).run events) where
  uncancelled := uncancelled_run events
  leftRunning r hr := running_run events (.inl (shutdownInfrastructure_mentions h r)) hr
  ends := by
    rw [isDone_run events (calm_start shutdownInfrastructure_safe), forall_releasedIn, start,
      shutdownInfrastructure, if_neg (Int.not_le.mpr h)]
    simp only [releasedIn, closeRedis, disposePostgres, guarded, endsBy, Bool.or_eq_true,
      Bool.and_eq_true]
  neverRaises _ hdone := value_of_run events hdone

/-- Each resource is left to close whatever the other one does and whatever times out;
the shutdown is over as soon as both are released or its own time has passed, and it
raises nothing. -/
theorem shutdown_infrastructure (h : 0 < shutdownTimeout)
    (events : List (Event Exn Resource Timer)) :
    ShutdownContract events ((start (shutdownInfrastructure shutdownTimeout)).run events) :=
  shutdownContract_run h events

/-- Redis takes longer than its five seconds and is left running. -/
theorem shutdown_infrastructure_slowRedis :
    ShutdownContract [.ends .postgres .value, .expires (.resource .redis)]
      ((start (shutdownInfrastructure 10000)).run
        [.ends .postgres .value, .expires (.resource .redis)]) :=
  shutdown_infrastructure (by decide) _

end Timeout

end BackendProdReady.Lifecycle.Shutdown
