import BackendProdReady.Lib.Runs
import BackendProdReady.Lifecycle.Shutdown
import Mathlib.Algebra.Order.Ring.Nat

/-!
# The lifespan of the application

`lifespan` connects to the database, which is tried three times at most, to the cache and
to the identity kit, and then serves.  However that ends, its `finally` block stops the
identity kit and shuts the infrastructure down behind a shield.  `tenacity` hands every
exception of an attempt to the predicate, a cancellation too.
-/

namespace BackendProdReady.Lifecycle.Lifespan

open BackendProdReady.Lib.Runs
open BackendProdReady.Lib.Awaitables (Event Left World)
open BackendProdReady.Lib.Awaitables.Await
open BackendProdReady.Lifecycle.Shutdown (Exn Resource Timer shutdownInfrastructure
  ShutdownContract)

/-! ## Which database errors are tried again -/

inductive Failure
  | gaierror (errno : Int)
  | invalidPassword
  | invalidAuthorizationSpecification
  /-- Any other subclass of `Exception`. -/
  | exception
  | cancelled
deriving DecidableEq

def isDnsResolutionError : Failure → Bool
  | .gaierror errno => errno == 8
  | _ => false

def isAuthError : Failure → Bool
  | .invalidPassword => true
  | .invalidAuthorizationSpecification => true
  | _ => false

def shouldRetryDbError : Option Failure → Bool
  | none => false
  | some e => if isDnsResolutionError e then false else !isAuthError e

def maxAttempts : Nat := 3

/-- `wait_exponential(multiplier=1, min=4, max=15)`, in milliseconds. -/
def waitExponential (attempt : Nat) : Nat := max 4000 (min (1000 * 2 ^ (attempt - 1)) 15000)

def maxJitter : Nat := 2000

/-! ## `lifespan` -/

inductive Phase
  | connecting (attempt : Nat)
  | sleeping (attempt wait : Nat)
  | connectingCache
  | startingIdentityKit
  | serving
  | stoppingIdentityKit (pending : Option Failure)
  /-- At `await asyncio.shield(shutdown_infrastructure(…))`. -/
  | stoppingInfrastructure (pending : Option Failure)
  | ended (raised : Option Failure)
deriving DecidableEq

inductive Call
  | initializeDatabase
  | sleep
  | connectCache
  | startIdentityKit
  | serve
  | stopIdentityKit
  | stopInfrastructure
deriving DecidableEq

structure State where
  phase : Phase
  /-- The calls that have ended, and how. -/
  log : List (Call × Option Failure)
  shutdown : Option (World Exn Resource Timer)

inductive Input
  /-- What is awaited ends; `jitter` is what `wait_random` draws if it is tried again. -/
  | ends (failure : Option Failure) (jitter : Nat)
  | shutdownStep (event : Event Exn Resource Timer)

def start : State := ⟨.connecting 1, [], none⟩

namespace State

def record (s : State) (call : Call) (failure : Option Failure) (next : Phase) : State :=
  { s with log := s.log ++ [(call, failure)], phase := next }

/-- One call of the `try` block: its failure leads to the `finally` block. -/
def proceed (s : State) (call : Call) (failure : Option Failure) (next : Phase) : State :=
  s.record call failure (if failure.isSome then .stoppingIdentityKit failure else next)

def attemptEnds (s : State) (attempt : Nat) (failure : Option Failure) (jitter : Nat) :
    State :=
  if shouldRetryDbError failure && decide (attempt < maxAttempts) then
    s.record .initializeDatabase failure (.sleeping attempt (waitExponential attempt + jitter))
  else s.proceed .initializeDatabase failure .connectingCache

def identityKitStopped (shutdownTimeout : Int) (s : State) (pending failure : Option Failure) :
    State :=
  match failure with
  | some .cancelled => s.record .stopIdentityKit failure (.ended failure)
  | _ =>
      { s.record .stopIdentityKit failure (.stoppingInfrastructure pending) with
        shutdown := some (.start (shutdownInfrastructure shutdownTimeout)) }

end State

/-- What the await of the shield can end with. -/
def shieldEnds (w : World Exn Resource Timer) (failure : Option Failure) : Bool :=
  match failure with
  | none => w.root.isDone
  | some e => e == .cancelled

def step (shutdownTimeout : Int) (s : State) : Input → Option State
  | .ends failure jitter =>
      match s.phase with
      | .connecting attempt =>
          if jitter ≤ maxJitter then some (s.attemptEnds attempt failure jitter) else none
      | .sleeping attempt _ =>
          match failure with
          | none => some { s with phase := .connecting (attempt + 1) }
          | some e =>
              if e = .cancelled then some (s.proceed .sleep failure .connectingCache) else none
      | .connectingCache => some (s.proceed .connectCache failure .startingIdentityKit)
      | .startingIdentityKit => some (s.proceed .startIdentityKit failure .serving)
      | .serving => some (s.record .serve failure (.stoppingIdentityKit failure))
      | .stoppingIdentityKit pending =>
          some (s.identityKitStopped shutdownTimeout pending failure)
      | .stoppingInfrastructure pending =>
          match s.shutdown with
          | some w =>
              if shieldEnds w failure then
                some (s.record .stopInfrastructure failure (.ended pending))
              else none
          | none => none
      | .ended _ => none
  | .shutdownStep event =>
      match s.shutdown with
      | some w => some { s with shutdown := some (w.react event) }
      | none => none

def Step (shutdownTimeout : Int) : State → Input → State → Prop :=
  StepOf (step shutdownTimeout)

/-! ## The histories of a lifespan -/

/-- Attempts that were tried again. -/
structure Retried (failures : List Failure) : Prop where
  bound : failures.length < maxAttempts
  retryable : ∀ e ∈ failures, shouldRetryDbError (some e) = true

def attempts (failures : List Failure) : List (Call × Option Failure) :=
  failures.map fun e => (.initializeDatabase, some e)

/-- How the `try` block can end: its calls, and what it raises. -/
inductive BlockEnds : List (Call × Option Failure) → Option Failure → Prop
  | database {failures : List Failure} {e : Failure} :
      Retried failures →
      shouldRetryDbError (some e) = false ∨ failures.length + 1 = maxAttempts →
      BlockEnds (attempts failures ++ [(.initializeDatabase, some e)]) (some e)
  | sleep {failures : List Failure} :
      Retried failures → failures ≠ [] →
      BlockEnds (attempts failures ++ [(.sleep, some .cancelled)]) (some .cancelled)
  | cache {failures : List Failure} {e : Failure} :
      Retried failures →
      BlockEnds (attempts failures ++ [(.initializeDatabase, none), (.connectCache, some e)])
        (some e)
  | identityKit {failures : List Failure} {e : Failure} :
      Retried failures →
      BlockEnds (attempts failures ++ [(.initializeDatabase, none), (.connectCache, none),
        (.startIdentityKit, some e)]) (some e)
  | served {failures : List Failure} (result : Option Failure) :
      Retried failures →
      BlockEnds (attempts failures ++ [(.initializeDatabase, none), (.connectCache, none),
        (.startIdentityKit, none), (.serve, result)]) result

/-- What is known of a lifespan in each phase. -/
def History (s : State) : Prop :=
  match s.phase with
  | .connecting attempt =>
      s.shutdown = none ∧ ∃ failures, Retried failures ∧ attempt = failures.length + 1 ∧
        s.log = attempts failures
  | .sleeping attempt wait =>
      s.shutdown = none ∧ 4000 ≤ wait ∧ wait ≤ 6000 ∧
        ∃ failures, Retried failures ∧ failures ≠ [] ∧ attempt = failures.length ∧
          s.log = attempts failures
  | .connectingCache =>
      s.shutdown = none ∧ ∃ failures, Retried failures ∧
        s.log = attempts failures ++ [(.initializeDatabase, none)]
  | .startingIdentityKit =>
      s.shutdown = none ∧ ∃ failures, Retried failures ∧
        s.log = attempts failures ++ [(.initializeDatabase, none), (.connectCache, none)]
  | .serving =>
      s.shutdown = none ∧ ∃ failures, Retried failures ∧
        s.log = attempts failures ++ [(.initializeDatabase, none), (.connectCache, none),
          (.startIdentityKit, none)]
  | .stoppingIdentityKit pending => s.shutdown = none ∧ BlockEnds s.log pending
  | .stoppingInfrastructure pending =>
      s.shutdown.isSome ∧ ∃ block stop, BlockEnds block pending ∧ stop ≠ some .cancelled ∧
        s.log = block ++ [(.stopIdentityKit, stop)]
  | .ended raised =>
      (raised = some .cancelled ∧ s.shutdown = none ∧ ∃ block pending, BlockEnds block pending ∧
        s.log = block ++ [(.stopIdentityKit, some .cancelled)]) ∨
      ∃ block stop waited w, BlockEnds block raised ∧ stop ≠ some .cancelled ∧
        s.log = block ++ [(.stopIdentityKit, stop), (.stopInfrastructure, waited)] ∧
        s.shutdown = some w ∧ (waited = none → w.root.isDone = true)

/-! ## Every step keeps the history -/

section Steps

variable {shutdownTimeout : Int} {s s' : State}

theorem attempts_append (failures : List Failure) (e : Failure) :
    attempts (failures ++ [e]) = attempts failures ++ [(.initializeDatabase, some e)] := by
  simp [attempts]

/-- The first two waits of the exponential are below its minimum. -/
theorem waitExponential_of_lt {attempt : Nat} (h : attempt < maxAttempts) :
    waitExponential attempt = 4000 := by
  unfold maxAttempts at h
  obtain rfl | rfl | rfl : attempt = 0 ∨ attempt = 1 ∨ attempt = 2 := by omega
  all_goals rfl

theorem history_start : History start :=
  ⟨rfl, [], ⟨by decide, by simp⟩, rfl, rfl⟩

theorem history_attemptEnds {failures : List Failure} {failure : Option Failure} {jitter : Nat}
    (hjitter : jitter ≤ maxJitter) (hshutdown : s.shutdown = none) (hretried : Retried failures)
    (hlog : s.log = attempts failures) :
    History (s.attemptEnds (failures.length + 1) failure jitter) := by
  unfold State.attemptEnds
  split_ifs with hagain
  · rw [Bool.and_eq_true, decide_eq_true_eq] at hagain
    obtain ⟨hretry, hlt⟩ := hagain
    cases failure with
    | none => cases hretry
    | some e =>
        refine ⟨hshutdown, ?_, ?_, failures ++ [e], ⟨by simpa using hlt, ?_⟩, by simp, by simp, ?_⟩
        · rw [waitExponential_of_lt hlt]
          omega
        · rw [waitExponential_of_lt hlt]
          unfold maxJitter at hjitter
          omega
        · intro e' he'
          rcases List.mem_append.mp he' with hold | hnew
          · exact hretried.retryable e' hold
          · rwa [List.mem_singleton.mp hnew]
        · rw [attempts_append, ← hlog]
          rfl
  · cases failure with
    | none => exact ⟨hshutdown, failures, hretried, by rw [← hlog]; rfl⟩
    | some e =>
        refine ⟨hshutdown, ?_⟩
        have hlast : shouldRetryDbError (some e) = false ∨ failures.length + 1 = maxAttempts := by
          have hbound := hretried.bound
          cases hretry : shouldRetryDbError (some e) with
          | false => exact .inl rfl
          | true =>
              rw [hretry, Bool.true_and, decide_eq_true_eq] at hagain
              exact .inr (by omega)
        have hends := BlockEnds.database hretried hlast
        rwa [← hlog] at hends

/-- A failing call of the block ends it. -/
theorem history_proceed {call : Call} {failure : Option Failure} {next : Phase}
    (hshutdown : s.shutdown = none)
    (hraises : ∀ e, failure = some e → BlockEnds (s.log ++ [(call, some e)]) (some e))
    (hnext : failure = none → History (s.record call none next)) :
    History (s.proceed call failure next) := by
  cases failure with
  | none => exact hnext rfl
  | some e => exact ⟨hshutdown, hraises e rfl⟩

theorem history_identityKitStopped {pending failure : Option Failure}
    (hends : BlockEnds s.log pending) (hshutdown : s.shutdown = none) :
    History (s.identityKitStopped shutdownTimeout pending failure) := by
  unfold State.identityKitStopped
  split
  · exact .inl ⟨rfl, hshutdown, s.log, pending, hends, rfl⟩
  · rename_i hstop
    exact ⟨rfl, s.log, failure, hends, hstop, rfl⟩

theorem history_ends (h : History s) {failure : Option Failure} {jitter : Nat}
    (hstep : Step shutdownTimeout s (.ends failure jitter) s') : History s' := by
  simp only [Step, StepOf, step] at hstep
  unfold History at h
  split at hstep
  · rename_i attempt hphase
    rw [hphase] at h
    obtain ⟨hshutdown, failures, hretried, rfl, hlog⟩ := h
    split_ifs at hstep with hjitter
    obtain rfl := Option.some.inj hstep
    exact history_attemptEnds hjitter hshutdown hretried hlog
  · rename_i attempt wait hphase
    rw [hphase] at h
    obtain ⟨hshutdown, -, -, failures, hretried, hsome, rfl, hlog⟩ := h
    split at hstep
    · obtain rfl := Option.some.inj hstep
      exact ⟨hshutdown, failures, hretried, rfl, hlog⟩
    · split_ifs at hstep with hcancelled
      obtain rfl := Option.some.inj hstep
      subst hcancelled
      refine ⟨hshutdown, ?_⟩
      have hends := BlockEnds.sleep hretried hsome
      rwa [← hlog] at hends
  · rename_i hphase
    rw [hphase] at h
    obtain ⟨hshutdown, failures, hretried, hlog⟩ := h
    obtain rfl := Option.some.inj hstep
    refine history_proceed hshutdown (fun e _ => ?_) fun _ => ?_
    · rw [hlog, List.append_assoc]
      exact .cache hretried
    · refine ⟨hshutdown, failures, hretried, ?_⟩
      simp [State.record, hlog]
  · rename_i hphase
    rw [hphase] at h
    obtain ⟨hshutdown, failures, hretried, hlog⟩ := h
    obtain rfl := Option.some.inj hstep
    refine history_proceed hshutdown (fun e _ => ?_) fun _ => ?_
    · rw [hlog, List.append_assoc]
      exact .identityKit hretried
    · refine ⟨hshutdown, failures, hretried, ?_⟩
      simp [State.record, hlog]
  · rename_i hphase
    rw [hphase] at h
    obtain ⟨hshutdown, failures, hretried, hlog⟩ := h
    obtain rfl := Option.some.inj hstep
    refine ⟨hshutdown, ?_⟩
    have hends := BlockEnds.served failure hretried
    simpa [State.record, hlog] using hends
  · rename_i pending hphase
    rw [hphase] at h
    obtain rfl := Option.some.inj hstep
    exact history_identityKitStopped h.2 h.1
  · rename_i pending hphase
    rw [hphase] at h
    obtain ⟨-, block, stop, hends, hstop, hlog⟩ := h
    split at hstep
    · rename_i w hw
      split_ifs at hstep with hshield
      obtain rfl := Option.some.inj hstep
      refine .inr ⟨block, stop, failure, w, hends, hstop, ?_, hw, ?_⟩
      · simp [State.record, hlog]
      · rintro rfl
        exact hshield
    · cases hstep
  · cases hstep

theorem isDone_react {w : World Exn Resource Timer} (event : Event Exn Resource Timer)
    (h : w.root.isDone = true) : (w.react event).root.isDone = true := by
  obtain ⟨r, hr⟩ := exists_done h
  cases event with
  | ends i r' => simp [World.react, hr, settle, isDone]
  | expires t => simp [World.react, hr, expire, Left.of, isDone]

theorem history_shutdownStep (h : History s) {event : Event Exn Resource Timer}
    (hstep : Step shutdownTimeout s (.shutdownStep event) s') : History s' := by
  simp only [Step, StepOf, step] at hstep
  split at hstep
  · rename_i w hw
    obtain rfl := Option.some.inj hstep
    obtain ⟨phase, log, shutdown⟩ := s
    obtain rfl : shutdown = some w := hw
    cases phase with
    | stoppingInfrastructure pending => exact h
    | ended raised =>
        rcases h with ⟨-, hnone, -⟩ | ⟨block, stop, waited, w', hends, hstop, hlog, hw', hdone⟩
        · cases hnone
        · obtain rfl := Option.some.inj hw'
          exact .inr ⟨block, stop, waited, _, hends, hstop, hlog, rfl,
            fun hwaited => isDone_react event (hdone hwaited)⟩
    | _ => cases h.1
  · cases hstep

theorem history_step (s : State) (input : Input) (s' : State) (h : History s)
    (hstep : Step shutdownTimeout s input s') : History s' := by
  cases input with
  | ends failure jitter => exact history_ends h hstep
  | shutdownStep event => exact history_shutdownStep h hstep

theorem attemptEnds_shutdown (attempt : Nat) (failure : Option Failure) (jitter : Nat) :
    (s.attemptEnds attempt failure jitter).shutdown = s.shutdown := by
  unfold State.attemptEnds
  split_ifs <;> rfl

theorem identityKitStopped_shutdown (pending failure : Option Failure) :
    (s.identityKitStopped shutdownTimeout pending failure).shutdown = s.shutdown ∨
      (s.identityKitStopped shutdownTimeout pending failure).shutdown =
        some (.start (shutdownInfrastructure shutdownTimeout)) := by
  unfold State.identityKitStopped
  split
  · exact .inl rfl
  · exact .inr rfl

/-- What the lifespan itself does begins the shutdown or leaves it alone. -/
theorem shutdown_ends (h : History s) {failure : Option Failure} {jitter : Nat}
    (hstep : Step shutdownTimeout s (.ends failure jitter) s') :
    s'.shutdown = s.shutdown ∨
      s.shutdown = none ∧
        s'.shutdown = some (.start (shutdownInfrastructure shutdownTimeout)) := by
  simp only [Step, StepOf, step] at hstep
  unfold History at h
  split at hstep
  · split_ifs at hstep
    obtain rfl := Option.some.inj hstep
    exact .inl (attemptEnds_shutdown _ _ _)
  · split at hstep
    · obtain rfl := Option.some.inj hstep
      exact .inl rfl
    · split_ifs at hstep
      obtain rfl := Option.some.inj hstep
      exact .inl rfl
  · obtain rfl := Option.some.inj hstep
    exact .inl rfl
  · obtain rfl := Option.some.inj hstep
    exact .inl rfl
  · obtain rfl := Option.some.inj hstep
    exact .inl rfl
  · rename_i pending hphase
    rw [hphase] at h
    obtain rfl := Option.some.inj hstep
    exact (identityKitStopped_shutdown _ _).imp_right fun hnew => ⟨h.1, hnew⟩
  · split at hstep
    · split_ifs at hstep
      obtain rfl := Option.some.inj hstep
      exact .inl rfl
    · cases hstep
  · cases hstep

/-- The ends and timeouts inside the shutdown, in order. -/
def shutdownEvents (inputs : List Input) : List (Event Exn Resource Timer) :=
  inputs.filterMap fun
    | .ends .. => none
    | .shutdownStep event => some event

/-- The shutdown runs as `shutdown_infrastructure` does on these events, whatever becomes
of the lifespan. -/
structure ShutdownRuns (shutdownTimeout : Int) (events : List (Event Exn Resource Timer))
    (s : State) : Prop where
  notBegun : s.shutdown = none → events = []
  runs : ∀ w, s.shutdown = some w →
    w = (World.start (shutdownInfrastructure shutdownTimeout)).run events

theorem shutdownRuns_step {inputs : List Input} {input : Input} (hhistory : History s)
    (h : ShutdownRuns shutdownTimeout (shutdownEvents inputs) s)
    (hstep : Step shutdownTimeout s input s') :
    ShutdownRuns shutdownTimeout (shutdownEvents (inputs ++ [input])) s' := by
  cases input with
  | ends failure jitter =>
      have hevents : shutdownEvents (inputs ++ [.ends failure jitter]) = shutdownEvents inputs := by
        simp [shutdownEvents]
      rw [hevents]
      rcases shutdown_ends hhistory hstep with hsame | ⟨hnone, hnew⟩
      · exact ⟨fun hs => h.notBegun (hsame.symm.trans hs),
          fun w hw => h.runs w (hsame.symm.trans hw)⟩
      · rw [h.notBegun hnone]
        refine ⟨fun _ => rfl, fun w hw => ?_⟩
        rw [hnew] at hw
        exact (Option.some.inj hw).symm
  | shutdownStep event =>
      simp only [Step, StepOf, step] at hstep
      split at hstep
      · rename_i w hw
        obtain rfl := Option.some.inj hstep
        refine ⟨fun hs => (nomatch hs), fun w' hw' => ?_⟩
        obtain rfl := Option.some.inj hw'
        rw [h.runs w hw]
        simp [shutdownEvents, World.run]
      · cases hstep

theorem shutdownRuns_run {inputs : List Input}
    (hrun : Run (Step shutdownTimeout) start inputs s) :
    ShutdownRuns shutdownTimeout (shutdownEvents inputs) s := by
  induction hrun with
  | refl => exact ⟨fun _ => rfl, fun w hw => (nomatch hw)⟩
  | tail hpre hlast ih =>
      exact shutdownRuns_step (hpre.invariant history_step history_start) ih hlast

end Steps

/-! ## Every run -/

structure LifespanContract (inputs : List Input) (s : State) : Prop where
  /-- The calls happen in order and at most once each, but for at most three attempts. -/
  history : History s
  notBegun : s.shutdown = none → shutdownEvents inputs = []
  /-- A shutdown that was begun ends, or goes on, as its own events say. -/
  shutdown : ∀ w, s.shutdown = some w → ShutdownContract (shutdownEvents inputs) w

/-- However the application fails to start or stops, the identity kit is stopped once and
the infrastructure is shut down once, unless stopping the kit is cancelled; what is raised
in the end is the failure of the block, and no retry follows an error that cannot pass. -/
theorem lifespan_contract {shutdownTimeout : Int} (htimeout : 0 < shutdownTimeout)
    {inputs : List Input} {s : State} (hrun : Run (Step shutdownTimeout) start inputs s) :
    LifespanContract inputs s where
  history := hrun.invariant history_step history_start
  notBegun := (shutdownRuns_run hrun).notBegun
  shutdown := by
    intro w hw
    rw [(shutdownRuns_run hrun).runs w hw]
    exact Shutdown.shutdownContract_run htimeout _

/-- The first attempt fails and the second one does not. -/
def secondAttempt : List Input :=
  .ends (some .exception) 500 :: .replicate 6 (.ends none 0) ++
    [.shutdownStep (.ends .redis .value), .shutdownStep (.ends .postgres .value), .ends none 0]

theorem lifespan_contract_secondAttempt :
    ∃ s, s.phase = .ended none ∧ s.log.head? = some (.initializeDatabase, some .exception) ∧
      LifespanContract secondAttempt s :=
  have hrun : Run (Step 10000) start secondAttempt _ := run_of_foldlM rfl
  ⟨_, rfl, rfl, lifespan_contract (by decide) hrun⟩

end BackendProdReady.Lifecycle.Lifespan
