import BackendProdReady.Exceptions.Classes
import Mathlib.Data.List.Induction
import Mathlib.Logic.Function.Basic

/-!
# The recorded states of the circuit breakers

`observable_circuit_breaker` calls a function inside the context of a breaker and
records its outcome in the registry and in the metrics.  An open breaker raises on
entry to the context, outside the `try` that records, so a rejection leaves the
recorded state as the calls before it left it.
-/

namespace BackendProdReady.Security.CircuitBreaker

open BackendProdReady.Exceptions.Classes

/-! ## The registry and the metrics -/

/-- `_states`, the last value of `circuit_breaker_state` for each name, and the two
counters. -/
structure Registry where
  states : String → Option String
  recordedState : String → Option String
  failures : String → Nat
  successes : String → Nat

namespace Registry

def init : Registry := ⟨fun _ => none, fun _ => none, fun _ => 0, fun _ => 0⟩

def recordCircuitBreakerState (name state : String) (registry : Registry) : Registry :=
  { registry with recordedState := Function.update registry.recordedState name (some state) }

def setState (name state : String) (registry : Registry) : Registry :=
  { registry with states := Function.update registry.states name (some state) }

def recordCircuitBreakerFailure (name : String) (registry : Registry) : Registry :=
  { registry with failures := Function.update registry.failures name (registry.failures name + 1) }

def recordCircuitBreakerSuccess (name : String) (registry : Registry) : Registry :=
  { registry with
    successes := Function.update registry.successes name (registry.successes name + 1) }

def logCircuitOpen (breakerName : String) (registry : Registry) : Registry :=
  (registry.setState breakerName "open").recordCircuitBreakerState breakerName "open"

def logCircuitSuccess (breakerName : String) (registry : Registry) : Registry :=
  let recorded := (registry.recordCircuitBreakerSuccess breakerName).recordCircuitBreakerState
    breakerName "closed"
  if (registry.states breakerName).getD "closed" = "open" then
    recorded.setState breakerName "closed"
  else recorded

def logCircuitFailure (breakerName : String) (registry : Registry) : Registry :=
  registry.recordCircuitBreakerFailure breakerName

end Registry

/-! ## Calls -/

/-- purgatory's class, which is imported as `CircuitBreakerOpen`. -/
def circuitBreakerOpen : ExcClass := .other "OpenedState"

inductive Outcome
  /-- The context of the breaker raises `CircuitBreakerOpen` on entry. -/
  | rejected
  | returned
  | raised (e : Exc)

structure Call where
  breakerName : String
  outcome : Outcome

def wrapper (registry : Registry) (call : Call) : Registry :=
  match call.outcome with
  | .rejected => registry
  | .returned => registry.logCircuitSuccess call.breakerName
  | .raised e =>
      if e.isInstance [circuitBreakerOpen] then registry.logCircuitOpen call.breakerName
      else if e.isInstance [.exception] then registry.logCircuitFailure call.breakerName
      else registry

def afterCalls (history : List Call) : Registry := history.foldl wrapper .init

/-- What the recorded state of a name must be after a call. -/
structure Follows (registry : Registry) (call : Call) : Prop where
  opened : call.outcome = .rejected →
    registry.states call.breakerName = some "open" ∧
      registry.recordedState call.breakerName = some "open"
  closed : call.outcome = .returned →
    (registry.states call.breakerName).getD "closed" = "closed" ∧
      registry.recordedState call.breakerName = some "closed"

/-! ## What a history leaves -/

/-- The wrapped function itself raised `CircuitBreakerOpen`, and no call of the
name has succeeded since. -/
def openRaised (name : String) (history : List Call) : Bool :=
  history.foldl (fun opened call =>
    if call.breakerName = name then
      match call.outcome with
      | .rejected => opened
      | .returned => false
      | .raised e => if e.isInstance [circuitBreakerOpen] then true else opened
    else opened) false

theorem openRaised_append (name : String) (history : List Call) (call : Call) :
    openRaised name (history ++ [call]) =
      if call.breakerName = name then
        match call.outcome with
        | .rejected => openRaised name history
        | .returned => false
        | .raised e => if e.isInstance [circuitBreakerOpen] then true else openRaised name history
      else openRaised name history := by
  simp only [openRaised, List.foldl_append, List.foldl_cons, List.foldl_nil]

theorem afterCalls_append (history : List Call) (call : Call) :
    afterCalls (history ++ [call]) = wrapper (afterCalls history) call := by
  simp [afterCalls]

/-- How the registry reads a name: open in both places, or closed in both. -/
structure Reads (registry : Registry) (name : String) (opened : Bool) : Prop where
  states : (registry.states name).getD "closed" = if opened then "open" else "closed"
  recorded : (registry.recordedState name).getD "closed" = if opened then "open" else "closed"

theorem Reads.of_eq {registry other : Registry} {name : String} {opened : Bool}
    (h : Reads registry name opened) (hstates : other.states name = registry.states name)
    (hrecorded : other.recordedState name = registry.recordedState name) :
    Reads other name opened :=
  ⟨hstates ▸ h.states, hrecorded ▸ h.recorded⟩

theorem reads_logCircuitOpen (registry : Registry) (name : String) :
    Reads (registry.logCircuitOpen name) name true := by
  constructor <;>
    simp [Registry.logCircuitOpen, Registry.recordCircuitBreakerState, Registry.setState]

theorem reads_logCircuitSuccess {registry : Registry} {name : String} {opened : Bool}
    (h : Reads registry name opened) : Reads (registry.logCircuitSuccess name) name false := by
  unfold Registry.logCircuitSuccess
  by_cases hopen : (registry.states name).getD "closed" = "open"
  · rw [if_pos hopen]
    constructor <;> simp [Registry.recordCircuitBreakerState, Registry.setState]
  · rw [if_neg hopen]
    have hclosed := h.states
    cases opened with
    | true => exact absurd hclosed hopen
    | false =>
        constructor
        · simpa [Registry.recordCircuitBreakerState, Registry.recordCircuitBreakerSuccess]
            using hclosed
        · simp [Registry.recordCircuitBreakerState]

theorem logCircuitSuccess_recorded (registry : Registry) (name : String) :
    (registry.logCircuitSuccess name).recordedState name = some "closed" := by
  unfold Registry.logCircuitSuccess
  split <;> simp [Registry.recordCircuitBreakerState, Registry.setState]

theorem wrapper_of_ne (registry : Registry) {call : Call} {name : String}
    (h : name ≠ call.breakerName) :
    (wrapper registry call).states name = registry.states name ∧
      (wrapper registry call).recordedState name = registry.recordedState name := by
  unfold wrapper
  cases call.outcome with
  | rejected => exact ⟨rfl, rfl⟩
  | returned =>
      by_cases hopen : (registry.states call.breakerName).getD "closed" = "open" <;>
        simp [Registry.logCircuitSuccess, hopen, Registry.recordCircuitBreakerState,
          Registry.recordCircuitBreakerSuccess, Registry.setState, h]
  | raised e =>
      dsimp only
      split_ifs
      · simp [Registry.logCircuitOpen, Registry.recordCircuitBreakerState, Registry.setState, h]
      · exact ⟨rfl, rfl⟩
      · exact ⟨rfl, rfl⟩

/-- After every history the registry reads a name as the history left it. -/
theorem reads_afterCalls (name : String) (history : List Call) :
    Reads (afterCalls history) name (openRaised name history) := by
  induction history using List.reverseRecOn with
  | nil => exact ⟨rfl, rfl⟩
  | append_singleton history call ih =>
      rw [afterCalls_append, openRaised_append]
      by_cases hname : call.breakerName = name
      · subst hname
        rw [if_pos rfl]
        cases houtcome : call.outcome with
        | rejected =>
            rw [wrapper, houtcome]
            exact ih
        | returned =>
            rw [wrapper, houtcome]
            exact reads_logCircuitSuccess ih
        | raised e =>
            simp only [wrapper, houtcome]
            split_ifs
            · exact reads_logCircuitOpen _ _
            · exact ih.of_eq rfl rfl
            · exact ih
      · rw [if_neg hname]
        obtain ⟨hstates, hrecorded⟩ := wrapper_of_ne (afterCalls history) (Ne.symm hname)
        exact ih.of_eq hstates hrecorded

/-! ## Main result -/

theorem eq_some_of_getD {state : Option String} (h : state.getD "closed" = "open") :
    state = some "open" := by
  cases state with
  | none => exact absurd h (by decide)
  | some text => exact congrArg some h

/-- After every call of every history the recorded state follows the breaker, unless
the call was rejected and no call before it had the name recorded as open. -/
theorem state_follows_iff (history : List Call) (call : Call) :
    Follows (afterCalls (history ++ [call])) call ↔
      (call.outcome = .rejected → openRaised call.breakerName history = true) := by
  have hreads := reads_afterCalls call.breakerName (history ++ [call])
  rw [openRaised_append, if_pos rfl] at hreads
  constructor
  · intro hfollows hrejected
    simp only [hrejected] at hreads
    have hstates := hreads.states
    rw [(hfollows.opened hrejected).1] at hstates
    by_contra hclosed
    rw [if_neg hclosed] at hstates
    exact absurd hstates (by decide)
  · intro hcondition
    constructor
    · intro hrejected
      simp only [hrejected, hcondition hrejected] at hreads
      exact ⟨eq_some_of_getD hreads.states, eq_some_of_getD hreads.recorded⟩
    · intro hreturned
      simp only [hreturned] at hreads
      refine ⟨hreads.states, ?_⟩
      rw [afterCalls_append, wrapper, hreturned]
      exact logCircuitSuccess_recorded _ _

/-- Five failures open the breaker; the call that it rejects next leaves its name
unrecorded. -/
theorem rejection_not_recorded :
    let failure : Call := ⟨"telegram", .raised (.runtimeError "Telegram is down")⟩
    let rejection : Call := ⟨"telegram", .rejected⟩
    let registry := afterCalls (List.replicate 5 failure ++ [rejection])
    registry.states "telegram" = none ∧ registry.recordedState "telegram" = none ∧
      registry.failures "telegram" = 5 ∧ ¬ Follows registry rejection := by
  refine ⟨rfl, rfl, rfl, fun hfollows => ?_⟩
  cases (hfollows.opened rfl).1

end BackendProdReady.Security.CircuitBreaker
