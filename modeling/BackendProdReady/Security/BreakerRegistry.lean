import BackendProdReady.Lib.LazyCells

/-!
# The registry of the circuit breakers

`get_instance` and `get_factory` are both filled on first use under a lock of their own:
the class holds the one registry, and the registry a factory for each type.  The factory's
reset timeout has a random part, so that two factories of a type would differ.  `reset`,
which is for tests, is left out.
-/

namespace BackendProdReady.Security.BreakerRegistry

open BackendProdReady.Lib.Runs
open BackendProdReady.Lib.Tasks
open BackendProdReady.Lib.LazyCells

/-! ## Factories -/

inductive CircuitBreakerType
  | database
  | redis
  | externalApi
deriving DecidableEq

structure Settings where
  failureThreshold : CircuitBreakerType → Nat
  resetTimeout : CircuitBreakerType → Nat

/-- `AsyncCircuitBreakerFactory(default_threshold, default_ttl)`. -/
structure Factory where
  defaultThreshold : Nat
  defaultTtl : Nat
deriving DecidableEq

/-- `random.uniform(0, 0.2) * base_timeout` adds `jitter` whole seconds to the timeout. -/
def applyJitter (baseTimeout jitter : Nat) : Nat := baseTimeout + jitter

def getConfig (settings : Settings) (type : CircuitBreakerType) (jitter : Nat) : Factory :=
  ⟨settings.failureThreshold type, applyJitter (settings.resetTimeout type) jitter⟩

/-- The factories that `get_factory` may create for a type. -/
def configured (settings : Settings) (type : CircuitBreakerType) (factory : Factory) : Bool :=
  (List.range (settings.resetTimeout type / 5 + 1)).any fun jitter =>
    factory = getConfig settings type jitter

theorem ttl_of_configured {settings : Settings} {type : CircuitBreakerType} {factory : Factory}
    (h : configured settings type factory = true) :
    factory.defaultThreshold = settings.failureThreshold type ∧
      settings.resetTimeout type ≤ factory.defaultTtl ∧
      factory.defaultTtl ≤ settings.resetTimeout type + settings.resetTimeout type / 5 := by
  simp only [configured, List.any_eq_true, List.mem_range, decide_eq_true_eq] at h
  obtain ⟨jitter, hjitter, rfl⟩ := h
  refine ⟨rfl, Nat.le_add_right _ _, ?_⟩
  change settings.resetTimeout type + jitter ≤ _
  omega

/-! ## The two levels -/

/-- The class's registry, by number, and what each registry object holds. -/
structure World where
  instanceCell : Cells Unit Nat
  registries : Nat → Cells CircuitBreakerType Factory

inductive Input
  | getInstance (e : Event Unit Nat)
  /-- A thread that `get_instance` has returned a registry to. -/
  | getFactory (thread : Nat) (type : CircuitBreakerType)
  | registryStep (registry : Nat) (e : Event CircuitBreakerType Factory)

def start : World := ⟨.empty, fun _ => .empty⟩

def World.set (w : World) (registry : Nat) (c : Cells CircuitBreakerType Factory) : World :=
  { w with registries := Function.update w.registries registry c }

def step (settings : Settings) (w : World) : Input → Option World
  | .getInstance e => (w.instanceCell.step (fun _ _ => true) e).map fun c =>
      { w with instanceCell := c }
  | .getFactory thread type =>
      match w.instanceCell.threads[thread]? with
      | some (.returned _ registry) =>
          some (w.set registry ((w.registries registry).call type))
      | _ => none
  | .registryStep registry e =>
      if e.isCall then none
      else
        ((w.registries registry).step (configured settings) e).map (w.set registry)

def Step (settings : Settings) : World → Input → World → Prop := StepOf (step settings)

structure Safe (settings : Settings) (w : World) : Prop where
  instanceInv : Inv (fun _ _ => true) w.instanceCell
  registryInv : ∀ registry, Inv (configured settings) (w.registries registry)
  used : ∀ registry, (w.registries registry).threads ≠ [] →
    w.instanceCell.value () = some registry

section Steps

variable {settings : Settings} {w w' : World}

theorem safe_start : Safe settings start :=
  ⟨inv_empty, fun _ => inv_empty, fun _ hthreads => absurd rfl hthreads⟩

theorem threads_ne_nil_of_step {c c' : Cells CircuitBreakerType Factory}
    {e : Event CircuitBreakerType Factory} {valid : CircuitBreakerType → Factory → Bool}
    (hcall : e.isCall = false) (hstep : c.step valid e = some c') : c.threads ≠ [] := by
  intro hnil
  cases e with
  | call k => cases hcall
  | proceed i =>
      simp only [Cells.step, Cells.proceed, hnil, List.getElem?_nil] at hstep
      cases hstep
  | create i v =>
      simp only [Cells.step, Cells.create, hnil, List.getElem?_nil] at hstep
      cases hstep

theorem registryInv_set {registry : Nat} {c : Cells CircuitBreakerType Factory}
    (h : ∀ registry, Inv (configured settings) (w.registries registry))
    (hc : Inv (configured settings) c) (other : Nat) :
    Inv (configured settings) ((w.set registry c).registries other) := by
  change Inv (configured settings) (Function.update w.registries registry c other)
  rw [Function.update_apply]
  split_ifs
  · exact hc
  · exact h other

theorem used_set {registry : Nat} {c : Cells CircuitBreakerType Factory}
    (h : ∀ registry, (w.registries registry).threads ≠ [] →
      w.instanceCell.value () = some registry)
    (hregistry : w.instanceCell.value () = some registry) (other : Nat)
    (hother : ((w.set registry c).registries other).threads ≠ []) :
    w.instanceCell.value () = some other := by
  by_cases heq : other = registry
  · rw [heq]
    exact hregistry
  · refine h other ?_
    change (Function.update w.registries registry c other).threads ≠ [] at hother
    rwa [Function.update_of_ne heq] at hother

theorem safe_step (w : World) (input : Input) (w' : World) (h : Safe settings w)
    (hstep : Step settings w input w') : Safe settings w' := by
  simp only [Step, StepOf] at hstep
  cases input with
  | getInstance e =>
      simp only [step, Option.map_eq_some_iff] at hstep
      obtain ⟨c, hc, rfl⟩ := hstep
      exact ⟨inv_step _ e _ h.instanceInv hc, h.registryInv, fun registry hthreads =>
        value_step h.instanceInv hc (h.used registry hthreads)⟩
  | getFactory thread type =>
      simp only [step] at hstep
      split at hstep
      · rename_i registry hthread
        obtain rfl := Option.some.inj hstep
        have hvalue : w.instanceCell.value () = some registry := h.instanceInv.phases _ _ hthread
        exact ⟨h.instanceInv,
          registryInv_set h.registryInv (inv_call (h.registryInv registry) type),
          used_set h.used hvalue⟩
      · cases hstep
  | registryStep registry e =>
      simp only [step] at hstep
      split_ifs at hstep with hcall
      obtain ⟨c, hc, rfl⟩ := Option.map_eq_some_iff.mp hstep
      have hthreads := threads_ne_nil_of_step (Bool.eq_false_iff.mpr hcall) hc
      exact ⟨h.instanceInv,
        registryInv_set h.registryInv (inv_step _ e _ (h.registryInv registry) hc),
        used_set h.used (h.used registry hthreads)⟩

end Steps

/-! ## Every interleaving -/

def InInstance (w : World) (thread : Nat) (phase : Phase Unit Nat) : Prop :=
  w.instanceCell.threads[thread]? = some phase

def At (w : World) (registry thread : Nat) (phase : Phase CircuitBreakerType Factory) : Prop :=
  (w.registries registry).threads[thread]? = some phase

structure RegistryContract (settings : Settings) (w : World) : Prop where
  oneRegistry : ∀ i j r r', InInstance w i (.returned () r) → InInstance w j (.returned () r') →
    r = r'
  oneFactory : ∀ r r' i j type f f', At w r i (.returned type f) →
    At w r' j (.returned type f') → f = f'
  createdOnce : ∀ r, ((w.registries r).created.map Prod.fst).Nodup
  settingsUsed : ∀ r i type f, At w r i (.returned type f) →
    f.defaultThreshold = settings.failureThreshold type ∧
      settings.resetTimeout type ≤ f.defaultTtl ∧
      f.defaultTtl ≤ settings.resetTimeout type + settings.resetTimeout type / 5
  noKeyError : ∀ r i type, ¬ At w r i (.missing type)
  /-- While a call is unfinished, the lock that it may need is free or its holder can go on. -/
  noInstanceDeadlock : ∀ i phase, InInstance w i phase → phase.finished = false →
    ∃ e w', Step settings w (.getInstance e) w'
  noDeadlock : ∀ r i phase, At w r i phase → phase.finished = false →
    ∃ e w', Step settings w (.registryStep r e) w'

theorem threads_ne_nil {w : World} {r i : Nat} {phase : Phase CircuitBreakerType Factory}
    (h : At w r i phase) : (w.registries r).threads ≠ [] := by
  intro hnil
  rw [At, hnil, List.getElem?_nil] at h
  cases h

theorem noDeadlock_of_safe {settings : Settings} {w : World} (h : Safe settings w) {r i : Nat}
    {phase : Phase CircuitBreakerType Factory} (hphase : At w r i phase)
    (hunfinished : phase.finished = false) :
    ∃ e w', Step settings w (.registryStep r e) w' := by
  obtain ⟨e, c, hcall, hstep⟩ := canProceed (h.registryInv r) hphase hunfinished
  refine ⟨e, w.set r c, ?_⟩
  simp only [Step, StepOf, step]
  rw [if_neg (by simp [hcall])]
  exact Option.map_eq_some_iff.mpr ⟨c, hstep, rfl⟩

/-- Two threads look for the Redis factory; the second one arrives while the first one still
creates it. -/
def twoThreads : List Input :=
  [.getInstance (.call ()), .getInstance (.proceed 0), .getInstance (.proceed 0),
    .getInstance (.proceed 0), .getInstance (.create 0 (some 0)), .getInstance (.proceed 0),
    .getInstance (.proceed 0), .getInstance (.proceed 0), .getFactory 0 .redis,
    .registryStep 0 (.proceed 0), .registryStep 0 (.proceed 0), .registryStep 0 (.proceed 0),
    .getFactory 0 .redis, .registryStep 0 (.proceed 1),
    .registryStep 0 (.create 0 (some ⟨3, 33⟩)), .registryStep 0 (.proceed 0),
    .registryStep 0 (.proceed 0), .registryStep 0 (.proceed 1), .registryStep 0 (.proceed 1),
    .registryStep 0 (.proceed 1), .registryStep 0 (.proceed 1)]

end BackendProdReady.Security.BreakerRegistry
