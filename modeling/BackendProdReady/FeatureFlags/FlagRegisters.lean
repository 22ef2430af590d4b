import BackendProdReady.FeatureFlags.Acknowledgement

/-!
# Feature flags as registers

Each flag is a register that expires or does not: `set_flag` writes it, `clear_flag` empties
it, and a read that Redis does not answer gives the default.  The nine reads of
`get_all_flags` are nine calls, between which anything can happen.
-/

namespace BackendProdReady.FeatureFlags.FlagRegisters

open BackendProdReady.Lib.ExpiringStore
open BackendProdReady.Lib.Runs
open BackendProdReady.Cache.Operations (Keyspace Fate BreakerError deadline)
open BackendProdReady.FeatureFlags.Acknowledgement

/-! ## Source -/

/-- The members of `FeatureFlag`. -/
def allFlags : List FeatureFlag :=
  [.paddleWebhooksEnabled, .stripeWebhooksEnabled, .subscriptionRenewalsEnabled,
    .telegramNotificationsEnabled, .emailNotificationsEnabled, .rateLimitingEnabled,
    .newUserRegistrationEnabled, .maintenanceMode, .readOnlyMode]

structure Read where
  flag : FeatureFlag
  served : Served
  others : List Event

def readFlags : List Read → State → Except BreakerError (List (String × Bool)) × State
  | [], s => (.ok [], s)
  | read :: reads, s =>
      match isEnabled read.served read.flag true (read.others.foldl afterEvent s) with
      | (.error e, s) => (.error e, s)
      | (.ok enabled, s) =>
          match readFlags reads s with
          | (.error e, s) => (.error e, s)
          | (.ok flags, s) => (.ok ((read.flag.value, enabled) :: flags), s)

def reads (served : FeatureFlag → Served) (others : FeatureFlag → List Event) : List Read :=
  allFlags.map fun flag => ⟨flag, served flag, others flag⟩

def getAllFlags (served : FeatureFlag → Served) (others : FeatureFlag → List Event) (s : State) :
    Except BreakerError (List (String × Bool)) × State :=
  readFlags (reads served others) s

def setMaintenanceMode (served : Served) (enabled : Bool) (s : State) :
    Except BreakerError Unit × State :=
  setFlag served .maintenanceMode enabled none s

def isMaintenanceMode (served : Served) (s : State) : Except BreakerError Bool × State :=
  isEnabled served .maintenanceMode false s

/-! ## Registers -/

structure Register where
  enabled : Bool
  expiry : Option Nat

/-- What the flags are for: one register each, and the time. -/
structure Registers where
  now : Nat
  registers : FeatureFlag → Option Register

namespace Registers

def empty (now : Nat) : Registers := ⟨now, fun _ => none⟩

def put (r : Registers) (flag : FeatureFlag) (register : Option Register) : Registers :=
  ⟨r.now, Function.update r.registers flag register⟩

@[simp] theorem put_self (r : Registers) (flag : FeatureFlag) (register : Option Register) :
    (r.put flag register).registers flag = register := by
  simp [put]

theorem put_of_ne (r : Registers) {flag other : FeatureFlag} (h : other ≠ flag)
    (register : Option Register) : (r.put flag register).registers other = r.registers other := by
  simp [put, h]

/-- A call that reaches Redis changes the register of its flag. -/
def afterEvent (r : Registers) : Event → Registers
  | .advance ms => ⟨r.now + ms, r.registers⟩
  | .setFlag served flag enabled persistent =>
      if served.writes then
        r.put flag (some ⟨enabled, (ttlOf flag persistent).map (deadline r.now)⟩)
      else r
  | .clearFlag served flag => if served.writes then r.put flag none else r
  | _ => r

/-- The register if it is set and has not expired, else the default. -/
def read (r : Registers) (flag : FeatureFlag) (default : Bool) : Bool :=
  match r.registers flag with
  | none => default
  | some register =>
      match register.expiry with
      | none => register.enabled
      | some expiry => if r.now ≤ expiry then register.enabled else default

def isEnabled (r : Registers) (served : Served) (flag : FeatureFlag) (default : Bool) : Bool :=
  if served = .redis .answered then r.read flag default else default

def readFlags : List Read → Registers → List (String × Bool)
  | [], _ => []
  | read :: reads, r =>
      let r := read.others.foldl afterEvent r
      (read.flag.value, r.isEnabled read.served read.flag true) :: readFlags reads r

end Registers

/-! ## Refinement -/

def Register.entry (register : Register) : Entry String :=
  ⟨if register.enabled then "true" else "false", register.expiry⟩

/-- The keys of the flags hold the registers. -/
structure Refines (s : State) (r : Registers) : Prop where
  now : s.now = r.now
  keys : ∀ flag, s.keys (buildKey flag) = (r.registers flag).map Register.entry

/-- The read is not served by the fallback, and the circuit breaker lets it through. -/
def asksRedis : Served → Bool
  | .redis .rejected | .inMemory => false
  | _ => true

section Refinement

variable {s : State} {r : Registers}

theorem clearFlag_eq (served : Served) (flag : FeatureFlag) (s : State) :
    (clearFlag served flag s).2.keys =
        (if served.writes then s.keys.remove (buildKey flag) else s.keys) ∧
      (clearFlag served flag s).2.now = s.now := by
  cases served with
  | redis fate => cases fate <;> exact ⟨rfl, rfl⟩
  | inMemory => exact ⟨rfl, rfl⟩
  | unavailable => exact ⟨rfl, rfl⟩

theorem Refines.put (h : Refines s r) {t : State} {flag : FeatureFlag}
    {register : Option Register} (hnow : t.now = s.now)
    (hflag : t.keys (buildKey flag) = register.map Register.entry)
    (hothers : ∀ other, other ≠ flag → t.keys (buildKey other) = s.keys (buildKey other)) :
    Refines t (r.put flag register) := by
  refine ⟨hnow.trans h.now, fun other => ?_⟩
  by_cases hother : other = flag
  · subst hother
    rw [Registers.put_self, hflag]
  · rw [Registers.put_of_ne r hother, hothers other hother, h.keys]

theorem Refines.congr (h : Refines s r) {t : State} (hkeys : t.keys = s.keys)
    (hnow : t.now = s.now) : Refines t r :=
  ⟨hnow.trans h.now, fun flag => (congrFun hkeys _).trans (h.keys flag)⟩

theorem Refines.setFlag (h : Refines s r) (served : Served) (flag : FeatureFlag)
    (enabled : Bool) (persistent : Option Bool) :
    Refines (setFlag served flag enabled persistent s).2
      (r.afterEvent (.setFlag served flag enabled persistent)) := by
  obtain ⟨hkeys, hnow⟩ := setFlag_eq served flag enabled persistent s
  simp only [Registers.afterEvent]
  split_ifs at hkeys ⊢
  · refine h.put hnow ?_ fun other hother => ?_
    · rw [hkeys, Store.put_self, flagEntry, h.now]
      rfl
    · rw [hkeys, Store.put_of_ne fun heq => hother (buildKey_injective heq)]
  · exact h.congr hkeys hnow

theorem Refines.clearFlag (h : Refines s r) (served : Served) (flag : FeatureFlag) :
    Refines (clearFlag served flag s).2 (r.afterEvent (.clearFlag served flag)) := by
  obtain ⟨hkeys, hnow⟩ := clearFlag_eq served flag s
  simp only [Registers.afterEvent]
  split_ifs at hkeys ⊢
  · refine h.put hnow ?_ fun other hother => ?_
    · rw [hkeys, Store.remove_self, Option.map_none]
    · rw [hkeys, Store.remove_of_ne fun heq => hother (buildKey_injective heq)]
  · exact h.congr hkeys hnow

theorem Refines.afterEvent (h : Refines s r) (event : Event) :
    Refines (afterEvent s event) (r.afterEvent event) := by
  cases event with
  | advance ms => exact ⟨congrArg (· + ms) h.now, h.keys⟩
  | isEnabled served flag default =>
      obtain ⟨hkeys, hnow⟩ := isEnabled_frame served flag default s
      exact h.congr hkeys hnow
  | setFlag served flag enabled persistent => exact h.setFlag served flag enabled persistent
  | clearFlag served flag => exact h.clearFlag served flag
  | otherKey key hkey entry =>
      refine ⟨h.now, fun flag => ?_⟩
      show Function.update s.keys key entry (buildKey flag) = _
      rw [Function.update_of_ne (hkey flag).symm, h.keys]
      rfl
  | otherMemory memory => exact ⟨h.now, h.keys⟩

theorem Refines.foldl (h : Refines s r) (events : List Event) :
    Refines (events.foldl Acknowledgement.afterEvent s) (events.foldl Registers.afterEvent r) := by
  induction events generalizing s r with
  | nil => exact h
  | cons event events ih => exact ih (h.afterEvent event)

theorem Refines.interpret (h : Refines s r) (flag : FeatureFlag) (default : Bool) :
    interpret default (s.keys.find s.now (buildKey flag)) = r.read flag default := by
  have hkey := h.keys flag
  unfold Store.find Registers.read
  rw [hkey, h.now]
  cases hregister : r.registers flag with
  | none => rfl
  | some register =>
      have hparse : parseValue register.entry.value = some register.enabled :=
        parseValue_text register.enabled
      simp only [Option.map_some]
      cases hexpiry : register.expiry with
      | none =>
          have hlive : register.entry.live r.now = true := by
            simp [Entry.live, Register.entry, hexpiry]
          rw [if_pos hlive, Acknowledgement.interpret, hparse, Option.getD_some]
      | some expiry =>
          have hlive : register.entry.live r.now = true ↔ r.now ≤ expiry :=
            Entry.live_iff hexpiry r.now
          by_cases hle : r.now ≤ expiry
          · rw [if_pos (hlive.mpr hle), Acknowledgement.interpret, hparse, Option.getD_some]
            simp [hle]
          · rw [if_neg fun hl => hle (hlive.mp hl)]
            simp [hle, Acknowledgement.interpret]

theorem Refines.isEnabled (h : Refines s r) {served : Served} (hserved : asksRedis served = true)
    (flag : FeatureFlag) (default : Bool) :
    (isEnabled served flag default s).1 = .ok (r.isEnabled served flag default) := by
  cases served with
  | redis fate =>
      cases fate with
      | answered =>
          rw [isEnabled_answered, h.interpret]
          rfl
      | failed => rfl
      | replyLost => rfl
      | rejected => cases hserved
  | inMemory => cases hserved
  | unavailable => rfl

theorem Refines.readFlags (h : Refines s r) {reads : List Read}
    (hreads : ∀ read ∈ reads, asksRedis read.served = true) :
    (FlagRegisters.readFlags reads s).1 = .ok (Registers.readFlags reads r) := by
  induction reads generalizing s r with
  | nil => rfl
  | cons read reads ih =>
      have hbefore := h.foldl read.others
      have hread := hbefore.isEnabled (hreads read List.mem_cons_self) read.flag true
      have hafter := hbefore.afterEvent (.isEnabled read.served read.flag true)
      have hrest := ih hafter fun read' hmem => hreads read' (List.mem_cons_of_mem read hmem)
      have hpair : Acknowledgement.isEnabled read.served read.flag true
          (read.others.foldl Acknowledgement.afterEvent s) = (.ok _, _) := Prod.ext hread rfl
      rw [FlagRegisters.readFlags, hpair]
      simp only
      have hend : FlagRegisters.readFlags reads
          (Acknowledgement.isEnabled read.served read.flag true
            (read.others.foldl Acknowledgement.afterEvent s)).2 = (.ok _, _) := Prod.ext hrest rfl
      rw [hend]
      rfl

end Refinement

/-! ## Every run -/

theorem run_foldl (s : State) (events : List Event) :
    Run Step s events (events.foldl afterEvent s) := by
  induction events generalizing s with
  | nil => exact .refl s
  | cons event events ih =>
      have hone : Run Step s [event] (afterEvent s event) := .single rfl
      exact hone.trans (ih _)

structure RegisterContract (r : Registers) (t : State) : Prop where
  isEnabled : ∀ served flag default, asksRedis served = true →
    (isEnabled served flag default t).1 = .ok (r.isEnabled served flag default)
  isMaintenanceMode : ∀ served, asksRedis served = true →
    (isMaintenanceMode served t).1 = .ok (r.isEnabled served .maintenanceMode false)
  /-- It writes the register of its own flag. -/
  setMaintenanceMode : ∀ served enabled served' flag default, asksRedis served' = true →
    (Acknowledgement.isEnabled served' flag default (setMaintenanceMode served enabled t).2).1 =
      .ok ((r.afterEvent (.setFlag served .maintenanceMode enabled none)).isEnabled served' flag
        default)
  /-- Each of the nine flags is the one register at the time of its read. -/
  getAllFlags : ∀ served others, (∀ flag, asksRedis (served flag) = true) →
    (getAllFlags served others t).1 = .ok (Registers.readFlags (reads served others) r)

/-- Over every order of the calls of any number of clients, failures of Redis and the
clock, the flags are independent registers. -/
theorem flag_registers {s t : State} {events : List Event} (hrun : Run Step s events t)
    (hunset : ∀ flag, s.keys (buildKey flag) = none) :
    RegisterContract (events.foldl Registers.afterEvent (.empty s.now)) t := by
  have hstart : Refines s (.empty s.now) := ⟨rfl, hunset⟩
  have hend : Refines t (events.foldl Registers.afterEvent (.empty s.now)) := by
    induction hrun with
    | refl => exact hstart
    | tail _ hstep ih =>
        obtain rfl := hstep
        rw [List.foldl_append, List.foldl_cons, List.foldl_nil]
        exact ih.afterEvent _
  refine ⟨fun served flag default hserved => hend.isEnabled hserved flag default,
    fun served hserved => hend.isEnabled hserved .maintenanceMode false,
    fun served enabled served' flag default hserved =>
      (hend.setFlag served .maintenanceMode enabled none).isEnabled hserved flag default,
    fun served others hserved => hend.readFlags fun read hread => ?_⟩
  obtain ⟨flag, -, rfl⟩ := List.mem_map.mp hread
  exact hserved flag

/-- The service in maintenance for one hour and a half, in which registration is closed. -/
def maintenance : List Event :=
  [.setFlag (.redis .answered) .maintenanceMode true none,
    .setFlag (.redis .replyLost) .newUserRegistrationEnabled false none,
    .setFlag (.redis .failed) .readOnlyMode true none, .advance 5400000]

theorem flag_registers_maintenance :
    ∃ t, RegisterContract (maintenance.foldl Registers.afterEvent (.empty 0)) t ∧
      (isMaintenanceMode (.redis .answered) t).1 = .ok true := by
  have hrun : Run Step ⟨0, fun _ => none, .init⟩ maintenance
      (maintenance.foldl afterEvent ⟨0, fun _ => none, .init⟩) := run_foldl _ _
  have h := flag_registers hrun fun _ => rfl
  exact ⟨_, h, by rw [h.isMaintenanceMode _ rfl]; decide⟩

end BackendProdReady.FeatureFlags.FlagRegisters
