import BackendProdReady.Idempotency.Service
import BackendProdReady.Lib.Runs

/-!
# Any number of workers over one Redis

The transition system of the idempotency service.  Every command is one atomic
step of the worker that awaits it, with any fate; between the commands of one
call the other workers move and the clock advances.  A worker is followed per
pair: what it awaits in the call it is in, and since when it holds the operation.
-/

namespace BackendProdReady.Idempotency.Workers

open BackendProdReady.Lib.ExpiringStore
open BackendProdReady.Lib.Runs
open BackendProdReady.Cache
open BackendProdReady.Cache.Operations (Keyspace Fate)
open BackendProdReady.Idempotency.Keys
open BackendProdReady.Idempotency.Service

/-! ## States and operations -/

inductive Phase
  | idle
  | pinging
  | reading
  | acquiring
  /-- The check returned `NEW` at `since`, and no terminal call has begun. -/
  | working (since : Nat)
  /-- Inside `store`, between its two commands; `since` as above for a holder. -/
  | storing (since : Option Nat)
  | invalidating
deriving DecidableEq

structure State (ω : Type) where
  now : Nat
  keys : Keyspace
  phase : ω → Pair → Phase

inductive Op (ω J : Type)
  | advance (ms : Nat)
  | lua (w : ω) (pair : Pair) (fate : Fate)
  | ping (w : ω) (pair : Pair) (pong : Bool)
  | read (w : ω) (pair : Pair) (fate : Fate)
  | acquire (w : ω) (pair : Pair) (fate : Fate)
  | storeRecord (w : ω) (pair : Pair) (response : J) (ttl : Option Int) (fate : Fate)
  | storeRelease (w : ω) (pair : Pair) (fate : Fate)
  | clearInProgress (w : ω) (pair : Pair) (fate : Fate)
  | invalidateRecord (w : ω) (pair : Pair) (fate : Fate)
  | invalidateMarker (w : ω) (pair : Pair) (fate : Fate)

section

variable {ω : Type} [DecidableEq ω]

namespace State

def setPhase (s : State ω) (w : ω) (pair : Pair) (phase : Phase) : State ω :=
  { s with phase := fun v other => if v = w ∧ other = pair then phase else s.phase v other }

def setKeys {ω : Type} (s : State ω) (keys : Keyspace) : State ω := { s with keys := keys }

@[simp] theorem setPhase_self (s : State ω) (w : ω) (pair : Pair) (phase : Phase) :
    (s.setPhase w pair phase).phase w pair = phase := by
  simp [setPhase]

theorem setPhase_of_ne {s : State ω} {w v : ω} {pair other : Pair} {phase : Phase}
    (h : ¬ (v = w ∧ other = pair)) : (s.setPhase w pair phase).phase v other = s.phase v other := by
  simp [setPhase, h]

theorem setPhase_eq_self {s : State ω} {w : ω} {pair : Pair} {phase : Phase}
    (h : s.phase w pair = phase) : s.setPhase w pair phase = s := by
  subst h
  simp only [setPhase]
  congr
  funext v other
  split_ifs with heq
  · rw [heq.1, heq.2]
  · rfl

end State

end

/-! ## Steps -/

section

variable {J : Type}

/-- Where a check leaves its caller. -/
def phaseAfter (now : Nat) : Next J → Phase
  | .returns result => if result.status = .new then .working now else .idle
  | .raises _ => .idle
  | .ping => .pinging
  | .read => .reading
  | .acquire => .acquiring

/-- Since when the worker holds the operation: from its `NEW` to the end of its
terminal call. -/
def Phase.heldSince : Phase → Option Nat
  | .working since => some since
  | .storing holder => holder
  | _ => none

/-- Between the script and the end of a check. -/
def Phase.inFallback : Phase → Bool
  | .pinging | .reading | .acquiring => true
  | _ => false

def resultOf : Next J → Option (IdempotencyResult J)
  | .returns result => some result
  | _ => none

/-- A caller of `store` or `clear_in_progress` outside any call: a holder and
since when, or anyone else. -/
def callable : Phase → Option (Option Nat)
  | .idle => some none
  | .working since => some (some since)
  | _ => none

def holderPhase : Option Nat → Phase
  | none => .idle
  | some since => .working since

end

section

variable {ω J : Type} [DecidableEq ω] (sha256 : String → HexDigest) (orjson : Orjson J)

def checkStep (s : State ω) (w : ω) (pair : Pair) (run : Next J × Keyspace) :
    State ω × Option (IdempotencyResult J) :=
  ((s.setKeys run.2).setPhase w pair (phaseAfter s.now run.1), resultOf run.1)

/-- An exception leaves the caller where it was before the call. -/
def callStep (s : State ω) (w : ω) (pair : Pair) (before after : Phase)
    (run : Except Operations.BreakerError Unit × Keyspace) :
    State ω × Option (IdempotencyResult J) :=
  ((s.setKeys run.2).setPhase w pair (match run.1 with
    | .ok () => after
    | .error _ => before), none)

/-- One step; `none` where the worker is not at this point of a call. -/
def react (s : State ω) : Op ω J → Option (State ω × Option (IdempotencyResult J))
  | .advance ms => some ({ s with now := s.now + ms }, none)
  | .lua w pair fate =>
      if s.phase w pair = .idle then
        some (checkStep s w pair (checkLua sha256 orjson fate s.now pair s.keys))
      else none
  | .ping w pair pong =>
      if s.phase w pair = .pinging then
        some (checkStep s w pair (checkPing pong pair, s.keys))
      else none
  | .read w pair fate =>
      if s.phase w pair = .reading then
        some (checkStep s w pair (checkRead sha256 orjson fate s.now pair s.keys))
      else none
  | .acquire w pair fate =>
      if s.phase w pair = .acquiring then
        some (checkStep s w pair (checkAcquire sha256 fate s.now pair s.keys))
      else none
  | .storeRecord w pair response ttl fate =>
      match callable (s.phase w pair) with
      | none => none
      | some holder =>
          some (callStep s w pair (holderPhase holder) (.storing holder)
            (storeRecord sha256 orjson fate s.now pair response ttl s.keys))
  | .storeRelease w pair fate =>
      match s.phase w pair with
      | .storing holder =>
          some (callStep s w pair (holderPhase holder) .idle
            (releaseMarker sha256 fate s.now pair s.keys))
      | _ => none
  | .clearInProgress w pair fate =>
      match callable (s.phase w pair) with
      | none => none
      | some holder =>
          some (callStep s w pair (holderPhase holder) .idle
            (releaseMarker sha256 fate s.now pair s.keys))
  | .invalidateRecord w pair fate =>
      if s.phase w pair = .idle then
        some (callStep s w pair .idle .invalidating
          (dropRecord sha256 fate s.now pair s.keys))
      else none
  | .invalidateMarker w pair fate =>
      if s.phase w pair = .invalidating then
        some (callStep s w pair .idle .idle (releaseMarker sha256 fate s.now pair s.keys))
      else none

/-- A step is labelled with its operation and with what a check returned in it. -/
def Step (s : State ω) (label : Op ω J × Option (IdempotencyResult J)) (t : State ω) : Prop :=
  react sha256 orjson s label.1 = some (t, label.2)

end

/-! ## What a step can change -/

inductive Transition {ω J : Type} [DecidableEq ω] (sha256 : String → HexDigest)
    (orjson : Orjson J) (s : State ω) :
    Op ω J → Option (IdempotencyResult J) → State ω → Prop
  | advance (ms : Nat) :
      Transition sha256 orjson s (.advance ms) none { s with now := s.now + ms }
  | lua {w : ω} {pair : Pair} {fate : Fate} {run : Next J × Keyspace}
      (hphase : s.phase w pair = .idle)
      (hrun : run = checkLua sha256 orjson fate s.now pair s.keys) :
      Transition sha256 orjson s (.lua w pair fate) (resultOf run.1) (checkStep s w pair run).1
  | ping {w : ω} {pair : Pair} {pong : Bool} (hphase : s.phase w pair = .pinging) :
      Transition sha256 orjson s (.ping w pair pong) (resultOf (checkPing (J := J) pong pair))
        (checkStep s w pair (checkPing (J := J) pong pair, s.keys)).1
  | read {w : ω} {pair : Pair} {fate : Fate} {run : Next J × Keyspace}
      (hphase : s.phase w pair = .reading)
      (hrun : run = checkRead sha256 orjson fate s.now pair s.keys) :
      Transition sha256 orjson s (.read w pair fate) (resultOf run.1) (checkStep s w pair run).1
  | acquire {w : ω} {pair : Pair} {fate : Fate} {run : Next J × Keyspace}
      (hphase : s.phase w pair = .acquiring)
      (hrun : run = checkAcquire sha256 fate s.now pair s.keys) :
      Transition sha256 orjson s (.acquire w pair fate) (resultOf run.1)
        (checkStep s w pair run).1
  | storeRecord {w : ω} {pair : Pair} {response : J} {ttl : Option Int} {fate : Fate}
      {holder : Option Nat} {run : Except Operations.BreakerError Unit × Keyspace}
      (hphase : callable (s.phase w pair) = some holder)
      (hrun : run = Service.storeRecord sha256 orjson fate s.now pair response ttl s.keys) :
      Transition sha256 orjson s (.storeRecord w pair response ttl fate) none
        (callStep (J := J) s w pair (holderPhase holder) (.storing holder) run).1
  | storeRelease {w : ω} {pair : Pair} {fate : Fate} {holder : Option Nat}
      {run : Except Operations.BreakerError Unit × Keyspace}
      (hphase : s.phase w pair = .storing holder)
      (hrun : run = releaseMarker sha256 fate s.now pair s.keys) :
      Transition sha256 orjson s (.storeRelease w pair fate) none
        (callStep (J := J) s w pair (holderPhase holder) .idle run).1
  | clearInProgress {w : ω} {pair : Pair} {fate : Fate} {holder : Option Nat}
      {run : Except Operations.BreakerError Unit × Keyspace}
      (hphase : callable (s.phase w pair) = some holder)
      (hrun : run = releaseMarker sha256 fate s.now pair s.keys) :
      Transition sha256 orjson s (.clearInProgress w pair fate) none
        (callStep (J := J) s w pair (holderPhase holder) .idle run).1
  | invalidateRecord {w : ω} {pair : Pair} {fate : Fate}
      {run : Except Operations.BreakerError Unit × Keyspace}
      (hphase : s.phase w pair = .idle)
      (hrun : run = dropRecord sha256 fate s.now pair s.keys) :
      Transition sha256 orjson s (.invalidateRecord w pair fate) none
        (callStep (J := J) s w pair .idle .invalidating run).1
  | invalidateMarker {w : ω} {pair : Pair} {fate : Fate}
      {run : Except Operations.BreakerError Unit × Keyspace}
      (hphase : s.phase w pair = .invalidating)
      (hrun : run = releaseMarker sha256 fate s.now pair s.keys) :
      Transition sha256 orjson s (.invalidateMarker w pair fate) none
        (callStep (J := J) s w pair .idle .idle run).1

def Op.caller {ω J : Type} : Op ω J → Option (ω × Pair)
  | .advance _ => none
  | .lua w pair _ | .ping w pair _ | .read w pair _ | .acquire w pair _
  | .storeRecord w pair _ _ _ | .storeRelease w pair _ | .clearInProgress w pair _
  | .invalidateRecord w pair _ | .invalidateMarker w pair _ => some (w, pair)

def Op.checker {ω J : Type} : Op ω J → Option (ω × Pair)
  | .lua w pair _ | .ping w pair _ | .read w pair _ | .acquire w pair _ => some (w, pair)
  | _ => none

def Op.released {ω J : Type} : Op ω J → Option Pair
  | .storeRelease _ pair fate | .clearInProgress _ pair fate | .invalidateMarker _ pair fate =>
      if fate.takesEffect then some pair else none
  | _ => none

def Op.recorded {ω J : Type} : Op ω J → Option Pair
  | .storeRecord _ pair _ _ _ => some pair
  | _ => none

def Op.dropped {ω J : Type} : Op ω J → Option Pair
  | .invalidateRecord _ pair fate => if fate.takesEffect then some pair else none
  | _ => none

section

variable {ω J : Type} [DecidableEq ω] {sha256 : String → HexDigest} {orjson : Orjson J}
  {s t : State ω} {op : Op ω J} {result : Option (IdempotencyResult J)}

theorem step_cases (h : Step sha256 orjson s (op, result) t) :
    Transition sha256 orjson s op result t := by
  unfold Step react at h
  cases op with
  | advance ms =>
      obtain ⟨rfl, rfl⟩ := Prod.mk.inj (Option.some.inj h)
      exact .advance ms
  | lua w pair fate =>
      dsimp only at h
      split_ifs at h with hphase
      obtain ⟨rfl, rfl⟩ := Prod.mk.inj (Option.some.inj h)
      exact .lua hphase rfl
  | ping w pair pong =>
      dsimp only at h
      split_ifs at h with hphase
      obtain ⟨rfl, rfl⟩ := Prod.mk.inj (Option.some.inj h)
      exact .ping hphase
  | read w pair fate =>
      dsimp only at h
      split_ifs at h with hphase
      obtain ⟨rfl, rfl⟩ := Prod.mk.inj (Option.some.inj h)
      exact .read hphase rfl
  | acquire w pair fate =>
      dsimp only at h
      split_ifs at h with hphase
      obtain ⟨rfl, rfl⟩ := Prod.mk.inj (Option.some.inj h)
      exact .acquire hphase rfl
  | storeRecord w pair response ttl fate =>
      dsimp only at h
      split at h
      · cases h
      · rename_i hphase
        obtain ⟨rfl, rfl⟩ := Prod.mk.inj (Option.some.inj h)
        exact .storeRecord hphase rfl
  | storeRelease w pair fate =>
      dsimp only at h
      split at h
      · rename_i hphase
        obtain ⟨rfl, rfl⟩ := Prod.mk.inj (Option.some.inj h)
        exact .storeRelease hphase rfl
      · cases h
  | clearInProgress w pair fate =>
      dsimp only at h
      split at h
      · cases h
      · rename_i hphase
        obtain ⟨rfl, rfl⟩ := Prod.mk.inj (Option.some.inj h)
        exact .clearInProgress hphase rfl
  | invalidateRecord w pair fate =>
      dsimp only at h
      split_ifs at h with hphase
      obtain ⟨rfl, rfl⟩ := Prod.mk.inj (Option.some.inj h)
      exact .invalidateRecord hphase rfl
  | invalidateMarker w pair fate =>
      dsimp only at h
      split_ifs at h with hphase
      obtain ⟨rfl, rfl⟩ := Prod.mk.inj (Option.some.inj h)
      exact .invalidateMarker hphase rfl

theorem step_of_transition (h : Transition sha256 orjson s op result t) :
    Step sha256 orjson s (op, result) t := by
  unfold Step react
  cases h with
  | advance ms => rfl
  | ping hphase => exact if_pos hphase
  | lua hphase hrun => subst hrun; exact if_pos hphase
  | read hphase hrun => subst hrun; exact if_pos hphase
  | acquire hphase hrun => subst hrun; exact if_pos hphase
  | storeRecord hphase hrun => subst hrun; simp only [hphase]; rfl
  | storeRelease hphase hrun => subst hrun; simp only [hphase]; rfl
  | clearInProgress hphase hrun => subst hrun; simp only [hphase]; rfl
  | invalidateRecord hphase hrun => subst hrun; exact if_pos hphase
  | invalidateMarker hphase hrun => subst hrun; exact if_pos hphase

theorem step_now_le (h : Step sha256 orjson s (op, result) t) : s.now ≤ t.now := by
  cases step_cases h with
  | advance ms => exact Nat.le_add_right _ _
  | _ => exact Nat.le_refl _

theorem step_now_of_caller {caller : ω × Pair} (h : Step sha256 orjson s (op, result) t)
    (hcaller : op.caller = some caller) : t.now = s.now := by
  cases step_cases h with
  | advance ms => cases hcaller
  | _ => rfl

omit [DecidableEq ω] in
theorem caller_of_checker {w : ω} {pair : Pair} (h : op.checker = some (w, pair)) :
    op.caller = some (w, pair) := by
  cases op <;> simp_all [Op.checker, Op.caller]

omit [DecidableEq ω] in
theorem caller_of_recorded {pair : Pair} (h : op.recorded = some pair) :
    ∃ w, op.caller = some (w, pair) := by
  cases op <;> simp_all [Op.recorded, Op.caller]

omit [DecidableEq ω] in
theorem caller_of_released {pair : Pair} (h : op.released = some pair) :
    ∃ w, op.caller = some (w, pair) := by
  cases op <;> simp_all [Op.released, Op.caller]

omit [DecidableEq ω] in
theorem caller_of_dropped {pair : Pair} (h : op.dropped = some pair) :
    ∃ w, op.caller = some (w, pair) := by
  cases op <;> simp_all [Op.dropped, Op.caller]

theorem run_now_le {labels : List (Op ω J × Option (IdempotencyResult J))}
    (h : Run (Step sha256 orjson) s labels t) : s.now ≤ t.now := by
  induction h with
  | refl => exact Nat.le_refl _
  | tail _ hstep ih => exact Nat.le_trans ih (step_now_le hstep)

inductive KeyChange (sha256 : String → HexDigest) (s : State ω) (op : Op ω J)
    (keys : Keyspace) : Prop
  | kept (hkeys : keys = s.keys)
  | marked (w : ω) (pair : Pair) (hop : op.checker = some (w, pair))
      (hmarker : s.keys.find s.now (buildInProgressKey sha256 pair) = none)
      (hkeys : keys = s.keys.put (buildInProgressKey sha256 pair) (markerEntry s.now))
  | recorded (pair : Pair) (entry : Entry String) (hop : op.recorded = some pair)
      (hkeys : keys = s.keys.put (buildKey sha256 pair) entry)
  | released (pair : Pair) (hop : op.released = some pair)
      (hkeys : keys = s.keys.remove (buildInProgressKey sha256 pair))
  | dropped (pair : Pair) (hop : op.dropped = some pair)
      (hkeys : keys = s.keys.remove (buildKey sha256 pair))

omit [DecidableEq ω] in
private theorem keyChange_releaseMarker {fate : Fate} {pair : Pair}
    (hop : op.released = if fate.takesEffect then some pair else none) :
    KeyChange sha256 s op (releaseMarker sha256 fate s.now pair s.keys).2 := by
  have hkeys := releaseMarker_keys sha256 fate s.now pair s.keys
  cases heffect : fate.takesEffect with
  | false =>
      rw [heffect] at hkeys
      exact .kept hkeys
  | true =>
      rw [heffect] at hop hkeys
      exact .released pair hop hkeys

omit [DecidableEq ω] in
private theorem keyChange_dropRecord {fate : Fate} {pair : Pair}
    (hop : op.dropped = if fate.takesEffect then some pair else none) :
    KeyChange sha256 s op (dropRecord sha256 fate s.now pair s.keys).2 := by
  have hkeys := dropRecord_keys sha256 fate s.now pair s.keys
  cases heffect : fate.takesEffect with
  | false =>
      rw [heffect] at hkeys
      exact .kept hkeys
  | true =>
      rw [heffect] at hop hkeys
      exact .dropped pair hop hkeys

theorem step_keys (h : Step sha256 orjson s (op, result) t) : KeyChange sha256 s op t.keys := by
  cases step_cases h with
  | advance ms => exact .kept rfl
  | @lua w pair fate run hphase hrun =>
      subst hrun
      rcases checkLua_keys sha256 orjson fate s.now pair s.keys with hkeys | ⟨-, hmarker, hkeys⟩
      · exact .kept hkeys
      · exact .marked w pair rfl hmarker hkeys
  | ping hphase => exact .kept rfl
  | @read w pair fate run hphase hrun =>
      subst hrun
      exact .kept (checkRead_keys sha256 orjson fate s.now pair s.keys)
  | @acquire w pair fate run hphase hrun =>
      subst hrun
      rcases acquireMarker_keys (J := J) sha256 fate s.now pair s.keys with
        hkeys | ⟨hmarker, hkeys⟩
      · exact .kept hkeys
      · exact .marked w pair rfl hmarker hkeys
  | @storeRecord w pair response ttl fate holder run hphase hrun =>
      subst hrun
      rcases storeRecord_keys sha256 orjson fate s.now pair response ttl s.keys with
        hkeys | ⟨serialized, -, -, hkeys⟩
      · exact .kept hkeys
      · exact .recorded pair _ rfl hkeys
  | storeRelease hphase hrun =>
      subst hrun
      exact keyChange_releaseMarker rfl
  | clearInProgress hphase hrun =>
      subst hrun
      exact keyChange_releaseMarker rfl
  | invalidateRecord hphase hrun =>
      subst hrun
      exact keyChange_dropRecord rfl
  | invalidateMarker hphase hrun =>
      subst hrun
      exact keyChange_releaseMarker rfl

theorem step_marker {pair : Pair} {entry : Entry String}
    (h : Step sha256 orjson s (op, result) t)
    (hentry : s.keys (buildInProgressKey sha256 pair) = some entry)
    (hlive : entry.live s.now = true)
    (hreleased : ∀ other, op.released = some other →
      buildKey sha256 other ≠ buildKey sha256 pair) :
    t.keys (buildInProgressKey sha256 pair) = some entry := by
  cases step_keys h with
  | kept hkeys => rw [hkeys, hentry]
  | marked w other hop hnone hkeys =>
      have hne : buildInProgressKey sha256 pair ≠ buildInProgressKey sha256 other := by
        intro hsame
        rw [← hsame, Store.find_of_live hentry hlive] at hnone
        cases hnone
      rw [hkeys, Store.put_of_ne hne, hentry]
  | recorded other e hop hkeys =>
      rw [hkeys, Store.put_of_ne (buildKey_ne_buildInProgressKey sha256 other pair).symm, hentry]
  | released other hop hkeys =>
      have hne : buildInProgressKey sha256 pair ≠ buildInProgressKey sha256 other := fun hsame =>
        hreleased other hop ((buildInProgressKey_inj sha256).mp hsame).symm
      rw [hkeys, Store.remove_of_ne hne, hentry]
  | dropped other hop hkeys =>
      rw [hkeys, Store.remove_of_ne (buildKey_ne_buildInProgressKey sha256 other pair).symm,
        hentry]

theorem step_record {pair : Pair} {entry : Entry String}
    (h : Step sha256 orjson s (op, result) t)
    (hentry : s.keys (buildKey sha256 pair) = some entry)
    (hrecorded : ∀ other, op.recorded = some other →
      buildKey sha256 other ≠ buildKey sha256 pair)
    (hdropped : ∀ other, op.dropped = some other →
      buildKey sha256 other ≠ buildKey sha256 pair) :
    t.keys (buildKey sha256 pair) = some entry := by
  cases step_keys h with
  | kept hkeys => rw [hkeys, hentry]
  | marked w other hop hnone hkeys =>
      rw [hkeys, Store.put_of_ne (buildKey_ne_buildInProgressKey sha256 pair other), hentry]
  | recorded other e hop hkeys => rw [hkeys, Store.put_of_ne (hrecorded other hop).symm, hentry]
  | released other hop hkeys =>
      rw [hkeys, Store.remove_of_ne (buildKey_ne_buildInProgressKey sha256 pair other), hentry]
  | dropped other hop hkeys =>
      rw [hkeys, Store.remove_of_ne (hdropped other hop).symm, hentry]

theorem step_phase_of_ne {v : ω} {other : Pair} (h : Step sha256 orjson s (op, result) t)
    (hne : op.caller ≠ some (v, other)) : t.phase v other = s.phase v other := by
  have hself : ∀ {w : ω} {pair : Pair}, some (w, pair) ≠ some (v, other) →
      ¬ (v = w ∧ other = pair) := by
    rintro w pair hcaller ⟨rfl, rfl⟩
    exact hcaller rfl
  cases step_cases h with
  | advance ms => rfl
  | _ => exact State.setPhase_of_ne (hself hne)

theorem callStep_not_inFallback {w : ω} {pair : Pair} {before after : Phase}
    (hbefore : before.inFallback = false) (hafter : after.inFallback = false)
    (run : Except Operations.BreakerError Unit × Keyspace) :
    (((callStep (J := J) s w pair before after run).1).phase w pair).inFallback = false := by
  rw [callStep, State.setPhase_self]
  split
  · exact hafter
  · exact hbefore

theorem holderPhase_not_inFallback (holder : Option Nat) :
    (holderPhase holder).inFallback = false := by
  cases holder <;> rfl

theorem step_inFallback {v : ω} {other : Pair} (h : Step sha256 orjson s (op, result) t)
    (hfallback : (t.phase v other).inFallback = true) :
    (s.phase v other).inFallback = true ∨
      ∃ fate, op = .lua v other fate ∧
        (phaseAfter s.now (checkLua sha256 orjson fate s.now other s.keys).1).inFallback =
          true := by
  by_cases hcaller : op.caller = some (v, other)
  · cases step_cases h with
    | advance ms => cases hcaller
    | lua hphase hrun =>
        cases hcaller
        subst hrun
        rw [checkStep, State.setPhase_self] at hfallback
        exact .inr ⟨_, rfl, hfallback⟩
    | ping hphase =>
        cases hcaller
        exact .inl (by rw [hphase]; rfl)
    | read hphase hrun =>
        cases hcaller
        exact .inl (by rw [hphase]; rfl)
    | acquire hphase hrun =>
        cases hcaller
        exact .inl (by rw [hphase]; rfl)
    | @storeRecord w pair response ttl fate holder run hphase hrun =>
        cases hcaller
        rw [callStep_not_inFallback (holderPhase_not_inFallback holder) rfl run] at hfallback
        cases hfallback
    | @storeRelease w pair fate holder run hphase hrun =>
        cases hcaller
        rw [callStep_not_inFallback (holderPhase_not_inFallback holder) rfl run] at hfallback
        cases hfallback
    | @clearInProgress w pair fate holder run hphase hrun =>
        cases hcaller
        rw [callStep_not_inFallback (holderPhase_not_inFallback holder) rfl run] at hfallback
        cases hfallback
    | @invalidateRecord w pair fate run hphase hrun =>
        cases hcaller
        rw [callStep_not_inFallback rfl rfl run] at hfallback
        cases hfallback
    | @invalidateMarker w pair fate run hphase hrun =>
        cases hcaller
        rw [callStep_not_inFallback rfl rfl run] at hfallback
        cases hfallback
  · rw [step_phase_of_ne h hcaller] at hfallback
    exact .inl hfallback

theorem resultOf_eq_some {next : Next J} {r : IdempotencyResult J}
    (h : resultOf next = some r) : next = .returns r := by
  cases next <;> cases h
  rfl

theorem step_new {w : ω} {pair : Pair} {response : Option J}
    (h : Step sha256 orjson s (op, some ⟨.new, response⟩) t)
    (hop : op.checker = some (w, pair)) :
    s.keys.find s.now (buildInProgressKey sha256 pair) = none ∧
      t.keys = s.keys.put (buildInProgressKey sha256 pair) (markerEntry s.now) ∧
      t.now = s.now := by
  have htransition := step_cases h
  generalize hresult : some (⟨.new, response⟩ : IdempotencyResult J) = result at htransition
  cases htransition with
  | advance ms => cases hresult
  | lua hphase hrun =>
      obtain ⟨-, rfl⟩ := Prod.mk.inj (Option.some.inj hop)
      subst hrun
      obtain ⟨-, hmarker, hkeys⟩ := checkLua_new sha256 orjson (resultOf_eq_some hresult.symm)
      exact ⟨hmarker, hkeys, rfl⟩
  | @ping w pair pong hphase =>
      cases pong <;> cases hresult
  | read hphase hrun =>
      subst hrun
      exact absurd (resultOf_eq_some hresult.symm) (checkRead_ne_new sha256 orjson _ _ _ _ _)
  | acquire hphase hrun =>
      obtain ⟨-, rfl⟩ := Prod.mk.inj (Option.some.inj hop)
      subst hrun
      obtain ⟨hmarker, hkeys⟩ := checkAcquire_new sha256 (resultOf_eq_some hresult.symm)
      exact ⟨hmarker, hkeys, rfl⟩
  | storeRecord hphase hrun => cases hresult
  | storeRelease hphase hrun => cases hresult
  | clearInProgress hphase hrun => cases hresult
  | invalidateRecord hphase hrun => cases hresult
  | invalidateMarker hphase hrun => cases hresult

end

/-! ## Evaluation -/

section

variable {ω J : Type} [DecidableEq ω] (sha256 : String → HexDigest) (orjson : Orjson J)

abbrev next (s : State ω) (op : Op ω J) : State ω := afterEvent (react sha256 orjson) s op

end

/-- The digest of `evt_1`. -/
def evtDigest (_ : String) : HexDigest where
  text := "7d4e5a76eae6d8c165410ac19fe6756521ba86ed96752d0126b1953b155af052"
  length_eq := by decide
  isLowerHex := by decide

def boolJson : Orjson Bool where
  dumps b := some (if b then "true" else "false")
  loads text := if text = "true" then some true else if text = "false" then some false else none
  loads_dumps := by
    intro r text h
    obtain rfl := Option.some.inj h
    cases r <;> simp
  loads_empty := by decide

def evtPair : Pair := ⟨"evt_1", none⟩

def start : State Nat := ⟨0, fun _ => none, fun _ _ => .idle⟩

end BackendProdReady.Idempotency.Workers
