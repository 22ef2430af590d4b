import BackendProdReady.Cache.InMemory
import BackendProdReady.Idempotency.Workers

/-!
# Workers over Redis and the in-memory fallback

While the cache service of a process runs on its fallback, the commands of the
idempotency service go to the process's in-memory cache.  Which of the two serves
a command is settled at each await anew, so the system leaves it open.  A worker
of another process is followed by what it does on Redis.
-/

namespace BackendProdReady.Idempotency.FallbackWorkers

open BackendProdReady.Lib.InsertionDict
open BackendProdReady.Lib.Runs
open BackendProdReady.Cache.InMemory
open BackendProdReady.Idempotency.Keys
open BackendProdReady.Idempotency.Service
open BackendProdReady.Idempotency.Workers (Phase phaseAfter resultOf callable)

/-! ## The service on the in-memory cache -/

section Service

variable {J : Type} (sha256 : String → HexDigest) (orjson : Orjson J)

def readMemory (now : Nat) (pair : Pair) (c : InMemoryCache) : Next J × InMemoryCache :=
  let run := c.get now (buildKey sha256 pair)
  match run.1 with
  | none => (.acquire, run.2)
  | some cached =>
      match orjson.loads cached with
      | some response => (.returns ⟨.duplicate, some response⟩, run.2)
      | none => (.acquire, run.2)

def acquireMemory (now : Nat) (pair : Pair) (c : InMemoryCache) : Next J × InMemoryCache :=
  let run := c.setnx now (buildInProgressKey sha256 pair) "1" (some inProgressTtl)
  (.returns ⟨if run.1 then .new else .inProgress, none⟩, run.2)

def storeMemory (now : Nat) (pair : Pair) (response : J) (ttl : Option Int)
    (c : InMemoryCache) : InMemoryCache :=
  match orjson.dumps response with
  | none => c
  | some serialized =>
      (c.set now (buildKey sha256 pair) serialized (some (effectiveTtl ttl))).2

def releaseMemory (pair : Pair) (c : InMemoryCache) : InMemoryCache :=
  (c.delete (buildInProgressKey sha256 pair)).2

def dropMemory (pair : Pair) (c : InMemoryCache) : InMemoryCache :=
  (c.delete (buildKey sha256 pair)).2

theorem readMemory_memory (now : Nat) (pair : Pair) (c : InMemoryCache) :
    (readMemory sha256 orjson now pair c).2 = (c.get now (buildKey sha256 pair)).2 := by
  unfold readMemory
  dsimp only
  split
  · rfl
  · split <;> rfl

theorem acquireMemory_of_live {now : Nat} {pair : Pair} {c : InMemoryCache} {expiry : Option Int}
    (h : c.liveExpiry now (buildInProgressKey sha256 pair) = some expiry) :
    acquireMemory (J := J) sha256 now pair c = (.returns ⟨.inProgress, none⟩, c) := by
  rw [acquireMemory, InMemoryCache.setnx_of_live h]
  rfl

theorem acquireMemory_of_not_live {now : Nat} {pair : Pair} {c : InMemoryCache}
    (h : c.liveExpiry now (buildInProgressKey sha256 pair) = none) :
    acquireMemory (J := J) sha256 now pair c =
      (.returns ⟨.new, none⟩,
        c.assign now (buildInProgressKey sha256 pair) "1" (some inProgressTtl)) := by
  rw [acquireMemory, InMemoryCache.setnx_of_not_live h]
  rfl

theorem expiryOf_marker (now : Nat) :
    InMemoryCache.expiryOf now (some inProgressTtl) = some ((now + inProgressMs : Nat) : Int) := by
  simp [InMemoryCache.expiryOf, inProgressTtl, inProgressMs]

theorem liveEntry_assign_marker (now : Nat) (c : InMemoryCache) (key other : String) :
    (c.assign now key "1" (some inProgressTtl)).liveEntry now other =
      if other = key then some ("1", some ((now + inProgressMs : Nat) : Int))
      else c.liveEntry now other := by
  have hexpired :
      InMemoryCache.isExpired now (some ((now + inProgressMs : Nat) : Int)) = false := by
    simp only [InMemoryCache.isExpired, decide_eq_false_iff_not]
    omega
  rw [InMemoryCache.liveEntry_assign, expiryOf_marker]
  simp only [hexpired, Bool.false_eq_true, if_false]

inductive MemoryCall (J : Type)
  /-- `execute_lua_script` returns `None` on the fallback, and the check goes on to
  `_check_non_atomic`. -/
  | skipLua
  | read
  | acquire
  | storeRecord (response : J) (ttl : Option Int)
  | storeRelease
  | clearInProgress
  | invalidateRecord
  | invalidateMarker

/-- One call of a worker on the in-memory cache, with where it leaves the worker and
what a check returns; `none` where the worker is not at this point. -/
def MemoryCall.serve (now : Nat) (pair : Pair) : MemoryCall J → Phase → InMemoryCache →
    Option (Phase × Option (IdempotencyResult J) × InMemoryCache)
  | .skipLua, .idle, c => some (.reading, none, c)
  | .read, .reading, c =>
      let run := readMemory sha256 orjson now pair c
      some (phaseAfter now run.1, resultOf run.1, run.2)
  | .acquire, .acquiring, c =>
      let run := acquireMemory (J := J) sha256 now pair c
      some (phaseAfter now run.1, resultOf run.1, run.2)
  | .storeRecord response ttl, phase, c =>
      (callable phase).map fun holder =>
        (.storing holder, none, storeMemory sha256 orjson now pair response ttl c)
  | .storeRelease, .storing _, c => some (.idle, none, releaseMemory sha256 pair c)
  | .clearInProgress, phase, c =>
      (callable phase).map fun _ => (.idle, none, releaseMemory sha256 pair c)
  | .invalidateRecord, .idle, c => some (.invalidating, none, dropMemory sha256 pair c)
  | .invalidateMarker, .invalidating, c => some (.idle, none, releaseMemory sha256 pair c)
  | _, _, _ => none

inductive Served (now : Nat) (pair : Pair) (c : InMemoryCache) :
    MemoryCall J → Phase → Phase → Option (IdempotencyResult J) → InMemoryCache → Prop
  | skipLua : Served now pair c .skipLua .idle .reading none c
  | read :
      Served now pair c .read .reading (phaseAfter now (readMemory sha256 orjson now pair c).1)
        (resultOf (readMemory sha256 orjson now pair c).1)
        (readMemory sha256 orjson now pair c).2
  | acquire :
      Served now pair c .acquire .acquiring
        (phaseAfter now (acquireMemory (J := J) sha256 now pair c).1)
        (resultOf (acquireMemory (J := J) sha256 now pair c).1)
        (acquireMemory (J := J) sha256 now pair c).2
  | storeRecord {response : J} {ttl : Option Int} {phase : Phase} {holder : Option Nat}
      (hphase : callable phase = some holder) :
      Served now pair c (.storeRecord response ttl) phase (.storing holder) none
        (storeMemory sha256 orjson now pair response ttl c)
  | storeRelease {holder : Option Nat} :
      Served now pair c .storeRelease (.storing holder) .idle none (releaseMemory sha256 pair c)
  | clearInProgress {phase : Phase} {holder : Option Nat}
      (hphase : callable phase = some holder) :
      Served now pair c .clearInProgress phase .idle none (releaseMemory sha256 pair c)
  | invalidateRecord :
      Served now pair c .invalidateRecord .idle .invalidating none (dropMemory sha256 pair c)
  | invalidateMarker :
      Served now pair c .invalidateMarker .invalidating .idle none (releaseMemory sha256 pair c)

variable {sha256 : String → HexDigest} {orjson : Orjson J} {now : Nat} {pair : Pair}
  {call : MemoryCall J} {phase phase' : Phase} {result : Option (IdempotencyResult J)}
  {c c' : InMemoryCache}

theorem serve_cases (h : call.serve sha256 orjson now pair phase c = some (phase', result, c')) :
    Served sha256 orjson now pair c call phase phase' result c' := by
  unfold MemoryCall.serve at h
  split at h
  · cases h
    exact .skipLua
  · cases h
    exact .read
  · cases h
    exact .acquire
  · obtain ⟨holder, hphase, heq⟩ := Option.map_eq_some_iff.mp h
    cases heq
    exact .storeRecord hphase
  · cases h
    exact .storeRelease
  · obtain ⟨holder, hphase, heq⟩ := Option.map_eq_some_iff.mp h
    cases heq
    exact .clearInProgress hphase
  · cases h
    exact .invalidateRecord
  · cases h
    exact .invalidateMarker
  · cases h

theorem serve_of_served (h : Served sha256 orjson now pair c call phase phase' result c') :
    call.serve sha256 orjson now pair phase c = some (phase', result, c') := by
  cases h with
  | storeRecord hphase => simp only [MemoryCall.serve, hphase, Option.map_some]
  | clearInProgress hphase => simp only [MemoryCall.serve, hphase, Option.map_some]
  | _ => rfl

end Service

/-! ## States and operations -/

structure State (ω : Type) where
  redis : Workers.State ω
  memory : InMemoryCache

inductive Op (ω J : Type)
  | redis (op : Workers.Op ω J)
  | memory (w : ω) (pair : Pair) (call : MemoryCall J)
  /-- The fallback is closed, or set up again after another failed connection. -/
  | renewMemory

def Op.caller {ω J : Type} : Op ω J → Option (ω × Pair)
  | .redis op => op.caller
  | .memory w pair _ => some (w, pair)
  | .renewMemory => none

abbrev Label (ω J : Type) := Op ω J × Option (IdempotencyResult J)

section

variable {ω J : Type} [DecidableEq ω] (sha256 : String → HexDigest) (orjson : Orjson J)

def react (s : State ω) : Op ω J → Option (State ω × Option (IdempotencyResult J))
  | .redis op =>
      (Workers.react sha256 orjson s.redis op).map fun r => ({ s with redis := r.1 }, r.2)
  | .memory w pair call =>
      (call.serve sha256 orjson s.redis.now pair (s.redis.phase w pair) s.memory).map fun r =>
        (⟨s.redis.setPhase w pair r.1, r.2.2⟩, r.2.1)
  | .renewMemory => some ({ s with memory := .init }, none)

abbrev Step : State ω → Label ω J → State ω → Prop := Reaction (react sha256 orjson)

end

inductive Transition {ω J : Type} [DecidableEq ω] (sha256 : String → HexDigest)
    (orjson : Orjson J) (s : State ω) :
    Op ω J → Option (IdempotencyResult J) → State ω → Prop
  | redis {op : Workers.Op ω J} {result : Option (IdempotencyResult J)}
      {redis : Workers.State ω} (h : Workers.Step sha256 orjson s.redis (op, result) redis) :
      Transition sha256 orjson s (.redis op) result { s with redis := redis }
  | memory {w : ω} {pair : Pair} {call : MemoryCall J} {phase : Phase}
      {result : Option (IdempotencyResult J)} {memory : InMemoryCache}
      (h : call.serve sha256 orjson s.redis.now pair (s.redis.phase w pair) s.memory =
        some (phase, result, memory)) :
      Transition sha256 orjson s (.memory w pair call) result
        ⟨s.redis.setPhase w pair phase, memory⟩
  | renewMemory : Transition sha256 orjson s .renewMemory none { s with memory := .init }

section

variable {ω J : Type} [DecidableEq ω] {sha256 : String → HexDigest} {orjson : Orjson J}
  {s t : State ω} {op : Op ω J} {result : Option (IdempotencyResult J)}

theorem step_cases (h : Step sha256 orjson s (op, result) t) :
    Transition sha256 orjson s op result t := by
  unfold Step Reaction react at h
  cases op with
  | redis op =>
      obtain ⟨⟨redis, result'⟩, hreact, heq⟩ := Option.map_eq_some_iff.mp h
      obtain ⟨rfl, rfl⟩ := Prod.mk.inj heq
      exact .redis hreact
  | memory w pair call =>
      obtain ⟨⟨phase, result', memory⟩, hserve, heq⟩ := Option.map_eq_some_iff.mp h
      obtain ⟨rfl, rfl⟩ := Prod.mk.inj heq
      exact .memory hserve
  | renewMemory =>
      obtain ⟨rfl, rfl⟩ := Prod.mk.inj (Option.some.inj h)
      exact .renewMemory

theorem step_of_transition (h : Transition sha256 orjson s op result t) :
    Step sha256 orjson s (op, result) t := by
  unfold Step Reaction react
  cases h with
  | redis hstep => exact Option.map_eq_some_iff.mpr ⟨_, hstep, rfl⟩
  | memory hserve => exact Option.map_eq_some_iff.mpr ⟨_, hserve, rfl⟩
  | renewMemory => rfl

theorem step_now_le (h : Step sha256 orjson s (op, result) t) : s.redis.now ≤ t.redis.now := by
  cases step_cases h with
  | redis hstep => exact Workers.step_now_le hstep
  | memory hserve => exact Nat.le_refl _
  | renewMemory => exact Nat.le_refl _

theorem run_now_le {labels : List (Label ω J)} (h : Run (Step sha256 orjson) s labels t) :
    s.redis.now ≤ t.redis.now := by
  induction h with
  | refl => exact Nat.le_refl _
  | tail _ hstep ih => exact Nat.le_trans ih (step_now_le hstep)

abbrev next (sha256 : String → HexDigest) (orjson : Orjson J) (s : State ω) (op : Op ω J) :
    State ω :=
  afterEvent (react sha256 orjson) s op

end

def start : State Nat := ⟨Workers.start, .init⟩

end BackendProdReady.Idempotency.FallbackWorkers
