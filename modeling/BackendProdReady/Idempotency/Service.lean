import BackendProdReady.Cache.Operations
import BackendProdReady.Idempotency.Keys

/-!
# The idempotency service

The coroutines of `IdempotencyService`, cut at their awaits: each function here
awaits one command on Redis and says how the call goes on.  The cache service is
connected, so no call reaches the in-memory fallback.  JSON encoding is a
parameter with the laws the service relies on.
-/

namespace BackendProdReady.Idempotency.Service

open BackendProdReady.Lib.ExpiringStore
open BackendProdReady.Cache
open BackendProdReady.Cache.Operations (Keyspace Command Fate BreakerError)
open BackendProdReady.Idempotency.Keys

/-! ## Results -/

inductive IdempotencyStatus
  | new
  | duplicate
  | inProgress
deriving DecidableEq

structure IdempotencyResult (J : Type) where
  status : IdempotencyStatus
  cachedResponse : Option J
deriving DecidableEq

inductive CheckError
  | idempotencyCacheError (message : String)
  | openedState
deriving DecidableEq

/-- `orjson.dumps` and `orjson.loads`; `none` is the encoding or decoding error.
Text that was encoded decodes to a value with the same encoding. -/
structure Orjson (J : Type) where
  dumps : J → Option String
  loads : String → Option J
  loads_dumps : ∀ r text, dumps r = some text →
    ∃ r', loads text = some r' ∧ dumps r' = some text
  loads_empty : loads "" = none

def defaultTtl : Int := 86400 * 7

def inProgressTtl : Int := 300

def inProgressMs : Nat := 300000

def effectiveTtl (ttl : Option Int) : Int :=
  match ttl with
  | none | some 0 => defaultTtl
  | some ttl => ttl

section Service

variable {J : Type} (sha256 : String → HexDigest) (orjson : Orjson J)

/-! ## `check` -/

inductive LuaReply
  | duplicate (cached : String)
  | new
  | inProgress
deriving DecidableEq

/-- IDEMPOTENCY_CHECK_LUA_SCRIPT on the keys of a pair. -/
def checkScript (now : Nat) (pair : Pair) : Command LuaReply := fun keys =>
  match keys.find now (buildKey sha256 pair) with
  | some cached => some (.duplicate cached, keys)
  | none =>
      match Operations.setNxCommand now (buildInProgressKey sha256 pair) "1"
          (some inProgressTtl) keys with
      | none => none
      | some (acquired, keys') => some (if acquired then .new else .inProgress, keys')

/-- How a check goes on: it ends, or awaits its next command. -/
inductive Next (J : Type)
  | returns (result : IdempotencyResult J)
  | raises (e : CheckError)
  | ping
  | read
  | acquire
deriving DecidableEq

def afterLua : Option LuaReply → Next J
  | some (.duplicate cached) =>
      if cached = "" then .returns ⟨.duplicate, none⟩
      else
        match orjson.loads cached with
        | some response => .returns ⟨.duplicate, some response⟩
        | none => .ping
  | some .new => .returns ⟨.new, none⟩
  | some .inProgress => .returns ⟨.inProgress, none⟩
  | none => .ping

def checkLua (fate : Fate) (now : Nat) (pair : Pair) (keys : Keyspace) : Next J × Keyspace :=
  let run := Operations.executeLuaScript fate (checkScript sha256 now pair) keys
  match run.1 with
  | .error .openedState => (.raises .openedState, run.2)
  | .ok reply => (afterLua orjson reply, run.2)

def cacheUnavailable (pair : Pair) : String :=
  "Cache unavailable for idempotency check (key=" ++ pair.key ++ ", namespace=" ++
    pair.namespaceName.getD "None" ++ "). " ++
    "Cannot proceed without idempotency protection."

/-- Without a reply from the script the check fails closed unless Redis answers
a ping. -/
def checkPing (pong : Bool) (pair : Pair) : Next J :=
  if pong then .read else .raises (.idempotencyCacheError (cacheUnavailable pair))

def checkRead (fate : Fate) (now : Nat) (pair : Pair) (keys : Keyspace) : Next J × Keyspace :=
  let run := Operations.get fate now (buildKey sha256 pair) keys
  match run.1 with
  | .error .openedState => (.raises .openedState, run.2)
  | .ok none => (.acquire, run.2)
  | .ok (some cached) =>
      match orjson.loads cached with
      | some response => (.returns ⟨.duplicate, some response⟩, run.2)
      | none => (.acquire, run.2)

/-- The second command of `_check_non_atomic`, which ends the check. -/
def acquireMarker (fate : Fate) (now : Nat) (pair : Pair) (keys : Keyspace) :
    Except CheckError (IdempotencyResult J) × Keyspace :=
  let run := Operations.setnx fate now (buildInProgressKey sha256 pair) "1"
    (some inProgressTtl) keys
  match run.1 with
  | .error .openedState => (.error .openedState, run.2)
  | .ok true => (.ok ⟨.new, none⟩, run.2)
  | .ok false => (.ok ⟨.inProgress, none⟩, run.2)

def Next.ofEnd : Except CheckError (IdempotencyResult J) → Next J
  | .ok result => .returns result
  | .error e => .raises e

def checkAcquire (fate : Fate) (now : Nat) (pair : Pair) (keys : Keyspace) :
    Next J × Keyspace :=
  let run := acquireMarker sha256 fate now pair keys
  (.ofEnd run.1, run.2)

/-! ## `store`, `clear_in_progress`, `invalidate` -/

/-- The first half of `store`; a response that cannot be encoded is only logged. -/
def storeRecord (fate : Fate) (now : Nat) (pair : Pair) (response : J) (ttl : Option Int)
    (keys : Keyspace) : Except BreakerError Unit × Keyspace :=
  match orjson.dumps response with
  | none => (.ok (), keys)
  | some serialized =>
      let run := Operations.set fate now (buildKey sha256 pair) serialized
        (some (effectiveTtl ttl)) keys
      (run.1.map fun _ => (), run.2)

/-- `delete` of the marker: the second half of `store` and of `invalidate`, and
the whole of `clear_in_progress`. -/
def releaseMarker (fate : Fate) (now : Nat) (pair : Pair) (keys : Keyspace) :
    Except BreakerError Unit × Keyspace :=
  let run := Operations.delete fate now (buildInProgressKey sha256 pair) keys
  (run.1.map fun _ => (), run.2)

/-- `delete` of the record: the first half of `invalidate`. -/
def dropRecord (fate : Fate) (now : Nat) (pair : Pair) (keys : Keyspace) :
    Except BreakerError Unit × Keyspace :=
  let run := Operations.delete fate now (buildKey sha256 pair) keys
  (run.1.map fun _ => (), run.2)

/-! ## Answers and effects -/

def markerEntry (now : Nat) : Entry String := ⟨"1", some (now + inProgressMs)⟩

theorem setNxCommand_marker (now : Nat) (key : String) (keys : Keyspace) :
    Operations.setNxCommand now key "1" (some inProgressTtl) keys =
      if (keys.find now key).isSome then some (false, keys)
      else some (true, keys.put key (markerEntry now)) := rfl

theorem effectiveTtl_ne_zero (ttl : Option Int) : effectiveTtl ttl ≠ 0 := by
  unfold effectiveTtl
  split
  · decide
  · decide
  · rename_i hne
    intro h
    exact hne (by rw [h])

/-- `store` always writes with an expiry. -/
theorem setCommand_record (now : Nat) (key serialized : String) (ttl : Option Int)
    (keys : Keyspace) :
    Operations.setCommand now key serialized ((some (effectiveTtl ttl)).filter (· ≠ 0)) keys =
      if Operations.validSeconds (effectiveTtl ttl) then
        some ((), keys.put key
          ⟨serialized, some (Operations.deadline now (effectiveTtl ttl))⟩)
      else none := by
  simp [Operations.setCommand, Option.filter, effectiveTtl_ne_zero]

theorem checkScript_eq (now : Nat) (pair : Pair) (keys : Keyspace) :
    checkScript sha256 now pair keys =
      match keys.find now (buildKey sha256 pair) with
      | some cached => some (.duplicate cached, keys)
      | none =>
          if (keys.find now (buildInProgressKey sha256 pair)).isSome then
            some (.inProgress, keys)
          else
            some (.new, keys.put (buildInProgressKey sha256 pair) (markerEntry now)) := by
  unfold checkScript
  cases keys.find now (buildKey sha256 pair) with
  | some cached => rfl
  | none =>
      rw [setNxCommand_marker]
      cases (keys.find now (buildInProgressKey sha256 pair)).isSome <;> rfl

theorem checkLua_answered (now : Nat) (pair : Pair) (keys : Keyspace) :
    checkLua sha256 orjson .answered now pair keys =
      match keys.find now (buildKey sha256 pair) with
      | some cached => (afterLua orjson (some (.duplicate cached)), keys)
      | none =>
          if (keys.find now (buildInProgressKey sha256 pair)).isSome then
            (.returns ⟨.inProgress, none⟩, keys)
          else
            (.returns ⟨.new, none⟩,
              keys.put (buildInProgressKey sha256 pair) (markerEntry now)) := by
  simp only [checkLua, Operations.executeLuaScript, Operations.executeRedisOperation,
    checkScript_eq]
  cases keys.find now (buildKey sha256 pair) with
  | some cached => rfl
  | none => cases (keys.find now (buildInProgressKey sha256 pair)).isSome <;> rfl

theorem checkLua_replyLost (now : Nat) (pair : Pair) (keys : Keyspace) :
    (checkLua sha256 orjson .replyLost now pair keys).1 = .ping := by
  simp only [checkLua, Operations.executeLuaScript,
    Operations.executeRedisOperation_replyLost]
  rfl

/-- The server does the same whether or not its reply arrives. -/
theorem checkLua_replyLost_keys (now : Nat) (pair : Pair) (keys : Keyspace) :
    (checkLua sha256 orjson .replyLost now pair keys).2 =
      (checkLua sha256 orjson .answered now pair keys).2 := by
  simp only [checkLua, Operations.executeLuaScript, Operations.executeRedisOperation,
    checkScript_eq]
  cases keys.find now (buildKey sha256 pair) with
  | some cached => rfl
  | none => cases (keys.find now (buildInProgressKey sha256 pair)).isSome <;> rfl

/-- The script writes nothing but the marker, where neither record nor marker is
live. -/
theorem checkLua_keys (fate : Fate) (now : Nat) (pair : Pair) (keys : Keyspace) :
    (checkLua sha256 orjson fate now pair keys).2 = keys ∨
      keys.find now (buildKey sha256 pair) = none ∧
        keys.find now (buildInProgressKey sha256 pair) = none ∧
        (checkLua sha256 orjson fate now pair keys).2 =
          keys.put (buildInProgressKey sha256 pair) (markerEntry now) := by
  simp only [checkLua, Operations.executeLuaScript, Operations.executeRedisOperation,
    checkScript_eq]
  cases hrecord : keys.find now (buildKey sha256 pair) with
  | some cached => cases fate <;> exact .inl rfl
  | none =>
      cases hmarker : keys.find now (buildInProgressKey sha256 pair) with
      | some value => cases fate <;> exact .inl rfl
      | none =>
          cases fate with
          | answered => exact .inr ⟨rfl, rfl, rfl⟩
          | failed => exact .inl rfl
          | replyLost => exact .inr ⟨rfl, rfl, rfl⟩
          | rejected => exact .inl rfl

/-- `NEW` from the script means that it has just created the marker. -/
theorem checkLua_new {fate : Fate} {now : Nat} {pair : Pair} {keys : Keyspace}
    {response : Option J}
    (h : (checkLua sha256 orjson fate now pair keys).1 = .returns ⟨.new, response⟩) :
    keys.find now (buildKey sha256 pair) = none ∧
      keys.find now (buildInProgressKey sha256 pair) = none ∧
      (checkLua sha256 orjson fate now pair keys).2 =
        keys.put (buildInProgressKey sha256 pair) (markerEntry now) := by
  cases fate with
  | answered =>
      rw [checkLua_answered] at h ⊢
      cases hrecord : keys.find now (buildKey sha256 pair) with
      | some cached =>
          simp only [hrecord, afterLua] at h
          split_ifs at h
          · cases h
          · split at h <;> cases h
      | none =>
          cases hmarker : keys.find now (buildInProgressKey sha256 pair) with
          | some value => simp [hrecord, hmarker] at h
          | none => exact ⟨rfl, rfl, rfl⟩
  | failed => cases h
  | replyLost =>
      rw [checkLua_replyLost] at h
      cases h
  | rejected => cases h

theorem checkRead_decoded {now : Nat} {pair : Pair} {keys : Keyspace} {cached : String}
    {response : J} (hfind : keys.find now (buildKey sha256 pair) = some cached)
    (hloads : orjson.loads cached = some response) :
    checkRead sha256 orjson .answered now pair keys =
      (.returns ⟨.duplicate, some response⟩, keys) := by
  simp [checkRead, Operations.get, Operations.executeRedisOperation, Operations.getCommand,
    hfind, hloads]

/-- A read that fails, misses or does not decode goes on to `setnx`. -/
theorem checkRead_missed {fate : Fate} (hrejected : fate ≠ .rejected) {now : Nat} {pair : Pair}
    {keys : Keyspace}
    (h : fate ≠ .answered ∨
      ∀ cached, keys.find now (buildKey sha256 pair) = some cached →
        orjson.loads cached = none) :
    checkRead sha256 orjson fate now pair keys = (.acquire, keys) := by
  cases fate with
  | answered =>
      have hmiss := h.resolve_left (by simp)
      cases hfind : keys.find now (buildKey sha256 pair) with
      | none =>
          simp [checkRead, Operations.get, Operations.executeRedisOperation,
            Operations.getCommand, hfind]
      | some cached =>
          simp [checkRead, Operations.get, Operations.executeRedisOperation,
            Operations.getCommand, hfind, hmiss cached hfind]
  | failed => rfl
  | replyLost => rfl
  | rejected => exact absurd rfl hrejected

theorem checkRead_keys (fate : Fate) (now : Nat) (pair : Pair) (keys : Keyspace) :
    (checkRead sha256 orjson fate now pair keys).2 = keys := by
  have hget : (Operations.get fate now (buildKey sha256 pair) keys).2 = keys := by
    cases fate <;> rfl
  unfold checkRead
  dsimp only
  split
  · exact hget
  · exact hget
  · split <;> exact hget

theorem checkRead_ne_new (fate : Fate) (now : Nat) (pair : Pair) (keys : Keyspace)
    (response : Option J) :
    (checkRead sha256 orjson fate now pair keys).1 ≠ .returns ⟨.new, response⟩ := by
  unfold checkRead
  dsimp only
  split
  · simp
  · simp
  · split <;> simp

theorem acquireMarker_keys (fate : Fate) (now : Nat) (pair : Pair) (keys : Keyspace) :
    (acquireMarker (J := J) sha256 fate now pair keys).2 = keys ∨
      keys.find now (buildInProgressKey sha256 pair) = none ∧
        (acquireMarker (J := J) sha256 fate now pair keys).2 =
          keys.put (buildInProgressKey sha256 pair) (markerEntry now) := by
  simp only [acquireMarker, Operations.setnx, Operations.executeRedisOperation,
    setNxCommand_marker]
  cases hmarker : keys.find now (buildInProgressKey sha256 pair) with
  | some value => cases fate <;> exact .inl rfl
  | none =>
      cases fate with
      | answered => exact .inr ⟨rfl, rfl⟩
      | failed => exact .inl rfl
      | replyLost => exact .inr ⟨rfl, rfl⟩
      | rejected => exact .inl rfl

theorem acquireMarker_answered (now : Nat) (pair : Pair) (keys : Keyspace) :
    acquireMarker (J := J) sha256 .answered now pair keys =
      if (keys.find now (buildInProgressKey sha256 pair)).isSome then
        (.ok ⟨.inProgress, none⟩, keys)
      else
        (.ok ⟨.new, none⟩, keys.put (buildInProgressKey sha256 pair) (markerEntry now)) := by
  simp only [acquireMarker, Operations.setnx, Operations.executeRedisOperation,
    setNxCommand_marker]
  cases (keys.find now (buildInProgressKey sha256 pair)).isSome <;> rfl

/-- Without an answer `setnx` reads as `False`, and the check says `IN_PROGRESS`. -/
theorem acquireMarker_unanswered {fate : Fate} (hanswered : fate ≠ .answered)
    (hrejected : fate ≠ .rejected) (now : Nat) (pair : Pair) (keys : Keyspace) :
    (acquireMarker (J := J) sha256 fate now pair keys).1 = .ok ⟨.inProgress, none⟩ := by
  cases fate with
  | answered => exact absurd rfl hanswered
  | failed => rfl
  | replyLost =>
      simp only [acquireMarker, Operations.setnx, Operations.executeRedisOperation_replyLost]
  | rejected => exact absurd rfl hrejected

theorem checkAcquire_new {fate : Fate} {now : Nat} {pair : Pair} {keys : Keyspace}
    {response : Option J}
    (h : (checkAcquire (J := J) sha256 fate now pair keys).1 = .returns ⟨.new, response⟩) :
    keys.find now (buildInProgressKey sha256 pair) = none ∧
      (checkAcquire (J := J) sha256 fate now pair keys).2 =
        keys.put (buildInProgressKey sha256 pair) (markerEntry now) := by
  by_cases hanswered : fate = .answered
  · subst hanswered
    simp only [checkAcquire, acquireMarker_answered] at h ⊢
    cases hmarker : keys.find now (buildInProgressKey sha256 pair) with
    | some value => simp [hmarker, Next.ofEnd] at h
    | none => exact ⟨rfl, rfl⟩
  · by_cases hrejected : fate = .rejected
    · subst hrejected
      cases h
    · simp only [checkAcquire,
        acquireMarker_unanswered sha256 hanswered hrejected now pair keys] at h
      cases h

theorem storeRecord_keys (fate : Fate) (now : Nat) (pair : Pair) (response : J)
    (ttl : Option Int) (keys : Keyspace) :
    (storeRecord sha256 orjson fate now pair response ttl keys).2 = keys ∨
      ∃ serialized, orjson.dumps response = some serialized ∧
        Operations.validSeconds (effectiveTtl ttl) = true ∧
        (storeRecord sha256 orjson fate now pair response ttl keys).2 =
          keys.put (buildKey sha256 pair)
            ⟨serialized, some (Operations.deadline now (effectiveTtl ttl))⟩ := by
  unfold storeRecord
  cases hdumps : orjson.dumps response with
  | none => exact .inl rfl
  | some serialized =>
      simp only [Operations.set, setCommand_record]
      by_cases hvalid : Operations.validSeconds (effectiveTtl ttl) = true
      · cases fate with
        | answered =>
            refine .inr ⟨serialized, rfl, hvalid, ?_⟩
            simp [Operations.executeRedisOperation, hvalid]
        | failed => exact .inl rfl
        | replyLost =>
            refine .inr ⟨serialized, rfl, hvalid, ?_⟩
            simp [Operations.executeRedisOperation, hvalid]
        | rejected => exact .inl rfl
      · cases fate <;> simp [Operations.executeRedisOperation, hvalid]

theorem storeRecord_answered {now : Nat} {pair : Pair} {response : J} {ttl : Option Int}
    {keys : Keyspace} {serialized : String} (hdumps : orjson.dumps response = some serialized)
    (hvalid : Operations.validSeconds (effectiveTtl ttl) = true) :
    storeRecord sha256 orjson .answered now pair response ttl keys =
      (.ok (), keys.put (buildKey sha256 pair)
        ⟨serialized, some (Operations.deadline now (effectiveTtl ttl))⟩) := by
  simp only [storeRecord, hdumps, Operations.set, setCommand_record, hvalid, if_true,
    Operations.executeRedisOperation, Option.map_some]
  rfl

/-- Only a rejected write raises out of the first half of `store`. -/
theorem storeRecord_ok {fate : Fate} {now : Nat} {pair : Pair} {response : J}
    {ttl : Option Int} {keys : Keyspace}
    (h : ¬ ((orjson.dumps response).isSome ∧ fate = .rejected)) :
    (storeRecord sha256 orjson fate now pair response ttl keys).1 = .ok () := by
  unfold storeRecord
  cases hdumps : orjson.dumps response with
  | none => rfl
  | some serialized =>
      simp only [Operations.set, setCommand_record]
      cases fate with
      | answered =>
          by_cases hvalid : Operations.validSeconds (effectiveTtl ttl) = true <;>
            simp [Operations.executeRedisOperation, hvalid, Except.map]
      | failed => rfl
      | replyLost =>
          rw [Operations.executeRedisOperation_replyLost]
          rfl
      | rejected => simp [hdumps] at h

theorem storeRecord_written {fate : Fate} {now : Nat} {pair : Pair} {response : J}
    {ttl : Option Int} {keys : Keyspace} {serialized : String}
    (hdumps : orjson.dumps response = some serialized) (heffect : fate.takesEffect = true)
    (hvalid : Operations.validSeconds (effectiveTtl ttl) = true) :
    (storeRecord sha256 orjson fate now pair response ttl keys).2 =
      keys.put (buildKey sha256 pair)
        ⟨serialized, some (Operations.deadline now (effectiveTtl ttl))⟩ := by
  cases fate with
  | answered => rw [storeRecord_answered sha256 orjson hdumps hvalid]
  | failed => cases heffect
  | replyLost =>
      simp only [storeRecord, hdumps, Operations.set, setCommand_record, hvalid, if_true,
        Operations.executeRedisOperation, Option.map_some]
  | rejected => cases heffect

theorem releaseMarker_answered (now : Nat) (pair : Pair) (keys : Keyspace) :
    releaseMarker sha256 .answered now pair keys =
      (.ok (), keys.remove (buildInProgressKey sha256 pair)) := rfl

theorem releaseMarker_ok {fate : Fate} (h : fate ≠ .rejected) (now : Nat) (pair : Pair)
    (keys : Keyspace) : (releaseMarker sha256 fate now pair keys).1 = .ok () := by
  cases fate with
  | rejected => exact absurd rfl h
  | _ => rfl

theorem releaseMarker_keys (fate : Fate) (now : Nat) (pair : Pair) (keys : Keyspace) :
    (releaseMarker sha256 fate now pair keys).2 =
      if fate.takesEffect then keys.remove (buildInProgressKey sha256 pair) else keys := by
  cases fate <;> rfl

theorem dropRecord_keys (fate : Fate) (now : Nat) (pair : Pair) (keys : Keyspace) :
    (dropRecord sha256 fate now pair keys).2 =
      if fate.takesEffect then keys.remove (buildKey sha256 pair) else keys := by
  cases fate <;> rfl

end Service

end BackendProdReady.Idempotency.Service
