import BackendProdReady.Cache.Backends
import BackendProdReady.Cache.Operations
import BackendProdReady.Exceptions.Classes

/-!
# What the data operations contain

`_execute_redis_operation` with the exceptions of the Redis client, and the eight
operations on data that go through it.  The circuit breaker is a parameter: it
rejects a call on entry, or lets the call's own outcome through.
-/

namespace BackendProdReady.Cache.FailSoft

open BackendProdReady.Exceptions.Classes
open BackendProdReady.Cache.Connection (CacheService)
open BackendProdReady.Cache.Backends

/-! ## Exceptions of a protected call -/

structure RedisException where
  object : ExcObject
  /-- `type(e).__name__` -/
  typeName : String

def redisError : ExcClass := .other "redis.RedisError"

def typeError : ExcClass := .other "TypeError"

def valueError : ExcClass := .other "ValueError"

def jsonDecodeError : ExcClass := .other "orjson.JSONDecodeError"

def RedisException.isInstance (e : RedisException) (classes : List ExcClass) : Bool :=
  (Exc.object e.object).isInstance classes

variable {α β : Type}

/-- The `except` clauses of `_execute_redis_operation`. -/
def contains (e : RedisException) : Bool :=
  e.isInstance [redisError] || e.isInstance [typeError, valueError, jsonDecodeError] ||
    (e.isInstance [.exception] && e.typeName == "CircuitBreakerFailed")

def executeRedisOperation (protectedOperation : Except RedisException α) (defaultReturn : α) :
    Except RedisException α :=
  match protectedOperation with
  | .ok value => .ok value
  | .error e => if contains e then .ok defaultReturn else .error e

/-! ## The breaker -/

/-- `β` is what the breaker remembers. -/
structure CircuitBreaker (β : Type) where
  isOpen : β → Nat → Bool
  /-- What a call on the open breaker raises. -/
  openedState : RedisException
  /-- After a call that was let through and succeeded or failed. -/
  recorded : β → Nat → Bool → β

namespace CircuitBreaker

def protect (breaker : CircuitBreaker β) (b : β) (now : Nat) (call : Except RedisException α) :
    Except RedisException α :=
  if breaker.isOpen b now then .error breaker.openedState else call

/-- The breaker after one operation; a rejected call is not counted. -/
def afterCall (breaker : CircuitBreaker β) (b : β) (call : Nat × Bool) : β :=
  if breaker.isOpen b call.1 then b else breaker.recorded b call.1 call.2

def afterHistory (breaker : CircuitBreaker β) (b : β) (history : List (Nat × Bool)) : β :=
  history.foldl breaker.afterCall b

/-- An `Exception` of the class `OpenedState`, unrelated to those that are contained. -/
structure RaisesOpenedState (breaker : CircuitBreaker β) : Prop where
  typeName : breaker.openedState.typeName = "OpenedState"
  unrelated : ∀ c ∈ [redisError, typeError, valueError, jsonDecodeError],
    c ∉ breaker.openedState.object.classes

end CircuitBreaker

/-! ## The operations -/

section Operations

variable {J L : Type}

inductive Value (J L : Type)
  | none
  | text (s : String)
  | json (j : J)
  | flag (b : Bool)
  | count (n : Nat)
  | reply (l : L)

/-- `value or default` -/
def Value.orElse (default : Value J L) : Value J L → Value J L
  | .none | .flag false | .count 0 => default
  | value => value

/-- One page of a SCAN: its keys, and the answer to their DEL. -/
structure ScanPage where
  keys : Except RedisException (List String)
  deleted : Except RedisException Nat

structure RedisClient (J L : Type) where
  get : String → Except RedisException (Option String)
  /-- SET, or SETEX when a time is given. -/
  set : String → String → Option Int → Except RedisException Unit
  /-- SET NX; whether the answer is other than `None`. -/
  setNx : String → String → Option Int → Except RedisException Bool
  delete : String → Except RedisException Nat
  /-- The pages for a pattern and a batch size, up to the cursor 0. -/
  scan : String → Nat → List ScanPage
  eval : String → List String → List String → Except RedisException (Option L)
  /-- `orjson.loads` and the two datetime fields. -/
  loads : String → Except RedisException J
  /-- `orjson.dumps` -/
  dumps : J → Except RedisException String

inductive DataOperation (J : Type)
  | get (key : String)
  | getJson (key : String)
  | set (key value : String) (ttl : Option Int)
  | setnx (key value : String) (ttl : Option Int)
  | setJson (key : String) (value : J) (ttl : Option Int)
  | delete (key : String)
  | deletePattern (pattern : String) (batchSize : Nat)
  | executeLuaScript (script : String) (keys args : List String)

/-- The loop of `delete_pattern`. -/
def deletePages : List ScanPage → Nat → Except RedisException Nat
  | [], deleted => .ok deleted
  | page :: pages, deleted =>
      match page.keys with
      | .error e => .error e
      | .ok [] => deletePages pages deleted
      | .ok (_ :: _) =>
          match page.deleted with
          | .error e => .error e
          | .ok n => deletePages pages (deleted + n)

namespace DataOperation

/-- The closure that the operation passes to `_execute_redis_operation`. -/
def operation (client : RedisClient J L) : DataOperation J → Except RedisException (Value J L)
  | .get key => (client.get key).map fun value => value.elim .none .text
  | .getJson key =>
      match client.get key with
      | .error e => .error e
      | .ok none => .ok .none
      | .ok (some value) => (client.loads value).map .json
  | .set key value ttl => (client.set key value (ttl.filter (· ≠ 0))).map fun _ => .flag true
  | .setnx key value ttl => (client.setNx key value ttl).map .flag
  | .setJson key value ttl =>
      match client.dumps value with
      | .error e => .error e
      | .ok text => (client.set key text (ttl.filter (· ≠ 0))).map fun _ => .flag true
  | .delete key => (client.delete key).map fun n => .flag (n ≠ 0)
  | .deletePattern pattern batchSize => (deletePages (client.scan pattern batchSize) 0).map .count
  | .executeLuaScript script keys args =>
      (client.eval script keys args).map fun result => result.elim .none .reply

/-- `default_return`, and the documented default. -/
def defaultReturn : DataOperation J → Value J L
  | .get _ | .getJson _ | .executeLuaScript _ _ _ => .none
  | .set _ _ _ | .setnx _ _ _ | .setJson _ _ _ | .delete _ => .flag false
  | .deletePattern _ _ => .count 0

/-- `get`, `get_json` and `execute_lua_script` return what they get, the others
`… or default`. -/
def finish : DataOperation J → Value J L → Value J L
  | .get _, value | .getJson _, value | .executeLuaScript _ _ _, value => value
  | .set _ _ _, value | .setnx _ _ _, value | .setJson _ _ _, value | .delete _, value =>
      value.orElse (.flag false)
  | .deletePattern _ _, value => value.orElse (.count 0)

def backend (service : CacheService) : DataOperation J → Backend
  | .executeLuaScript _ _ _ => luaBackend service
  | _ => dataBackend service

/-- The operation after `_ensure_connected`; `inMemory` is the answer of an active
fallback. -/
def run (breaker : CircuitBreaker β) (b : β) (now : Nat) (service : CacheService)
    (client : RedisClient J L) (inMemory : Value J L) (op : DataOperation J) :
    Except RedisException (Value J L) :=
  match op.backend service with
  | .inMemory => .ok inMemory
  | .unavailable => .ok (op.finish op.defaultReturn)
  | .redis =>
      (executeRedisOperation (breaker.protect b now (op.operation client)) op.defaultReturn).map
        op.finish

end DataOperation

end Operations

/-! ## What is contained -/

theorem contains_redisError {e : RedisException} (h : e.isInstance [redisError] = true) :
    contains e = true := by
  simp [contains, h]

theorem isInstance_eq_false {e : RedisException} {classes : List ExcClass}
    (h : ∀ c ∈ classes, c ∉ e.object.classes) : e.isInstance classes = false := by
  rw [RedisException.isInstance, Exc.isInstance, List.any_eq_false]
  intro c hc
  rw [decide_eq_true_eq]
  exact h c hc

theorem not_contains_openedState {breaker : CircuitBreaker β} (h : breaker.RaisesOpenedState) :
    contains breaker.openedState = false := by
  have hredis : breaker.openedState.isInstance [redisError] = false :=
    isInstance_eq_false fun c hc => h.unrelated c (by simp_all)
  have hvalue : breaker.openedState.isInstance [typeError, valueError, jsonDecodeError] = false :=
    isInstance_eq_false fun c hc => h.unrelated c (List.mem_cons_of_mem _ hc)
  simp [contains, hredis, hvalue, h.typeName]

theorem executeRedisOperation_contained {e : RedisException} (h : contains e = true)
    (defaultReturn : α) : executeRedisOperation (.error e) defaultReturn = .ok defaultReturn := by
  simp [executeRedisOperation, h]

theorem executeRedisOperation_raised {e : RedisException} (h : contains e = false)
    (defaultReturn : α) : executeRedisOperation (.error e) defaultReturn = .error e := by
  simp [executeRedisOperation, h]

def outcomeOf (e rejection : RedisException) (fate : Operations.Fate)
    (operation : Operations.Command α) (keys : Operations.Keyspace) : Except RedisException α :=
  match fate, operation keys with
  | .rejected, _ => .error rejection
  | .answered, some (reply, _) => .ok reply
  | _, _ => .error e

/-- The operations with fates are these, for any `RedisError` and any rejection that is
not contained. -/
theorem executeRedisOperation_fate {e rejection : RedisException}
    (he : e.isInstance [redisError] = true) (hrejection : contains rejection = false)
    (fate : Operations.Fate) (operation : Operations.Command α) (defaultReturn : α)
    (keys : Operations.Keyspace) :
    executeRedisOperation (outcomeOf e rejection fate operation keys) defaultReturn =
      (Operations.executeRedisOperation fate operation defaultReturn keys).1.mapError
        fun _ => rejection := by
  have hcontained := executeRedisOperation_contained (contains_redisError he) defaultReturn
  unfold outcomeOf Operations.executeRedisOperation
  cases fate with
  | answered =>
      cases operation keys with
      | none => exact hcontained
      | some run => rfl
  | failed => exact hcontained
  | replyLost =>
      cases operation keys with
      | none => exact hcontained
      | some run => exact hcontained
  | rejected => exact executeRedisOperation_raised hrejection defaultReturn

/-! ## Failing soft -/

section FailSoft

variable {J L : Type}

structure FailsSoft (breaker : CircuitBreaker β) (b : β) (now : Nat) (service : CacheService)
    (client : RedisClient J L) (inMemory : Value J L) (op : DataOperation J) : Prop where
  whenOpen : breaker.isOpen b now = true →
    op.run breaker b now service client inMemory = .ok op.defaultReturn
  onRedisError : ∀ e, breaker.isOpen b now = false → op.operation client = .error e →
    e.isInstance [redisError] = true →
    op.run breaker b now service client inMemory = .ok op.defaultReturn

/-- The documented defaults: `None`, `False` and 0. -/
theorem FailsSoft.returns {breaker : CircuitBreaker β} {b : β} {now : Nat}
    {service : CacheService} {client : RedisClient J L} {inMemory : Value J L}
    {op : DataOperation J} (h : FailsSoft breaker b now service client inMemory op)
    {e : RedisException} (hclosed : breaker.isOpen b now = false)
    (hraised : op.operation client = .error e) (herror : e.isInstance [redisError] = true) :
    op.run breaker b now service client inMemory =
      .ok (match op with
        | .get _ | .getJson _ | .executeLuaScript _ _ _ => .none
        | .set _ _ _ | .setnx _ _ _ | .setJson _ _ _ | .delete _ => .flag false
        | .deletePattern _ _ => .count 0) := by
  rw [h.onRedisError e hclosed hraised herror]
  cases op <;> rfl

theorem finish_defaultReturn (op : DataOperation J) :
    op.finish (op.defaultReturn : Value J L) = op.defaultReturn := by
  cases op <;> rfl

/-- For every history of the breaker, an operation that has Redis selected fails soft
exactly when the breaker is not open. -/
theorem failsSoft_iff {breaker : CircuitBreaker β} (hopened : breaker.RaisesOpenedState)
    (start : β) (history : List (Nat × Bool)) (now : Nat) {service : CacheService}
    (client : RedisClient J L) (inMemory : Value J L) {op : DataOperation J}
    (hredis : op.backend service = .redis) :
    FailsSoft breaker (breaker.afterHistory start history) now service client inMemory op ↔
      breaker.isOpen (breaker.afterHistory start history) now = false := by
  generalize breaker.afterHistory start history = b
  have hrun : op.run breaker b now service client inMemory =
      (executeRedisOperation (breaker.protect b now (op.operation client))
        op.defaultReturn).map op.finish := by
    rw [DataOperation.run, hredis]
  constructor
  · intro h
    rw [← Bool.not_eq_true]
    intro hopen
    have hdefault := h.whenOpen hopen
    rw [hrun, CircuitBreaker.protect, if_pos hopen,
      executeRedisOperation_raised (not_contains_openedState hopened)] at hdefault
    cases hdefault
  · intro hclosed
    refine ⟨fun hopen => by simp [hclosed] at hopen, ?_⟩
    intro e _ hraised hredisError
    rw [hrun, CircuitBreaker.protect, if_neg (by simp [hclosed]), hraised,
      executeRedisOperation_contained (contains_redisError hredisError)]
    exact congrArg Except.ok (finish_defaultReturn op)

end FailSoft

/-! ## An outage -/

/-- A count of failures in a row, and since when the breaker is open. -/
structure BreakerState where
  failures : Nat
  openedAt : Option Nat
deriving DecidableEq

def purgatoryOpenedState : RedisException where
  object :=
    { ident := 0
      classes := [.other "OpenedState", .exception, .baseException]
      typeTruth := true
      truth := true
      closed := closed_openedState }
  typeName := "OpenedState"

/-- Open for `ttl` after `threshold` failures; then the next call decides. -/
def thresholdBreaker (threshold ttl : Nat) : CircuitBreaker BreakerState where
  isOpen b now := b.openedAt.any fun t => now < t + ttl
  openedState := purgatoryOpenedState
  recorded b now succeeded :=
    if succeeded then ⟨0, none⟩
    else if b.openedAt.isSome ∨ threshold ≤ b.failures + 1 then ⟨b.failures + 1, some now⟩
    else ⟨b.failures + 1, none⟩

theorem raisesOpenedState_thresholdBreaker (threshold ttl : Nat) :
    (thresholdBreaker threshold ttl).RaisesOpenedState where
  typeName := rfl
  unrelated := by
    simp only [thresholdBreaker]
    decide

def connectionError : RedisException where
  object :=
    { ident := 1
      classes := [.other "redis.ConnectionError", redisError, .exception, .baseException]
      typeTruth := true
      truth := true
      closed := closed_cons_other _ (closed_cons_other _ closed_exception) }
  typeName := "ConnectionError"

def downClient : RedisClient Nat Nat where
  get _ := .error connectionError
  set _ _ _ := .error connectionError
  setNx _ _ _ := .error connectionError
  delete _ := .error connectionError
  scan _ _ := [⟨.error connectionError, .error connectionError⟩]
  eval _ _ _ := .error connectionError
  loads _ := .ok 0
  dumps _ := .ok "0"

def connectedService : CacheService :=
  { CacheService.init with redisClient := true, initialized := true }

theorem failsSoft_while_closed :
    FailsSoft (thresholdBreaker 5 60000) ⟨4, none⟩ 0 connectedService downClient .none
      (.delete "key") :=
  (failsSoft_iff (raisesOpenedState_thresholdBreaker 5 60000) ⟨0, none⟩
    [(0, false), (0, false), (0, false), (0, false)] 0 downClient .none rfl).mpr rfl

theorem open_breaker_raises :
    let history := [(0, false), (0, false), (0, false), (0, false), (0, false)]
    let b := (thresholdBreaker 5 60000).afterHistory ⟨0, none⟩ history
    (thresholdBreaker 5 60000).isOpen b 0 = true ∧
      (DataOperation.get "key").run (thresholdBreaker 5 60000) b 0 connectedService downClient
        .none = .error purgatoryOpenedState ∧
      ¬ FailsSoft (thresholdBreaker 5 60000) b 0 connectedService downClient .none
        (.get "key") := by
  intro history b
  have hraised : (DataOperation.get "key").run (thresholdBreaker 5 60000) b 0 connectedService
      downClient .none = .error purgatoryOpenedState := by
    have hnot := not_contains_openedState (raisesOpenedState_thresholdBreaker 5 60000)
    have hoperation := executeRedisOperation_raised hnot (Value.none : Value Nat Nat)
    exact congrArg (Except.map (DataOperation.get "key").finish) hoperation
  refine ⟨by decide, hraised, fun hsoft => ?_⟩
  have hdefault := hsoft.whenOpen (by decide)
  rw [hraised] at hdefault
  cases hdefault

end BackendProdReady.Cache.FailSoft
