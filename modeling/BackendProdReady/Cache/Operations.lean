import BackendProdReady.Lib.ExpiringStore

/-!
# Cache operations on a connected Redis

The server's commands on one keyspace, with times in milliseconds, and the
operations of `CacheService` over them.  `_execute_redis_operation` turns every
`RedisError` into the default of the operation, whether the command took effect
on the server or not; a call that the open circuit breaker rejects raises.
-/

namespace BackendProdReady.Cache.Operations

open BackendProdReady.Lib.ExpiringStore

abbrev Keyspace := Store String String

/-! ## Commands of the server -/

/-- An expiry in seconds that the server accepts; anything else is an error
reply.  The share of the clock in the 64-bit bound is left out. -/
def validSeconds (seconds : Int) : Bool := 0 < seconds && seconds * 1000 ≤ 0x7fffffffffffffff

def deadline (now : Nat) (seconds : Int) : Nat := now + 1000 * seconds.toNat

/-- A command answers and leaves a keyspace, or is refused with an error reply. -/
abbrev Command (α : Type) := Keyspace → Option (α × Keyspace)

def getCommand (now : Nat) (key : String) : Command (Option String) := fun keys =>
  some (keys.find now key, keys)

/-- SET, or SETEX when `seconds` is given. -/
def setCommand (now : Nat) (key value : String) (seconds : Option Int) : Command Unit :=
  fun keys =>
    match seconds with
    | none => some ((), keys.put key ⟨value, none⟩)
    | some seconds =>
        if validSeconds seconds then
          some ((), keys.put key ⟨value, some (deadline now seconds)⟩)
        else none

/-- SET NX, with EX when `seconds` is given; answers whether the key was set. -/
def setNxCommand (now : Nat) (key value : String) (seconds : Option Int) : Command Bool :=
  fun keys =>
    match seconds with
    | none =>
        if (keys.find now key).isSome then some (false, keys)
        else some (true, keys.put key ⟨value, none⟩)
    | some seconds =>
        if validSeconds seconds then
          if (keys.find now key).isSome then some (false, keys)
          else some (true, keys.put key ⟨value, some (deadline now seconds)⟩)
        else none

/-- DEL; answers whether a live key was removed. -/
def delCommand (now : Nat) (key : String) : Command Bool := fun keys =>
  some ((keys.find now key).isSome, keys.remove key)

/-! ## `CacheService` -/

inductive Fate
  | answered
  /-- A `RedisError` before the command takes effect. -/
  | failed
  /-- The command takes effect and a `RedisError` is raised in place of its reply. -/
  | replyLost
  /-- The circuit breaker is open. -/
  | rejected
deriving DecidableEq

def Fate.takesEffect : Fate → Bool
  | .answered | .replyLost => true
  | .failed | .rejected => false

/-- The exception of an open breaker, which no `except` clause contains. -/
inductive BreakerError
  | openedState
deriving DecidableEq

def executeRedisOperation {α : Type} (fate : Fate) (operation : Command α) (defaultReturn : α)
    (keys : Keyspace) : Except BreakerError α × Keyspace :=
  match fate with
  | .answered =>
      match operation keys with
      | some (reply, keys') => (.ok reply, keys')
      | none => (.ok defaultReturn, keys)
  | .failed => (.ok defaultReturn, keys)
  | .replyLost =>
      match operation keys with
      | some (_, keys') => (.ok defaultReturn, keys')
      | none => (.ok defaultReturn, keys)
  | .rejected => (.error .openedState, keys)

/-- A lost reply reads as the default. -/
theorem executeRedisOperation_replyLost {α : Type} (operation : Command α) (defaultReturn : α)
    (keys : Keyspace) :
    (executeRedisOperation .replyLost operation defaultReturn keys).1 = .ok defaultReturn := by
  unfold executeRedisOperation
  dsimp only
  split <;> rfl

section Operations

variable (fate : Fate) (now : Nat)

def get (key : String) (keys : Keyspace) : Except BreakerError (Option String) × Keyspace :=
  executeRedisOperation fate (getCommand now key) none keys

/-- `ttl` selects SETEX when it is true in a boolean context. -/
def set (key value : String) (ttl : Option Int) (keys : Keyspace) :
    Except BreakerError Bool × Keyspace :=
  let seconds := ttl.filter (· ≠ 0)
  executeRedisOperation fate
    (fun keys => (setCommand now key value seconds keys).map fun r => (true, r.2)) false keys

def setnx (key value : String) (ttl : Option Int) (keys : Keyspace) :
    Except BreakerError Bool × Keyspace :=
  executeRedisOperation fate (setNxCommand now key value ttl) false keys

def delete (key : String) (keys : Keyspace) : Except BreakerError Bool × Keyspace :=
  executeRedisOperation fate (delCommand now key) false keys

def executeLuaScript {α : Type} (script : Command α) (keys : Keyspace) :
    Except BreakerError (Option α) × Keyspace :=
  executeRedisOperation fate (fun keys => (script keys).map fun r => (some r.1, r.2)) none keys

end Operations

end BackendProdReady.Cache.Operations
