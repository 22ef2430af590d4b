import BackendProdReady.Lib.InsertionDict

/-!
# The in-memory cache

`InMemoryCache`, the fallback in local environments.  No operation suspends
between its first and its last access to the entries.  Times are in
milliseconds; `fnmatch` is a parameter of `delete_pattern`.
-/

namespace BackendProdReady.Cache.InMemory

open BackendProdReady.Lib.InsertionDict

/-- A value and the instant after which it has expired. -/
abbrev CacheEntry := String × Option Int

structure InMemoryCache where
  cache : Dict String CacheEntry
  maxSize : Nat
deriving DecidableEq

namespace InMemoryCache

def init : InMemoryCache := ⟨[], 10000⟩

def isExpired (now : Nat) : Option Int → Bool
  | none => false
  | some expiry => (now : Int) > expiry

/-- `time.time() + ttl if ttl else None`. -/
def expiryOf (now : Nat) : Option Int → Option Int
  | none => none
  | some ttl => if ttl = 0 then none else some (now + 1000 * ttl)

/-- An expiry of zero is false in a boolean context and kept. -/
def cleanupExpired (now : Nat) (c : InMemoryCache) : InMemoryCache :=
  { c with cache := c.cache.filter fun p => !(p.2.2.any (· ≠ 0) && isExpired now p.2.2) }

/-- `set` at capacity: the expired entries go, and if that is not enough the
oldest tenth. -/
def evict (now : Nat) (c : InMemoryCache) : InMemoryCache :=
  if c.cache.length ≥ c.maxSize then
    let cleaned := c.cleanupExpired now
    if cleaned.cache.length ≥ cleaned.maxSize then
      { cleaned with cache := cleaned.cache.drop (cleaned.maxSize / 10) }
    else cleaned
  else c

def assign (now : Nat) (key value : String) (ttl : Option Int) (c : InMemoryCache) :
    InMemoryCache :=
  { c with cache := c.cache.assign key (value, expiryOf now ttl) }

def get (now : Nat) (key : String) (c : InMemoryCache) : Option String × InMemoryCache :=
  match c.cache.find key with
  | none => (none, c)
  | some (value, expiry) =>
      if isExpired now expiry then (none, { c with cache := c.cache.removeIf (· = key) })
      else (some value, c)

def set (now : Nat) (key value : String) (ttl : Option Int) (c : InMemoryCache) :
    Bool × InMemoryCache :=
  (true, (c.evict now).assign now key value ttl)

def setnx (now : Nat) (key value : String) (ttl : Option Int) (c : InMemoryCache) :
    Bool × InMemoryCache :=
  match c.cache.find key with
  | none => (true, c.assign now key value ttl)
  | some (_, expiry) =>
      if isExpired now expiry then (true, c.assign now key value ttl) else (false, c)

def delete (key : String) (c : InMemoryCache) : Bool × InMemoryCache :=
  ((c.cache.find key).isSome, { c with cache := c.cache.removeIf (· = key) })

def deletePattern (fnmatch : String → String → Bool) (pattern : String) (c : InMemoryCache) :
    Nat × InMemoryCache :=
  ((c.cache.filter fun p => fnmatch p.1 pattern).length,
    { c with cache := c.cache.removeIf fun key => fnmatch key pattern })

/-! ## Live entries -/

def liveExpiry (now : Nat) (key : String) (c : InMemoryCache) : Option (Option Int) :=
  match c.cache.find key with
  | none => none
  | some (_, expiry) => if isExpired now expiry then none else some expiry

def liveEntry (now : Nat) (key : String) (c : InMemoryCache) : Option CacheEntry :=
  match c.cache.find key with
  | none => none
  | some entry => if isExpired now entry.2 then none else some entry

theorem liveEntry_eq_some {c : InMemoryCache} {now : Nat} {key : String} {entry : CacheEntry} :
    c.liveEntry now key = some entry ↔
      c.cache.find key = some entry ∧ isExpired now entry.2 = false := by
  unfold liveEntry
  cases c.cache.find key with
  | none => simp
  | some found =>
      dsimp only
      split_ifs with hexpired
      · simp only [Option.some.injEq, false_iff, not_and]
        rintro rfl
        simp [hexpired]
      · simp only [Option.some.injEq, iff_self_and]
        rintro rfl
        simpa using hexpired

theorem liveExpiry_eq_liveEntry (now : Nat) (c : InMemoryCache) (key : String) :
    c.liveExpiry now key = (c.liveEntry now key).map Prod.snd := by
  unfold liveExpiry liveEntry
  cases c.cache.find key with
  | none => rfl
  | some entry =>
      obtain ⟨value, expiry⟩ := entry
      dsimp only
      split_ifs <;> rfl

theorem liveExpiry_congr {c d : InMemoryCache} {key : String}
    (h : d.cache.find key = c.cache.find key) (now : Nat) :
    d.liveExpiry now key = c.liveExpiry now key := by
  simp [liveExpiry, h]

/-- An operation below capacity evicts nothing. -/
theorem evict_of_lt {c : InMemoryCache} (h : c.cache.length < c.maxSize) (now : Nat) :
    c.evict now = c := by
  rw [evict, if_neg (by omega)]

/-- `get` of a live entry leaves the cache as it is; otherwise the key is gone. -/
theorem get_cases (now : Nat) (key : String) (c : InMemoryCache) :
    (∃ entry, c.liveEntry now key = some entry ∧ c.get now key = (some entry.1, c)) ∨
      (c.liveEntry now key = none ∧
        c.get now key = (none, { c with cache := c.cache.removeIf (· = key) })) := by
  unfold get liveEntry
  cases hfind : c.cache.find key with
  | none =>
      have hnew : key ∉ Dict.keys c.cache := by simp [Dict.mem_keys_iff, hfind]
      rw [Dict.removeIf_of_not_mem hnew]
      exact .inr ⟨rfl, rfl⟩
  | some entry =>
      obtain ⟨value, expiry⟩ := entry
      dsimp only
      split_ifs
      · exact .inr ⟨rfl, rfl⟩
      · exact .inl ⟨_, rfl, rfl⟩

/-- `setnx` writes where there is no live entry. -/
theorem setnx_cases (now : Nat) (key value : String) (ttl : Option Int) (c : InMemoryCache) :
    (∃ entry, c.liveEntry now key = some entry ∧ c.setnx now key value ttl = (false, c)) ∨
      (c.liveEntry now key = none ∧
        c.setnx now key value ttl = (true, c.assign now key value ttl)) := by
  unfold setnx liveEntry
  cases c.cache.find key with
  | none => exact .inr ⟨rfl, rfl⟩
  | some entry =>
      obtain ⟨held, expiry⟩ := entry
      dsimp only
      split_ifs
      · exact .inr ⟨rfl, rfl⟩
      · exact .inl ⟨_, rfl, rfl⟩

theorem setnx_of_live {c : InMemoryCache} {now : Nat} {key : String} {expiry : Option Int}
    (h : c.liveExpiry now key = some expiry) (value : String) (ttl : Option Int) :
    c.setnx now key value ttl = (false, c) := by
  rw [liveExpiry_eq_liveEntry] at h
  rcases c.setnx_cases now key value ttl with ⟨entry, -, hset⟩ | ⟨hlive, -⟩
  · exact hset
  · rw [hlive] at h
    cases h

theorem setnx_of_not_live {c : InMemoryCache} {now : Nat} {key : String}
    (h : c.liveExpiry now key = none) (value : String) (ttl : Option Int) :
    c.setnx now key value ttl = (true, c.assign now key value ttl) := by
  rw [liveExpiry_eq_liveEntry] at h
  rcases c.setnx_cases now key value ttl with ⟨entry, hlive, -⟩ | ⟨-, hset⟩
  · rw [hlive] at h
    cases h
  · exact hset

theorem get_of_live {c : InMemoryCache} {now : Nat} {key : String} {expiry : Option Int}
    (h : c.liveExpiry now key = some expiry) : (c.get now key).2 = c := by
  rw [liveExpiry_eq_liveEntry] at h
  rcases c.get_cases now key with ⟨entry, -, hget⟩ | ⟨hlive, -⟩
  · rw [hget]
  · rw [hlive] at h
    cases h

theorem get_of_not_live {c : InMemoryCache} {now : Nat} {key : String}
    (h : c.liveExpiry now key = none) : (c.get now key).1 = none := by
  rw [liveExpiry_eq_liveEntry] at h
  rcases c.get_cases now key with ⟨entry, hlive, -⟩ | ⟨-, hget⟩
  · rw [hlive] at h
    cases h
  · rw [hget]

/-! ## What stays -/

theorem evict_sublist (now : Nat) (c : InMemoryCache) :
    (c.evict now).cache.Sublist c.cache := by
  unfold evict
  dsimp only
  split_ifs
  · exact (List.drop_sublist _ _).trans List.filter_sublist
  · exact List.filter_sublist
  · exact List.Sublist.refl _

theorem get_sublist (now : Nat) (key : String) (c : InMemoryCache) :
    (c.get now key).2.cache.Sublist c.cache := by
  rcases c.get_cases now key with ⟨entry, -, hget⟩ | ⟨-, hget⟩
  · simp [hget]
  · rw [hget]
    exact List.filter_sublist

theorem find_get_of_ne {now : Nat} {key other : String} {c : InMemoryCache} (h : other ≠ key) :
    (c.get now key).2.cache.find other = c.cache.find other := by
  rcases c.get_cases now key with ⟨entry, -, hget⟩ | ⟨-, hget⟩
  · rw [hget]
  · rw [hget]
    exact (Dict.find_removeIf_eq _ _ _).trans (if_neg h)

/-! ## What is seen of the live entries -/

theorem get_eq_liveEntry (now : Nat) (c : InMemoryCache) (key : String) :
    (c.get now key).1 = (c.liveEntry now key).map Prod.fst := by
  rcases c.get_cases now key with ⟨entry, hlive, hget⟩ | ⟨hlive, hget⟩
  · rw [hget, hlive, Option.map_some]
  · rw [hget, hlive, Option.map_none]

theorem setnx_eq_liveEntry (now : Nat) (c : InMemoryCache) (key value : String)
    (ttl : Option Int) : (c.setnx now key value ttl).1 = (c.liveEntry now key).isNone := by
  rcases c.setnx_cases now key value ttl with ⟨entry, hlive, hset⟩ | ⟨hlive, hset⟩
  · rw [hset, hlive, Option.isNone_some]
  · rw [hset, hlive, Option.isNone_none]

theorem liveEntry_assign (now : Nat) (c : InMemoryCache) (key value : String)
    (ttl : Option Int) (other : String) :
    (c.assign now key value ttl).liveEntry now other =
      if other = key then
        if isExpired now (expiryOf now ttl) then none else some (value, expiryOf now ttl)
      else c.liveEntry now other := by
  unfold liveEntry assign
  split_ifs with hsame hexpired
  · simp [hsame, Dict.find_assign_self, hexpired]
  · simp [hsame, Dict.find_assign_self, hexpired]
  · rw [Dict.find_assign_of_ne _ (Ne.symm hsame)]

theorem liveEntry_delete (now : Nat) (c : InMemoryCache) (key other : String) :
    (c.delete key).2.liveEntry now other =
      if other = key then none else c.liveEntry now other := by
  simp only [liveEntry, delete, Dict.find_removeIf_eq]
  split_ifs <;> rfl

/-- What `get` removes was not live. -/
theorem liveEntry_get (now : Nat) (c : InMemoryCache) (key other : String) :
    (c.get now key).2.liveEntry now other = c.liveEntry now other := by
  rcases c.get_cases now key with ⟨entry, -, hget⟩ | ⟨hlive, hget⟩
  · rw [hget]
  · rw [hget]
    calc (c.delete key).2.liveEntry now other
        = if other = key then none else c.liveEntry now other := liveEntry_delete now c key other
      _ = c.liveEntry now other := by
          split_ifs with hsame
          · rw [hsame, hlive]
          · rfl

/-- What is live later was live before. -/
theorem liveEntry_of_le {now later : Nat} (h : now ≤ later) (c : InMemoryCache) (key : String) :
    c.liveEntry later key =
      (c.liveEntry now key).filter fun entry => !isExpired later entry.2 := by
  unfold liveEntry
  cases c.cache.find key with
  | none => rfl
  | some entry =>
      obtain ⟨value, expiry⟩ := entry
      have hmono : isExpired now expiry = true → isExpired later expiry = true := by
        cases expiry with
        | none => exact id
        | some instant =>
            simp only [isExpired, decide_eq_true_eq]
            omega
      dsimp only
      split_ifs with hlater hnow hnow
      · rfl
      · simp [Option.filter, hlater]
      · exact absurd (hmono hnow) hlater
      · simp [Option.filter, hlater]

end InMemoryCache

end BackendProdReady.Cache.InMemory
