import BackendProdReady.Cache.Capacity
import Mathlib.Data.List.Nodup

/-!
# The in-memory cache as a map with lifetimes

Operations in time order, beside the last successful write of each key.  Expired
entries that are still stored count towards capacity until something removes
them; clean-up removes all but those whose expiry is exactly zero.
-/

namespace BackendProdReady.Cache.TtlMap

open BackendProdReady.Lib.InsertionDict
open BackendProdReady.Lib.Runs
open BackendProdReady.Cache.InMemory
open BackendProdReady.Cache.InMemory.InMemoryCache
open BackendProdReady.Cache.Fallback (Operation Operation.serve Reply)

/-! ## Live entries of a dictionary -/

def liveIn (now : Nat) (d : Dict String CacheEntry) (key : String) : Option CacheEntry :=
  (d.find key).filter fun entry => !isExpired now entry.2

theorem liveIn_eq_some {now : Nat} {d : Dict String CacheEntry} {key : String}
    {entry : CacheEntry} :
    liveIn now d key = some entry ↔ d.find key = some entry ∧ isExpired now entry.2 = false := by
  simp [liveIn, Option.filter_eq_some_iff]

theorem liveEntry_eq_liveIn (now : Nat) (c : InMemoryCache) (key : String) :
    c.liveEntry now key = liveIn now c.cache key := by
  refine Option.ext fun entry => ?_
  rw [liveEntry_eq_some, liveIn_eq_some]

theorem liveIn_assign (now : Nat) (d : Dict String CacheEntry) (key : String)
    (entry : CacheEntry) (other : String) :
    liveIn now (d.assign key entry) other =
      if other = key then (some entry).filter fun e => !isExpired now e.2
      else liveIn now d other := by
  unfold liveIn
  split_ifs with hsame
  · rw [hsame, Dict.find_assign_self]
  · rw [Dict.find_assign_of_ne _ (Ne.symm hsame)]

theorem liveIn_removeIf (now : Nat) (d : Dict String CacheEntry) (drop : String → Bool)
    (key : String) :
    liveIn now (d.removeIf drop) key = if drop key then none else liveIn now d key := by
  unfold liveIn
  rw [Dict.find_removeIf]
  split_ifs <;> rfl

/-- What is live later was live before. -/
theorem liveIn_later {now later : Nat} (h : now ≤ later) (d : Dict String CacheEntry)
    (key : String) :
    liveIn later d key = (liveIn now d key).filter fun entry => !isExpired later entry.2 := by
  have hcache := liveEntry_of_le h ⟨d, 0⟩ key
  rwa [liveEntry_eq_liveIn, liveEntry_eq_liveIn] at hcache

/-! ## Runs -/

/-- `written` holds the last successful write of each key that has not been deleted
since. -/
structure Monitored where
  clock : Nat
  cache : InMemoryCache
  written : Dict String CacheEntry
deriving DecidableEq

section Runs

variable (fnmatch : String → String → Bool)

def record (now : Nat) (written : Dict String CacheEntry) :
    Operation → Reply → Dict String CacheEntry
  | .set key value ttl, .flag true | .setnx key value ttl, .flag true =>
      written.assign key (value, expiryOf now ttl)
  | .delete key, _ => written.removeIf (· = key)
  | .deletePattern pattern, _ => written.removeIf fun key => fnmatch key pattern
  | _, _ => written

/-- An operation at its time; `none` where the clock would go back. -/
def react (s : Monitored) (timed : Nat × Operation) : Option (Monitored × Reply) :=
  if timed.1 < s.clock then none
  else
    let served := timed.2.serve fnmatch timed.1 s.cache
    some (⟨timed.1, served.2, record fnmatch timed.1 s.written timed.2 served.1⟩, served.1)

def start (clock maxSize : Nat) : Monitored := ⟨clock, ⟨[], maxSize⟩, []⟩

def liveCount (now : Nat) (written : Dict String CacheEntry) : Nat :=
  (written.filter fun e => !isExpired now e.2.2).length

def isSet : Operation → Bool
  | .set _ _ _ => true
  | _ => false

/-- A `set` finds fewer live keys than the size of the cache. -/
def FewLive (s : Monitored) (timed : Nat × Operation) : Prop :=
  isSet timed.2 = true → liveCount timed.1 s.written < s.cache.maxSize

/-- A `set` that finds a cache of ten or more full finds no expired entry that
clean-up keeps. -/
def Cleanable (s : Monitored) (timed : Nat × Operation) : Prop :=
  isSet timed.2 = true → s.cache.cache.length < s.cache.maxSize ∨ s.cache.maxSize < 10 ∨
    ∀ e ∈ s.cache.cache, e.2.2 = some 0 → isExpired timed.1 e.2.2 = false

instance (s : Monitored) (timed : Nat × Operation) : Decidable (FewLive s timed) :=
  inferInstanceAs (Decidable (_ → _))

instance (s : Monitored) (timed : Nat × Operation) : Decidable (Cleanable s timed) :=
  inferInstanceAs (Decidable (_ → _))

/-- The replies of the cache in this state, and that no live entry is lost. -/
structure IsTtlMap (s : Monitored) : Prop where
  get : ∀ now ≥ s.clock, ∀ key,
    (s.cache.get now key).1 = (liveIn now s.written key).map Prod.fst
  setnx : ∀ now ≥ s.clock, ∀ key value ttl,
    (s.cache.setnx now key value ttl).1 = true ↔ liveIn now s.written key = none
  stored : ∀ now ≥ s.clock, ∀ key entry,
    liveIn now s.written key = some entry → s.cache.cache.find key = some entry

/-! ## The invariant -/

structure InStep (s : Monitored) : Prop where
  stored : (Dict.keys s.cache.cache).Nodup
  written : (Dict.keys s.written).Nodup
  agree : ∀ key, liveIn s.clock s.cache.cache key = liveIn s.clock s.written key

variable {fnmatch} {s : Monitored}

theorem InStep.later (h : InStep s) {now : Nat} (hle : s.clock ≤ now) (key : String) :
    liveIn now s.cache.cache key = liveIn now s.written key := by
  rw [liveIn_later hle, liveIn_later hle, h.agree]

theorem InStep.isTtlMap (h : InStep s) : IsTtlMap s where
  get := by
    intro now hle key
    rw [get_eq_liveEntry, liveEntry_eq_liveIn, h.later hle]
  setnx := by
    intro now hle key value ttl
    rw [← h.later hle, ← liveEntry_eq_liveIn, setnx_eq_liveEntry]
    simp
  stored := by
    intro now hle key entry hlive
    rw [← h.later hle] at hlive
    exact (liveIn_eq_some.mp hlive).1

/-- No more is live in the cache than has been written. -/
theorem InStep.length_live_le (h : InStep s) {now : Nat} (hle : s.clock ≤ now) :
    (s.cache.cache.filter fun e => !isExpired now e.2.2).length ≤ liveCount now s.written := by
  refine List.Nodup.length_le_of_subset ((List.Nodup.of_map Prod.fst h.stored).filter _)
    fun e he => ?_
  obtain ⟨hmem, hlive⟩ := List.mem_filter.mp he
  have hfound : liveIn now s.cache.cache e.1 = some e.2 :=
    liveIn_eq_some.mpr ⟨Dict.find_of_mem h.stored hmem, by simpa using hlive⟩
  rw [h.later hle, liveIn_eq_some] at hfound
  exact List.mem_filter.mpr ⟨Dict.mem_of_find hfound.1, hlive⟩

/-- A `set` that finds few live keys and can clean up evicts no live entry. -/
theorem InStep.spares (h : InStep s) {now : Nat} (hle : s.clock ≤ now) {key value : String}
    {ttl : Option Int} (hfew : FewLive s (now, .set key value ttl))
    (hclean : Cleanable s (now, .set key value ttl)) : s.cache.Spares now key := by
  rintro ⟨hfull, hkept⟩ e he
  rcases hclean rfl with hroom | hsmall | hzero
  · exact absurd hfull (Nat.not_le.mpr hroom)
  · have hnone : s.cache.maxSize / 10 = 0 := Nat.div_eq_of_lt hsmall
    simp [hnone] at he
  · have hlive : s.cache.kept now = s.cache.cache.filter fun e => !isExpired now e.2.2 := by
      refine List.filter_congr fun e he => ?_
      by_cases hz : e.2.2 = some 0
      · have hnot : isExpired now e.2.2 = false := hzero e he hz
        simp [hnot]
      · simp [hz]
    have hcount := h.length_live_le hle
    have hlt : liveCount now s.written < s.cache.maxSize := hfew rfl
    rw [hlive] at hkept
    omega

theorem InStep.start (clock maxSize : Nat) : InStep (start clock maxSize) where
  stored := List.nodup_nil
  written := List.nodup_nil
  agree _ := rfl

/-- What an operation leaves in the cache and in the record has the same live entries. -/
theorem InStep.agree_serve (h : InStep s) {now : Nat} (hle : s.clock ≤ now)
    {operation : Operation} (hfew : FewLive s (now, operation))
    (hclean : Cleanable s (now, operation)) (key : String) :
    liveIn now (operation.serve fnmatch now s.cache).2.cache key =
      liveIn now (record fnmatch now s.written operation
        (operation.serve fnmatch now s.cache).1) key := by
  have hnow := h.later hle
  cases operation with
  | connect | executeLuaScript | ping => exact hnow key
  | get read =>
      have hget := liveEntry_get now s.cache read key
      rw [liveEntry_eq_liveIn, liveEntry_eq_liveIn, hnow] at hget
      exact hget
  | set written value ttl =>
      have hspares := h.spares hle hfew hclean
      have hset := liveEntry_set_of_spares h.stored hspares value ttl key
      rw [liveEntry_eq_liveIn, liveEntry_eq_liveIn, hnow] at hset
      exact hset.trans (liveIn_assign now s.written written _ key).symm
  | setnx written value ttl =>
      rcases s.cache.setnx_cases now written value ttl with ⟨entry, -, hset⟩ | ⟨-, hset⟩
      · simp only [Operation.serve, hset, record]
        exact hnow key
      · simp only [Operation.serve, hset, record, assign]
        rw [liveIn_assign, liveIn_assign, hnow]
  | delete removed =>
      simp only [Operation.serve, delete, record]
      rw [liveIn_removeIf, liveIn_removeIf, hnow]
  | deletePattern pattern =>
      simp only [Operation.serve, deletePattern, record]
      rw [liveIn_removeIf, liveIn_removeIf, hnow]

theorem nodup_record {now : Nat} {written : Dict String CacheEntry}
    (h : (Dict.keys written).Nodup) (operation : Operation) (reply : Reply) :
    (Dict.keys (record fnmatch now written operation reply)).Nodup := by
  unfold record
  split
  · exact Dict.nodup_keys_assign h _ _
  · exact Dict.nodup_keys_assign h _ _
  · exact h.sublist (Dict.keys_removeIf_sublist _ _)
  · exact h.sublist (Dict.keys_removeIf_sublist _ _)
  · exact h

theorem InStep.step (h : InStep s) {timed : Nat × Operation} {reply : Reply} {t : Monitored}
    (hstep : Reaction (react fnmatch) s (timed, reply) t) (hfew : FewLive s timed)
    (hclean : Cleanable s timed) : InStep t := by
  unfold Reaction react at hstep
  split_ifs at hstep with hback
  obtain ⟨rfl, -⟩ := Prod.mk.inj (Option.some.inj hstep)
  constructor
  case stored => exact nodup_serve fnmatch timed.1 h.stored timed.2
  case written => exact nodup_record h.written timed.2 _
  case agree => exact h.agree_serve (Nat.not_lt.mp hback) hfew hclean

/-- In a run in which every `set` finds few live keys and can clean up, every state
is a map with lifetimes. -/
theorem ttlMap_of_run {clock maxSize : Nat} {labels : List ((Nat × Operation) × Reply)}
    (h : Run (Guarded (fun s label _ => FewLive s label.1 ∧ Cleanable s label.1)
      (Reaction (react fnmatch))) (start clock maxSize) labels s) : IsTtlMap s := by
  have hinv : InStep s := h.invariant
    (fun _ _ _ hs hstep => hs.step hstep.1 hstep.2.1 hstep.2.2) (.start clock maxSize)
  exact hinv.isTtlMap

theorem ttlMap_after_expiry :
    let events : List (Nat × Operation) :=
      [(0, .set "key" "old" (some 5)), (6000, .get "key"), (6000, .set "key" "new" none)]
    let s := events.foldl (afterEvent (react fun _ _ => false)) (start 0 10)
    (∃ labels, Run (Guarded (fun s label _ => FewLive s label.1 ∧ Cleanable s label.1)
      (Reaction (react fun _ _ => false))) (start 0 10) labels s) ∧ IsTtlMap s := by
  intro events s
  have hreplays : Replays (react fun _ _ => false)
      (fun s timed => FewLive s timed ∧ Cleanable s timed) (start 0 10) events := by decide
  obtain ⟨labels, hrun⟩ := hreplays.run
  exact ⟨⟨labels, hrun⟩, ttlMap_of_run hrun⟩

/-- The instant 1700000000 of the clock, in milliseconds. -/
def instant : Nat := 1700000000000

/-- Nine entries whose expiry is exactly zero, after one that never expires. -/
def zeroExpiries : List (Nat × Operation) :=
  (instant, .set "live" "value" none) ::
    ["a", "b", "c", "d", "e", "f", "g", "h", "i"].map fun key =>
      (instant, .set key "value" (some (-1700000000)))

/-- With one live key, a `set` in a full cache of ten evicts it. -/
theorem live_entry_lost :
    let events := zeroExpiries ++ [(instant, .set "new" "value" none)]
    let s := events.foldl (afterEvent (react fun _ _ => false)) (start instant 10)
    (∃ labels, Run (Guarded (fun s label _ => FewLive s label.1)
      (Reaction (react fun _ _ => false))) (start instant 10) labels s) ∧ ¬ IsTtlMap s := by
  intro events s
  have hreplays : Replays (react fun _ _ => false) FewLive (start instant 10) events := by decide
  refine ⟨hreplays.run, fun hmap => ?_⟩
  have hlost := hmap.stored instant (by decide) "live" ("value", none) (by decide)
  exact absurd hlost (by decide)

end Runs

end BackendProdReady.Cache.TtlMap
