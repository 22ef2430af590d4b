import BackendProdReady.Cache.Fallback
import Mathlib.Data.List.Induction

/-!
# What the in-memory cache evicts

A `set` that finds the cache at capacity makes room before it is known whether
the key is new; `setnx` never makes room.
-/

namespace BackendProdReady.Cache.InMemory

open BackendProdReady.Lib.InsertionDict
open BackendProdReady.Cache.Fallback (Operation Operation.serve)

namespace InMemoryCache

/-! ## What eviction keeps -/

/-- What clean-up keeps: what has not expired, or has an expiry of exactly zero. -/
def kept (now : Nat) (c : InMemoryCache) : Dict String CacheEntry :=
  c.cache.filter fun e => !isExpired now e.2.2 || e.2.2 = some 0

theorem cleanupExpired_cache (now : Nat) (c : InMemoryCache) :
    (c.cleanupExpired now).cache = c.kept now := by
  refine List.filter_congr fun e _ => ?_
  obtain ⟨key, value, expiry⟩ := e
  cases expiry with
  | none => rfl
  | some instant => cases isExpired now (some instant) <;> simp

/-- Room is made where that many entries are stored, and clean-up keeps that many. -/
def AtCapacity (now : Nat) (c : InMemoryCache) : Prop :=
  c.maxSize ≤ c.cache.length ∧ c.maxSize ≤ (c.kept now).length

instance (now : Nat) (c : InMemoryCache) : Decidable (c.AtCapacity now) :=
  inferInstanceAs (Decidable (_ ∧ _))

theorem evict_of_atCapacity {now : Nat} {c : InMemoryCache} (h : c.AtCapacity now) :
    (c.evict now).cache = (c.kept now).drop (c.maxSize / 10) := by
  have hstill : (c.cleanupExpired now).cache.length ≥ (c.cleanupExpired now).maxSize := by
    rw [cleanupExpired_cache]
    exact h.2
  unfold evict
  dsimp only
  rw [if_pos h.1, if_pos hstill, cleanupExpired_cache]
  rfl

theorem evict_of_kept_lt {now : Nat} {c : InMemoryCache} (hfull : c.maxSize ≤ c.cache.length)
    (h : (c.kept now).length < c.maxSize) : (c.evict now).cache = c.kept now := by
  have hroom : ¬ (c.cleanupExpired now).cache.length ≥ (c.cleanupExpired now).maxSize := by
    rw [cleanupExpired_cache]
    exact Nat.not_le.mpr h
  unfold evict
  dsimp only
  rw [if_pos hfull, if_neg hroom, cleanupExpired_cache]

theorem evict_cache (now : Nat) (c : InMemoryCache) :
    (c.evict now).cache =
      if c.AtCapacity now then (c.kept now).drop (c.maxSize / 10)
      else if c.maxSize ≤ c.cache.length then c.kept now
      else c.cache := by
  split_ifs with hcapacity hfull
  · exact evict_of_atCapacity hcapacity
  · exact evict_of_kept_lt hfull (Nat.not_le.mp fun h => hcapacity ⟨hfull, h⟩)
  · rw [evict_of_lt (Nat.not_le.mp hfull)]

theorem set_cache (now : Nat) (key value : String) (ttl : Option Int) (c : InMemoryCache) :
    (c.set now key value ttl).2.cache =
      (c.evict now).cache.assign key (value, expiryOf now ttl) := rfl

/-! ## An overwrite beside other entries -/

/-- None of the entries that `set` evicts is a live entry of another key. -/
def Spares (now : Nat) (key : String) (c : InMemoryCache) : Prop :=
  c.AtCapacity now →
    ∀ e ∈ (c.kept now).take (c.maxSize / 10), e.1 = key ∨ isExpired now e.2.2 = true

instance (now : Nat) (key : String) (c : InMemoryCache) : Decidable (c.Spares now key) :=
  inferInstanceAs (Decidable (_ → _))

theorem mem_kept_of_live {now : Nat} {c : InMemoryCache} {key : String} {entry : CacheEntry}
    (hfind : c.cache.find key = some entry) (hlive : isExpired now entry.2 = false) :
    (key, entry) ∈ c.kept now :=
  List.mem_filter.mpr ⟨Dict.mem_of_find hfind, by simp [hlive]⟩

/-- `set` keeps a live entry of another key that it spares. -/
theorem find_set_of_spares {now : Nat} {key : String} {c : InMemoryCache}
    (hdict : (Dict.keys c.cache).Nodup) (hspares : c.Spares now key) {other : String}
    (hne : other ≠ key) {entry : CacheEntry} (hfind : c.cache.find other = some entry)
    (hlive : isExpired now entry.2 = false) (value : String) (ttl : Option Int) :
    (c.set now key value ttl).2.cache.find other = some entry := by
  have hkept := mem_kept_of_live hfind hlive
  have hmem : (other, entry) ∈ (c.evict now).cache := by
    rw [evict_cache]
    split_ifs with hcapacity hfull
    · rw [← List.take_append_drop (c.maxSize / 10) (c.kept now), List.mem_append] at hkept
      refine hkept.resolve_left fun htaken => ?_
      rcases hspares hcapacity _ htaken with hsame | hexpired
      · exact hne hsame
      · exact absurd hexpired (by simp [hlive])
    · exact hkept
    · exact Dict.mem_of_find hfind
  have hnodup : (Dict.keys (c.evict now).cache).Nodup :=
    hdict.sublist ((evict_sublist now c).map Prod.fst)
  rw [set_cache, Dict.find_assign_of_ne _ (Ne.symm hne)]
  exact Dict.find_of_mem hnodup hmem

/-- What is seen after a `set` that evicts no other live entry. -/
theorem liveEntry_set_of_spares {now : Nat} {key : String} {c : InMemoryCache}
    (hdict : (Dict.keys c.cache).Nodup) (hspares : c.Spares now key) (value : String)
    (ttl : Option Int) (other : String) :
    (c.set now key value ttl).2.liveEntry now other =
      if other = key then
        (some (value, expiryOf now ttl)).filter fun e => !isExpired now e.2
      else c.liveEntry now other := by
  refine Option.ext fun entry => ?_
  split_ifs with hsame
  · subst hsame
    rw [liveEntry_eq_some, set_cache, Dict.find_assign_self]
    simp [Option.filter_eq_some_iff]
  · rw [liveEntry_eq_some, liveEntry_eq_some]
    constructor
    · rintro ⟨hfind, hlive⟩
      rw [set_cache, Dict.find_assign_of_ne _ (Ne.symm hsame)] at hfind
      have hmem := (evict_sublist now c).subset (Dict.mem_of_find hfind)
      exact ⟨Dict.find_of_mem hdict hmem, hlive⟩
    · rintro ⟨hfind, hlive⟩
      exact ⟨find_set_of_spares hdict hspares hsame hfind hlive value ttl, hlive⟩

theorem set_local_iff {now : Nat} {key : String} {c : InMemoryCache}
    (hdict : (Dict.keys c.cache).Nodup) (value : String) (ttl : Option Int) :
    (∀ other entry, other ≠ key → c.liveEntry now other = some entry →
      (c.set now key value ttl).2.cache.find other = some entry) ↔ c.Spares now key := by
  constructor
  · intro hlocal hcapacity e he
    by_contra hnot
    obtain ⟨hne, hlive⟩ := not_or.mp hnot
    rw [Bool.not_eq_true] at hlive
    have hkept : (Dict.keys (c.kept now)).Nodup := hdict.sublist (List.filter_sublist.map Prod.fst)
    have hmem : e ∈ c.cache := (List.mem_filter.mp (List.mem_of_mem_take he)).1
    have hentry : c.liveEntry now e.1 = some e.2 :=
      liveEntry_eq_some.mpr ⟨Dict.find_of_mem hdict hmem, hlive⟩
    have hafter := hlocal e.1 e.2 hne hentry
    rw [set_cache, Dict.find_assign_of_ne _ (Ne.symm hne), evict_cache, if_pos hcapacity]
      at hafter
    -- an evicted key is not among those that stay
    rw [← List.take_append_drop (c.maxSize / 10) (c.kept now), Dict.keys, List.map_append,
      List.nodup_append] at hkept
    have hgone : e.1 ∉ Dict.keys ((c.kept now).drop (c.maxSize / 10)) := fun hstays =>
      hkept.2.2 e.1 (List.mem_map_of_mem he) e.1 hstays rfl
    rw [Dict.find_of_not_mem hgone] at hafter
    cases hafter
  · intro hspares other entry hne hentry
    obtain ⟨hfind, hlive⟩ := liveEntry_eq_some.mp hentry
    exact find_set_of_spares hdict hspares hne hfind hlive value ttl

def tenEntries : InMemoryCache :=
  ⟨["a", "b", "c", "d", "e", "f", "g", "h", "i", "j"].map fun key => (key, "value", none), 10⟩

theorem set_local_at_the_oldest :
    (∀ other entry, other ≠ "a" → tenEntries.liveEntry 0 other = some entry →
      (tenEntries.set 0 "a" "new" none).2.cache.find other = some entry) ↔
        tenEntries.Spares 0 "a" :=
  set_local_iff (by decide) "new" none

/-- Refreshing the newest entry of a full cache evicts the oldest. -/
theorem overwrite_evicts :
    tenEntries.cache.find "j" = some ("value", none) ∧
      ¬ ∀ other entry, other ≠ "j" → tenEntries.liveEntry 0 other = some entry →
        (tenEntries.set 0 "j" "new" none).2.cache.find other = some entry := by
  refine ⟨by decide, fun hlocal => ?_⟩
  have holdest := hlocal "a" ("value", none) (by decide) (by decide)
  exact absurd holdest (by decide)

/-! ## The number of entries -/

/-- The operation adds no entry where there is no room for it: a `set` makes room
in a cache of ten or more, or where clean-up removes an entry; a `setnx` makes none. -/
def FitsIn (now : Nat) : Operation → InMemoryCache → Prop
  | .set key _ _, c =>
      key ∈ Dict.keys c.cache ∨ c.cache.length < c.maxSize ∨ 10 ≤ c.maxSize ∨
        ∃ e ∈ c.cache, isExpired now e.2.2 = true ∧ e.2.2 ≠ some 0
  | .setnx key _ _, c => key ∈ Dict.keys c.cache ∨ c.cache.length < c.maxSize
  | _, _ => True

theorem kept_length_lt_iff (now : Nat) (c : InMemoryCache) :
    (c.kept now).length < c.cache.length ↔
      ∃ e ∈ c.cache, isExpired now e.2.2 = true ∧ e.2.2 ≠ some 0 := by
  rw [kept, List.length_filter_lt_length_iff_exists]
  simp

variable (fnmatch : String → String → Bool)

theorem maxSize_evict (now : Nat) (c : InMemoryCache) : (c.evict now).maxSize = c.maxSize := by
  unfold evict
  dsimp only
  split_ifs <;> rfl

theorem maxSize_get (now : Nat) (key : String) (c : InMemoryCache) :
    (c.get now key).2.maxSize = c.maxSize := by
  rcases c.get_cases now key with ⟨entry, -, hget⟩ | ⟨-, hget⟩
  · rw [hget]
  · rw [hget]

theorem maxSize_setnx (now : Nat) (key value : String) (ttl : Option Int) (c : InMemoryCache) :
    (c.setnx now key value ttl).2.maxSize = c.maxSize := by
  rcases c.setnx_cases now key value ttl with ⟨entry, -, hset⟩ | ⟨-, hset⟩
  · rw [hset]
  · rw [hset, assign]

theorem maxSize_serve (now : Nat) (operation : Operation) (c : InMemoryCache) :
    (operation.serve fnmatch now c).2.maxSize = c.maxSize := by
  cases operation with
  | connect | executeLuaScript | ping | delete | deletePattern => rfl
  | get key => exact maxSize_get now key c
  | set key value ttl => exact maxSize_evict now c
  | setnx key value ttl => exact maxSize_setnx now key value ttl c

/-- The keys of the dictionary stay distinct. -/
theorem nodup_serve (now : Nat) {c : InMemoryCache} (h : (Dict.keys c.cache).Nodup)
    (operation : Operation) :
    (Dict.keys (operation.serve fnmatch now c).2.cache).Nodup := by
  cases operation with
  | connect | executeLuaScript | ping => exact h
  | get key => exact h.sublist ((get_sublist now key c).map Prod.fst)
  | set key value ttl =>
      exact Dict.nodup_keys_assign (h.sublist ((evict_sublist now c).map Prod.fst)) _ _
  | setnx key value ttl =>
      rcases c.setnx_cases now key value ttl with ⟨entry, -, hset⟩ | ⟨-, hset⟩
      · rw [Operation.serve, hset]
        exact h
      · rw [Operation.serve, hset]
        exact Dict.nodup_keys_assign h _ _
  | delete key => exact h.sublist (Dict.keys_removeIf_sublist (· = key) c.cache)
  | deletePattern pattern =>
      exact h.sublist (Dict.keys_removeIf_sublist (fun key => fnmatch key pattern) c.cache)

theorem length_set_le_iff {now : Nat} {c : InMemoryCache} (h : c.cache.length ≤ c.maxSize)
    (key value : String) (ttl : Option Int) :
    (c.set now key value ttl).2.cache.length ≤ c.maxSize ↔ FitsIn now (.set key value ttl) c := by
  have hkeptLe : (c.kept now).length ≤ c.cache.length := List.length_filter_le _ _
  simp only [FitsIn, set_cache, ← kept_length_lt_iff]
  by_cases hfull : c.maxSize ≤ c.cache.length
  · by_cases hroom : (c.kept now).length < c.maxSize
    · rw [evict_of_kept_lt hfull hroom]
      exact iff_of_true (Dict.length_assign_le hroom _ _) (by omega)
    · -- clean-up removes nothing, and room is made by the tenth alone
      rw [evict_of_atCapacity ⟨hfull, by omega⟩]
      have hlength : (c.kept now).length = c.cache.length := by omega
      have hsame : c.kept now = c.cache := List.filter_sublist.eq_of_length hlength
      rw [hsame]
      by_cases hten : 10 ≤ c.maxSize
      · have hdropped : (c.cache.drop (c.maxSize / 10)).length < c.maxSize := by
          rw [List.length_drop]
          omega
        exact iff_of_true (Dict.length_assign_le hdropped _ _) (by omega)
      · have hnone : c.maxSize / 10 = 0 := by omega
        rw [hnone, List.drop_zero, Dict.length_assign]
        split_ifs with hmem
        · simp [hmem, h]
        · simp only [hmem, false_or]
          omega
  · rw [evict_of_lt (by omega)]
    exact iff_of_true (Dict.length_assign_le (by omega) _ _) (by omega)

theorem length_setnx_le_iff {now : Nat} {c : InMemoryCache} (h : c.cache.length ≤ c.maxSize)
    (key value : String) (ttl : Option Int) :
    (c.setnx now key value ttl).2.cache.length ≤ c.maxSize ↔
      FitsIn now (.setnx key value ttl) c := by
  rcases c.setnx_cases now key value ttl with ⟨entry, hlive, hset⟩ | ⟨-, hset⟩
  · have hold : key ∈ Dict.keys c.cache := by
      rw [Dict.mem_keys_iff, (liveEntry_eq_some.mp hlive).1, Option.isSome_some]
    rw [hset]
    exact iff_of_true h (.inl hold)
  · rw [hset, assign, Dict.length_assign]
    split_ifs with hmem
    · exact iff_of_true h (.inl hmem)
    · simp only [FitsIn, hmem, false_or]
      exact Nat.succ_le_iff

/-- An operation keeps within the bound exactly when it fits. -/
theorem length_serve_le_iff (now : Nat) {c : InMemoryCache}
    (h : c.cache.length ≤ c.maxSize) (operation : Operation) :
    (operation.serve fnmatch now c).2.cache.length ≤ c.maxSize ↔ FitsIn now operation c := by
  cases operation with
  | connect | executeLuaScript | ping => exact iff_of_true h trivial
  | get key => exact iff_of_true (Nat.le_trans (get_sublist now key c).length_le h) trivial
  | set key value ttl => exact length_set_le_iff h key value ttl
  | setnx key value ttl => exact length_setnx_le_iff h key value ttl
  | delete key => exact iff_of_true (Nat.le_trans (List.length_filter_le _ _) h) trivial
  | deletePattern pattern => exact iff_of_true (Nat.le_trans (List.length_filter_le _ _) h) trivial

def afterAll (c : InMemoryCache) (operations : List (Nat × Operation)) : InMemoryCache :=
  operations.foldl (fun c timed => (timed.2.serve fnmatch timed.1 c).2) c

theorem afterAll_concat (c : InMemoryCache) (operations : List (Nat × Operation))
    (timed : Nat × Operation) :
    afterAll fnmatch c (operations ++ [timed]) =
      (timed.2.serve fnmatch timed.1 (afterAll fnmatch c operations)).2 := by
  simp [afterAll]

theorem maxSize_afterAll (c : InMemoryCache) (operations : List (Nat × Operation)) :
    (afterAll fnmatch c operations).maxSize = c.maxSize := by
  induction operations using List.reverseRecOn with
  | nil => rfl
  | append_singleton operations timed ih => rw [afterAll_concat, maxSize_serve, ih]

/-- The bound holds after every operation of a run exactly when every operation fits. -/
theorem bounded_iff (maxSize : Nat) (operations : List (Nat × Operation)) :
    (∀ done, done <+: operations →
      (afterAll fnmatch ⟨[], maxSize⟩ done).cache.length ≤ maxSize) ↔
    ∀ done timed, done ++ [timed] <+: operations →
      FitsIn timed.1 timed.2 (afterAll fnmatch ⟨[], maxSize⟩ done) := by
  have hsize : ∀ done, (afterAll fnmatch ⟨[], maxSize⟩ done).maxSize = maxSize :=
    fun done => maxSize_afterAll fnmatch ⟨[], maxSize⟩ done
  have hstep : ∀ done (timed : Nat × Operation),
      (afterAll fnmatch ⟨[], maxSize⟩ done).cache.length ≤ maxSize →
      ((afterAll fnmatch ⟨[], maxSize⟩ (done ++ [timed])).cache.length ≤ maxSize ↔
        FitsIn timed.1 timed.2 (afterAll fnmatch ⟨[], maxSize⟩ done)) := by
    intro done timed hdone
    have hserve := length_serve_le_iff fnmatch timed.1
      (c := afterAll fnmatch ⟨[], maxSize⟩ done) (by rwa [hsize done]) timed.2
    rwa [hsize done, ← afterAll_concat] at hserve
  constructor
  · intro hbounded done timed hprefix
    have hdone := hbounded done ((List.prefix_append done [timed]).trans hprefix)
    exact (hstep done timed hdone).mp (hbounded _ hprefix)
  · intro hfits done
    induction done using List.reverseRecOn with
    | nil => exact fun _ => Nat.zero_le maxSize
    | append_singleton done timed ih =>
        intro hprefix
        have hdone := ih ((List.prefix_append done [timed]).trans hprefix)
        exact (hstep done timed hdone).mpr (hfits done timed hprefix)

/-- Two `setnx` of different keys in a cache of one entry. -/
theorem cache_outgrows_its_size :
    ¬ ∀ (fnmatch : String → String → Bool) (maxSize : Nat) (operations : List (Nat × Operation)),
      1 ≤ maxSize → (afterAll fnmatch ⟨[], maxSize⟩ operations).cache.length ≤ maxSize := by
  intro hbounded
  have htwo := hbounded (fun _ _ => false) 1
    [(0, .setnx "a" "value" none), (0, .setnx "b" "value" none)] (Nat.le_refl 1)
  exact absurd htwo (by decide)

end InMemoryCache

end BackendProdReady.Cache.InMemory
