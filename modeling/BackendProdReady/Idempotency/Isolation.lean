import Mathlib.Data.Set.Function
import BackendProdReady.Idempotency.Footprint
import BackendProdReady.Idempotency.MarkerLifetime

/-!
# Isolation of operations

A run stays a run, with the same results, when the calls on all other pairs are
left out of it.  On the in-memory fallback this holds while no `set` at capacity
drops a live entry of the pair.
-/

namespace BackendProdReady.Idempotency.Isolation

open BackendProdReady.Lib.InsertionDict
open BackendProdReady.Lib.Runs
open BackendProdReady.Cache.InMemory
open BackendProdReady.Idempotency.Keys
open BackendProdReady.Idempotency.Service
open BackendProdReady.Idempotency.Workers (evtDigest boolJson evtPair)
open BackendProdReady.Idempotency.FallbackWorkers
open BackendProdReady.Idempotency.Footprint
open BackendProdReady.Idempotency.MarkerLifetime (finds newCheck run_newCheck)

/-! ## Leaving out the other pairs -/

section

variable {ω J : Type} [DecidableEq ω]

/-- A step of a call on this pair, or of no call. -/
def concerns (pair : Pair) (label : Label ω J) : Bool :=
  match label.1.caller with
  | none => true
  | some (_, other) => decide (other.normalized = pair.normalized)

/-- No `set` at capacity drops a live entry of the pair. -/
def KeepsEntries (sha256 : String → HexDigest) (orjson : Orjson J) (pair : Pair) (s : State ω)
    (label : Label ω J) (_ : State ω) : Prop :=
  ∀ w other response ttl, label.1 = .memory w other (.storeRecord response ttl) →
    (orjson.dumps response).isSome →
    SameEntries (footprint sha256 pair) s.redis.now s.memory (s.memory.evict s.redis.now)

/-- The two states are alike in all that calls on the pair depend on. -/
structure Agrees (sha256 : String → HexDigest) (pair : Pair) (s r : State ω) : Prop where
  now : r.redis.now = s.redis.now
  keys : AgreeOn (footprint sha256 pair) s.redis.keys r.redis.keys
  phase : ∀ w other, other.normalized = pair.normalized →
    r.redis.phase w other = s.redis.phase w other
  entries : SameEntries (footprint sha256 pair) s.redis.now s.memory r.memory
  only : OnlyKeys (footprint sha256 pair) r.memory

variable {sha256 : String → HexDigest} {orjson : Orjson J} {pair other : Pair}
  {s t r : State ω} {op : Op ω J} {result : Option (IdempotencyResult J)} {w : ω}

variable (sha256) in
theorem mem_footprint (h : other.normalized = pair.normalized) :
    buildKey sha256 other ∈ footprint sha256 pair ∧
      buildInProgressKey sha256 other ∈ footprint sha256 pair := by
  have hkey : buildKey sha256 other = buildKey sha256 pair := by
    rw [← buildKey_normalized, h, buildKey_normalized]
  rw [footprint, buildInProgressKey, buildInProgressKey, hkey]
  simp

theorem not_mem_footprint (h : buildKey sha256 other ≠ buildKey sha256 pair) :
    buildKey sha256 other ∉ footprint sha256 pair ∧
      buildInProgressKey sha256 other ∉ footprint sha256 pair := by
  have hmarker : buildInProgressKey sha256 other ≠ buildInProgressKey sha256 pair :=
    fun hsame => h ((buildInProgressKey_inj sha256).mp hsame)
  simp [footprint, h, hmarker, buildKey_ne_buildInProgressKey,
    (buildKey_ne_buildInProgressKey sha256 pair other).symm]

theorem step_concerned (hstep : Step sha256 orjson s (op, result) t)
    (hcaller : ∀ v q, op.caller = some (v, q) → q.normalized = pair.normalized)
    (hkeeps : KeepsEntries sha256 orjson pair s (op, result) t)
    (h : Agrees sha256 pair s r) :
    ∃ u, Step sha256 orjson r (op, result) u ∧ Agrees sha256 pair t u := by
  cases step_cases hstep with
  | @redis op result redis hredis =>
      have hentries := h.entries.advance (Workers.step_now_le hredis)
      cases hop : op.caller with
      | none =>
          cases Workers.step_cases hredis with
          | advance ms =>
              have hadvance : Workers.Step sha256 orjson r.redis (.advance ms, none) _ :=
                Workers.step_of_transition (.advance ms)
              exact ⟨_, step_of_transition (.redis hadvance),
                congrArg (· + ms) h.now, h.keys, h.phase, hentries, h.only⟩
          | _ => cases hop
      | some caller =>
          obtain ⟨v, q⟩ := caller
          have hsame : q.normalized = pair.normalized := hcaller v q hop
          obtain ⟨hrecord, hmarker⟩ := mem_footprint sha256 hsame
          obtain ⟨u, hu, halike⟩ := step_agree hredis hop
            ⟨h.now, h.keys, h.phase v q hsame⟩ hrecord hmarker
          refine ⟨_, step_of_transition (.redis hu), halike.now, halike.keys, ?_, hentries, h.only⟩
          intro v' q' hsame'
          by_cases hself : op.caller = some (v', q')
          · obtain ⟨rfl, rfl⟩ := Prod.mk.inj (Option.some.inj (hop.symm.trans hself))
            exact halike.phase
          · dsimp only
            rw [Workers.step_phase_of_ne hu hself, Workers.step_phase_of_ne hredis hself,
              h.phase v' q' hsame']
  | @memory v q call phase result memory hserve =>
      have hsame : q.normalized = pair.normalized := hcaller v q rfl
      obtain ⟨hrecord, hmarker⟩ := mem_footprint sha256 hsame
      obtain ⟨memory', hserve', hentries, honly⟩ := serve_agree hserve h.entries h.only hrecord
        hmarker fun response ttl hcall => hkeeps v q response ttl (by rw [hcall])
      rw [← h.now, ← h.phase v q hsame] at hserve'
      refine ⟨_, step_of_transition (.memory hserve'), h.now, h.keys, ?_, hentries, honly⟩
      intro v' q' hsame'
      by_cases hself : v' = v ∧ q' = q
      · obtain ⟨rfl, rfl⟩ := hself
        dsimp only
        rw [Workers.State.setPhase_self, Workers.State.setPhase_self]
      · dsimp only
        rw [Workers.State.setPhase_of_ne hself, Workers.State.setPhase_of_ne hself,
          h.phase v' q' hsame']
  | renewMemory =>
      exact ⟨_, step_of_transition .renewMemory, h.now, h.keys, h.phase, fun _ _ => rfl,
        .init (by simp [footprint, InMemoryCache.init])⟩

theorem step_unconcerned (hstep : Step sha256 orjson s (op, result) t)
    (hcaller : op.caller = some (w, other)) (hne : buildKey sha256 other ≠ buildKey sha256 pair)
    (hkeeps : KeepsEntries sha256 orjson pair s (op, result) t)
    (h : Agrees sha256 pair s r) : Agrees sha256 pair t r := by
  obtain ⟨hrecord, hmarker⟩ := not_mem_footprint hne
  have hother : ∀ v q, q.normalized = pair.normalized → ¬ (v = w ∧ q = other) := by
    rintro v q hsame ⟨-, rfl⟩
    rw [← buildKey_normalized, hsame, buildKey_normalized] at hne
    exact hne rfl
  cases step_cases hstep with
  | @redis op result redis hredis =>
      have hnow : redis.now = s.redis.now := Workers.step_now_of_caller hredis hcaller
      have hframe := step_frame hredis hcaller hrecord hmarker
      refine ⟨h.now.trans hnow.symm, fun key hkey => ?_, fun v q hsame => ?_, ?_, h.only⟩
      · rw [h.keys key hkey, hframe key hkey]
      · rw [h.phase v q hsame]
        refine (Workers.step_phase_of_ne hredis fun hself => hother v q hsame ?_).symm
        obtain ⟨rfl, rfl⟩ := Prod.mk.inj (Option.some.inj (hcaller.symm.trans hself))
        exact ⟨rfl, rfl⟩
      · dsimp only
        rw [hnow]
        exact h.entries
  | @memory v q call phase result memory hserve =>
      obtain ⟨rfl, rfl⟩ := Prod.mk.inj (Option.some.inj hcaller)
      have hframe := serve_frame hserve hrecord hmarker fun response ttl hcall =>
        hkeeps v q response ttl (by rw [hcall])
      refine ⟨h.now, h.keys, fun v' q' hsame => ?_, fun key hkey => ?_, h.only⟩
      · rw [h.phase v' q' hsame]
        exact (Workers.State.setPhase_of_ne (hother v' q' hsame)).symm
      · exact (h.entries key hkey).trans (hframe key hkey).symm
  | renewMemory => cases hcaller

/-- Without the steps of the calls on other pairs a run stays a run. -/
theorem run_concerned {K : Set String} (hdistinct : Set.InjOn sha256 K) (hpair : pair.key ∈ K)
    {labels : List (Label ω J)}
    (hrun : Run (Guarded (KeepsEntries sha256 orjson pair) (Step sha256 orjson)) s labels t)
    (hkeys : ∀ label ∈ labels, ∀ w other, label.1.caller = some (w, other) → other.key ∈ K)
    (h : Agrees sha256 pair s r) :
    ∃ u, Run (Step sha256 orjson) r (labels.filter (concerns pair)) u ∧
      Agrees sha256 pair t u := by
  induction hrun with
  | refl => exact ⟨r, .refl r, h⟩
  | @tail v x pre label hpre hstep ih =>
      obtain ⟨u, hu, hagrees⟩ := ih fun l hl => hkeys l (by simp [hl])
      have hlabel := hkeys label (by simp)
      rw [List.filter_append]
      cases hconcerns : concerns pair label with
      | true =>
          have hown : ∀ w q, label.1.caller = some (w, q) → q.normalized = pair.normalized := by
            intro w q hcaller
            simpa [concerns, hcaller] using hconcerns
          obtain ⟨u', hu', hagrees'⟩ := step_concerned hstep.1 hown hstep.2 hagrees
          rw [List.filter_cons_of_pos hconcerns]
          exact ⟨u', .tail hu hu', hagrees'⟩
      | false =>
          obtain ⟨w, q, hcaller⟩ : ∃ w q, label.1.caller = some (w, q) := by
            cases hcaller : label.1.caller with
            | none => simp [concerns, hcaller] at hconcerns
            | some caller => exact ⟨caller.1, caller.2, rfl⟩
          have hne : buildKey sha256 q ≠ buildKey sha256 pair := by
            rw [Ne, buildKey_inj hdistinct (hlabel w q hcaller) hpair]
            simpa [concerns, hcaller] using hconcerns
          rw [List.filter_cons_of_neg (by simp [hconcerns]), List.filter_nil, List.append_nil]
          exact ⟨u, hu, step_unconcerned hstep.1 hcaller hne hstep.2 hagrees⟩

/-! ## Main result -/

/-- For keys with distinct digests: pairs that differ, an empty namespace counting as
none, have different records and markers, no record is a marker, and a run stays a
run with the same results when the calls on other pairs are left out. -/
theorem isolated {K : Set String} (hdistinct : Set.InjOn sha256 K) :
    (∀ pair other, pair.key ∈ K → other.key ∈ K → pair.normalized ≠ other.normalized →
      buildKey sha256 pair ≠ buildKey sha256 other ∧
        buildInProgressKey sha256 pair ≠ buildInProgressKey sha256 other) ∧
    (∀ pair other, buildKey sha256 pair ≠ buildInProgressKey sha256 other) ∧
    ∀ (pair : Pair) (s : State ω) (labels : List (Label ω J)) (t : State ω), pair.key ∈ K →
      (∀ label ∈ labels, ∀ w other, label.1.caller = some (w, other) → other.key ∈ K) →
      s.memory = .init →
      Run (Guarded (KeepsEntries sha256 orjson pair) (Step sha256 orjson)) s labels t →
      ∃ u, Run (Step sha256 orjson) s (labels.filter (concerns pair)) u := by
  refine ⟨fun pair other hpair hother hne => ?_, buildKey_ne_buildInProgressKey sha256,
    fun pair s labels t hpair hkeys hmemory hrun => ?_⟩
  · have hkey : buildKey sha256 pair ≠ buildKey sha256 other :=
      fun hsame => hne ((buildKey_inj hdistinct hpair hother).mp hsame)
    exact ⟨hkey, fun hsame => hkey ((buildInProgressKey_inj sha256).mp hsame)⟩
  · have honly : OnlyKeys (footprint sha256 pair) s.memory := by
      rw [hmemory]
      exact .init (by simp [footprint, InMemoryCache.init])
    obtain ⟨u, hu, -⟩ := run_concerned hdistinct hpair hrun hkeys
      ⟨rfl, fun _ _ => rfl, fun _ _ _ => rfl, fun _ _ => rfl, honly⟩
    exact ⟨u, hu⟩

end

def tenantPair : Pair := ⟨"evt_1", some "stripe"⟩

theorem injOn_evtDigest : Set.InjOn evtDigest {"evt_1"} := Set.injOn_singleton _ _

/-- Worker 1 stores under another namespace between two checks on the fallback. -/
theorem isolated_after_store :
    ∃ u : State Nat, Run (Step evtDigest boolJson) start
      [(.memory 0 evtPair .skipLua, none), (.memory 0 evtPair .read, none),
        (.memory 0 evtPair .acquire, some ⟨.new, none⟩),
        (.memory 2 evtPair .skipLua, none), (.memory 2 evtPair .read, none),
        (.memory 2 evtPair .acquire, some ⟨.inProgress, none⟩)] u := by
  let labels : List (Label Nat Bool) :=
    [(.memory 0 evtPair .skipLua, none), (.memory 0 evtPair .read, none),
      (.memory 0 evtPair .acquire, some ⟨.new, none⟩),
      (.memory 1 tenantPair (.storeRecord true none), none),
      (.memory 2 evtPair .skipLua, none), (.memory 2 evtPair .read, none),
      (.memory 2 evtPair .acquire, some ⟨.inProgress, none⟩)]
  let u₁ := next evtDigest boolJson start (.memory 0 evtPair .skipLua)
  let u₂ := next evtDigest boolJson u₁ (.memory 0 evtPair .read)
  let u₃ := next evtDigest boolJson u₂ (.memory 0 evtPair .acquire)
  let u₄ := next evtDigest boolJson u₃ (.memory 1 tenantPair (.storeRecord true none))
  let u₅ := next evtDigest boolJson u₄ (.memory 2 evtPair .skipLua)
  let u₆ := next evtDigest boolJson u₅ (.memory 2 evtPair .read)
  let t := next evtDigest boolJson u₆ (.memory 2 evtPair .acquire)
  have hroom : ∀ u, u.memory.cache.length < u.memory.maxSize → ∀ (label : Label Nat Bool) v,
      KeepsEntries evtDigest boolJson evtPair u label v := by
    intro u hlt label v w other response ttl hlabel hdumps key hkey
    rw [InMemoryCache.evict_of_lt hlt]
  have hrun : Run (Guarded (KeepsEntries evtDigest boolJson evtPair) (Step evtDigest boolJson))
      start labels t :=
    .tail (.tail (.tail (.tail (.tail (.tail (.single
      ⟨reaction_afterEvent (by decide), hroom _ (by decide) _ _⟩)
      ⟨reaction_afterEvent (by decide), hroom u₁ (by decide) _ _⟩)
      ⟨reaction_afterEvent (by decide), hroom u₂ (by decide) _ _⟩)
      ⟨reaction_afterEvent (by decide), hroom u₃ (by decide) _ _⟩)
      ⟨reaction_afterEvent (by decide), hroom u₄ (by decide) _ _⟩)
      ⟨reaction_afterEvent (by decide), hroom u₅ (by decide) _ _⟩)
      ⟨reaction_afterEvent (by decide), hroom u₆ (by decide) _ _⟩
  exact (isolated injOn_evtDigest).2.2 evtPair start labels t rfl
    (by simp [labels, Op.caller, evtPair, tenantPair]) rfl hrun

/-! ## Eviction by other tenants -/

/-- The same external key under ever longer namespaces. -/
def tenant (i : Nat) : Pair := ⟨"evt_1", some (String.ofList (List.replicate (i + 1) 'a'))⟩

def recordEntry : CacheEntry := ("true", some 604800000)

/-- The fallback after the store of `evtPair` and those of the first `n` tenants. -/
def filled (n : Nat) : Dict String CacheEntry :=
  (buildKey evtDigest evtPair, recordEntry) ::
    (List.range n).map fun i => (buildKey evtDigest (tenant i), recordEntry)

theorem normalized_tenant (i : Nat) : (tenant i).normalized = tenant i := by
  have hne : String.ofList (List.replicate (i + 1) 'a') ≠ "" := by
    intro hempty
    have hlist := congrArg String.toList hempty
    simp [List.replicate_succ] at hlist
  rw [Pair.normalized, tenant, named_some hne]

theorem buildKey_evt_inj {pair other : Pair} (hpair : pair.key = "evt_1")
    (hother : other.key = "evt_1") :
    buildKey evtDigest pair = buildKey evtDigest other ↔ pair.normalized = other.normalized :=
  buildKey_inj injOn_evtDigest hpair hother

theorem tenant_inj {i j : Nat} (h : buildKey evtDigest (tenant i) = buildKey evtDigest (tenant j)) :
    i = j := by
  rw [buildKey_evt_inj rfl rfl, normalized_tenant, normalized_tenant] at h
  have hlist := congrArg String.toList (Option.some.inj (Pair.mk.inj h).2)
  simpa using congrArg List.length hlist

theorem buildKey_tenant_ne (i : Nat) :
    buildKey evtDigest (tenant i) ≠ buildKey evtDigest evtPair := by
  rw [Ne, buildKey_evt_inj rfl rfl, normalized_tenant]
  intro h
  cases (Pair.mk.inj h).2

/-- An instant 0 with every worker outside any call, on these entries. -/
structure Quiet (d : Dict String CacheEntry) (s : State Nat) : Prop where
  now : s.redis.now = 0
  idle : ∀ w pair, s.redis.phase w pair = .idle
  memory : s.memory = ⟨d, 10000⟩

def storeSteps (pair : Pair) : List (Label Nat Bool) :=
  [(.memory 0 pair (.storeRecord true none), none), (.memory 0 pair .storeRelease, none)]

/-- `store` of a new pair, while no marker is held. -/
theorem run_store {d : Dict String CacheEntry} {s : State Nat} (h : Quiet d s) {pair : Pair}
    {d' : Dict String CacheEntry} (hevict : (InMemoryCache.mk d 10000).evict 0 = ⟨d', 10000⟩)
    (hrecord : buildKey evtDigest pair ∉ Dict.keys d')
    (hmarker : buildInProgressKey evtDigest pair ∉ Dict.keys d') :
    ∃ t, Run (Step evtDigest boolJson) s (storeSteps pair) t ∧
      Quiet (d' ++ [(buildKey evtDigest pair, recordEntry)]) t := by
  let c : InMemoryCache := ⟨d' ++ [(buildKey evtDigest pair, recordEntry)], 10000⟩
  have hstored : storeMemory evtDigest boolJson 0 pair true none ⟨d, 10000⟩ = c := by
    simp only [storeMemory, boolJson, InMemoryCache.set, hevict, InMemoryCache.assign,
      Dict.assign_of_not_mem hrecord]
    rfl
  have hreleased : releaseMemory evtDigest pair c = c := by
    have hkept : buildInProgressKey evtDigest pair ∉ Dict.keys c.cache := by
      have hne := buildKey_ne_buildInProgressKey evtDigest pair pair
      simp only [c, Dict.keys, List.map_append, List.map_cons, List.map_nil, List.mem_append,
        List.mem_singleton, not_or]
      exact ⟨hmarker, hne.symm⟩
    rw [releaseMemory, InMemoryCache.delete, Dict.removeIf_of_not_mem hkept]
  let u : State Nat := ⟨s.redis.setPhase 0 pair (.storing none), c⟩
  let t : State Nat := ⟨u.redis.setPhase 0 pair .idle, c⟩
  have hserve : (MemoryCall.storeRecord true none).serve evtDigest boolJson s.redis.now pair
      (s.redis.phase 0 pair) s.memory = some (.storing none, none, c) := by
    rw [h.now, h.idle, h.memory, ← hstored]
    rfl
  have hserve' : (MemoryCall.storeRelease).serve evtDigest boolJson u.redis.now pair
      (u.redis.phase 0 pair) u.memory = some (.idle, none, c) := by
    have hphase : u.redis.phase 0 pair = .storing none := Workers.State.setPhase_self _ _ _ _
    rw [hphase]
    simp only [MemoryCall.serve, u, hreleased]
  refine ⟨t, .tail (.single (step_of_transition (.memory hserve)))
    (step_of_transition (.memory hserve')), h.now, fun w other => ?_, rfl⟩
  by_cases hself : w = 0 ∧ other = pair
  · obtain ⟨rfl, rfl⟩ := hself
    exact Workers.State.setPhase_self _ _ _ _
  · show (u.redis.setPhase 0 pair .idle).phase w other = .idle
    rw [Workers.State.setPhase_of_ne hself, Workers.State.setPhase_of_ne hself, h.idle]

theorem mem_keys_filled {n : Nat} {key : String} :
    key ∈ Dict.keys (filled n) ↔ key = buildKey evtDigest evtPair ∨
      ∃ i < n, buildKey evtDigest (tenant i) = key := by
  simp [filled, Dict.keys]

theorem marker_not_mem_filled (n : Nat) (pair : Pair) :
    buildInProgressKey evtDigest pair ∉ Dict.keys (filled n) := by
  rw [mem_keys_filled]
  rintro (hsame | ⟨i, -, hsame⟩)
  · exact buildKey_ne_buildInProgressKey evtDigest evtPair pair hsame.symm
  · exact buildKey_ne_buildInProgressKey evtDigest (tenant i) pair hsame

theorem tenant_not_mem_filled (n : Nat) :
    buildKey evtDigest (tenant n) ∉ Dict.keys (filled n) := by
  rw [mem_keys_filled]
  rintro (hsame | ⟨i, hi, hsame⟩)
  · exact buildKey_tenant_ne n hsame
  · exact Nat.ne_of_lt hi (tenant_inj hsame)

theorem length_filled (n : Nat) : (filled n).length = n + 1 := by
  simp [filled]

theorem filled_succ (n : Nat) :
    filled (n + 1) = filled n ++ [(buildKey evtDigest (tenant n), recordEntry)] := by
  simp [filled, List.range_succ]

def tenantStores (n : Nat) : List (Label Nat Bool) :=
  (List.range n).flatMap fun i => storeSteps (tenant i)

/-- Below capacity every store adds its record. -/
theorem run_tenantStores {s : State Nat} (h : Quiet (filled 0) s) {n : Nat} (hn : n ≤ 9999) :
    ∃ t, Run (Step evtDigest boolJson) s (tenantStores n) t ∧ Quiet (filled n) t := by
  induction n with
  | zero => exact ⟨s, .refl s, h⟩
  | succ n ih =>
      obtain ⟨t, ht, hquiet⟩ := ih (by omega)
      have hevict : (InMemoryCache.mk (filled n) 10000).evict 0 = ⟨filled n, 10000⟩ := by
        refine InMemoryCache.evict_of_lt ?_ 0
        show (filled n).length < 10000
        rw [length_filled]
        omega
      obtain ⟨u, hu, hfilled⟩ := run_store hquiet hevict (tenant_not_mem_filled n)
        (marker_not_mem_filled n (tenant n))
      rw [← filled_succ] at hfilled
      refine ⟨u, ?_, hfilled⟩
      rw [tenantStores, List.range_succ, List.flatMap_append]
      exact ht.trans (by simpa using hu)

theorem cleanupExpired_filled (n : Nat) :
    (InMemoryCache.mk (filled n) 10000).cleanupExpired 0 = ⟨filled n, 10000⟩ := by
  have hentry : ∀ e ∈ filled n, e.2 = recordEntry := by simp [filled]
  have hlive : ∀ e ∈ filled n,
      (!(e.2.2.any (· ≠ 0) && InMemoryCache.isExpired 0 e.2.2)) = true := by
    intro e he
    rw [hentry e he]
    decide
  rw [InMemoryCache.cleanupExpired, List.filter_eq_self.mpr hlive]

/-- A full cache without expired entries loses its oldest tenth. -/
theorem evict_filled :
    (InMemoryCache.mk (filled 9999) 10000).evict 0 = ⟨(filled 9999).drop 1000, 10000⟩ := by
  have hfull : (filled 9999).length ≥ 10000 := by rw [length_filled]
  rw [InMemoryCache.evict, if_pos hfull]
  simp only [cleanupExpired_filled, if_pos hfull, Nat.reduceDiv]

theorem record_not_mem_drop :
    buildKey evtDigest evtPair ∉ Dict.keys ((filled 9999).drop 1000) := by
  have hdrop : (filled 9999).drop 1000 = ((List.range 9999).map fun i =>
      (buildKey evtDigest (tenant i), recordEntry)).drop 999 := by
    rw [filled, show 1000 = 999 + 1 from rfl, List.drop_succ_cons]
  rw [hdrop]
  intro hmem
  obtain ⟨e, he, hkey⟩ := List.mem_map.mp hmem
  obtain ⟨i, -, rfl⟩ := List.mem_map.mp (List.mem_of_mem_drop he)
  exact buildKey_tenant_ne i hkey

theorem not_mem_drop {n : Nat} {d : Dict String CacheEntry} {key : String}
    (h : key ∉ Dict.keys d) : key ∉ Dict.keys (d.drop n) := by
  intro hmem
  obtain ⟨e, he, hkey⟩ := List.mem_map.mp hmem
  exact h (hkey ▸ List.mem_map_of_mem (List.mem_of_mem_drop he))

/-- A check of a stored record on the fallback. -/
theorem run_duplicate {s : State Nat} (h : Quiet (filled 0) s) :
    ∃ t, Run (Step evtDigest boolJson) s
      [(.memory 1 evtPair .skipLua, none),
        (.memory 1 evtPair .read, some ⟨.duplicate, some true⟩)] t := by
  let u : State Nat := ⟨s.redis.setPhase 1 evtPair .reading, s.memory⟩
  have hskip : MemoryCall.skipLua.serve evtDigest boolJson s.redis.now evtPair
      (s.redis.phase 1 evtPair) s.memory = some (.reading, none, s.memory) := by
    rw [h.idle]
    rfl
  have hread : MemoryCall.read.serve evtDigest boolJson u.redis.now evtPair
      (u.redis.phase 1 evtPair) u.memory =
        some (.idle, some ⟨.duplicate, some true⟩, s.memory) := by
    have hphase : u.redis.phase 1 evtPair = .reading := Workers.State.setPhase_self _ _ _ _
    have hnow : u.redis.now = 0 := h.now
    rw [hphase, hnow, h.memory]
    decide
  exact ⟨_, .tail (.single (step_of_transition (.memory hskip)))
    (step_of_transition (.memory hread))⟩

theorem finds_of_not_mem {d : Dict String CacheEntry} {s : State Nat} (h : Quiet d s)
    {key : String} (hkey : key ∉ Dict.keys d) : finds s key .memory = false := by
  simp only [finds, InMemoryCache.liveExpiry, h.memory, Dict.find_of_not_mem hkey]
  rfl

theorem storeSteps_tenant (i : Nat) : ∀ label ∈ storeSteps (tenant i), ∃ w other,
    label.1.caller = some (w, other) ∧ other.key = "evt_1" ∧
      other.normalized ≠ evtPair.normalized := by
  have hne : (tenant i).normalized ≠ evtPair.normalized := by
    rw [normalized_tenant]
    exact fun hsame => by cases (Pair.mk.inj hsame).2
  intro label hlabel
  rcases List.mem_pair.mp hlabel with rfl | rfl
  · exact ⟨0, tenant i, rfl, rfl, hne⟩
  · exact ⟨0, tenant i, rfl, rfl, hne⟩

/-- One record stored on the fallback, ten thousand stores of other tenants with the
same external key: the check returns `NEW` after them and `DUPLICATE` without them. -/
theorem isolation_lost_by_eviction :
    ∃ (others : List (Label Nat Bool)) (s t : State Nat),
      (∀ label ∈ others, ∃ w other, label.1.caller = some (w, other) ∧ other.key = "evt_1" ∧
        other.normalized ≠ evtPair.normalized) ∧
      Run (Step evtDigest boolJson) start (storeSteps evtPair) s ∧
      Run (Step evtDigest boolJson) s others t ∧
      (∃ u, Run (Step evtDigest boolJson) s
        [(.memory 1 evtPair .skipLua, none),
          (.memory 1 evtPair .read, some ⟨.duplicate, some true⟩)] u) ∧
      ∃ u, Run (Step evtDigest boolJson) t (newCheck 1 evtPair .inMemory) u := by
  have hstart : Quiet [] start := ⟨rfl, fun _ _ => rfl, rfl⟩
  obtain ⟨s, hs, hstored⟩ := run_store hstart rfl List.not_mem_nil List.not_mem_nil
  obtain ⟨u, hu, hfilled⟩ := run_tenantStores hstored (Nat.le_refl 9999)
  obtain ⟨t, ht, hevicted⟩ := run_store hfilled evict_filled
    (not_mem_drop (tenant_not_mem_filled 9999)) (not_mem_drop (marker_not_mem_filled 9999 _))
  have hgone : ∀ key ∉ Dict.keys ((filled 9999).drop 1000),
      key ≠ buildKey evtDigest (tenant 9999) → finds t key .memory = false := by
    intro key hdropped hne
    refine finds_of_not_mem hevicted ?_
    simpa [Dict.keys, hne] using hdropped
  refine ⟨_, s, t, fun label hlabel => ?_, hs, hu.trans ht, run_duplicate hstored, ?_⟩
  · rcases List.mem_append.mp hlabel with hbefore | hlast
    · obtain ⟨i, -, hstep⟩ := List.mem_flatMap.mp hbefore
      exact storeSteps_tenant i label hstep
    · exact storeSteps_tenant 9999 label hlast
  · refine run_newCheck .inMemory (hevicted.idle 1 evtPair) ?_ ?_
    · exact hgone _ record_not_mem_drop (buildKey_tenant_ne 9999).symm
    · exact hgone _ (not_mem_drop (marker_not_mem_filled 9999 evtPair))
        (buildKey_ne_buildInProgressKey evtDigest (tenant 9999) evtPair).symm

end BackendProdReady.Idempotency.Isolation
