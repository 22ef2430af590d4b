import BackendProdReady.Idempotency.FallbackWorkers

/-!
# The lifetime of a marker

Every marker is created by a check and expires IN_PROGRESS_TTL seconds later, on
Redis and on the in-memory fallback alike.  So no crash and no lost command locks
an operation for longer than that: without a record, a check that comes later
returns `NEW`.
-/

namespace BackendProdReady.Idempotency.MarkerLifetime

open BackendProdReady.Lib.ExpiringStore
open BackendProdReady.Lib.InsertionDict
open BackendProdReady.Lib.Runs
open BackendProdReady.Cache.InMemory
open BackendProdReady.Idempotency.Keys
open BackendProdReady.Idempotency.Service
open BackendProdReady.Idempotency.Workers (evtDigest boolJson evtPair)
open BackendProdReady.Idempotency.FallbackWorkers

inductive Backend
  | redis
  | memory

section

variable {ω : Type} (sha256 : String → HexDigest)

/-- The store holds an entry with this expiry under the key, live or not. -/
def Holds (s : State ω) (key : String) (expiry : Option Int) : Backend → Prop
  | .redis => ∃ entry, s.redis.keys key = some entry ∧ entry.expiry.map Int.ofNat = expiry
  | .memory => ∃ value, (key, (value, expiry)) ∈ s.memory.cache

def finds (s : State ω) (key : String) : Backend → Bool
  | .redis => (s.redis.keys.find s.redis.now key).isSome
  | .memory => (s.memory.liveExpiry s.redis.now key).isSome

/-- A step between the two states creates the marker of the operation. -/
def Creates (backend : Backend) (pair : Pair) (s t : State ω) : Prop :=
  finds s (buildInProgressKey sha256 pair) backend = false ∧
    finds t (buildInProgressKey sha256 pair) backend = true

/-- In the run from `s` to `t` the marker is created at this instant. -/
def CreatedAt {J : Type} [DecidableEq ω] (orjson : Orjson J) (backend : Backend) (pair : Pair)
    (s : State ω) (labels : List (Label ω J)) (t : State ω) (instant : Nat) : Prop :=
  ∃ pre label post u v, labels = pre ++ label :: post ∧
    Run (Step sha256 orjson) s pre u ∧ Step sha256 orjson u label v ∧
    Run (Step sha256 orjson) v post t ∧ Creates sha256 backend pair u v ∧ u.redis.now = instant

end

/-! ## One step -/

section

variable {ω J : Type} [DecidableEq ω] {sha256 : String → HexDigest} {orjson : Orjson J}

/-- `setnx` of a marker adds nothing but the marker, where it finds none. -/
theorem acquireMemory_mem {now : Nat} {pair : Pair} {c : InMemoryCache} {key : String}
    {entry : CacheEntry}
    (hmem : (key, entry) ∈ (acquireMemory (J := J) sha256 now pair c).2.cache) :
    (key, entry) ∈ c.cache ∨
      key = buildInProgressKey sha256 pair ∧ entry.2 = some ((now + inProgressMs : Nat) : Int) ∧
        c.liveExpiry now key = none ∧
        ((acquireMemory (J := J) sha256 now pair c).2.liveExpiry now key).isSome = true := by
  cases hlive : c.liveExpiry now (buildInProgressKey sha256 pair) with
  | some expiry =>
      rw [acquireMemory_of_live sha256 hlive] at hmem
      exact .inl hmem
  | none =>
      rw [acquireMemory_of_not_live sha256 hlive] at hmem ⊢
      rcases Dict.mem_assign hmem with heq | hold
      · obtain ⟨rfl, rfl⟩ := Prod.mk.inj heq
        refine .inr ⟨rfl, expiryOf_marker now, hlive, ?_⟩
        rw [InMemoryCache.liveExpiry_eq_liveEntry, liveEntry_assign_marker, if_pos rfl]
        rfl
      · exact .inl hold

/-- What a worker's call can leave in the in-memory cache: what was there, the
record of its pair, or a marker that it has just created. -/
theorem serve_mem {now : Nat} {pair : Pair} {call : MemoryCall J} {phase phase' : Workers.Phase}
    {result : Option (IdempotencyResult J)} {c c' : InMemoryCache} {key : String}
    {entry : CacheEntry}
    (h : call.serve sha256 orjson now pair phase c = some (phase', result, c'))
    (hmem : (key, entry) ∈ c'.cache) :
    (key, entry) ∈ c.cache ∨ key = buildKey sha256 pair ∨
      key = buildInProgressKey sha256 pair ∧ entry.2 = some ((now + inProgressMs : Nat) : Int) ∧
        c.liveExpiry now key = none ∧ (c'.liveExpiry now key).isSome = true := by
  have hdelete : ∀ deleted, (key, entry) ∈ (c.delete deleted).2.cache → (key, entry) ∈ c.cache :=
    fun _ hmem => List.mem_of_mem_filter hmem
  cases serve_cases h with
  | skipLua => exact .inl hmem
  | read =>
      rw [readMemory_memory] at hmem
      exact .inl ((InMemoryCache.get_sublist now _ c).subset hmem)
  | acquire => exact (acquireMemory_mem hmem).imp_right .inr
  | storeRecord hphase =>
      unfold storeMemory at hmem
      split at hmem
      · exact .inl hmem
      · rcases Dict.mem_assign hmem with heq | hold
        · exact .inr (.inl (Prod.mk.inj heq).1)
        · exact .inl ((InMemoryCache.evict_sublist now c).subset hold)
  | storeRelease => exact .inl (hdelete _ hmem)
  | clearInProgress hphase => exact .inl (hdelete _ hmem)
  | invalidateRecord => exact .inl (hdelete _ hmem)
  | invalidateMarker => exact .inl (hdelete _ hmem)

/-- A marker that Redis holds after a step was there before it, or was created by it. -/
theorem step_entry {s t : Workers.State ω} {op : Workers.Op ω J}
    {result : Option (IdempotencyResult J)} {pair : Pair} {entry : Entry String}
    (h : Workers.Step sha256 orjson s (op, result) t)
    (hentry : t.keys (buildInProgressKey sha256 pair) = some entry) :
    s.keys (buildInProgressKey sha256 pair) = some entry ∨
      entry = markerEntry s.now ∧ s.keys.find s.now (buildInProgressKey sha256 pair) = none ∧
        (t.keys.find t.now (buildInProgressKey sha256 pair)).isSome = true := by
  have hne := fun other => (buildKey_ne_buildInProgressKey sha256 other pair).symm
  cases Workers.step_keys h with
  | kept hkeys => exact .inl (by rw [← hkeys, hentry])
  | marked w other hop hnone hkeys =>
      by_cases hsame : buildInProgressKey sha256 pair = buildInProgressKey sha256 other
      · rw [← hsame] at hnone hkeys
        rw [hkeys, Store.put_self] at hentry
        obtain rfl := Option.some.inj hentry
        have hnow := Workers.step_now_of_caller h (Workers.caller_of_checker hop)
        have hlive : (markerEntry s.now).live s.now = true :=
          (Entry.live_iff rfl _).mpr (Nat.le_add_right _ _)
        refine .inr ⟨rfl, hnone, ?_⟩
        rw [hnow, hkeys, Store.find_put_self, if_pos hlive]
        rfl
      · rw [hkeys, Store.put_of_ne hsame] at hentry
        exact .inl hentry
  | recorded other e hop hkeys =>
      rw [hkeys, Store.put_of_ne (hne other)] at hentry
      exact .inl hentry
  | released other hop hkeys =>
      by_cases hsame : buildInProgressKey sha256 pair = buildInProgressKey sha256 other
      · rw [hkeys, hsame, Store.remove_self] at hentry
        cases hentry
      · rw [hkeys, Store.remove_of_ne hsame] at hentry
        exact .inl hentry
  | dropped other hop hkeys =>
      rw [hkeys, Store.remove_of_ne (hne other)] at hentry
      exact .inl hentry

/-- A marker that a store holds after a step was there before it, or was created by
it and expires IN_PROGRESS_TTL seconds later. -/
theorem step_holds {s t : State ω} {label : Label ω J} {backend : Backend} {pair : Pair}
    {expiry : Option Int} (h : Step sha256 orjson s label t)
    (hheld : Holds t (buildInProgressKey sha256 pair) expiry backend) :
    Holds s (buildInProgressKey sha256 pair) expiry backend ∨
      Creates sha256 backend pair s t ∧
        expiry = some ((s.redis.now + inProgressMs : Nat) : Int) := by
  obtain ⟨op, result⟩ := label
  cases step_cases h with
  | @redis op result redis hstep =>
      cases backend with
      | memory => exact .inl hheld
      | redis =>
          obtain ⟨entry, hentry, hexpiry⟩ := hheld
          rcases step_entry hstep hentry with hold | ⟨rfl, hnone, hsome⟩
          · exact .inl ⟨entry, hold, hexpiry⟩
          · exact .inr ⟨⟨by simp [finds, hnone], hsome⟩, hexpiry.symm⟩
  | @memory w other call phase result memory hserve =>
      cases backend with
      | redis => exact .inl hheld
      | memory =>
          obtain ⟨value, hmem⟩ := hheld
          rcases serve_mem hserve hmem with hold | hrecord | ⟨-, hexpiry, hnone, hsome⟩
          · exact .inl ⟨value, hold⟩
          · exact absurd hrecord.symm (buildKey_ne_buildInProgressKey sha256 other pair)
          · exact .inr ⟨⟨by simp [finds, hnone], hsome⟩, hexpiry⟩
  | renewMemory =>
      cases backend with
      | redis => exact .inl hheld
      | memory =>
          obtain ⟨value, hmem⟩ := hheld
          cases hmem

/-! ## A whole run -/

/-- Every marker held at the end of a run that began without any was created in it,
and expires IN_PROGRESS_TTL seconds after that instant. -/
theorem run_holds {s t : State ω} {labels : List (Label ω J)} {backend : Backend} {pair : Pair}
    (hnone : ∀ expiry, ¬ Holds s (buildInProgressKey sha256 pair) expiry backend)
    (hrun : Run (Step sha256 orjson) s labels t) :
    ∀ expiry, Holds t (buildInProgressKey sha256 pair) expiry backend →
      ∃ instant, CreatedAt sha256 orjson backend pair s labels t instant ∧
        expiry = some ((instant + inProgressMs : Nat) : Int) := by
  induction hrun with
  | refl => exact fun expiry hheld => absurd hheld (hnone expiry)
  | @tail u v pre label hpre hstep ih =>
      intro expiry hheld
      rcases step_holds hstep hheld with hbefore | ⟨hcreates, hexpiry⟩
      · obtain ⟨instant, hcreated, hexpiry⟩ := ih expiry hbefore
        obtain ⟨before, first, after, u', v', rfl, hrun, hfirst, hafter, hcreates, hnow⟩ :=
          hcreated
        exact ⟨instant, ⟨before, first, after ++ [label], u', v', by simp, hrun, hfirst,
          .tail hafter hstep, hcreates, hnow⟩, hexpiry⟩
      · exact ⟨u.redis.now, ⟨pre, label, [], u, v, rfl, hpre, hstep, .refl _, hcreates, rfl⟩,
          hexpiry⟩

/-! ## Checks on a healthy store -/

omit [DecidableEq ω] in
theorem finds_of_expired {t : State ω} {key : String} {backend : Backend}
    (h : ∀ expiry, Holds t key expiry backend →
      InMemoryCache.isExpired t.redis.now expiry = true) : finds t key backend = false := by
  cases backend with
  | redis =>
      have hnone : t.redis.keys.find t.redis.now key = none := by
        rw [Store.find_eq_none_iff]
        intro entry hentry
        have hexpired := h _ ⟨entry, hentry, rfl⟩
        cases hexpiry : entry.expiry with
        | none => simp [hexpiry, InMemoryCache.isExpired] at hexpired
        | some instant =>
            simp only [hexpiry, Option.map_some, InMemoryCache.isExpired, decide_eq_true_eq,
              Int.ofNat_eq_natCast] at hexpired
            simp only [Entry.live, hexpiry, decide_eq_false_iff_not]
            omega
      simp [finds, hnone]
  | memory =>
      simp only [finds, InMemoryCache.liveExpiry]
      cases hfind : t.memory.cache.find key with
      | none => rfl
      | some entry =>
          obtain ⟨value, expiry⟩ := entry
          simp [h expiry ⟨value, Dict.mem_of_find hfind⟩]

def readOn (w : ω) (pair : Pair) : Backend → Op ω J
  | .redis => .redis (.read w pair .answered)
  | .memory => .memory w pair .read

def acquireOn (w : ω) (pair : Pair) : Backend → Op ω J
  | .redis => .redis (.acquire w pair .answered)
  | .memory => .memory w pair .acquire

/-- `setnx` of a marker that the store does not find returns `True`. -/
theorem acquire_new {t : State ω} {w : ω} {pair : Pair} {backend : Backend}
    (hphase : t.redis.phase w pair = .acquiring)
    (hmarker : finds t (buildInProgressKey sha256 pair) backend = false) :
    Step sha256 orjson t (acquireOn w pair backend, some ⟨.new, none⟩)
      (next sha256 orjson t (acquireOn w pair backend)) := by
  refine reaction_afterEvent ?_
  cases backend with
  | redis =>
      have hanswer := acquireMarker_answered (J := J) sha256 t.redis.now pair t.redis.keys
      rw [if_neg (by simpa [finds] using hmarker)] at hanswer
      simp [acquireOn, react, Workers.react, hphase, Workers.checkStep, checkAcquire, hanswer,
        Next.ofEnd, Workers.resultOf]
  | memory =>
      have hanswer := acquireMemory_of_not_live (J := J) sha256
        (by simpa [finds] using hmarker)
      simp [acquireOn, react, MemoryCall.serve, hphase, hanswer, Workers.resultOf]

/-- A read that the store answers without a record goes on to `setnx`. -/
theorem read_missed {t : State ω} {w : ω} {pair : Pair} (backend : Backend)
    (hphase : t.redis.phase w pair = .reading)
    (hrecord : finds t (buildKey sha256 pair) backend = false) :
    ∃ t', Step sha256 orjson t (readOn w pair backend, none) t' ∧
      t'.redis.phase w pair = .acquiring ∧
      finds t' (buildInProgressKey sha256 pair) backend =
        finds t (buildInProgressKey sha256 pair) backend := by
  cases backend with
  | redis =>
      have hmissed : checkRead sha256 orjson .answered t.redis.now pair t.redis.keys =
          (.acquire, t.redis.keys) :=
        checkRead_missed sha256 orjson (by simp)
          (.inr fun cached hcached => by simp [finds, hcached] at hrecord)
      have hstep : Workers.Step sha256 orjson t.redis (.read w pair .answered, none)
          (Workers.checkStep t.redis w pair ((.acquire : Next J), t.redis.keys)).1 :=
        Workers.step_of_transition (.read hphase hmissed.symm)
      exact ⟨_, step_of_transition (.redis hstep), Workers.State.setPhase_self _ _ _ _, rfl⟩
  | memory =>
      have hmissed : (t.memory.get t.redis.now (buildKey sha256 pair)).1 = none :=
        InMemoryCache.get_of_not_live (by simpa [finds] using hrecord)
      have hserve : MemoryCall.read.serve sha256 orjson t.redis.now pair
          (t.redis.phase w pair) t.memory = some (.acquiring, none,
            (t.memory.get t.redis.now (buildKey sha256 pair)).2) := by
        simp [MemoryCall.serve, hphase, readMemory, hmissed, Workers.phaseAfter,
          Workers.resultOf]
      refine ⟨_, step_of_transition (.memory hserve), Workers.State.setPhase_self _ _ _ _, ?_⟩
      exact congrArg Option.isSome (InMemoryCache.liveExpiry_congr
        (InMemoryCache.find_get_of_ne (buildKey_ne_buildInProgressKey sha256 pair pair).symm) _)

variable (sha256 orjson) in
/-- A script that fails while Redis answers a ping leaves the check at its read. -/
theorem run_unscripted {t : State ω} {w : ω} {pair : Pair}
    (hphase : t.redis.phase w pair = .idle) :
    ∃ u, Run (Step sha256 orjson) t
        [(.redis (.lua w pair .failed), none), (.redis (.ping w pair true), none)] u ∧
      u.redis.phase w pair = .reading ∧ ∀ key, finds u key .redis = finds t key .redis := by
  let u := (Workers.checkStep t.redis w pair ((.ping : Next J), t.redis.keys)).1
  let v := (Workers.checkStep u w pair ((.read : Next J), u.keys)).1
  have hlua : Workers.Step sha256 orjson t.redis (.lua w pair .failed, none) u :=
    Workers.step_of_transition (.lua hphase rfl)
  have hping : Workers.Step sha256 orjson u (.ping w pair true, none) v :=
    Workers.step_of_transition (.ping (Workers.State.setPhase_self _ _ _ _))
  exact ⟨⟨v, t.memory⟩, .tail (.single (step_of_transition (.redis hlua)))
    (step_of_transition (.redis hping)), Workers.State.setPhase_self _ _ _ _, fun _ => rfl⟩

/-- The labels of an uninterrupted check that returns `NEW`: by the script, by the
non-atomic path on Redis after a script that failed, or on the fallback. -/
inductive Path
  | script
  | nonAtomic
  | inMemory

def Path.backend : Path → Backend
  | .script | .nonAtomic => .redis
  | .inMemory => .memory

def newCheck (w : ω) (pair : Pair) : Path → List (Label ω J)
  | .script => [(.redis (.lua w pair .answered), some ⟨.new, none⟩)]
  | .nonAtomic =>
      [(.redis (.lua w pair .failed), none), (.redis (.ping w pair true), none),
        (.redis (.read w pair .answered), none),
        (.redis (.acquire w pair .answered), some ⟨.new, none⟩)]
  | .inMemory =>
      [(.memory w pair .skipLua, none), (.memory w pair .read, none),
        (.memory w pair .acquire, some ⟨.new, none⟩)]

/-- A check on a store that finds neither record nor marker. -/
theorem run_newCheck {t : State ω} {w : ω} {pair : Pair} (path : Path)
    (hphase : t.redis.phase w pair = .idle)
    (hrecord : finds t (buildKey sha256 pair) path.backend = false)
    (hmarker : finds t (buildInProgressKey sha256 pair) path.backend = false) :
    ∃ t', Run (Step sha256 orjson) t (newCheck w pair path) t' := by
  cases path with
  | script =>
      have hmissed := checkLua_answered sha256 orjson t.redis.now pair t.redis.keys
      rw [show t.redis.keys.find t.redis.now (buildKey sha256 pair) = none by
          simpa [finds, Path.backend] using hrecord,
        if_neg (by simpa [finds, Path.backend] using hmarker)] at hmissed
      exact ⟨_, .single (step_of_transition (.redis
        (Workers.step_of_transition (.lua hphase hmissed.symm))))⟩
  | nonAtomic =>
      obtain ⟨u, hrun, hreading, hfinds⟩ := run_unscripted sha256 orjson hphase
      obtain ⟨v, hread, hacquiring, hmarker'⟩ := read_missed .redis hreading
        ((hfinds _).trans hrecord)
      exact ⟨_, .tail (.tail hrun hread)
        (acquire_new hacquiring (hmarker'.trans ((hfinds _).trans hmarker)))⟩
  | inMemory =>
      have hserve : MemoryCall.skipLua.serve sha256 orjson t.redis.now pair
          (t.redis.phase w pair) t.memory = some (.reading, none, t.memory) := by
        rw [hphase]
        rfl
      have hreading : (State.mk (t.redis.setPhase w pair .reading) t.memory).redis.phase w pair =
          .reading := Workers.State.setPhase_self _ _ _ _
      obtain ⟨v, hread, hacquiring, hmarker'⟩ := read_missed .memory hreading hrecord
      exact ⟨_, .tail (.tail (.single (step_of_transition (.memory hserve))) hread)
        (acquire_new hacquiring (hmarker'.trans hmarker))⟩

/-! ## Main result -/

/-- In every run from a state without markers: a marker expires IN_PROGRESS_TTL
seconds after its creation, and once that has passed since the last creation, a check
without a record returns `NEW`, uninterrupted or with other workers between its
commands. -/
theorem no_permanent_lock {s t : State ω} {labels : List (Label ω J)}
    (hinit : ∀ backend pair expiry, ¬ Holds s (buildInProgressKey sha256 pair) expiry backend)
    (hrun : Run (Step sha256 orjson) s labels t) :
    (∀ backend pair expiry, Holds t (buildInProgressKey sha256 pair) expiry backend →
      ∃ instant, CreatedAt sha256 orjson backend pair s labels t instant ∧
        expiry = some ((instant + inProgressMs : Nat) : Int)) ∧
    (∀ path w pair,
      (∀ instant, CreatedAt sha256 orjson path.backend pair s labels t instant →
        instant + inProgressMs < t.redis.now) →
      finds t (buildKey sha256 pair) path.backend = false → t.redis.phase w pair = .idle →
      ∃ t', Run (Step sha256 orjson) t (newCheck w pair path) t') ∧
    (∀ backend w pair,
      (∀ instant, CreatedAt sha256 orjson backend pair s labels t instant →
        instant + inProgressMs < t.redis.now) →
      t.redis.phase w pair = .acquiring →
      ∃ t', Step sha256 orjson t (acquireOn w pair backend, some ⟨.new, none⟩) t') := by
  have hheld : ∀ backend pair expiry, Holds t (buildInProgressKey sha256 pair) expiry backend →
      ∃ instant, CreatedAt sha256 orjson backend pair s labels t instant ∧
        expiry = some ((instant + inProgressMs : Nat) : Int) :=
    fun backend pair => run_holds (hinit backend pair) hrun
  have hexpired : ∀ backend pair,
      (∀ instant, CreatedAt sha256 orjson backend pair s labels t instant →
        instant + inProgressMs < t.redis.now) →
      finds t (buildInProgressKey sha256 pair) backend = false := by
    intro backend pair hstale
    refine finds_of_expired fun expiry hmarker => ?_
    obtain ⟨instant, hcreated, rfl⟩ := hheld backend pair expiry hmarker
    have hlater := hstale instant hcreated
    simp only [InMemoryCache.isExpired, decide_eq_true_eq]
    omega
  refine ⟨hheld, fun path w pair hstale hrecord hphase => ?_,
    fun backend w pair hstale hphase => ?_⟩
  · exact run_newCheck path hphase hrecord (hexpired path.backend pair hstale)
  · exact ⟨_, acquire_new hphase (hexpired backend pair hstale)⟩

/-! ## A crashed worker on each store -/

/-- What is found after a pause was found before it. -/
theorem finds_of_advance {s t : State ω} {ms : Nat} {result : Option (IdempotencyResult J)}
    {key : String} {backend : Backend}
    (h : Step sha256 orjson s (.redis (.advance ms), result) t)
    (hfound : finds t key backend = true) : finds s key backend = true := by
  cases step_cases h with
  | redis hstep =>
      cases Workers.step_cases hstep with
      | advance =>
          cases backend with
          | redis =>
              simp only [finds, Option.isSome_iff_ne_none] at hfound ⊢
              exact fun hnone => hfound (Store.find_eq_none_of_le (Nat.le_add_right _ ms) hnone)
          | memory =>
              simp only [finds, InMemoryCache.liveExpiry] at hfound ⊢
              cases hfind : s.memory.cache.find key with
              | none => simp [hfind] at hfound
              | some entry =>
                  obtain ⟨value, expiry⟩ := entry
                  cases expiry with
                  | none => simp [InMemoryCache.isExpired]
                  | some instant =>
                      have hlater : ((s.redis.now + ms : Nat) : Int) ≤ instant := by
                        simpa [hfind, InMemoryCache.isExpired] using hfound
                      have hnow : ¬ (s.redis.now : Int) > instant := by omega
                      simp [InMemoryCache.isExpired, hnow]

/-- Nothing is created during a pause. -/
theorem createdAt_before_pause {s t : State ω} {labels : List (Label ω J)} {ms instant : Nat}
    {backend : Backend} {pair : Pair}
    (h : CreatedAt sha256 orjson backend pair s (labels ++ [(.redis (.advance ms), none)]) t
      instant) : instant + ms ≤ t.redis.now := by
  obtain ⟨pre, label, post, u, v, hlabels, -, hstep, hpost, ⟨hbefore, hafter⟩, rfl⟩ := h
  rcases List.eq_nil_or_concat post with rfl | ⟨post, last, rfl⟩
  · obtain ⟨-, rfl⟩ := List.append_singleton_inj.mp hlabels
    rw [finds_of_advance hstep hafter] at hbefore
    cases hbefore
  · rw [List.concat_eq_append, ← List.cons_append, ← List.append_assoc] at hlabels
    obtain ⟨-, rfl⟩ := List.append_singleton_inj.mp hlabels
    rw [List.concat_eq_append] at hpost
    obtain ⟨w, hrun, hpause⟩ := hpost.inv_tail
    have hnow : t.redis.now = w.redis.now + ms := by
      cases step_cases hpause with
      | redis hadvance =>
          cases Workers.step_cases hadvance with
          | advance => rfl
    have hfirst : u.redis.now ≤ v.redis.now := step_now_le hstep
    have hrest : v.redis.now ≤ w.redis.now := run_now_le hrun
    omega

end

/-- Workers 0 and 1 take the operation on Redis and on the fallback, and crash. -/
def crashed : List (Label Nat Bool) :=
  [(.redis (.lua 0 evtPair .answered), some ⟨.new, none⟩),
    (.memory 1 evtPair .skipLua, none), (.memory 1 evtPair .read, none),
    (.memory 1 evtPair .acquire, some ⟨.new, none⟩)]

/-- 301 seconds later worker 2 takes it, on any path. -/
theorem no_permanent_lock_after_crash :
    ∃ t : State Nat, Run (Step evtDigest boolJson) start
        (crashed ++ [(.redis (.advance 301000), none)]) t ∧
      ∀ path, ∃ t', Run (Step evtDigest boolJson) t (newCheck 2 evtPair path) t' := by
  let u₁ := next evtDigest boolJson start (.redis (.lua 0 evtPair .answered))
  let u₂ := next evtDigest boolJson u₁ (.memory 1 evtPair .skipLua)
  let u₃ := next evtDigest boolJson u₂ (.memory 1 evtPair .read)
  let u₄ := next evtDigest boolJson u₃ (.memory 1 evtPair .acquire)
  let t := next evtDigest boolJson u₄ (.redis (.advance 301000))
  have hrun : Run (Step evtDigest boolJson) start
      (crashed ++ [(.redis (.advance 301000), none)]) t :=
    .tail (.tail (.tail (.tail (.single (reaction_afterEvent (by decide)))
      (reaction_afterEvent (by decide))) (reaction_afterEvent (by decide)))
      (reaction_afterEvent (by decide))) (reaction_afterEvent rfl)
  have hinit : ∀ backend pair expiry,
      ¬ Holds start (buildInProgressKey evtDigest pair) expiry backend := by
    rintro (_ | _) pair expiry hheld
    · obtain ⟨entry, hentry, -⟩ := hheld
      cases hentry
    · obtain ⟨value, hmem⟩ := hheld
      cases hmem
  refine ⟨t, hrun, fun path => ?_⟩
  refine (no_permanent_lock hinit hrun).2.1 path 2 evtPair (fun instant hcreated => ?_) ?_ ?_
  · have hbefore := createdAt_before_pause hcreated
    have hnow : t.redis.now = 301000 := by decide
    simp only [inProgressMs]
    omega
  · cases path <;> decide
  · decide

end BackendProdReady.Idempotency.MarkerLifetime
