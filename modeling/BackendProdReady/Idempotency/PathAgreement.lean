import BackendProdReady.Idempotency.FallbackWorkers

/-!
# The two paths of a check

Without interleaving `_check_non_atomic` answers as the script does and leaves the
same keys, on every key space that the service can reach: its records are encoded
responses, so the script never meets one that does not decode.  A sequential
program of calls therefore observes the same on both paths.
-/

namespace BackendProdReady.Idempotency.PathAgreement

open BackendProdReady.Lib.ExpiringStore
open BackendProdReady.Lib.InsertionDict
open BackendProdReady.Lib.Runs
open BackendProdReady.Cache.InMemory
open BackendProdReady.Cache.Operations (Keyspace Fate)
open BackendProdReady.Idempotency.Keys
open BackendProdReady.Idempotency.Service
open BackendProdReady.Idempotency.Workers (Op evtDigest boolJson evtPair)
open BackendProdReady.Idempotency.FallbackWorkers (readMemory acquireMemory
  acquireMemory_of_live acquireMemory_of_not_live liveEntry_assign_marker)

/-! ## Calls without interleaving -/

/-- Whether the script answers, or fails without effect while Redis answers. -/
inductive CheckPath
  | script
  | nonAtomic

def CheckPath.fate : CheckPath → Fate
  | .script => .answered
  | .nonAtomic => .failed

section

variable {J : Type} (sha256 : String → HexDigest) (orjson : Orjson J)

def checkNonAtomic (now : Nat) (pair : Pair) (keys : Keyspace) : Next J × Keyspace :=
  let run := checkRead sha256 orjson .answered now pair keys
  match run.1 with
  | .acquire => checkAcquire sha256 .answered now pair run.2
  | _ => run

/-- `check` from its first command to its last; Redis answers the ping. -/
def check (path : CheckPath) (now : Nat) (pair : Pair) (keys : Keyspace) : Next J × Keyspace :=
  let run := checkLua sha256 orjson path.fate now pair keys
  match run.1 with
  | .ping => checkNonAtomic sha256 orjson now pair run.2
  | _ => run

def store (now : Nat) (pair : Pair) (response : J) (ttl : Option Int) (keys : Keyspace) :
    Keyspace :=
  let stored := (storeRecord sha256 orjson .answered now pair response ttl keys).2
  (releaseMarker sha256 .answered now pair stored).2

def clearInProgress (now : Nat) (pair : Pair) (keys : Keyspace) : Keyspace :=
  (releaseMarker sha256 .answered now pair keys).2

def invalidate (now : Nat) (pair : Pair) (keys : Keyspace) : Keyspace :=
  (releaseMarker sha256 .answered now pair (dropRecord sha256 .answered now pair keys).2).2

/-- `_check_non_atomic` on the in-memory fallback. -/
def checkInMemory (now : Nat) (pair : Pair) (c : InMemoryCache) : Next J × InMemoryCache :=
  let run := readMemory sha256 orjson now pair c
  match run.1 with
  | .acquire => acquireMemory sha256 now pair run.2
  | _ => run

inductive Call (J : Type)
  | advance (ms : Nat)
  | check (pair : Pair)
  | store (pair : Pair) (response : J) (ttl : Option Int)
  | clearInProgress (pair : Pair)
  | invalidate (pair : Pair)

structure Server where
  now : Nat
  keys : Keyspace

/-- One call, with the end of a check. -/
def perform (path : CheckPath) (s : Server) : Call J → Option (Next J) × Server
  | .advance ms => (none, { s with now := s.now + ms })
  | .check pair =>
      let run := check sha256 orjson path s.now pair s.keys
      (some run.1, { s with keys := run.2 })
  | .store pair response ttl =>
      (none, { s with keys := store sha256 orjson s.now pair response ttl s.keys })
  | .clearInProgress pair => (none, { s with keys := clearInProgress sha256 s.now pair s.keys })
  | .invalidate pair => (none, { s with keys := invalidate sha256 s.now pair s.keys })

/-- The ends of the checks of a program, in order, and the server it leaves. -/
def observe (path : CheckPath) : Server → List (Call J) → List (Next J) × Server
  | s, [] => ([], s)
  | s, call :: program =>
      let first := perform sha256 orjson path s call
      let rest := observe path first.2 program
      (first.1.toList ++ rest.1, rest.2)

/-! ## Encoded records -/

/-- Every record is an encoded response. -/
def Encoded (keys : Keyspace) : Prop :=
  ∀ pair entry, keys (buildKey sha256 pair) = some entry →
    ∃ response, orjson.dumps response = some entry.value

end

section

variable {ω J : Type} [DecidableEq ω] {sha256 : String → HexDigest} {orjson : Orjson J}

theorem encoded_put_marker {keys : Keyspace} (h : Encoded sha256 orjson keys) (pair : Pair)
    (entry : Entry String) :
    Encoded sha256 orjson (keys.put (buildInProgressKey sha256 pair) entry) := by
  intro other e he
  rw [Store.put_of_ne (buildKey_ne_buildInProgressKey sha256 other pair)] at he
  exact h other e he

theorem encoded_remove {keys : Keyspace} (h : Encoded sha256 orjson keys) (key : String) :
    Encoded sha256 orjson (keys.remove key) := by
  intro other e he
  by_cases hsame : buildKey sha256 other = key
  · rw [hsame, Store.remove_self] at he
    cases he
  · rw [Store.remove_of_ne hsame] at he
    exact h other e he

theorem encoded_storeRecord {keys : Keyspace} (h : Encoded sha256 orjson keys) (fate : Fate)
    (now : Nat) (pair : Pair) (response : J) (ttl : Option Int) :
    Encoded sha256 orjson (storeRecord sha256 orjson fate now pair response ttl keys).2 := by
  rcases storeRecord_keys sha256 orjson fate now pair response ttl keys with
    hkeys | ⟨serialized, hdumps, -, hkeys⟩
  · rwa [hkeys]
  · intro other e he
    rw [hkeys] at he
    by_cases hsame : buildKey sha256 other = buildKey sha256 pair
    · rw [hsame, Store.put_self] at he
      obtain rfl := Option.some.inj he
      exact ⟨response, hdumps⟩
    · rw [Store.put_of_ne hsame] at he
      exact h other e he

theorem step_encoded {s t : Workers.State ω} {label : Op ω J × Option (IdempotencyResult J)}
    (hstep : Workers.Step sha256 orjson s label t) (h : Encoded sha256 orjson s.keys) :
    Encoded sha256 orjson t.keys := by
  obtain ⟨op, result⟩ := label
  cases Workers.step_keys hstep with
  | kept hkeys => rwa [hkeys]
  | marked w pair hop hnone hkeys => exact hkeys ▸ encoded_put_marker h pair _
  | recorded pair entry hop hkeys =>
      cases Workers.step_cases hstep with
      | @storeRecord w other response ttl fate holder run hphase hrun =>
          subst hrun
          exact encoded_storeRecord h fate s.now other response ttl
      | _ => cases hop
  | released pair hop hkeys => exact hkeys ▸ encoded_remove h _
  | dropped pair hop hkeys => exact hkeys ▸ encoded_remove h _

end

/-! ## One check -/

section

variable {J : Type} {sha256 : String → HexDigest} {orjson : Orjson J}

/-- Text that was encoded decodes, and is not empty. -/
theorem find_encoded {keys : Keyspace} (h : Encoded sha256 orjson keys) {now : Nat} {pair : Pair}
    {cached : String} (hfind : keys.find now (buildKey sha256 pair) = some cached) :
    cached ≠ "" ∧ ∃ response, orjson.loads cached = some response := by
  obtain ⟨entry, hentry, -, rfl⟩ := Store.find_eq_some hfind
  obtain ⟨stored, hdumps⟩ := h pair entry hentry
  obtain ⟨response, hloads, -⟩ := orjson.loads_dumps stored entry.value hdumps
  refine ⟨fun hempty => ?_, response, hloads⟩
  rw [hempty, orjson.loads_empty] at hloads
  cases hloads

theorem checkLua_found {keys : Keyspace} {now : Nat} {pair : Pair} {cached : String} {response : J}
    (hfind : keys.find now (buildKey sha256 pair) = some cached) (hne : cached ≠ "")
    (hloads : orjson.loads cached = some response) :
    checkLua sha256 orjson .answered now pair keys =
      (.returns ⟨.duplicate, some response⟩, keys) := by
  rw [checkLua_answered, hfind]
  simp only [afterLua, if_neg hne, hloads]

theorem checkLua_missed {keys : Keyspace} {now : Nat} {pair : Pair}
    (hfind : keys.find now (buildKey sha256 pair) = none) :
    checkLua sha256 orjson .answered now pair keys =
      if (keys.find now (buildInProgressKey sha256 pair)).isSome then
        (.returns ⟨.inProgress, none⟩, keys)
      else
        (.returns ⟨.new, none⟩, keys.put (buildInProgressKey sha256 pair) (markerEntry now)) := by
  rw [checkLua_answered, hfind]

theorem check_nonAtomic (now : Nat) (pair : Pair) (keys : Keyspace) :
    check sha256 orjson .nonAtomic now pair keys = checkNonAtomic sha256 orjson now pair keys :=
  rfl

theorem check_recorded {keys : Keyspace} {now : Nat} {pair : Pair} {cached : String} {response : J}
    (hfind : keys.find now (buildKey sha256 pair) = some cached) (hne : cached ≠ "")
    (hloads : orjson.loads cached = some response) (path : CheckPath) :
    check sha256 orjson path now pair keys = (.returns ⟨.duplicate, some response⟩, keys) := by
  cases path with
  | script => simp only [check, CheckPath.fate, checkLua_found hfind hne hloads]
  | nonAtomic =>
      rw [check_nonAtomic, checkNonAtomic, checkRead_decoded sha256 orjson hfind hloads]

theorem check_unrecorded {keys : Keyspace} {now : Nat} {pair : Pair}
    (hfind : keys.find now (buildKey sha256 pair) = none) (path : CheckPath) :
    check sha256 orjson path now pair keys =
      if (keys.find now (buildInProgressKey sha256 pair)).isSome then
        (.returns ⟨.inProgress, none⟩, keys)
      else
        (.returns ⟨.new, none⟩, keys.put (buildInProgressKey sha256 pair) (markerEntry now)) := by
  cases path with
  | script =>
      simp only [check, CheckPath.fate, checkLua_missed hfind]
      split_ifs <;> rfl
  | nonAtomic =>
      have hmissed : checkRead sha256 orjson .answered now pair keys = (.acquire, keys) :=
        checkRead_missed sha256 orjson (by simp)
          (.inr fun cached hcached => by simp [hfind] at hcached)
      rw [check_nonAtomic, checkNonAtomic, hmissed]
      simp only [checkAcquire, acquireMarker_answered]
      split_ifs <;> rfl

/-- The two paths end alike and leave the same keys. -/
theorem check_agrees {keys : Keyspace} (h : Encoded sha256 orjson keys) (now : Nat) (pair : Pair) :
    ∃ result keys', ∀ path, check sha256 orjson path now pair keys = (.returns result, keys') := by
  cases hfind : keys.find now (buildKey sha256 pair) with
  | some cached =>
      obtain ⟨hne, response, hloads⟩ := find_encoded h hfind
      exact ⟨_, _, check_recorded hfind hne hloads⟩
  | none =>
      cases hmarker : (keys.find now (buildInProgressKey sha256 pair)).isSome with
      | true =>
          refine ⟨⟨.inProgress, none⟩, keys, fun path => ?_⟩
          rw [check_unrecorded hfind, if_pos hmarker]
      | false =>
          refine ⟨⟨.new, none⟩, keys.put (buildInProgressKey sha256 pair) (markerEntry now),
            fun path => ?_⟩
          rw [check_unrecorded hfind, if_neg (by simp [hmarker])]

/-! ## Programs -/

theorem check_encoded {keys : Keyspace} (h : Encoded sha256 orjson keys) (path : CheckPath)
    (now : Nat) (pair : Pair) :
    Encoded sha256 orjson (check sha256 orjson path now pair keys).2 := by
  cases hfind : keys.find now (buildKey sha256 pair) with
  | some cached =>
      obtain ⟨hne, response, hloads⟩ := find_encoded h hfind
      rwa [check_recorded hfind hne hloads]
  | none =>
      rw [check_unrecorded hfind]
      split_ifs
      · exact h
      · exact encoded_put_marker h pair _

theorem perform_encoded {s : Server} (h : Encoded sha256 orjson s.keys) (path : CheckPath)
    (call : Call J) : Encoded sha256 orjson (perform sha256 orjson path s call).2.keys := by
  cases call with
  | advance ms => exact h
  | check pair => exact check_encoded h path s.now pair
  | store pair response ttl =>
      exact encoded_remove (encoded_storeRecord h .answered s.now pair response ttl) _
  | clearInProgress pair => exact encoded_remove h _
  | invalidate pair => exact encoded_remove (encoded_remove h _) _

theorem perform_agrees {s : Server} (h : Encoded sha256 orjson s.keys) (call : Call J) :
    perform sha256 orjson .script s call = perform sha256 orjson .nonAtomic s call := by
  cases call with
  | check pair =>
      obtain ⟨result, keys', hcheck⟩ := check_agrees h s.now pair
      simp only [perform, hcheck]
  | _ => rfl

theorem observe_agrees {s : Server} (h : Encoded sha256 orjson s.keys) (program : List (Call J)) :
    observe sha256 orjson .script s program = observe sha256 orjson .nonAtomic s program := by
  induction program generalizing s with
  | nil => rfl
  | cons call program ih =>
      have hrest := ih (perform_encoded h .nonAtomic call)
      simp only [observe, perform_agrees h call, hrest]

end

/-! ## Programs as runs of workers -/

section

variable {ω J : Type} [DecidableEq ω] {sha256 : String → HexDigest} {orjson : Orjson J}

def serverOf (s : Workers.State ω) : Server := ⟨s.now, s.keys⟩

def Fresh (s : Workers.State ω) (w : ω) : Prop := ∀ pair, s.phase w pair = .idle

def shown (labels : List (Op ω J × Option (IdempotencyResult J))) :
    List (IdempotencyResult J) :=
  labels.filterMap Prod.snd

/-- The steps of one call of a worker: what they show and the server they leave. -/
def CallRun (sha256 : String → HexDigest) (orjson : Orjson J) (s : Workers.State ω) (w : ω)
    (ends : Option (Next J) × Server) : Prop :=
  ∃ labels t, Run (Workers.Step sha256 orjson) s labels t ∧
    (∀ label ∈ labels, ∀ v other, label.1.caller = some (v, other) → v = w) ∧
    (shown labels).map .returns = ends.1.toList ∧ serverOf t = ends.2

theorem run_fresh {s t : Workers.State ω}
    {labels : List (Op ω J × Option (IdempotencyResult J))} {w v : ω}
    (hrun : Run (Workers.Step sha256 orjson) s labels t)
    (hcaller : ∀ label ∈ labels, ∀ v other, label.1.caller = some (v, other) → v = w)
    (hne : v ≠ w) (hfresh : Fresh s v) : Fresh t v := by
  have hkept : ∀ (u : Workers.State ω) label u',
      (∀ v other, label.1.caller = some (v, other) → v = w) → Fresh u v →
        Workers.Step sha256 orjson u label u' → Fresh u' v := by
    intro u label u' hallowed hfresh hstep pair
    rw [Workers.step_phase_of_ne hstep fun hcaller => hne (hallowed v pair hcaller)]
    exact hfresh pair
  exact hrun.invariant_of_forall hkept hcaller hfresh

theorem checkLua_encoded {keys : Keyspace} (h : Encoded sha256 orjson keys) (now : Nat)
    (pair : Pair) :
    ∃ result keys', checkLua sha256 orjson .answered now pair keys = (.returns result, keys') := by
  cases hfind : keys.find now (buildKey sha256 pair) with
  | some cached =>
      obtain ⟨hne, response, hloads⟩ := find_encoded h hfind
      exact ⟨_, _, checkLua_found hfind hne hloads⟩
  | none =>
      rw [checkLua_missed hfind]
      split_ifs
      · exact ⟨_, _, rfl⟩
      · exact ⟨_, _, rfl⟩

theorem callRun_script {s : Workers.State ω} (h : Encoded sha256 orjson s.keys) {w : ω}
    {pair : Pair} (hidle : s.phase w pair = .idle) :
    CallRun sha256 orjson s w (perform sha256 orjson .script (serverOf s) (.check pair)) := by
  obtain ⟨result, keys', hlua⟩ := checkLua_encoded h s.now pair
  have hcheck : check sha256 orjson .script s.now pair s.keys = (.returns result, keys') := by
    simp only [check, CheckPath.fate, hlua]
  refine ⟨[(.lua w pair .answered, some result)], _,
    .single (Workers.step_of_transition (.lua hidle hlua.symm)), ?_, ?_, ?_⟩
  · simp [Workers.Op.caller]
  · simp [perform, serverOf, hcheck, shown]
  · simp [perform, serverOf, hcheck, Workers.checkStep, Workers.State.setPhase,
      Workers.State.setKeys]

theorem callRun_nonAtomic {s : Workers.State ω} (h : Encoded sha256 orjson s.keys) {w : ω}
    {pair : Pair} (hidle : s.phase w pair = .idle) :
    CallRun sha256 orjson s w (perform sha256 orjson .nonAtomic (serverOf s) (.check pair)) := by
  let u := (Workers.checkStep s w pair ((.ping : Next J), s.keys)).1
  let v := (Workers.checkStep u w pair ((.read : Next J), u.keys)).1
  have hlua : Workers.Step sha256 orjson s (.lua w pair .failed, none) u :=
    Workers.step_of_transition (.lua hidle rfl)
  have hping : Workers.Step sha256 orjson u (.ping w pair true, none) v :=
    Workers.step_of_transition (.ping (Workers.State.setPhase_self _ _ _ _))
  have hreading : v.phase w pair = .reading := Workers.State.setPhase_self _ _ _ _
  cases hfind : s.keys.find s.now (buildKey sha256 pair) with
  | some cached =>
      obtain ⟨hne, response, hloads⟩ := find_encoded h hfind
      have hread := Workers.step_of_transition (.read hreading
        (checkRead_decoded sha256 orjson hfind hloads).symm)
      refine ⟨_, _, .tail (.tail (.single hlua) hping) hread, ?_, ?_, ?_⟩
      · simp [Workers.Op.caller]
      · simp [perform, serverOf, check_recorded hfind hne hloads, shown, Workers.resultOf]
      · simp only [perform, serverOf, check_recorded hfind hne hloads]
        rfl
  | none =>
      have hmissed : checkRead sha256 orjson .answered s.now pair s.keys = (.acquire, s.keys) :=
        checkRead_missed sha256 orjson (by simp)
          (.inr fun cached hcached => by simp [hfind] at hcached)
      obtain ⟨result, keys', hcheck⟩ := check_agrees h s.now pair
      have hacquired := hcheck .nonAtomic
      rw [check_nonAtomic, checkNonAtomic, hmissed] at hacquired
      let x := (Workers.checkStep v w pair ((.acquire : Next J), v.keys)).1
      let y := (Workers.checkStep x w pair ((.returns result : Next J), keys')).1
      have hacquiring : x.phase w pair = .acquiring := Workers.State.setPhase_self _ _ _ _
      have hread : Workers.Step sha256 orjson v (.read w pair .answered, none) x :=
        Workers.step_of_transition (.read hreading hmissed.symm)
      have hacquire : Workers.Step sha256 orjson x (.acquire w pair .answered, some result) y :=
        Workers.step_of_transition (.acquire hacquiring hacquired.symm)
      refine ⟨_, y, .tail (.tail (.tail (.single hlua) hping) hread) hacquire, ?_, ?_, ?_⟩
      · simp [Workers.Op.caller]
      · simp [perform, serverOf, hcheck, shown]
      · simp only [perform, serverOf, hcheck]
        rfl

theorem callRun {s : Workers.State ω} (h : Encoded sha256 orjson s.keys) {w : ω}
    (hfresh : Fresh s w) (path : CheckPath) (call : Call J) :
    CallRun sha256 orjson s w (perform sha256 orjson path (serverOf s) call) := by
  cases call with
  | advance ms =>
      exact ⟨_, _, .single (Workers.step_of_transition (.advance ms)),
        by simp [Workers.Op.caller], rfl, rfl⟩
  | check pair =>
      cases path with
      | script => exact callRun_script h (hfresh pair)
      | nonAtomic => exact callRun_nonAtomic h (hfresh pair)
  | store pair response ttl =>
      have hstored : (storeRecord sha256 orjson .answered s.now pair response ttl s.keys).1 =
          .ok () := storeRecord_ok sha256 orjson (by simp)
      have hcallable : Workers.callable (s.phase w pair) = some none := by rw [hfresh pair]; rfl
      let run := storeRecord sha256 orjson .answered s.now pair response ttl s.keys
      let u := (Workers.callStep (J := J) s w pair .idle (.storing none) run).1
      have hstore : Workers.Step sha256 orjson s (.storeRecord w pair response ttl .answered, none)
          u := Workers.step_of_transition (.storeRecord hcallable rfl)
      have hphase : u.phase w pair = .storing none := by
        simp only [u, Workers.callStep, Workers.State.setPhase_self]
        simp only [run, hstored]
      exact ⟨[_, (.storeRelease w pair .answered, none)], _,
        .tail (.single hstore) (Workers.step_of_transition (.storeRelease hphase rfl)),
        by simp [Workers.Op.caller], rfl, rfl⟩
  | clearInProgress pair =>
      have hcallable : Workers.callable (s.phase w pair) = some none := by rw [hfresh pair]; rfl
      exact ⟨[(.clearInProgress w pair .answered, none)], _,
        .single (Workers.step_of_transition (.clearInProgress hcallable rfl)),
        by simp [Workers.Op.caller], rfl, rfl⟩
  | invalidate pair =>
      let u := (Workers.callStep (J := J) s w pair .idle .invalidating
        (dropRecord sha256 .answered s.now pair s.keys)).1
      have hdrop : Workers.Step sha256 orjson s (.invalidateRecord w pair .answered, none) u :=
        Workers.step_of_transition (.invalidateRecord (hfresh pair) rfl)
      have hphase : u.phase w pair = .invalidating := Workers.State.setPhase_self _ _ _ _
      exact ⟨[_, (.invalidateMarker w pair .answered, none)], _,
        .tail (.single hdrop) (Workers.step_of_transition (.invalidateMarker hphase rfl)),
        by simp [Workers.Op.caller], rfl, rfl⟩

/-- A program is a run in which each call is made by a worker of its own. -/
theorem observe_run {s : Workers.State ω} (h : Encoded sha256 orjson s.keys) (path : CheckPath)
    (program : List (Call J)) {callers : List ω} (hlength : callers.length = program.length)
    (hnodup : callers.Nodup) (hfresh : ∀ w ∈ callers, Fresh s w) :
    ∃ labels t, Run (Workers.Step sha256 orjson) s labels t ∧
      (shown labels).map .returns = (observe sha256 orjson path (serverOf s) program).1 ∧
      serverOf t = (observe sha256 orjson path (serverOf s) program).2 := by
  induction program generalizing s callers with
  | nil => exact ⟨[], s, .refl s, rfl, rfl⟩
  | cons call program ih =>
      cases callers with
      | nil => cases hlength
      | cons w callers =>
          obtain ⟨hw, hnodup⟩ := List.nodup_cons.mp hnodup
          obtain ⟨labels, u, hrun, hcaller, hshown, hserver⟩ :=
            callRun h (hfresh w List.mem_cons_self) path call
          have hencoded : Encoded sha256 orjson u.keys :=
            hrun.invariant (fun _ _ _ hs hstep => step_encoded hstep hs) h
          have hothers : ∀ v ∈ callers, Fresh u v := fun v hv =>
            run_fresh hrun hcaller (fun hsame => hw (hsame ▸ hv))
              (hfresh v (List.mem_cons_of_mem w hv))
          obtain ⟨rest, t, hrest, hshown', hserver'⟩ :=
            ih hencoded (Nat.succ.inj hlength) hnodup hothers
          refine ⟨labels ++ rest, t, hrun.trans hrest, ?_, ?_⟩
          · rw [shown, List.filterMap_append, List.map_append]
            rw [show (labels.filterMap Prod.snd).map Next.returns = _ from hshown,
              show (rest.filterMap Prod.snd).map Next.returns = _ from hshown', hserver]
            rfl
          · rw [hserver', hserver]
            rfl

end

/-! ## The in-memory fallback -/

/-- The value and the expiry of a live key. -/
def liveOnRedis (now : Nat) (keys : Keyspace) (key : String) : Option CacheEntry :=
  match keys key with
  | none => none
  | some entry =>
      if entry.live now then some (entry.value, entry.expiry.map Int.ofNat) else none

/-- The two stores agree on every live key. -/
def SameLive (now : Nat) (keys : Keyspace) (c : InMemoryCache) : Prop :=
  ∀ key, c.liveEntry now key = liveOnRedis now keys key

theorem find_eq_live (now : Nat) (keys : Keyspace) (key : String) :
    keys.find now key = (liveOnRedis now keys key).map Prod.fst := by
  unfold Store.find liveOnRedis
  cases keys key with
  | none => rfl
  | some entry =>
      dsimp only
      split_ifs <;> rfl

theorem liveOnRedis_put (now : Nat) (keys : Keyspace) (key other : String) :
    liveOnRedis now (keys.put key (markerEntry now)) other =
      if other = key then some ("1", some ((now + inProgressMs : Nat) : Int))
      else liveOnRedis now keys other := by
  have hlive : (markerEntry now).live now = true :=
    (Entry.live_iff rfl _).mpr (Nat.le_add_right _ _)
  unfold liveOnRedis
  split_ifs with hsame
  · subst hsame
    rw [Store.put_self]
    simp only [hlive, if_true]
    rfl
  · rw [Store.put_of_ne hsame]

section

variable {J : Type} {sha256 : String → HexDigest} {orjson : Orjson J}

/-- The check of the fallback ends as the script does on the same live keys, and
leaves the same live keys. -/
theorem checkInMemory_agrees {keys : Keyspace} (h : Encoded sha256 orjson keys) {now : Nat}
    {c : InMemoryCache} (hlive : SameLive now keys c) (pair : Pair) :
    ∃ result keys' c', check sha256 orjson .script now pair keys = (.returns result, keys') ∧
      checkInMemory sha256 orjson now pair c = (.returns result, c') ∧ SameLive now keys' c' := by
  let c₁ := (c.get now (buildKey sha256 pair)).2
  have hlive₁ : SameLive now keys c₁ := fun key => by rw [InMemoryCache.liveEntry_get, hlive]
  have hget : (c.get now (buildKey sha256 pair)).1 = keys.find now (buildKey sha256 pair) := by
    rw [InMemoryCache.get_eq_liveEntry, hlive, find_eq_live]
  have hmarker := find_eq_live now keys (buildInProgressKey sha256 pair)
  rw [← hlive₁] at hmarker
  cases hfind : keys.find now (buildKey sha256 pair) with
  | some cached =>
      obtain ⟨hne, response, hloads⟩ := find_encoded h hfind
      refine ⟨_, keys, c₁, check_recorded hfind hne hloads .script, ?_, hlive₁⟩
      simp only [checkInMemory, readMemory, hget, hfind, hloads]
      rfl
  | none =>
      have hread : readMemory sha256 orjson now pair c = (.acquire, c₁) := by
        simp only [readMemory, hget, hfind]
        rfl
      have hexpiry := c₁.liveExpiry_eq_liveEntry now (buildInProgressKey sha256 pair)
      cases hentry : c₁.liveEntry now (buildInProgressKey sha256 pair) with
      | some entry =>
          rw [hentry] at hmarker hexpiry
          refine ⟨⟨.inProgress, none⟩, keys, c₁, ?_, ?_, hlive₁⟩
          · rw [check_unrecorded hfind, hmarker]
            rfl
          · rw [checkInMemory, hread]
            exact acquireMemory_of_live sha256 hexpiry
      | none =>
          rw [hentry] at hmarker hexpiry
          refine ⟨⟨.new, none⟩, keys.put (buildInProgressKey sha256 pair) (markerEntry now),
            c₁.assign now (buildInProgressKey sha256 pair) "1" (some inProgressTtl), ?_, ?_,
            fun key => ?_⟩
          · rw [check_unrecorded hfind, hmarker]
            rfl
          · rw [checkInMemory, hread]
            exact acquireMemory_of_not_live sha256 hexpiry
          · rw [liveEntry_assign_marker, liveOnRedis_put, hlive₁]

end

/-! ## Main result -/

/-- On every key space that a run of workers reaches from one without records: a
check ends alike on both paths and leaves the same keys, the fallback ends alike and
leaves the same live keys where it holds the same live keys, and a sequential
program observes the same on both paths. -/
theorem fallback_check_agrees {ω J : Type} [DecidableEq ω] {sha256 : String → HexDigest}
    {orjson : Orjson J} {s t : Workers.State ω}
    {labels : List (Op ω J × Option (IdempotencyResult J))}
    (hinit : ∀ pair, s.keys (buildKey sha256 pair) = none)
    (hrun : Run (Workers.Step sha256 orjson) s labels t) :
    (∀ now pair, ∃ result keys',
      check sha256 orjson .script now pair t.keys = (.returns result, keys') ∧
      check sha256 orjson .nonAtomic now pair t.keys = (.returns result, keys') ∧
      ∀ c, SameLive now t.keys c → ∃ c',
        checkInMemory sha256 orjson now pair c = (.returns result, c') ∧ SameLive now keys' c') ∧
    ∀ now program,
      observe sha256 orjson .script ⟨now, t.keys⟩ program =
        observe sha256 orjson .nonAtomic ⟨now, t.keys⟩ program := by
  have hencoded : Encoded sha256 orjson t.keys := by
    refine hrun.invariant (fun _ _ _ hs hstep => step_encoded hstep hs) ?_
    intro pair entry hentry
    rw [hinit pair] at hentry
    cases hentry
  refine ⟨fun now pair => ?_, fun now program => ?_⟩
  · obtain ⟨result, keys', hcheck⟩ := check_agrees hencoded now pair
    refine ⟨result, keys', hcheck .script, hcheck .nonAtomic, fun c hlive => ?_⟩
    obtain ⟨result', keys'', c', hscript, hmemory, hlive'⟩ :=
      checkInMemory_agrees hencoded hlive pair
    rw [hcheck .script] at hscript
    obtain ⟨hresult, rfl⟩ := Prod.mk.inj hscript
    exact ⟨c', hresult ▸ hmemory, hlive'⟩
  · exact observe_agrees (s := ⟨now, t.keys⟩) hencoded program

/-- A worker takes the operation and crashes; the next check meets its marker, the
one after 301 seconds does not. -/
theorem fallback_check_agrees_after_crash :
    ∃ t : Workers.State Nat,
      Run (Workers.Step evtDigest boolJson) Workers.start
        [(.lua 0 evtPair .answered, some ⟨.new, none⟩)] t ∧
      (observe evtDigest boolJson .script ⟨0, t.keys⟩
        [.check evtPair, .advance 301000, .check evtPair]).1 =
          [.returns ⟨.inProgress, none⟩, .returns ⟨.new, none⟩] ∧
      observe evtDigest boolJson .script ⟨0, t.keys⟩
          [.check evtPair, .advance 301000, .check evtPair] =
        observe evtDigest boolJson .nonAtomic ⟨0, t.keys⟩
          [.check evtPair, .advance 301000, .check evtPair] := by
  have htake : Workers.Step evtDigest boolJson Workers.start
      (.lua 0 evtPair .answered, some ⟨.new, none⟩)
      (Workers.next evtDigest boolJson Workers.start (.lua 0 evtPair .answered)) :=
    reaction_afterEvent (by decide)
  exact ⟨_, .single htake, by decide,
    (fallback_check_agrees (fun _ => rfl) (.single htake)).2 0 _⟩

end BackendProdReady.Idempotency.PathAgreement
