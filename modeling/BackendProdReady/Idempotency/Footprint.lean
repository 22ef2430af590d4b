import Mathlib.Data.List.Perm.Subperm
import BackendProdReady.Idempotency.FallbackWorkers

/-!
# The keys a call touches

The commands of a call touch the record and the marker of its pair and nothing
else, on Redis and on the in-memory fallback, and their answers depend on nothing
else.  So a call can be taken in any state alike on these keys (`step_agree`,
`serve_agree`), and leaves all others alone (`step_frame`, `serve_frame`).
-/

namespace BackendProdReady.Idempotency.Footprint

open BackendProdReady.Lib.ExpiringStore
open BackendProdReady.Lib.InsertionDict
open BackendProdReady.Cache
open BackendProdReady.Cache.Operations (Keyspace Command Fate BreakerError)
open BackendProdReady.Cache.InMemory
open BackendProdReady.Idempotency.Keys
open BackendProdReady.Idempotency.Service
open BackendProdReady.Idempotency.FallbackWorkers

def footprint (sha256 : String → HexDigest) (pair : Pair) : List String :=
  [buildKey sha256 pair, buildInProgressKey sha256 pair]

/-! ## Commands on a footprint -/

section Commands

def AgreeOn (on : List String) (keys keys' : Keyspace) : Prop :=
  ∀ key ∈ on, keys' key = keys key

variable {on : List String} {keys keys' : Keyspace}

theorem AgreeOn.find (h : AgreeOn on keys keys') {key : String} (hkey : key ∈ on) (now : Nat) :
    keys'.find now key = keys.find now key :=
  Store.find_congr (h key hkey) now

theorem AgreeOn.put (h : AgreeOn on keys keys') (key : String) (entry : Entry String) :
    AgreeOn on (keys.put key entry) (keys'.put key entry) := by
  intro other hother
  by_cases hsame : other = key
  · rw [hsame, Store.put_self, Store.put_self]
  · rw [Store.put_of_ne hsame, Store.put_of_ne hsame, h other hother]

theorem AgreeOn.remove (h : AgreeOn on keys keys') (key : String) :
    AgreeOn on (keys.remove key) (keys'.remove key) := by
  intro other hother
  by_cases hsame : other = key
  · rw [hsame, Store.remove_self, Store.remove_self]
  · rw [Store.remove_of_ne hsame, Store.remove_of_ne hsame, h other hother]

/-- The same answer, and key spaces that agree. -/
def SameRun {α : Type} (on : List String) (run run' : α × Keyspace) : Prop :=
  run'.1 = run.1 ∧ AgreeOn on run.2 run'.2

/-- Both commands are refused, or both answer alike. -/
def SameReply {α : Type} (on : List String) (reply reply' : Option (α × Keyspace)) : Prop :=
  Option.Rel (SameRun on) reply reply'

theorem executeRedisOperation_agree {α : Type} (operation : Command α)
    (h : AgreeOn on keys keys') (hreply : SameReply on (operation keys) (operation keys'))
    (fate : Fate) (defaultReturn : α) :
    SameRun on (Operations.executeRedisOperation fate operation defaultReturn keys)
      (Operations.executeRedisOperation fate operation defaultReturn keys') := by
  unfold Operations.executeRedisOperation
  generalize operation keys = reply at hreply
  generalize operation keys' = reply' at hreply
  cases hreply with
  | none => cases fate <;> exact ⟨rfl, h⟩
  | @some run run' hsame =>
      cases fate with
      | answered => exact ⟨congrArg Except.ok hsame.1, hsame.2⟩
      | failed => exact ⟨rfl, h⟩
      | replyLost => exact ⟨rfl, hsame.2⟩
      | rejected => exact ⟨rfl, h⟩

theorem executeLuaScript_agree {α : Type} (script : Command α) (h : AgreeOn on keys keys')
    (hreply : SameReply on (script keys) (script keys')) (fate : Fate) :
    SameRun on (Operations.executeLuaScript fate script keys)
      (Operations.executeLuaScript fate script keys') := by
  refine executeRedisOperation_agree _ h ?_ fate none
  generalize script keys = reply at hreply
  generalize script keys' = reply' at hreply
  cases hreply with
  | none => exact .none
  | some hsame => exact .some ⟨congrArg some hsame.1, hsame.2⟩

theorem setNxCommand_agree (h : AgreeOn on keys keys') {key : String} (hkey : key ∈ on)
    (now : Nat) :
    SameReply on (Operations.setNxCommand now key "1" (some inProgressTtl) keys)
      (Operations.setNxCommand now key "1" (some inProgressTtl) keys') := by
  rw [setNxCommand_marker, setNxCommand_marker, h.find hkey]
  split_ifs
  · exact .some ⟨rfl, h⟩
  · exact .some ⟨rfl, h.put key _⟩

variable {J : Type} {sha256 : String → HexDigest} {orjson : Orjson J} {pair : Pair}

theorem checkScript_agree (h : AgreeOn on keys keys') (hrecord : buildKey sha256 pair ∈ on)
    (hmarker : buildInProgressKey sha256 pair ∈ on) (now : Nat) :
    SameReply on (checkScript sha256 now pair keys) (checkScript sha256 now pair keys') := by
  rw [checkScript_eq, checkScript_eq, h.find hrecord, h.find hmarker]
  split
  · exact .some ⟨rfl, h⟩
  · split_ifs
    · exact .some ⟨rfl, h⟩
    · exact .some ⟨rfl, h.put _ _⟩

variable (orjson) in
theorem checkLua_agree (h : AgreeOn on keys keys') (hrecord : buildKey sha256 pair ∈ on)
    (hmarker : buildInProgressKey sha256 pair ∈ on) (fate : Fate) (now : Nat) :
    SameRun on (checkLua sha256 orjson fate now pair keys)
      (checkLua sha256 orjson fate now pair keys') := by
  obtain ⟨hanswer, hkeys⟩ := executeLuaScript_agree _ h
    (checkScript_agree h hrecord hmarker now) fate
  unfold checkLua
  dsimp only
  rw [hanswer]
  split <;> exact ⟨rfl, hkeys⟩

variable (orjson) in
theorem checkRead_agree (h : AgreeOn on keys keys') (hrecord : buildKey sha256 pair ∈ on)
    (fate : Fate) (now : Nat) :
    SameRun on (checkRead sha256 orjson fate now pair keys)
      (checkRead sha256 orjson fate now pair keys') := by
  have hreply : SameReply on (Operations.getCommand now (buildKey sha256 pair) keys)
      (Operations.getCommand now (buildKey sha256 pair) keys') :=
    .some ⟨h.find hrecord now, h⟩
  obtain ⟨hanswer, hkeys⟩ := executeRedisOperation_agree _ h hreply fate none
  unfold checkRead Operations.get
  dsimp only
  rw [hanswer]
  split
  · exact ⟨rfl, hkeys⟩
  · exact ⟨rfl, hkeys⟩
  · split <;> exact ⟨rfl, hkeys⟩

theorem checkAcquire_agree (h : AgreeOn on keys keys')
    (hmarker : buildInProgressKey sha256 pair ∈ on) (fate : Fate) (now : Nat) :
    SameRun on (checkAcquire (J := J) sha256 fate now pair keys)
      (checkAcquire (J := J) sha256 fate now pair keys') := by
  obtain ⟨hanswer, hkeys⟩ := executeRedisOperation_agree _ h
    (setNxCommand_agree h hmarker now) fate false
  unfold checkAcquire acquireMarker Operations.setnx
  dsimp only
  rw [hanswer]
  split <;> exact ⟨rfl, hkeys⟩

variable (sha256 orjson pair) in
theorem storeRecord_agree (h : AgreeOn on keys keys') (fate : Fate) (now : Nat) (response : J)
    (ttl : Option Int) :
    SameRun on (storeRecord sha256 orjson fate now pair response ttl keys)
      (storeRecord sha256 orjson fate now pair response ttl keys') := by
  unfold storeRecord Operations.set
  cases orjson.dumps response with
  | none => exact ⟨rfl, h⟩
  | some serialized =>
      let write : Command Bool := fun keys =>
        (Operations.setCommand now (buildKey sha256 pair) serialized
          ((some (effectiveTtl ttl)).filter (· ≠ 0)) keys).map fun r => (true, r.2)
      have hreply : SameReply on (write keys) (write keys') := by
        dsimp only [write]
        rw [setCommand_record, setCommand_record]
        split_ifs
        · exact .some ⟨rfl, h.put _ _⟩
        · exact .none
      obtain ⟨hanswer, hkeys⟩ := executeRedisOperation_agree write h hreply fate false
      exact ⟨congrArg (Except.map fun _ => ()) hanswer, hkeys⟩

theorem delete_agree (h : AgreeOn on keys keys') {key : String} (hkey : key ∈ on) (fate : Fate)
    (now : Nat) :
    SameRun on (Operations.delete fate now key keys) (Operations.delete fate now key keys') := by
  have hreply : SameReply on (Operations.delCommand now key keys)
      (Operations.delCommand now key keys') :=
    .some ⟨congrArg Option.isSome (h.find hkey now), h.remove key⟩
  exact executeRedisOperation_agree _ h hreply fate false

theorem releaseMarker_agree (h : AgreeOn on keys keys')
    (hmarker : buildInProgressKey sha256 pair ∈ on) (fate : Fate) (now : Nat) :
    SameRun on (releaseMarker sha256 fate now pair keys)
      (releaseMarker sha256 fate now pair keys') := by
  obtain ⟨hanswer, hkeys⟩ := delete_agree h hmarker fate now
  exact ⟨congrArg (Except.map fun _ => ()) hanswer, hkeys⟩

theorem dropRecord_agree (h : AgreeOn on keys keys') (hrecord : buildKey sha256 pair ∈ on)
    (fate : Fate) (now : Nat) :
    SameRun on (dropRecord sha256 fate now pair keys)
      (dropRecord sha256 fate now pair keys') := by
  obtain ⟨hanswer, hkeys⟩ := delete_agree h hrecord fate now
  exact ⟨congrArg (Except.map fun _ => ()) hanswer, hkeys⟩

end Commands

/-! ## Calls on the in-memory cache -/

def SameEntries (on : List String) (now : Nat) (c d : InMemoryCache) : Prop :=
  ∀ key ∈ on, d.liveEntry now key = c.liveEntry now key

/-- No other key is held, and there is room for these. -/
structure OnlyKeys (on : List String) (c : InMemoryCache) : Prop where
  nodup : (Dict.keys c.cache).Nodup
  subset : Dict.keys c.cache ⊆ on
  room : on.length < c.maxSize

namespace OnlyKeys

variable {on : List String} {c : InMemoryCache}

theorem init (hlength : on.length < InMemoryCache.init.maxSize) : OnlyKeys on .init :=
  ⟨List.nodup_nil, List.nil_subset _, hlength⟩

theorem evict (h : OnlyKeys on c) (now : Nat) : c.evict now = c := by
  refine InMemoryCache.evict_of_lt (Nat.lt_of_le_of_lt ?_ h.room) now
  have hlength : (Dict.keys c.cache).length ≤ on.length :=
    (h.nodup.subperm h.subset).length_le
  rwa [Dict.keys, List.length_map] at hlength

theorem assign (h : OnlyKeys on c) (now : Nat) {key : String} (hkey : key ∈ on) (value : String)
    (ttl : Option Int) : OnlyKeys on (c.assign now key value ttl) where
  nodup := Dict.nodup_keys_assign h.nodup _ _
  subset := by
    rw [InMemoryCache.assign, Dict.keys_assign]
    split_ifs
    · exact h.subset
    · exact List.append_subset.mpr ⟨h.subset, by simpa using hkey⟩
  room := h.room

theorem removeIf (h : OnlyKeys on c) (drop : String → Bool) :
    OnlyKeys on { c with cache := c.cache.removeIf drop } where
  nodup := h.nodup.sublist (Dict.keys_removeIf_sublist drop c.cache)
  subset := List.Subset.trans (Dict.keys_removeIf_sublist drop c.cache).subset h.subset
  room := h.room

theorem get (h : OnlyKeys on c) (now : Nat) (key : String) : OnlyKeys on (c.get now key).2 := by
  rcases c.get_cases now key with ⟨entry, -, hget⟩ | ⟨-, hget⟩
  · rw [hget]
    exact h
  · rw [hget]
    exact h.removeIf _

end OnlyKeys

section

variable {on : List String} {now : Nat} {c d : InMemoryCache}

theorem SameEntries.get (h : SameEntries on now c d) (key : String) :
    SameEntries on now (c.get now key).2 (d.get now key).2 := by
  intro other hother
  rw [InMemoryCache.liveEntry_get, InMemoryCache.liveEntry_get, h other hother]

theorem SameEntries.assign (h : SameEntries on now c d) (key value : String) (ttl : Option Int) :
    SameEntries on now (c.assign now key value ttl) (d.assign now key value ttl) := by
  intro other hother
  rw [InMemoryCache.liveEntry_assign, InMemoryCache.liveEntry_assign, h other hother]

theorem SameEntries.delete (h : SameEntries on now c d) (key : String) :
    SameEntries on now (c.delete key).2 (d.delete key).2 := by
  intro other hother
  rw [InMemoryCache.liveEntry_delete, InMemoryCache.liveEntry_delete, h other hother]

theorem SameEntries.advance (h : SameEntries on now c d) {later : Nat} (hle : now ≤ later) :
    SameEntries on later c d := by
  intro key hkey
  rw [InMemoryCache.liveEntry_of_le hle, InMemoryCache.liveEntry_of_le hle, h key hkey]

variable {J : Type} {sha256 : String → HexDigest} {orjson : Orjson J} {pair : Pair}

variable (orjson) in
theorem readMemory_agree (h : SameEntries on now c d) (hrecord : buildKey sha256 pair ∈ on) :
    (readMemory sha256 orjson now pair d).1 = (readMemory sha256 orjson now pair c).1 ∧
      SameEntries on now (readMemory sha256 orjson now pair c).2
        (readMemory sha256 orjson now pair d).2 := by
  have hvalue : (d.get now (buildKey sha256 pair)).1 = (c.get now (buildKey sha256 pair)).1 := by
    rw [InMemoryCache.get_eq_liveEntry, InMemoryCache.get_eq_liveEntry, h _ hrecord]
  rw [readMemory_memory, readMemory_memory]
  refine ⟨?_, h.get _⟩
  unfold readMemory
  dsimp only
  rw [hvalue]
  split
  · rfl
  · split <;> rfl

theorem acquireMemory_agree (h : SameEntries on now c d)
    (hmarker : buildInProgressKey sha256 pair ∈ on) :
    (acquireMemory (J := J) sha256 now pair d).1 = (acquireMemory (J := J) sha256 now pair c).1 ∧
      SameEntries on now (acquireMemory (J := J) sha256 now pair c).2
        (acquireMemory (J := J) sha256 now pair d).2 := by
  have hexpiry : d.liveExpiry now (buildInProgressKey sha256 pair) =
      c.liveExpiry now (buildInProgressKey sha256 pair) := by
    rw [InMemoryCache.liveExpiry_eq_liveEntry, InMemoryCache.liveExpiry_eq_liveEntry,
      h _ hmarker]
  cases hlive : c.liveExpiry now (buildInProgressKey sha256 pair) with
  | some expiry =>
      rw [acquireMemory_of_live sha256 hlive, acquireMemory_of_live sha256 (hexpiry.trans hlive)]
      exact ⟨rfl, h⟩
  | none =>
      rw [acquireMemory_of_not_live sha256 hlive,
        acquireMemory_of_not_live sha256 (hexpiry.trans hlive)]
      exact ⟨rfl, h.assign _ _ _⟩

theorem acquireMemory_onlyKeys (h : OnlyKeys on d) (hmarker : buildInProgressKey sha256 pair ∈ on) :
    OnlyKeys on (acquireMemory (J := J) sha256 now pair d).2 := by
  cases hlive : d.liveExpiry now (buildInProgressKey sha256 pair) with
  | some expiry =>
      rw [acquireMemory_of_live sha256 hlive]
      exact h
  | none =>
      rw [acquireMemory_of_not_live sha256 hlive]
      exact h.assign now hmarker _ _

theorem storeMemory_agree (h : SameEntries on now c d) (honly : OnlyKeys on d)
    (hrecord : buildKey sha256 pair ∈ on) {response : J} (ttl : Option Int)
    (hkeeps : (orjson.dumps response).isSome → SameEntries on now c (c.evict now)) :
    SameEntries on now (storeMemory sha256 orjson now pair response ttl c)
        (storeMemory sha256 orjson now pair response ttl d) ∧
      OnlyKeys on (storeMemory sha256 orjson now pair response ttl d) := by
  unfold storeMemory
  cases hdumps : orjson.dumps response with
  | none => exact ⟨h, honly⟩
  | some serialized =>
      have hevicted : SameEntries on now (c.evict now) d := fun key hkey => by
        rw [h key hkey, hkeeps (by rw [hdumps]; rfl) key hkey]
      simp only [InMemoryCache.set, honly.evict now]
      exact ⟨hevicted.assign _ _ _, honly.assign now hrecord _ _⟩

/-- What a call does to the entries of its pair does not depend on any other. -/
theorem serve_agree {call : MemoryCall J} {phase phase' : Workers.Phase}
    {result : Option (IdempotencyResult J)} {c' : InMemoryCache}
    (hserve : call.serve sha256 orjson now pair phase c = some (phase', result, c'))
    (h : SameEntries on now c d) (honly : OnlyKeys on d)
    (hrecord : buildKey sha256 pair ∈ on) (hmarker : buildInProgressKey sha256 pair ∈ on)
    (hkeeps : ∀ response ttl, call = .storeRecord response ttl →
      (orjson.dumps response).isSome → SameEntries on now c (c.evict now)) :
    ∃ d', call.serve sha256 orjson now pair phase d = some (phase', result, d') ∧
      SameEntries on now c' d' ∧ OnlyKeys on d' := by
  have hdelete : ∀ key, SameEntries on now (c.delete key).2 (d.delete key).2 ∧
      OnlyKeys on (d.delete key).2 := fun key => ⟨h.delete key, honly.removeIf _⟩
  cases serve_cases hserve with
  | skipLua => exact ⟨d, serve_of_served .skipLua, h, honly⟩
  | read =>
      obtain ⟨hnext, hentries⟩ := readMemory_agree orjson h hrecord
      have honly' : OnlyKeys on (readMemory sha256 orjson now pair d).2 := by
        rw [readMemory_memory]
        exact honly.get now _
      rw [← hnext]
      exact ⟨_, serve_of_served .read, hentries, honly'⟩
  | acquire =>
      obtain ⟨hnext, hentries⟩ := acquireMemory_agree (J := J) h hmarker
      rw [← hnext]
      exact ⟨_, serve_of_served .acquire, hentries, acquireMemory_onlyKeys honly hmarker⟩
  | @storeRecord response ttl phase holder hphase =>
      exact ⟨_, serve_of_served (.storeRecord hphase),
        storeMemory_agree h honly hrecord ttl (hkeeps response ttl rfl)⟩
  | storeRelease => exact ⟨_, serve_of_served .storeRelease, hdelete _⟩
  | clearInProgress hphase => exact ⟨_, serve_of_served (.clearInProgress hphase), hdelete _⟩
  | invalidateRecord => exact ⟨_, serve_of_served .invalidateRecord, hdelete _⟩
  | invalidateMarker => exact ⟨_, serve_of_served .invalidateMarker, hdelete _⟩

/-- A call on another pair leaves the live entries of these keys alone. -/
theorem serve_frame {call : MemoryCall J} {phase phase' : Workers.Phase}
    {result : Option (IdempotencyResult J)} {c' : InMemoryCache}
    (hserve : call.serve sha256 orjson now pair phase c = some (phase', result, c'))
    (hrecord : buildKey sha256 pair ∉ on) (hmarker : buildInProgressKey sha256 pair ∉ on)
    (hkeeps : ∀ response ttl, call = .storeRecord response ttl →
      (orjson.dumps response).isSome → SameEntries on now c (c.evict now)) :
    SameEntries on now c c' := by
  have hassign : ∀ (c : InMemoryCache) key value ttl, key ∉ on →
      SameEntries on now c (c.assign now key value ttl) := by
    intro c key value ttl hkey other hother
    rw [InMemoryCache.liveEntry_assign, if_neg (ne_of_mem_of_not_mem hother hkey)]
  have hdelete : ∀ key, key ∉ on → SameEntries on now c (c.delete key).2 := by
    intro key hkey other hother
    rw [InMemoryCache.liveEntry_delete, if_neg (ne_of_mem_of_not_mem hother hkey)]
  cases serve_cases hserve with
  | skipLua => exact fun _ _ => rfl
  | read =>
      rw [readMemory_memory]
      exact fun key _ => InMemoryCache.liveEntry_get _ _ _ _
  | acquire =>
      cases hlive : c.liveExpiry now (buildInProgressKey sha256 pair) with
      | some expiry =>
          rw [acquireMemory_of_live sha256 hlive]
          exact fun _ _ => rfl
      | none =>
          rw [acquireMemory_of_not_live sha256 hlive]
          exact hassign c _ _ _ hmarker
  | @storeRecord response ttl phase holder hphase =>
      unfold storeMemory
      cases hdumps : orjson.dumps response with
      | none => exact fun _ _ => rfl
      | some serialized =>
          intro key hkey
          have hkept := hkeeps response ttl rfl (by rw [hdumps]; rfl) key hkey
          exact (hassign _ _ _ _ hrecord key hkey).trans hkept
  | storeRelease => exact hdelete _ hmarker
  | clearInProgress hphase => exact hdelete _ hmarker
  | invalidateRecord => exact hdelete _ hrecord
  | invalidateMarker => exact hdelete _ hmarker

end

/-! ## Steps on Redis -/

section

variable {ω J : Type} [DecidableEq ω] {sha256 : String → HexDigest} {orjson : Orjson J}
  {on : List String} {s t r : Workers.State ω} {op : Workers.Op ω J}
  {result : Option (IdempotencyResult J)} {w : ω} {pair : Pair}

structure Alike (on : List String) (w : ω) (pair : Pair) (s r : Workers.State ω) : Prop where
  now : r.now = s.now
  keys : AgreeOn on s.keys r.keys
  phase : r.phase w pair = s.phase w pair

theorem Alike.checkStep (h : Alike on w pair s r) {run run' : Next J × Keyspace}
    (hrun : SameRun on run run') :
    Workers.resultOf run'.1 = Workers.resultOf run.1 ∧
      Alike on w pair (Workers.checkStep s w pair run).1 (Workers.checkStep r w pair run').1 := by
  refine ⟨congrArg Workers.resultOf hrun.1, h.now, hrun.2, ?_⟩
  simp only [Workers.checkStep, Workers.State.setPhase_self, h.now, hrun.1]

theorem Alike.callStep (h : Alike on w pair s r) {before after : Workers.Phase}
    {run run' : Except BreakerError Unit × Keyspace} (hrun : SameRun on run run') :
    Alike on w pair (Workers.callStep (J := J) s w pair before after run).1
      (Workers.callStep (J := J) r w pair before after run').1 := by
  refine ⟨h.now, hrun.2, ?_⟩
  simp only [Workers.callStep, Workers.State.setPhase_self, hrun.1]

/-- A command of the pair can be taken in any alike state, with the same result. -/
theorem step_agree (hstep : Workers.Step sha256 orjson s (op, result) t)
    (hcaller : op.caller = some (w, pair)) (h : Alike on w pair s r)
    (hrecord : buildKey sha256 pair ∈ on) (hmarker : buildInProgressKey sha256 pair ∈ on) :
    ∃ u, Workers.Step sha256 orjson r (op, result) u ∧ Alike on w pair t u := by
  cases Workers.step_cases hstep with
  | advance ms => cases hcaller
  | @lua _ _ fate run hphase hrun =>
      cases hcaller
      have hrun' := checkLua_agree orjson h.keys hrecord hmarker fate s.now
      rw [← hrun, ← h.now] at hrun'
      obtain ⟨hresult, halike⟩ := h.checkStep hrun'
      rw [← hresult]
      exact ⟨_, Workers.step_of_transition (.lua (h.phase.trans hphase) rfl), halike⟩
  | @ping _ _ pong hphase =>
      cases hcaller
      have hrun' : SameRun on (checkPing (J := J) pong pair, s.keys)
          (checkPing (J := J) pong pair, r.keys) := ⟨rfl, h.keys⟩
      exact ⟨_, Workers.step_of_transition (.ping (h.phase.trans hphase)), (h.checkStep hrun').2⟩
  | @read _ _ fate run hphase hrun =>
      cases hcaller
      have hrun' := checkRead_agree orjson h.keys hrecord fate s.now
      rw [← hrun, ← h.now] at hrun'
      obtain ⟨hresult, halike⟩ := h.checkStep hrun'
      rw [← hresult]
      exact ⟨_, Workers.step_of_transition (.read (h.phase.trans hphase) rfl), halike⟩
  | @acquire _ _ fate run hphase hrun =>
      cases hcaller
      have hrun' := checkAcquire_agree (J := J) h.keys hmarker fate s.now
      rw [← hrun, ← h.now] at hrun'
      obtain ⟨hresult, halike⟩ := h.checkStep hrun'
      rw [← hresult]
      exact ⟨_, Workers.step_of_transition (.acquire (h.phase.trans hphase) rfl), halike⟩
  | @storeRecord _ _ response ttl fate holder run hphase hrun =>
      cases hcaller
      have hrun' := storeRecord_agree sha256 orjson pair h.keys fate s.now response ttl
      rw [← hrun, ← h.now] at hrun'
      exact ⟨_, Workers.step_of_transition (.storeRecord (h.phase ▸ hphase) rfl),
        h.callStep hrun'⟩
  | @storeRelease _ _ fate holder run hphase hrun =>
      cases hcaller
      have hrun' := releaseMarker_agree h.keys hmarker fate s.now
      rw [← hrun, ← h.now] at hrun'
      exact ⟨_, Workers.step_of_transition (.storeRelease (h.phase.trans hphase) rfl),
        h.callStep hrun'⟩
  | @clearInProgress _ _ fate holder run hphase hrun =>
      cases hcaller
      have hrun' := releaseMarker_agree h.keys hmarker fate s.now
      rw [← hrun, ← h.now] at hrun'
      exact ⟨_, Workers.step_of_transition (.clearInProgress (h.phase ▸ hphase) rfl),
        h.callStep hrun'⟩
  | @invalidateRecord _ _ fate run hphase hrun =>
      cases hcaller
      have hrun' := dropRecord_agree h.keys hrecord fate s.now
      rw [← hrun, ← h.now] at hrun'
      exact ⟨_, Workers.step_of_transition (.invalidateRecord (h.phase.trans hphase) rfl),
        h.callStep hrun'⟩
  | @invalidateMarker _ _ fate run hphase hrun =>
      cases hcaller
      have hrun' := releaseMarker_agree h.keys hmarker fate s.now
      rw [← hrun, ← h.now] at hrun'
      exact ⟨_, Workers.step_of_transition (.invalidateMarker (h.phase.trans hphase) rfl),
        h.callStep hrun'⟩

/-- A command of another pair leaves these keys alone. -/
theorem step_frame (hstep : Workers.Step sha256 orjson s (op, result) t)
    (hcaller : op.caller = some (w, pair)) (hrecord : buildKey sha256 pair ∉ on)
    (hmarker : buildInProgressKey sha256 pair ∉ on) : AgreeOn on s.keys t.keys := by
  have hown : ∀ {v : ω} {other : Pair}, op.caller = some (v, other) → other = pair := by
    intro v other hother
    rw [hcaller] at hother
    exact (Prod.mk.inj (Option.some.inj hother)).2.symm
  intro key hkey
  cases Workers.step_keys hstep with
  | kept hkeys => rw [hkeys]
  | marked v other hop hnone hkeys =>
      obtain rfl := hown (Workers.caller_of_checker hop)
      rw [hkeys, Store.put_of_ne (ne_of_mem_of_not_mem hkey hmarker)]
  | recorded other entry hop hkeys =>
      obtain ⟨v, hv⟩ := Workers.caller_of_recorded hop
      obtain rfl := hown hv
      rw [hkeys, Store.put_of_ne (ne_of_mem_of_not_mem hkey hrecord)]
  | released other hop hkeys =>
      obtain ⟨v, hv⟩ := Workers.caller_of_released hop
      obtain rfl := hown hv
      rw [hkeys, Store.remove_of_ne (ne_of_mem_of_not_mem hkey hmarker)]
  | dropped other hop hkeys =>
      obtain ⟨v, hv⟩ := Workers.caller_of_dropped hop
      obtain rfl := hown hv
      rw [hkeys, Store.remove_of_ne (ne_of_mem_of_not_mem hkey hrecord)]

end

end BackendProdReady.Idempotency.Footprint
