import BackendProdReady.Idempotency.Workers

/-!
# What a status says when commands fail

One call of `check` alone on Redis, with any fate for each of its commands.  A
status is truthful when it agrees with the keys at the instant of the command
that settled it.  The fallback `setnx` is where it can fail to be: an error reads
as "the key exists", and so does the caller's own marker, left by a script whose
reply was lost.
-/

namespace BackendProdReady.Idempotency.TruthfulChecks

open BackendProdReady.Lib.ExpiringStore
open BackendProdReady.Cache.Operations (Keyspace Fate)
open BackendProdReady.Idempotency.Keys
open BackendProdReady.Idempotency.Service
open BackendProdReady.Idempotency.Workers (evtDigest boolJson evtPair)

/-! ## One call -/

structure CheckCall where
  lua : Fate
  luaAt : Nat
  pong : Bool
  read : Fate
  readAt : Nat
  acquire : Fate
  acquireAt : Nat
  luaAt_le : luaAt ≤ readAt
  readAt_le : readAt ≤ acquireAt

structure CheckRun (J : Type) where
  outcome : Except CheckError (IdempotencyResult J)
  settledAt : Nat
  keys : Keyspace

def follow {J : Type} (step : Next J × Keyspace) (now : Nat) (rest : Keyspace → CheckRun J) :
    CheckRun J :=
  match step.1 with
  | .returns result => ⟨.ok result, now, step.2⟩
  | .raises e => ⟨.error e, now, step.2⟩
  | _ => rest step.2

section

variable {J : Type} (sha256 : String → HexDigest) (orjson : Orjson J) (call : CheckCall)
  (pair : Pair)

def runNonAtomic (keys : Keyspace) : CheckRun J :=
  follow (checkRead sha256 orjson call.read call.readAt pair keys) call.readAt fun keys =>
    let run := acquireMarker sha256 call.acquire call.acquireAt pair keys
    ⟨run.1, call.acquireAt, run.2⟩

def runCheck (keys : Keyspace) : CheckRun J :=
  follow (checkLua sha256 orjson call.lua call.luaAt pair keys) call.luaAt fun keys =>
    follow (checkPing call.pong pair, keys) call.luaAt fun keys =>
      runNonAtomic sha256 orjson call pair keys

/-! ## Truthful statuses -/

/-- `NEW`: the call found no live marker and left one created then.  `DUPLICATE`:
a record was live.  `IN_PROGRESS`: a marker from before the call was live. -/
def Truthful (keys : Keyspace) (run : CheckRun J) : IdempotencyStatus → Prop
  | .new =>
      keys.find run.settledAt (buildInProgressKey sha256 pair) = none ∧
        run.keys (buildInProgressKey sha256 pair) = some (markerEntry run.settledAt)
  | .duplicate => (keys.find run.settledAt (buildKey sha256 pair)).isSome = true
  | .inProgress => (keys.find run.settledAt (buildInProgressKey sha256 pair)).isSome = true

def FailsClosed (keys : Keyspace) (run : CheckRun J) : Prop :=
  match run.outcome with
  | .ok result => Truthful sha256 pair keys run result.status
  | .error (.idempotencyCacheError _) => True
  | .error .openedState => False

/-! ## The condition -/

/-- The script leaves the check open: its reply is missing, or a record it found
does not decode. -/
def LuaSilent (keys : Keyspace) : Prop :=
  call.lua ≠ .answered ∨
    ∃ cached, keys.find call.luaAt (buildKey sha256 pair) = some cached ∧ cached ≠ "" ∧
      orjson.loads cached = none

def ReadSilent (keys : Keyspace) : Prop :=
  call.read ≠ .answered ∨
    ∀ cached, keys.find call.readAt (buildKey sha256 pair) = some cached →
      orjson.loads cached = none

/-- The script created a marker that is live when `setnx` is tried, but its reply
was lost. -/
def OwnMarkerLive (keys : Keyspace) : Prop :=
  call.lua = .replyLost ∧ keys.find call.luaAt (buildKey sha256 pair) = none ∧
    keys.find call.luaAt (buildInProgressKey sha256 pair) = none ∧
    call.acquireAt ≤ call.luaAt + inProgressMs

def ForeignMarkerLive (keys : Keyspace) : Prop :=
  (keys.find call.acquireAt (buildInProgressKey sha256 pair)).isSome = true

/-- No command the call reaches is rejected, and a `setnx` it reaches meets an
earlier marker, or is answered and does not meet the call's own. -/
def Settled (keys : Keyspace) : Prop :=
  call.lua ≠ .rejected ∧
    (LuaSilent sha256 orjson call pair keys → call.pong = true →
      call.read ≠ .rejected ∧
        (ReadSilent sha256 orjson call pair keys →
          call.acquire ≠ .rejected ∧
            (ForeignMarkerLive sha256 call pair keys ∨
              call.acquire = .answered ∧ ¬ OwnMarkerLive sha256 call pair keys)))

end

section

variable {J : Type} {sha256 : String → HexDigest} {orjson : Orjson J} {call : CheckCall}
  {pair : Pair} {keys : Keyspace}

/-! ## The fallback -/

structure AfterScript (sha256 : String → HexDigest) (call : CheckCall) (pair : Pair)
    (keys keys₁ : Keyspace) : Prop where
  record : keys₁ (buildKey sha256 pair) = keys (buildKey sha256 pair)
  marker : (keys₁.find call.acquireAt (buildInProgressKey sha256 pair)).isSome = true ↔
    ForeignMarkerLive sha256 call pair keys ∨ OwnMarkerLive sha256 call pair keys

theorem failsClosed_acquire {keys₁ : Keyspace}
    (h : AfterScript sha256 call pair keys keys₁) :
    FailsClosed (J := J) sha256 pair keys
        ⟨(acquireMarker sha256 call.acquire call.acquireAt pair keys₁).1, call.acquireAt,
          (acquireMarker (J := J) sha256 call.acquire call.acquireAt pair keys₁).2⟩ ↔
      call.acquire ≠ .rejected ∧
        (ForeignMarkerLive sha256 call pair keys ∨
          call.acquire = .answered ∧ ¬ OwnMarkerLive sha256 call pair keys) := by
  by_cases hrejected : call.acquire = .rejected
  · rw [hrejected]
    simp [FailsClosed, acquireMarker, Cache.Operations.setnx,
      Cache.Operations.executeRedisOperation]
  by_cases hanswered : call.acquire = .answered
  · rw [hanswered, acquireMarker_answered]
    have hmarker := h.marker
    cases hfind : keys₁.find call.acquireAt (buildInProgressKey sha256 pair) with
    | some value =>
        have hheld : ForeignMarkerLive sha256 call pair keys ∨
            OwnMarkerLive sha256 call pair keys := hmarker.mp (by simp [hfind])
        simp only [Option.isSome_some, if_true, FailsClosed, Truthful]
        change ForeignMarkerLive sha256 call pair keys ↔ _
        constructor
        · exact fun hforeign => ⟨by decide, .inl hforeign⟩
        · rintro ⟨-, hforeign | ⟨-, hown⟩⟩
          · exact hforeign
          · exact hheld.resolve_right hown
    | none =>
        have hfree : ¬ (ForeignMarkerLive sha256 call pair keys ∨
            OwnMarkerLive sha256 call pair keys) := fun hheld => by
          simpa [hfind] using hmarker.mpr hheld
        rw [not_or] at hfree
        have hnone : keys.find call.acquireAt (buildInProgressKey sha256 pair) = none := by
          simpa [ForeignMarkerLive] using hfree.1
        simp [FailsClosed, Truthful, hnone, hfree]
  · have hrun := acquireMarker_unanswered (J := J) sha256 hanswered hrejected call.acquireAt
      pair keys₁
    simp only [FailsClosed, hrun, Truthful]
    change ForeignMarkerLive sha256 call pair keys ↔ _
    simp [hrejected, hanswered]

theorem failsClosed_nonAtomic {keys₁ : Keyspace}
    (h : AfterScript sha256 call pair keys keys₁) :
    FailsClosed sha256 pair keys (runNonAtomic sha256 orjson call pair keys₁) ↔
      call.read ≠ .rejected ∧
        (ReadSilent sha256 orjson call pair keys →
          call.acquire ≠ .rejected ∧
            (ForeignMarkerLive sha256 call pair keys ∨
              call.acquire = .answered ∧ ¬ OwnMarkerLive sha256 call pair keys)) := by
  have hfind : keys₁.find call.readAt (buildKey sha256 pair) =
      keys.find call.readAt (buildKey sha256 pair) := Store.find_congr h.record _
  by_cases hrejected : call.read = .rejected
  · rw [runNonAtomic, hrejected]
    simp [follow, checkRead, Cache.Operations.get, Cache.Operations.executeRedisOperation,
      FailsClosed]
  by_cases hsilent : ReadSilent sha256 orjson call pair keys
  · have hmiss : call.read ≠ .answered ∨
        ∀ cached, keys₁.find call.readAt (buildKey sha256 pair) = some cached →
          orjson.loads cached = none := by
      rw [hfind]
      exact hsilent
    have hread := checkRead_missed sha256 orjson hrejected hmiss
    rw [runNonAtomic, hread]
    simp only [follow, failsClosed_acquire h, hrejected, ne_eq, not_false_eq_true, hsilent,
      true_and, forall_const]
  · obtain ⟨hanswered, cached, hcached, response, hloads⟩ :
        call.read = .answered ∧ ∃ cached,
          keys.find call.readAt (buildKey sha256 pair) = some cached ∧
            ∃ response, orjson.loads cached = some response := by
      simpa [ReadSilent, Option.ne_none_iff_exists'] using hsilent
    have hread := checkRead_decoded sha256 orjson (hfind.trans hcached) hloads
    rw [runNonAtomic, hanswered, hread]
    simp [follow, FailsClosed, Truthful, hcached, hsilent]

/-! ## The script -/

/-- A silent script leaves the keys as they were, or its own marker where it
found neither record nor marker. -/
theorem afterScript_of_silent (hsilent : LuaSilent sha256 orjson call pair keys)
    (hrejected : call.lua ≠ .rejected) :
    (checkLua sha256 orjson call.lua call.luaAt pair keys).1 = .ping ∧
      AfterScript sha256 call pair keys
        (checkLua sha256 orjson call.lua call.luaAt pair keys).2 := by
  have hunchanged : ¬ OwnMarkerLive sha256 call pair keys →
      AfterScript sha256 call pair keys keys := fun hown =>
    ⟨rfl, by simp [hown, ForeignMarkerLive]⟩
  cases hlua : call.lua with
  | answered =>
      obtain ⟨cached, hcached, hne, hloads⟩ := hsilent.resolve_left (by simp [hlua])
      rw [checkLua_answered, hcached]
      exact ⟨by simp [afterLua, hne, hloads], hunchanged (by simp [OwnMarkerLive, hlua])⟩
  | failed => exact ⟨rfl, hunchanged (by simp [OwnMarkerLive, hlua])⟩
  | replyLost =>
      refine ⟨checkLua_replyLost sha256 orjson _ _ _, ?_⟩
      rw [checkLua_replyLost_keys, checkLua_answered]
      cases hrecord : keys.find call.luaAt (buildKey sha256 pair) with
      | some cached => exact hunchanged (by simp [OwnMarkerLive, hrecord])
      | none =>
          cases hmarker : keys.find call.luaAt (buildInProgressKey sha256 pair) with
          | some value => exact hunchanged (by simp [OwnMarkerLive, hmarker])
          | none =>
              have hlater : keys.find call.acquireAt (buildInProgressKey sha256 pair) = none :=
                Store.find_eq_none_of_le (Nat.le_trans call.luaAt_le call.readAt_le) hmarker
              refine ⟨Store.put_of_ne (buildKey_ne_buildInProgressKey sha256 pair pair) _ _, ?_⟩
              simp [Store.find_put_self, Entry.live, markerEntry, ForeignMarkerLive,
                OwnMarkerLive, hlater, hlua, hrecord, hmarker]
  | rejected => exact absurd hlua hrejected

theorem failsClosed_script (hanswered : call.lua = .answered)
    (hsettles : ¬ LuaSilent sha256 orjson call pair keys) :
    FailsClosed sha256 pair keys (runCheck sha256 orjson call pair keys) := by
  rw [runCheck, hanswered, checkLua_answered]
  cases hrecord : keys.find call.luaAt (buildKey sha256 pair) with
  | some cached =>
      by_cases hempty : cached = ""
      · simp [hempty, afterLua, follow, FailsClosed, Truthful, hrecord]
      cases hloads : orjson.loads cached with
      | none => exact absurd (.inr ⟨cached, hrecord, hempty, hloads⟩) hsettles
      | some response =>
          simp [hempty, hloads, afterLua, follow, FailsClosed, Truthful, hrecord]
  | none =>
      cases hmarker : keys.find call.luaAt (buildInProgressKey sha256 pair) with
      | some value => simp [follow, FailsClosed, Truthful, hmarker]
      | none => simp [follow, FailsClosed, Truthful, hmarker]

/-! ## Main result -/

/-- A call of `check` raises `IdempotencyCacheError` or returns a truthful status
exactly when it is settled: it does not reach a `setnx` whose error, or whose
collision with the caller's own marker, reads as another worker. -/
theorem failsClosed_iff (call : CheckCall) (pair : Pair) (keys : Keyspace) :
    FailsClosed sha256 pair keys (runCheck sha256 orjson call pair keys) ↔
      Settled sha256 orjson call pair keys := by
  by_cases hrejected : call.lua = .rejected
  · rw [runCheck, hrejected]
    simp [Settled, hrejected, follow, checkLua, Cache.Operations.executeLuaScript,
      Cache.Operations.executeRedisOperation, FailsClosed]
  by_cases hsilent : LuaSilent sha256 orjson call pair keys
  · obtain ⟨hping, hafter⟩ := afterScript_of_silent hsilent hrejected
    simp only [runCheck, follow, hping]
    cases hpong : call.pong with
    | false => simp [Settled, hrejected, hpong, checkPing, FailsClosed]
    | true =>
        simp only [checkPing, if_true, failsClosed_nonAtomic hafter, Settled, hrejected, hsilent,
          hpong, ne_eq, not_false_eq_true, true_and, forall_const]
  · have hanswered : call.lua = .answered := by
      by_contra hne
      exact hsilent (.inl hne)
    simp [failsClosed_script hanswered hsilent, Settled, hsilent, hrejected]

end

def ownMarkerCall : CheckCall :=
  ⟨.replyLost, 0, true, .answered, 5000, .answered, 5000, by decide, by decide⟩

/-- Alone on an empty Redis, the caller is told `IN_PROGRESS`. -/
theorem own_marker_reported_in_progress :
    (runCheck evtDigest boolJson ownMarkerCall evtPair fun _ => none).outcome =
        .ok ⟨.inProgress, none⟩ ∧
      ¬ FailsClosed evtDigest evtPair (fun _ => none)
        (runCheck evtDigest boolJson ownMarkerCall evtPair fun _ => none) := by
  have houtcome : (runCheck evtDigest boolJson ownMarkerCall evtPair fun _ => none).outcome =
      .ok ⟨.inProgress, none⟩ := by decide
  refine ⟨houtcome, fun hclosed => ?_⟩
  rw [FailsClosed, houtcome] at hclosed
  simp [Truthful, Store.find] at hclosed

end BackendProdReady.Idempotency.TruthfulChecks
