import BackendProdReady.Idempotency.Workers

/-!
# What a `store` call that returned has recorded

`store` writes the record, then deletes the marker.  It ignores what the first
write reports, so a call can return with neither record nor marker in place, and
the next check of the operation returns `NEW`.  The module states what a call
ought to leave behind and when it does.
-/

namespace BackendProdReady.Idempotency.Completion

open BackendProdReady.Lib.ExpiringStore
open BackendProdReady.Lib.Runs
open BackendProdReady.Cache.Operations (Keyspace Fate BreakerError validSeconds deadline)
open BackendProdReady.Idempotency.Keys
open BackendProdReady.Idempotency.Service
open BackendProdReady.Idempotency.Workers

/-! ## One call -/

/-- The fates of the two commands, and the instants they reach Redis. -/
structure StoreCall where
  record : Fate
  recordAt : Nat
  release : Fate
  releaseAt : Nat
  recordAt_le : recordAt ≤ releaseAt

section

variable {J : Type} (sha256 : String → HexDigest) (orjson : Orjson J)

def runStore (call : StoreCall) (pair : Pair) (response : J) (ttl : Option Int)
    (keys : Keyspace) : Except BreakerError Unit × Keyspace :=
  let first := storeRecord sha256 orjson call.record call.recordAt pair response ttl keys
  match first.1 with
  | .error e => (.error e, first.2)
  | .ok () => releaseMarker sha256 call.release call.releaseAt pair first.2

/-! ## Afterwards -/

def Healthy {ω : Type} : Op ω J → Prop
  | .advance _ => True
  | .ping _ _ pong => pong = true
  | .lua _ _ fate | .read _ _ fate | .acquire _ _ fate | .storeRecord _ _ _ _ fate
  | .storeRelease _ _ fate | .clearInProgress _ _ fate | .invalidateRecord _ _ fate
  | .invalidateMarker _ _ fate => fate = .answered

/-- On a healthy Redis, without a later `store` or `invalidate` of the pair. -/
def Afterwards {ω : Type} (pair : Pair) (_ : State ω)
    (label : Op ω J × Option (IdempotencyResult J)) (_ : State ω) : Prop :=
  Healthy label.1 ∧
    (∀ other, label.1.recorded = some other → buildKey sha256 other ≠ buildKey sha256 pair) ∧
    ∀ other, label.1.dropped = some other → buildKey sha256 other ≠ buildKey sha256 pair

abbrev AfterStep {ω : Type} [DecidableEq ω] (pair : Pair) :
    State ω → Op ω J × Option (IdempotencyResult J) → State ω → Prop :=
  Guarded (Afterwards sha256 pair) (Step sha256 orjson)

def quiet (ω : Type) (now : Nat) (keys : Keyspace) : State ω := ⟨now, keys, fun _ _ => .idle⟩

/-- No check of the pair made from `now` on returns `NEW` before `until`. -/
def NotReprocessed (ω : Type) [DecidableEq ω] (pair : Pair) (now : Nat) (keys : Keyspace)
    (limit : Nat) : Prop :=
  ∀ labels (s t : State ω) op result w other,
    Run (AfterStep sha256 orjson pair) (quiet ω now keys) labels s →
    AfterStep sha256 orjson pair s (op, some result) t →
    op.checker = some (w, other) → buildKey sha256 other = buildKey sha256 pair →
    s.now < limit → result.status ≠ .new

/-- `store` raises, leaves the marker in place, or keeps the operation from being
processed again until the ttl has elapsed. -/
def Completes (ω : Type) [DecidableEq ω] (call : StoreCall) (pair : Pair) (response : J)
    (ttl : Option Int) (keys : Keyspace) : Prop :=
  let run := runStore sha256 orjson call pair response ttl keys
  (∃ e, run.1 = .error e) ∨
    (run.2.find call.releaseAt (buildInProgressKey sha256 pair)).isSome = true ∨
    NotReprocessed sha256 orjson ω pair call.releaseAt run.2
      (deadline call.recordAt (effectiveTtl ttl))

/-! ## The condition -/

/-- A command that the call reaches is rejected by the open breaker. -/
def RejectedCall (call : StoreCall) (response : J) : Prop :=
  (orjson.dumps response).isSome ∧ call.record = .rejected ∨ call.release = .rejected

/-- The response can be encoded, and the server takes the write of the record. -/
def RecordWritten (call : StoreCall) (response : J) (ttl : Option Int) : Prop :=
  (orjson.dumps response).isSome ∧ call.record.takesEffect ∧
    validSeconds (effectiveTtl ttl) = true

/-- A live marker, and a delete that does not reach the server. -/
def MarkerKept (call : StoreCall) (pair : Pair) (keys : Keyspace) : Prop :=
  call.release = .failed ∧
    (keys.find call.releaseAt (buildInProgressKey sha256 pair)).isSome = true

def Readable (cached : String) : Prop := cached = "" ∨ (orjson.loads cached).isSome

/-- An earlier record answers every check until the ttl has elapsed. -/
def CoveredBefore (call : StoreCall) (pair : Pair) (ttl : Option Int) (keys : Keyspace) : Prop :=
  ∀ now, call.releaseAt ≤ now → now < deadline call.recordAt (effectiveTtl ttl) →
    ∃ cached, keys.find now (buildKey sha256 pair) = some cached ∧ Readable orjson cached

end

section

variable {ω J : Type} [DecidableEq ω] {sha256 : String → HexDigest} {orjson : Orjson J}
  {pair : Pair}

/-! ## A record that covers the ttl -/

/-- The record answers at every instant from `now` to `limit`. -/
def Covers (orjson : Orjson J) (entry : Entry String) (now limit : Nat) : Prop :=
  Readable orjson entry.value ∧ ∀ at', now ≤ at' → at' < limit → entry.live at' = true

/-- A readable record in place, and nobody in the fallback of a check. -/
structure Answering (sha256 : String → HexDigest) (pair : Pair) (entry : Entry String)
    (s : State ω) : Prop where
  record : s.keys (buildKey sha256 pair) = some entry
  direct : ∀ w other, buildKey sha256 other = buildKey sha256 pair →
    (s.phase w other).inFallback = false

theorem checkLua_readable {now : Nat} {other : Pair} {keys : Keyspace} {entry : Entry String}
    (hentry : keys (buildKey sha256 other) = some entry) (hlive : entry.live now = true)
    (hreadable : Readable orjson entry.value) :
    ∃ response, checkLua sha256 orjson .answered now other keys =
      (.returns ⟨.duplicate, response⟩, keys) := by
  rw [checkLua_answered, Store.find_of_live hentry hlive]
  by_cases hempty : entry.value = ""
  · exact ⟨none, by simp [afterLua, hempty]⟩
  · obtain ⟨response, hloads⟩ := Option.isSome_iff_exists.mp (hreadable.resolve_left hempty)
    exact ⟨some response, by simp [afterLua, hempty, hloads]⟩

theorem answering_step {entry : Entry String} {s t : State ω} {op : Op ω J}
    {result : Option (IdempotencyResult J)} (h : Answering sha256 pair entry s)
    (hreadable : Readable orjson entry.value) (hlive : entry.live s.now = true)
    (hstep : AfterStep sha256 orjson pair s (op, result) t) :
    Answering sha256 pair entry t := by
  obtain ⟨hstep, hhealthy, hrecorded, hdropped⟩ := hstep
  refine ⟨step_record hstep h.record hrecorded hdropped, fun w other hsame => ?_⟩
  by_contra hfallback
  rw [Bool.not_eq_false] at hfallback
  rcases step_inFallback hstep hfallback with hbefore | ⟨fate, rfl, hlua⟩
  · rw [h.direct w other hsame] at hbefore
    cases hbefore
  · obtain rfl : fate = .answered := hhealthy
    obtain ⟨response, hrun⟩ := checkLua_readable (hsame ▸ h.record) hlive hreadable
    rw [hrun] at hlua
    cases hlua

theorem answering_run {entry : Entry String} {now limit : Nat} {s t : State ω}
    {labels : List (Op ω J × Option (IdempotencyResult J))} (h : Answering sha256 pair entry s)
    (hcovers : Covers orjson entry now limit) (hnow : now ≤ s.now) (hlimit : t.now < limit)
    (hrun : Run (AfterStep sha256 orjson pair) s labels t) :
    Answering sha256 pair entry t := by
  induction hrun with
  | refl => exact h
  | tail hpre hstep ih =>
      have hbefore := run_now_le hpre.of_guarded
      have hafter := step_now_le hstep.1
      exact answering_step (ih (by omega)) hcovers.1 (hcovers.2 _ (by omega) (by omega)) hstep

theorem answering_check {entry : Entry String} {s t : State ω} {op : Op ω J}
    {result : IdempotencyResult J} {w : ω} {other : Pair} (h : Answering sha256 pair entry s)
    (hreadable : Readable orjson entry.value) (hlive : entry.live s.now = true)
    (hstep : AfterStep sha256 orjson pair s (op, some result) t)
    (hop : op.checker = some (w, other)) (hsame : buildKey sha256 other = buildKey sha256 pair) :
    result.status ≠ .new := by
  obtain ⟨hstep, hhealthy, -⟩ := hstep
  have hdirect := h.direct w other hsame
  have htransition := step_cases hstep
  generalize hresult : some result = outcome at htransition
  cases htransition with
  | lua hphase hrun =>
      cases hop
      obtain rfl := (hhealthy : _ = Fate.answered)
      obtain ⟨response, hreturns⟩ := checkLua_readable (hsame ▸ h.record) hlive hreadable
      rw [hrun, hreturns] at hresult
      obtain rfl := Option.some.inj hresult
      simp
  | ping hphase =>
      cases hop
      rw [hphase] at hdirect
      cases hdirect
  | read hphase hrun =>
      cases hop
      rw [hphase] at hdirect
      cases hdirect
  | acquire hphase hrun =>
      cases hop
      rw [hphase] at hdirect
      cases hdirect
  | _ => cases hop

theorem notReprocessed_of_covers {now limit : Nat} {keys : Keyspace} {entry : Entry String}
    (hentry : keys (buildKey sha256 pair) = some entry)
    (hcovers : Covers orjson entry now limit) :
    NotReprocessed sha256 orjson ω pair now keys limit := by
  intro labels s t op result w other hrun hstep hop hsame hlimit
  have hstart : Answering sha256 pair entry (quiet ω now keys) := ⟨hentry, fun _ _ _ => rfl⟩
  have hnow := run_now_le hrun.of_guarded
  have hanswering := answering_run hstart hcovers (Nat.le_refl _) hlimit hrun
  exact answering_check hanswering hcovers.1 (hcovers.2 _ hnow hlimit) hstep hop hsame

/-! ## What a call leaves -/

variable {call : StoreCall} {response : J} {ttl : Option Int} {keys : Keyspace}

omit [DecidableEq ω] in
theorem runStore_rejected (h : RejectedCall orjson call response) :
    ∃ e, (runStore sha256 orjson call pair response ttl keys).1 = .error e := by
  unfold runStore
  dsimp only
  split
  · rename_i e _
    exact ⟨e, rfl⟩
  · rename_i hfirst
    rcases h with ⟨hdumps, hrecord⟩ | hrelease
    · obtain ⟨serialized, hserialized⟩ := Option.isSome_iff_exists.mp hdumps
      rw [hrecord, storeRecord, hserialized] at hfirst
      cases hfirst
    · rw [hrelease]
      exact ⟨.openedState, rfl⟩

omit [DecidableEq ω] in
theorem runStore_not_rejected (h : ¬ RejectedCall orjson call response) :
    runStore sha256 orjson call pair response ttl keys =
      releaseMarker sha256 call.release call.releaseAt pair
        (storeRecord sha256 orjson call.record call.recordAt pair response ttl keys).2 := by
  have hok : (storeRecord sha256 orjson call.record call.recordAt pair response ttl keys).1 =
      .ok () := storeRecord_ok sha256 orjson fun hrejected => h (.inl hrejected)
  simp only [runStore, hok]

theorem releaseMarker_record (fate : Fate) (now : Nat) :
    (releaseMarker sha256 fate now pair keys).2 (buildKey sha256 pair) =
      keys (buildKey sha256 pair) := by
  rw [releaseMarker_keys]
  split_ifs
  · exact Store.remove_of_ne (buildKey_ne_buildInProgressKey sha256 pair pair) _
  · rfl

theorem storeRecord_marker (fate : Fate) (now : Nat) :
    (storeRecord sha256 orjson fate now pair response ttl keys).2
        (buildInProgressKey sha256 pair) = keys (buildInProgressKey sha256 pair) := by
  rcases storeRecord_keys sha256 orjson fate now pair response ttl keys with
    hkeys | ⟨serialized, -, -, hkeys⟩
  · rw [hkeys]
  · rw [hkeys, Store.put_of_ne (buildKey_ne_buildInProgressKey sha256 pair pair).symm]

theorem storeRecord_unwritten (h : ¬ RecordWritten orjson call response ttl) :
    (storeRecord sha256 orjson call.record call.recordAt pair response ttl keys).2 = keys := by
  cases hdumps : orjson.dumps response with
  | none => simp [storeRecord, hdumps]
  | some serialized =>
      rcases storeRecord_keys sha256 orjson call.record call.recordAt pair response ttl keys with
        hkeys | ⟨_, -, hvalid, -⟩
      · exact hkeys
      · have heffect : call.record.takesEffect = false := by
          simpa [RecordWritten, hdumps, hvalid] using h
        cases hfate : call.record <;> rw [hfate] at heffect <;> cases heffect <;>
          simp [storeRecord, hdumps, Cache.Operations.set,
            Cache.Operations.executeRedisOperation]

/-! ## When a call completes -/

theorem completes_of_written (h : RecordWritten orjson call response ttl) :
    Completes sha256 orjson ω call pair response ttl keys := by
  by_cases hrejected : RejectedCall orjson call response
  · exact .inl (runStore_rejected hrejected)
  obtain ⟨hdumps, heffect, hvalid⟩ := h
  obtain ⟨serialized, hserialized⟩ := Option.isSome_iff_exists.mp hdumps
  obtain ⟨decoded, hloads, -⟩ := orjson.loads_dumps response serialized hserialized
  have hcovers : Covers orjson ⟨serialized, some (deadline call.recordAt (effectiveTtl ttl))⟩
      call.releaseAt (deadline call.recordAt (effectiveTtl ttl)) :=
    ⟨.inr (by simp [hloads]), fun now _ hnow =>
      (Entry.live_iff rfl now).mpr (Nat.le_of_lt hnow)⟩
  refine .inr (.inr (notReprocessed_of_covers ?_ hcovers))
  rw [runStore_not_rejected hrejected, releaseMarker_record,
    storeRecord_written sha256 orjson hserialized heffect hvalid, Store.put_self]

theorem completes_of_markerKept (h : MarkerKept sha256 call pair keys) :
    Completes sha256 orjson ω call pair response ttl keys := by
  by_cases hrejected : RejectedCall orjson call response
  · exact .inl (runStore_rejected hrejected)
  obtain ⟨hfailed, hmarker⟩ := h
  refine .inr (.inl ?_)
  rw [runStore_not_rejected hrejected, hfailed, releaseMarker_keys]
  rw [← Store.find_congr (storeRecord_marker call.record call.recordAt)] at hmarker
  exact hmarker

theorem completes_of_covered (hcovered : CoveredBefore sha256 orjson call pair ttl keys) :
    Completes sha256 orjson ω call pair response ttl keys := by
  by_cases hrejected : RejectedCall orjson call response
  · exact .inl (runStore_rejected hrejected)
  by_cases hwritten : RecordWritten orjson call response ttl
  · exact completes_of_written hwritten
  refine .inr (.inr ?_)
  by_cases hopen : call.releaseAt < deadline call.recordAt (effectiveTtl ttl)
  · obtain ⟨cached, hcached, hreadable⟩ := hcovered call.releaseAt (Nat.le_refl _) hopen
    obtain ⟨entry, hentry, -, rfl⟩ := Store.find_eq_some hcached
    refine notReprocessed_of_covers ?_ ⟨hreadable, fun now hfrom hbefore => ?_⟩
    · rw [runStore_not_rejected hrejected, releaseMarker_record, storeRecord_unwritten hwritten,
        hentry]
    · obtain ⟨_, hfind, -⟩ := hcovered now hfrom hbefore
      obtain ⟨other, hother, hlive, -⟩ := Store.find_eq_some hfind
      obtain rfl : entry = other := Option.some.inj (hentry.symm.trans hother)
      exact hlive
  · -- the ttl has elapsed before the call returns
    intro labels s t op result w other hrun _ _ _ hnow
    have hstart := run_now_le hrun.of_guarded
    exact absurd hnow (Nat.not_lt.mpr (Nat.le_trans (Nat.not_lt.mp hopen) hstart))

/-! ## When it does not -/

/-- An answered command of a check may come afterwards. -/
theorem afterStep_check {s t : State ω} {op : Op ω J} {result : Option (IdempotencyResult J)}
    {w : ω} (h : Step sha256 orjson s (op, result) t) (hop : op.checker = some (w, pair))
    (hhealthy : Healthy op) : AfterStep sha256 orjson pair s (op, result) t := by
  refine ⟨h, hhealthy, fun other hrecorded => ?_, fun other hdropped => ?_⟩
  · cases op <;> cases hop <;> cases hrecorded
  · cases op <;> cases hop <;> cases hdropped

/-- Some check of the pair, begun in `s` without the clock moving, returns `NEW`. -/
def ReturnsNew (sha256 : String → HexDigest) (orjson : Orjson J) (pair : Pair) (w : ω)
    (s : State ω) : Prop :=
  ∃ labels u op t, Run (AfterStep sha256 orjson pair) s labels u ∧
    AfterStep sha256 orjson pair u (op, some ⟨.new, none⟩) t ∧
    op.checker = some (w, pair) ∧ u.now = s.now

theorem ReturnsNew.of_step {s t : State ω} {w : ω} {op : Op ω J}
    (hstep : Step sha256 orjson s (op, none) t) (hop : op.checker = some (w, pair))
    (hhealthy : Healthy op) (hnow : t.now = s.now) (h : ReturnsNew sha256 orjson pair w t) :
    ReturnsNew sha256 orjson pair w s := by
  obtain ⟨labels, u, last, v, hrun, hlast, hchecker, hlater⟩ := h
  have hfirst := Run.single (afterStep_check hstep hop hhealthy)
  exact ⟨_, u, last, v, hfirst.trans hrun, hlast, hchecker, hlater.trans hnow⟩

theorem fallback_new {s : State ω} {w : ω} (hphase : s.phase w pair = .pinging)
    (hmarker : s.keys.find s.now (buildInProgressKey sha256 pair) = none)
    (hmiss : ∀ cached, s.keys.find s.now (buildKey sha256 pair) = some cached →
      orjson.loads cached = none) : ReturnsNew sha256 orjson pair w s := by
  let reading := (checkStep s w pair ((.read, s.keys) : Next J × Keyspace)).1
  let acquiring := (checkStep reading w pair ((.acquire, s.keys) : Next J × Keyspace)).1
  have hread : checkRead sha256 orjson .answered s.now pair s.keys = (.acquire, s.keys) :=
    checkRead_missed sha256 orjson (by decide) (.inr hmiss)
  have hacquire : checkAcquire (J := J) sha256 .answered s.now pair s.keys =
      (.returns ⟨.new, none⟩,
        s.keys.put (buildInProgressKey sha256 pair) (markerEntry s.now)) := by
    rw [checkAcquire, acquireMarker_answered, hmarker]
    rfl
  have hreading : Step sha256 orjson s (.ping w pair true, none) reading :=
    step_of_transition (.ping hphase)
  have hreadPhase : reading.phase w pair = .reading := State.setPhase_self _ _ _ _
  have hacquiring : Step sha256 orjson reading (.read w pair .answered, none) acquiring :=
    step_of_transition (.read hreadPhase hread.symm)
  have hacquirePhase : acquiring.phase w pair = .acquiring := State.setPhase_self _ _ _ _
  have hnew : Step sha256 orjson acquiring (.acquire w pair .answered, some ⟨.new, none⟩) _ :=
    step_of_transition (.acquire hacquirePhase hacquire.symm)
  exact .of_step hreading rfl rfl rfl (.of_step hacquiring rfl rfl rfl
    ⟨[], acquiring, _, _, .refl _, afterStep_check hnew rfl rfl, rfl, rfl⟩)

/-- Without a live marker and a readable record, a check of an idle worker
returns `NEW`, through the script or past a record it cannot decode. -/
theorem check_new_of_unreadable {s : State ω} {w : ω}
    (hidle : s.phase w pair = .idle)
    (hmarker : s.keys.find s.now (buildInProgressKey sha256 pair) = none)
    (hrecord : ∀ cached, s.keys.find s.now (buildKey sha256 pair) = some cached →
      ¬ Readable orjson cached) : ReturnsNew sha256 orjson pair w s := by
  cases hfind : s.keys.find s.now (buildKey sha256 pair) with
  | none =>
      have hlua : checkLua sha256 orjson .answered s.now pair s.keys =
          (.returns ⟨.new, none⟩,
            s.keys.put (buildInProgressKey sha256 pair) (markerEntry s.now)) := by
        rw [checkLua_answered, hfind, hmarker]
        rfl
      have hnew := step_of_transition (.lua hidle hlua.symm)
      exact ⟨[], s, _, _, .refl s, afterStep_check hnew rfl rfl, rfl, rfl⟩
  | some cached =>
      have hunreadable := hrecord cached hfind
      rw [Readable, not_or, Option.not_isSome_iff_eq_none] at hunreadable
      have hlua : checkLua sha256 orjson .answered s.now pair s.keys = (.ping, s.keys) := by
        rw [checkLua_answered, hfind]
        simp [afterLua, hunreadable]
      have hmiss : ∀ other, s.keys.find s.now (buildKey sha256 pair) = some other →
          orjson.loads other = none := by
        intro other hother
        obtain rfl : cached = other := Option.some.inj (hfind.symm.trans hother)
        exact hunreadable.2
      let pinging := (checkStep s w pair ((.ping, s.keys) : Next J × Keyspace)).1
      have hpinging : Step sha256 orjson s (.lua w pair .answered, none) pinging :=
        step_of_transition (.lua hidle hlua.symm)
      have hphase : pinging.phase w pair = .pinging := State.setPhase_self _ _ _ _
      exact .of_step hpinging rfl rfl rfl (fallback_new hphase hmarker hmiss)

/-- A call that returned, left no marker and recorded nothing readable for the
whole ttl lets the operation run again. -/
theorem condition_of_completes [Inhabited ω]
    (h : Completes sha256 orjson ω call pair response ttl keys) :
    RejectedCall orjson call response ∨ RecordWritten orjson call response ttl ∨
      MarkerKept sha256 call pair keys ∨ CoveredBefore sha256 orjson call pair ttl keys := by
  by_contra hcondition
  rw [not_or, not_or, not_or] at hcondition
  obtain ⟨hrejected, hwritten, hkept, huncovered⟩ := hcondition
  have hrun : runStore sha256 orjson call pair response ttl keys =
      releaseMarker sha256 call.release call.releaseAt pair keys := by
    rw [runStore_not_rejected hrejected, storeRecord_unwritten hwritten]
  -- the marker is gone, or was not live before the call
  have hmarker : (runStore sha256 orjson call pair response ttl keys).2.find call.releaseAt
      (buildInProgressKey sha256 pair) = none := by
    rw [hrun, releaseMarker_keys]
    cases hrelease : call.release with
    | answered => simp [Fate.takesEffect, Store.find]
    | failed => simpa [MarkerKept, hrelease, Fate.takesEffect] using hkept
    | replyLost => simp [Fate.takesEffect, Store.find]
    | rejected => exact absurd (.inr hrelease) hrejected
  have hrecord : (runStore sha256 orjson call pair response ttl keys).2 (buildKey sha256 pair) =
      keys (buildKey sha256 pair) := by rw [hrun, releaseMarker_record]
  rcases h with ⟨e, he⟩ | hleft | hprocessed
  · rw [hrun, releaseMarker_ok sha256 fun hrelease => hrejected (.inr hrelease)] at he
    cases he
  · simp [hmarker] at hleft
  · simp only [CoveredBefore, not_forall, not_exists, not_and] at huncovered
    obtain ⟨now, hfrom, hbefore, hunreadable⟩ := huncovered
    let left := quiet ω call.releaseAt (runStore sha256 orjson call pair response ttl keys).2
    let later : State ω := { left with now := left.now + (now - call.releaseAt) }
    have hnow : later.now = now := Nat.add_sub_of_le hfrom
    have hadvance : AfterStep sha256 orjson pair left (.advance (now - call.releaseAt), none)
        later := ⟨step_of_transition (.advance _), trivial, by simp [Op.recorded],
          by simp [Op.dropped]⟩
    obtain ⟨labels, u, op, t, hcheck, hnew, hop, hsame⟩ := check_new_of_unreadable
      (s := later) (w := default) rfl
      (by rw [hnow]; exact Store.find_eq_none_of_le hfrom hmarker)
      (fun cached hcached => by
        rw [hnow] at hcached
        exact hunreadable cached ((Store.find_congr hrecord now).symm.trans hcached))
    refine hprocessed _ u t op _ default pair ((Run.single hadvance).trans hcheck) hnew hop rfl
      ?_ rfl
    rw [hsame, hnow]
    exact hbefore

/-! ## Main result -/

/-- A call of `store` raises, leaves the marker or keeps the operation from being
processed again exactly when a command is rejected, the record was written, the
live marker was not deleted, or an earlier record covers the ttl. -/
theorem completes_iff (ω : Type) [DecidableEq ω] [Inhabited ω] (sha256 : String → HexDigest)
    (orjson : Orjson J) (call : StoreCall) (pair : Pair) (response : J) (ttl : Option Int)
    (keys : Keyspace) :
    Completes sha256 orjson ω call pair response ttl keys ↔
      RejectedCall orjson call response ∨ RecordWritten orjson call response ttl ∨
        MarkerKept sha256 call pair keys ∨ CoveredBefore sha256 orjson call pair ttl keys := by
  refine ⟨condition_of_completes, ?_⟩
  rintro (hrejected | hwritten | hkept | hcovered)
  · exact .inl (runStore_rejected hrejected)
  · exact completes_of_written hwritten
  · exact completes_of_markerKept hkept
  · exact completes_of_covered hcovered

end

def lostRecord : StoreCall := ⟨.failed, 1000, .answered, 1000, by decide⟩

def markedKeys : Keyspace := (next evtDigest boolJson start (.lua 0 evtPair .answered)).keys

/-- The call returns, and a second later the operation is `NEW` again. -/
theorem lost_record_reprocessed :
    (runStore evtDigest boolJson lostRecord evtPair true none markedKeys).1 = .ok () ∧
      (checkLua evtDigest boolJson .answered 2000 evtPair
        (runStore evtDigest boolJson lostRecord evtPair true none markedKeys).2).1 =
          .returns ⟨.new, none⟩ ∧
      ¬ Completes evtDigest boolJson Nat lostRecord evtPair true none markedKeys := by
  refine ⟨rfl, by decide, fun hcompletes => ?_⟩
  rcases condition_of_completes hcompletes with hrejected | hwritten | hkept | hcovered
  · simp [RejectedCall, lostRecord] at hrejected
  · simp [RecordWritten, lostRecord, Fate.takesEffect] at hwritten
  · simp [MarkerKept, lostRecord] at hkept
  · obtain ⟨cached, hcached, -⟩ := hcovered 1000 (by decide) (by decide)
    have hnone : markedKeys.find 1000 (buildKey evtDigest evtPair) = none := by decide
    rw [hnone] at hcached
    cases hcached

end BackendProdReady.Idempotency.Completion
