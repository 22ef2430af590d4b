import BackendProdReady.Idempotency.Workers

/-!
# Exactly-once processing in timely runs

The assumptions under which the service keeps its promise: commands succeed, a
worker that got `NEW` ends with one terminal call before its marker expires, and
nobody else makes such calls.  Then the marker of a holder is the only one of
its operation, a holder's operation has no live record until it writes one, and
that record answers every check until it expires.
-/

namespace BackendProdReady.Idempotency.ExactlyOnce

open BackendProdReady.Lib.ExpiringStore
open BackendProdReady.Lib.Runs
open BackendProdReady.Cache.Operations (Keyspace Fate validSeconds deadline)
open BackendProdReady.Idempotency.Keys
open BackendProdReady.Idempotency.Service
open BackendProdReady.Idempotency.Workers

/-! ## The assumptions -/

section

variable {ω J : Type} [DecidableEq ω] (sha256 : String → HexDigest) (orjson : Orjson J)

/-- What a step of a timely run may be. -/
def Disciplined (s : State ω) (label : Op ω J × Option (IdempotencyResult J))
    (_ : State ω) : Prop :=
  match label.1 with
  | .advance ms => ∀ w pair since, (s.phase w pair).heldSince = some since →
      s.now + ms < since + inProgressMs
  | .lua _ _ fate | .read _ _ fate | .acquire _ _ fate | .storeRelease _ _ fate =>
      fate = .answered
  | .ping _ _ pong => pong = true
  | .storeRecord w pair response ttl fate =>
      fate = .answered ∧ (∃ since, s.phase w pair = .working since) ∧
        (orjson.dumps response).isSome ∧ (∀ seconds, ttl = some seconds → 0 < seconds) ∧
        validSeconds (effectiveTtl ttl) = true
  | .clearInProgress w pair fate =>
      fate = .answered ∧ ∃ since, s.phase w pair = .working since
  | .invalidateRecord _ _ _ | .invalidateMarker _ _ _ => False

abbrev TimelyStep : State ω → Op ω J × Option (IdempotencyResult J) → State ω → Prop :=
  Guarded (Disciplined orjson) (Step sha256 orjson)

/-- No record, no marker, and nobody inside a call. -/
def Initial (s : State ω) : Prop :=
  (∀ w pair, s.phase w pair = .idle) ∧
    ∀ pair, s.keys (buildKey sha256 pair) = none ∧
      s.keys (buildInProgressKey sha256 pair) = none

/-! ## The invariant -/

structure Inv (s : State ω) : Prop where
  outside : ∀ w pair, s.phase w pair = .idle ∨
    ∃ since, (s.phase w pair).heldSince = some since
  marked : ∀ w pair since, (s.phase w pair).heldSince = some since →
    s.keys (buildInProgressKey sha256 pair) = some (markerEntry since) ∧
      s.now < since + inProgressMs
  exclusive : ∀ w v pair other since later, (s.phase w pair).heldSince = some since →
    (s.phase v other).heldSince = some later → buildKey sha256 pair = buildKey sha256 other →
    w = v ∧ pair = other
  encoded : ∀ pair entry, s.keys (buildKey sha256 pair) = some entry →
    ∃ response, orjson.dumps response = some entry.value
  unrecorded : ∀ w pair since, s.phase w pair = .working since →
    s.keys.find s.now (buildKey sha256 pair) = none

end

section

variable {ω J : Type} [DecidableEq ω] {sha256 : String → HexDigest} {orjson : Orjson J}
  {s t : State ω}

omit [DecidableEq ω] in
theorem inv_initial (h : Initial sha256 s) : Inv sha256 orjson s where
  outside w pair := .inl (h.1 w pair)
  marked w pair since hheld := by simp [h.1 w pair, Phase.heldSince] at hheld
  exclusive w v pair other since later hheld := by simp [h.1 w pair, Phase.heldSince] at hheld
  encoded pair entry hentry := by simp [(h.2 pair).1] at hentry
  unrecorded w pair since hphase := by simp [h.1 w pair] at hphase

omit [DecidableEq ω] in
theorem inv_advance (h : Inv sha256 orjson s) {ms : Nat}
    (htimely : ∀ w pair since, (s.phase w pair).heldSince = some since →
      s.now + ms < since + inProgressMs) :
    Inv sha256 orjson { s with now := s.now + ms } where
  outside := h.outside
  marked w pair since hheld := ⟨(h.marked w pair since hheld).1, htimely w pair since hheld⟩
  exclusive := h.exclusive
  encoded := h.encoded
  unrecorded w pair since hphase :=
    Store.find_eq_none_of_le (Nat.le_add_right _ _) (h.unrecorded w pair since hphase)

omit [DecidableEq ω] in
theorem Inv.find_marker (h : Inv sha256 orjson s) {w : ω} {pair : Pair} {since : Nat}
    (hheld : (s.phase w pair).heldSince = some since) :
    s.keys.find s.now (buildInProgressKey sha256 pair) = some "1" := by
  obtain ⟨hmarker, hnow⟩ := h.marked w pair since hheld
  exact Store.find_of_live hmarker ((Entry.live_iff rfl _).mpr (by omega))

/-- A move of one worker to `phase` keeps the invariant when the keys it leaves
serve both that worker and the other holders. -/
theorem inv_move (h : Inv sha256 orjson s) {w : ω} {pair : Pair} {phase : Phase}
    {keys : Keyspace} (houtside : phase = .idle ∨ ∃ since, phase.heldSince = some since)
    (hmarked : ∀ since, phase.heldSince = some since →
      keys (buildInProgressKey sha256 pair) = some (markerEntry since) ∧
        s.now < since + inProgressMs)
    (hfree : phase.heldSince ≠ none → ∀ v other since, ¬ (v = w ∧ other = pair) →
      (s.phase v other).heldSince = some since → buildKey sha256 other ≠ buildKey sha256 pair)
    (hkept : ∀ v other since, ¬ (v = w ∧ other = pair) →
      (s.phase v other).heldSince = some since →
      keys (buildInProgressKey sha256 other) = s.keys (buildInProgressKey sha256 other))
    (hencoded : ∀ other entry, keys (buildKey sha256 other) = some entry →
      ∃ response, orjson.dumps response = some entry.value)
    (hunrecorded : ∀ since, phase = .working since →
      keys.find s.now (buildKey sha256 pair) = none)
    (hrecords : ∀ v other since, ¬ (v = w ∧ other = pair) →
      s.phase v other = .working since →
      keys (buildKey sha256 other) = s.keys (buildKey sha256 other)) :
    Inv sha256 orjson ((s.setKeys keys).setPhase w pair phase) := by
  refine ⟨fun v other => ?_, fun v other since hheld => ?_, ?_, hencoded,
    fun v other since hworking => ?_⟩
  · by_cases hself : v = w ∧ other = pair
    · obtain ⟨rfl, rfl⟩ := hself
      rw [State.setPhase_self]
      exact houtside
    · rw [State.setPhase_of_ne hself]
      exact h.outside v other
  · by_cases hself : v = w ∧ other = pair
    · obtain ⟨rfl, rfl⟩ := hself
      rw [State.setPhase_self] at hheld
      exact hmarked since hheld
    · rw [State.setPhase_of_ne hself] at hheld
      obtain ⟨hmarker, hnow⟩ := h.marked v other since hheld
      exact ⟨(hkept v other since hself hheld).trans hmarker, hnow⟩
  · intro u v first second since later hu hv hsame
    by_cases hself : u = w ∧ first = pair <;> by_cases hother : v = w ∧ second = pair
    · exact ⟨hself.1.trans hother.1.symm, hself.2.trans hother.2.symm⟩
    · obtain ⟨rfl, rfl⟩ := hself
      rw [State.setPhase_self] at hu
      rw [State.setPhase_of_ne hother] at hv
      exact absurd hsame.symm (hfree (by simp [hu]) v second later hother hv)
    · obtain ⟨rfl, rfl⟩ := hother
      rw [State.setPhase_self] at hv
      rw [State.setPhase_of_ne hself] at hu
      exact absurd hsame (hfree (by simp [hv]) u first since hself hu)
    · rw [State.setPhase_of_ne hself] at hu
      rw [State.setPhase_of_ne hother] at hv
      exact h.exclusive u v first second since later hu hv hsame
  · by_cases hself : v = w ∧ other = pair
    · obtain ⟨rfl, rfl⟩ := hself
      rw [State.setPhase_self] at hworking
      exact hunrecorded since hworking
    · rw [State.setPhase_of_ne hself] at hworking
      exact (Store.find_congr (hrecords v other since hself hworking) _).trans
        (h.unrecorded v other since hworking)

omit [DecidableEq ω] in
theorem Inv.ne_of_other (h : Inv sha256 orjson s) {w v : ω} {pair other : Pair}
    {since later : Nat} (hheld : (s.phase w pair).heldSince = some since)
    (hother : (s.phase v other).heldSince = some later) (hne : ¬ (v = w ∧ other = pair)) :
    buildKey sha256 other ≠ buildKey sha256 pair := fun hsame =>
  hne (h.exclusive v w other pair later since hother hheld hsame)

/-- `NEW`: there is no live marker, so nobody holds the operation. -/
theorem inv_acquired (h : Inv sha256 orjson s) {w : ω} {pair : Pair}
    (hrecord : s.keys.find s.now (buildKey sha256 pair) = none)
    (hmarker : s.keys.find s.now (buildInProgressKey sha256 pair) = none) :
    Inv sha256 orjson
      ((s.setKeys (s.keys.put (buildInProgressKey sha256 pair) (markerEntry s.now))).setPhase
        w pair (.working s.now)) := by
  have hfree : ∀ v other since, (s.phase v other).heldSince = some since →
      buildKey sha256 other ≠ buildKey sha256 pair := by
    intro v other since hheld hsame
    have hlive := h.find_marker hheld
    rw [(buildInProgressKey_inj sha256).mpr hsame, hmarker] at hlive
    cases hlive
  have hrecords : ∀ other,
      s.keys.put (buildInProgressKey sha256 pair) (markerEntry s.now) (buildKey sha256 other) =
        s.keys (buildKey sha256 other) := fun other =>
    Store.put_of_ne (buildKey_ne_buildInProgressKey sha256 other pair) _ _
  refine inv_move h (.inr ⟨s.now, rfl⟩) (fun since hsince => ?_)
    (fun _ v other since _ hheld => hfree v other since hheld) (fun v other since _ hheld => ?_)
    (fun other entry hentry => h.encoded other entry ((hrecords other).symm.trans hentry))
    (fun since _ => (Store.find_congr (hrecords pair) _).trans hrecord)
    (fun v other since _ _ => hrecords other)
  · obtain rfl : s.now = since := Option.some.inj hsince
    exact ⟨Store.put_self _ _ _, by simp [inProgressMs]⟩
  · have hne : buildInProgressKey sha256 other ≠ buildInProgressKey sha256 pair :=
      fun hsame => hfree v other since hheld ((buildInProgressKey_inj sha256).mp hsame)
    exact Store.put_of_ne hne _ _

theorem inv_stored (h : Inv sha256 orjson s) {w : ω} {pair : Pair} {since : Nat}
    (hphase : s.phase w pair = .working since) {entry : Entry String}
    (hencoded : ∃ response, orjson.dumps response = some entry.value) :
    Inv sha256 orjson
      ((s.setKeys (s.keys.put (buildKey sha256 pair) entry)).setPhase w pair
        (.storing (some since))) := by
  have hholder : (s.phase w pair).heldSince = some since := by rw [hphase, Phase.heldSince]
  have hmarkers : ∀ other,
      s.keys.put (buildKey sha256 pair) entry (buildInProgressKey sha256 other) =
        s.keys (buildInProgressKey sha256 other) := fun other =>
    Store.put_of_ne (buildKey_ne_buildInProgressKey sha256 pair other).symm _ _
  refine inv_move h (.inr ⟨since, rfl⟩) (fun later hlater => ?_)
    (fun _ v other later hne hheld => h.ne_of_other hholder hheld hne)
    (fun v other later _ _ => hmarkers other) (fun other e hentry => ?_)
    (fun later hworking => by cases hworking) (fun v other later hne hworking => ?_)
  · obtain rfl : since = later := Option.some.inj hlater
    obtain ⟨hmarker, hnow⟩ := h.marked w pair since hholder
    exact ⟨(hmarkers pair).trans hmarker, hnow⟩
  · by_cases hsame : buildKey sha256 other = buildKey sha256 pair
    · rw [hsame, Store.put_self, Option.some.injEq] at hentry
      exact hentry ▸ hencoded
    · rw [Store.put_of_ne hsame] at hentry
      exact h.encoded other e hentry
  · have hheld : (s.phase v other).heldSince = some later := by rw [hworking, Phase.heldSince]
    exact Store.put_of_ne (h.ne_of_other hholder hheld hne) _ _

/-- The holder's terminal call ends: its marker goes, and it is the only holder. -/
theorem inv_released (h : Inv sha256 orjson s) {w : ω} {pair : Pair} {since : Nat}
    (hholder : (s.phase w pair).heldSince = some since) :
    Inv sha256 orjson
      ((s.setKeys (s.keys.remove (buildInProgressKey sha256 pair))).setPhase w pair .idle) := by
  have hrecords : ∀ other, s.keys.remove (buildInProgressKey sha256 pair)
      (buildKey sha256 other) = s.keys (buildKey sha256 other) := fun other =>
    Store.remove_of_ne (buildKey_ne_buildInProgressKey sha256 other pair) _
  refine inv_move h (.inl rfl) (fun later hlater => by cases hlater)
    (fun hheld => absurd rfl hheld) (fun v other later hne hheld => ?_)
    (fun other e hentry => h.encoded other e ((hrecords other).symm.trans hentry))
    (fun later hworking => by cases hworking) (fun v other later _ _ => hrecords other)
  have hkey : buildInProgressKey sha256 other ≠ buildInProgressKey sha256 pair := fun hsame =>
    h.ne_of_other hholder hheld hne ((buildInProgressKey_inj sha256).mp hsame)
  exact Store.remove_of_ne hkey _

/-! ## One check -/

omit [DecidableEq ω] in
/-- A record that was encoded answers the check with an equal encoding. -/
theorem checkLua_recorded (h : Inv sha256 orjson s) {pair : Pair} {entry : Entry String}
    (hentry : s.keys (buildKey sha256 pair) = some entry) (hlive : entry.live s.now = true) :
    ∃ response, orjson.dumps response = some entry.value ∧
      checkLua sha256 orjson .answered s.now pair s.keys =
        (.returns ⟨.duplicate, some response⟩, s.keys) := by
  obtain ⟨stored, hstored⟩ := h.encoded pair entry hentry
  obtain ⟨response, hloads, hdumps⟩ := orjson.loads_dumps stored entry.value hstored
  have hne : entry.value ≠ "" := fun hempty => by
    rw [hempty, orjson.loads_empty] at hloads
    cases hloads
  refine ⟨response, hdumps, ?_⟩
  rw [checkLua_answered, Store.find_of_live hentry hlive]
  simp [afterLua, hne, hloads]

omit [DecidableEq ω] in
/-- In a timely run no worker is inside a check or an `invalidate` call. -/
theorem Inv.not_inside (h : Inv sha256 orjson s) {w : ω} {pair : Pair} {phase : Phase}
    (hphase : s.phase w pair = phase) (hne : phase ≠ .idle) (hfree : phase.heldSince = none) :
    False := by
  rcases h.outside w pair with hidle | ⟨since, hheld⟩
  · exact hne (hphase ▸ hidle)
  · rw [hphase, hfree] at hheld
    cases hheld

/-- A check that leaves the keys alone and does not return `NEW` changes nothing. -/
theorem checkStep_unchanged {w : ω} {pair : Pair} {next : Next J}
    (hphase : s.phase w pair = .idle) (hnext : phaseAfter s.now next = .idle) :
    (checkStep s w pair (next, s.keys)).1 = s := by
  change (s.setKeys s.keys).setPhase w pair (phaseAfter s.now next) = s
  rw [hnext]
  exact State.setPhase_eq_self hphase

theorem inv_checked (h : Inv sha256 orjson s) {w : ω} {pair : Pair}
    (hphase : s.phase w pair = .idle) :
    Inv sha256 orjson
      (checkStep s w pair (checkLua sha256 orjson .answered s.now pair s.keys)).1 := by
  cases hrecord : s.keys.find s.now (buildKey sha256 pair) with
  | some cached =>
      obtain ⟨entry, hentry, hlive, -⟩ := Store.find_eq_some hrecord
      obtain ⟨response, -, hrun⟩ := checkLua_recorded h hentry hlive
      rw [hrun, checkStep_unchanged hphase rfl]
      exact h
  | none =>
      cases hmarker : s.keys.find s.now (buildInProgressKey sha256 pair) with
      | some value =>
          have hrun : checkLua sha256 orjson .answered s.now pair s.keys =
              (.returns ⟨.inProgress, none⟩, s.keys) := by
            rw [checkLua_answered, hrecord, hmarker]
            rfl
          rw [hrun, checkStep_unchanged hphase rfl]
          exact h
      | none =>
          rw [checkLua_answered, hrecord, hmarker]
          exact inv_acquired h hrecord hmarker

theorem inv_step {op : Op ω J} {result : Option (IdempotencyResult J)}
    (h : Inv sha256 orjson s) (hstep : TimelyStep sha256 orjson s (op, result) t) :
    Inv sha256 orjson t := by
  obtain ⟨hstep, hallowed⟩ := hstep
  cases step_cases hstep with
  | advance ms => exact inv_advance h hallowed
  | lua hphase hrun =>
      obtain rfl := (hallowed : _ = Fate.answered)
      subst hrun
      exact inv_checked h hphase
  | ping hphase =>
      exact (h.not_inside hphase (by decide) rfl).elim
  | read hphase hrun =>
      exact (h.not_inside hphase (by decide) rfl).elim
  | acquire hphase hrun =>
      exact (h.not_inside hphase (by decide) rfl).elim
  | storeRecord hphase hrun =>
      obtain ⟨rfl, ⟨since, hworking⟩, hdumps, -, hvalid⟩ := hallowed
      obtain ⟨serialized, hserialized⟩ := Option.isSome_iff_exists.mp hdumps
      rw [hworking, callable] at hphase
      obtain rfl := Option.some.inj hphase
      subst hrun
      rw [storeRecord_answered sha256 orjson hserialized hvalid]
      exact inv_stored h hworking ⟨_, hserialized⟩
  | storeRelease hphase hrun =>
      obtain rfl := (hallowed : _ = Fate.answered)
      subst hrun
      rw [releaseMarker_answered]
      rcases h.outside _ _ with hidle | ⟨since, hheld⟩
      · rw [hphase] at hidle
        cases hidle
      · exact inv_released h hheld
  | clearInProgress hphase hrun =>
      obtain ⟨rfl, since, hworking⟩ := hallowed
      subst hrun
      rw [releaseMarker_answered]
      exact inv_released h (by rw [hworking, Phase.heldSince])
  | invalidateRecord hphase hrun => exact hallowed.elim
  | invalidateMarker hphase hrun => exact hallowed.elim

theorem inv_run {labels : List (Op ω J × Option (IdempotencyResult J))}
    (h : Inv sha256 orjson s) (hrun : Run (TimelyStep sha256 orjson) s labels t) :
    Inv sha256 orjson t :=
  hrun.invariant (fun _ _ _ hs hstep => inv_step hs hstep) h

/-! ## Runs after a record was written -/

/-- A live record is not rewritten: only a holder could, and an operation with a
live record has no holder at work. -/
theorem record_step {pair : Pair} {entry : Entry String} {expiry : Nat} {op : Op ω J}
    {result : Option (IdempotencyResult J)} (hexpiry : entry.expiry = some expiry)
    (h : Inv sha256 orjson s) (hstep : TimelyStep sha256 orjson s (op, result) t)
    (hentry : s.keys (buildKey sha256 pair) = some entry) (hnow : s.now ≤ expiry) :
    t.keys (buildKey sha256 pair) = some entry := by
  refine step_record hstep.1 hentry (fun other hop hsame => ?_) (fun other hop => ?_)
  · cases op <;> cases hop
    obtain ⟨-, ⟨since, hworking⟩, -⟩ := hstep.2
    have hnone := h.unrecorded _ _ since hworking
    rw [hsame, Store.find_of_live hentry ((Entry.live_iff hexpiry _).mpr hnow)] at hnone
    cases hnone
  · cases op with
    | invalidateRecord w other fate => exact hstep.2.elim
    | _ => cases hop

theorem record_run {pair : Pair} {entry : Entry String} {expiry : Nat}
    {labels : List (Op ω J × Option (IdempotencyResult J))}
    (hexpiry : entry.expiry = some expiry) (h : Inv sha256 orjson s)
    (hrun : Run (TimelyStep sha256 orjson) s labels t)
    (hentry : s.keys (buildKey sha256 pair) = some entry) (hnow : t.now ≤ expiry) :
    t.keys (buildKey sha256 pair) = some entry := by
  induction hrun with
  | refl => exact hentry
  | tail hpre hstep ih =>
      have hbefore := step_now_le hstep.1
      exact record_step hexpiry (inv_run h hpre) hstep (ih (by omega)) (by omega)

theorem check_recorded {pair other : Pair} {entry : Entry String} {expiry : Nat} {w : ω}
    {op : Op ω J} {result : Option (IdempotencyResult J)} (hexpiry : entry.expiry = some expiry)
    (h : Inv sha256 orjson s) (hentry : s.keys (buildKey sha256 pair) = some entry)
    (hnow : s.now ≤ expiry) (hstep : TimelyStep sha256 orjson s (op, result) t)
    (hop : op.checker = some (w, other)) (hsame : buildKey sha256 other = buildKey sha256 pair) :
    ∃ response, result = some ⟨.duplicate, some response⟩ ∧
      orjson.dumps response = some entry.value := by
  obtain ⟨hstep, hallowed⟩ := hstep
  cases step_cases hstep with
  | lua hphase hrun =>
      obtain rfl := (hallowed : _ = Fate.answered)
      obtain ⟨-, rfl⟩ := Prod.mk.inj (Option.some.inj hop)
      have hlive := (Entry.live_iff hexpiry s.now).mpr hnow
      obtain ⟨response, hdumps, hreturns⟩ := checkLua_recorded h (hsame ▸ hentry) hlive
      refine ⟨response, ?_, hdumps⟩
      rw [hrun, hreturns]
      rfl
  | ping hphase => exact (h.not_inside hphase (by decide) rfl).elim
  | read hphase hrun => exact (h.not_inside hphase (by decide) rfl).elim
  | acquire hphase hrun => exact (h.not_inside hphase (by decide) rfl).elim
  | _ => cases hop

/-! ## Main result -/

/-- In every state of a timely run an operation has at most one holder, and from
the instant a holder's record is written until its ttl has elapsed every check
of the operation returns `DUPLICATE` with a response of the same encoding. -/
theorem exactly_once {s₀ : State ω} {labels : List (Op ω J × Option (IdempotencyResult J))}
    (hinit : Initial sha256 s₀) (hrun : Run (TimelyStep sha256 orjson) s₀ labels s) :
    (∀ w v pair other since later, (s.phase w pair).heldSince = some since →
      (s.phase v other).heldSince = some later → buildKey sha256 pair = buildKey sha256 other →
      w = v) ∧
    ∀ w pair response ttl stored, TimelyStep sha256 orjson s
        (.storeRecord w pair response ttl .answered, none) stored →
      ∀ later before, Run (TimelyStep sha256 orjson) stored later before →
        before.now ≤ deadline s.now (effectiveTtl ttl) →
        ∀ v other op result after, TimelyStep sha256 orjson before (op, result) after →
          op.checker = some (v, other) → buildKey sha256 other = buildKey sha256 pair →
          ∃ cached, result = some ⟨.duplicate, some cached⟩ ∧
            orjson.dumps cached = orjson.dumps response := by
  have hstart : Inv sha256 orjson s₀ := inv_initial hinit
  have hinv := inv_run hstart hrun
  refine ⟨fun w v pair other since later hw hv hsame =>
    (hinv.exclusive w v pair other since later hw hv hsame).1, ?_⟩
  intro w pair response ttl stored hstore later before hlater htime v other op result after
    hcheck hop hsame
  obtain ⟨-, -, hdumps, -, hvalid⟩ := hstore.2
  obtain ⟨serialized, hserialized⟩ := Option.isSome_iff_exists.mp hdumps
  have hrecord : stored.keys (buildKey sha256 pair) =
      some ⟨serialized, some (deadline s.now (effectiveTtl ttl))⟩ := by
    cases step_cases hstore.1 with
    | storeRecord hphase hrun =>
        rw [storeRecord_answered sha256 orjson hserialized hvalid] at hrun
        subst hrun
        exact Store.put_self _ _ _
  have hkept := record_run rfl (inv_step hinv hstore) hlater hrecord htime
  obtain ⟨cached, hresult, hcached⟩ :=
    check_recorded rfl (inv_run (inv_step hinv hstore) hlater) hkept htime hcheck hop hsame
  exact ⟨cached, hresult, hcached.trans hserialized.symm⟩

end

theorem initial_start : Initial evtDigest start := ⟨fun _ _ => rfl, fun _ => ⟨rfl, rfl⟩⟩

/-- Worker 1 checks between the two commands of the `store` call of worker 0. -/
theorem exactly_once_during_store :
    ∃ before after : State Nat, ∃ cached,
      before.phase 0 evtPair = .storing (some 0) ∧
      TimelyStep evtDigest boolJson before
        (.lua 1 evtPair .answered, some ⟨.duplicate, some cached⟩) after ∧
      boolJson.dumps cached = boolJson.dumps true := by
  let created := next evtDigest boolJson start (.lua 0 evtPair .answered)
  let stored := next evtDigest boolJson created (.storeRecord 0 evtPair true none .answered)
  let checked := next evtDigest boolJson stored (.lua 1 evtPair .answered)
  have hnew : TimelyStep evtDigest boolJson start
      (.lua 0 evtPair .answered, some ⟨.new, none⟩) created :=
    ⟨reaction_afterEvent (by decide), rfl⟩
  have hstore : TimelyStep evtDigest boolJson created
      (.storeRecord 0 evtPair true none .answered, none) stored :=
    ⟨reaction_afterEvent (by decide), rfl, ⟨0, by decide⟩, rfl, by simp, by decide⟩
  have hcheck : TimelyStep evtDigest boolJson stored
      (.lua 1 evtPair .answered, some ⟨.duplicate, some true⟩) checked :=
    ⟨reaction_afterEvent (by decide), rfl⟩
  obtain ⟨cached, hresult, hdumps⟩ := (exactly_once initial_start (.single hnew)).2 _ _ _ _ _
    hstore _ _ (.refl _) (by decide) _ _ _ _ _ hcheck rfl rfl
  rw [hresult] at hcheck
  exact ⟨stored, checked, cached, by decide, hcheck, hdumps⟩

end BackendProdReady.Idempotency.ExactlyOnce
