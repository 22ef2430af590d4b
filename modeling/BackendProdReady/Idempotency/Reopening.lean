import BackendProdReady.Idempotency.Workers

/-!
# Reopening an operation

`invalidate` deletes the record first and the marker second.  A check between
the two finds no record and acquires the operation, and the second delete then
takes its marker away, so that another check acquires it as well.
-/

namespace BackendProdReady.Idempotency.Reopening

open BackendProdReady.Lib.ExpiringStore
open BackendProdReady.Lib.Runs
open BackendProdReady.Idempotency.Keys
open BackendProdReady.Idempotency.Service
open BackendProdReady.Idempotency.Workers

section

variable {ω J : Type} [DecidableEq ω] {sha256 : String → HexDigest} {orjson : Orjson J}

/-- The operations of one `invalidate` by `w`, of checks by other workers, and the
clock. -/
def Interleaved (w : ω) (pair : Pair) : Op ω J → Prop
  | .advance _ => True
  | .lua v other _ | .ping v other _ | .read v other _ | .acquire v other _ =>
      v ≠ w ∧ other = pair
  | .invalidateRecord v other _ | .invalidateMarker v other _ => v = w ∧ other = pair
  | _ => False

def isNew (sha256 : String → HexDigest) (pair : Pair)
    (label : Op ω J × Option (IdempotencyResult J)) : Bool :=
  match label.1.checker, label.2 with
  | some (_, other), some result =>
      result.status = .new ∧ buildKey sha256 other = buildKey sha256 pair
  | _, _ => false

/-- A command that deletes the operation's marker finds no live one. -/
def ReleasesNoLiveMarker (sha256 : String → HexDigest) (pair : Pair) (s : State ω)
    (label : Op ω J × Option (IdempotencyResult J)) (_ : State ω) : Prop :=
  ∀ other, label.1.released = some other → buildKey sha256 other = buildKey sha256 pair →
    s.keys.find s.now (buildInProgressKey sha256 pair) = none

/-! ## One step -/

omit [DecidableEq ω] in
theorem isNew_eq_true {pair : Pair} {label : Op ω J × Option (IdempotencyResult J)}
    (h : isNew sha256 pair label = true) :
    ∃ w other response, label.1.checker = some (w, other) ∧
      label.2 = some ⟨.new, response⟩ ∧ buildKey sha256 other = buildKey sha256 pair := by
  unfold isNew at h
  split at h
  · rename_i w other result hchecker hresult
    obtain ⟨hstatus, hsame⟩ := of_decide_eq_true h
    obtain ⟨status, response⟩ := result
    obtain rfl : status = .new := hstatus
    exact ⟨w, other, response, hchecker, hresult, hsame⟩
  · cases h

theorem step_isNew {s t : State ω} {label : Op ω J × Option (IdempotencyResult J)} {pair : Pair}
    (h : Step sha256 orjson s label t) (hnew : isNew sha256 pair label = true) :
    s.keys.find s.now (buildInProgressKey sha256 pair) = none ∧
      t.keys (buildInProgressKey sha256 pair) = some (markerEntry s.now) := by
  obtain ⟨op, result⟩ := label
  obtain ⟨w, other, response, hop, hresult, hsame⟩ := isNew_eq_true hnew
  obtain rfl : result = some ⟨.new, response⟩ := hresult
  rw [← (buildInProgressKey_inj sha256).mpr hsame]
  obtain ⟨hnone, hkeys, -⟩ := step_new h hop
  exact ⟨hnone, by rw [hkeys, Store.put_self]⟩

/-- A live marker outlasts a step that deletes no live one, and is not created again. -/
theorem step_live_marker {s t : State ω} {label : Op ω J × Option (IdempotencyResult J)}
    {pair : Pair} {created : Nat} (h : Step sha256 orjson s label t)
    (hguard : ReleasesNoLiveMarker sha256 pair s label t)
    (hmarker : s.keys (buildInProgressKey sha256 pair) = some (markerEntry created))
    (hnow : s.now ≤ created + inProgressMs) :
    isNew sha256 pair label = false ∧
      t.keys (buildInProgressKey sha256 pair) = some (markerEntry created) := by
  have hlive : (markerEntry created).live s.now = true := (Entry.live_iff rfl _).mpr hnow
  have hfind := Store.find_of_live hmarker hlive
  constructor
  · rw [← Bool.not_eq_true]
    intro hnew
    rw [(step_isNew h hnew).1] at hfind
    cases hfind
  · refine step_marker h hmarker hlive fun other hreleased hsame => ?_
    rw [hguard other hreleased hsame] at hfind
    cases hfind

/-! ## Main result -/

/-- Within the lifetime of a marker at most one check returns `NEW`, whatever else
runs, as long as no live marker of the operation is deleted. -/
theorem reopened_at_most_once {s t : State ω} {pair : Pair}
    {labels : List (Op ω J × Option (IdempotencyResult J))}
    (hrun : Run (Guarded (ReleasesNoLiveMarker sha256 pair) (Step sha256 orjson)) s labels t)
    (htime : t.now ≤ s.now + inProgressMs) :
    labels.countP (isNew sha256 pair) ≤ 1 := by
  -- after the first `NEW` its marker stands to the end of the run
  have hinv : labels.countP (isNew sha256 pair) = 0 ∨
      labels.countP (isNew sha256 pair) = 1 ∧ ∃ created, s.now ≤ created ∧
        t.keys (buildInProgressKey sha256 pair) = some (markerEntry created) := by
    induction hrun with
    | refl => exact .inl rfl
    | @tail u v pre label hpre hstep ih =>
        have hbefore : s.now ≤ u.now := run_now_le hpre.of_guarded
        have hafter : u.now ≤ v.now := step_now_le hstep.1
        rw [List.countP_append, List.countP_singleton]
        rcases ih (by omega) with hzero | ⟨hone, created, hcreated, hmarker⟩
        · cases hnew : isNew sha256 pair label with
          | false => exact .inl (by simp [hzero])
          | true =>
              exact .inr ⟨by simp [hzero], u.now, hbefore, (step_isNew hstep.1 hnew).2⟩
        · obtain ⟨hnew, hkept⟩ := step_live_marker hstep.1 hstep.2 hmarker (by omega)
          exact .inr ⟨by simp [hone, hnew], created, hcreated, hkept⟩
  rcases hinv with hzero | ⟨hone, -⟩
  · omega
  · omega

end

/-! ## Between the two deletes -/

def completed : State Nat :=
  let taken := next evtDigest boolJson start (.lua 0 evtPair .answered)
  let stored := next evtDigest boolJson taken (.storeRecord 0 evtPair true none .answered)
  next evtDigest boolJson stored (.storeRelease 0 evtPair .answered)

/-- Worker 1 checks after both deletes and worker 2 after it. -/
theorem reopened_at_most_once_after_invalidate :
    ∃ labels : List (Op Nat Bool × Option (IdempotencyResult Bool)), ∃ t : State Nat,
      Run (Step evtDigest boolJson) completed labels t ∧
      labels.countP (isNew evtDigest evtPair) = 1 ∧
      labels.countP (isNew evtDigest evtPair) ≤ 1 := by
  let dropped := next evtDigest boolJson completed (.invalidateRecord 0 evtPair .answered)
  let released := next evtDigest boolJson dropped (.invalidateMarker 0 evtPair .answered)
  let taken := next evtDigest boolJson released (.lua 1 evtPair .answered)
  let refused := next evtDigest boolJson taken (.lua 2 evtPair .answered)
  have hdrop : Step evtDigest boolJson completed
      (.invalidateRecord 0 evtPair .answered, none) dropped := reaction_afterEvent (by decide)
  have hrelease : Step evtDigest boolJson dropped
      (.invalidateMarker 0 evtPair .answered, none) released := reaction_afterEvent (by decide)
  have htake : Step evtDigest boolJson released
      (.lua 1 evtPair .answered, some ⟨.new, none⟩) taken := reaction_afterEvent (by decide)
  have hrefuse : Step evtDigest boolJson taken
      (.lua 2 evtPair .answered, some ⟨.inProgress, none⟩) refused :=
    reaction_afterEvent (by decide)
  have hrun : Run (Guarded (ReleasesNoLiveMarker evtDigest evtPair) (Step evtDigest boolJson))
      completed _ refused :=
    .tail (.tail (.tail (.single ⟨hdrop, by simp [ReleasesNoLiveMarker, Op.released]⟩)
      ⟨hrelease, fun _ _ _ => by decide⟩)
      ⟨htake, by simp [ReleasesNoLiveMarker, Op.released]⟩)
      ⟨hrefuse, by simp [ReleasesNoLiveMarker, Op.released]⟩
  exact ⟨_, refused, hrun.of_guarded, by decide, reopened_at_most_once hrun (by decide)⟩

/-- Worker 1 checks between the two deletes of worker 0, and worker 2 after them. -/
def checksAroundDeletes : List (Op Nat Bool × Option (IdempotencyResult Bool)) :=
  [(.invalidateRecord 0 evtPair .answered, none),
    (.lua 1 evtPair .answered, some ⟨.new, none⟩),
    (.invalidateMarker 0 evtPair .answered, none),
    (.lua 2 evtPair .answered, some ⟨.new, none⟩)]

/-- Both checks acquire the operation, at the instant of the invalidation. -/
theorem reopened_twice :
    (completed.keys.find completed.now (buildKey evtDigest evtPair)).isSome = true ∧
      completed.keys.find completed.now (buildInProgressKey evtDigest evtPair) = none ∧
      (∀ label ∈ checksAroundDeletes, Interleaved 0 evtPair label.1) ∧
      ∃ t : State Nat, Run (Step evtDigest boolJson) completed checksAroundDeletes t ∧
        t.now = completed.now ∧
        checksAroundDeletes.countP (isNew evtDigest evtPair) = 2 := by
  let dropped := next evtDigest boolJson completed (.invalidateRecord 0 evtPair .answered)
  let taken := next evtDigest boolJson dropped (.lua 1 evtPair .answered)
  let released := next evtDigest boolJson taken (.invalidateMarker 0 evtPair .answered)
  let again := next evtDigest boolJson released (.lua 2 evtPair .answered)
  have hdrop : Step evtDigest boolJson completed
      (.invalidateRecord 0 evtPair .answered, none) dropped := reaction_afterEvent (by decide)
  have htake : Step evtDigest boolJson dropped
      (.lua 1 evtPair .answered, some ⟨.new, none⟩) taken := reaction_afterEvent (by decide)
  have hrelease : Step evtDigest boolJson taken
      (.invalidateMarker 0 evtPair .answered, none) released := reaction_afterEvent (by decide)
  have hagain : Step evtDigest boolJson released
      (.lua 2 evtPair .answered, some ⟨.new, none⟩) again := reaction_afterEvent (by decide)
  have hrun : Run (Step evtDigest boolJson) completed checksAroundDeletes again :=
    .tail (.tail (.tail (.single hdrop) htake) hrelease) hagain
  exact ⟨by decide, by decide, by simp [checksAroundDeletes, Interleaved], again, hrun,
    by decide, by decide⟩

end BackendProdReady.Idempotency.Reopening
