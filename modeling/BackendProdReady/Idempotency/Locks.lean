import BackendProdReady.Idempotency.Workers

/-!
# How long a lock is held

A marker carries no owner: `store` and `clear_in_progress` delete whatever
marker stands under the key.  So a worker that got `NEW` keeps the operation for
the lifetime of its marker unless some such call deletes it, and a late call of
an earlier holder is enough for that.
-/

namespace BackendProdReady.Idempotency.Locks

open BackendProdReady.Lib.ExpiringStore
open BackendProdReady.Lib.Runs
open BackendProdReady.Cache.Operations (Fate)
open BackendProdReady.Idempotency.Keys
open BackendProdReady.Idempotency.Service
open BackendProdReady.Idempotency.Workers

section

variable {ω J : Type} [DecidableEq ω] {sha256 : String → HexDigest} {orjson : Orjson J}

/-- While the clock is before its expiry, a marker outlasts every run that does
not delete it. -/
theorem run_marker {pair : Pair} {entry : Entry String} {expiry : Nat}
    (hexpiry : entry.expiry = some expiry) {s t : State ω}
    {labels : List (Op ω J × Option (IdempotencyResult J))}
    (hrun : Run (Step sha256 orjson) s labels t)
    (hkept : ∀ label ∈ labels, ∀ other, label.1.released = some other →
      buildKey sha256 other ≠ buildKey sha256 pair)
    (hentry : s.keys (buildInProgressKey sha256 pair) = some entry)
    (hnow : t.now ≤ expiry) :
    t.keys (buildInProgressKey sha256 pair) = some entry := by
  induction hrun with
  | refl => exact hentry
  | tail hpre hstep ih =>
      rename_i u v pre label
      have hbefore := step_now_le hstep
      have hmarker := ih (fun l hl => hkept l (by simp [hl])) (by omega)
      have hlive : entry.live u.now = true := (Entry.live_iff hexpiry _).mpr (by omega)
      exact step_marker hstep hmarker hlive (hkept label (by simp))

/-- From the instant a check returns `NEW`, and for the lifetime of its marker,
no check of the operation returns `NEW` as long as no call deletes the marker. -/
theorem lock_kept {s₁ s₂ s₃ s₄ : State ω} {b c : ω} {pair other : Pair} {op₁ op₂ : Op ω J}
    {response : Option J} {result : IdempotencyResult J}
    {labels : List (Op ω J × Option (IdempotencyResult J))}
    (hnew : Step sha256 orjson s₁ (op₁, some ⟨.new, response⟩) s₂)
    (hop₁ : op₁.checker = some (b, pair))
    (hrun : Run (Step sha256 orjson) s₂ labels s₃)
    (hkept : ∀ label ∈ labels, ∀ released, label.1.released = some released →
      buildKey sha256 released ≠ buildKey sha256 pair)
    (htime : s₃.now < s₁.now + inProgressMs)
    (hcheck : Step sha256 orjson s₃ (op₂, some result) s₄)
    (hop₂ : op₂.checker = some (c, other))
    (hsame : buildKey sha256 other = buildKey sha256 pair) :
    result.status ≠ .new := by
  intro hstatus
  obtain ⟨-, hkeys, -⟩ := step_new hnew hop₁
  have hcreated : s₂.keys (buildInProgressKey sha256 pair) = some (markerEntry s₁.now) := by
    rw [hkeys, Store.put_self]
  have hmarker : s₃.keys (buildInProgressKey sha256 pair) = some (markerEntry s₁.now) :=
    run_marker rfl hrun hkept hcreated (by omega)
  have hlive : (markerEntry s₁.now).live s₃.now = true :=
    (Entry.live_iff rfl _).mpr (by omega)
  obtain ⟨status, cached⟩ := result
  obtain rfl : status = .new := hstatus
  obtain ⟨hnone, -, -⟩ := step_new hcheck hop₂
  rw [(buildInProgressKey_inj sha256).mpr hsame, Store.find_of_live hmarker hlive] at hnone
  cases hnone

end

/-- A second check one second before the marker expires. -/
theorem lock_kept_299_seconds :
    ∃ s t : State Nat, ∃ r, s.now = 299000 ∧ r.status ≠ .new ∧
      Step evtDigest boolJson s (.lua 1 evtPair .answered, some r) t := by
  let created := next evtDigest boolJson start (.lua 0 evtPair .answered)
  let waited := next evtDigest boolJson created (.advance 299000)
  have hnew : Step evtDigest boolJson start (.lua 0 evtPair .answered, some ⟨.new, none⟩)
      created := reaction_afterEvent (by decide)
  have hwait : Step evtDigest boolJson created (.advance 299000, none) waited :=
    reaction_afterEvent (by decide)
  have hcheck : Step evtDigest boolJson waited
      (.lua 1 evtPair .answered, some ⟨.inProgress, none⟩)
      (next evtDigest boolJson waited (.lua 1 evtPair .answered)) := reaction_afterEvent (by decide)
  have hkept := lock_kept hnew rfl (.single hwait) (by simp [Op.released]) (by decide)
    hcheck rfl rfl
  exact ⟨waited, _, _, by decide, hkept, hcheck⟩

/-- Worker 0 outlives its marker, worker 1 acquires the operation, the late
`clear_in_progress` of worker 0 deletes the marker of worker 1, and worker 2
gets `NEW` as well. -/
theorem late_clear_releases_lock :
    ∃ s₁ s₂ s₃ s₄ : State Nat, ∃ labels,
      Run (Step evtDigest boolJson) start labels s₁ ∧
      Step evtDigest boolJson s₁ (.lua 1 evtPair .answered, some ⟨.new, none⟩) s₂ ∧
      Step evtDigest boolJson s₂ (.clearInProgress 0 evtPair .answered, none) s₃ ∧
      s₃.phase 1 evtPair = .working s₁.now ∧ s₃.now < s₁.now + inProgressMs ∧
      Step evtDigest boolJson s₃ (.lua 2 evtPair .answered, some ⟨.new, none⟩) s₄ := by
  let created := next evtDigest boolJson start (.lua 0 evtPair .answered)
  let expired := next evtDigest boolJson created (.advance 301000)
  let taken := next evtDigest boolJson expired (.lua 1 evtPair .answered)
  let cleared := next evtDigest boolJson taken (.clearInProgress 0 evtPair .answered)
  have hfirst : Step evtDigest boolJson start (.lua 0 evtPair .answered, some ⟨.new, none⟩)
      created := reaction_afterEvent (by decide)
  have hwait : Step evtDigest boolJson created (.advance 301000, none) expired :=
    reaction_afterEvent (by decide)
  exact ⟨expired, taken, cleared, _, _, .tail (.single hfirst) hwait,
    reaction_afterEvent (by decide), reaction_afterEvent (by decide), by decide, by decide,
    reaction_afterEvent (by decide)⟩

end BackendProdReady.Idempotency.Locks
