import BackendProdReady.Idempotency.Workers

/-!
# Whether a cached result stays

`store` writes its record unconditionally, so a worker that outlives its marker
can replace the result of the worker after it.  Short of such a write, whatever
checks return as `DUPLICATE` is one and the same response.
-/

namespace BackendProdReady.Idempotency.StableResults

open BackendProdReady.Lib.ExpiringStore
open BackendProdReady.Lib.Runs
open BackendProdReady.Cache
open BackendProdReady.Cache.Operations (Keyspace Fate)
open BackendProdReady.Idempotency.Keys
open BackendProdReady.Idempotency.Service
open BackendProdReady.Idempotency.Workers

section

variable {ω J : Type} [DecidableEq ω] {sha256 : String → HexDigest} {orjson : Orjson J}

/-! ## What a duplicate says of the record -/

theorem checkLua_duplicate {fate : Fate} {now : Nat} {pair : Pair} {keys : Keyspace}
    {response : Option J}
    (h : (checkLua sha256 orjson fate now pair keys).1 = .returns ⟨.duplicate, response⟩) :
    ∃ cached, keys.find now (buildKey sha256 pair) = some cached ∧
      orjson.loads cached = response := by
  cases fate with
  | answered =>
      rw [checkLua_answered] at h
      cases hrecord : keys.find now (buildKey sha256 pair) with
      | some cached =>
          refine ⟨cached, rfl, ?_⟩
          simp only [hrecord, afterLua] at h
          split_ifs at h with hempty
          · cases h
            rw [hempty, orjson.loads_empty]
          · split at h
            · rename_i hloads
              cases h
              exact hloads
            · cases h
      | none =>
          simp only [hrecord] at h
          split_ifs at h <;> cases h
  | failed => cases h
  | replyLost =>
      rw [checkLua_replyLost] at h
      cases h
  | rejected => cases h

theorem checkRead_duplicate {fate : Fate} {now : Nat} {pair : Pair} {keys : Keyspace}
    {response : Option J}
    (h : (checkRead sha256 orjson fate now pair keys).1 = .returns ⟨.duplicate, response⟩) :
    ∃ cached, keys.find now (buildKey sha256 pair) = some cached ∧
      orjson.loads cached = response := by
  cases fate with
  | answered =>
      cases hfind : keys.find now (buildKey sha256 pair) with
      | none =>
          rw [checkRead_missed sha256 orjson (by simp) (.inr (by simp [hfind]))] at h
          cases h
      | some cached =>
          refine ⟨cached, rfl, ?_⟩
          cases hloads : orjson.loads cached with
          | none =>
              rw [checkRead_missed sha256 orjson (by simp) (.inr (by simp [hfind, hloads]))] at h
              cases h
          | some decoded =>
              rw [checkRead_decoded sha256 orjson hfind hloads] at h
              cases h
              rfl
  | failed => cases h
  | replyLost =>
      rw [checkRead_missed sha256 orjson (by simp) (.inl (by simp))] at h
      cases h
  | rejected => cases h

theorem checkAcquire_ne_duplicate (fate : Fate) (now : Nat) (pair : Pair) (keys : Keyspace)
    (response : Option J) :
    (checkAcquire sha256 fate now pair keys).1 ≠ .returns ⟨.duplicate, response⟩ := by
  unfold checkAcquire acquireMarker
  dsimp only
  split <;> simp [Next.ofEnd]

theorem step_duplicate {s t : State ω} {op : Op ω J} {w : ω} {pair : Pair} {response : Option J}
    (h : Step sha256 orjson s (op, some ⟨.duplicate, response⟩) t)
    (hop : op.checker = some (w, pair)) :
    ∃ entry, s.keys (buildKey sha256 pair) = some entry ∧
      orjson.loads entry.value = response := by
  have hread : ∀ {cached}, s.keys.find s.now (buildKey sha256 pair) = some cached →
      orjson.loads cached = response →
      ∃ entry, s.keys (buildKey sha256 pair) = some entry ∧
        orjson.loads entry.value = response := by
    intro cached hfind hloads
    obtain ⟨entry, hentry, -, rfl⟩ := Store.find_eq_some hfind
    exact ⟨entry, hentry, hloads⟩
  have htransition := step_cases h
  generalize hresult : some (⟨.duplicate, response⟩ : IdempotencyResult J) = result at htransition
  cases htransition with
  | lua hphase hrun =>
      obtain ⟨-, rfl⟩ := Prod.mk.inj (Option.some.inj hop)
      subst hrun
      obtain ⟨cached, hfind, hloads⟩ := checkLua_duplicate (resultOf_eq_some hresult.symm)
      exact hread hfind hloads
  | @ping w pair pong hphase => cases pong <;> cases hresult
  | read hphase hrun =>
      obtain ⟨-, rfl⟩ := Prod.mk.inj (Option.some.inj hop)
      subst hrun
      obtain ⟨cached, hfind, hloads⟩ := checkRead_duplicate (resultOf_eq_some hresult.symm)
      exact hread hfind hloads
  | acquire hphase hrun =>
      subst hrun
      exact absurd (resultOf_eq_some hresult.symm) (checkAcquire_ne_duplicate _ _ _ _ _)
  | _ => cases hresult

/-! ## What a store writes -/

/-- The text an operation leaves in the record of `pair`, where it writes one. -/
def written (sha256 : String → HexDigest) (orjson : Orjson J) (pair : Pair) :
    Op ω J → Option String
  | .storeRecord _ other response ttl fate =>
      if buildKey sha256 other = buildKey sha256 pair ∧ fate.takesEffect = true ∧
          Operations.validSeconds (effectiveTtl ttl) = true then
        orjson.dumps response
      else none
  | _ => none

/-- The last text that a run wrote to the record of `pair`. -/
def lastWritten (sha256 : String → HexDigest) (orjson : Orjson J) (pair : Pair)
    (labels : List (Op ω J × Option (IdempotencyResult J))) : Option String :=
  (labels.filterMap fun label => written sha256 orjson pair label.1).getLast?

/-- A record that read as `before` reads as what was written over it. -/
def readsAs (orjson : Orjson J) (before : Option J) : Option String → Option J
  | none => before
  | some text => orjson.loads text

/-- Whatever record of `pair` the keys hold, live or not, it reads as `response`. -/
def RecordReads (sha256 : String → HexDigest) (orjson : Orjson J) (pair : Pair)
    (response : Option J) (keys : Keyspace) : Prop :=
  ∀ entry, keys (buildKey sha256 pair) = some entry → orjson.loads entry.value = response

omit [DecidableEq ω] in
theorem readsAs_lastWritten_append (pair : Pair)
    (labels : List (Op ω J × Option (IdempotencyResult J)))
    (label : Op ω J × Option (IdempotencyResult J)) (before : Option J) :
    readsAs orjson before (lastWritten sha256 orjson pair (labels ++ [label])) =
      readsAs orjson (readsAs orjson before (lastWritten sha256 orjson pair labels))
        (written sha256 orjson pair label.1) := by
  unfold lastWritten
  rw [List.filterMap_append]
  cases hwritten : written sha256 orjson pair label.1 with
  | none => simp [hwritten, readsAs]
  | some text => simp [hwritten, readsAs]

omit [DecidableEq ω] in
theorem storeRecord_ineffective {fate : Fate} (heffect : fate.takesEffect = false) (now : Nat)
    (pair : Pair) (response : J) (ttl : Option Int) (keys : Keyspace) :
    (storeRecord sha256 orjson fate now pair response ttl keys).2 = keys := by
  unfold storeRecord
  cases orjson.dumps response with
  | none => rfl
  | some serialized => cases fate <;> first | rfl | cases heffect

/-- What an operation does to the record of `pair`: nothing, or it deletes it, or it
leaves what `written` says. -/
inductive RecordChange (sha256 : String → HexDigest) (pair : Pair) (keys : Keyspace) :
    Option String → Keyspace → Prop
  | kept {keys' : Keyspace}
      (hkeys : keys' (buildKey sha256 pair) = keys (buildKey sha256 pair)) :
      RecordChange sha256 pair keys none keys'
  | deleted {keys' : Keyspace} (hkeys : keys' (buildKey sha256 pair) = none) :
      RecordChange sha256 pair keys none keys'
  | replaced {keys' : Keyspace} (entry : Entry String)
      (hkeys : keys' (buildKey sha256 pair) = some entry) :
      RecordChange sha256 pair keys (some entry.value) keys'

theorem RecordReads.of_change {pair : Pair} {before : Option J} {keys keys' : Keyspace}
    {text : Option String} (h : RecordReads sha256 orjson pair before keys)
    (hchange : RecordChange sha256 pair keys text keys') :
    RecordReads sha256 orjson pair (readsAs orjson before text) keys' := by
  intro entry hentry
  cases hchange with
  | kept hkeys => exact h entry (hkeys.symm.trans hentry)
  | deleted hkeys =>
      rw [hkeys] at hentry
      cases hentry
  | replaced found hkeys =>
      obtain rfl := Option.some.inj (hkeys.symm.trans hentry)
      rfl

omit [DecidableEq ω] in
theorem storeRecord_change {w : ω} {pair other : Pair} (fate : Fate) (now : Nat)
    (response : J) (ttl : Option Int) (keys : Keyspace) :
    RecordChange sha256 pair keys
      (written sha256 orjson pair (Op.storeRecord w other response ttl fate))
      (storeRecord sha256 orjson fate now other response ttl keys).2 := by
  simp only [written]
  by_cases hwrites : buildKey sha256 other = buildKey sha256 pair ∧ fate.takesEffect = true ∧
      Operations.validSeconds (effectiveTtl ttl) = true
  · rw [if_pos hwrites]
    obtain ⟨hsame, heffect, hvalid⟩ := hwrites
    cases hdumps : orjson.dumps response with
    | none =>
        rw [storeRecord, hdumps]
        exact .kept rfl
    | some text =>
        rw [storeRecord_written sha256 orjson hdumps heffect hvalid, hsame]
        exact .replaced ⟨text, _⟩ (Store.put_self _ _ _)
  · rw [if_neg hwrites]
    apply RecordChange.kept
    rcases storeRecord_keys sha256 orjson fate now other response ttl keys with
      hkeys | ⟨text, -, hvalid, hkeys⟩
    · rw [hkeys]
    · cases heffect : fate.takesEffect with
      | false => rw [storeRecord_ineffective heffect]
      | true =>
          have hne : buildKey sha256 other ≠ buildKey sha256 pair := fun hsame =>
            hwrites ⟨hsame, heffect, hvalid⟩
          rw [hkeys, Store.put_of_ne hne.symm]

/-- Only `store` writes a record. -/
theorem step_change {s t : State ω} {op : Op ω J} {result : Option (IdempotencyResult J)}
    (pair : Pair) (hstep : Step sha256 orjson s (op, result) t) :
    RecordChange sha256 pair s.keys (written sha256 orjson pair op) t.keys := by
  have hrest : (∀ w other response ttl fate, op ≠ .storeRecord w other response ttl fate) →
      RecordChange sha256 pair s.keys none t.keys := by
    intro hop
    cases step_keys hstep with
    | kept hkeys => exact .kept (by rw [hkeys])
    | marked w other _ _ hkeys =>
        refine .kept ?_
        rw [hkeys, Store.put_of_ne (buildKey_ne_buildInProgressKey sha256 pair other)]
    | recorded other e hrecorded hkeys =>
        cases op <;> cases hrecorded
        exact absurd rfl (hop _ _ _ _ _)
    | released other _ hkeys =>
        refine .kept ?_
        rw [hkeys, Store.remove_of_ne (buildKey_ne_buildInProgressKey sha256 pair other)]
    | dropped other _ hkeys =>
        by_cases hsame : buildKey sha256 pair = buildKey sha256 other
        · exact .deleted (by rw [hkeys, hsame, Store.remove_self])
        · exact .kept (by rw [hkeys, Store.remove_of_ne hsame])
  cases op with
  | storeRecord w other response ttl fate =>
      cases step_cases hstep with
      | storeRecord hphase hrun =>
          subst hrun
          exact storeRecord_change fate s.now response ttl s.keys
  | _ => exact hrest (by simp)

theorem step_recordReads {s t : State ω} {op : Op ω J} {result : Option (IdempotencyResult J)}
    {pair : Pair} {before : Option J} (h : RecordReads sha256 orjson pair before s.keys)
    (hstep : Step sha256 orjson s (op, result) t) :
    RecordReads sha256 orjson pair (readsAs orjson before (written sha256 orjson pair op))
      t.keys :=
  h.of_change (step_change pair hstep)

/-- After a run the record reads as the last text that was written to it. -/
theorem run_recordReads {s t : State ω} {labels : List (Op ω J × Option (IdempotencyResult J))}
    {pair : Pair} {before : Option J} (hrun : Run (Step sha256 orjson) s labels t)
    (h : RecordReads sha256 orjson pair before s.keys) :
    RecordReads sha256 orjson pair
      (readsAs orjson before (lastWritten sha256 orjson pair labels)) t.keys := by
  induction hrun with
  | refl => exact h
  | tail _ hstep ih =>
      rw [readsAs_lastWritten_append]
      exact step_recordReads ih hstep

/-! ## Main result -/

/-- Once a check has returned `DUPLICATE`, a later one of the operation returns
the response of the last store that took effect in between, and the same response
where no such store wrote another. -/
theorem duplicate_response {s₁ s₂ s₃ s₄ : State ω} {v w : ω} {pair other : Pair}
    {op₁ op₂ : Op ω J} {response later : Option J}
    {labels : List (Op ω J × Option (IdempotencyResult J))}
    (hfirst : Step sha256 orjson s₁ (op₁, some ⟨.duplicate, response⟩) s₂)
    (hop₁ : op₁.checker = some (v, pair))
    (hrun : Run (Step sha256 orjson) s₂ labels s₃)
    (hlater : Step sha256 orjson s₃ (op₂, some ⟨.duplicate, later⟩) s₄)
    (hop₂ : op₂.checker = some (w, other))
    (hsame : buildKey sha256 other = buildKey sha256 pair) :
    later = readsAs orjson response (lastWritten sha256 orjson pair labels) ∧
      ((∀ label ∈ labels, ∀ text, written sha256 orjson pair label.1 = some text →
        orjson.loads text = response) → later = response) := by
  obtain ⟨entry, hentry, hloads⟩ := step_duplicate hfirst hop₁
  have hbefore : RecordReads sha256 orjson pair response s₁.keys := by
    intro e he
    rw [hentry] at he
    cases he
    exact hloads
  have hchecked : written sha256 orjson pair op₁ = none := by
    cases op₁ <;> first | rfl | cases hop₁
  have hafter : RecordReads sha256 orjson pair response s₂.keys := by
    have hstep := step_recordReads hbefore hfirst
    rwa [hchecked] at hstep
  have hreads := run_recordReads hrun hafter
  obtain ⟨found, hfound, hlast⟩ := step_duplicate hlater hop₂
  have heq : later = readsAs orjson response (lastWritten sha256 orjson pair labels) := by
    rw [← hlast]
    exact hreads found (by rw [← hsame]; exact hfound)
  refine ⟨heq, fun hequal => ?_⟩
  rw [heq]
  cases hwritten : lastWritten sha256 orjson pair labels with
  | none => rfl
  | some text =>
      obtain ⟨label, hmem, htext⟩ := List.mem_filterMap.mp (List.mem_of_getLast? hwritten)
      exact hequal label hmem text htext

end

/-- Worker 0 outlives its marker and stores after worker 1, but the same response. -/
theorem duplicate_response_late_store :
    ∃ s₁ s₂ s₃ s₄ : State Nat, ∃ later,
      Step evtDigest boolJson s₁ (.lua 2 evtPair .answered, some ⟨.duplicate, some true⟩) s₂ ∧
      Step evtDigest boolJson s₂ (.storeRecord 0 evtPair true none .answered, none) s₃ ∧
      Step evtDigest boolJson s₃ (.lua 2 evtPair .answered, some ⟨.duplicate, later⟩) s₄ ∧
      later = some true := by
  let expired := next evtDigest boolJson (next evtDigest boolJson start
    (.lua 0 evtPair .answered)) (.advance 301000)
  let stored := next evtDigest boolJson (next evtDigest boolJson expired
    (.lua 1 evtPair .answered)) (.storeRecord 1 evtPair true none .answered)
  let checked := next evtDigest boolJson stored (.lua 2 evtPair .answered)
  let rewritten := next evtDigest boolJson checked (.storeRecord 0 evtPair true none .answered)
  have hfirst : Step evtDigest boolJson stored
      (.lua 2 evtPair .answered, some ⟨.duplicate, some true⟩) checked :=
    reaction_afterEvent (by decide)
  have hstore : Step evtDigest boolJson checked
      (.storeRecord 0 evtPair true none .answered, none) rewritten :=
    reaction_afterEvent (by decide)
  have hlater : Step evtDigest boolJson rewritten
      (.lua 2 evtPair .answered, some ⟨.duplicate, some true⟩)
      (next evtDigest boolJson rewritten (.lua 2 evtPair .answered)) :=
    reaction_afterEvent (by decide)
  have hequal := (duplicate_response hfirst rfl (.single hstore) hlater rfl rfl).2 (by decide)
  exact ⟨stored, checked, rewritten, _, _, hfirst, hstore, hlater, hequal⟩

/-- Worker 0 outlives its marker, worker 1 acquires the operation and stores
`true`, and the late store of worker 0 replaces it by `false`. -/
theorem late_store_replaces_result :
    ∃ s₁ s₂ s₃ s₄ s₅ s₆ s₇ s₈ : State Nat,
      Step evtDigest boolJson start (.lua 0 evtPair .answered, some ⟨.new, none⟩) s₁ ∧
      Step evtDigest boolJson s₁ (.advance 301000, none) s₂ ∧
      Step evtDigest boolJson s₂ (.lua 1 evtPair .answered, some ⟨.new, none⟩) s₃ ∧
      Step evtDigest boolJson s₃ (.storeRecord 1 evtPair true none .answered, none) s₄ ∧
      Step evtDigest boolJson s₄ (.storeRelease 1 evtPair .answered, none) s₅ ∧
      Step evtDigest boolJson s₅
        (.lua 2 evtPair .answered, some ⟨.duplicate, some true⟩) s₆ ∧
      Step evtDigest boolJson s₆ (.storeRecord 0 evtPair false none .answered, none) s₇ ∧
      Step evtDigest boolJson s₇
        (.lua 2 evtPair .answered, some ⟨.duplicate, some false⟩) s₈ ∧
      s₇.now ≤ Operations.deadline s₃.now (effectiveTtl none) := by
  let created := next evtDigest boolJson start (.lua 0 evtPair .answered)
  let expired := next evtDigest boolJson created (.advance 301000)
  let taken := next evtDigest boolJson expired (.lua 1 evtPair .answered)
  let stored := next evtDigest boolJson taken (.storeRecord 1 evtPair true none .answered)
  let released := next evtDigest boolJson stored (.storeRelease 1 evtPair .answered)
  let checked := next evtDigest boolJson released (.lua 2 evtPair .answered)
  let rewritten := next evtDigest boolJson checked (.storeRecord 0 evtPair false none .answered)
  exact ⟨created, expired, taken, stored, released, checked, rewritten, _,
    reaction_afterEvent (by decide), reaction_afterEvent (by decide),
    reaction_afterEvent (by decide), reaction_afterEvent (by decide),
    reaction_afterEvent (by decide), reaction_afterEvent (by decide),
    reaction_afterEvent (by decide), reaction_afterEvent (by decide), by decide⟩

end BackendProdReady.Idempotency.StableResults
