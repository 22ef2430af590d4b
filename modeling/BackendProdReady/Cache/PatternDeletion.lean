import BackendProdReady.Cache.FailSoft
import Mathlib.Data.Finset.Card
import Mathlib.Data.Finset.SDiff
import Mathlib.Algebra.Order.BigOperators.Group.List
import Mathlib.Algebra.Order.Ring.Nat

/-!
# Deleting by pattern

The SCAN loop of `delete_pattern` on a key space that other clients change
meanwhile.  COUNT is a hint, so a reply may hold any number of keys.  A failure
raises out of the loop, and `_execute_redis_operation` puts the default in place
of what had been counted.
-/

namespace BackendProdReady.Cache.PatternDeletion

open BackendProdReady.Cache.FailSoft

/-! ## Source -/

/-- The live keys. -/
abbrev Keys := Finset String

structure RedisFailure where
  exception : RedisException
  isRedisError : exception.isInstance [redisError] = true

inductive DelFate
  | answered
  /-- It fails before it takes effect. -/
  | failed (e : RedisFailure)
  /-- It takes effect, and fails in place of its reply. -/
  | replyLost (e : RedisFailure)

/-- One pass of the loop, as Redis and the other clients play it. -/
structure Round where
  /-- The key spaces that other clients make before the SCAN. -/
  before : List Keys
  /-- The keys and the next cursor. -/
  scan : Except RedisFailure (List String × Nat)
  /-- The key spaces that other clients make before the DEL. -/
  between : List Keys
  del : DelFate

structure Pass where
  /-- What it adds to `_deleted`, and the next cursor. -/
  next : Except RedisException (Nat × Nat)
  page : List String
  removed : Keys
  /-- The key spaces up to the last command that takes effect. -/
  others : List Keys
  keys : Keys

def Round.play (round : Round) (keys : Keys) : Pass :=
  let scanned := round.before.getLastD keys
  match round.scan with
  | .error e => ⟨.error e.exception, [], ∅, keys :: round.before, scanned⟩
  | .ok ([], cursor) => ⟨.ok (0, cursor), [], ∅, keys :: round.before, scanned⟩
  | .ok (key :: page, cursor) =>
      let others := round.before ++ round.between
      let found := others.getLastD keys
      -- a key that is named twice is removed once
      let hit := (key :: page).toFinset ∩ found
      match round.del with
      | .answered => ⟨.ok (hit.card, cursor), key :: page, hit, keys :: others, found \ hit⟩
      | .failed e => ⟨.error e.exception, key :: page, ∅, keys :: others, found⟩
      | .replyLost e => ⟨.error e.exception, key :: page, hit, keys :: others, found \ hit⟩

/-- `_delete_pattern_operation`; `none` while the loop still runs. -/
def deletePatternOperation (deleted : Nat) : List Round → Keys → Option (Except RedisException Nat)
  | [], _ => none
  | round :: rounds, keys =>
      match (round.play keys).next with
      | .error e => some (.error e)
      | .ok (n, cursor) =>
          if cursor = 0 then some (.ok (deleted + n))
          else deletePatternOperation (deleted + n) rounds (round.play keys).keys

def deletePattern (rounds : List Round) (keys : Keys) : Option (Except RedisException Nat) :=
  (deletePatternOperation 0 rounds keys).map fun outcome => executeRedisOperation outcome 0

/-! ## The passes of a call -/

def Pass.failed (p : Pass) : Bool :=
  match p.next with
  | .ok _ => false
  | .error _ => true

def Pass.continues (p : Pass) : Bool :=
  match p.next with
  | .ok (_, cursor) => cursor ≠ 0
  | .error _ => false

def passes : List Round → Keys → List Pass
  | [], _ => []
  | round :: rounds, keys =>
      let p := round.play keys
      p :: if p.continues then passes rounds p.keys else []

def Pass.moments (p : Pass) : List Keys := p.others ++ [p.keys]

def removedCount (rounds : List Round) (keys : Keys) : Nat :=
  ((passes rounds keys).map fun p => p.removed.card).sum

/-! ## One pass -/

theorem play_others (round : Round) (keys : Keys) :
    ∃ changes, (round.play keys).others = keys :: changes := by
  unfold Round.play
  dsimp only
  split
  · exact ⟨_, rfl⟩
  · exact ⟨_, rfl⟩
  · split <;> exact ⟨_, rfl⟩

/-- The last key space before the end of the pass loses what was removed; after a pass
without a failure that is all of the page. -/
theorem play_keys (round : Round) (keys : Keys) :
    ∃ found ∈ (round.play keys).others,
      (round.play keys).keys = found \ (round.play keys).removed ∧
      ((round.play keys).failed = false → ∀ key ∈ (round.play keys).page, key ∈ found →
        key ∈ (round.play keys).removed) := by
  unfold Round.play
  dsimp only
  split
  · refine ⟨_, List.getLastD_mem_cons, Finset.sdiff_empty.symm, ?_⟩
    intro hfailed
    cases hfailed
  · exact ⟨_, List.getLastD_mem_cons, Finset.sdiff_empty.symm, by simp⟩
  · split
    · refine ⟨_, List.getLastD_mem_cons, rfl, ?_⟩
      intro _ key hpage hfound
      exact Finset.mem_inter.mpr ⟨List.mem_toFinset.mpr hpage, hfound⟩
    · refine ⟨_, List.getLastD_mem_cons, Finset.sdiff_empty.symm, ?_⟩
      intro hfailed
      cases hfailed
    · refine ⟨_, List.getLastD_mem_cons, rfl, ?_⟩
      intro hfailed
      cases hfailed

theorem play_ok {round : Round} {keys : Keys} {n cursor : Nat}
    (h : (round.play keys).next = .ok (n, cursor)) : n = (round.play keys).removed.card := by
  unfold Round.play at h ⊢
  dsimp only at h ⊢
  split at h
  · cases h
  · obtain ⟨rfl, -⟩ := Prod.mk.inj (Except.ok.inj h)
    rfl
  · split at h
    · obtain ⟨rfl, -⟩ := Prod.mk.inj (Except.ok.inj h)
      rfl
    · cases h
    · cases h

theorem play_error {round : Round} {keys : Keys} {e : RedisException}
    (h : (round.play keys).next = .error e) : e.isInstance [redisError] = true := by
  unfold Round.play at h
  dsimp only at h
  split at h
  · rename_i failure _
    cases h
    exact failure.isRedisError
  · cases h
  · split at h
    · cases h
    · rename_i failure _
      cases h
      exact failure.isRedisError
    · rename_i failure _
      cases h
      exact failure.isRedisError

theorem removed_of_page_eq_nil {round : Round} {keys : Keys}
    (h : (round.play keys).page = []) : (round.play keys).removed = ∅ := by
  cases hscan : round.scan with
  | error e => simp [Round.play, hscan]
  | ok reply =>
      obtain ⟨page, cursor⟩ := reply
      cases page with
      | nil => simp [Round.play, hscan]
      | cons key page => cases hdel : round.del <;> simp [Round.play, hscan, hdel] at h

/-! ## The loop over pages -/

theorem passes_of_continues {round : Round} {keys : Keys} (rounds : List Round)
    (h : (round.play keys).continues = true) :
    passes (round :: rounds) keys =
      round.play keys :: passes rounds (round.play keys).keys := by
  rw [passes, if_pos h]

theorem passes_of_last {round : Round} {keys : Keys} (rounds : List Round)
    (h : (round.play keys).continues = false) :
    passes (round :: rounds) keys = [round.play keys] := by
  rw [passes, if_neg (by rw [h]; decide)]

/-- What the loop does after its first pass: it raises, it ends, or it goes on. -/
theorem deletePatternOperation_cons {deleted : Nat} {round : Round} {rounds : List Round}
    {keys : Keys} {outcome : Except RedisException Nat}
    (h : deletePatternOperation deleted (round :: rounds) keys = some outcome) :
    (∃ e, (round.play keys).next = .error e ∧ outcome = .error e ∧
        passes (round :: rounds) keys = [round.play keys]) ∨
      (∃ n cursor, (round.play keys).next = .ok (n, cursor) ∧ outcome = .ok (deleted + n) ∧
        passes (round :: rounds) keys = [round.play keys]) ∨
      ∃ n cursor, (round.play keys).next = .ok (n, cursor) ∧
        deletePatternOperation (deleted + n) rounds (round.play keys).keys = some outcome ∧
        passes (round :: rounds) keys =
          round.play keys :: passes rounds (round.play keys).keys := by
  rw [deletePatternOperation] at h
  cases hnext : (round.play keys).next with
  | error e =>
      rw [hnext] at h
      have hlast : (round.play keys).continues = false := by rw [Pass.continues, hnext]
      exact .inl ⟨e, rfl, (Option.some.inj h).symm, passes_of_last rounds hlast⟩
  | ok added =>
      obtain ⟨n, cursor⟩ := added
      have hcontinues : (round.play keys).continues = decide (cursor ≠ 0) := by
        rw [Pass.continues, hnext]
      rw [hnext] at h
      dsimp only at h
      split_ifs at h with hcursor
      · have hlast := hcontinues.trans (decide_eq_false (not_not.mpr hcursor))
        exact .inr (.inl ⟨n, cursor, rfl, (Option.some.inj h).symm, passes_of_last rounds hlast⟩)
      · have hmore := hcontinues.trans (decide_eq_true hcursor)
        exact .inr (.inr ⟨n, cursor, rfl, h, passes_of_continues rounds hmore⟩)

/-- The pass as the answers of the Redis client. -/
def Pass.scanPage (p : Pass) : ScanPage :=
  match p.next with
  | .error e => ⟨.error e, .error e⟩
  | .ok (n, _) => ⟨.ok p.page, .ok n⟩

/-- The loop of the data operations adds what the pass adds. -/
theorem deletePages_scanPage {round : Round} {keys : Keys} {n cursor : Nat}
    (hnext : (round.play keys).next = .ok (n, cursor)) (pages : List ScanPage) (deleted : Nat) :
    deletePages ((round.play keys).scanPage :: pages) deleted =
      deletePages pages (deleted + n) := by
  cases hempty : (round.play keys).page with
  | nil =>
      have hn : n = 0 := by
        rw [play_ok hnext, removed_of_page_eq_nil hempty, Finset.card_empty]
      simp only [Pass.scanPage, hnext, hempty, deletePages, hn, Nat.add_zero]
  | cons key page => simp only [Pass.scanPage, hnext, hempty, deletePages]

/-- The loop is that of the data operations, on the answers of its passes. -/
theorem deletePatternOperation_eq_deletePages {deleted : Nat} {rounds : List Round}
    {keys : Keys} {outcome : Except RedisException Nat}
    (h : deletePatternOperation deleted rounds keys = some outcome) :
    outcome = deletePages ((passes rounds keys).map Pass.scanPage) deleted := by
  induction rounds generalizing deleted keys with
  | nil => cases h
  | cons round rounds ih =>
      rcases deletePatternOperation_cons h with ⟨e, hnext, rfl, hpasses⟩ |
        ⟨n, cursor, hnext, rfl, hpasses⟩ | ⟨n, cursor, hnext, hrest, hpasses⟩
      · rw [hpasses, List.map_singleton]
        simp only [Pass.scanPage, hnext, deletePages]
      · rw [hpasses, List.map_singleton, deletePages_scanPage hnext]
        rfl
      · rw [hpasses, List.map_cons, deletePages_scanPage hnext]
        exact ih hrest

/-! ## The count -/

def NoFailure (rounds : List Round) (keys : Keys) : Prop :=
  ∀ p ∈ passes rounds keys, p.failed = false

def NothingRemoved (rounds : List Round) (keys : Keys) : Prop :=
  ∀ p ∈ passes rounds keys, p.removed = ∅

/-- The loop ends in the count, or in the failure of a command. -/
theorem deletePatternOperation_cases {deleted : Nat} {rounds : List Round} {keys : Keys}
    {outcome : Except RedisException Nat}
    (h : deletePatternOperation deleted rounds keys = some outcome) :
    (NoFailure rounds keys ∧ outcome = .ok (deleted + removedCount rounds keys)) ∨
      (¬ NoFailure rounds keys ∧ ∃ e, outcome = .error e ∧ e.isInstance [redisError] = true) := by
  induction rounds generalizing deleted keys with
  | nil => cases h
  | cons round rounds ih =>
      rcases deletePatternOperation_cons h with ⟨e, hnext, rfl, hpasses⟩ |
        ⟨n, cursor, hnext, rfl, hpasses⟩ | ⟨n, cursor, hnext, hrest, hpasses⟩
      · refine .inr ⟨fun hnone => ?_, e, rfl, play_error hnext⟩
        have hfailed := hnone (round.play keys) (by simp [hpasses])
        simp [Pass.failed, hnext] at hfailed
      · refine .inl ⟨?_, ?_⟩
        · simp [NoFailure, hpasses, Pass.failed, hnext]
        · rw [removedCount, hpasses, play_ok hnext]
          simp
      · have hcount : removedCount (round :: rounds) keys =
            n + removedCount rounds (round.play keys).keys := by
          rw [removedCount, hpasses, List.map_cons, List.sum_cons, ← removedCount, play_ok hnext]
        have hiff : NoFailure (round :: rounds) keys ↔
            NoFailure rounds (round.play keys).keys := by
          simp [NoFailure, hpasses, Pass.failed, hnext]
        rw [hiff, hcount, ← Nat.add_assoc]
        exact ih hrest

/-- `removedCount` is zero exactly when nothing was removed. -/
theorem removedCount_eq_zero_iff (rounds : List Round) (keys : Keys) :
    removedCount rounds keys = 0 ↔ NothingRemoved rounds keys := by
  simp [removedCount, NothingRemoved, List.sum_eq_zero_iff_forall_eq_nat]

/-! ## The keys that are swept -/

/-- The replies that SCAN guarantees: a matching key that is there throughout a whole
iteration is in some page. -/
def Allowed (matching : String → Bool) (rounds : List Round) (keys : Keys) : Prop :=
  (∃ n, deletePatternOperation 0 rounds keys = some (.ok n)) →
    ∀ key, matching key = true → (∀ p ∈ passes rounds keys, ∀ k ∈ p.moments, key ∈ k) →
      ∃ p ∈ passes rounds keys, key ∈ p.page

def LeftByOthers (key : String) (rounds : List Round) (keys : Keys) : Prop :=
  ∀ p ∈ passes rounds keys, p.others.IsChain fun k k' => key ∈ k → key ∈ k'

theorem mem_of_isChain {key : String} {k : Keys} {changes : List Keys}
    (h : (k :: changes).IsChain fun k k' => key ∈ k → key ∈ k') (hk : key ∈ k) :
    ∀ m ∈ k :: changes, key ∈ m := by
  induction changes generalizing k with
  | nil =>
      intro m hm
      rwa [List.mem_singleton.mp hm]
  | cons k' changes ih =>
      obtain ⟨hstep, hrest⟩ := List.isChain_cons_cons.mp h
      intro m hm
      rcases List.mem_cons.mp hm with rfl | hm
      · exact hk
      · exact ih hrest (hstep hk) m hm

/-- A key that is there and that no other client removes is removed by a delete, or
there throughout. -/
theorem removed_or_present {key : String} {rounds : List Round} {keys : Keys}
    (hleft : LeftByOthers key rounds keys) (hkey : key ∈ keys) :
    (∃ p ∈ passes rounds keys, key ∈ p.removed) ∨
      ∀ p ∈ passes rounds keys, ∀ k ∈ p.moments, key ∈ k := by
  induction rounds generalizing keys with
  | nil => exact .inr (fun p hp => nomatch hp)
  | cons round rounds ih =>
      have hfirst : round.play keys ∈ passes (round :: rounds) keys := by simp [passes]
      by_cases hremoved : key ∈ (round.play keys).removed
      · exact .inl ⟨_, hfirst, hremoved⟩
      · obtain ⟨changes, hothers⟩ := play_others round keys
        obtain ⟨found, hfound, hafter, -⟩ := play_keys round keys
        have hall : ∀ k ∈ (round.play keys).others, key ∈ k := by
          have hchain := hleft _ hfirst
          rw [hothers] at hchain ⊢
          exact mem_of_isChain hchain hkey
        have hkey' : key ∈ (round.play keys).keys := by
          rw [hafter]
          exact Finset.mem_sdiff.mpr ⟨hall found hfound, hremoved⟩
        have hmoments : ∀ k ∈ (round.play keys).moments, key ∈ k := by
          intro k hk
          rcases List.mem_append.mp hk with hk | hk
          · exact hall k hk
          · rwa [List.mem_singleton.mp hk]
        cases hcontinues : (round.play keys).continues with
        | true =>
            have hpasses := passes_of_continues rounds hcontinues
            rw [LeftByOthers, hpasses, List.forall_mem_cons] at hleft
            rw [hpasses]
            rcases ih hleft.2 hkey' with ⟨p, hp, hremoved⟩ | hpresent
            · exact .inl ⟨p, List.mem_cons_of_mem _ hp, hremoved⟩
            · exact .inr (List.forall_mem_cons.mpr ⟨hmoments, hpresent⟩)
        | false =>
            rw [passes_of_last rounds hcontinues]
            exact .inr (List.forall_mem_singleton.mpr hmoments)

/-- Every pass of a call is the play of some round. -/
theorem exists_play {rounds : List Round} {keys : Keys} {p : Pass} (h : p ∈ passes rounds keys) :
    ∃ round keys', p = Round.play round keys' := by
  induction rounds generalizing keys with
  | nil => cases h
  | cons round rounds ih =>
      rw [passes] at h
      rcases List.mem_cons.mp h with hhead | htail
      · exact ⟨round, keys, hhead⟩
      · split_ifs at htail
        · exact ih htail
        · cases htail

/-- A call without a failure removes the matching keys that no other client removes. -/
theorem swept {matching : String → Bool} {rounds : List Round} {keys : Keys}
    (hallowed : Allowed matching rounds keys) (hnone : NoFailure rounds keys)
    {outcome : Except RedisException Nat}
    (hends : deletePatternOperation 0 rounds keys = some outcome) {key : String}
    (hmatch : matching key = true) (hkey : key ∈ keys) (hleft : LeftByOthers key rounds keys) :
    ∃ p ∈ passes rounds keys, key ∈ p.removed := by
  rcases removed_or_present hleft hkey with hremoved | hpresent
  · exact hremoved
  · have hok : ∃ n, deletePatternOperation 0 rounds keys = some (.ok n) := by
      rcases deletePatternOperation_cases hends with ⟨-, rfl⟩ | ⟨hfailure, -⟩
      · exact ⟨_, hends⟩
      · exact absurd hnone hfailure
    obtain ⟨p, hp, hpage⟩ := hallowed hok key hmatch hpresent
    obtain ⟨round, keys', rfl⟩ := exists_play hp
    obtain ⟨found, hfound, -, hhit⟩ := play_keys round keys'
    exact ⟨_, hp, hhit (hnone _ hp) key hpage
      (hpresent _ hp found (List.mem_append_left _ hfound))⟩

/-! ## What is reported -/

/-- The number returned is that of the keys removed; without a failure every matching key
that no other client removes is among them. -/
structure Reports (matching : String → Bool) (rounds : List Round) (keys : Keys)
    (returned : Except RedisException Nat) : Prop where
  count : returned = .ok (removedCount rounds keys)
  swept : NoFailure rounds keys → ∀ key ∈ keys, matching key = true →
    LeftByOthers key rounds keys → ∃ p ∈ passes rounds keys, key ∈ p.removed

theorem reports_iff {matching : String → Bool} {rounds : List Round} {keys : Keys}
    (hallowed : Allowed matching rounds keys) {returned : Except RedisException Nat}
    (hends : deletePattern rounds keys = some returned) :
    Reports matching rounds keys returned ↔
      NoFailure rounds keys ∨ NothingRemoved rounds keys := by
  obtain ⟨outcome, houtcome, rfl⟩ := Option.map_eq_some_iff.mp hends
  rw [← removedCount_eq_zero_iff]
  have hswept : NoFailure rounds keys → ∀ key ∈ keys, matching key = true →
      LeftByOthers key rounds keys → ∃ p ∈ passes rounds keys, key ∈ p.removed :=
    fun hnone key hkey hmatch hleft => swept hallowed hnone houtcome hmatch hkey hleft
  rcases deletePatternOperation_cases houtcome with ⟨hnone, rfl⟩ | ⟨hfailure, e, rfl, he⟩
  · rw [Nat.zero_add]
    exact iff_of_true ⟨rfl, hswept⟩ (.inl hnone)
  · rw [executeRedisOperation_contained (contains_redisError he)]
    constructor
    · intro hreports
      exact .inr (Except.ok.inj hreports.count).symm
    · rintro (hnone | hzero)
      · exact absurd hnone hfailure
      · exact ⟨by rw [hzero], hswept⟩

/-! ## Two pages -/

def userKeys : Keys := {"user:1", "user:2"}

/-- The second page names a key again that the first has removed. -/
def twoPages : List Round :=
  [⟨[], .ok (["user:1"], 7), [], .answered⟩, ⟨[], .ok (["user:1", "user:2"], 0), [], .answered⟩]

theorem reports_two_pages :
    Reports (fun _ => true) twoPages userKeys (.ok 2) ↔
      NoFailure twoPages userKeys ∨ NothingRemoved twoPages userKeys := by
  have hallowed : Allowed (fun _ => true) twoPages userKeys := by
    intro _ key _ hpresent
    have hkey := hpresent (Round.play ⟨[], .ok (["user:1"], 7), [], .answered⟩ userKeys)
      List.mem_cons_self userKeys List.mem_cons_self
    refine ⟨_, List.mem_cons_of_mem _ List.mem_cons_self, ?_⟩
    rcases Finset.mem_insert.mp hkey with rfl | hkey
    · exact List.mem_cons_self
    · rw [Finset.mem_singleton.mp hkey]
      exact List.mem_cons_of_mem _ List.mem_cons_self
  exact reports_iff hallowed rfl

def lostConnection : RedisFailure := ⟨connectionError, by decide⟩

/-- The second SCAN fails after the first page has been removed. -/
def failingScan : List Round :=
  [⟨[], .ok (["user:1"], 7), [], .answered⟩, ⟨[], .error lostConnection, [], .answered⟩]

theorem failure_hides_deletions :
    deletePattern failingScan userKeys = some (.ok 0) ∧ removedCount failingScan userKeys = 1 ∧
      Allowed (fun _ => true) failingScan userKeys ∧
      ¬ Reports (fun _ => true) failingScan userKeys (.ok 0) := by
  have hremoved : removedCount failingScan userKeys = 1 := by rfl
  refine ⟨by rfl, hremoved, ?_, fun hreports => ?_⟩
  · rintro ⟨n, hn⟩
    cases hn
  · have hcount := Except.ok.inj hreports.count
    omega

end BackendProdReady.Cache.PatternDeletion
