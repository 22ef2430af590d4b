import BackendProdReady.Cache.PatternDeletion
import BackendProdReady.Lib.Glob

/-!
# Deleting by pattern on the two backends

The in-memory cache reads a pattern with `fnmatch`, Redis with its own glob, and the
conversion between them changes nothing.  The in-memory cache also goes through entries
that have expired, which Redis no longer has.
-/

namespace BackendProdReady.Cache.PatternDialects

open BackendProdReady.Lib.Glob
open BackendProdReady.Lib.InsertionDict
open BackendProdReady.Cache.InMemory
open BackendProdReady.Cache.FailSoft (RedisException)
open BackendProdReady.Cache.PatternDeletion

/-! ## A deletion on Redis that nobody disturbs -/

def Quiet (rounds : List Round) : Prop :=
  ∀ round ∈ rounds, round.before = [] ∧ round.between = []

def Honest (matching : String → Bool) (rounds : List Round) (keys : Keys) : Prop :=
  ∀ p ∈ passes rounds keys, ∀ key ∈ p.page, matching key = true

def removedKeys (rounds : List Round) (keys : Keys) : Keys :=
  (passes rounds keys).foldr (fun p removed => p.removed ∪ removed) ∅

theorem mem_removedKeys {rounds : List Round} {keys : Keys} {key : String} :
    key ∈ removedKeys rounds keys ↔ ∃ p ∈ passes rounds keys, key ∈ p.removed := by
  unfold removedKeys
  induction passes rounds keys with
  | nil => simp
  | cons p ps ih => simp [ih]

theorem play_of_quiet {round : Round} (h : round.before = [] ∧ round.between = [])
    (keys : Keys) :
    (round.play keys).others = [keys] ∧ (round.play keys).keys = keys \ (round.play keys).removed ∧
      (round.play keys).removed ⊆ (round.play keys).page.toFinset ∩ keys := by
  obtain ⟨hbefore, hbetween⟩ := h
  unfold Round.play
  rw [hbefore, hbetween]
  dsimp only
  split
  · simp
  · simp
  · split <;> simp

theorem quiet_spec {rounds : List Round} (hquiet : Quiet rounds) (keys : Keys) :
    (∀ p ∈ passes rounds keys,
        (∃ k, p.others = [k]) ∧ ∀ key ∈ p.removed, key ∈ p.page) ∧
      removedKeys rounds keys ⊆ keys ∧
      removedCount rounds keys = (removedKeys rounds keys).card := by
  induction rounds generalizing keys with
  | nil => simp [passes, removedKeys, removedCount]
  | cons round rounds ih =>
      obtain ⟨hround, hrest⟩ := List.forall_mem_cons.mp hquiet
      obtain ⟨hothers, hkeys, hremoved⟩ := play_of_quiet hround keys
      have hsub : (round.play keys).removed ⊆ keys := hremoved.trans Finset.inter_subset_right
      have hfirst : (∃ k, (round.play keys).others = [k]) ∧
          ∀ key ∈ (round.play keys).removed, key ∈ (round.play keys).page :=
        ⟨⟨keys, hothers⟩, fun key hkey =>
          List.mem_toFinset.mp (Finset.mem_of_mem_inter_left (hremoved hkey))⟩
      cases hcontinues : (round.play keys).continues with
      | false =>
          rw [removedKeys, removedCount, passes_of_last rounds hcontinues]
          refine ⟨List.forall_mem_singleton.mpr hfirst, by simpa using hsub, by simp⟩
      | true =>
          obtain ⟨hall, hlater, hcount⟩ := ih hrest (round.play keys).keys
          have hpasses := passes_of_continues rounds hcontinues
          have hunion : removedKeys (round :: rounds) keys =
              (round.play keys).removed ∪ removedKeys rounds (round.play keys).keys := by
            rw [removedKeys, hpasses, List.foldr_cons, ← removedKeys]
          have hdisjoint : Disjoint (round.play keys).removed
              (removedKeys rounds (round.play keys).keys) := by
            refine Finset.disjoint_left.mpr fun key hkey hkey' => ?_
            have hafter := hlater hkey'
            rw [hkeys] at hafter
            exact (Finset.mem_sdiff.mp hafter).2 hkey
          refine ⟨?_, ?_, ?_⟩
          · rw [hpasses]
            exact List.forall_mem_cons.mpr ⟨hfirst, hall⟩
          · rw [hunion]
            refine Finset.union_subset hsub (hlater.trans ?_)
            rw [hkeys]
            exact Finset.sdiff_subset
          · rw [hunion, Finset.card_union_of_disjoint hdisjoint, ← hcount, removedCount, hpasses,
              List.map_cons, List.sum_cons, ← removedCount]

/-- Redis removes the keys that match, and returns how many they are. -/
theorem redis_deletes {matching : String → Bool} {rounds : List Round} {keys : Keys}
    {returned : Except RedisException Nat} (hends : deletePattern rounds keys = some returned)
    (hquiet : Quiet rounds) (hnone : NoFailure rounds keys)
    (hhonest : Honest matching rounds keys) (hallowed : Allowed matching rounds keys) :
    removedKeys rounds keys = keys.filter (fun key => matching key = true) ∧
      returned = .ok (keys.filter fun key => matching key = true).card := by
  obtain ⟨outcome, houtcome, rfl⟩ := Option.map_eq_some_iff.mp hends
  obtain ⟨hpasses, hsub, hcount⟩ := quiet_spec hquiet keys
  have hremoved : removedKeys rounds keys = keys.filter (fun key => matching key = true) := by
    ext key
    rw [Finset.mem_filter]
    constructor
    · intro hkey
      obtain ⟨p, hp, hpkey⟩ := mem_removedKeys.mp hkey
      exact ⟨hsub hkey, hhonest p hp key ((hpasses p hp).2 key hpkey)⟩
    · rintro ⟨hkey, hmatch⟩
      refine mem_removedKeys.mpr (swept hallowed hnone houtcome hmatch hkey ?_)
      intro p hp
      obtain ⟨k, hothers⟩ := (hpasses p hp).1
      rw [hothers]
      exact .singleton _
  refine ⟨hremoved, ?_⟩
  rcases deletePatternOperation_cases houtcome with ⟨-, rfl⟩ | ⟨hfailure, -⟩
  · rw [Nat.zero_add, hcount, hremoved]
    rfl
  · exact absurd hnone hfailure

/-- A deletion with everything that matches in one page. -/
theorem exists_deletion (matching : String → Bool) (keys : Keys) :
    ∃ rounds returned, deletePattern rounds keys = some returned ∧ Quiet rounds ∧
      NoFailure rounds keys ∧ Honest matching rounds keys ∧ Allowed matching rounds keys := by
  let page := (keys.filter fun key => matching key = true).toList
  let round : Round := ⟨[], .ok (page, 0), [], .answered⟩
  have hplay : ∃ n, (round.play keys).next = .ok (n, 0) ∧ (round.play keys).page = page := by
    cases hpage : page with
    | nil => exact ⟨0, by simp [round, Round.play, hpage], by simp [round, Round.play, hpage]⟩
    | cons key rest =>
        exact ⟨_, by simp [round, Round.play, hpage]; rfl, by simp [round, Round.play, hpage]⟩
  obtain ⟨n, hnext, hnamed⟩ := hplay
  have hpasses : passes [round] keys = [round.play keys] :=
    passes_of_last [] (by simp [Pass.continues, hnext])
  have hmem : ∀ key, key ∈ page ↔ key ∈ keys ∧ matching key = true := by simp [page]
  refine ⟨[round], .ok n, ?_, by simp [Quiet, round], ?_, ?_, ?_⟩
  · simp [deletePattern, deletePatternOperation, hnext, FailSoft.executeRedisOperation]
  · simp [NoFailure, hpasses, Pass.failed, hnext]
  · intro p hp key hkey
    rw [hpasses, List.mem_singleton] at hp
    rw [hp, hnamed] at hkey
    exact ((hmem key).mp hkey).2
  · intro _ key hmatch hpresent
    have hothers := play_others round keys
    rw [hpasses] at hpresent ⊢
    obtain ⟨changes, hothers⟩ := hothers
    have hkey := hpresent _ (List.mem_singleton_self _) keys (by simp [Pass.moments, hothers])
    exact ⟨_, List.mem_singleton_self _, by rw [hnamed]; exact (hmem key).mpr ⟨hkey, hmatch⟩⟩

/-! ## The in-memory cache -/

/-- The live keys, which are those Redis still has. -/
def liveKeys (now : Nat) (c : InMemoryCache) : Keys :=
  ((c.cache.filter fun e => !InMemoryCache.isExpired now e.2.2).map Prod.fst).toFinset

theorem mem_liveKeys {now : Nat} {c : InMemoryCache} {key : String} :
    key ∈ liveKeys now c ↔
      ∃ entry, (key, entry) ∈ c.cache ∧ InMemoryCache.isExpired now entry.2 = false := by
  simp [liveKeys]

theorem mem_liveKeys_deletePattern {now : Nat} {c : InMemoryCache} {pattern key : String} :
    key ∈ liveKeys now (c.deletePattern fnmatch pattern).2 ↔
      key ∈ liveKeys now c ∧ fnmatch key pattern = false := by
  simp only [mem_liveKeys, InMemoryCache.deletePattern, Dict.removeIf, List.mem_filter]
  constructor
  · rintro ⟨entry, ⟨hmem, hkept⟩, hlive⟩
    exact ⟨⟨entry, hmem, hlive⟩, by simpa using hkept⟩
  · rintro ⟨⟨entry, hmem, hlive⟩, hkept⟩
    exact ⟨entry, ⟨hmem, by simpa using hkept⟩, hlive⟩

/-- The number returned counts the matching live keys, and the matching entries that have
expired. -/
theorem deletePattern_count {c : InMemoryCache} (hdict : (Dict.keys c.cache).Nodup) (now : Nat)
    (pattern : String) :
    (c.deletePattern fnmatch pattern).1 =
      ((liveKeys now c).filter fun key => fnmatch key pattern = true).card +
        (c.cache.filter fun e =>
          fnmatch e.1 pattern && InMemoryCache.isExpired now e.2.2).length := by
  have hlive : ((liveKeys now c).filter fun key => fnmatch key pattern = true).card =
      (c.cache.filter fun e =>
        fnmatch e.1 pattern && !InMemoryCache.isExpired now e.2.2).length := by
    have hset : ((liveKeys now c).filter fun key => fnmatch key pattern = true) =
        ((c.cache.filter fun e =>
          fnmatch e.1 pattern && !InMemoryCache.isExpired now e.2.2).map Prod.fst).toFinset := by
      ext key
      simp only [Finset.mem_filter, mem_liveKeys, List.mem_toFinset, List.mem_map,
        List.mem_filter, Bool.and_eq_true, Bool.not_eq_true']
      constructor
      · rintro ⟨⟨entry, hmem, hlive⟩, hmatch⟩
        exact ⟨(key, entry), ⟨hmem, hmatch, hlive⟩, rfl⟩
      · rintro ⟨⟨key, entry⟩, ⟨hmem, hmatch, hlive⟩, rfl⟩
        exact ⟨⟨entry, hmem, hlive⟩, hmatch⟩
    rw [hset, List.toFinset_card_of_nodup, List.length_map]
    exact hdict.sublist (List.filter_sublist.map _)
  have hsplit := List.length_eq_length_filter_add (l := c.cache.filter fun e => fnmatch e.1 pattern)
    fun e => InMemoryCache.isExpired now e.2.2
  rw [List.filter_filter, List.filter_filter] at hsplit
  rw [hlive, InMemoryCache.deletePattern, hsplit, Nat.add_comm]
  simp only [Bool.and_comm]

/-! ## Both backends -/

/-- What Redis removes and returns for the pattern is what the in-memory cache removes
and returns. -/
def SameDeletion (now : Nat) (pattern : String) (c : InMemoryCache) : Prop :=
  ∀ rounds returned, deletePattern rounds (liveKeys now c) = some returned → Quiet rounds →
    NoFailure rounds (liveKeys now c) → Honest (redisMatch pattern) rounds (liveKeys now c) →
    Allowed (redisMatch pattern) rounds (liveKeys now c) →
    (∀ key, key ∈ removedKeys rounds (liveKeys now c) ↔
      key ∈ liveKeys now c ∧ key ∉ liveKeys now (c.deletePattern fnmatch pattern).2) ∧
      returned = .ok (c.deletePattern fnmatch pattern).1

/-- The dialects agree on the live keys, and no entry that has expired is matched. -/
def Agreement (now : Nat) (pattern : String) (c : InMemoryCache) : Prop :=
  (∀ key ∈ liveKeys now c, redisMatch pattern key = fnmatch key pattern) ∧
    ∀ e ∈ c.cache, fnmatch e.1 pattern = true → InMemoryCache.isExpired now e.2.2 = false

variable {c : InMemoryCache} {now : Nat} {pattern : String}

theorem agreement_of_sameDeletion (hdict : (Dict.keys c.cache).Nodup)
    (hsame : SameDeletion now pattern c) : Agreement now pattern c := by
  obtain ⟨rounds, returned, hends, hquiet, hnone, hhonest, hallowed⟩ :=
    exists_deletion (redisMatch pattern) (liveKeys now c)
  obtain ⟨hkeys, hcount⟩ := hsame rounds returned hends hquiet hnone hhonest hallowed
  obtain ⟨hremoved, hreturned⟩ := redis_deletes hends hquiet hnone hhonest hallowed
  have hglobs : ∀ key ∈ liveKeys now c, redisMatch pattern key = fnmatch key pattern := by
    intro key hkey
    have hiff := hkeys key
    rw [hremoved, mem_liveKeys_deletePattern, Finset.mem_filter] at hiff
    simp only [hkey, true_and, Bool.not_eq_false] at hiff
    exact Bool.eq_iff_iff.mpr hiff
  refine ⟨hglobs, fun e he hmatch => ?_⟩
  have hmatched : (liveKeys now c).filter (fun key => redisMatch pattern key = true) =
      (liveKeys now c).filter fun key => fnmatch key pattern = true :=
    Finset.filter_congr fun key hkey => by rw [hglobs key hkey]
  rw [hreturned, hmatched, deletePattern_count hdict now pattern] at hcount
  have hnil := List.eq_nil_of_length_eq_zero (Nat.left_eq_add.mp (Except.ok.inj hcount))
  have hkept := List.filter_eq_nil_iff.mp hnil e he
  simpa [hmatch] using hkept

theorem sameDeletion_of_agreement (hdict : (Dict.keys c.cache).Nodup)
    (hagree : Agreement now pattern c) : SameDeletion now pattern c := by
  obtain ⟨hglobs, hlive⟩ := hagree
  intro rounds returned hends hquiet hnone hhonest hallowed
  obtain ⟨hremoved, hreturned⟩ := redis_deletes hends hquiet hnone hhonest hallowed
  have hmatched : (liveKeys now c).filter (fun key => redisMatch pattern key = true) =
      (liveKeys now c).filter fun key => fnmatch key pattern = true :=
    Finset.filter_congr fun key hkey => by rw [hglobs key hkey]
  have hexpired : (c.cache.filter fun e =>
      fnmatch e.1 pattern && InMemoryCache.isExpired now e.2.2) = [] := by
    refine List.filter_eq_nil_iff.mpr fun e he => ?_
    cases hmatch : fnmatch e.1 pattern with
    | false => simp
    | true => simp [hlive e he hmatch]
  constructor
  · intro key
    rw [hremoved, hmatched, mem_liveKeys_deletePattern, Finset.mem_filter]
    constructor
    · rintro ⟨hkey, hmatch⟩
      exact ⟨hkey, fun h => by simp [hmatch] at h⟩
    · rintro ⟨hkey, hgone⟩
      exact ⟨hkey, by simpa [hkey] using hgone⟩
  · rw [hreturned, hmatched, deletePattern_count hdict now pattern, hexpired]
    rfl

theorem sameDeletion_iff (hdict : (Dict.keys c.cache).Nodup) (now : Nat) (pattern : String) :
    SameDeletion now pattern c ↔ Agreement now pattern c :=
  ⟨agreement_of_sameDeletion hdict, sameDeletion_of_agreement hdict⟩

/-- Without classes and escapes, and in ASCII, the dialects agree. -/
theorem agreement_of_isSimple
    (hsimple : isSimple pattern = true) (hascii : ∀ key ∈ liveKeys now c, isAscii key = true)
    (hlive : ∀ e ∈ c.cache, InMemoryCache.isExpired now e.2.2 = false) :
    Agreement now pattern c :=
  ⟨fun key hkey => redisMatch_eq_fnmatch hsimple (hascii key hkey), fun e he _ => hlive e he⟩

/-! ## A negated class, and an entry that has expired -/

def oneLetter : InMemoryCache := { InMemoryCache.init with cache := [("b", "1", none)] }

theorem sameDeletion_one_letter :
    SameDeletion 0 "b*" oneLetter ↔ Agreement 0 "b*" oneLetter :=
  sameDeletion_iff (by decide) 0 "b*"

def expiredLetter : InMemoryCache := { InMemoryCache.init with cache := [("b", "1", some 5)] }

theorem dialects_differ :
    ¬ SameDeletion 0 "[^a]" oneLetter ∧ ¬ SameDeletion 10 "*" expiredLetter := by
  constructor
  · intro hsame
    have hagree := agreement_of_sameDeletion (by decide) hsame
    exact absurd (hagree.1 "b" (by decide)) (by decide)
  · intro hsame
    have hagree := agreement_of_sameDeletion (by decide) hsame
    exact absurd (hagree.2 _ List.mem_cons_self (by decide)) (by decide)

end BackendProdReady.Cache.PatternDialects
