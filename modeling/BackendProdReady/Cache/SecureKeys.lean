import BackendProdReady.Idempotency.Keys

/-!
# Hashed cache keys

`generate_secure_key` drops the parts that are empty, joins the others with `:` and
hashes the result.  No two digests collide on the texts under discussion, a set that is a
parameter: digests are finitely many, so no digest function is injective on all texts.
-/

namespace BackendProdReady.Cache.SecureKeys

open BackendProdReady.Idempotency.Keys (HexDigest HexDigest.text_inj)

/-! ## Source -/

def hashKey (sha256 : String → HexDigest) (key : String) : String := (sha256 key).text

def keptParts (parts : List String) : List String := parts.filter (· ≠ "")

def combined (parts : List String) : String := ":".intercalate (keptParts parts)

def generateSecureKey (sha256 : String → HexDigest) (keyPrefix : String) (parts : List String) :
    String :=
  keyPrefix ++ ":" ++ hashKey sha256 (combined parts)

/-! ## What a key shows -/

theorem eq_nil_of_combined_eq_empty {parts : List String} (h : combined parts = "") :
    keptParts parts = [] := by
  cases hkept : keptParts parts with
  | nil => rfl
  | cons part rest =>
      have hne : part ≠ "" := by
        have hmem : part ∈ keptParts parts := by simp [hkept]
        simpa using (List.mem_filter.mp hmem).2
      rw [combined, hkept] at h
      cases rest with
      | nil => exact absurd (by simpa using h) hne
      | cons next rest => simp [String.intercalate_cons_cons] at h

/-- Parts without `:` can be read off their join. -/
theorem splitOn_combined {parts : List String} (hcolon : ∀ part ∈ parts, ':' ∉ part.toList)
    (hne : keptParts parts ≠ []) :
    (combined parts).toList.splitOn ':' = (keptParts parts).map String.toList := by
  have hjoin : (combined parts).toList =
      [':'].intercalate ((keptParts parts).map String.toList) := by
    rw [combined, String.toList_intercalate]
    rfl
  rw [hjoin, List.splitOn_intercalate]
  · intro l hl
    obtain ⟨part, hpart, rfl⟩ := List.mem_map.mp hl
    exact hcolon part (List.mem_filter.mp hpart).1
  · simpa using hne

theorem combined_eq_iff {parts others : List String}
    (hparts : ∀ part ∈ parts, ':' ∉ part.toList) (hothers : ∀ part ∈ others, ':' ∉ part.toList) :
    combined parts = combined others ↔ keptParts parts = keptParts others := by
  constructor
  · intro h
    by_cases hnil : keptParts parts = []
    · have hempty : combined others = "" := by rw [← h, combined, hnil]; rfl
      rw [hnil, eq_nil_of_combined_eq_empty hempty]
    · have hnil' : keptParts others ≠ [] := by
        intro hnil'
        have hempty : combined parts = "" := by rw [h, combined, hnil']; rfl
        exact hnil (eq_nil_of_combined_eq_empty hempty)
      have hlists := splitOn_combined hparts hnil
      rw [h, splitOn_combined hothers hnil'] at hlists
      exact ((List.map_inj_right fun _ _ heq => String.toList_injective heq).mp hlists).symm
  · intro h
    rw [combined, h, combined]

/-- The digest has a fixed length, so the prefix is known, and the digest shows what was
hashed. -/
theorem generateSecureKey_inj {sha256 : String → HexDigest} {K : Set String}
    (hdistinct : Set.InjOn sha256 K) (keyPrefix otherPrefix : String)
    {parts others : List String} (hparts : combined parts ∈ K) (hothers : combined others ∈ K) :
    generateSecureKey sha256 keyPrefix parts = generateSecureKey sha256 otherPrefix others ↔
      keyPrefix = otherPrefix ∧ combined parts = combined others := by
  constructor
  · intro h
    have hlist := congrArg String.toList h
    simp only [generateSecureKey, hashKey, String.toList_append] at hlist
    obtain ⟨hfront, hdigest⟩ := List.append_inj' hlist (by
      rw [(sha256 (combined parts)).length_eq, (sha256 (combined others)).length_eq])
    have htext := HexDigest.text_inj (String.toList_injective hdigest)
    exact ⟨String.toList_injective (List.append_cancel_right hfront),
      hdistinct hparts hothers htext⟩
  · rintro ⟨rfl, hcombined⟩
    rw [generateSecureKey, hcombined, generateSecureKey]

theorem secure_key_eq_iff {sha256 : String → HexDigest} {K : Set String}
    (hdistinct : Set.InjOn sha256 K) {keyPrefix otherPrefix : String} {parts others : List String}
    (hparts : combined parts ∈ K) (hothers : combined others ∈ K) :
    (generateSecureKey sha256 keyPrefix parts = generateSecureKey sha256 otherPrefix others ↔
        keyPrefix = otherPrefix ∧ combined parts = combined others) ∧
      ((∀ part ∈ parts, ':' ∉ part.toList) → (∀ part ∈ others, ':' ∉ part.toList) →
        (generateSecureKey sha256 keyPrefix parts = generateSecureKey sha256 otherPrefix others ↔
          keyPrefix = otherPrefix ∧ keptParts parts = keptParts others)) := by
  have hkeys := generateSecureKey_inj hdistinct keyPrefix otherPrefix hparts hothers
  refine ⟨hkeys, fun hcolon hcolon' => ?_⟩
  rw [hkeys, combined_eq_iff hcolon hcolon']

/-! ## Two users -/

/-- The digest of `user_1`, and another for everything else. -/
def userDigest (key : String) : HexDigest :=
  if key = "user_1" then
    ⟨"ad8ea2d7f2a0a8d5e2e5a4f5f2d6b7c8e9fa0b1c2d3e4f5061728394a5b6c7d8", by decide, by decide⟩
  else
    ⟨"3f9c1b2a4d5e6f708192a3b4c5d6e7f8091a2b3c4d5e6f708192a3b4c5d6e7f8", by decide, by decide⟩

theorem secure_key_two_users :
    (generateSecureKey userDigest "profile" ["user_1"] =
          generateSecureKey userDigest "profile" ["user_2"] ↔
        "profile" = "profile" ∧ combined ["user_1"] = combined ["user_2"]) ∧
      ((∀ part ∈ ["user_1"], ':' ∉ part.toList) → (∀ part ∈ ["user_2"], ':' ∉ part.toList) →
        (generateSecureKey userDigest "profile" ["user_1"] =
            generateSecureKey userDigest "profile" ["user_2"] ↔
          "profile" = "profile" ∧ keptParts ["user_1"] = keptParts ["user_2"])) := by
  have hsecond : combined ["user_2"] = "user_2" := by decide
  refine secure_key_eq_iff (K := {"user_1", "user_2"}) ?_ (.inl (by decide)) (.inr hsecond)
  have hne : (userDigest "user_1").text ≠ (userDigest "user_2").text := by decide
  intro key hkey other hother hsame
  rcases hkey with rfl | rfl <;> rcases hother with rfl | rfl
  · rfl
  · exact absurd (congrArg HexDigest.text hsame) hne
  · exact absurd (congrArg HexDigest.text hsame).symm hne
  · rfl

/-- An empty part, and a part with a `:`, whatever the digest. -/
theorem shared_secure_key :
    ["a", ""] ≠ ["a"] ∧ ["a:b"] ≠ ["a", "b"] ∧ ∀ sha256 : String → HexDigest,
      generateSecureKey sha256 "profile" ["a", ""] = generateSecureKey sha256 "profile" ["a"] ∧
        generateSecureKey sha256 "profile" ["a:b"] =
          generateSecureKey sha256 "profile" ["a", "b"] := by
  have hempty : combined ["a", ""] = combined ["a"] := by decide
  have hcolon : combined ["a:b"] = combined ["a", "b"] := by decide
  refine ⟨by decide, by decide, fun sha256 => ⟨?_, ?_⟩⟩
  · rw [generateSecureKey, hempty, generateSecureKey]
  · rw [generateSecureKey, hcolon, generateSecureKey]

end BackendProdReady.Cache.SecureKeys
