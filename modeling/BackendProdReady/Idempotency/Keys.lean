import Mathlib.Data.Set.Operations
import Mathlib.Tactic.Common

/-!
# The key space of the idempotency service

Keys end in a SHA-256 hex digest, marker keys in the suffix `:in_progress`, whose
last letter is no hex digit.  The digest function is a parameter; what is known
of it is the shape of its results.
-/

namespace BackendProdReady.Idempotency.Keys

def isLowerHexDigit (c : Char) : Bool := c.isDigit || ('a' ≤ c && c ≤ 'f')

/-- The result of `hexdigest()`. -/
structure HexDigest where
  text : String
  length_eq : text.toList.length = 64
  isLowerHex : text.toList.all isLowerHexDigit = true

structure Pair where
  key : String
  namespaceName : Option String
deriving DecidableEq

def cachePrefix : String := "idempotency"

def inProgressSuffix : String := ":in_progress"

variable (sha256 : String → HexDigest)

/-- An empty namespace counts as none. -/
def buildKey (pair : Pair) : String :=
  match pair.namespaceName with
  | none | some "" => cachePrefix ++ ":" ++ (sha256 pair.key).text
  | some namespaceName =>
      cachePrefix ++ ":" ++ namespaceName ++ ":" ++ (sha256 pair.key).text

def buildInProgressKey (pair : Pair) : String := buildKey sha256 pair ++ inProgressSuffix

/-! ## Records and markers -/

theorem buildKey_eq_append (pair : Pair) :
    ∃ front : String, buildKey sha256 pair = front ++ (sha256 pair.key).text := by
  unfold buildKey
  split
  · exact ⟨_, rfl⟩
  · exact ⟨_, rfl⟩
  · exact ⟨_, rfl⟩

theorem HexDigest.text_ne_nil (digest : HexDigest) : digest.text.toList ≠ [] := by
  intro h
  have hlen := digest.length_eq
  simp [h] at hlen

theorem getLast?_buildKey (pair : Pair) :
    ∃ c, (buildKey sha256 pair).toList.getLast? = some c ∧ isLowerHexDigit c = true := by
  obtain ⟨front, hkey⟩ := buildKey_eq_append sha256 pair
  have hne := (sha256 pair.key).text_ne_nil
  refine ⟨(sha256 pair.key).text.toList.getLast hne, ?_, ?_⟩
  · rw [hkey, String.toList_append, List.getLast?_append, List.getLast?_eq_some_getLast hne]
    rfl
  · exact List.all_eq_true.mp (sha256 pair.key).isLowerHex _ (List.getLast_mem hne)

theorem getLast?_buildInProgressKey (pair : Pair) :
    (buildInProgressKey sha256 pair).toList.getLast? = some 's' := by
  have hsuffix : inProgressSuffix.toList.getLast? = some 's' := by decide
  rw [buildInProgressKey, String.toList_append, List.getLast?_append, hsuffix]
  rfl

theorem buildKey_ne_buildInProgressKey (pair other : Pair) :
    buildKey sha256 pair ≠ buildInProgressKey sha256 other := by
  intro h
  obtain ⟨c, hlast, hhex⟩ := getLast?_buildKey sha256 pair
  rw [h, getLast?_buildInProgressKey, Option.some.injEq] at hlast
  subst hlast
  exact absurd hhex (by decide)

theorem buildInProgressKey_inj {pair other : Pair} :
    buildInProgressKey sha256 pair = buildInProgressKey sha256 other ↔
      buildKey sha256 pair = buildKey sha256 other := by
  refine ⟨fun h => ?_, fun h => by rw [buildInProgressKey, h, buildInProgressKey]⟩
  have hlist := congrArg String.toList h
  rw [buildInProgressKey, buildInProgressKey, String.toList_append, String.toList_append] at hlist
  exact String.toList_injective (List.append_cancel_right hlist)

/-! ## Injectivity -/

/-- `if namespace`: an empty namespace is none. -/
def named (namespaceName : Option String) : Option String := namespaceName.filter (· ≠ "")

def Pair.normalized (pair : Pair) : Pair := { pair with namespaceName := named pair.namespaceName }

def front : Option String → String
  | none => cachePrefix ++ ":"
  | some namespaceName => cachePrefix ++ ":" ++ namespaceName ++ ":"

theorem named_some {namespaceName : String} (h : namespaceName ≠ "") :
    named (some namespaceName) = some namespaceName := by
  simp [named, Option.filter, h]

theorem buildKey_eq_front (pair : Pair) :
    buildKey sha256 pair = front (named pair.namespaceName) ++ (sha256 pair.key).text := by
  unfold buildKey
  split
  · rename_i hname
    rw [hname]
    rfl
  · rename_i hname
    rw [hname]
    rfl
  · rename_i namespaceName hne hname
    rw [hname, named_some hne]
    rfl

theorem buildKey_normalized (pair : Pair) :
    buildKey sha256 pair.normalized = buildKey sha256 pair := by
  have hnamed : named (named pair.namespaceName) = named pair.namespaceName := by
    simp [named, Option.filter_filter]
  rw [buildKey_eq_front, buildKey_eq_front, Pair.normalized, hnamed]

theorem HexDigest.text_inj {digest other : HexDigest} (h : digest.text = other.text) :
    digest = other := by
  cases digest
  cases other
  cases h
  rfl

theorem front_inj {name other : Option String} (h : front name = front other) : name = other := by
  have hlist := congrArg String.toList h
  cases name with
  | none =>
      cases other with
      | none => rfl
      | some n => simp [front] at hlist
  | some m =>
      cases other with
      | none => simp [front] at hlist
      | some n =>
          simp only [front, String.toList_append, List.append_cancel_right_eq,
            List.append_cancel_left_eq] at hlist
          rw [String.toList_injective hlist]

/-- The digests at the end have one length, so the parts of a key are known. -/
theorem parts_eq_of_buildKey_eq {pair other : Pair}
    (h : buildKey sha256 pair = buildKey sha256 other) :
    named pair.namespaceName = named other.namespaceName ∧ sha256 pair.key = sha256 other.key := by
  rw [buildKey_eq_front, buildKey_eq_front] at h
  have hlist := congrArg String.toList h
  rw [String.toList_append, String.toList_append] at hlist
  obtain ⟨hfront, hdigest⟩ := List.append_inj' hlist (by
    rw [(sha256 pair.key).length_eq, (sha256 other.key).length_eq])
  exact ⟨front_inj (String.toList_injective hfront),
    HexDigest.text_inj (String.toList_injective hdigest)⟩

variable {sha256} in
/-- Distinct pairs have distinct keys, whatever their namespaces contain. -/
theorem buildKey_inj {K : Set String} (hdistinct : Set.InjOn sha256 K) {pair other : Pair}
    (hpair : pair.key ∈ K) (hother : other.key ∈ K) :
    buildKey sha256 pair = buildKey sha256 other ↔ pair.normalized = other.normalized := by
  constructor
  · intro h
    obtain ⟨hname, hdigest⟩ := parts_eq_of_buildKey_eq sha256 h
    have hkey : pair.key = other.key := hdistinct hpair hother hdigest
    rw [Pair.normalized, Pair.normalized, hkey, hname]
  · intro h
    rw [← buildKey_normalized sha256 pair, h, buildKey_normalized]

end BackendProdReady.Idempotency.Keys
