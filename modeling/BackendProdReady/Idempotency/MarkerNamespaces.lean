import BackendProdReady.Idempotency.MarkerCleanup
import BackendProdReady.Idempotency.Workers
import BackendProdReady.Lib.Glob

/-!
# The markers a clean-up reaches

The keys that the MATCH pattern of a namespace accepts.  The namespace is part of the
pattern as it is, so it is read as a glob of its own; and a key joins its namespace with
`:` as it is, so a namespace that goes on after a `:` has keys that begin alike.
-/

namespace BackendProdReady.Idempotency.MarkerNamespaces

open BackendProdReady.Lib.Glob
open BackendProdReady.Lib.Runs
open BackendProdReady.Lib.ExpiringStore
open BackendProdReady.Idempotency.Keys
open BackendProdReady.Idempotency.Service
open BackendProdReady.Idempotency.Workers
open BackendProdReady.Idempotency.MarkerCleanup
open BackendProdReady.Cache.PatternDeletion (Keys)

/-! ## The bytes of keys -/

/-- What stands between the prefix and the digest. -/
def segment : Option String → List Char
  | none => []
  | some namespaceName => utf8Bytes namespaceName ++ [':']

variable (sha256 : String → HexDigest)

theorem utf8Bytes_digest (digest : HexDigest) : utf8Bytes digest.text = digest.text.toList := by
  apply utf8Bytes_of_isAscii
  rw [isAscii, List.all_eq_true]
  intro c hc
  have hhex := List.all_eq_true.mp digest.isLowerHex c hc
  simp only [isLowerHexDigit, Char.isDigit, Bool.or_eq_true, Bool.and_eq_true, decide_eq_true_eq]
    at hhex
  apply decide_eq_true
  rcases hhex with ⟨-, hle⟩ | ⟨-, hle⟩
  · exact Nat.lt_of_le_of_lt hle (by decide)
  · exact Nat.lt_of_le_of_lt hle (by decide)

theorem utf8Bytes_buildKey (pair : Pair) :
    utf8Bytes (buildKey sha256 pair) =
      (cachePrefix ++ ":").toList ++
        (segment (named pair.namespaceName) ++ (sha256 pair.key).text.toList) := by
  have hprefix : utf8Bytes (cachePrefix ++ ":") = (cachePrefix ++ ":").toList := by decide
  have hcolon : utf8Bytes ":" = [':'] := by decide
  rw [buildKey_eq_front, utf8Bytes_append, utf8Bytes_digest]
  cases named pair.namespaceName with
  | none => rw [front, hprefix, segment, List.nil_append]
  | some namespaceName =>
      rw [front, utf8Bytes_append, utf8Bytes_append, hprefix, hcolon, segment]
      simp only [List.append_assoc]

theorem utf8Bytes_buildInProgressKey (pair : Pair) :
    utf8Bytes (buildInProgressKey sha256 pair) =
      utf8Bytes (buildKey sha256 pair) ++ inProgressSuffix.toList := by
  have hsuffix : utf8Bytes inProgressSuffix = inProgressSuffix.toList := by decide
  rw [buildInProgressKey, utf8Bytes_append, hsuffix]

theorem colon_not_mem_digest (digest : HexDigest) : ':' ∉ digest.text.toList := by
  intro h
  exact absurd (List.all_eq_true.mp digest.isLowerHex ':' h) (by decide)

/-! ## What a pattern matches -/

/-- The bracket of a class that the namespace opens is not closed in it, and the rest of
the pattern becomes part of the class. -/
def leavesClassOpen (namespaceName : String) : Bool :=
  (openClass none (utf8Bytes namespaceName ++ [':'])).isSome

/-- The glob of one namespace accepts another, or its part before some `:`. -/
def reaches (namespaceName : String) (other : Option String) : Bool :=
  (segment other).inits.any
    (accepts (redisTokens none (utf8Bytes namespaceName ++ [':'])))

def matching (namespaceName : Option String) (key : String) : Bool :=
  redisMatch (markerPattern namespaceName) key

theorem redisTokens_markerPattern {namespaceName : String} (hname : namespaceName ≠ "")
    (hclosed : leavesClassOpen namespaceName = false) :
    redisTokens none (utf8Bytes (markerPattern (some namespaceName))) =
      literal (cachePrefix ++ ":").toList ++
        (redisTokens none (utf8Bytes namespaceName ++ [':']) ++
          .star :: literal inProgressSuffix.toList) := by
  have hpattern : markerPattern (some namespaceName) =
      cachePrefix ++ ":" ++ namespaceName ++ ":*" ++ inProgressSuffix := by
    unfold markerPattern
    split
    · rename_i h
      exact absurd h (by simp)
    · rename_i h
      exact absurd (Option.some.inj h) hname
    · rename_i h
      rw [Option.some.inj h]
  have hbytes : utf8Bytes (markerPattern (some namespaceName)) =
      (cachePrefix ++ ":").toList ++
        ((utf8Bytes namespaceName ++ [':']) ++ '*' :: inProgressSuffix.toList) := by
    have hprefix : utf8Bytes (cachePrefix ++ ":") = (cachePrefix ++ ":").toList := by decide
    have hstar : utf8Bytes ":*" = [':', '*'] := by decide
    have hsuffix : utf8Bytes inProgressSuffix = inProgressSuffix.toList := by decide
    rw [hpattern, utf8Bytes_append, utf8Bytes_append, utf8Bytes_append, hprefix, hstar, hsuffix]
    simp
  have hprefix : redisTokens none (cachePrefix ++ ":").toList =
      literal (cachePrefix ++ ":").toList := redisTokens_literal (by decide)
  have hsuffix : redisTokens none ('*' :: inProgressSuffix.toList) =
      .star :: literal inProgressSuffix.toList := by
    rw [redisTokens_plain (by decide) (by decide), redisTokens_literal (by decide)]
    rfl
  have hopen : openClass none (utf8Bytes namespaceName ++ [':']) = none := by
    simpa [leavesClassOpen] using hclosed
  have hlast : ¬ ['\\'] <:+ utf8Bytes namespaceName ++ [':'] := by
    rintro ⟨front, h⟩
    exact absurd (List.append_singleton_inj.mp h).2 (by decide)
  rw [hbytes, redisTokens_append (by decide) (by decide), hprefix,
    redisTokens_append hopen hlast, hsuffix]

/-- A text that the pattern matches, after the prefix. -/
theorem matching_iff {namespaceName : String} (hname : namespaceName ≠ "")
    (hclosed : leavesClassOpen namespaceName = false) {key : String} {rest : List Char}
    (hkey : utf8Bytes key = (cachePrefix ++ ":").toList ++ rest) :
    matching (some namespaceName) key = true ↔
      ∃ p skipped, rest = p ++ skipped ++ inProgressSuffix.toList ∧
        accepts (redisTokens none (utf8Bytes namespaceName ++ [':'])) p = true := by
  rw [matching, redisMatch, redisTokens_markerPattern hname hclosed, hkey, accepts_literal_append]
  constructor
  · rintro ⟨rest', hrest, h⟩
    obtain rfl := List.append_cancel_left hrest
    obtain ⟨p, y, rfl, hp, hy⟩ := accepts_append.mp h
    obtain ⟨skipped, _, rfl, hsuffix⟩ := accepts_star.mp hy
    rw [accepts_literal.mp hsuffix]
    exact ⟨p, skipped, (List.append_assoc ..).symm, hp⟩
  · rintro ⟨p, skipped, rfl, hp⟩
    refine ⟨_, rfl, ?_⟩
    rw [List.append_assoc]
    exact accepts_append.mpr ⟨p, _, rfl, hp,
      accepts_star.mpr ⟨skipped, _, rfl, accepts_literal.mpr rfl⟩⟩

theorem getLast?_of_reached {namespaceName : String} {p : List Char}
    (hclosed : leavesClassOpen namespaceName = false)
    (hp : accepts (redisTokens none (utf8Bytes namespaceName ++ [':'])) p = true) :
    p.getLast? = some ':' := by
  have hopen : openClass none (utf8Bytes namespaceName ++ [':']) = none := by
    simpa [leavesClassOpen] using hclosed
  exact getLast?_of_accepts (by decide) hopen (by simp) hp

theorem matching_buildInProgressKey {namespaceName : String} (hname : namespaceName ≠ "")
    (hclosed : leavesClassOpen namespaceName = false) (pair : Pair) :
    matching (some namespaceName) (buildInProgressKey sha256 pair) = true ↔
      reaches namespaceName (named pair.namespaceName) = true := by
  have hkey : utf8Bytes (buildInProgressKey sha256 pair) = (cachePrefix ++ ":").toList ++
      (segment (named pair.namespaceName) ++ (sha256 pair.key).text.toList ++
        inProgressSuffix.toList) := by
    rw [utf8Bytes_buildInProgressKey, utf8Bytes_buildKey]
    simp only [List.append_assoc]
  rw [matching_iff hname hclosed hkey, reaches, List.any_eq_true]
  constructor
  · rintro ⟨p, skipped, hrest, hp⟩
    have hsplit := List.append_cancel_right hrest
    refine ⟨p, List.mem_inits _ _ |>.mpr ?_, hp⟩
    rcases List.append_eq_append_iff.mp hsplit with ⟨extra, rfl, hdigest⟩ | ⟨more, hmore, -⟩
    · -- a digest has no `:`
      cases hextra : extra.getLast? with
      | none =>
          rw [List.getLast?_eq_none_iff.mp hextra, List.append_nil]
      | some c =>
          have hlast := getLast?_of_reached hclosed hp
          rw [List.getLast?_append, hextra] at hlast
          obtain rfl : c = ':' := by simpa using hlast
          refine absurd ?_ (colon_not_mem_digest (sha256 pair.key))
          rw [hdigest]
          exact List.mem_append_left _ (List.mem_of_getLast? hextra)
    · exact ⟨more, hmore.symm⟩
  · rintro ⟨p, hinit, hp⟩
    obtain ⟨more, hmore⟩ := (List.mem_inits _ _).mp hinit
    refine ⟨p, more ++ (sha256 pair.key).text.toList, ?_, hp⟩
    rw [← hmore]
    simp only [List.append_assoc]

theorem not_matching_buildKey {namespaceName : String} (hname : namespaceName ≠ "")
    (hclosed : leavesClassOpen namespaceName = false) (pair : Pair) :
    matching (some namespaceName) (buildKey sha256 pair) = false := by
  rw [← Bool.not_eq_true, matching_iff hname hclosed (utf8Bytes_buildKey sha256 pair)]
  rintro ⟨p, skipped, hrest, -⟩
  have hlast := congrArg List.getLast? hrest
  have hne := (sha256 pair.key).text_ne_nil
  rw [List.getLast?_append_of_ne_nil _ hne, List.getLast?_append_of_ne_nil _ (by decide)] at hlast
  have hmem := List.mem_of_getLast? (hlast.trans (by decide : _ = some 's'))
  exact absurd (List.all_eq_true.mp (sha256 pair.key).isLowerHex 's' hmem) (by decide)

/-- A namespace without glob characters reaches itself and those that go on after it
with a `:`. -/
theorem reaches_iff_of_plain {namespaceName : String}
    (hplain : (utf8Bytes namespaceName).all isPlain = true) (other : Option String) :
    reaches namespaceName other = true ↔ utf8Bytes namespaceName ++ [':'] <+: segment other := by
  have hword : (utf8Bytes namespaceName ++ [':']).all isPlain = true := by
    rw [List.all_append, hplain]
    decide
  simp only [reaches, List.any_eq_true, List.mem_inits, redisTokens_literal hword,
    accepts_literal]
  constructor
  · rintro ⟨p, hp, rfl⟩
    exact hp
  · intro hp
    exact ⟨_, hp, rfl⟩

/-! ## Keys of other namespaces -/

/-- A marker of the namespace. -/
def Own (namespaceName key : String) : Prop :=
  ∃ external, key = buildInProgressKey sha256 ⟨external, some namespaceName⟩

def ServiceKey (key : String) : Prop :=
  ∃ pair, key = buildKey sha256 pair ∨ key = buildInProgressKey sha256 pair

/-- A marker of another namespace that the glob reaches; where a class stays open, any
key but the namespace's own markers that the whole pattern matches. -/
def Strays (namespaceName key : String) : Prop :=
  if leavesClassOpen namespaceName then
    ¬ Own sha256 namespaceName key ∧ matching (some namespaceName) key = true
  else
    ∃ pair, key = buildInProgressKey sha256 pair ∧
      named pair.namespaceName ≠ some namespaceName ∧
      reaches namespaceName (named pair.namespaceName) = true

theorem own_iff {namespaceName : String} (hname : namespaceName ≠ "") (pair : Pair) :
    Own sha256 namespaceName (buildInProgressKey sha256 pair) ↔
      named pair.namespaceName = some namespaceName := by
  constructor
  · rintro ⟨external, h⟩
    have hnames := (parts_eq_of_buildKey_eq sha256 ((buildInProgressKey_inj sha256).mp h)).1
    rw [hnames, named_some hname]
  · intro h
    refine ⟨pair.key, ?_⟩
    rw [buildInProgressKey_inj, buildKey_eq_front, buildKey_eq_front, h, named_some hname]

theorem strays_iff {namespaceName key : String} (hname : namespaceName ≠ "")
    (hkey : ServiceKey sha256 key) :
    Strays sha256 namespaceName key ↔
      ¬ Own sha256 namespaceName key ∧ matching (some namespaceName) key = true := by
  unfold Strays
  cases hopen : leavesClassOpen namespaceName with
  | true => simp
  | false =>
      simp only [Bool.false_eq_true, if_false]
      constructor
      · rintro ⟨pair, rfl, hother, hreached⟩
        exact ⟨fun hown => hother ((own_iff sha256 hname pair).mp hown),
          (matching_buildInProgressKey sha256 hname hopen pair).mpr hreached⟩
      · rintro ⟨hforeign, hmatch⟩
        obtain ⟨pair, rfl | rfl⟩ := hkey
        · rw [not_matching_buildKey sha256 hname hopen] at hmatch
          cases hmatch
        · exact ⟨pair, rfl, fun hown => hforeign ((own_iff sha256 hname pair).mpr hown),
            (matching_buildInProgressKey sha256 hname hopen pair).mp hmatch⟩

/-! ## Key spaces of the service -/

section Held

variable {ω J : Type} [DecidableEq ω] {orjson : Orjson J} {s t : State ω}

def Held (orjson : Orjson J) (s : State ω) (labels : List (Op ω J × Option (IdempotencyResult J))) :
    Set String :=
  {key | ∃ labels' t, labels' <+: labels ∧ Run (Step sha256 orjson) s labels' t ∧
    (t.keys.find t.now key).isSome = true}

variable {sha256} in
/-- A step changes at most one key, a record or a marker. -/
theorem step_other_keys {op : Op ω J} {result : Option (IdempotencyResult J)}
    (hstep : Step sha256 orjson s (op, result) t) {key : String}
    (hkey : ¬ ServiceKey sha256 key) : t.keys key = s.keys key := by
  have hrecord : ∀ pair, key ≠ buildKey sha256 pair := fun pair h => hkey ⟨pair, .inl h⟩
  have hmarker : ∀ pair, key ≠ buildInProgressKey sha256 pair := fun pair h => hkey ⟨pair, .inr h⟩
  cases step_keys hstep with
  | kept hkeys => rw [hkeys]
  | marked w pair _ _ hkeys => rw [hkeys, Store.put_of_ne (hmarker pair)]
  | recorded pair entry _ hkeys => rw [hkeys, Store.put_of_ne (hrecord pair)]
  | released pair _ hkeys => rw [hkeys, Store.remove_of_ne (hmarker pair)]
  | dropped pair _ hkeys => rw [hkeys, Store.remove_of_ne (hrecord pair)]

variable {sha256} in
theorem serviceKey_of_stored {labels : List (Op ω J × Option (IdempotencyResult J))}
    (hrun : Run (Step sha256 orjson) s labels t) (hempty : ∀ key, s.keys key = none)
    {key : String} (hkey : t.keys key ≠ none) : ServiceKey sha256 key := by
  by_contra hother
  have hstep : ∀ (u : State ω) (label : Op ω J × Option (IdempotencyResult J)) (v : State ω),
      u.keys key = none → Step sha256 orjson u label v → v.keys key = none := by
    intro u label v hu hstep
    rw [step_other_keys hstep hother, hu]
  exact hkey (hrun.invariant hstep (hempty key))

variable {sha256} in
theorem serviceKey_of_held {labels : List (Op ω J × Option (IdempotencyResult J))}
    (hempty : ∀ key, s.keys key = none) {key : String}
    (h : key ∈ Held sha256 orjson s labels) : ServiceKey sha256 key := by
  obtain ⟨labels', t, -, hrun, hlive⟩ := h
  obtain ⟨value, hvalue⟩ := Option.isSome_iff_exists.mp hlive
  obtain ⟨entry, hentry, -⟩ := Store.find_eq_some hvalue
  exact serviceKey_of_stored hrun hempty (by simp [hentry])

end Held

/-! ## Clean-up and count -/

def Within (U : Set String) (commands : List Command) : Prop :=
  ∀ command ∈ commands, ∀ k ∈ command.others, ∀ key ∈ k, key ∈ U

/-- Whatever the replies, only the namespace's own markers are deleted and counted. -/
structure StaysInside (U : Set String) (namespaceName : String) : Prop where
  cleans : ∀ connected maxCleanup rounds keys returned commands,
    cleanupStuckInProgress connected maxCleanup rounds keys = some (returned, commands) →
    Within U commands → Honest (matching (some namespaceName)) commands →
    ∀ key ∈ removals commands, Own sha256 namespaceName key
  counts : ∀ connected rounds keys returned commands,
    getStuckInProgressCount connected rounds keys = some (returned, commands) →
    Within U commands → Honest (matching (some namespaceName)) commands →
    ∀ command ∈ commands, ∀ key ∈ command.named, Own sha256 namespaceName key

variable {sha256}

/-- A key that is named is in the key space and matches, so it is the namespace's own. -/
theorem own_of_named {U : Set String} {namespaceName : String} (hname : namespaceName ≠ "")
    (hkeys : ∀ key ∈ U, ServiceKey sha256 key)
    (hstrays : ∀ key ∈ U, ¬ Strays sha256 namespaceName key) {commands : List Command}
    (hwithin : Within U commands) (hhonest : Honest (matching (some namespaceName)) commands)
    {command : Command} (hcommand : command ∈ commands) {key : String}
    (hnamed : key ∈ command.named) : Own sha256 namespaceName key := by
  obtain ⟨hmatch, hfound⟩ := hhonest command hcommand key hnamed
  obtain ⟨k, hk, hkey⟩ := exists_of_mem_found hfound
  have hU := hwithin command hcommand k hk key hkey
  by_contra hforeign
  exact hstrays key hU ((strays_iff sha256 hname (hkeys key hU)).mpr ⟨hforeign, hmatch⟩)

/-- A foreign key that matches is deleted as soon as a reply names it. -/
theorem not_staysInside {U : Set String} {namespaceName key : String} (hU : key ∈ U)
    (hforeign : ¬ Own sha256 namespaceName key)
    (hmatch : matching (some namespaceName) key = true) :
    ¬ StaysInside sha256 U namespaceName := by
  intro hinside
  refine hforeign (hinside.cleans true 1 [⟨[], .ok ([(key, ⟨[], .answered⟩)], 0)⟩] {key} _ _ rfl
    ?_ ?_ key ?_)
  · simp [Within, scanned, deleted, hU]
  · simp [Honest, scanned, deleted, Command.found, hmatch]
  · simp [removals, Command.removed, Command.found, scanned, deleted]

theorem staysInside_iff {ω J : Type} [DecidableEq ω] {orjson : Orjson J} {s : State ω}
    (hempty : ∀ key, s.keys key = none) (labels : List (Op ω J × Option (IdempotencyResult J)))
    {namespaceName : String} (hname : namespaceName ≠ "") :
    StaysInside sha256 (Held sha256 orjson s labels) namespaceName ↔
      ∀ key ∈ Held sha256 orjson s labels, ¬ Strays sha256 namespaceName key := by
  have hkeys : ∀ key ∈ Held sha256 orjson s labels, ServiceKey sha256 key :=
    fun key hkey => serviceKey_of_held hempty hkey
  constructor
  · intro hinside key hkey hstrays
    obtain ⟨hforeign, hmatch⟩ := (strays_iff sha256 hname (hkeys key hkey)).mp hstrays
    exact not_staysInside hkey hforeign hmatch hinside
  · intro hstrays
    constructor
    · intro connected maxCleanup rounds keys returned commands hcall hwithin hhonest key hkey
      have hnamed : ∃ command ∈ commands, key ∈ command.named := by
        unfold cleanupStuckInProgress at hcall
        split_ifs at hcall
        · obtain ⟨sweep, hloop, hsweep⟩ := Option.map_eq_some_iff.mp hcall
          obtain ⟨-, rfl⟩ := Prod.mk.inj hsweep
          exact ((cleans_cleanupLoop hloop).targets_named key
            (mem_targets_of_mem_removals hkey)).resolve_left (by simp)
        · obtain ⟨-, rfl⟩ := Prod.mk.inj (Option.some.inj hcall)
          simp [removals] at hkey
      obtain ⟨command, hcommand, hnamed⟩ := hnamed
      exact own_of_named hname hkeys hstrays hwithin hhonest hcommand hnamed
    · intro connected rounds keys returned commands _ hwithin hhonest command hcommand key hnamed
      exact own_of_named hname hkeys hstrays hwithin hhonest hcommand hnamed

/-! ## A namespace that another one extends -/

def nestedPair : Pair := ⟨"evt_1", some "a:b"⟩

def nestedCheck : List (Op Nat Bool × Option (IdempotencyResult Bool)) :=
  [(.lua 0 nestedPair .answered, some ⟨.new, none⟩)]

theorem staysInside_nested_iff :
    StaysInside evtDigest (Held evtDigest boolJson start nestedCheck) "a" ↔
      ∀ key ∈ Held evtDigest boolJson start nestedCheck, ¬ Strays evtDigest "a" key :=
  staysInside_iff (fun _ => rfl) nestedCheck (by decide)

theorem nested_marker_deleted :
    ¬ StaysInside evtDigest (Held evtDigest boolJson start nestedCheck) "a" := by
  have hstep : Step evtDigest boolJson start (.lua 0 nestedPair .answered, some ⟨.new, none⟩)
      (next evtDigest boolJson start (.lua 0 nestedPair .answered)) :=
    reaction_afterEvent (by decide)
  have hheld : buildInProgressKey evtDigest nestedPair ∈
      Held evtDigest boolJson start nestedCheck :=
    ⟨nestedCheck, _, List.prefix_refl _, .single hstep, by decide⟩
  apply not_staysInside hheld
  · rw [own_iff evtDigest (by decide)]
    decide
  · rw [matching_buildInProgressKey evtDigest (by decide) (by decide)]
    decide

end BackendProdReady.Idempotency.MarkerNamespaces
