import BackendProdReady.Idempotency.MarkerNamespaces

/-!
# What clean-up and count report

The clean-up adds one for each delete that is answered, whatever the answer; the count
adds up the keys of the pages.  A marker that a reply names again is counted again.
-/

namespace BackendProdReady.Idempotency.MarkerCounts

open BackendProdReady.Idempotency.Keys
open BackendProdReady.Idempotency.Workers
open BackendProdReady.Idempotency.MarkerCleanup
open BackendProdReady.Idempotency.MarkerNamespaces (matching matching_buildInProgressKey)
open BackendProdReady.Cache.FailSoft (RedisException)
open BackendProdReady.Cache.PatternDeletion (Keys mem_of_isChain)

/-! ## The replies that SCAN guarantees -/

def Throughout (key : String) (commands : List Command) : Prop :=
  ∀ command ∈ commands, ∀ k ∈ command.others ++ [command.after], key ∈ k

/-- A reply names matching keys that are there, and an iteration that comes back to the
cursor 0 has named those that were there throughout. -/
structure Allowed (matching : String → Bool) (commands : List Command) : Prop where
  honest : Honest matching commands
  covers : Complete commands → ∀ key, matching key = true → Throughout key commands →
    ∃ command ∈ commands, key ∈ command.named

/-- Nothing but the call removes the key. -/
def LeftByOthers (key : String) (commands : List Command) : Prop :=
  ∀ command ∈ commands, command.others.IsChain fun k k' => key ∈ k → key ∈ k'

theorem removed_or_throughout {key : String} {keys : Keys} {commands : List Command}
    (hlinked : Linked keys commands) (hleft : LeftByOthers key commands) (hkey : key ∈ keys) :
    key ∈ removals commands ∨ Throughout key commands := by
  induction commands generalizing keys with
  | nil => exact .inr (by simp [Throughout])
  | cons command commands ih =>
      obtain ⟨⟨changes, hothers⟩, hafter, hrest⟩ := hlinked
      obtain ⟨hchain, hleft⟩ := List.forall_mem_cons.mp hleft
      have hall : ∀ k ∈ command.others, key ∈ k := by
        rw [hothers] at hchain ⊢
        exact mem_of_isChain hchain hkey
      have hfound : key ∈ command.found := by
        rw [Command.found, hothers, List.getLastD_cons]
        exact hall _ (by rw [hothers]; exact List.getLastD_mem_cons)
      by_cases htarget : command.target = some key
      · refine .inl (List.mem_filterMap.mpr ⟨command, List.mem_cons_self, ?_⟩)
        simp [Command.removed, htarget, hfound]
      · have hkept : key ∈ command.after := by
          rw [hafter]
          cases htarget' : command.target with
          | none => exact hfound
          | some other =>
              refine Finset.mem_erase.mpr ⟨?_, hfound⟩
              rintro rfl
              exact htarget htarget'
        rcases ih hrest hleft hkept with hremoved | hthroughout
        · left
          obtain ⟨later, hlater, hremoved⟩ := List.mem_filterMap.mp hremoved
          exact List.mem_filterMap.mpr ⟨later, List.mem_cons_of_mem _ hlater, hremoved⟩
        · right
          refine List.forall_mem_cons.mpr ⟨?_, hthroughout⟩
          intro k hk
          rcases List.mem_append.mp hk with hk | hk
          · exact hall k hk
          · rwa [List.mem_singleton.mp hk]

/-! ## The clean-up -/

structure Cleaned (matching : String → Bool) (maxCleanup : Int) (keys : Keys)
    (returned : Except RedisException Int) (commands : List Command) : Prop where
  count : NoFailure commands → (∀ command ∈ commands, command.removed = command.target) →
    returned = .ok (removals commands).length
  bounded : (removals commands).length ≤ max 0 maxCleanup
  swept : NoFailure commands → (∃ n, returned = .ok n ∧ n < maxCleanup) →
    ∀ key ∈ keys, matching key = true → LeftByOthers key commands → key ∈ removals commands

theorem removals_length_le (commands : List Command) :
    (removals commands).length ≤ (targets commands).length := by
  induction commands with
  | nil => exact Nat.le_refl _
  | cons command commands ih =>
      simp only [removals, targets, List.filterMap_cons] at ih ⊢
      cases hremoved : command.removed with
      | none =>
          cases command.target with
          | none => exact ih
          | some key => exact Nat.le_succ_of_le ih
      | some key =>
          rw [(Option.filter_eq_some_iff.mp hremoved).1]
          exact Nat.succ_le_succ ih

theorem cleaned_of_cleans {matching : String → Bool} {maxCleanup : Int} {keys : Keys}
    {sweep : Sweep} (h : Cleans maxCleanup [] false 0 keys sweep)
    (hallowed : Allowed matching sweep.commands) :
    Cleaned matching maxCleanup keys (sweep.returned sweep.cleaned) sweep.commands := by
  constructor
  · intro hnone hhits
    have hraised := h.raised_iff.mpr hnone
    have heq : removals sweep.commands = targets sweep.commands :=
      List.filterMap_congr hhits
    have hcleaned := h.cleaned_eq hraised
    rw [Sweep.returned, hraised, heq, hcleaned, Nat.zero_add]
  · have hle := removals_length_le sweep.commands
    rcases h.targets_le with hnil | hbudget
    · rw [hnil, List.length_nil] at hle
      omega
    · omega
  · rintro hnone ⟨n, hreturned, hunder⟩ key hkey hmatch hleft
    have hraised := h.raised_iff.mpr hnone
    obtain rfl : (sweep.cleaned : Int) = n := by
      rw [Sweep.returned, hraised] at hreturned
      exact Except.ok.inj hreturned
    obtain ⟨hcomplete, -, hnamed⟩ := h.named_targets hraised hunder
    rcases removed_or_throughout h.linked hleft hkey with hremoved | hthroughout
    · exact hremoved
    · obtain ⟨scan, hscan, hpage⟩ := hallowed.covers (hcomplete.resolve_left (by simp)) key hmatch
        hthroughout
      obtain ⟨command, hcommand, htarget⟩ := List.mem_filterMap.mp (hnamed scan hscan key hpage)
      have hfound : key ∈ command.found := by
        refine hthroughout command hcommand _ (List.mem_append_left _ ?_)
        exact found_mem_of_linked h.linked hcommand
      refine List.mem_filterMap.mpr ⟨command, hcommand, ?_⟩
      simp [Command.removed, htarget, hfound]

/-! ## The count -/

def names (commands : List Command) : List String := commands.flatMap (·.named)

def Unchanging (keys : Keys) (commands : List Command) : Prop :=
  ∀ command ∈ commands, ∀ k ∈ command.others ++ [command.after], k = keys

theorem countLoop_spec {rounds : List (Round String)} {count : Nat} {keys : Keys} {sweep : Sweep}
    (h : countLoop rounds count keys = some sweep) :
    Linked keys sweep.commands ∧ (sweep.raised = none ↔ NoFailure sweep.commands) ∧
      (sweep.raised = none → sweep.cleaned = count + (names sweep.commands).length ∧
        Complete sweep.commands) := by
  induction rounds generalizing count keys sweep with
  | nil => cases h
  | cons round rounds ih =>
      rw [countLoop] at h
      cases hscan : round.scan with
      | error e =>
          rw [hscan] at h
          obtain rfl := Option.some.inj h
          exact ⟨linked_scanFailed, by simp [NoFailure, scanFailed], nofun⟩
      | ok reply =>
          obtain ⟨page, cursor⟩ := reply
          rw [hscan] at h
          obtain ⟨rest, hrest, rfl⟩ := Option.map_eq_some_iff.mp h
          split_ifs at hrest with hcursor
          · obtain rfl := Option.some.inj hrest
            refine ⟨linked_scanned.mpr trivial, by simp [NoFailure, scanned], fun _ => ?_⟩
            refine ⟨by simp [names, scanned], _, List.mem_cons_self, congrArg some hcursor⟩
          · obtain ⟨hlinked, hraised, hcount⟩ := ih hrest
            refine ⟨linked_scanned.mpr hlinked, ?_, fun hnone => ?_⟩
            · simpa [NoFailure, scanned] using hraised
            · obtain ⟨hcleaned, command, hcommand, hzero⟩ := hcount hnone
              refine ⟨?_, command, List.mem_cons_of_mem _ hcommand, hzero⟩
              simp only [cleaned_following, commands_following, names, List.flatMap_cons,
                List.length_append, hcleaned, scanned]
              omega

structure Counted (matching : String → Bool) (keys : Keys)
    (returned : Except RedisException Int) (commands : List Command) : Prop where
  count : returned = .ok (names commands).length
  least : (keys.filter fun key => matching key = true).card ≤ (names commands).length
  exact_iff : (keys.filter fun key => matching key = true).card = (names commands).length ↔
    (names commands).Nodup

theorem counted_of_countLoop {matching : String → Bool} {rounds : List (Round String)}
    {keys : Keys} {sweep : Sweep} (h : countLoop rounds 0 keys = some sweep)
    (hallowed : Allowed matching sweep.commands) (hnone : NoFailure sweep.commands)
    (hsame : Unchanging keys sweep.commands) :
    Counted matching keys (sweep.returned (-1)) sweep.commands := by
  obtain ⟨hlinked, hraised, hspec⟩ := countLoop_spec h
  obtain ⟨hcount, hcomplete⟩ := hspec (hraised.mpr hnone)
  have hnames : (names sweep.commands).toFinset =
      keys.filter fun key => matching key = true := by
    ext key
    simp only [List.mem_toFinset, names, List.mem_flatMap, Finset.mem_filter]
    constructor
    · rintro ⟨command, hcommand, hnamed⟩
      obtain ⟨hmatch, hfound⟩ := hallowed.honest command hcommand key hnamed
      have hothers := found_mem_of_linked hlinked hcommand
      rw [hsame command hcommand _ (List.mem_append_left _ hothers)] at hfound
      exact ⟨hfound, hmatch⟩
    · rintro ⟨hkey, hmatch⟩
      refine hallowed.covers hcomplete key hmatch ?_
      intro command hcommand k hk
      rwa [hsame command hcommand k hk]
  constructor
  · rw [Sweep.returned, hraised.mpr hnone, hcount, Nat.zero_add]
  · rw [← hnames]
    exact List.toFinset_card_le _
  · rw [← hnames]
    exact Multiset.toFinset_card_eq_card_iff_nodup (m := (names sweep.commands : Multiset String))

/-! ## The loops end -/

/-- The reply that ends an iteration: the cursor 0, or a failure. -/
def ends {α : Type} (round : Round α) : Bool :=
  match round.scan with
  | .ok (_, cursor) => cursor = 0
  | .error _ => true

theorem cleanKeys_isSome {maxCleanup : Int} {next : Nat → Keys → Option Sweep}
    (hnext : ∀ cleaned keys, (next cleaned keys).isSome = true) (page : List (String × Deletion))
    (cleaned : Nat) (keys : Keys) :
    (cleanKeys maxCleanup next cleaned page keys).isSome = true := by
  induction page generalizing cleaned keys with
  | nil => exact hnext cleaned keys
  | cons item page ih =>
      obtain ⟨key, deletion⟩ := item
      rw [cleanKeys]
      split_ifs
      · exact hnext cleaned keys
      · cases deletion.fate with
        | answered => simpa using ih (cleaned + 1) _
        | failed e => rfl
        | replyLost e => rfl

theorem cleanupLoop_isSome (maxCleanup : Int) {rounds : List (Round (String × Deletion))}
    (hends : ∃ round ∈ rounds, ends round = true) (cleaned : Nat) (keys : Keys) :
    (cleanupLoop maxCleanup rounds cleaned keys).isSome = true := by
  induction rounds generalizing cleaned keys with
  | nil => simp at hends
  | cons round rounds ih =>
      rw [cleanupLoop]
      split_ifs
      · rfl
      · cases hscan : round.scan with
        | error e => rfl
        | ok reply =>
            obtain ⟨page, cursor⟩ := reply
            simp only [Option.isSome_map]
            apply cleanKeys_isSome
            intro cleaned keys
            split_ifs with hcursor
            · rfl
            · apply ih
              refine (List.exists_mem_cons_iff ..).mp hends |>.resolve_left ?_
              simp [ends, hscan, hcursor]

theorem countLoop_isSome {rounds : List (Round String)}
    (hends : ∃ round ∈ rounds, ends round = true) (count : Nat) (keys : Keys) :
    (countLoop rounds count keys).isSome = true := by
  induction rounds generalizing count keys with
  | nil => simp at hends
  | cons round rounds ih =>
      rw [countLoop]
      cases hscan : round.scan with
      | error e => rfl
      | ok reply =>
          obtain ⟨page, cursor⟩ := reply
          simp only [Option.isSome_map]
          split_ifs with hcursor
          · rfl
          · apply ih
            refine (List.exists_mem_cons_iff ..).mp hends |>.resolve_left ?_
            simp [ends, hscan, hcursor]

/-- Replies that come back to the cursor 0 end both calls, whatever the budget. -/
theorem cleans_and_counts (namespaceName : Option String) (maxCleanup : Int) (keys : Keys)
    {cleaning : List (Round (String × Deletion))} {counting : List (Round String)}
    (hcleaning : ∃ round ∈ cleaning, ends round = true)
    (hcounting : ∃ round ∈ counting, ends round = true) :
    (∃ returned commands,
      cleanupStuckInProgress true maxCleanup cleaning keys = some (returned, commands) ∧
        (Allowed (matching namespaceName) commands →
          Cleaned (matching namespaceName) maxCleanup keys returned commands)) ∧
      ∃ returned commands,
        getStuckInProgressCount true counting keys = some (returned, commands) ∧
          (Allowed (matching namespaceName) commands → NoFailure commands →
            Unchanging keys commands →
            Counted (matching namespaceName) keys returned commands) := by
  constructor
  · obtain ⟨sweep, hsweep⟩ := Option.isSome_iff_exists.mp
      (cleanupLoop_isSome maxCleanup hcleaning 0 keys)
    refine ⟨_, sweep.commands, ?_, fun hallowed =>
      cleaned_of_cleans (cleans_cleanupLoop hsweep) hallowed⟩
    rw [cleanupStuckInProgress, if_pos rfl, hsweep]
    rfl
  · obtain ⟨sweep, hsweep⟩ := Option.isSome_iff_exists.mp (countLoop_isSome hcounting 0 keys)
    refine ⟨_, sweep.commands, ?_, fun hallowed hnone hsame =>
      counted_of_countLoop hsweep hallowed hnone hsame⟩
    rw [getStuckInProgressCount, if_pos rfl, hsweep]
    rfl

/-! ## A marker that is named twice -/

def stuckMarker : String := buildInProgressKey evtDigest ⟨"evt_1", some "stripe"⟩

def twiceCleaned : List (Round (String × Deletion)) :=
  [⟨[], .ok ([(stuckMarker, ⟨[], .answered⟩), (stuckMarker, ⟨[], .answered⟩)], 0)⟩]

def twiceCounted : List (Round String) := [⟨[], .ok ([stuckMarker, stuckMarker], 0)⟩]

theorem cleans_and_counts_twice :
    (∃ returned commands,
      cleanupStuckInProgress true 100 twiceCleaned {stuckMarker} = some (returned, commands) ∧
        (Allowed (matching (some "stripe")) commands →
          Cleaned (matching (some "stripe")) 100 {stuckMarker} returned commands)) ∧
      ∃ returned commands,
        getStuckInProgressCount true twiceCounted {stuckMarker} = some (returned, commands) ∧
          (Allowed (matching (some "stripe")) commands → NoFailure commands →
            Unchanging {stuckMarker} commands →
            Counted (matching (some "stripe")) {stuckMarker} returned commands) :=
  cleans_and_counts (some "stripe") 100 {stuckMarker}
    ⟨_, List.mem_cons_self, rfl⟩ ⟨_, List.mem_cons_self, rfl⟩

/-- Nothing but the marker is there throughout, and the first reply names it. -/
theorem covers_of_first {command : Command} {commands : List Command}
    (hothers : {stuckMarker} ∈ command.others) (hnamed : stuckMarker ∈ command.named) :
    Complete (command :: commands) → ∀ key, matching (some "stripe") key = true →
      Throughout key (command :: commands) → ∃ c ∈ command :: commands, key ∈ c.named := by
  intro _ key _ hthroughout
  have hkey := hthroughout _ List.mem_cons_self {stuckMarker} (List.mem_append_left _ hothers)
  rw [Finset.mem_singleton.mp hkey]
  exact ⟨_, List.mem_cons_self, hnamed⟩

/-- Both calls return 2 for the one marker, without a failure. -/
theorem named_twice :
    (∃ commands, cleanupStuckInProgress true 100 twiceCleaned {stuckMarker} =
        some (.ok 2, commands) ∧ Allowed (matching (some "stripe")) commands ∧
        NoFailure commands ∧ (removals commands).length = 1) ∧
      ∃ commands, getStuckInProgressCount true twiceCounted {stuckMarker} =
          some (.ok 2, commands) ∧ Allowed (matching (some "stripe")) commands ∧
        NoFailure commands ∧ Unchanging {stuckMarker} commands ∧
        (({stuckMarker} : Keys).filter fun key =>
          matching (some "stripe") key = true).card = 1 := by
  have hmatch : matching (some "stripe") stuckMarker = true := by
    rw [stuckMarker, matching_buildInProgressKey evtDigest (by decide) (by decide)]
    decide
  refine ⟨⟨_, rfl, ⟨?_, ?_⟩, ?_, ?_⟩, _, rfl, ⟨?_, ?_⟩, ?_, ?_, ?_⟩
  · simp [Honest, scanned, deleted, Command.found, hmatch]
  · exact covers_of_first (by simp [scanned]) (by simp [scanned])
  · simp [NoFailure, scanned, deleted]
  · simp [removals, Option.filter, Command.removed, Command.found, scanned, deleted]
  · simp [Honest, scanned, Command.found, hmatch]
  · exact covers_of_first (by simp [scanned]) (by simp [scanned])
  · simp [NoFailure, scanned]
  · simp [Unchanging, scanned]
  · rw [Finset.filter_true_of_mem (by simp [hmatch]), Finset.card_singleton]

end BackendProdReady.Idempotency.MarkerCounts
