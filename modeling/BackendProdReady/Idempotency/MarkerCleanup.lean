import BackendProdReady.Cache.PatternDeletion
import BackendProdReady.Idempotency.Keys

/-!
# Counting and cleaning up markers

The SCAN loops of `get_stuck_in_progress_count` and `cleanup_stuck_in_progress`, which
use the Redis client directly.  Other clients change the key space before every
command, and a marker may expire; a reply may name a key again.  Both calls contain
what the commands raise.
-/

namespace BackendProdReady.Idempotency.MarkerCleanup

open BackendProdReady.Exceptions.Classes
open BackendProdReady.Cache.FailSoft (RedisException)
open BackendProdReady.Cache.PatternDeletion (Keys mem_of_isChain)
open BackendProdReady.Idempotency.Keys

/-! ## Source -/

/-- `match=` for a namespace, which is spliced in as it is. -/
def markerPattern : Option String → String
  | none | some "" => cachePrefix ++ ":*" ++ inProgressSuffix
  | some namespaceName => cachePrefix ++ ":" ++ namespaceName ++ ":*" ++ inProgressSuffix

inductive DelFate
  | answered
  /-- It fails before it takes effect. -/
  | failed (e : RedisException)
  /-- It takes effect, and fails in place of its reply. -/
  | replyLost (e : RedisException)

/-- A DEL as Redis and the other clients play it. -/
structure Deletion where
  /-- The key spaces that come before it. -/
  between : List Keys
  fate : DelFate

/-- One pass of a loop: `α` is what a reply holds for each key. -/
structure Round (α : Type) where
  /-- The key spaces that come before the SCAN. -/
  before : List Keys
  /-- The page and the next cursor. -/
  scan : Except RedisException (List α × Nat)

structure Command where
  /-- The key spaces from the last command up to this one. -/
  others : List Keys
  /-- The keys that the reply to a SCAN names. -/
  named : List String
  /-- The cursor of that reply. -/
  cursor : Option Nat
  /-- The key of a DEL that took effect. -/
  target : Option String
  failure : Option RedisException
  after : Keys

/-- A loop from some command on. -/
structure Sweep where
  /-- `cleaned`, or `count`. -/
  cleaned : Nat
  commands : List Command
  raised : Option RedisException

def Sweep.following (command : Command) (sweep : Sweep) : Sweep :=
  { sweep with commands := command :: sweep.commands }

def scanned {α : Type} (round : Round α) (keys : Keys) (named : List String) (cursor : Nat) :
    Command :=
  ⟨keys :: round.before, named, some cursor, none, none, round.before.getLastD keys⟩

def scanFailed {α : Type} (round : Round α) (keys : Keys) (e : RedisException) : Command :=
  ⟨keys :: round.before, [], none, none, some e, round.before.getLastD keys⟩

/-- A DEL that takes effect. -/
def deleted (deletion : Deletion) (keys : Keys) (key : String)
    (failure : Option RedisException) : Command :=
  ⟨keys :: deletion.between, [], none, some key, failure,
    (deletion.between.getLastD keys).erase key⟩

def delFailed (deletion : Deletion) (keys : Keys) (e : RedisException) : Command :=
  ⟨keys :: deletion.between, [], none, none, some e, deletion.between.getLastD keys⟩

/-- `for key in keys`; the loop goes on with `next` after the page. -/
def cleanKeys (maxCleanup : Int) (next : Nat → Keys → Option Sweep) (cleaned : Nat) :
    List (String × Deletion) → Keys → Option Sweep
  | [], keys => next cleaned keys
  | (key, deletion) :: page, keys =>
      if maxCleanup ≤ cleaned then next cleaned keys
      else
        match deletion.fate with
        | .answered =>
            let command := deleted deletion keys key none
            (cleanKeys maxCleanup next (cleaned + 1) page command.after).map (·.following command)
        | .failed e => some ⟨cleaned, [delFailed deletion keys e], some e⟩
        | .replyLost e => some ⟨cleaned, [deleted deletion keys key (some e)], some e⟩

def cleanupLoop (maxCleanup : Int) : List (Round (String × Deletion)) → Nat → Keys → Option Sweep
  | rounds, cleaned, keys =>
      if maxCleanup ≤ cleaned then some ⟨cleaned, [], none⟩
      else
        match rounds with
        | [] => none
        | round :: rounds =>
            match round.scan with
            | .error e => some ⟨cleaned, [scanFailed round keys e], some e⟩
            | .ok (page, cursor) =>
                let command := scanned round keys (page.map Prod.fst) cursor
                let next cleaned keys :=
                  if cursor = 0 then some ⟨cleaned, [], none⟩
                  else cleanupLoop maxCleanup rounds cleaned keys
                (cleanKeys maxCleanup next cleaned page command.after).map (·.following command)

def countLoop : List (Round String) → Nat → Keys → Option Sweep
  | [], _, _ => none
  | round :: rounds, count, keys =>
      match round.scan with
      | .error e => some ⟨count, [scanFailed round keys e], some e⟩
      | .ok (page, cursor) =>
          let command := scanned round keys page cursor
          let rest :=
            if cursor = 0 then some ⟨count + page.length, [], none⟩
            else countLoop rounds (count + page.length) command.after
          rest.map (·.following command)

/-- `except Exception` around a loop. -/
def Sweep.returned (sweep : Sweep) (onFailure : Int) : Except RedisException Int :=
  match sweep.raised with
  | some e => if e.isInstance [.exception] then .ok onFailure else .error e
  | none => .ok sweep.cleaned

/-- `connected`: the service has a client and does not use the fallback. -/
def cleanupStuckInProgress (connected : Bool) (maxCleanup : Int)
    (rounds : List (Round (String × Deletion))) (keys : Keys) :
    Option (Except RedisException Int × List Command) :=
  if connected then
    (cleanupLoop maxCleanup rounds 0 keys).map fun sweep =>
      (sweep.returned sweep.cleaned, sweep.commands)
  else some (.ok 0, [])

def getStuckInProgressCount (connected : Bool) (rounds : List (Round String)) (keys : Keys) :
    Option (Except RedisException Int × List Command) :=
  if connected then
    (countLoop rounds 0 keys).map fun sweep => (sweep.returned (-1), sweep.commands)
  else some (.ok (-1), [])

/-! ## The commands of a call -/

def Command.found (command : Command) : Keys := command.others.getLastD ∅

def Command.removed (command : Command) : Option String :=
  command.target.filter (· ∈ command.found)

/-- Only a DEL changes what it meets. -/
def Command.lawful (command : Command) : Prop :=
  command.after = command.target.elim command.found command.found.erase

def Linked : Keys → List Command → Prop
  | _, [] => True
  | keys, command :: commands =>
      (∃ changes, command.others = keys :: changes) ∧ command.lawful ∧
        Linked command.after commands

def targets (commands : List Command) : List String := commands.filterMap (·.target)

def removals (commands : List Command) : List String := commands.filterMap (·.removed)

def NoFailure (commands : List Command) : Prop := ∀ command ∈ commands, command.failure = none

/-- The cursor came back to 0. -/
def Complete (commands : List Command) : Prop := ∃ command ∈ commands, command.cursor = some 0

theorem exists_of_mem_found {command : Command} {key : String} (h : key ∈ command.found) :
    ∃ k ∈ command.others, key ∈ k := by
  unfold Command.found at h
  cases hothers : command.others with
  | nil => simp [hothers] at h
  | cons keys changes =>
      rw [hothers, List.getLastD_cons] at h
      exact ⟨_, List.getLastD_mem_cons, h⟩

theorem found_mem_of_linked {keys : Keys} {commands : List Command} (h : Linked keys commands)
    {command : Command} (hcommand : command ∈ commands) : command.found ∈ command.others := by
  induction commands generalizing keys with
  | nil => cases hcommand
  | cons first commands ih =>
      obtain ⟨⟨changes, hothers⟩, -, hrest⟩ := h
      rcases List.mem_cons.mp hcommand with rfl | hcommand
      · rw [Command.found, hothers, List.getLastD_cons]
        exact List.getLastD_mem_cons
      · exact ih hrest hcommand

theorem mem_targets_of_mem_removals {commands : List Command} {key : String}
    (h : key ∈ removals commands) : key ∈ targets commands := by
  obtain ⟨command, hcommand, hremoved⟩ := List.mem_filterMap.mp h
  exact List.mem_filterMap.mpr ⟨command, hcommand, (Option.filter_eq_some_iff.mp hremoved).1⟩

/-- Every reply names keys that are there and that match. -/
def Honest (matching : String → Bool) (commands : List Command) : Prop :=
  ∀ command ∈ commands, ∀ key ∈ command.named, matching key = true ∧ key ∈ command.found

section

variable {α : Type} {round : Round α} {deletion : Deletion} {keys : Keys} {key : String}
  {named : List String} {cursor : Nat} {failure : Option RedisException} {e : RedisException}
  {commands : List Command}

@[simp] theorem found_scanned :
    (scanned round keys named cursor).found = (scanned round keys named cursor).after := by
  simp only [scanned, Command.found, List.getLastD_cons]

@[simp] theorem found_scanFailed :
    (scanFailed round keys e).found = (scanFailed round keys e).after := by
  simp only [scanFailed, Command.found, List.getLastD_cons]

theorem linked_scanned :
    Linked keys (scanned round keys named cursor :: commands) ↔
      Linked (scanned round keys named cursor).after commands := by
  refine ⟨fun h => h.2.2, fun h => ⟨⟨_, rfl⟩, ?_, h⟩⟩
  exact found_scanned.symm

theorem linked_scanFailed : Linked keys [scanFailed round keys e] := by
  refine ⟨⟨_, rfl⟩, ?_, trivial⟩
  exact found_scanFailed.symm

theorem linked_deleted :
    Linked keys (deleted deletion keys key failure :: commands) ↔
      Linked (deleted deletion keys key failure).after commands := by
  refine ⟨fun h => h.2.2, fun h => ⟨⟨_, rfl⟩, ?_, h⟩⟩
  simp only [Command.lawful, deleted, Command.found, List.getLastD_cons, Option.elim_some]

theorem linked_delFailed : Linked keys [delFailed deletion keys e] := by
  refine ⟨⟨_, rfl⟩, ?_, trivial⟩
  simp only [Command.lawful, delFailed, Command.found, List.getLastD_cons, Option.elim_none]

@[simp] theorem targets_nil : targets [] = [] := rfl

@[simp] theorem targets_scanned :
    targets (scanned round keys named cursor :: commands) = targets commands := rfl

@[simp] theorem targets_scanFailed : targets [scanFailed round keys e] = [] := rfl

@[simp] theorem targets_deleted :
    targets (deleted deletion keys key failure :: commands) = key :: targets commands := rfl

@[simp] theorem targets_delFailed : targets [delFailed deletion keys e] = [] := rfl

@[simp] theorem commands_following (command : Command) (sweep : Sweep) :
    (sweep.following command).commands = command :: sweep.commands := rfl

@[simp] theorem cleaned_following (command : Command) (sweep : Sweep) :
    (sweep.following command).cleaned = sweep.cleaned := rfl

@[simp] theorem raised_following (command : Command) (sweep : Sweep) :
    (sweep.following command).raised = sweep.raised := rfl

end

/-! ## The loop of the clean-up -/

/-- The loop one command at a time: `pending` is what is left of the page, and `last`
whether its cursor was 0. -/
inductive Cleans (maxCleanup : Int) : List String → Bool → Nat → Keys → Sweep → Prop
  | finished {pending : List String} {last : Bool} {cleaned : Nat} {keys : Keys}
      (h : maxCleanup ≤ cleaned ∨ last = true ∧ pending = []) :
      Cleans maxCleanup pending last cleaned keys ⟨cleaned, [], none⟩
  | scan {cleaned : Nat} {keys : Keys} {sweep : Sweep} (round : Round (String × Deletion))
      (page : List String) (cursor : Nat)
      (rest : Cleans maxCleanup page (cursor = 0) cleaned
        (scanned round keys page cursor).after sweep) :
      Cleans maxCleanup [] false cleaned keys
        (sweep.following (scanned round keys page cursor))
  | scanFailed {cleaned : Nat} {keys : Keys} (round : Round (String × Deletion))
      (e : RedisException) :
      Cleans maxCleanup [] false cleaned keys ⟨cleaned, [scanFailed round keys e], some e⟩
  | del {pending : List String} {last : Bool} {cleaned : Nat} {keys : Keys} {sweep : Sweep}
      (key : String) (deletion : Deletion) (h : cleaned < maxCleanup)
      (rest : Cleans maxCleanup pending last (cleaned + 1)
        (deleted deletion keys key none).after sweep) :
      Cleans maxCleanup (key :: pending) last cleaned keys
        (sweep.following (deleted deletion keys key none))
  | delFailed {pending : List String} {last : Bool} {cleaned : Nat} {keys : Keys} (key : String)
      (deletion : Deletion) (e : RedisException) :
      Cleans maxCleanup (key :: pending) last cleaned keys
        ⟨cleaned, [delFailed deletion keys e], some e⟩
  | replyLost {pending : List String} {last : Bool} {cleaned : Nat} {keys : Keys} (key : String)
      (deletion : Deletion) (e : RedisException) (h : cleaned < maxCleanup) :
      Cleans maxCleanup (key :: pending) last cleaned keys
        ⟨cleaned, [deleted deletion keys key (some e)], some e⟩

theorem cleans_cleanKeys {maxCleanup : Int} {last : Bool} {next : Nat → Keys → Option Sweep}
    (hnext : ∀ cleaned keys sweep pending, next cleaned keys = some sweep →
      (pending = [] ∨ maxCleanup ≤ cleaned) → Cleans maxCleanup pending last cleaned keys sweep)
    {page : List (String × Deletion)} {cleaned : Nat} {keys : Keys} {sweep : Sweep}
    (h : cleanKeys maxCleanup next cleaned page keys = some sweep) :
    Cleans maxCleanup (page.map Prod.fst) last cleaned keys sweep := by
  induction page generalizing cleaned keys sweep with
  | nil => exact hnext _ _ _ _ h (.inl rfl)
  | cons item page ih =>
      obtain ⟨key, deletion⟩ := item
      rw [cleanKeys] at h
      split_ifs at h with hbudget
      · exact hnext _ _ _ _ h (.inr hbudget)
      · have hlt : cleaned < maxCleanup := Int.not_le.mp hbudget
        cases hfate : deletion.fate with
        | answered =>
            rw [hfate] at h
            obtain ⟨rest, hrest, rfl⟩ := Option.map_eq_some_iff.mp h
            exact .del key deletion hlt (ih hrest)
        | failed e =>
            rw [hfate] at h
            obtain rfl := Option.some.inj h
            exact .delFailed key deletion e
        | replyLost e =>
            rw [hfate] at h
            obtain rfl := Option.some.inj h
            exact .replyLost key deletion e hlt

theorem cleanupLoop_spent {maxCleanup : Int} {cleaned : Nat} (h : maxCleanup ≤ cleaned)
    (rounds : List (Round (String × Deletion))) (keys : Keys) :
    cleanupLoop maxCleanup rounds cleaned keys = some ⟨cleaned, [], none⟩ := by
  rw [cleanupLoop.eq_def]
  exact if_pos h

theorem cleans_cleanupLoop {maxCleanup : Int} {rounds : List (Round (String × Deletion))}
    {cleaned : Nat} {keys : Keys} {sweep : Sweep}
    (h : cleanupLoop maxCleanup rounds cleaned keys = some sweep) :
    Cleans maxCleanup [] false cleaned keys sweep := by
  induction rounds generalizing cleaned keys sweep with
  | nil =>
      rw [cleanupLoop] at h
      split_ifs at h with hbudget
      obtain rfl := Option.some.inj h
      exact .finished (.inl hbudget)
  | cons round rounds ih =>
      rw [cleanupLoop] at h
      split_ifs at h with hbudget
      · obtain rfl := Option.some.inj h
        exact .finished (.inl hbudget)
      · cases hscan : round.scan with
        | error e =>
            rw [hscan] at h
            obtain rfl := Option.some.inj h
            exact .scanFailed round e
        | ok reply =>
            obtain ⟨page, cursor⟩ := reply
            rw [hscan] at h
            obtain ⟨rest, hrest, rfl⟩ := Option.map_eq_some_iff.mp h
            apply Cleans.scan
            apply cleans_cleanKeys _ hrest
            intro cleaned keys sweep pending hnext hpending
            split_ifs at hnext with hcursor
            · obtain rfl := Option.some.inj hnext
              refine .finished (hpending.symm.imp_right fun hnil => ⟨?_, hnil⟩)
              exact decide_eq_true hcursor
            · rw [decide_eq_false hcursor]
              rcases hpending with rfl | hspent
              · exact ih hnext
              · rw [cleanupLoop_spent hspent] at hnext
                obtain rfl := Option.some.inj hnext
                exact .finished (.inl hspent)

namespace Cleans

variable {maxCleanup : Int} {pending : List String} {last : Bool} {cleaned : Nat} {keys : Keys}
  {sweep : Sweep}

theorem linked (h : Cleans maxCleanup pending last cleaned keys sweep) :
    Linked keys sweep.commands := by
  induction h with
  | finished => trivial
  | scan round page cursor _ ih => exact linked_scanned.mpr ih
  | scanFailed round => exact linked_scanFailed
  | del key deletion _ _ ih => exact linked_deleted.mpr ih
  | delFailed key deletion => exact linked_delFailed
  | replyLost key deletion => exact linked_deleted.mpr trivial

theorem raised_iff (h : Cleans maxCleanup pending last cleaned keys sweep) :
    sweep.raised = none ↔ NoFailure sweep.commands := by
  induction h with
  | finished => simp [NoFailure]
  | scan round page cursor _ ih => simpa [NoFailure, scanned] using ih
  | scanFailed round => simp [NoFailure, MarkerCleanup.scanFailed]
  | del key deletion _ _ ih => simpa [NoFailure, deleted] using ih
  | delFailed key deletion => simp [NoFailure, MarkerCleanup.delFailed]
  | replyLost key deletion => simp [NoFailure, deleted]

/-- Only keys that a SCAN has named are deleted. -/
theorem targets_named (h : Cleans maxCleanup pending last cleaned keys sweep) :
    ∀ key ∈ targets sweep.commands,
      key ∈ pending ∨ ∃ command ∈ sweep.commands, key ∈ command.named := by
  induction h with
  | finished => simp
  | scan round page cursor _ ih =>
      intro key hkey
      right
      rcases ih key hkey with hpage | ⟨command, hcommand, hnamed⟩
      · exact ⟨_, List.mem_cons_self, hpage⟩
      · exact ⟨command, List.mem_cons_of_mem _ hcommand, hnamed⟩
  | scanFailed round => simp
  | del key deletion _ _ ih =>
      intro target htarget
      rcases List.mem_cons.mp htarget with rfl | htarget
      · exact .inl List.mem_cons_self
      · rcases ih target htarget with hpending | ⟨command, hcommand, hnamed⟩
        · exact .inl (List.mem_cons_of_mem _ hpending)
        · exact .inr ⟨command, List.mem_cons_of_mem _ hcommand, hnamed⟩
  | delFailed key deletion => simp
  | replyLost key deletion => simp

/-- The budget bounds the deletes. -/
theorem targets_le (h : Cleans maxCleanup pending last cleaned keys sweep) :
    targets sweep.commands = [] ∨ cleaned + (targets sweep.commands).length ≤ maxCleanup := by
  induction h with
  | finished => simp
  | scan round page cursor _ ih => exact ih
  | scanFailed round => simp
  | del key deletion hlt _ ih =>
      right
      simp only [commands_following, targets_deleted, List.length_cons]
      rcases ih with hnil | hle
      · rw [hnil, List.length_nil]
        omega
      · omega
  | delFailed key deletion => simp
  | replyLost key deletion e hlt =>
      right
      simp only [targets_deleted, targets_nil, List.length_cons, List.length_nil]
      omega

theorem cleaned_eq (h : Cleans maxCleanup pending last cleaned keys sweep)
    (hraised : sweep.raised = none) :
    sweep.cleaned = cleaned + (targets sweep.commands).length := by
  induction h with
  | finished => simp
  | scan round page cursor _ ih => exact ih hraised
  | scanFailed round e => cases hraised
  | del key deletion _ _ ih =>
      have hrest := ih hraised
      simp only [cleaned_following, commands_following, targets_deleted, List.length_cons]
      omega
  | delFailed key deletion e => cases hraised
  | replyLost key deletion e => cases hraised

/-- A loop that ends under its budget has come to the cursor 0 and has deleted every key
that was named. -/
theorem named_targets (h : Cleans maxCleanup pending last cleaned keys sweep)
    (hraised : sweep.raised = none) (hunder : sweep.cleaned < maxCleanup) :
    (last = true ∨ Complete sweep.commands) ∧ (∀ key ∈ pending, key ∈ targets sweep.commands) ∧
      ∀ command ∈ sweep.commands, ∀ key ∈ command.named, key ∈ targets sweep.commands := by
  induction h with
  | finished h =>
      obtain ⟨hlast, hnil⟩ := h.resolve_left (Int.not_le.mpr hunder)
      exact ⟨.inl hlast, by simp [hnil], by simp⟩
  | scan round page cursor _ ih =>
      obtain ⟨hcomplete, hpage, hnamed⟩ := ih hraised hunder
      refine ⟨.inr ?_, by simp, List.forall_mem_cons.mpr ⟨hpage, hnamed⟩⟩
      rcases hcomplete with hcursor | ⟨command, hcommand, hcursor⟩
      · exact ⟨_, List.mem_cons_self, congrArg some (of_decide_eq_true hcursor)⟩
      · exact ⟨command, List.mem_cons_of_mem _ hcommand, hcursor⟩
  | scanFailed round e => cases hraised
  | del key deletion _ _ ih =>
      obtain ⟨hcomplete, hpage, hnamed⟩ := ih hraised hunder
      simp only [commands_following, targets_deleted]
      refine ⟨hcomplete.imp_right ?_, ?_, ?_⟩
      · rintro ⟨command, hcommand, hcursor⟩
        exact ⟨command, List.mem_cons_of_mem _ hcommand, hcursor⟩
      · intro k hk
        rcases List.mem_cons.mp hk with rfl | hk
        · exact List.mem_cons_self
        · exact List.mem_cons_of_mem _ (hpage k hk)
      · refine List.forall_mem_cons.mpr ⟨by simp [deleted], ?_⟩
        intro command hcommand k hk
        exact List.mem_cons_of_mem _ (hnamed command hcommand k hk)
  | delFailed key deletion e => cases hraised
  | replyLost key deletion e => cases hraised

end Cleans

end BackendProdReady.Idempotency.MarkerCleanup
