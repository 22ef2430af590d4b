import BackendProdReady.Cache.InMemory
import BackendProdReady.Cache.Operations
import BackendProdReady.Lib.HttpHeaders
import BackendProdReady.Lib.Runs
import BackendProdReady.Lib.Text

/-!
# Setting a feature flag

`set_flag` writes through `CacheService.set` and drops the boolean that says whether the
write was made, so that it returns normally after a write that was lost.  The service is
followed over runs in which other calls, other users of the cache and the clock interleave
with reads; a read is healthy when Redis answers it.  Times are in milliseconds.
-/

namespace BackendProdReady.FeatureFlags.Acknowledgement

open BackendProdReady.Lib.ExpiringStore
open BackendProdReady.Lib.HttpHeaders (lower)
open BackendProdReady.Lib.Runs
open BackendProdReady.Lib.Text (strip)
open BackendProdReady.Cache.InMemory
open BackendProdReady.Cache.Operations (Keyspace Fate BreakerError deadline)

/-! ## Flags -/

inductive FeatureFlag
  | paddleWebhooksEnabled
  | stripeWebhooksEnabled
  | subscriptionRenewalsEnabled
  | telegramNotificationsEnabled
  | emailNotificationsEnabled
  | rateLimitingEnabled
  | newUserRegistrationEnabled
  | maintenanceMode
  | readOnlyMode
deriving DecidableEq

def FeatureFlag.value : FeatureFlag → String
  | .paddleWebhooksEnabled => "paddle_webhooks_enabled"
  | .stripeWebhooksEnabled => "stripe_webhooks_enabled"
  | .subscriptionRenewalsEnabled => "subscription_renewals_enabled"
  | .telegramNotificationsEnabled => "telegram_notifications_enabled"
  | .emailNotificationsEnabled => "email_notifications_enabled"
  | .rateLimitingEnabled => "rate_limiting_enabled"
  | .newUserRegistrationEnabled => "new_user_registration_enabled"
  | .maintenanceMode => "maintenance_mode"
  | .readOnlyMode => "read_only_mode"

def cachePrefix : String := "feature_flag"

def temporaryTtl : Int := 3600

def criticalFlags : List FeatureFlag :=
  [.paddleWebhooksEnabled, .stripeWebhooksEnabled, .subscriptionRenewalsEnabled, .maintenanceMode,
    .readOnlyMode, .rateLimitingEnabled]

def buildKey (flag : FeatureFlag) : String := cachePrefix ++ ":" ++ flag.value

def truthyValues : List String := ["true", "1", "yes", "enabled"]

def falsyValues : List String := ["false", "0", "no", "disabled"]

/-- The two validated branches of `is_enabled`.  Lowering ASCII letters only decides them:
`lower()` turns no other character into a letter of these words. -/
def parseValue (value : String) : Option Bool :=
  let normalized := strip (lower value)
  if normalized ∈ truthyValues then some true
  else if normalized ∈ falsyValues then some false
  else none

/-- `is_enabled` once the value is read. -/
def interpret (default : Bool) : Option String → Bool
  | none => default
  | some value => (parseValue value).getD default

/-! ## The service -/

structure State where
  now : Nat
  keys : Keyspace
  memory : InMemoryCache

/-- What serves one operation of the cache service. -/
inductive Served
  | redis (fate : Fate)
  /-- The fallback of the local environments. -/
  | inMemory
  /-- There is no client, and the operation answers with its default. -/
  | unavailable
deriving DecidableEq

section

variable (served : Served)

def cacheGet (key : String) (s : State) : Except BreakerError (Option String) × State :=
  match served with
  | .redis fate =>
      let (reply, keys) := Cache.Operations.get fate s.now key s.keys
      (reply, { s with keys })
  | .inMemory =>
      let (reply, memory) := s.memory.get s.now key
      (.ok reply, { s with memory })
  | .unavailable => (.ok none, s)

def cacheSet (key value : String) (ttl : Option Int) (s : State) :
    Except BreakerError Bool × State :=
  match served with
  | .redis fate =>
      let (reply, keys) := Cache.Operations.set fate s.now key value ttl s.keys
      (reply, { s with keys })
  | .inMemory =>
      let (reply, memory) := s.memory.set s.now key value ttl
      (.ok reply, { s with memory })
  | .unavailable => (.ok false, s)

def cacheDelete (key : String) (s : State) : Except BreakerError Bool × State :=
  match served with
  | .redis fate =>
      let (reply, keys) := Cache.Operations.delete fate s.now key s.keys
      (reply, { s with keys })
  | .inMemory =>
      let (reply, memory) := s.memory.delete key
      (.ok reply, { s with memory })
  | .unavailable => (.ok false, s)

def isEnabled (flag : FeatureFlag) (default : Bool) (s : State) :
    Except BreakerError Bool × State :=
  let (value, s) := cacheGet served (buildKey flag) s
  (value.map (interpret default), s)

/-- The time to live, in seconds; `none` is persistent. -/
def ttlOf (flag : FeatureFlag) (persistent : Option Bool) : Option Int :=
  match persistent with
  | none => if flag ∈ criticalFlags then none else some temporaryTtl
  | some persistent => if persistent then none else some temporaryTtl

def setFlag (flag : FeatureFlag) (enabled : Bool) (persistent : Option Bool) (s : State) :
    Except BreakerError Unit × State :=
  let value := if enabled then "true" else "false"
  let (written, s) := cacheSet served (buildKey flag) value (ttlOf flag persistent) s
  (written.map fun _ => (), s)

def clearFlag (flag : FeatureFlag) (s : State) : Except BreakerError Unit × State :=
  let (removed, s) := cacheDelete served (buildKey flag) s
  (removed.map fun _ => (), s)

end

/-! ## Runs -/

inductive Event
  | advance (ms : Nat)
  | isEnabled (served : Served) (flag : FeatureFlag) (default : Bool)
  | setFlag (served : Served) (flag : FeatureFlag) (enabled : Bool) (persistent : Option Bool)
  | clearFlag (served : Served) (flag : FeatureFlag)
  /-- Another user of the cache writes or removes a key of its own. -/
  | otherKey (key : String) (hkey : ∀ flag, key ≠ buildKey flag) (entry : Option (Entry String))
  /-- Other operations leave `memory` in the fallback. -/
  | otherMemory (memory : InMemoryCache)

def afterEvent (s : State) : Event → State
  | .advance ms => { s with now := s.now + ms }
  | .isEnabled served flag default => (isEnabled served flag default s).2
  | .setFlag served flag enabled persistent => (setFlag served flag enabled persistent s).2
  | .clearFlag served flag => (clearFlag served flag s).2
  | .otherKey key _ entry => { s with keys := Function.update s.keys key entry }
  | .otherMemory memory => { s with memory }

def Step (s : State) (event : Event) (t : State) : Prop := t = afterEvent s event

def changes (flag : FeatureFlag) : Event → Bool
  | .setFlag _ changed _ _ | .clearFlag _ changed => changed = flag
  | _ => false

/-- The time to live that `set_flag` chose at `instant`, if any, has not elapsed. -/
def BeforeExpiry (flag : FeatureFlag) (persistent : Option Bool) (instant later : Nat) : Prop :=
  ∀ ttl, ttlOf flag persistent = some ttl → later < deadline instant ttl

/-- From this state on, every healthy read returns the value, until a call changes the flag or
the time to live that was chosen at `instant` has elapsed. -/
def ReadsAs (flag : FeatureFlag) (enabled : Bool) (persistent : Option Bool) (instant : Nat)
    (s : State) : Prop :=
  ∀ events t, Run Step s events t → (∀ event ∈ events, changes flag event = false) →
    BeforeExpiry flag persistent instant t.now →
    ∀ default, (isEnabled (.redis .answered) flag default t).1 = .ok enabled

/-- A call that returns normally has taken effect. -/
def Acknowledged (served : Served) (flag : FeatureFlag) (enabled : Bool) (persistent : Option Bool)
    (s : State) : Prop :=
  (setFlag served flag enabled persistent s).1 = .ok () →
    ReadsAs flag enabled persistent s.now (setFlag served flag enabled persistent s).2

/-- The flag has this value already, for as long as the call asks for. -/
def alreadySet (flag : FeatureFlag) (enabled : Bool) (persistent : Option Bool) (s : State) :
    Bool :=
  match s.keys (buildKey flag) with
  | none => false
  | some entry =>
      parseValue entry.value == some enabled &&
        match ttlOf flag persistent with
        | none => entry.expiry == none
        | some ttl => entry.live (deadline s.now ttl - 1)

def Served.writes : Served → Bool
  | .redis fate => fate.takesEffect
  | .inMemory | .unavailable => false

/-! ## Keys -/

theorem value_injective : Function.Injective FeatureFlag.value := by
  intro flag other h
  cases flag <;> cases other <;> first | rfl | exact absurd h (by decide)

theorem buildKey_injective : Function.Injective buildKey := by
  intro flag other h
  apply value_injective
  simpa [buildKey] using h

theorem parseValue_text (enabled : Bool) :
    parseValue (if enabled then "true" else "false") = some enabled := by
  cases enabled with
  | false => decide
  | true => decide

theorem ttlOf_eq (flag : FeatureFlag) (persistent : Option Bool) :
    ttlOf flag persistent = none ∨ ttlOf flag persistent = some temporaryTtl := by
  unfold ttlOf
  cases persistent with
  | none =>
      dsimp only
      split_ifs
      · exact .inl rfl
      · exact .inr rfl
  | some persistent =>
      cases persistent with
      | false => exact .inr rfl
      | true => exact .inl rfl

/-! ## One operation -/

def flagEntry (flag : FeatureFlag) (enabled : Bool) (persistent : Option Bool) (now : Nat) :
    Entry String :=
  ⟨if enabled then "true" else "false", (ttlOf flag persistent).map (deadline now)⟩

theorem cacheSet_eq (served : Served) (key value : String) {ttl : Option Int}
    (httl : ttl = none ∨ ttl = some temporaryTtl) (s : State) :
    (cacheSet served key value ttl s).2.keys =
        (if served.writes then s.keys.put key ⟨value, ttl.map (deadline s.now)⟩ else s.keys) ∧
      (cacheSet served key value ttl s).2.now = s.now := by
  cases served with
  | redis fate =>
      rcases httl with rfl | rfl
      · cases fate <;> exact ⟨rfl, rfl⟩
      · cases fate <;> exact ⟨rfl, rfl⟩
  | inMemory => exact ⟨rfl, rfl⟩
  | unavailable => exact ⟨rfl, rfl⟩

theorem setFlag_eq (served : Served) (flag : FeatureFlag) (enabled : Bool)
    (persistent : Option Bool) (s : State) :
    (setFlag served flag enabled persistent s).2.keys =
        (if served.writes then
          s.keys.put (buildKey flag) (flagEntry flag enabled persistent s.now)
        else s.keys) ∧
      (setFlag served flag enabled persistent s).2.now = s.now :=
  cacheSet_eq served (buildKey flag) _ (ttlOf_eq flag persistent) s

/-- Every failure but the open circuit breaker goes unnoticed. -/
theorem setFlag_returns (served : Served) (flag : FeatureFlag) (enabled : Bool)
    (persistent : Option Bool) (s : State) :
    (setFlag served flag enabled persistent s).1 = .ok () ↔ served ≠ .redis .rejected := by
  cases served with
  | redis fate =>
      have hwritten : ∀ {ttl : Option Int}, ttl = none ∨ ttl = some temporaryTtl → ∀ key value,
          (cacheSet (.redis fate) key value ttl s).1.map (fun _ => ()) = .ok () ↔
            fate ≠ .rejected := by
        rintro ttl (rfl | rfl) key value
        · cases fate with
          | rejected => exact ⟨fun h => (nomatch h), fun h => absurd rfl h⟩
          | _ => exact ⟨fun _ h => (nomatch h), fun _ => rfl⟩
        · cases fate with
          | rejected => exact ⟨fun h => (nomatch h), fun h => absurd rfl h⟩
          | _ => exact ⟨fun _ h => (nomatch h), fun _ => rfl⟩
      exact (hwritten (ttlOf_eq flag persistent) _ _).trans (by simp)
  | inMemory => simp [setFlag, cacheSet, Except.map]
  | unavailable => simp [setFlag, cacheSet, Except.map]

theorem clearFlag_frame (served : Served) {flag other : FeatureFlag} (hne : other ≠ flag)
    (s : State) :
    (clearFlag served flag s).2.keys (buildKey other) = s.keys (buildKey other) ∧
      (clearFlag served flag s).2.now = s.now := by
  have hkey : buildKey other ≠ buildKey flag := fun h => hne (buildKey_injective h)
  cases served with
  | redis fate =>
      refine ⟨?_, rfl⟩
      cases fate with
      | answered => exact Store.remove_of_ne hkey s.keys
      | replyLost => exact Store.remove_of_ne hkey s.keys
      | failed => rfl
      | rejected => rfl
  | inMemory => exact ⟨rfl, rfl⟩
  | unavailable => exact ⟨rfl, rfl⟩

theorem isEnabled_frame (served : Served) (flag : FeatureFlag) (default : Bool) (s : State) :
    (isEnabled served flag default s).2.keys = s.keys ∧
      (isEnabled served flag default s).2.now = s.now := by
  cases served with
  | redis fate => cases fate <;> exact ⟨rfl, rfl⟩
  | inMemory => exact ⟨rfl, rfl⟩
  | unavailable => exact ⟨rfl, rfl⟩

/-- A healthy read. -/
theorem isEnabled_answered (flag : FeatureFlag) (default : Bool) (s : State) :
    (isEnabled (.redis .answered) flag default s).1 =
      .ok (interpret default (s.keys.find s.now (buildKey flag))) := rfl

/-- Reads with both defaults agree only where a valid value is found. -/
theorem interpret_eq_iff (value : Option String) (enabled : Bool) :
    (∀ default, interpret default value = enabled) ↔ value.bind parseValue = some enabled := by
  have hgetD : ∀ default, interpret default value = (value.bind parseValue).getD default := by
    intro default
    cases value with
    | none => rfl
    | some value => rw [interpret, Option.bind_some]
  simp only [hgetD]
  cases value.bind parseValue with
  | none =>
      constructor
      · intro h
        exact absurd ((h false).trans (h true).symm) Bool.false_ne_true
      · intro h
        cases h
  | some b => simp

/-! ## Runs without a call for the flag -/

/-- The entry of the flag stays as it is, and the clock does not go back. -/
structure Kept (flag : FeatureFlag) (s t : State) : Prop where
  entry : t.keys (buildKey flag) = s.keys (buildKey flag)
  now : s.now ≤ t.now

theorem Kept.of_eq {flag : FeatureFlag} {s t : State}
    (h : t.keys (buildKey flag) = s.keys (buildKey flag) ∧ t.now = s.now) : Kept flag s t :=
  ⟨h.1, h.2.ge⟩

theorem Kept.trans {flag : FeatureFlag} {s t u : State} (hst : Kept flag s t)
    (htu : Kept flag t u) : Kept flag s u :=
  ⟨htu.entry.trans hst.entry, hst.now.trans htu.now⟩

theorem afterEvent_kept {flag : FeatureFlag} {event : Event} (h : changes flag event = false)
    (s : State) : Kept flag s (afterEvent s event) := by
  cases event with
  | advance ms => exact ⟨rfl, Nat.le_add_right s.now ms⟩
  | isEnabled served other default =>
      obtain ⟨hkeys, hnow⟩ := isEnabled_frame served other default s
      exact .of_eq ⟨congrFun hkeys _, hnow⟩
  | setFlag served other enabled persistent =>
      have hne : buildKey flag ≠ buildKey other := by
        intro heq
        rw [buildKey_injective heq] at h
        simp [changes] at h
      obtain ⟨hkeys, hnow⟩ := setFlag_eq served other enabled persistent s
      refine .of_eq ⟨?_, hnow⟩
      show (setFlag served other enabled persistent s).2.keys (buildKey flag) = _
      rw [hkeys]
      split_ifs
      · exact Store.put_of_ne hne s.keys _
      · rfl
  | clearFlag served other =>
      have hne : flag ≠ other := by
        rintro rfl
        simp [changes] at h
      exact .of_eq (clearFlag_frame served hne s)
  | otherKey key hkey entry =>
      refine .of_eq ⟨?_, rfl⟩
      show Function.update s.keys key entry (buildKey flag) = s.keys (buildKey flag)
      exact Function.update_of_ne (hkey flag).symm _ _
  | otherMemory memory => exact .of_eq ⟨rfl, rfl⟩

theorem run_kept {flag : FeatureFlag} {s t : State} {events : List Event}
    (hrun : Run Step s events t) (hevents : ∀ event ∈ events, changes flag event = false) :
    Kept flag s t := by
  have hstep : ∀ r event r', changes flag event = false → Kept flag s r → Step r event r' →
      Kept flag s r' := by
    rintro r event r' hchanges hkept rfl
    exact hkept.trans (afterEvent_kept hchanges r)
  exact hrun.invariant_of_forall hstep hevents (.of_eq ⟨rfl, rfl⟩)

/-! ## Reads after a call -/

/-- The entry has the value and lives at every instant before the expiry. -/
def EntryLasts (flag : FeatureFlag) (enabled : Bool) (persistent : Option Bool) (instant : Nat)
    (entry : Entry String) : Prop :=
  parseValue entry.value = some enabled ∧
    ∀ later, instant ≤ later → BeforeExpiry flag persistent instant later →
      entry.live later = true

theorem lt_deadline (flag : FeatureFlag) (persistent : Option Bool) (instant : Nat) :
    BeforeExpiry flag persistent instant instant := by
  intro ttl httl
  rcases ttlOf_eq flag persistent with h | h
  · rw [h] at httl
    cases httl
  · rw [h] at httl
    obtain rfl := Option.some.inj httl
    exact Nat.lt_add_of_pos_right (by decide)

theorem readsAs_iff {flag : FeatureFlag} {enabled : Bool} {persistent : Option Bool}
    {instant : Nat} {s : State} (hnow : s.now = instant) :
    ReadsAs flag enabled persistent instant s ↔
      ∃ entry, s.keys (buildKey flag) = some entry ∧
        EntryLasts flag enabled persistent instant entry := by
  subst hnow
  constructor
  · intro h
    have hfind : ∀ later, s.now ≤ later → BeforeExpiry flag persistent s.now later →
        (s.keys.find later (buildKey flag)).bind parseValue = some enabled := by
      intro later hle hbefore
      have hadvance : s.now + (later - s.now) = later := by omega
      have hrun : Run Step s [.advance (later - s.now)] { s with now := later } :=
        .single (by rw [Step, afterEvent, hadvance])
      rw [← interpret_eq_iff]
      intro default
      have hread := h _ _ hrun (by simp [changes]) hbefore default
      rw [isEnabled_answered] at hread
      exact Except.ok.inj hread
    have hfirst := lt_deadline flag persistent s.now
    obtain ⟨value, hvalue, -⟩ := Option.bind_eq_some_iff.mp (hfind s.now le_rfl hfirst)
    obtain ⟨entry, hentry, -, -⟩ := Store.find_eq_some hvalue
    have hlive : ∀ later, s.now ≤ later → BeforeExpiry flag persistent s.now later →
        entry.live later = true ∧ parseValue entry.value = some enabled := by
      intro later hle hbefore
      obtain ⟨value, hvalue, hparse⟩ := Option.bind_eq_some_iff.mp (hfind later hle hbefore)
      obtain ⟨entry', hentry', hlive, rfl⟩ := Store.find_eq_some hvalue
      obtain rfl := Option.some.inj (hentry.symm.trans hentry')
      exact ⟨hlive, hparse⟩
    exact ⟨entry, hentry, (hlive s.now le_rfl hfirst).2,
      fun later hle hbefore => (hlive later hle hbefore).1⟩
  · rintro ⟨entry, hentry, hparse, hlasts⟩ events t hrun hevents hbefore default
    have hkept := run_kept hrun hevents
    have hfind := Store.find_of_live (hkept.entry.trans hentry) (hlasts t.now hkept.now hbefore)
    rw [isEnabled_answered, hfind, interpret, hparse, Option.getD_some]

theorem entryLasts_flagEntry (flag : FeatureFlag) (enabled : Bool) (persistent : Option Bool)
    (now : Nat) :
    EntryLasts flag enabled persistent now (flagEntry flag enabled persistent now) := by
  refine ⟨parseValue_text enabled, ?_⟩
  intro later _ hbefore
  cases httl : ttlOf flag persistent with
  | none => rw [flagEntry, httl]; rfl
  | some ttl =>
      have hexpiry : (flagEntry flag enabled persistent now).expiry = some (deadline now ttl) := by
        rw [flagEntry, httl]
        rfl
      exact (Entry.live_iff hexpiry later).mpr (hbefore ttl httl).le

/-- Without a time to live an entry has to stay for ever. -/
theorem lives_iff_of_persistent {flag : FeatureFlag} {persistent : Option Bool} {now : Nat}
    (httl : ttlOf flag persistent = none) (entry : Entry String) :
    (∀ later, now ≤ later → BeforeExpiry flag persistent now later → entry.live later = true) ↔
      entry.expiry = none := by
  have hbefore : ∀ later, BeforeExpiry flag persistent now later := by
    intro later ttl h
    rw [httl] at h
    cases h
  constructor
  · intro hlive
    cases hexpiry : entry.expiry with
    | none => rfl
    | some expiry =>
        have hlate := hlive (max now (expiry + 1)) (le_max_left _ _) (hbefore _)
        rw [Entry.live_iff hexpiry] at hlate
        omega
  · intro hnone later _ _
    rw [Entry.live, hnone]

/-- A time to live is positive, so that its last instant decides. -/
theorem lives_iff_of_ttl {flag : FeatureFlag} {persistent : Option Bool} {now : Nat} {ttl : Int}
    (httl : ttlOf flag persistent = some ttl) (entry : Entry String) :
    (∀ later, now ≤ later → BeforeExpiry flag persistent now later → entry.live later = true) ↔
      entry.live (deadline now ttl - 1) = true := by
  have hnow := lt_deadline flag persistent now ttl httl
  constructor
  · intro hlive
    apply hlive _ (by omega)
    intro ttl' httl'
    obtain rfl := Option.some.inj (httl.symm.trans httl')
    omega
  · intro hlive later _ hbefore
    have hlt := hbefore ttl httl
    exact Entry.live_of_le (by omega) hlive

theorem alreadySet_iff (flag : FeatureFlag) (enabled : Bool) (persistent : Option Bool)
    (s : State) :
    alreadySet flag enabled persistent s = true ↔
      ∃ entry, s.keys (buildKey flag) = some entry ∧
        EntryLasts flag enabled persistent s.now entry := by
  unfold alreadySet
  cases hentry : s.keys (buildKey flag) with
  | none => simp
  | some entry =>
      simp only [Bool.and_eq_true, beq_iff_eq, Option.some.injEq, exists_eq_left', EntryLasts]
      apply and_congr_right
      intro _
      cases httl : ttlOf flag persistent with
      | none => rw [lives_iff_of_persistent httl, beq_iff_eq]
      | some ttl => rw [lives_iff_of_ttl httl]

/-! ## Main result -/

/-- The open circuit breaker is the only failure that `set_flag` reports. -/
theorem acknowledged_iff (served : Served) (flag : FeatureFlag) (enabled : Bool)
    (persistent : Option Bool) (s : State) :
    Acknowledged served flag enabled persistent s ↔
      served = .redis .rejected ∨ served.writes = true ∨
        alreadySet flag enabled persistent s = true := by
  obtain ⟨hkeys, hnow⟩ := setFlag_eq served flag enabled persistent s
  rw [Acknowledged, setFlag_returns, imp_iff_not_or, not_not, readsAs_iff hnow, hkeys]
  apply or_congr_right
  cases hwrites : served.writes with
  | true =>
      have hlasts := entryLasts_flagEntry flag enabled persistent s.now
      exact iff_of_true ⟨_, Store.put_self s.keys _ _, hlasts⟩ (.inl rfl)
  | false =>
      rw [if_neg Bool.false_ne_true, ← alreadySet_iff]
      simp

/-- The maintenance mode that a failed write does not switch on. -/
theorem maintenance_mode_lost :
    (setFlag (.redis .failed) .maintenanceMode true none ⟨0, fun _ => none, .init⟩).1 = .ok () ∧
      ¬ Acknowledged (.redis .failed) .maintenanceMode true none ⟨0, fun _ => none, .init⟩ := by
  refine ⟨rfl, ?_⟩
  intro h
  have hread := h rfl [] _ (.refl _) (fun _ hmem => (nomatch hmem)) (fun _ httl => (nomatch httl))
  exact absurd (hread false) (by decide)

end BackendProdReady.FeatureFlags.Acknowledgement
