import BackendProdReady.Cache.Fallback

/-!
# Exclusion by `setnx` on the fallback

A key that `setnx` has set stays set until its expiry, as long as the cache that
holds it stays.  Every connection attempt that fails puts a new cache in place of
the old one, and attempts that began before the first of them failed still run.
-/

namespace BackendProdReady.Cache.SetnxExclusion

open BackendProdReady.Lib.InsertionDict
open BackendProdReady.Lib.Runs
open BackendProdReady.Cache.InMemory
open BackendProdReady.Cache.Fallback
open BackendProdReady.Cache.Connection (CacheService CacheSettings)
open BackendProdReady.Cache.Connection.CacheService (Attempt PingOutcome shouldUseFallback)

variable {fnmatch : String → String → Bool} {settings : CacheSettings} {ω : Type}
  [DecidableEq ω]

/-! ## Assumptions -/

/-- Redis answers no `ping()`, and nobody closes the service. -/
structure Unreachable (_ : System ω) (label : Label ω) (_ : System ω) : Prop where
  noPong : ∀ task, label.1 ≠ .pingEnded task .pong
  notClosed : ∀ task, label.1 ≠ .close task
  notClientClosed : ∀ task completed, label.1 ≠ .clientClosed task completed

/-- Nothing removes the key, and no eviction is due. -/
structure KeyLeft (fnmatch : String → String → Bool) (key : String) (s : System ω)
    (label : Label ω) (_ : System ω) : Prop where
  notDeleted : ∀ reply, label.2 ≠ .returned (.delete key) reply
  notMatched : ∀ pattern reply, label.2 = .returned (.deletePattern pattern) reply →
    fnmatch key pattern = false
  belowCapacity : ∀ cache, s.service.inMemoryCache = some cache →
    cache.cache.length < cache.maxSize

/-- What has expired by `later` has expired by `earlier`. -/
def Outlives (later earlier : Option Int) : Prop :=
  ∀ now, InMemoryCache.isExpired now later = true → InMemoryCache.isExpired now earlier = true

/-- No failed attempt meets a live entry of the key, and no `set` of the key
shortens its time. -/
structure EntryKept (key : String) (expiry : Option Int) (s : System ω) (label : Label ω)
    (_ : System ω) : Prop where
  attemptsFailClear : ∀ task outcome, label.1 = .pingEnded task outcome →
    outcome ≠ .otherException → ∀ cache, s.service.inMemoryCache = some cache →
      cache.liveExpiry s.now key = none
  notShortened : ∀ value ttl reply, label.2 = .returned (.set key value ttl) reply →
    Outlives (InMemoryCache.expiryOf s.now ttl) expiry

/-! ## The service without Redis -/

/-- The first failure of an attempt settles everything: the fallback, the flag that
stops further attempts, and the cache. -/
structure Fallen (service : CacheService) : Prop where
  fallback : service.usingFallback = service.inMemoryCache.isSome
  initialized : service.initialized = service.inMemoryCache.isSome
  failures : service.consecutiveFailures ≠ 0 → service.initialized = true

theorem fallen_init : Fallen CacheService.init := ⟨rfl, rfl, fun h => absurd rfl h⟩

theorem connectionFailed_fallen (hlocal : shouldUseFallback settings = true)
    (service : CacheService) (now : Nat) :
    Fallen (service.connectionFailed settings now) ∧
      (service.connectionFailed settings now).inMemoryCache = some .init := by
  simp only [CacheService.connectionFailed, hlocal, if_true]
  exact ⟨⟨rfl, rfl, fun _ => rfl⟩, trivial⟩

/-- Before the first failure there is no backoff, and after it no attempt. -/
theorem ensureConnected_fallen (hlocal : shouldUseFallback settings = true)
    {service : CacheService} (h : Fallen service) (now : Nat) :
    Fallen (service.ensureConnected settings now).1 := by
  unfold CacheService.ensureConnected
  split_ifs with hinit hattempt hurl hfallback
  · exact h
  · exact ⟨h.fallback, h.initialized, h.failures⟩
  · exact (connectionFailed_fallen hlocal service now).1
  · have hnone : service.consecutiveFailures = 0 := by
      by_contra hfailed
      exact hinit (h.failures hfailed)
    simp [CacheService.shouldAttemptConnection, hnone] at hattempt
  · exact h

theorem ensureConnected_of_cache {service : CacheService} {cache : InMemoryCache}
    (h : Fallen service) (hcache : service.inMemoryCache = some cache) (now : Nat) :
    service.ensureConnected settings now = (service, .skipped) := by
  have hinit : service.initialized = true := by
    rw [h.initialized, hcache]
    rfl
  rw [CacheService.ensureConnected, if_pos hinit]

theorem pingEnded_fallen (hlocal : shouldUseFallback settings = true) {service : CacheService}
    (h : Fallen service) {outcome : PingOutcome} (hpong : outcome ≠ .pong) (now : Nat) :
    Fallen (service.pingEnded settings now outcome) := by
  cases outcome with
  | pong => exact absurd rfl hpong
  | otherException => exact h
  | _ => exact (connectionFailed_fallen hlocal service now).1

theorem continues_fallen {now : Nat} {service service' : CacheService} {operation : Operation}
    {shown : Observation} (h : Fallen service)
    (hcontinues : Continues fnmatch now service operation shown service') : Fallen service' := by
  cases hcontinues with
  | connect => exact h
  | served hfallback hcache =>
      have hsome : service.inMemoryCache.isSome = true := by rw [hcache]; rfl
      exact ⟨hfallback, h.initialized.trans hsome, h.failures⟩

theorem step_fallen (hlocal : shouldUseFallback settings = true) {s t : System ω}
    {label : Label ω} (hs : Fallen s.service) (h : Step fnmatch settings s label t)
    (hguard : Unreachable s label t) : Fallen t.service := by
  obtain ⟨event, shown⟩ := label
  generalize hservice : t.service = service'
  generalize hnow : t.now = now'
  have htransition := step_cases fnmatch h
  rw [hservice, hnow] at htransition
  cases htransition with
  | advance ms => exact hs
  | suspended hattempt => exact ensureConnected_fallen hlocal hs s.now
  | invoked hattempt hcontinues =>
      exact continues_fallen (ensureConnected_fallen hlocal hs s.now) hcontinues
  | raised => exact hs
  | @resumed task outcome operation shown service' houtcome hcontinues =>
      refine continues_fallen (pingEnded_fallen hlocal hs ?_ s.now) hcontinues
      rintro rfl
      exact hguard.noPong task rfl
  | @close task => exact absurd rfl (hguard.notClosed task)
  | @clientClosed task completed => exact absurd rfl (hguard.notClientClosed task completed)

/-! ## Every operation is answered by the fallback -/

omit [DecidableEq ω] in
theorem proceed_answered {s : System ω} (hs : Fallen s.service)
    (hcache : s.service.inMemoryCache.isSome = true) (operation : Operation) :
    (proceed fnmatch s operation).isSome = true := by
  have hfallback : s.service.usingFallback = true := hs.fallback.trans hcache
  obtain ⟨cache, hsome⟩ := Option.isSome_iff_exists.mp hcache
  unfold proceed
  split_ifs
  · rfl
  · simp [hfallback, hsome]

theorem ensureConnected_cache (hlocal : shouldUseFallback settings = true)
    {service : CacheService} (h : Fallen service) {now : Nat}
    (hattempt : (service.ensureConnected settings now).2 ≠ .pinging) :
    (service.ensureConnected settings now).1.inMemoryCache.isSome = true := by
  unfold CacheService.ensureConnected at hattempt ⊢
  split_ifs at hattempt ⊢ with hinit hbackoff hurl hfallback
  · exact h.initialized.symm.trans hinit
  · exact absurd rfl hattempt
  · rw [(connectionFailed_fallen hlocal service now).2]
    rfl
  · rfl
  · simpa [hlocal, Option.isSome_iff_ne_none] using hfallback

theorem invoke_answered (hlocal : shouldUseFallback settings = true) {s : System ω}
    (hs : Fallen s.service) {task : ω} (hidle : s.operation task = none)
    (operation : Operation) :
    (react fnmatch settings s (.invoke task operation)).isSome = true := by
  simp only [react, hidle, Option.isSome_none]
  by_cases hattempt : (s.service.ensureConnected settings s.now).2 = .pinging
  · simp [hattempt]
  · rw [if_neg (by simp), if_neg hattempt]
    exact proceed_answered (ensureConnected_fallen hlocal hs s.now)
      (ensureConnected_cache hlocal hs hattempt) operation

/-! ## A live entry stays -/

section Serve

variable {key : String} {cache : InMemoryCache} {now : Nat}

theorem liveExpiry_removeIf {drop : String → Bool} (h : drop key = false) :
    ({ cache with cache := cache.cache.removeIf drop } : InMemoryCache).liveExpiry now key =
      cache.liveExpiry now key :=
  InMemoryCache.liveExpiry_congr (Dict.find_removeIf_of_kept h _) now

theorem liveExpiry_assign_of_ne {key' : String} (h : key' ≠ key) (value : String)
    (ttl : Option Int) :
    (cache.assign now key' value ttl).liveExpiry now key = cache.liveExpiry now key :=
  InMemoryCache.liveExpiry_congr (Dict.find_assign_of_ne _ h _) now

theorem liveExpiry_assign_self (value : String) (ttl : Option Int) :
    (cache.assign now key value ttl).liveExpiry now key =
      if InMemoryCache.isExpired now (InMemoryCache.expiryOf now ttl) then none
      else some (InMemoryCache.expiryOf now ttl) := by
  simp [InMemoryCache.liveExpiry, InMemoryCache.assign, Dict.find_assign_self]

theorem get_of_ne {key' : String} (h : key' ≠ key) :
    (cache.get now key').2.liveExpiry now key = cache.liveExpiry now key :=
  InMemoryCache.liveExpiry_congr (InMemoryCache.find_get_of_ne (Ne.symm h)) now

theorem setnx_of_ne {key' : String} (h : key' ≠ key) (value : String) (ttl : Option Int) :
    (cache.setnx now key' value ttl).2.liveExpiry now key = cache.liveExpiry now key := by
  rcases cache.setnx_cases now key' value ttl with ⟨entry, -, hset⟩ | ⟨-, hset⟩
  · rw [hset]
  · rw [hset]
    exact liveExpiry_assign_of_ne h value ttl

end Serve

/-- The time of the key is over, or the cache holds it at least that long. -/
def Held (key : String) (expiry : Option Int) (now : Nat) (cache : Option InMemoryCache) : Prop :=
  InMemoryCache.isExpired now expiry = true ∨
    ∃ c live, cache = some c ∧ c.liveExpiry now key = some live ∧ Outlives live expiry

theorem held_assign {key value : String} {expiry ttl : Option Int} {now : Nat}
    {cache : InMemoryCache} (h : Outlives (InMemoryCache.expiryOf now ttl) expiry) :
    Held key expiry now (some (cache.assign now key value ttl)) := by
  by_cases hexpired : InMemoryCache.isExpired now (InMemoryCache.expiryOf now ttl) = true
  · exact .inl (h now hexpired)
  · refine .inr ⟨_, _, rfl, ?_, h⟩
    rw [liveExpiry_assign_self, if_neg hexpired]

theorem isExpired_later {now : Nat} {expiry : Option Int} (ms : Nat)
    (h : InMemoryCache.isExpired now expiry = true) :
    InMemoryCache.isExpired (now + ms) expiry = true := by
  cases expiry with
  | none => exact h
  | some instant =>
      simp only [InMemoryCache.isExpired, gt_iff_lt, decide_eq_true_eq] at h ⊢
      omega

theorem liveExpiry_later {cache : InMemoryCache} {key : String} {now later : Nat}
    {live : Option Int} (h : cache.liveExpiry now key = some live)
    (hlater : InMemoryCache.isExpired later live = false) :
    cache.liveExpiry later key = some live := by
  unfold InMemoryCache.liveExpiry at h ⊢
  split at h
  · cases h
  · split_ifs at h
    obtain rfl := Option.some.inj h
    simp [hlater]

theorem Held.later {key : String} {expiry : Option Int} {now : Nat}
    {cache : Option InMemoryCache} (h : Held key expiry now cache) (ms : Nat) :
    Held key expiry (now + ms) cache := by
  rcases h with hexpired | ⟨c, live, hcache, hlive, houtlives⟩
  · exact .inl (isExpired_later ms hexpired)
  · cases hover : InMemoryCache.isExpired (now + ms) live with
    | true => exact .inl (houtlives _ hover)
    | false => exact .inr ⟨c, live, hcache, liveExpiry_later hlive hover, houtlives⟩

theorem serve_held {key : String} {expiry live : Option Int} {now : Nat} {cache : InMemoryCache}
    (hlive : cache.liveExpiry now key = some live) (houtlives : Outlives live expiry)
    (hcapacity : cache.cache.length < cache.maxSize) {operation : Operation}
    (hdelete : operation ≠ .delete key)
    (hmatched : ∀ pattern, operation = .deletePattern pattern → fnmatch key pattern = false)
    (hset : ∀ value ttl, operation = .set key value ttl →
      Outlives (InMemoryCache.expiryOf now ttl) expiry) :
    Held key expiry now (some (operation.serve fnmatch now cache).2) := by
  have hkept : ∀ c : InMemoryCache, c.liveExpiry now key = cache.liveExpiry now key →
      Held key expiry now (some c) :=
    fun c hc => .inr ⟨c, live, rfl, hc.trans hlive, houtlives⟩
  cases operation with
  | connect | executeLuaScript | ping => exact hkept cache rfl
  | get key' =>
      apply hkept
      by_cases hkey : key' = key
      · subst hkey
        exact congrArg (InMemoryCache.liveExpiry now key')
          (InMemoryCache.get_of_live hlive)
      · exact get_of_ne hkey
  | set key' value ttl =>
      by_cases hkey : key' = key
      · subst hkey
        exact held_assign (hset value ttl rfl)
      · apply hkept
        rw [Operation.serve, InMemoryCache.set, InMemoryCache.evict_of_lt hcapacity]
        exact liveExpiry_assign_of_ne hkey value ttl
  | setnx key' value ttl =>
      apply hkept
      by_cases hkey : key' = key
      · subst hkey
        rw [Operation.serve, InMemoryCache.setnx_of_live hlive]
      · exact setnx_of_ne hkey value ttl
  | delete key' =>
      have hkey : key' ≠ key := fun heq => hdelete (congrArg _ heq)
      exact hkept _ (liveExpiry_removeIf (by simpa using Ne.symm hkey))
  | deletePattern pattern => exact hkept _ (liveExpiry_removeIf (hmatched pattern rfl))

/-! ## Steps and runs -/

/-- The assumptions while the key is to be held until `expiry`. -/
structure Kept (fnmatch : String → String → Bool) (key : String) (expiry : Option Int)
    (s : System ω) (label : Label ω) (t : System ω) : Prop where
  unreachable : Unreachable s label t
  keyLeft : KeyLeft fnmatch key s label t
  entryKept : EntryKept key expiry s label t

section Steps

variable {key : String} {expiry : Option Int} {s t : System ω}

omit [DecidableEq ω] in
theorem continues_held {operation : Operation} {shown : Observation} {event : Event ω}
    {service' : CacheService}
    (hcontinues : Continues fnmatch s.now s.service operation shown service')
    (hguard : Kept fnmatch key expiry s (event, shown) t)
    (h : Held key expiry s.now s.service.inMemoryCache) :
    Held key expiry s.now service'.inMemoryCache := by
  cases hcontinues with
  | connect => exact h
  | @served _ cache hfallback hcache =>
      rcases h with hexpired | ⟨c, live, hc, hlive, houtlives⟩
      · exact .inl hexpired
      · obtain rfl := Option.some.inj (hcache.symm.trans hc)
        refine serve_held hlive houtlives (hguard.keyLeft.belowCapacity _ hcache) ?_ ?_ ?_
        · rintro rfl
          exact hguard.keyLeft.notDeleted _ rfl
        · rintro pattern rfl
          exact hguard.keyLeft.notMatched _ _ rfl
        · rintro value ttl rfl
          exact hguard.entryKept.notShortened _ _ _ rfl

theorem step_held {label : Label ω} (hs : Fallen s.service)
    (h : Held key expiry s.now s.service.inMemoryCache)
    (hstep : Step fnmatch settings s label t) (hguard : Kept fnmatch key expiry s label t) :
    Held key expiry t.now t.service.inMemoryCache := by
  obtain ⟨event, shown⟩ := label
  generalize hservice : t.service = service'
  generalize hnow : t.now = now'
  have htransition := step_cases fnmatch hstep
  rw [hservice, hnow] at htransition
  cases htransition with
  | advance ms => exact h.later ms
  | suspended hattempt =>
      rcases h with hexpired | ⟨c, live, hc, hlive, houtlives⟩
      · exact .inl hexpired
      · rw [ensureConnected_of_cache hs hc s.now] at hattempt
        cases hattempt
  | invoked hattempt hcontinues =>
      rcases h with hexpired | ⟨c, live, hc, hlive, houtlives⟩
      · exact .inl hexpired
      · rw [ensureConnected_of_cache hs hc s.now] at hcontinues
        exact continues_held hcontinues hguard (.inr ⟨c, live, hc, hlive, houtlives⟩)
  | raised => exact h
  | @resumed task outcome _ _ _ houtcome hcontinues =>
      rcases h with hexpired | ⟨c, live, hc, hlive, houtlives⟩
      · exact .inl hexpired
      · have hclear := hguard.entryKept.attemptsFailClear task outcome rfl houtcome c hc
        rw [hclear] at hlive
        cases hlive
  | @close task => exact absurd rfl (hguard.unreachable.notClosed task)
  | @clientClosed task completed =>
      exact absurd rfl (hguard.unreachable.notClientClosed task completed)

theorem continues_setnx {now : Nat} {service service' : CacheService} {operation : Operation}
    {value : String} {ttl : Option Int}
    (h : Continues fnmatch now service operation (.returned (.setnx key value ttl) (.flag true))
      service') :
    ∃ cache, service.inMemoryCache = some cache ∧
      (cache.setnx now key value ttl).1 = true ∧
      service'.inMemoryCache = some (cache.setnx now key value ttl).2 := by
  generalize hshown : Observation.returned (.setnx key value ttl) (.flag true) = shown at h
  cases h with
  | connect => cases hshown
  | @served _ cache hfallback hcache =>
      obtain ⟨rfl, hreply⟩ := Observation.returned.inj hshown
      refine ⟨cache, hcache, ?_, rfl⟩
      simpa [Operation.serve] using hreply.symm

theorem step_setnx {value : String} {ttl : Option Int} {event : Event ω}
    (hstep : Step fnmatch settings s (event, .returned (.setnx key value ttl) (.flag true)) t) :
    t.now = s.now ∧ ∃ service operation,
      Continues fnmatch s.now service operation (.returned (.setnx key value ttl) (.flag true))
        t.service ∧
      (service = (s.service.ensureConnected settings s.now).1 ∨
        ∃ task outcome, event = .pingEnded task outcome ∧ outcome ≠ .otherException) := by
  generalize hservice : t.service = service'
  generalize hnow : t.now = now'
  have htransition := step_cases fnmatch hstep
  rw [hservice, hnow] at htransition
  cases htransition with
  | invoked hattempt hcontinues => exact ⟨rfl, _, _, hcontinues, .inl rfl⟩
  | resumed houtcome hcontinues => exact ⟨rfl, _, _, hcontinues, .inr ⟨_, _, rfl, houtcome⟩⟩

theorem setnx_expired {value : String} {ttl : Option Int} {event : Event ω}
    (hs : Fallen s.service) (h : Held key expiry s.now s.service.inMemoryCache)
    (hstep : Step fnmatch settings s (event, .returned (.setnx key value ttl) (.flag true)) t)
    (hguard : Kept fnmatch key expiry s (event, .returned (.setnx key value ttl) (.flag true)) t) :
    InMemoryCache.isExpired s.now expiry = true := by
  rcases h with hexpired | ⟨c, live, hc, hlive, houtlives⟩
  · exact hexpired
  · obtain ⟨-, service, operation, hcontinues, hservice | ⟨task, outcome, rfl, houtcome⟩⟩ :=
      step_setnx hstep
    · rw [ensureConnected_of_cache hs hc s.now] at hservice
      subst hservice
      obtain ⟨cache, hcache, hset, -⟩ := continues_setnx hcontinues
      obtain rfl := Option.some.inj (hcache.symm.trans hc)
      rw [InMemoryCache.setnx_of_live hlive] at hset
      cases hset
    · have hclear := hguard.entryKept.attemptsFailClear task outcome rfl houtcome c hc
      rw [hclear] at hlive
      cases hlive

theorem setnx_held {value : String} {ttl : Option Int} {event : Event ω}
    (hstep : Step fnmatch settings s (event, .returned (.setnx key value ttl) (.flag true)) t) :
    Held key (InMemoryCache.expiryOf s.now ttl) t.now t.service.inMemoryCache := by
  obtain ⟨hnow, service, operation, hcontinues, -⟩ := step_setnx hstep
  obtain ⟨cache, hcache, hset, hcache'⟩ := continues_setnx hcontinues
  have hassigned : (cache.setnx s.now key value ttl).2 = cache.assign s.now key value ttl := by
    rcases cache.setnx_cases s.now key value ttl with ⟨entry, -, hrefused⟩ | ⟨-, hwritten⟩
    · rw [hrefused] at hset
      cases hset
    · rw [hwritten]
  rw [hnow, hcache', hassigned]
  exact held_assign fun _ h => h

end Steps

/-- Once a `setnx` of a key has returned true, another one does so only after the
expiry of the first, in every interleaving of operations without Redis. -/
theorem setnx_exclusive (hlocal : shouldUseFallback settings = true) {now : Nat} {key : String}
    {value value' : String} {ttl ttl' : Option Int} {before between : List (Label ω)}
    {s t u w : System ω} {event event' : Event ω}
    (hbefore : Run (Guarded Unreachable (Step fnmatch settings)) (start now) before s)
    (hfirst : Guarded Unreachable (Step fnmatch settings) s
      (event, .returned (.setnx key value ttl) (.flag true)) t)
    (hbetween : Run (Guarded (Kept fnmatch key (InMemoryCache.expiryOf s.now ttl))
      (Step fnmatch settings)) t between u)
    (hsecond : Guarded (Kept fnmatch key (InMemoryCache.expiryOf s.now ttl))
      (Step fnmatch settings) u (event', .returned (.setnx key value' ttl') (.flag true)) w) :
    InMemoryCache.isExpired u.now (InMemoryCache.expiryOf s.now ttl) = true := by
  have hs : Fallen s.service := by
    have hkeeps : ∀ (r : System ω) (label : Label ω) (r' : System ω), Fallen r.service →
        Guarded Unreachable (Step fnmatch settings) r label r' → Fallen r'.service :=
      fun r label r' hr hstep => step_fallen hlocal hr hstep.1 hstep.2
    exact hbefore.invariant hkeeps fallen_init
  have ht := step_fallen hlocal hs hfirst.1 hfirst.2
  have hu : Fallen u.service ∧ Held key (InMemoryCache.expiryOf s.now ttl) u.now
      u.service.inMemoryCache := by
    have hkeeps : ∀ (r : System ω) (label : Label ω) (r' : System ω),
        Fallen r.service ∧
          Held key (InMemoryCache.expiryOf s.now ttl) r.now r.service.inMemoryCache →
        Guarded (Kept fnmatch key (InMemoryCache.expiryOf s.now ttl)) (Step fnmatch settings)
          r label r' →
        Fallen r'.service ∧
          Held key (InMemoryCache.expiryOf s.now ttl) r'.now r'.service.inMemoryCache :=
      fun r label r' hr hstep => ⟨step_fallen hlocal hr.1 hstep.1 hstep.2.unreachable,
        step_held hr.1 hr.2 hstep.1 hstep.2⟩
    exact hbetween.invariant hkeeps ⟨ht, setnx_held hfirst.1⟩
  exact setnx_expired hu.1 hu.2 hsecond.1 hsecond.2

/-! ## Two first calls -/

def localSettings : CacheSettings := ⟨.dev, true⟩

/-- Patterns without wildcards. -/
def literalMatch (name pattern : String) : Bool := name == pattern

def lock : Operation := .setnx "lock" "1" (some 300)

def lockLabel : Label Nat → Bool
  | (.invoke _ _, .suspended) | (.invoke _ _, .returned (.setnx _ _ _) _)
  | (.pingEnded _ .connectionError, .returned (.setnx _ _ _) _) | (.advance _, .silent) => true
  | _ => false

theorem lockLabel_guard {s t : System Nat} {label : Label Nat} (hlabel : lockLabel label = true)
    (hcapacity : s.service.inMemoryCache.all (fun c => c.cache.length < c.maxSize) = true) :
    Unreachable s label t ∧ KeyLeft literalMatch "lock" s label t := by
  have hbelow : ∀ cache, s.service.inMemoryCache = some cache →
      cache.cache.length < cache.maxSize := by
    intro cache hcache
    simpa [hcache] using hcapacity
  unfold lockLabel at hlabel
  split at hlabel
  · exact ⟨⟨by simp, by simp, by simp⟩, ⟨by simp, by simp, hbelow⟩⟩
  · exact ⟨⟨by simp, by simp, by simp⟩, ⟨by simp, by simp, hbelow⟩⟩
  · exact ⟨⟨by simp, by simp, by simp⟩, ⟨by simp, by simp, hbelow⟩⟩
  · exact ⟨⟨by simp, by simp, by simp⟩, ⟨by simp, by simp, hbelow⟩⟩
  · cases hlabel

theorem lock_again_after_301_seconds :
    ∃ s t u w : System Nat,
      Step literalMatch localSettings s
        (.pingEnded 0 .connectionError, .returned lock (.flag true)) t ∧
      Step literalMatch localSettings t (.advance 301000, .silent) u ∧
      Step literalMatch localSettings u (.invoke 1 lock, .returned lock (.flag true)) w ∧
      InMemoryCache.isExpired u.now (InMemoryCache.expiryOf s.now (some 300)) = true := by
  let react := react (ω := Nat) literalMatch localSettings
  let s := afterEvent react (start 0) (.invoke 0 lock)
  let t := afterEvent react s (.pingEnded 0 .connectionError)
  let u := afterEvent react t (.advance 301000)
  have hs : Reaction react (start 0) (.invoke 0 lock, .suspended) s :=
    reaction_afterEvent (by decide)
  have ht : Reaction react s (.pingEnded 0 .connectionError, .returned lock (.flag true)) t :=
    reaction_afterEvent (by decide)
  have hu : Reaction react t (.advance 301000, .silent) u := reaction_afterEvent (by decide)
  have hw : Reaction react u (.invoke 1 lock, .returned lock (.flag true))
      (afterEvent react u (.invoke 1 lock)) := reaction_afterEvent (by decide)
  have hadvance : Kept literalMatch "lock" (InMemoryCache.expiryOf s.now (some 300)) t
      (.advance 301000, .silent) u :=
    have hguard := lockLabel_guard rfl (by decide)
    ⟨hguard.1, hguard.2, by simp, by simp⟩
  have hinvoke : Kept literalMatch "lock" (InMemoryCache.expiryOf s.now (some 300)) u
      (.invoke 1 lock, .returned lock (.flag true)) (afterEvent react u (.invoke 1 lock)) :=
    have hguard := lockLabel_guard rfl (by decide)
    ⟨hguard.1, hguard.2, by simp, by simp [lock]⟩
  have hbefore : Run (Guarded Unreachable (Step literalMatch localSettings)) (start 0)
      [(.invoke 0 lock, .suspended)] s := .single ⟨hs, (lockLabel_guard rfl (by decide)).1⟩
  have hfirst : Guarded Unreachable (Step literalMatch localSettings) s
      (.pingEnded 0 .connectionError, .returned (.setnx "lock" "1" (some 300)) (.flag true)) t :=
    ⟨ht, (lockLabel_guard rfl (by decide)).1⟩
  have hexpired := setnx_exclusive (by decide) hbefore hfirst (.single ⟨hu, hadvance⟩)
    ⟨hw, hinvoke⟩
  exact ⟨s, t, u, _, ht, hu, hw, hexpired⟩

/-- Both of two first calls set the key: the failure of the second attempt discards
the cache in which the first call has just set it. -/
theorem second_failure_forgets_key :
    ∃ (s t u : System Nat) (before : List (Label Nat)),
      Run (Guarded (fun r label r' => Unreachable r label r' ∧
          KeyLeft literalMatch "lock" r label r') (Step literalMatch localSettings))
        (start 0) before s ∧
      Guarded (fun r label r' => Unreachable r label r' ∧ KeyLeft literalMatch "lock" r label r')
        (Step literalMatch localSettings) s
        (.pingEnded 0 .connectionError, .returned lock (.flag true)) t ∧
      Guarded (fun r label r' => Unreachable r label r' ∧ KeyLeft literalMatch "lock" r label r')
        (Step literalMatch localSettings) t
        (.pingEnded 1 .connectionError, .returned lock (.flag true)) u ∧
      InMemoryCache.isExpired t.now (InMemoryCache.expiryOf s.now (some 300)) = false := by
  let react := react (ω := Nat) literalMatch localSettings
  let a := afterEvent react (start 0) (.invoke 0 lock)
  let s := afterEvent react a (.invoke 1 lock)
  let t := afterEvent react s (.pingEnded 0 .connectionError)
  let u := afterEvent react t (.pingEnded 1 .connectionError)
  have ha : Reaction react (start 0) (.invoke 0 lock, .suspended) a :=
    reaction_afterEvent (by decide)
  have hs : Reaction react a (.invoke 1 lock, .suspended) s := reaction_afterEvent (by decide)
  have ht : Reaction react s (.pingEnded 0 .connectionError, .returned lock (.flag true)) t :=
    reaction_afterEvent (by decide)
  have hu : Reaction react t (.pingEnded 1 .connectionError, .returned lock (.flag true)) u :=
    reaction_afterEvent (by decide)
  exact ⟨s, t, u, _,
    .tail (.single ⟨ha, lockLabel_guard rfl (by decide)⟩) ⟨hs, lockLabel_guard rfl (by decide)⟩,
    ⟨ht, lockLabel_guard rfl (by decide)⟩, ⟨hu, lockLabel_guard rfl (by decide)⟩, by decide⟩

end BackendProdReady.Cache.SetnxExclusion
