import BackendProdReady.Cache.Connection

/-!
# One backend at a time

Which backend serves an operation is read from four fields.  The success branch
of `_ensure_connected` leaves the fallback fields as they are, so a connection
made while a fallback is active is never used: the operations stay with the
in-memory cache.
-/

namespace BackendProdReady.Cache.Backends

open BackendProdReady.Conf.Settings
open BackendProdReady.Lib.Runs
open BackendProdReady.Cache.Connection

/-! ## Who serves an operation -/

inductive Backend
  | redis
  | inMemory
  /-- The operation answers with its default. -/
  | unavailable
deriving DecidableEq

/-- `get`, `set`, `setnx`, `delete` and the other operations on data, once
connected. -/
def dataBackend (service : CacheService) : Backend :=
  if service.usingFallback ∧ service.inMemoryCache.isSome then .inMemory
  else if service.redisClient then .redis
  else .unavailable

/-- `execute_lua_script`, once connected. -/
def luaBackend (service : CacheService) : Backend :=
  if service.usingFallback then .unavailable
  else if service.redisClient then .redis
  else .unavailable

/-- The last attempt made a connection, and `close` has not been called since. -/
def Connected (service : CacheService) : Prop :=
  service.redisClient = true ∧ service.initialized = true

structure OneBackend (service : CacheService) : Prop where
  connected : Connected service → service.usingFallback = false ∧
    dataBackend service = .redis ∧ luaBackend service = .redis
  fallback : service.usingFallback = true →
    service.inMemoryCache.isSome = true ∧ ¬ Connected service

/-! ## Segments of the service -/

def FallbackHasCache (service : CacheService) : Prop :=
  service.usingFallback = true → service.inMemoryCache.isSome = true

/-- The part of `OneBackend` that a segment can break. -/
def Exclusive (service : CacheService) : Prop :=
  Connected service → service.usingFallback = false

theorem oneBackend_iff (service : CacheService) :
    OneBackend service ↔ FallbackHasCache service ∧ Exclusive service := by
  constructor
  · intro h
    exact ⟨fun hfallback => (h.fallback hfallback).1,
      fun hconnected => (h.connected hconnected).1⟩
  · rintro ⟨hcache, hexclusive⟩
    constructor
    · intro hconnected
      have hfallback := hexclusive hconnected
      exact ⟨hfallback, by simp [dataBackend, hfallback, hconnected.1],
        by simp [luaBackend, hfallback, hconnected.1]⟩
    · intro hfallback
      refine ⟨hcache hfallback, fun hconnected => ?_⟩
      simp [hexclusive hconnected] at hfallback

section Segments

variable {service : CacheService} (settings : CacheSettings) (now : Nat)

theorem connectionFailed_oneBackend (h : OneBackend service) :
    OneBackend (service.connectionFailed settings now) := by
  rw [oneBackend_iff] at h ⊢
  refine ⟨?_, ?_⟩
  · unfold CacheService.connectionFailed FallbackHasCache
    dsimp only
    split_ifs
    · simp
    · exact h.1
  · intro hconnected
    have hclient : (service.connectionFailed settings now).redisClient = false := by
      unfold CacheService.connectionFailed
      dsimp only
      split_ifs <;> rfl
    simp [Connected, hclient] at hconnected

theorem ensureConnected_oneBackend (h : OneBackend service) :
    OneBackend (service.ensureConnected settings now).1 := by
  unfold CacheService.ensureConnected
  split_ifs with hinit hattempt hurl hfallback
  · exact h
  · rw [oneBackend_iff] at h ⊢
    exact ⟨h.1, fun hconnected => absurd hconnected.2 hinit⟩
  · exact connectionFailed_oneBackend settings now h
  · rw [oneBackend_iff]
    exact ⟨fun _ => rfl, fun hconnected => absurd hconnected.2 hinit⟩
  · exact h

theorem close_oneBackend (h : OneBackend service) : OneBackend service.close.1 := by
  have hreset : service.close.1.usingFallback = false := by
    unfold CacheService.close
    by_cases hcache : service.inMemoryCache.isSome = true
    · rw [if_pos hcache]
      dsimp only
      split_ifs <;> rfl
    · have hinactive : service.usingFallback = false := by
        rw [← Bool.not_eq_true]
        exact fun hactive => hcache (h.fallback hactive).1
      rw [if_neg hcache]
      dsimp only
      split_ifs <;> exact hinactive
  rw [oneBackend_iff]
  exact ⟨fun hactive => by simp [hreset] at hactive, fun _ => hreset⟩

theorem clientClosed_oneBackend (h : OneBackend service) (completed : Bool) :
    OneBackend (service.clientClosed completed) := by
  rw [oneBackend_iff] at h ⊢
  cases completed with
  | true => exact ⟨h.1, fun hconnected => by cases hconnected.1⟩
  | false => exact ⟨h.1, fun hconnected => by cases hconnected.1⟩

/-- A `PONG` that finds a client beside an active fallback connects to both. -/
theorem pong_oneBackend_iff (h : OneBackend service) :
    OneBackend (service.pingEnded settings now .pong) ↔
      ¬ (service.usingFallback = true ∧ service.redisClient = true) := by
  rw [oneBackend_iff] at h ⊢
  constructor
  · rintro ⟨-, hexclusive⟩ ⟨hfallback, hclient⟩
    have hnot : service.usingFallback = false := hexclusive ⟨hclient, rfl⟩
    simp [hnot] at hfallback
  · intro hnot
    refine ⟨h.1, fun hconnected => ?_⟩
    have hclient : service.redisClient = true := hconnected.1
    show service.usingFallback = false
    rw [← Bool.not_eq_true]
    exact fun hfallback => hnot ⟨hfallback, hclient⟩

end Segments

/-! ## Steps and runs -/

section Runs

variable {ω : Type} [DecidableEq ω] {settings : CacheSettings}

/-- A connection is made only where no fallback is active beside its client. -/
def PongClear (s : System ω) (label : Label ω) (_ : System ω) : Prop :=
  ∀ task, label.1 = .pingEnded task .pong →
    ¬ (s.service.usingFallback = true ∧ s.service.redisClient = true)

/-- From a state with one backend, a step keeps it at one exactly when it is clear. -/
theorem step_oneBackend_iff {s t : System ω} {label : Label ω} (hs : OneBackend s.service)
    (h : Step settings s label t) : OneBackend t.service ↔ PongClear s label t := by
  obtain ⟨event, shown⟩ := label
  have hclear : (∀ task, event ≠ .pingEnded task .pong) → PongClear s (event, shown) t :=
    fun hne task heq => absurd heq (hne task)
  cases step_cases h with
  | advance ms => exact iff_of_true hs (hclear (by simp))
  | ensureConnected hidle hsegment =>
      subst hsegment
      exact iff_of_true (ensureConnected_oneBackend settings s.now hs) (hclear (by simp))
  | @pingEnded task hpinging outcome =>
      cases outcome with
      | pong =>
          refine (pong_oneBackend_iff settings s.now hs).trans ?_
          exact ⟨fun hnot _ _ => hnot, fun hall => hall task rfl⟩
      | otherException => exact iff_of_true hs (hclear (by simp))
      | _ => exact iff_of_true (connectionFailed_oneBackend settings s.now hs) (hclear (by simp))
  | inMemoryOperation hfallback hcache cache =>
      refine iff_of_true ?_ (hclear (by simp))
      rw [oneBackend_iff] at hs ⊢
      exact ⟨fun _ => rfl, hs.2⟩
  | close hopen hsegment =>
      subst hsegment
      exact iff_of_true (close_oneBackend hs) (hclear (by simp))
  | clientClosed hclosing completed =>
      exact iff_of_true (clientClosed_oneBackend hs completed) (hclear (by simp))

omit [DecidableEq ω] in
theorem oneBackend_start (now : Nat) : OneBackend (start now : System ω).service := by
  rw [oneBackend_iff]
  exact ⟨fun h => absurd h (by simp [start, CacheService.init]), fun _ => rfl⟩

/-- Along every run whose connections are all made clear of a fallback, one backend
serves at a time. -/
theorem one_backend_at_a_time {now : Nat} {s : System ω} {labels : List (Label ω)}
    (hrun : Run (Guarded PongClear (Step settings)) (start now) labels s) :
    OneBackend s.service := by
  have hkeeps : ∀ (r : System ω) (label : Label ω) (r' : System ω), OneBackend r.service →
      Guarded PongClear (Step settings) r label r' → OneBackend r'.service :=
    fun r label r' hr hstep => (step_oneBackend_iff hr hstep.1).mpr hstep.2
  exact hrun.invariant hkeeps (oneBackend_start now)

end Runs

/-! ## A connection beside a fallback -/

def devSettings : CacheSettings := ⟨.dev, true⟩

theorem one_backend_after_failure :
    OneBackend (next devSettings (next devSettings (start 0) (.ensureConnected 0 : Event Nat))
      (.pingEnded 0 .connectionError)).service := by
  let pinging := next devSettings (start 0) (.ensureConnected 0 : Event Nat)
  have hbegin : Step devSettings (start 0) (.ensureConnected 0, .attemptBegun) pinging :=
    reaction_afterEvent (by decide)
  have hfail : Step devSettings pinging (.pingEnded 0 .connectionError, .attemptSettled)
      (next devSettings pinging (.pingEnded 0 .connectionError)) := reaction_afterEvent (by decide)
  have hclear : ∀ (s t : System Nat) (label : Label Nat),
      (∀ task, label.1 ≠ .pingEnded task .pong) → PongClear s label t :=
    fun s t label hne task heq => absurd heq (hne task)
  exact one_backend_at_a_time
    (.tail (.single ⟨hbegin, hclear _ _ _ (by simp)⟩) ⟨hfail, hclear _ _ _ (by simp)⟩)

/-- Redis is down, the service is closed and used again within the backoff, and
Redis is back for the next attempt: the connection is made and not used. -/
def downClosedUp : List (Event Nat) :=
  [.ensureConnected 0, .pingEnded 0 .connectionError, .close 0, .ensureConnected 0,
    .advance 2000, .ensureConnected 0, .pingEnded 0 .pong]

theorem connected_service_uses_fallback :
    ∃ (s : System Nat) (labels : List (Label Nat)),
      Run (Step devSettings) (start 0) labels s ∧
      labels.map Prod.fst = downClosedUp ∧
      Connected s.service ∧ s.service.usingFallback = true ∧
      dataBackend s.service = .inMemory ∧ ¬ OneBackend s.service := by
  let a := next devSettings (start 0) (.ensureConnected 0 : Event Nat)
  let b := next devSettings a (.pingEnded 0 .connectionError)
  let c := next devSettings b (.close 0)
  let d := next devSettings c (.ensureConnected 0)
  let e := next devSettings d (.advance 2000)
  let f := next devSettings e (.ensureConnected 0)
  let g := next devSettings f (.pingEnded 0 .pong)
  have ha : Step devSettings (start 0) (.ensureConnected 0, .attemptBegun) a :=
    reaction_afterEvent (by decide)
  have hb : Step devSettings a (.pingEnded 0 .connectionError, .attemptSettled) b :=
    reaction_afterEvent (by decide)
  have hc : Step devSettings b (.close 0, .closeReturned) c := reaction_afterEvent (by decide)
  have hd : Step devSettings c (.ensureConnected 0, .silent) d := reaction_afterEvent (by decide)
  have he : Step devSettings d (.advance 2000, .silent) e := reaction_afterEvent (by decide)
  have hf : Step devSettings e (.ensureConnected 0, .attemptBegun) f :=
    reaction_afterEvent (by decide)
  have hg : Step devSettings f (.pingEnded 0 .pong, .attemptSettled) g :=
    reaction_afterEvent (by decide)
  have hconnected : Connected g.service := ⟨by decide, by decide⟩
  have hfallback : g.service.usingFallback = true := by decide
  refine ⟨g, _, .tail (.tail (.tail (.tail (.tail (.tail (.single ha) hb) hc) hd) he) hf) hg,
    rfl, hconnected, hfallback, by decide, fun hone => ?_⟩
  have hinactive := (hone.connected hconnected).1
  rw [hfallback] at hinactive
  cases hinactive

end BackendProdReady.Cache.Backends
