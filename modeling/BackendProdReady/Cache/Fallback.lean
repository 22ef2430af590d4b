import BackendProdReady.Cache.Connection

/-!
# Operations on the in-memory fallback

The operations of `CacheService` interleaved.  Each runs `_ensure_connected`
first and suspends there when that makes a connection attempt; what follows, up
to the operation's return, is one segment.  Steps of this system are runs of the
connection's.
-/

namespace BackendProdReady.Cache.Fallback

open BackendProdReady.Lib.InsertionDict
open BackendProdReady.Lib.Runs
open BackendProdReady.Cache
open BackendProdReady.Cache.InMemory
open BackendProdReady.Cache.Connection (CacheService CacheSettings CacheService.shouldUseFallback)
open BackendProdReady.Cache.Connection.CacheService (Attempt PingOutcome)

/-! ## Operations -/

/-- `get_json` and `set_json` read and write as `get` and `set` do. -/
inductive Operation
  | connect
  | get (key : String)
  | set (key value : String) (ttl : Option Int)
  | setnx (key value : String) (ttl : Option Int)
  | delete (key : String)
  | deletePattern (pattern : String)
  | executeLuaScript
  | ping
deriving DecidableEq

inductive Reply
  | none
  | value (v : Option String)
  | flag (b : Bool)
  | count (n : Nat)
deriving DecidableEq

variable (fnmatch : String → String → Bool)

def Operation.serve (now : Nat) : Operation → InMemoryCache → Reply × InMemoryCache
  | .connect, c => (.none, c)
  | .get key, c => (.value (c.get now key).1, (c.get now key).2)
  | .set key value ttl, c => (.flag (c.set now key value ttl).1, (c.set now key value ttl).2)
  | .setnx key value ttl, c =>
      (.flag (c.setnx now key value ttl).1, (c.setnx now key value ttl).2)
  | .delete key, c => (.flag (c.delete key).1, (c.delete key).2)
  | .deletePattern pattern, c =>
      (.count (c.deletePattern fnmatch pattern).1, (c.deletePattern fnmatch pattern).2)
  | .executeLuaScript, c => (.none, c)
  | .ping, c => (.flag true, c)

/-! ## Tasks -/

structure System (ω : Type) where
  now : Nat
  service : CacheService
  /-- The operation in whose `_ensure_connected` the task is suspended. -/
  operation : ω → Option Operation
  /-- Suspended in `close()`. -/
  closing : ω → Bool

inductive Event (ω : Type)
  | advance (ms : Nat)
  | invoke (task : ω) (operation : Operation)
  | pingEnded (task : ω) (outcome : PingOutcome)
  | close (task : ω)
  | clientClosed (task : ω) (completed : Bool)

inductive Observation
  | silent
  | suspended
  | raised
  | returned (operation : Operation) (reply : Reply)
deriving DecidableEq

abbrev Label (ω : Type) := Event ω × Observation

section

variable {ω : Type} [DecidableEq ω]

def start (now : Nat) : System ω where
  now := now
  service := CacheService.init
  operation := fun _ => .none
  closing := fun _ => false

/-- The operation after `_ensure_connected`.  Without an active fallback it goes on
to Redis, which this system leaves out. -/
def proceed (s : System ω) (operation : Operation) : Option (System ω × Observation) :=
  if operation = .connect then some (s, .returned .connect .none)
  else
    match s.service.usingFallback, s.service.inMemoryCache with
    | true, some cache =>
        let served := operation.serve fnmatch s.now cache
        some ({ s with service := { s.service with inMemoryCache := some served.2 } },
          .returned operation served.1)
    | _, _ => none

def react (settings : CacheSettings) (s : System ω) : Event ω → Option (System ω × Observation)
  | .advance ms => some ({ s with now := s.now + ms }, .silent)
  | .invoke task operation =>
      if (s.operation task).isSome then none
      else
        let segment := s.service.ensureConnected settings s.now
        if segment.2 = .pinging then
          some ({ s with
            service := segment.1
            operation := Function.update s.operation task (some operation) }, .suspended)
        else proceed fnmatch { s with service := segment.1 } operation
  | .pingEnded task outcome =>
      match s.operation task with
      | none => none
      | some operation =>
          let resumed := { s with
            service := s.service.pingEnded settings s.now outcome
            operation := Function.update s.operation task none }
          if outcome = .otherException then some (resumed, .raised)
          else proceed fnmatch resumed operation
  | .close task =>
      if s.closing task then none
      else
        let segment := s.service.close
        some ({ s with
          service := segment.1
          closing := Function.update s.closing task (!segment.2) }, .silent)
  | .clientClosed task completed =>
      if s.closing task then
        some ({ s with
          service := s.service.clientClosed completed
          closing := Function.update s.closing task false }, .silent)
      else none

abbrev Step (settings : CacheSettings) : System ω → Label ω → System ω → Prop :=
  Reaction (react fnmatch settings)

/-! ## What a step does to the service -/

inductive Continues (now : Nat) (service : CacheService) :
    Operation → Observation → CacheService → Prop
  | connect : Continues now service .connect (.returned .connect .none) service
  | served {operation : Operation} {cache : InMemoryCache}
      (hfallback : service.usingFallback = true) (hcache : service.inMemoryCache = some cache) :
      Continues now service operation
        (.returned operation (operation.serve fnmatch now cache).1)
        { service with inMemoryCache := some (operation.serve fnmatch now cache).2 }

inductive Transition (settings : CacheSettings) (now : Nat) (service : CacheService) :
    Event ω → Observation → Nat → CacheService → Prop
  | advance (ms : Nat) :
      Transition settings now service (.advance ms) .silent (now + ms) service
  | suspended {task : ω} {operation : Operation}
      (hattempt : (service.ensureConnected settings now).2 = .pinging) :
      Transition settings now service (.invoke task operation) .suspended now
        (service.ensureConnected settings now).1
  | invoked {task : ω} {operation : Operation} {shown : Observation} {service' : CacheService}
      (hattempt : (service.ensureConnected settings now).2 ≠ .pinging)
      (hcontinues : Continues fnmatch now (service.ensureConnected settings now).1 operation
        shown service') :
      Transition settings now service (.invoke task operation) shown now service'
  | raised {task : ω} :
      Transition settings now service (.pingEnded task .otherException) .raised now service
  | resumed {task : ω} {outcome : PingOutcome} {operation : Operation} {shown : Observation}
      {service' : CacheService} (houtcome : outcome ≠ .otherException)
      (hcontinues : Continues fnmatch now (service.pingEnded settings now outcome) operation
        shown service') :
      Transition settings now service (.pingEnded task outcome) shown now service'
  | close {task : ω} :
      Transition settings now service (.close task) .silent now service.close.1
  | clientClosed {task : ω} (completed : Bool) :
      Transition settings now service (.clientClosed task completed) .silent now
        (service.clientClosed completed)

omit [DecidableEq ω] in
theorem proceed_continues {s t : System ω} {operation : Operation} {shown : Observation}
    (h : proceed fnmatch s operation = some (t, shown)) :
    t.now = s.now ∧ Continues fnmatch s.now s.service operation shown t.service := by
  unfold proceed at h
  split_ifs at h with hconnect
  · obtain ⟨rfl, rfl⟩ := Prod.mk.inj (Option.some.inj h)
    subst hconnect
    exact ⟨rfl, .connect⟩
  · split at h
    · rename_i cache hfallback hcache
      obtain ⟨rfl, rfl⟩ := Prod.mk.inj (Option.some.inj h)
      exact ⟨rfl, .served hfallback hcache⟩
    · cases h

theorem step_cases {settings : CacheSettings} {s t : System ω} {event : Event ω}
    {shown : Observation} (h : Step fnmatch settings s (event, shown) t) :
    Transition fnmatch settings s.now s.service event shown t.now t.service := by
  unfold Step Reaction react at h
  cases event with
  | advance ms =>
      obtain ⟨rfl, rfl⟩ := Prod.mk.inj (Option.some.inj h)
      exact .advance ms
  | invoke task operation =>
      dsimp only at h
      split_ifs at h with hbusy hattempt
      · obtain ⟨rfl, rfl⟩ := Prod.mk.inj (Option.some.inj h)
        exact .suspended hattempt
      · obtain ⟨hnow, hcontinues⟩ := proceed_continues fnmatch h
        rw [hnow]
        exact .invoked hattempt hcontinues
  | pingEnded task outcome =>
      dsimp only at h
      split at h
      · cases h
      · split_ifs at h with houtcome
        · subst houtcome
          obtain ⟨rfl, rfl⟩ := Prod.mk.inj (Option.some.inj h)
          exact .raised
        · obtain ⟨hnow, hcontinues⟩ := proceed_continues fnmatch h
          rw [hnow]
          exact .resumed houtcome hcontinues
  | close task =>
      dsimp only at h
      split_ifs at h
      obtain ⟨rfl, rfl⟩ := Prod.mk.inj (Option.some.inj h)
      exact .close
  | clientClosed task completed =>
      dsimp only at h
      split_ifs at h
      obtain ⟨rfl, rfl⟩ := Prod.mk.inj (Option.some.inj h)
      exact .clientClosed completed

/-! ## The connection underneath -/

def System.connection (s : System ω) : Connection.System ω where
  now := s.now
  service := s.service
  pinging := fun task => (s.operation task).isSome
  closing := s.closing

theorem isSome_update (operation : ω → Option Operation) (task : ω) (o : Option Operation) :
    (fun task' => (Function.update operation task o task').isSome) =
      Function.update (fun task' => (operation task').isSome) task o.isSome := by
  funext task'
  by_cases htask : task' = task
  · subst htask
    simp
  · simp [htask]

theorem proceed_connection (settings : CacheSettings) {s t : System ω} {operation : Operation}
    {shown : Observation} (h : proceed fnmatch s operation = some (t, shown)) :
    ∃ labels, Run (Connection.Step settings) s.connection labels t.connection := by
  unfold proceed at h
  split_ifs at h
  · obtain ⟨rfl, rfl⟩ := Prod.mk.inj (Option.some.inj h)
    exact ⟨[], .refl _⟩
  · split at h
    · rename_i cache hfallback hcache
      obtain ⟨rfl, rfl⟩ := Prod.mk.inj (Option.some.inj h)
      refine ⟨_, .single (e := (.inMemoryOperation (operation.serve fnmatch s.now cache).2,
        .silent)) ?_⟩
      simp [Connection.Step, Connection.react, System.connection, hfallback, hcache]
    · cases h

theorem step_connection {settings : CacheSettings} {s t : System ω} {label : Label ω}
    (h : Step fnmatch settings s label t) :
    ∃ labels, Run (Connection.Step settings) s.connection labels t.connection := by
  obtain ⟨event, shown⟩ := label
  unfold Step Reaction react at h
  cases event with
  | advance ms =>
      obtain ⟨rfl, rfl⟩ := Prod.mk.inj (Option.some.inj h)
      refine ⟨_, .single (e := (.advance ms, .silent)) ?_⟩
      simp [Connection.Step, Connection.react, System.connection]
  | invoke task operation =>
      dsimp only at h
      split_ifs at h with hbusy hattempt
      · obtain ⟨rfl, rfl⟩ := Prod.mk.inj (Option.some.inj h)
        refine ⟨_, .single (e := (.ensureConnected task, .attemptBegun)) ?_⟩
        simp [Connection.Step, Connection.react, System.connection, hbusy, hattempt,
          isSome_update, Attempt.observation]
      · obtain ⟨labels, hrun⟩ := proceed_connection fnmatch settings h
        have hensure : Connection.Step settings s.connection
            (.ensureConnected task, (s.service.ensureConnected settings s.now).2.observation)
            { s with service := (s.service.ensureConnected settings s.now).1 }.connection := by
          simp [Connection.Step, Connection.react, System.connection, hbusy, hattempt]
        exact ⟨_, (Run.single hensure).trans hrun⟩
  | pingEnded task outcome =>
      dsimp only at h
      split at h
      · cases h
      · rename_i operation hoperation
        have hping : Connection.Step settings s.connection
            (.pingEnded task outcome, outcome.observation)
            { s with
              service := s.service.pingEnded settings s.now outcome
              operation := Function.update s.operation task none }.connection := by
          simp [Connection.Step, Connection.react, System.connection, hoperation, isSome_update]
        split_ifs at h
        · obtain ⟨rfl, rfl⟩ := Prod.mk.inj (Option.some.inj h)
          exact ⟨_, .single hping⟩
        · obtain ⟨labels, hrun⟩ := proceed_connection fnmatch settings h
          exact ⟨_, (Run.single hping).trans hrun⟩
  | close task =>
      dsimp only at h
      split_ifs at h with hclosing
      obtain ⟨rfl, rfl⟩ := Prod.mk.inj (Option.some.inj h)
      refine ⟨_, .single (e := (.close task, Connection.closeObservation s.service.close.2)) ?_⟩
      simp [Connection.Step, Connection.react, System.connection, hclosing]
  | clientClosed task completed =>
      dsimp only at h
      split_ifs at h with hclosing
      obtain ⟨rfl, rfl⟩ := Prod.mk.inj (Option.some.inj h)
      refine ⟨_, .single (e := (.clientClosed task completed,
        Connection.closeObservation completed)) ?_⟩
      simp [Connection.Step, Connection.react, System.connection, hclosing]

end

end BackendProdReady.Cache.Fallback
