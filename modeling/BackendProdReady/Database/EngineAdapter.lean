import BackendProdReady.Lib.Runs
import Mathlib.Tactic.Common

/-!
# The engines of the database adapter

`PgAsyncSQLAlchemyAdapter` makes its engines at the first access to one of its properties,
or in `initialize`, which then runs `SELECT 1`.  The flag `_initialized` says that engines
were made, by whichever of the two and before the query; `initialize` returns at once when
it is up.  Engines are numbered in the order of their creation, so that a query on an
engine is a query since the engine was created.
-/

namespace BackendProdReady.Database.EngineAdapter

open BackendProdReady.Lib.Runs

/-! ## The adapter -/

abbrev EngineId := Nat

/-- An adapter; a session factory is given by the engine it is bound to, and a synchronous
engine by the asynchronous one that was made with it. -/
structure PgAsyncSQLAlchemyAdapter where
  engine : Option EngineId
  syncEngine : Option EngineId
  syncSessionFactory : Option EngineId
  sessionFactory : Option EngineId
  asyncScopedSession : Option EngineId
  initialized : Bool
  /-- The asynchronous engines made so far. -/
  created : Nat
deriving DecidableEq

inductive Connecting
  | connected
  | createAsyncEngineRaised
  | createEngineRaised
  /-- Outside production. -/
  | setupEventListenersRaised
deriving DecidableEq

inductive Verification
  | verified
  | connectRaised
  | selectRaised
  /-- `SELECT 1` succeeds, and giving the connection back fails. -/
  | closeRaised
deriving DecidableEq

def Verification.selected : Verification → Bool
  | .verified | .closeRaised => true
  | .connectRaised | .selectRaised => false

inductive Outcome
  | returned
  | raised
deriving DecidableEq

/-- What a call shows: how it ends, and the engine on which it ran `SELECT 1` with success. -/
structure Shown where
  outcome : Outcome
  selectedOn : Option EngineId
deriving DecidableEq

inductive Property
  | asyncScopedSession
  | engine
  | sessionFactory
  | syncEngine
  | syncSessionFactory
deriving DecidableEq

namespace PgAsyncSQLAlchemyAdapter

def init : PgAsyncSQLAlchemyAdapter where
  engine := none
  syncEngine := none
  syncSessionFactory := none
  sessionFactory := none
  asyncScopedSession := none
  initialized := false
  created := 0

variable (adapter : PgAsyncSQLAlchemyAdapter)

def stored : Property → Option EngineId
  | .asyncScopedSession => adapter.asyncScopedSession
  | .engine => adapter.engine
  | .sessionFactory => adapter.sessionFactory
  | .syncEngine => adapter.syncEngine
  | .syncSessionFactory => adapter.syncSessionFactory

def connectSync (connecting : Connecting) : PgAsyncSQLAlchemyAdapter × Outcome :=
  if connecting = .createAsyncEngineRaised then (adapter, .raised)
  else
    let engine := adapter.created
    let adapter := { adapter with
      created := adapter.created + 1
      engine := some engine
      sessionFactory := some engine
      asyncScopedSession := some engine }
    if connecting = .createEngineRaised then (adapter, .raised)
    else
      let adapter := { adapter with
        syncEngine := some engine
        syncSessionFactory := some engine }
      if connecting = .setupEventListenersRaised then (adapter, .raised)
      else ({ adapter with initialized := true }, .returned)

def ensureInitialized (connecting : Connecting) : PgAsyncSQLAlchemyAdapter × Outcome :=
  if adapter.initialized then (adapter, .returned) else adapter.connectSync connecting

/-- Access to a property; `RuntimeError` where its attribute is still `None`. -/
def access (property : Property) (connecting : Connecting) :
    PgAsyncSQLAlchemyAdapter × Shown :=
  let (adapter, outcome) := adapter.ensureInitialized connecting
  match outcome with
  | .raised => (adapter, ⟨.raised, none⟩)
  | .returned =>
      if (adapter.stored property).isNone then (adapter, ⟨.raised, none⟩)
      else (adapter, ⟨.returned, none⟩)

/-- `initialize`. -/
def initializeConnections (connecting : Connecting) (verification : Verification) :
    PgAsyncSQLAlchemyAdapter × Shown :=
  if adapter.initialized then (adapter, ⟨.returned, none⟩)
  else
    let (adapter, outcome) := adapter.connectSync connecting
    match outcome with
    | .raised => (adapter, ⟨.raised, none⟩)
    | .returned =>
        match adapter.engine with
        | none => (adapter, ⟨.returned, none⟩)
        | some engine =>
            (adapter, ⟨if verification = .verified then .returned else .raised,
              if verification.selected then some engine else none⟩)

/-- `dispose`; its arguments say how disposing of each engine ends. -/
def dispose (engine syncEngine : Outcome) : PgAsyncSQLAlchemyAdapter × Shown :=
  if adapter.engine.isSome ∧ engine = .raised then (adapter, ⟨.raised, none⟩)
  else if adapter.syncEngine.isSome ∧ syncEngine = .raised then (adapter, ⟨.raised, none⟩)
  else ({ adapter with initialized := false }, ⟨.returned, none⟩)

end PgAsyncSQLAlchemyAdapter

/-! ## Histories -/

inductive Call
  | initializeConnections (connecting : Connecting) (verification : Verification)
  | dispose (engine syncEngine : Outcome)
  | access (property : Property) (connecting : Connecting)
deriving DecidableEq

def perform (adapter : PgAsyncSQLAlchemyAdapter) : Call → PgAsyncSQLAlchemyAdapter × Shown
  | .initializeConnections connecting verification =>
      adapter.initializeConnections connecting verification
  | .dispose engine syncEngine => adapter.dispose engine syncEngine
  | .access property connecting => adapter.access property connecting

abbrev Label := Call × Shown

def Step (s : PgAsyncSQLAlchemyAdapter) (label : Label) (t : PgAsyncSQLAlchemyAdapter) : Prop :=
  perform s label.1 = (t, label.2)

def Selected (labels : List Label) (engine : EngineId) : Prop :=
  ∃ label ∈ labels, label.2.selectedOn = some engine

def Verified (labels : List Label) (adapter : PgAsyncSQLAlchemyAdapter) : Prop :=
  ∃ engine, adapter.engine = some engine ∧ Selected labels engine

/-- Who made the engines that are in use. -/
inductive Maker
  /-- An `initialize` whose `SELECT 1` succeeded. -/
  | checked
  /-- An `initialize` whose `SELECT 1` failed, or an access to a property. -/
  | unchecked
deriving DecidableEq

def makerAfter (maker : Option Maker) (label : Label) : Option Maker :=
  match label.1 with
  | .dispose _ _ => if label.2.outcome = .returned then none else maker
  | .initializeConnections connecting verification =>
      match maker with
      | some maker => some maker
      | none =>
          if connecting = .connected then
            some (if verification.selected then .checked else .unchecked)
          else none
  | .access _ connecting =>
      match maker with
      | some maker => some maker
      | none => if connecting = .connected then some .unchecked else none

/-- The first call that connected since the last `dispose` that returned. -/
def maker (labels : List Label) : Option Maker := labels.foldl makerAfter none

/-! ## One call -/

section Calls

variable (adapter : PgAsyncSQLAlchemyAdapter)

def PgAsyncSQLAlchemyAdapter.connected : PgAsyncSQLAlchemyAdapter where
  engine := some adapter.created
  syncEngine := some adapter.created
  syncSessionFactory := some adapter.created
  sessionFactory := some adapter.created
  asyncScopedSession := some adapter.created
  initialized := true
  created := adapter.created + 1

/-- A failed `_connect_sync` leaves the flag as it was; it may leave a new engine. -/
theorem connectSync_failed {connecting : Connecting} (h : connecting ≠ .connected) :
    ∃ failed, adapter.connectSync connecting = (failed, .raised) ∧
      failed.initialized = adapter.initialized ∧ adapter.created ≤ failed.created ∧
      (failed.engine = adapter.engine ∨ failed.engine = some adapter.created ∧
        adapter.created < failed.created) := by
  cases connecting with
  | connected => exact absurd rfl h
  | createAsyncEngineRaised => exact ⟨_, rfl, rfl, Nat.le_refl _, .inl rfl⟩
  | createEngineRaised | setupEventListenersRaised =>
      exact ⟨_, rfl, rfl, Nat.le_succ _, .inr ⟨rfl, Nat.lt_succ_self _⟩⟩

theorem initialize_initialized (h : adapter.initialized = true) (connecting : Connecting)
    (verification : Verification) :
    adapter.initializeConnections connecting verification = (adapter, ⟨.returned, none⟩) := by
  rw [PgAsyncSQLAlchemyAdapter.initializeConnections, if_pos h]

theorem initialize_connected (h : adapter.initialized = false) (verification : Verification) :
    adapter.initializeConnections .connected verification =
      (adapter.connected, ⟨if verification = .verified then .returned else .raised,
        if verification.selected then some adapter.created else none⟩) := by
  rw [PgAsyncSQLAlchemyAdapter.initializeConnections, h]
  rfl

theorem initialize_failed (h : adapter.initialized = false) {connecting : Connecting}
    {failed : PgAsyncSQLAlchemyAdapter}
    (hconnect : adapter.connectSync connecting = (failed, .raised)) (verification : Verification) :
    adapter.initializeConnections connecting verification = (failed, ⟨.raised, none⟩) := by
  simp [PgAsyncSQLAlchemyAdapter.initializeConnections, h, hconnect]

/-- An `initialize` that finds the flag down returns only after its query. -/
theorem initialize_returned (h : adapter.initialized = false) {connecting : Connecting}
    {verification : Verification}
    (hreturned : (adapter.initializeConnections connecting verification).2.outcome = .returned) :
    connecting = .connected ∧ verification = .verified := by
  by_cases hconnecting : connecting = .connected
  · subst hconnecting
    refine ⟨rfl, ?_⟩
    by_contra hne
    rw [initialize_connected adapter h, if_neg hne] at hreturned
    cases hreturned
  · rcases connectSync_failed adapter hconnecting with ⟨failed, hconnect, -⟩
    rw [initialize_failed adapter h hconnect] at hreturned
    cases hreturned

theorem access_initialized (h : adapter.initialized = true) (property : Property)
    (connecting : Connecting) :
    ∃ outcome, adapter.access property connecting = (adapter, ⟨outcome, none⟩) := by
  have hensure : adapter.ensureInitialized connecting = (adapter, .returned) := by
    rw [PgAsyncSQLAlchemyAdapter.ensureInitialized, if_pos h]
  simp only [PgAsyncSQLAlchemyAdapter.access, hensure]
  by_cases hstored : (adapter.stored property).isNone = true
  · exact ⟨.raised, by rw [if_pos hstored]⟩
  · exact ⟨.returned, by rw [if_neg hstored]⟩

/-- The first access makes every engine, whichever property it is to. -/
theorem access_connected (h : adapter.initialized = false) (property : Property) :
    adapter.access property .connected = (adapter.connected, ⟨.returned, none⟩) := by
  simp only [PgAsyncSQLAlchemyAdapter.access, PgAsyncSQLAlchemyAdapter.ensureInitialized, h]
  cases property <;> rfl

theorem access_failed (h : adapter.initialized = false) (property : Property)
    {connecting : Connecting} {failed : PgAsyncSQLAlchemyAdapter}
    (hconnect : adapter.connectSync connecting = (failed, .raised)) :
    adapter.access property connecting = (failed, ⟨.raised, none⟩) := by
  simp [PgAsyncSQLAlchemyAdapter.access, PgAsyncSQLAlchemyAdapter.ensureInitialized, h, hconnect]

theorem dispose_cases (engine syncEngine : Outcome) :
    adapter.dispose engine syncEngine = (adapter, ⟨.raised, none⟩) ∨
      adapter.dispose engine syncEngine =
        ({ adapter with initialized := false }, ⟨.returned, none⟩) := by
  unfold PgAsyncSQLAlchemyAdapter.dispose
  split_ifs
  · exact .inl rfl
  · exact .inl rfl
  · exact .inr rfl

end Calls

/-! ## The invariant -/

/-- The flag is up while engines are in use, and `SELECT 1` succeeded on the current engine
exactly when they were made by an `initialize` that checked it. -/
structure Inv (labels : List Label) (adapter : PgAsyncSQLAlchemyAdapter) : Prop where
  selected_lt : ∀ engine, Selected labels engine → engine < adapter.created
  engine_lt : ∀ engine, adapter.engine = some engine → engine < adapter.created
  flag : adapter.initialized = (maker labels).isSome
  made : ∀ m, maker labels = some m →
    ∃ engine, adapter.engine = some engine ∧ (Selected labels engine ↔ m = .checked)

section Invariant

variable {labels : List Label} {adapter : PgAsyncSQLAlchemyAdapter}

theorem maker_append (labels : List Label) (label : Label) :
    maker (labels ++ [label]) = makerAfter (maker labels) label := by
  rw [maker, List.foldl_append]
  rfl

theorem selected_append {label : Label} {engine : EngineId} :
    Selected (labels ++ [label]) engine ↔
      Selected labels engine ∨ label.2.selectedOn = some engine := by
  constructor
  · rintro ⟨other, hother, hselected⟩
    rcases List.mem_append.mp hother with hmem | hmem
    · exact .inl ⟨other, hmem, hselected⟩
    · rw [List.mem_singleton.mp hmem] at hselected
      exact .inr hselected
  · rintro (⟨other, hother, hselected⟩ | hselected)
    · exact ⟨other, List.mem_append_left _ hother, hselected⟩
    · exact ⟨label, List.mem_append_right _ (List.mem_singleton_self _), hselected⟩

theorem selected_append_none {call : Call} {outcome : Outcome} {engine : EngineId} :
    Selected (labels ++ [(call, ⟨outcome, none⟩)]) engine ↔ Selected labels engine := by
  rw [selected_append]
  simp

/-- A call that changes neither the adapter nor its maker. -/
theorem Inv.unchanged (h : Inv labels adapter) {call : Call} {outcome : Outcome}
    (hmaker : makerAfter (maker labels) (call, ⟨outcome, none⟩) = maker labels) :
    Inv (labels ++ [(call, ⟨outcome, none⟩)]) adapter where
  selected_lt := by
    intro engine hselected
    exact h.selected_lt engine (selected_append_none.mp hselected)
  engine_lt := h.engine_lt
  flag := by rw [maker_append, hmaker, h.flag]
  made := by
    intro m hm
    rw [maker_append, hmaker] at hm
    rcases h.made m hm with ⟨engine, hengine, hselected⟩
    exact ⟨engine, hengine, selected_append_none.trans hselected⟩

/-- A call after which no engines are in use. -/
theorem Inv.unused (h : Inv labels adapter) {call : Call} {outcome : Outcome}
    {after : PgAsyncSQLAlchemyAdapter}
    (hmaker : makerAfter (maker labels) (call, ⟨outcome, none⟩) = none)
    (hflag : after.initialized = false) (hcreated : adapter.created ≤ after.created)
    (hengine : after.engine = adapter.engine ∨ after.engine = some adapter.created ∧
      adapter.created < after.created) :
    Inv (labels ++ [(call, ⟨outcome, none⟩)]) after where
  selected_lt := by
    intro engine hselected
    exact Nat.lt_of_lt_of_le (h.selected_lt engine (selected_append_none.mp hselected)) hcreated
  engine_lt := by
    intro engine heq
    rcases hengine with hsame | ⟨hnew, hlt⟩
    · exact Nat.lt_of_lt_of_le (h.engine_lt engine (hsame ▸ heq)) hcreated
    · rw [hnew] at heq
      rwa [← Option.some.inj heq]
  flag := by rw [maker_append, hmaker, hflag, Option.isSome_none]
  made := by
    intro m hm
    rw [maker_append, hmaker] at hm
    cases hm

/-- A call that makes new engines; the query, if any, is on the new one. -/
theorem Inv.connected (h : Inv labels adapter) {call : Call} {shown : Shown} {m : Maker}
    (hmaker : makerAfter (maker labels) (call, shown) = some m)
    (hselected : shown.selectedOn = if m = .checked then some adapter.created else none) :
    Inv (labels ++ [(call, shown)]) adapter.connected where
  selected_lt := by
    intro engine hengine
    rcases selected_append.mp hengine with hold | hnew
    · exact Nat.lt_succ_of_lt (h.selected_lt engine hold)
    · rw [hselected] at hnew
      split_ifs at hnew
      rw [← Option.some.inj hnew]
      exact Nat.lt_succ_self _
  engine_lt := by
    intro engine hengine
    rw [← Option.some.inj hengine]
    exact Nat.lt_succ_self _
  flag := by
    rw [maker_append, hmaker]
    rfl
  made := by
    intro m' hm'
    rw [maker_append, hmaker] at hm'
    rw [← Option.some.inj hm']
    refine ⟨adapter.created, rfl, ?_⟩
    have hfresh : ¬ Selected labels adapter.created :=
      fun hold => Nat.lt_irrefl _ (h.selected_lt _ hold)
    rw [selected_append, hselected]
    cases m <;> simp [hfresh]

theorem Inv.exists_maker (h : Inv labels adapter) (hflag : adapter.initialized = true) :
    ∃ m, maker labels = some m := by
  rw [h.flag] at hflag
  exact Option.isSome_iff_exists.mp hflag

theorem Inv.maker_none (h : Inv labels adapter) (hflag : adapter.initialized = false) :
    maker labels = none := by
  rw [h.flag] at hflag
  simpa using hflag

/-- The query succeeded on the current engine when its maker checked it. -/
theorem Inv.verified_iff (h : Inv labels adapter) {m : Maker} (hm : maker labels = some m) :
    Verified labels adapter ↔ m = .checked := by
  rcases h.made m hm with ⟨engine, hengine, hselected⟩
  rw [← hselected]
  constructor
  · rintro ⟨other, hother, hselected'⟩
    rw [hengine] at hother
    rwa [Option.some.inj hother]
  · exact fun hsel => ⟨engine, hengine, hsel⟩

theorem initialize_inv (h : Inv labels adapter) (connecting : Connecting)
    (verification : Verification) :
    Inv (labels ++ [(.initializeConnections connecting verification,
        (adapter.initializeConnections connecting verification).2)])
      (adapter.initializeConnections connecting verification).1 := by
  cases hflag : adapter.initialized with
  | true =>
      rcases h.exists_maker hflag with ⟨m, hm⟩
      rw [initialize_initialized adapter hflag]
      apply h.unchanged
      rw [hm]
      rfl
  | false =>
      by_cases hconnecting : connecting = .connected
      · subst hconnecting
        rw [initialize_connected adapter hflag]
        refine h.connected (by rw [h.maker_none hflag]; rfl) ?_
        cases verification <;> rfl
      · rcases connectSync_failed adapter hconnecting with
          ⟨failed, hconnect, hkept, hcreated, hengine⟩
        rw [initialize_failed adapter hflag hconnect]
        refine h.unused ?_ (by rw [hkept, hflag]) hcreated hengine
        rw [h.maker_none hflag]
        exact if_neg hconnecting

theorem access_inv (h : Inv labels adapter) (property : Property) (connecting : Connecting) :
    Inv (labels ++ [(.access property connecting, (adapter.access property connecting).2)])
      (adapter.access property connecting).1 := by
  cases hflag : adapter.initialized with
  | true =>
      rcases h.exists_maker hflag with ⟨m, hm⟩
      rcases access_initialized adapter hflag property connecting with ⟨outcome, haccess⟩
      rw [haccess]
      apply h.unchanged
      rw [hm]
      rfl
  | false =>
      by_cases hconnecting : connecting = .connected
      · subst hconnecting
        rw [access_connected adapter hflag]
        exact h.connected (by rw [h.maker_none hflag]; rfl) rfl
      · rcases connectSync_failed adapter hconnecting with
          ⟨failed, hconnect, hkept, hcreated, hengine⟩
        rw [access_failed adapter hflag property hconnect]
        refine h.unused ?_ (by rw [hkept, hflag]) hcreated hengine
        rw [h.maker_none hflag]
        exact if_neg hconnecting

theorem dispose_inv (h : Inv labels adapter) (engine syncEngine : Outcome) :
    Inv (labels ++ [(.dispose engine syncEngine, (adapter.dispose engine syncEngine).2)])
      (adapter.dispose engine syncEngine).1 := by
  rcases dispose_cases adapter engine syncEngine with hraised | hreturned
  · rw [hraised]
    exact h.unchanged rfl
  · rw [hreturned]
    exact h.unused rfl rfl (Nat.le_refl _) (.inl rfl)

theorem step_inv {s t : PgAsyncSQLAlchemyAdapter} {label : Label} (h : Inv labels s)
    (hstep : Step s label t) : Inv (labels ++ [label]) t := by
  rcases label with ⟨call, shown⟩
  unfold Step at hstep
  have hshown : shown = (perform s call).2 := by rw [hstep]
  have hafter : t = (perform s call).1 := by rw [hstep]
  rw [hshown, hafter]
  cases call with
  | initializeConnections connecting verification => exact initialize_inv h connecting verification
  | access property connecting => exact access_inv h property connecting
  | dispose engine syncEngine => exact dispose_inv h engine syncEngine

theorem run_inv {s : PgAsyncSQLAlchemyAdapter}
    (h : Run Step PgAsyncSQLAlchemyAdapter.init labels s) : Inv labels s := by
  induction h with
  | refl =>
      refine ⟨?_, ?_, rfl, ?_⟩
      · rintro engine ⟨label, hlabel, -⟩
        cases hlabel
      · intro engine hengine
        cases hengine
      · intro m hm
        cases hm
  | tail hpre hstep ih => exact step_inv ih hstep

end Invariant

/-! ## What `initialize` guarantees -/

/-- When `initialize` returns, `SELECT 1` has succeeded on the current engine, unless the
engines in use were made by a property or by an `initialize` whose query failed. -/
theorem initialize_verified_iff {labels : List Label} {s t : PgAsyncSQLAlchemyAdapter}
    {connecting : Connecting} {verification : Verification} {shown : Shown}
    (hrun : Run Step PgAsyncSQLAlchemyAdapter.init labels s)
    (hstep : Step s (.initializeConnections connecting verification, shown) t) :
    (shown.outcome = .returned →
        Verified (labels ++ [(.initializeConnections connecting verification, shown)]) t) ↔
      maker labels ≠ some .unchecked := by
  have hinv := run_inv hrun
  unfold Step at hstep
  rw [perform] at hstep
  cases hflag : s.initialized with
  | true =>
      rw [initialize_initialized s hflag] at hstep
      rcases Prod.mk.inj hstep with ⟨rfl, rfl⟩
      rcases hinv.exists_maker hflag with ⟨m, hm⟩
      have hkept : makerAfter (maker labels)
          (.initializeConnections connecting verification, ⟨.returned, none⟩) = maker labels := by
        rw [hm]
        rfl
      have hafter := maker_append labels
        (.initializeConnections connecting verification, ⟨.returned, none⟩)
      rw [hkept, hm] at hafter
      rw [(hinv.unchanged hkept).verified_iff hafter, hm]
      cases m <;> simp
  | false =>
      rw [hinv.maker_none hflag]
      refine ⟨fun _ => by simp, fun _ hreturned => ?_⟩
      have hshown : (s.initializeConnections connecting verification).2.outcome = .returned := by
        rw [hstep]
        exact hreturned
      rcases initialize_returned s hflag hshown with ⟨rfl, rfl⟩
      rw [initialize_connected s hflag] at hstep
      rcases Prod.mk.inj hstep with ⟨rfl, rfl⟩
      exact ⟨s.created, rfl, selected_append.mpr (.inr rfl)⟩

theorem initialize_verified_iff_first :
    ∃ t : PgAsyncSQLAlchemyAdapter, t.engine = some 0 ∧
      Verified [(.initializeConnections .connected .verified, ⟨.returned, some 0⟩)] t := by
  have hstep : Step PgAsyncSQLAlchemyAdapter.init
      (.initializeConnections .connected .verified, ⟨.returned, some 0⟩)
      PgAsyncSQLAlchemyAdapter.init.connected := rfl
  exact ⟨_, rfl, (initialize_verified_iff (.refl _) hstep).mpr (by decide) rfl⟩

theorem not_verified_of_none {labels : List Label} {adapter : PgAsyncSQLAlchemyAdapter}
    (h : ∀ label ∈ labels, label.2.selectedOn = none) : ¬ Verified labels adapter := by
  rintro ⟨engine, -, label, hlabel, hselected⟩
  rw [h label hlabel] at hselected
  cases hselected

/-- The database is down.  After an access to `engine`, or after an `initialize` that
failed, `initialize` returns, and `SELECT 1` has not succeeded. -/
theorem returns_unverified :
    (∃ s, Run Step PgAsyncSQLAlchemyAdapter.init
        [(.access .engine .connected, ⟨.returned, none⟩)] s ∧
      Step s (.initializeConnections .connected .connectRaised, ⟨.returned, none⟩) s ∧
      ¬ Verified [(.access .engine .connected, ⟨.returned, none⟩),
        (.initializeConnections .connected .connectRaised, ⟨.returned, none⟩)] s) ∧
    ∃ s, Run Step PgAsyncSQLAlchemyAdapter.init
        [(.initializeConnections .connected .connectRaised, ⟨.raised, none⟩)] s ∧
      Step s (.initializeConnections .connected .connectRaised, ⟨.returned, none⟩) s ∧
      ¬ Verified [(.initializeConnections .connected .connectRaised, ⟨.raised, none⟩),
        (.initializeConnections .connected .connectRaised, ⟨.returned, none⟩)] s := by
  refine ⟨⟨PgAsyncSQLAlchemyAdapter.init.connected, .single rfl, rfl, ?_⟩,
    ⟨PgAsyncSQLAlchemyAdapter.init.connected, .single rfl, rfl, ?_⟩⟩
  · exact not_verified_of_none (by decide)
  · exact not_verified_of_none (by decide)

end BackendProdReady.Database.EngineAdapter
