import BackendProdReady.Database.SessionRelease
import BackendProdReady.Lib.Runs

/-!
# Entering and leaving a unit of work again and again

`_add_repository` registers a repository twice, as an attribute of the instance and in
`_repositories`; the exit clears the second only.  The timeout flag is set in several
places and reset in none.  What one cycle leaves is there in the next.
-/

namespace BackendProdReady.Database.Cycles

open BackendProdReady.Lib.Calls
open BackendProdReady.Lib.Runs
open BackendProdReady.Exceptions.Classes
open BackendProdReady.Database.Decorators
open BackendProdReady.Database.Uow
open BackendProdReady.Database.ExitProtocol
open BackendProdReady.Database.SessionRelease

/-! ## Source -/

/-- `getattr(uow, name)` for the name of a repository; the error is the message of the
`AttributeError`. -/
def getattr (className : String) (uow : UnitOfWork) (name : String) :
    Except String Repository :=
  match uow.attributes.find? (·.name = name) with
  | some repository => .ok repository
  | none =>
      match uow.repositories.find? (·.name = name) with
      | some repository => .ok repository
      | none => .error ("'" ++ className ++ "' has no attribute '" ++ name ++ "'")

/-- One `async with uow`: how the awaits of the entry, the body and the exit end, and the
exception that leaves the body. -/
structure Cycle where
  enter : EnterAwaits
  body : List BodyAction
  exc : Option ExcObject
  exit : ExitAwaits

/-- The unit afterwards, and whether `__aexit__` ran: it does not where `__aenter__`
raised. -/
def Cycle.run (cycle : Cycle) (uow : UnitOfWork) : UnitOfWork × Bool :=
  let entered := aenter cycle.enter uow
  match entered.result with
  | .error _ => (entered.state, false)
  | .ok () => ((aexit cycle.exc cycle.exit (runBody cycle.body entered.state)).state, true)

/-! ## What a unit should be after an exit -/

structure Clean (uow : UnitOfWork) : Prop where
  unreachable : ∀ className name,
    getattr className uow name = .error ("'" ++ className ++ "' has no attribute '" ++ name ++ "'")
  session : uow.session = none
  timeoutOccurred : uow.timeoutOccurred = false

theorem getattr_error_iff {className : String} {uow : UnitOfWork} {name : String} :
    getattr className uow name =
        .error ("'" ++ className ++ "' has no attribute '" ++ name ++ "'") ↔
      uow.attributes.find? (·.name = name) = none ∧
        uow.repositories.find? (·.name = name) = none := by
  unfold getattr
  cases uow.attributes.find? (·.name = name) with
  | some repository => simp
  | none => cases uow.repositories.find? (·.name = name) <;> simp

theorem forall_find?_eq_none_iff {repositories : List Repository} :
    (∀ name, repositories.find? (·.name = name) = none) ↔ repositories = [] := by
  constructor
  · intro h
    cases repositories with
    | nil => rfl
    | cons repository rest => simpa using h repository.name
  · rintro rfl name
    rfl

theorem clean_iff {uow : UnitOfWork} :
    Clean uow ↔ uow.attributes = [] ∧ uow.repositories = [] ∧ uow.session = none ∧
      uow.timeoutOccurred = false := by
  constructor
  · rintro ⟨hunreachable, hsession, hflag⟩
    have hnames := fun name => getattr_error_iff.mp (hunreachable "" name)
    exact ⟨forall_find?_eq_none_iff.mp fun name => (hnames name).1,
      forall_find?_eq_none_iff.mp fun name => (hnames name).2, hsession, hflag⟩
  · rintro ⟨hattributes, hrepositories, hsession, hflag⟩
    refine ⟨fun className name => getattr_error_iff.mpr ?_, hsession, hflag⟩
    rw [hattributes, hrepositories]
    exact ⟨rfl, rfl⟩

/-! ## What a cycle registers and records -/

def reraisedTimeout (e : Exc) : Bool :=
  e.isInstance [.httpException] && e.isInstance [.timeoutError]

def actionRegisters : BodyAction → Bool
  | .addRepository _ => true
  | _ => false

def actionRecordsTimeout : BodyAction → Bool
  | .commit awaits => commitTimesOut awaits
  | .rollback awaited => timesOut awaited
  | .flush .timedOut | .flush .outerTimedOut => true
  | .flush (.raised e) => reraisedTimeout (.object e)
  | _ => false

/-- The value of `auto_commit` that a body leaves. -/
def autoCommitAfter (autoCommit : Bool) (body : List BodyAction) : Bool :=
  body.foldl (fun b action => match action with | .setAutoCommit b' => b' | _ => b) autoCommit

/-- The timeout that the exit of a unit without a recorded one records. -/
def exitRecordsTimeout (exc : Option ExcObject) (awaits : ExitAwaits) (autoCommit : Bool) :
    Bool :=
  match exc with
  | none => autoCommit && commitTimesOut awaits.commit
  | some e =>
      if e.typeTruth then !e.truth && timesOut awaits.safeRollback
      else autoCommit && commitTimesOut awaits.commit

structure SetupFailure where
  e : Exc
  /-- The repositories have been registered by then. -/
  registered : Bool
  /-- The close that follows; a unit without a session closes nothing. -/
  close : Option AwaitOutcome

def setupFailure (awaits : EnterAwaits) (uow : UnitOfWork) : Option SetupFailure :=
  let closing := uow.session.map fun _ => awaits.close
  if uow.hasSessionFactory then
    match awaits.createSession, awaits.registration with
    | .error e, _ => some ⟨.object e, false, closing⟩
    | .ok _, .error e => some ⟨.object e, true, some awaits.close⟩
    | .ok _, .ok () => none
  else some ⟨.runtimeError "Session factory not provided", false, closing⟩

def SetupFailure.recordsTimeout (failure : SetupFailure) : Bool :=
  failure.e.isInstance [.exception] &&
    match failure.close with
    | none | some .returned => reraisedTimeout failure.e
    | some (.raised e) => (Exc.object e).isInstance [.exception] && reraisedTimeout failure.e
    | some .timedOut | some .outerTimedOut => true
    | some .cancelled | some (.cancelledLate _) => false

def LeavesNothing (uow : UnitOfWork) (cycle : Cycle) : Prop :=
  match setupFailure cycle.enter uow with
  | some failure =>
      (failure.registered = true → cycle.enter.registered = []) ∧ failure.recordsTimeout = false
  | none =>
      cycle.enter.registered = [] ∧
        (∀ action ∈ cycle.body,
          actionRegisters action = false ∧ actionRecordsTimeout action = false) ∧
        exitRecordsTimeout cycle.exc cycle.exit (autoCommitAfter uow.autoCommit cycle.body) = false

/-! ## The entry -/

/-- The unit owns its session, has nothing registered and no timeout recorded. -/
structure Unused (uow : UnitOfWork) : Prop where
  ownsSession : uow.ownsSession = true
  attributes : uow.attributes = []
  repositories : uow.repositories = []
  timeoutOccurred : uow.timeoutOccurred = false

theorem Unused.withSession {uow : UnitOfWork} (h : Unused uow) (session : Option SessionId) :
    Unused { uow with session := session } :=
  ⟨h.ownsSession, h.attributes, h.repositories, h.timeoutOccurred⟩

theorem aenter_of_entered {awaits : EnterAwaits} {uow : UnitOfWork}
    (howns : uow.ownsSession = true) (hnone : setupFailure awaits uow = none)
    (hregistered : awaits.registered = []) :
    ∃ session, aenter awaits uow = .done { uow with session := some session } := by
  unfold setupFailure at hnone
  dsimp only at hnone
  split_ifs at hnone with hfactory
  cases hcreate : awaits.createSession with
  | error e => simp [hcreate] at hnone
  | ok session =>
      cases hregistration : awaits.registration with
      | error e => simp [hcreate, hregistration] at hnone
      | ok =>
          refine ⟨session, ?_⟩
          have hsetup : ((createOwnSession awaits uow).andThen fun u =>
              registerRepositories awaits awaits.registered u) =
                .done { uow with session := some session } := by
            simp [createOwnSession, howns, hfactory, hcreate, hregistered, registerRepositories,
              hregistration]
          rw [aenter, hsetup, Effect.tryExcept_of_ok rfl, databaseErrorHandler_of_ok rfl,
            timeout_of_ok rfl]

/-- What the close of a failed setup comes to. -/
theorem closeAfterFailure_eq (awaits : EnterAwaits) {uow : UnitOfWork}
    (howns : uow.ownsSession = true) :
    (closeAfterFailure awaits uow).state = uow ∧
      (closeAfterFailure awaits uow).result =
        match uow.session.map fun _ => awaits.close with
        | none | some .returned => .ok ()
        | some (.raised e) =>
            if (Exc.object e).isInstance [.exception] then .ok () else .error (.object e)
        | some .timedOut | some .outerTimedOut => .error (.cancelledError .deadline)
        | some .cancelled | some (.cancelledLate _) => .error (.cancelledError .caller) := by
  unfold closeAfterFailure
  cases hsession : uow.session with
  | none => exact ⟨rfl, rfl⟩
  | some session =>
      rw [howns]
      cases awaits.close with
      | raised e =>
          by_cases hexception : (Exc.object e).isInstance [.exception] = true
          · simp [Effect.tryExcept, Effect.call, AwaitOutcome.plain, Effect.done, Effect.after,
              hexception]
          · simp [Effect.tryExcept, Effect.call, AwaitOutcome.plain, hexception]
      | _ => exact ⟨rfl, rfl⟩

/-- What a decorated coroutine that raises leaves. -/
theorem decorated_of_error {m : UowEffect} {e : Exc} (h : m.result = .error e) :
    (∃ e', (timeout setTimeoutOccurred (databaseErrorHandler m)).result = .error e') ∧
      (timeout setTimeoutOccurred (databaseErrorHandler m)).state =
        { m.state with timeoutOccurred := m.state.timeoutOccurred || expires e } := by
  refine ⟨⟨_, (timeout_of_error (databaseErrorHandler_of_error h)).1⟩, ?_⟩
  rw [(timeout_of_error (databaseErrorHandler_of_error h)).2, expired_isInstance,
    databaseErrorHandler_state]
  cases expires e with
  | true => simp [setTimeoutOccurred]
  | false => simp

theorem expires_of_exception {e : Exc} (h : e.isInstance [.exception] = true) :
    expires e = reraisedTimeout e := by
  cases e with
  | cancelledError source => simp [cancelledError_exception] at h
  | _ => rfl

theorem expires_of_not_exception {e : ExcObject}
    (h : ¬ (Exc.object e).isInstance [.exception] = true) : expires (.object e) = false := by
  simp [expires, mt exception_of_timeoutError h]

theorem expires_raisedAfter {e : Exc} (hexception : e.isInstance [.exception] = true)
    (registered : Bool) (close : Option AwaitOutcome) :
    expires (Effect.raisedAfter
      (match close with
        | none | some .returned => .ok ()
        | some (.raised e) =>
            if (Exc.object e).isInstance [.exception] then .ok () else .error (.object e)
        | some .timedOut | some .outerTimedOut => .error (.cancelledError .deadline)
        | some .cancelled | some (.cancelledLate _) => .error (.cancelledError .caller)) e) =
      SetupFailure.recordsTimeout ⟨e, registered, close⟩ := by
  unfold SetupFailure.recordsTimeout
  rw [hexception, Bool.true_and]
  cases close with
  | none => exact expires_of_exception hexception
  | some close =>
      cases close with
      | returned => exact expires_of_exception hexception
      | raised e' =>
          by_cases hclose : (Exc.object e').isInstance [.exception] = true
          · simp [hclose, Effect.raisedAfter, expires_of_exception hexception]
          · simp [hclose, Effect.raisedAfter, expires_of_not_exception hclose]
      | timedOut => rfl
      | outerTimedOut => rfl
      | cancelled => rfl
      | cancelledLate => rfl

/-- A failed setup leaves what it has done, and the flag where it records a timeout. -/
theorem aenter_of_setup_error {awaits : EnterAwaits} {uow u : UnitOfWork} {e : Exc}
    (hsetup : ((createOwnSession awaits uow).andThen fun u =>
      registerRepositories awaits awaits.registered u) = .raise u e)
    (howns : u.ownsSession = true) (registered : Bool)
    (hexception : e.isInstance [.exception] = true ∨ ∃ object, e = .object object) :
    (∃ e', (aenter awaits uow).result = .error e') ∧
      (aenter awaits uow).state = { u with
        timeoutOccurred := u.timeoutOccurred ||
          SetupFailure.recordsTimeout ⟨e, registered, u.session.map fun _ => awaits.close⟩ } := by
  obtain ⟨hcloseState, hcloseResult⟩ := closeAfterFailure_eq awaits howns
  let inner : UowEffect := (Effect.raise u e).tryExcept fun e =>
    if e.isInstance [.exception] then
      some fun u => (closeAfterFailure awaits u).andThen fun u => .raise u e
    else none
  have henter : aenter awaits uow = timeout setTimeoutOccurred (databaseErrorHandler inner) := by
    rw [aenter, hsetup]
  rw [henter]
  by_cases hcaught : e.isInstance [.exception] = true
  · have hinner : inner = (Effect.raise u e).after fun u =>
        (closeAfterFailure awaits u).andThen fun u => .raise u e :=
      Effect.tryExcept_of_handled rfl (if_pos hcaught)
    have hresult : inner.result =
        .error (Effect.raisedAfter (closeAfterFailure awaits u).result e) := by
      rw [hinner, Effect.after_result, Effect.raise_state, Effect.andThen_raise_result]
    have hstate : inner.state = u := by
      rw [hinner, Effect.after_state, Effect.raise_state, Effect.andThen_raise_state, hcloseState]
    obtain ⟨hraises, hleft⟩ := decorated_of_error hresult
    refine ⟨hraises, ?_⟩
    rw [hleft, hcloseResult, expires_raisedAfter hcaught registered, hstate]
  · obtain ⟨object, rfl⟩ := hexception.resolve_left hcaught
    have hinner : inner = .raise u (.object object) :=
      Effect.tryExcept_of_unhandled rfl (if_neg hcaught)
    have hresult : inner.result = .error (.object object) := by rw [hinner]; rfl
    obtain ⟨hraises, hleft⟩ := decorated_of_error hresult
    have hcaught' : (Exc.object object).isInstance [.exception] = false := by simpa using hcaught
    refine ⟨hraises, ?_⟩
    rw [hleft, hinner, expires_of_not_exception hcaught, SetupFailure.recordsTimeout, hcaught']
    rfl

/-- A failed setup of an unused unit that registers nothing and records no timeout leaves
it unused. -/
theorem aenter_of_failure {awaits : EnterAwaits} {uow : UnitOfWork} (h : Unused uow)
    {failure : SetupFailure} (hfailure : setupFailure awaits uow = some failure)
    (hregistered : failure.registered = true → awaits.registered = [])
    (htimeout : failure.recordsTimeout = false) :
    (∃ e, (aenter awaits uow).result = .error e) ∧ Unused (aenter awaits uow).state := by
  have hleft : ∀ {u e registered}, Unused u →
      ((createOwnSession awaits uow).andThen fun u =>
        registerRepositories awaits awaits.registered u) = .raise u e →
      (e.isInstance [.exception] = true ∨ ∃ object, e = .object object) →
      SetupFailure.recordsTimeout ⟨e, registered, u.session.map fun _ => awaits.close⟩ = false →
      (∃ e, (aenter awaits uow).result = .error e) ∧ Unused (aenter awaits uow).state := by
    intro u e registered hu hsetup hexception hrecords
    obtain ⟨hraises, hstate⟩ := aenter_of_setup_error hsetup hu.ownsSession registered hexception
    refine ⟨hraises, ?_⟩
    rw [hstate, hrecords, Bool.or_false]
    exact hu
  unfold setupFailure at hfailure
  dsimp only at hfailure
  split_ifs at hfailure with hfactory
  · cases hcreate : awaits.createSession with
    | error e =>
        rw [hcreate] at hfailure
        obtain rfl := Option.some.inj hfailure
        refine hleft h ?_ (.inr ⟨e, rfl⟩) htimeout
        simp [createOwnSession, h.ownsSession, hfactory, hcreate]
    | ok session =>
        cases hregistration : awaits.registration with
        | ok => simp [hcreate, hregistration] at hfailure
        | error e =>
            rw [hcreate, hregistration] at hfailure
            obtain rfl := Option.some.inj hfailure
            refine hleft (h.withSession (some session)) ?_ (.inr ⟨e, rfl⟩) htimeout
            simp [createOwnSession, h.ownsSession, hfactory, hcreate, hregistered rfl,
              registerRepositories, hregistration]
  · obtain rfl := Option.some.inj hfailure
    refine hleft h ?_ (.inl rfl) htimeout
    simp [createOwnSession, h.ownsSession, hfactory]

/-! ## The body -/

theorem flush_timeoutOccurred {session : SessionId} {uow : UnitOfWork} (h : OpenOn session uow)
    (awaited : AwaitOutcome) :
    (flush awaited uow).state.timeoutOccurred =
      (uow.timeoutOccurred || actionRecordsTimeout (.flush awaited)) := by
  rw [flush, h.2]
  cases awaited with
  | returned => exact (Bool.or_false _).symm
  | raised e =>
      exact decorated_timeoutOccurred (m := .call uow (.flush session) (.error (.object e))) rfl
  | timedOut => exact (Bool.or_true _).symm
  | outerTimedOut => exact (Bool.or_true _).symm
  | cancelled => exact (Bool.or_false _).symm
  | cancelledLate => exact (Bool.or_false _).symm

/-- Nothing is registered, and `auto_commit` has this value. -/
structure Unregistered (autoCommit : Bool) (uow : UnitOfWork) : Prop where
  ownsSession : uow.ownsSession = true
  attributes : uow.attributes = []
  repositories : uow.repositories = []
  autoCommit : uow.autoCommit = autoCommit

theorem Unused.unregistered {uow : UnitOfWork} (h : Unused uow) : Unregistered uow.autoCommit uow :=
  ⟨h.ownsSession, h.attributes, h.repositories, rfl⟩

theorem unregistered_setTimeoutOccurred {b : Bool} (uow : UnitOfWork) (h : Unregistered b uow) :
    Unregistered b (setTimeoutOccurred uow) :=
  ⟨h.ownsSession, h.attributes, h.repositories, h.autoCommit⟩

theorem action_unused {session : SessionId} {uow : UnitOfWork} (hopen : OpenOn session uow)
    (h : Unused uow) {action : BodyAction} (hregisters : actionRegisters action = false)
    (htimeout : actionRecordsTimeout action = false) :
    Unused (action.run uow).state ∧
      (action.run uow).state.autoCommit = autoCommitAfter uow.autoCommit [action] := by
  have hflag : uow.timeoutOccurred = false := h.timeoutOccurred
  have hkept : ∀ {u}, Unregistered uow.autoCommit u → u.timeoutOccurred = false →
      Unused u ∧ u.autoCommit = uow.autoCommit :=
    fun hu hu' => ⟨⟨hu.ownsSession, hu.attributes, hu.repositories, hu'⟩, hu.autoCommit⟩
  cases action with
  | commit awaits =>
      refine hkept (commit_state unregistered_setTimeoutOccurred h.unregistered awaits) ?_
      have hcommit := commit_timeoutOccurred hopen awaits
      rwa [hflag, Bool.false_or, show commitTimesOut awaits = false from htimeout] at hcommit
  | rollback awaited =>
      refine hkept (rollback_state unregistered_setTimeoutOccurred h.unregistered awaited) ?_
      have hrollback := rollback_timeoutOccurred hopen awaited
      rwa [hflag, Bool.false_or, show timesOut awaited = false from htimeout] at hrollback
  | flush awaited =>
      refine hkept (flush_state unregistered_setTimeoutOccurred h.unregistered awaited) ?_
      have hflush := flush_timeoutOccurred hopen awaited
      rwa [hflag, Bool.false_or, htimeout] at hflush
  | addRepository name => cases hregisters
  | setAutoCommit b => exact ⟨⟨h.ownsSession, h.attributes, h.repositories, hflag⟩, rfl⟩
  | setSession session' => exact ⟨h.withSession _, rfl⟩

theorem runBody_unused {body : List BodyAction}
    (hbody : ∀ action ∈ body,
      actionRegisters action = false ∧ actionRecordsTimeout action = false) :
    ∀ {session uow}, OpenOn session uow → Unused uow →
      (∃ session', OpenOn session' (runBody body uow)) ∧ Unused (runBody body uow) ∧
        (runBody body uow).autoCommit = autoCommitAfter uow.autoCommit body := by
  induction body with
  | nil => exact fun hopen h => ⟨⟨_, hopen⟩, h, rfl⟩
  | cons action body ih =>
      intro session uow hopen h
      obtain ⟨⟨hregisters, htimeout⟩, hrest⟩ := List.forall_mem_cons.mp hbody
      obtain ⟨session', hopen'⟩ := action_openOn hopen action
      obtain ⟨hunused, hauto⟩ := action_unused hopen h hregisters htimeout
      obtain ⟨hopen'', hunused', hauto'⟩ := ih hrest hopen' hunused
      refine ⟨hopen'', hunused', ?_⟩
      rw [runBody, List.foldl_cons, ← runBody, hauto', hauto]
      rfl

/-! ## The exit -/

section Kept

variable {P : UnitOfWork → Prop} {uow : UnitOfWork} (h : P uow)
include h

theorem tryBlock_kept (hflag : ∀ u, P u → P (setTimeoutOccurred u)) (exc : Option ExcObject)
    (awaits : ExitAwaits) : P (tryBlock exc awaits uow).state := by
  refine Effect.andThen_state ?_ fun u hu => endTransaction_state hflag hu exc awaits
  unfold detectTimeout
  split
  · exact h
  · split_ifs
    · split
      · exact h
      · split
        · exact h
        · split_ifs
          · exact hflag uow h
          · exact h
    · exact h

theorem releaseSession_kept (hsession : ∀ u, P u → P { u with session := none })
    (hcleared : ∀ u, P u → P { u with repositories := [] }) (awaits : CleanupAwaits) :
    P (releaseSession awaits uow).state := by
  have hforce : ∀ session u, P u → P (forceSyncClose awaits.syncSession session u).state := by
    intro session u hu
    unfold forceSyncClose
    split
    · exact hu
    · exact hu
    · refine Effect.tryExcept_state hu fun e next hnext u hu => ?_
      split_ifs at hnext
      obtain rfl := Option.some.inj hnext
      exact hu
  have hclose : ∀ session u, P u → P (closeSession awaits session u).state := by
    intro session u hu
    refine hsession _ (Effect.tryExcept_state hu fun e next hnext u hu => ?_)
    split_ifs at hnext
    all_goals obtain rfl := Option.some.inj hnext
    · exact hforce session u hu
    · exact hu
    · exact hu
  unfold releaseSession
  split_ifs
  · refine Effect.andThen_state ?_ fun u hu => hcleared u hu
    unfold cleanupSession
    split
    · exact h
    · refine Effect.andThen_state ?_ fun u hu => hclose _ u hu
      rcases cleanupDelay_cases awaits.delay uow with hdelay | ⟨e, hdelay⟩
      · rwa [hdelay]
      · rwa [hdelay]
  · exact hcleared uow h

end Kept

theorem timeoutRecorded_of_unused {uow : UnitOfWork} (h : Unused uow) (exc : Option ExcObject)
    (awaits : ExitAwaits) :
    timeoutRecorded exc awaits uow = exitRecordsTimeout exc awaits uow.autoCommit := by
  unfold timeoutRecorded
  rw [h.timeoutOccurred, Bool.false_or]
  rfl

/-- An exit without a timeout leaves an unused unit without its session. -/
theorem aexit_unused {session : SessionId} {uow : UnitOfWork} (hopen : OpenOn session uow)
    (h : Unused uow) {exc : Option ExcObject} {awaits : ExitAwaits}
    (htimeout : exitRecordsTimeout exc awaits uow.autoCommit = false) :
    Unused (aexit exc awaits uow).state ∧ (aexit exc awaits uow).state.session = none := by
  obtain ⟨hopen', hflag⟩ := tryBlock_state hopen exc awaits
  rw [timeoutRecorded_of_unused h, htimeout] at hflag
  have hblock := tryBlock_kept h.unregistered unregistered_setTimeoutOccurred exc awaits
  have hunused : Unused (tryBlock exc awaits uow).state :=
    ⟨hblock.ownsSession, hblock.attributes, hblock.repositories, hflag⟩
  have hdelay : (tryBlock exc awaits uow).state.timeoutOccurred = true →
      awaits.cleanup.delay = .elapsed := by
    rw [hflag]
    exact nofun
  have hreleased := releaseSession_released hopen' hdelay
  exact ⟨releaseSession_kept hunused (fun u hu => hu.withSession none)
    (fun u hu => ⟨hu.ownsSession, hu.attributes, rfl, hu.timeoutOccurred⟩) awaits.cleanup,
    hreleased.forgotten⟩

/-! ## One cycle -/

theorem run_unused {uow : UnitOfWork} (h : Unused uow) {cycle : Cycle}
    (hleaves : LeavesNothing uow cycle) :
    Unused (cycle.run uow).1 ∧ ((cycle.run uow).2 = true → (cycle.run uow).1.session = none) := by
  unfold LeavesNothing at hleaves
  cases hfailure : setupFailure cycle.enter uow with
  | some failure =>
      rw [hfailure] at hleaves
      obtain ⟨⟨e, hraises⟩, hunused⟩ := aenter_of_failure h hfailure hleaves.1 hleaves.2
      simp only [Cycle.run, hraises]
      exact ⟨hunused, nofun⟩
  | none =>
      rw [hfailure] at hleaves
      obtain ⟨hregistered, hbody, hexit⟩ := hleaves
      obtain ⟨session, henter⟩ := aenter_of_entered h.ownsSession hfailure hregistered
      have hopen : OpenOn session { uow with session := some session } := ⟨h.ownsSession, rfl⟩
      obtain ⟨⟨session', hopen'⟩, hunused, hauto⟩ :=
        runBody_unused hbody hopen (h.withSession (some session))
      rw [← hauto] at hexit
      obtain ⟨hleft, hsession⟩ := aexit_unused hopen' hunused hexit
      simp only [Cycle.run, henter]
      exact ⟨hleft, fun _ => hsession⟩

/-! ## What never goes away -/

/-- A property that no part of a cycle ends. -/
structure Lasting (P : UnitOfWork → Prop) : Prop where
  flag : ∀ u, P u → P (setTimeoutOccurred u)
  session : ∀ u session, P u → P { u with session := session }
  autoCommit : ∀ u b, P u → P { u with autoCommit := b }
  cleared : ∀ u, P u → P { u with repositories := [] }
  added : ∀ u name, P u → P (addRepository name u).state

theorem lasting_attributes : Lasting fun u => u.attributes ≠ [] where
  flag _ h := h
  session _ _ h := h
  autoCommit _ _ h := h
  cleared _ h := h
  added u name h := by
    unfold addRepository
    split
    · exact h
    · exact List.cons_ne_nil _ _

theorem lasting_timeoutOccurred : Lasting fun u => u.timeoutOccurred = true where
  flag _ _ := rfl
  session _ _ h := h
  autoCommit _ _ h := h
  cleared _ h := h
  added u name h := by
    unfold addRepository
    split
    · exact h
    · exact h

section Lasting

variable {P : UnitOfWork → Prop} (hlasting : Lasting P) {uow : UnitOfWork} (h : P uow)
include hlasting h

theorem registerRepositories_lasting (awaits : EnterAwaits) (names : List String) :
    P (registerRepositories awaits names uow).state := by
  induction names generalizing uow with
  | nil =>
      rw [registerRepositories]
      split <;> exact h
  | cons name names ih =>
      exact Effect.andThen_state (hlasting.added uow name h) fun u hu => ih hu

theorem aenter_lasting (awaits : EnterAwaits) : P (aenter awaits uow).state := by
  refine timeout_state hlasting.flag ?_
  rw [databaseErrorHandler_state]
  refine Effect.tryExcept_state ?_ fun e next hnext u hu => ?_
  · refine Effect.andThen_state ?_ fun u hu => registerRepositories_lasting hlasting hu _ _
    unfold createOwnSession
    split_ifs
    · split
      · exact h
      · exact hlasting.session uow _ h
    · exact h
    · exact h
  · split_ifs at hnext
    obtain rfl := Option.some.inj hnext
    rw [Effect.andThen_raise_state]
    unfold closeAfterFailure
    split
    · refine Effect.tryExcept_state hu fun e next hnext u hu => ?_
      split_ifs at hnext
      obtain rfl := Option.some.inj hnext
      exact hu
    · exact hu

theorem runBody_lasting (body : List BodyAction) : P (runBody body uow) := by
  induction body generalizing uow with
  | nil => exact h
  | cons action body ih =>
      refine ih ?_
      cases action with
      | commit awaits => exact commit_state hlasting.flag h awaits
      | rollback awaited => exact rollback_state hlasting.flag h awaited
      | flush awaited => exact flush_state hlasting.flag h awaited
      | addRepository name => exact hlasting.added uow name h
      | setAutoCommit b => exact hlasting.autoCommit uow b h
      | setSession session => exact hlasting.session uow _ h

theorem run_lasting (cycle : Cycle) : P (cycle.run uow).1 := by
  have henter := aenter_lasting hlasting h cycle.enter
  unfold Cycle.run
  dsimp only
  split
  · exact henter
  · have hbody := runBody_lasting hlasting henter cycle.body
    exact releaseSession_kept (tryBlock_kept hbody hlasting.flag cycle.exc cycle.exit)
      (fun u hu => hlasting.session u none hu) hlasting.cleared cycle.exit.cleanup

end Lasting

/-! ## Any number of cycles -/

/-- A step is labelled with the cycle and with whether it came to its exit. -/
def Step (uow : UnitOfWork) (label : Cycle × Bool) (t : UnitOfWork) : Prop :=
  label.1.run uow = (t, label.2)

/-- A unit with a reachable repository or a recorded timeout is never clean again. -/
theorem not_clean_of_run {uow t : UnitOfWork} {labels : List (Cycle × Bool)}
    (hrun : Run Step uow labels t)
    (hleft : uow.attributes ≠ [] ∨ uow.timeoutOccurred = true) : ¬ Clean t := by
  have hstep : ∀ {P}, Lasting P → P uow → P t := by
    intro P hlasting hP
    refine hrun.invariant (fun u label v hu hstep => ?_) hP
    have hv := run_lasting hlasting hu label.1
    rwa [show label.1.run u = (v, label.2) from hstep] at hv
  intro hclean
  obtain ⟨hattributes, -, -, hflag⟩ := clean_iff.mp hclean
  rcases hleft with hattribute | htimeout
  · exact hstep lasting_attributes hattribute hattributes
  · rw [hstep lasting_timeoutOccurred htimeout] at hflag
    cases hflag

/-- After every exit of a run whose cycles register nothing and record no timeout, the
unit is clean; entries that fail may come between. -/
theorem clean_after_exit {hasSessionFactory autoCommit : Bool} {labels : List (Cycle × Bool)}
    {cycle : Cycle} {uow : UnitOfWork}
    (hrun : Run (Guarded (fun u label _ => LeavesNothing u label.1) Step)
      (init none hasSessionFactory autoCommit) (labels ++ [(cycle, true)]) uow) :
    Clean uow := by
  obtain ⟨before, hbefore, hstep, hleaves⟩ := hrun.inv_tail
  have hunused : Unused before := by
    refine hbefore.invariant (fun u label v hu hstep => ?_) ⟨rfl, rfl, rfl, rfl⟩
    have hv := (run_unused hu hstep.2).1
    rwa [show label.1.run u = (v, label.2) from hstep.1] at hv
  obtain ⟨hafter, hsession⟩ := run_unused hunused hleaves
  rw [show cycle.run before = (uow, true) from hstep] at hafter hsession
  exact clean_iff.mpr
    ⟨hafter.attributes, hafter.repositories, hsession rfl, hafter.timeoutOccurred⟩

/-! ## Cycles of a unit -/

def enterReturns (registered : List String) : EnterAwaits :=
  ⟨.ok 1, registered, .ok (), .returned⟩

def returningCycle (registered : List String) : Cycle :=
  ⟨enterReturns registered, [], none, allReturned⟩

theorem clean_after_two :
    Clean ((returningCycle []).run ((returningCycle []).run (init none true true)).1).1 := by
  have hfirst : Guarded (fun u label _ => LeavesNothing u label.1) Step (init none true true)
      (returningCycle [], true) ((returningCycle []).run (init none true true)).1 :=
    ⟨rfl, rfl, by simp [returningCycle], rfl⟩
  have hsecond : Guarded (fun u label _ => LeavesNothing u label.1) Step
      ((returningCycle []).run (init none true true)).1 (returningCycle [], true)
      ((returningCycle []).run ((returningCycle []).run (init none true true)).1).1 :=
    ⟨rfl, rfl, by simp [returningCycle], rfl⟩
  have hrun := (Run.single hfirst).tail hsecond
  exact clean_after_exit hrun

/-- A unit that registers a repository keeps it reachable after its exit. -/
theorem repository_left :
    ((returningCycle ["users"]).run (init none true true)).2 = true ∧
      getattr "UserUnitOfWork" ((returningCycle ["users"]).run (init none true true)).1 "users" =
        .ok ⟨"users", 1⟩ ∧
      ¬ Clean ((returningCycle ["users"]).run (init none true true)).1 := by
  refine ⟨rfl, rfl, fun hclean => ?_⟩
  have hgone := hclean.unreachable "UserUnitOfWork" "users"
  rw [show getattr "UserUnitOfWork" ((returningCycle ["users"]).run (init none true true)).1
    "users" = .ok ⟨"users", 1⟩ from rfl] at hgone
  cases hgone

end BackendProdReady.Database.Cycles
