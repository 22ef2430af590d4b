import BackendProdReady.Database.Decorators

/-!
# The unit of work

`BaseUnitOfWork` as a state, and its coroutines as functions of that state and
of how each of their awaits ends.  `aexit` runs everything `__aexit__` runs,
its function-level imports included.  The calls recorded are those awaited on
the session.
-/

namespace BackendProdReady.Database.Uow

open BackendProdReady.Lib.Calls
open BackendProdReady.Exceptions.Classes
open BackendProdReady.Database.Decorators

/-! ## State -/

abbrev SessionId := Nat

inductive SessionCall
  | commit (session : SessionId)
  | rollback (session : SessionId)
  | flush (session : SessionId)
  | close (session : SessionId)
  | syncClose (session : SessionId)
deriving DecidableEq

structure Repository where
  name : String
  session : SessionId
deriving DecidableEq

/-- `attributes` are the instance attributes that `setattr` adds. -/
structure UnitOfWork where
  session : Option SessionId
  hasSessionFactory : Bool
  repositories : List Repository
  attributes : List Repository
  autoCommit : Bool
  ownsSession : Bool
  timeoutOccurred : Bool
deriving DecidableEq

abbrev UowEffect := Effect UnitOfWork SessionCall Exc

def init (session : Option SessionId) (hasSessionFactory autoCommit : Bool) : UnitOfWork where
  session := session
  hasSessionFactory := hasSessionFactory
  repositories := []
  attributes := []
  autoCommit := autoCommit
  ownsSession := session.isNone
  timeoutOccurred := false

def configureForSharedSession (session : SessionId) (uow : UnitOfWork) : UnitOfWork :=
  { uow with session := some session, autoCommit := false, ownsSession := false }

def setTimeoutOccurred (uow : UnitOfWork) : UnitOfWork := { uow with timeoutOccurred := true }

/-- `_add_repository(name, repository)`, with a repository on the current session. -/
def addRepository (name : String) (uow : UnitOfWork) : UowEffect :=
  match uow.session with
  | none => .raise uow (.runtimeError "Session not initialized")
  | some session =>
      .done { uow with
        repositories := ⟨name, session⟩ :: uow.repositories.filter (·.name ≠ name)
        attributes := ⟨name, session⟩ :: uow.attributes.filter (·.name ≠ name) }

/-! ## Transactions -/

def rollback (awaited : AwaitOutcome) (uow : UnitOfWork) : UowEffect :=
  databaseErrorHandler <|
    match uow.session with
    | none => .raise uow (.runtimeError "Cannot rollback without active session")
    | some session =>
        (Effect.call uow (.rollback session) awaited.underWaitFor).tryExcept fun e =>
          if e.isInstance [.timeoutError] then some fun u => .done (setTimeoutOccurred u)
          else if e.isInstance [.exception] then some .done
          else none

structure CommitAwaits where
  /-- Without a session: whether the task of `timeout` is cancelled before it starts. -/
  commit : AwaitOutcome
  rollback : AwaitOutcome
  /-- `CancelledError` arrives at the `wait_for` of `timeout` when the coroutine has
  ended, and is dropped. -/
  late : Bool

/-- A rollback that has ended when the cancellation arrives does not pass it on, but
`timeout` raises it. -/
def CommitAwaits.overtaken (awaits : CommitAwaits) (uow : UnitOfWork) : Bool :=
  match uow.session, awaits.commit, awaits.rollback with
  | some _, .raised e, .cancelledLate _ => (Exc.object e).isInstance [.exception]
  | _, _, _ => false

def commit (awaits : CommitAwaits) (uow : UnitOfWork) : UowEffect :=
  timeout setTimeoutOccurred <| cancelledWhile (awaits.overtaken uow) <| databaseErrorHandler <|
    match uow.session with
    | none =>
        match awaits.commit with
        | .cancelled | .cancelledLate _ => .raise uow (.cancelledError .caller)
        | _ => .raise uow (.runtimeError "Cannot commit without active session")
    | some session =>
        (Effect.call uow (.commit session) awaits.commit.plain).tryExcept fun e =>
          if e.isInstance [.exception] then
            some fun u => (rollback awaits.rollback u).andThen fun u => .raise u e
          else none

theorem commit_of_session {session : SessionId} {uow : UnitOfWork}
    (h : uow.session = some session) (awaits : CommitAwaits) :
    commit awaits uow = timeout setTimeoutOccurred (cancelledWhile (awaits.overtaken uow)
      (databaseErrorHandler
        ((Effect.call uow (.commit session) awaits.commit.plain).tryExcept fun e =>
          if e.isInstance [.exception] then
            some fun u => (rollback awaits.rollback u).andThen fun u => .raise u e
          else none))) := by
  rw [commit, h]

def flush (awaited : AwaitOutcome) (uow : UnitOfWork) : UowEffect :=
  timeout setTimeoutOccurred <| databaseErrorHandler <|
    match uow.session with
    | none => .raise uow (.runtimeError "Cannot flush without active session")
    | some session => .call uow (.flush session) awaited.plain

/-! ## Entering -/

structure EnterAwaits where
  /-- What `create_session()` returns or raises. -/
  createSession : Except ExcObject SessionId
  /-- The names `_register_repositories` adds, and what it raises after them. -/
  registered : List String
  registration : Except ExcObject Unit
  close : AwaitOutcome

def registerRepositories (awaits : EnterAwaits) : List String → UnitOfWork → UowEffect
  | [], uow =>
      match awaits.registration with
      | .ok () => .done uow
      | .error e => .raise uow (.object e)
  | name :: names, uow =>
      (addRepository name uow).andThen fun u => registerRepositories awaits names u

def createOwnSession (awaits : EnterAwaits) (uow : UnitOfWork) : UowEffect :=
  if uow.ownsSession then
    if uow.hasSessionFactory then
      match awaits.createSession with
      | .error e => .raise uow (.object e)
      | .ok session => .done { uow with session := some session }
    else .raise uow (.runtimeError "Session factory not provided")
  else .done uow

/-- The session of a unit that could not be set up is closed, errors ignored. -/
def closeAfterFailure (awaits : EnterAwaits) (uow : UnitOfWork) : UowEffect :=
  match uow.session, uow.ownsSession with
  | some session, true =>
      (Effect.call uow (.close session) awaits.close.plain).tryExcept fun e =>
        if e.isInstance [.exception] then some .done else none
  | _, _ => .done uow

def aenter (awaits : EnterAwaits) (uow : UnitOfWork) : UowEffect :=
  timeout setTimeoutOccurred <| databaseErrorHandler <|
    ((createOwnSession awaits uow).andThen fun u =>
      registerRepositories awaits awaits.registered u).tryExcept fun e =>
        if e.isInstance [.exception] then
          some fun u => (closeAfterFailure awaits u).andThen fun u => .raise u e
        else none

/-! ## The body -/

inductive BodyAction
  | commit (awaits : CommitAwaits)
  | rollback (awaited : AwaitOutcome)
  | flush (awaited : AwaitOutcome)
  | addRepository (name : String)
  | setAutoCommit (autoCommit : Bool)
  | setSession (session : SessionId)

def BodyAction.run : BodyAction → UnitOfWork → UowEffect
  | .commit awaits, uow => Uow.commit awaits uow
  | .rollback awaited, uow => Uow.rollback awaited uow
  | .flush awaited, uow => Uow.flush awaited uow
  | .addRepository name, uow => Uow.addRepository name uow
  | .setAutoCommit autoCommit, uow => .done { uow with autoCommit := autoCommit }
  | .setSession session, uow => .done { uow with session := some session }

/-- The body may catch what an action raises, so each one starts where the last
one left the unit. -/
def runBody (actions : List BodyAction) (uow : UnitOfWork) : UnitOfWork :=
  actions.foldl (fun u action => (action.run u).state) uow

/-! ## Leaving -/

def safeRollback (awaited : AwaitOutcome) (uow : UnitOfWork) : UowEffect :=
  match uow.session with
  | none => .done uow
  | some session =>
      (Effect.call uow (.rollback session) awaited.underWaitFor).tryExcept fun e =>
        if e.isInstance [.timeoutError] then some fun u => .done (setTimeoutOccurred u)
        else if e.isInstance [.osError, .runtimeError] then some .done
        else none

inductive DelayOutcome
  | elapsed
  | raised (e : ExcObject)
  | cancelled

/-- `sync_session.close()` after a close that timed out. -/
inductive SyncSession
  | missing
  | closes
  | raises (e : ExcObject)

structure CleanupAwaits where
  delay : DelayOutcome
  close : AwaitOutcome
  syncSession : SyncSession

def cleanupDelay (awaited : DelayOutcome) (uow : UnitOfWork) : UowEffect :=
  if uow.timeoutOccurred then
    match awaited with
    | .elapsed => .done uow
    | .raised e => .raise uow (.object e)
    | .cancelled => .raise uow (.cancelledError .caller)
  else .done uow

def forceSyncClose (syncSession : SyncSession) (session : SessionId) (uow : UnitOfWork) :
    UowEffect :=
  match syncSession with
  | .missing => .done uow
  | .closes => .call uow (.syncClose session) (.ok ())
  | .raises e =>
      (Effect.call uow (.syncClose session) (.error (.object e))).tryExcept fun e =>
        if e.isInstance [.osError, .runtimeError, .attributeError] then some .done else none

/-- `wait_for(shield(self._session.close()), …)` with its `except` clauses. -/
def closeSession (awaits : CleanupAwaits) (session : SessionId) (uow : UnitOfWork) : UowEffect :=
  ((Effect.call uow (.close session) awaits.close.underWaitFor).tryExcept fun e =>
    if e.isInstance [.timeoutError] then some (forceSyncClose awaits.syncSession session)
    else if e.isInstance [.cancelledError] then some .done
    else if e.isInstance [.osError, .runtimeError] then some .done
    else none).tryFinally fun u => .done { u with session := none }

def cleanupSession (awaits : CleanupAwaits) (uow : UnitOfWork) : UowEffect :=
  match uow.session with
  | none => .done uow
  | some session =>
      (cleanupDelay awaits.delay uow).andThen fun u => closeSession awaits session u

def cleanup (awaits : CleanupAwaits) (uow : UnitOfWork) : UowEffect :=
  (cleanupSession awaits uow).andThen fun u => .done { u with repositories := [] }

structure ExitAwaits where
  commit : CommitAwaits
  safeRollback : AwaitOutcome
  cleanup : CleanupAwaits

/-- The two classes are imported when an exception arrives. -/
def detectTimeout (exc : Option ExcObject) (uow : UnitOfWork) : UowEffect :=
  match exc with
  | none => .done uow
  | some e =>
      if e.typeTruth && e.truth then
        match importFrom dbExceptions "DatabaseTimeoutError" with
        | .error importError => .raise uow importError
        | .ok dbTimeout =>
            match importFrom httpExceptions "TimeoutException" with
            | .error importError => .raise uow importError
            | .ok httpTimeout =>
                if (Exc.object e).isInstance [httpTimeout, dbTimeout, .timeoutError] then
                  .done (setTimeoutOccurred uow)
                else .done uow
      else .done uow

/-- `if exc_type: … elif self._auto_commit: …`. -/
def endTransaction (exc : Option ExcObject) (awaits : ExitAwaits) (uow : UnitOfWork) :
    UowEffect :=
  if exc.any (·.typeTruth) then
    if uow.ownsSession then safeRollback awaits.safeRollback uow else .done uow
  else if uow.autoCommit then commit awaits.commit uow
  else .done uow

def releaseSession (awaits : CleanupAwaits) (uow : UnitOfWork) : UowEffect :=
  if uow.ownsSession then cleanup awaits uow else .done { uow with repositories := [] }

def aexit (exc : Option ExcObject) (awaits : ExitAwaits) (uow : UnitOfWork) : UowEffect :=
  ((detectTimeout exc uow).andThen fun u => endTransaction exc awaits u).tryFinally fun u =>
    releaseSession awaits.cleanup u

/-- What leaving the `async with` block raises: the exception of `__aexit__`,
or else that of the body, since `__aexit__` returns `None`. -/
def leave (exc : Option ExcObject) (awaits : ExitAwaits) (uow : UnitOfWork) :
    Except Exc Unit :=
  match (aexit exc awaits uow).result, exc with
  | .error e, _ => .error e
  | .ok (), some e => .error (.object e)
  | .ok (), none => .ok ()

end BackendProdReady.Database.Uow
