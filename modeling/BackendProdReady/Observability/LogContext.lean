import BackendProdReady.Api.Middlewares
import BackendProdReady.Lib.InsertionDict
import BackendProdReady.Lib.Runs
import BackendProdReady.Lib.TaskContexts

/-!
# Request ids in the log

`RequestIdMiddleware` puts the id of a request into a context variable, from which a processor
of structlog adds it to every record.  The middleware runs in a task of its own, as each
application does that a middleware around it calls, and what it calls runs in further tasks.
-/

namespace BackendProdReady.Observability.LogContext

open BackendProdReady.Lib.HttpHeaders
open BackendProdReady.Lib.InsertionDict
open BackendProdReady.Lib.Runs
open BackendProdReady.Lib.TaskContexts
open BackendProdReady.Exceptions.Classes
open BackendProdReady.Api.Middlewares (Request Response requestIdOf requestIdMiddleware)

/-! ## Source -/

/-- The context variables `request_id` and `user_id`. -/
structure Context where
  requestId : Option String
  userId : Option String

def Context.empty : Context := ⟨none, none⟩

-- `text` makes a value of a text; `shared` are the processors of structlog that come before the
-- two of the application.
variable {V : Type}

abbrev EventDict (V : Type) := Dict String V

/-- `if value: event_dict[key] = value`. -/
def addText (text : String → V) (key : String) (value : Option String) (eventDict : EventDict V) :
    EventDict V :=
  match value with
  | none | some "" => eventDict
  | some value => eventDict.assign key (text value)

def addRequestIdProcessor (text : String → V) (context : Context) (eventDict : EventDict V) :
    EventDict V := addText text "request_id" context.requestId eventDict

def addUserIdProcessor (text : String → V) (context : Context) (eventDict : EventDict V) :
    EventDict V := addText text "user_id" context.userId eventDict

/-- The processors of `structlog.configure`. -/
def process (text : String → V) (shared : EventDict V → EventDict V) (context : Context)
    (eventDict : EventDict V) : EventDict V :=
  addUserIdProcessor text context (addRequestIdProcessor text context (shared eventDict))

structure Uuid where
  text : String
  length : text.length = 36

structure Call where
  request : Request
  uuid4 : Uuid

def Call.requestId (call : Call) : String := requestIdOf call.uuid4.text call.request

def failureDict (text : String → V) (method : String) (call : Call) : EventDict V :=
  [("request_id", text call.requestId), ("path", text call.request.path),
    ("method", text method), ("event", text "Request processing failed in middleware")]

structure State where
  world : World Context
  /-- The calls that have not ended. -/
  calls : TaskId → Option Call

def boot : State := ⟨.main .empty, fun _ => none⟩

/-- A thread of an executor counts as a task of the main program, because `run_in_executor`
copies no context. -/
inductive Event
  | spawn (parent : TaskId)
  /-- `dispatch` up to `call_next`, which is the first thing a task does. -/
  | dispatch (task : TaskId) (call : Call)
  /-- `call_next` has ended, and so does `dispatch`. -/
  | finish (task : TaskId)

def step (s : State) : Event → Option State
  | .spawn parent => (s.world.spawn parent).map fun w => { s with world := w }
  | .dispatch task call =>
      if s.world.spawned task = 0 then
        (s.world.contexts task).bind fun context =>
          (s.world.set task { context with requestId := some call.requestId }).map fun w =>
            ⟨w, Function.update s.calls task (some call)⟩
      else none
  | .finish task =>
      (s.calls task).map fun _ => { s with calls := Function.update s.calls task none }

abbrev Step : State → Event → State → Prop := StepOf step

def record (text : String → V) (shared : EventDict V → EventDict V) (s : State) (task : TaskId)
    (eventDict : EventDict V) : Option (EventDict V) :=
  (s.world.contexts task).map fun context => process text shared context eventDict

def answer (s : State) (task : TaskId) (outcome : Except Exc Response) :
    Option (Except Exc Response) :=
  (s.calls task).map fun call =>
    requestIdMiddleware call.uuid4.text (fun _ => outcome) call.request

def failureRecord (text : String → V) (shared : EventDict V → EventDict V) (s : State)
    (task : TaskId) (method : String) (outcome : Except Exc Response) : Option (EventDict V) :=
  match s.calls task, outcome with
  | some call, .error e =>
      if e.isInstance [.exception] then record text shared s task (failureDict text method call)
      else none
  | _, _ => none

/-! ## Attribution -/

/-- The ids that `dispatch` has given, by its tasks. -/
def requestIds (events : List Event) : TaskId → Option String :=
  events.foldl
    (fun ids event =>
      match event with
      | .dispatch task call => Function.update ids task (some call.requestId)
      | _ => ids)
    (fun _ => none)

theorem requestIds_concat (events : List Event) (event : Event) :
    requestIds (events ++ [event]) =
      match event with
      | .dispatch task call => Function.update (requestIds events) task (some call.requestId)
      | _ => requestIds events := by
  rw [requestIds, List.foldl_append]
  rfl

theorem Call.requestId_ne_empty (call : Call) : call.requestId ≠ "" := by
  unfold Call.requestId requestIdOf
  split
  · intro h
    have hlength := call.uuid4.length
    rw [h] at hlength
    cases hlength
  · intro h
    have hlength := call.uuid4.length
    rw [h] at hlength
    cases hlength
  · assumption

/-- The context in which an id was set. -/
def given (id : String) : Context := ⟨some id, none⟩

structure Inv (events : List Event) (s : State) : Prop where
  inherits : Inherits .empty (fun task => (requestIds events task).map given) s.world
  calls : ∀ task call, s.calls task = some call → requestIds events task = some call.requestId
  nonempty : ∀ task id, requestIds events task = some id → id ≠ ""

theorem inv_boot : Inv [] boot where
  inherits := inherits_main
  calls _ _ h := by cases h
  nonempty _ _ h := by cases h

theorem userId_of_inherits {events : List Event} {w : World Context}
    (h : Inherits .empty (fun task => (requestIds events task).map given) w) {task : TaskId}
    {context : Context} (hcontext : w.contexts task = some context) : context.userId = none := by
  rw [h.contexts task context hcontext]
  refine inherited_of_forall (P := fun c : Context => c.userId = none) rfl (fun t v hset => ?_) task
  obtain ⟨id, -, rfl⟩ := Option.map_eq_some_iff.mp hset
  rfl

theorem map_given_update (ids : TaskId → Option String) (task : TaskId) (id : String) :
    (fun t => (Function.update ids task (some id) t).map given) =
      Function.update (fun t => (ids t).map given) task (some (given id)) := by
  funext t
  by_cases ht : t = task
  · rw [ht, Function.update_self, Function.update_self, Option.map_some]
  · rw [Function.update_of_ne ht, Function.update_of_ne ht]

theorem inv_step {events : List Event} {s t : State} {event : Event} (h : Inv events s)
    (hstep : Step s event t) : Inv (events ++ [event]) t := by
  cases event with
  | spawn parent =>
      obtain ⟨w, hspawn, rfl⟩ := Option.map_eq_some_iff.mp hstep
      constructor
      · rw [requestIds_concat]
        exact h.inherits.spawn hspawn
      · rw [requestIds_concat]
        exact h.calls
      · rw [requestIds_concat]
        exact h.nonempty
  | dispatch task call =>
      simp only [StepOf, step] at hstep
      split_ifs at hstep with hleaf
      obtain ⟨context, hcontext, hrest⟩ := Option.bind_eq_some_iff.mp hstep
      obtain ⟨w, hset, rfl⟩ := Option.map_eq_some_iff.mp hrest
      have hgiven : { context with requestId := some call.requestId } = given call.requestId := by
        rw [given, ← userId_of_inherits h.inherits hcontext]
      constructor
      · rw [requestIds_concat, map_given_update]
        exact h.inherits.set hleaf (hgiven ▸ hset)
      · intro task' call' hcall
        rw [requestIds_concat]
        simp only at hcall ⊢
        by_cases htask : task' = task
        · rw [htask, Function.update_self] at hcall ⊢
          rw [Option.some.inj hcall]
        · rw [Function.update_of_ne htask] at hcall ⊢
          exact h.calls task' call' hcall
      · intro task' id hid
        rw [requestIds_concat] at hid
        simp only at hid
        by_cases htask : task' = task
        · rw [htask, Function.update_self] at hid
          exact Option.some.inj hid ▸ call.requestId_ne_empty
        · rw [Function.update_of_ne htask] at hid
          exact h.nonempty task' id hid
  | finish task =>
      obtain ⟨call, -, rfl⟩ := Option.map_eq_some_iff.mp hstep
      constructor
      · rw [requestIds_concat]
        exact h.inherits
      · intro task' call' hcall
        rw [requestIds_concat]
        simp only at hcall
        by_cases htask : task' = task
        · rw [htask, Function.update_self] at hcall
          cases hcall
        · rw [Function.update_of_ne htask] at hcall
          exact h.calls task' call' hcall
      · rw [requestIds_concat]
        exact h.nonempty

theorem inv_run {events : List Event} {s : State} (hrun : Run Step boot events s) :
    Inv events s := by
  induction hrun with
  | refl => exact inv_boot
  | tail _ hstep ih => exact inv_step ih hstep

/-! ## Records -/

section Records

variable {text : String → V} {shared : EventDict V → EventDict V}

theorem find_addText_of_ne {key key' : String} (hne : key ≠ key') (value : Option String)
    (eventDict : EventDict V) :
    (addText text key value eventDict).find key' = eventDict.find key' := by
  unfold addText
  split
  · rfl
  · rfl
  · exact Dict.find_assign_of_ne _ hne _

theorem find_process {id : String} (hid : id ≠ "") (eventDict : EventDict V) :
    (process text shared (given id) eventDict).find "request_id" = some (text id) := by
  unfold process addUserIdProcessor addRequestIdProcessor
  rw [find_addText_of_ne (by decide)]
  unfold addText given
  split
  · rename_i heq
    cases heq
  · rename_i heq
    exact absurd (Option.some.inj heq) hid
  · rename_i value _ heq
    rw [Dict.find_assign_self, Option.some.inj heq]

theorem process_empty (eventDict : EventDict V) :
    process text shared .empty eventDict = shared eventDict := rfl

end Records

/-! ## Every run -/

structure LogContract (text : String → V) (shared : EventDict V → EventDict V)
    (events : List Event) (s : State) : Prop where
  /-- A task logs under the id of the nearest call above it, also where it names another. -/
  own : ∀ r task id, requestIds events r = some id → Nearest (requestIds events) r task →
    ∀ eventDict logged, record text shared s task eventDict = some logged →
      logged.find "request_id" = some (text id)
  /-- The middlewares around `dispatch` and the threads of an executor add no id. -/
  outside : ∀ task, (∀ q, q <:+ task → requestIds events q = none) →
    ∀ eventDict logged, record text shared s task eventDict = some logged →
      logged = shared eventDict
  answered : ∀ task outcome response, answer s task outcome = some (.ok response) →
    (requestIds events task).isSome ∧
      response.headers.get "X-Request-ID" = requestIds events task
  failed : ∀ task method outcome logged,
    failureRecord text shared s task method outcome = some logged →
      (requestIds events task).isSome ∧
        logged.find "request_id" = (requestIds events task).map text

section Contract

variable {text : String → V} {shared : EventDict V → EventDict V} {events : List Event} {s : State}

theorem Inv.record_of_nearest (h : Inv events s) {r task : TaskId} {id : String}
    (hid : requestIds events r = some id) (hnearest : Nearest (requestIds events) r task)
    {eventDict logged : EventDict V}
    (hlogged : record text shared s task eventDict = some logged) :
    logged.find "request_id" = some (text id) := by
  obtain ⟨context, hcontext, rfl⟩ := Option.map_eq_some_iff.mp hlogged
  have hset : (requestIds events r).map given = some (given id) := by rw [hid, Option.map_some]
  have hgiven : context = given id := by
    rw [h.inherits.contexts task context hcontext]
    refine inherited_of_nearest hset ⟨hnearest.above, fun q hrq hqt hne => ?_⟩
    rw [hnearest.nearest q hrq hqt hne, Option.map_none]
  rw [hgiven]
  exact find_process (h.nonempty r id hid) eventDict

theorem Inv.record_outside (h : Inv events s) {task : TaskId}
    (houtside : ∀ q, q <:+ task → requestIds events q = none) {eventDict logged : EventDict V}
    (hlogged : record text shared s task eventDict = some logged) :
    logged = shared eventDict := by
  obtain ⟨context, hcontext, rfl⟩ := Option.map_eq_some_iff.mp hlogged
  have hempty : context = .empty := by
    rw [h.inherits.contexts task context hcontext]
    refine inherited_of_unset fun q hq => ?_
    rw [houtside q hq, Option.map_none]
  rw [hempty, process_empty]

theorem Inv.answered (h : Inv events s) {task : TaskId} {outcome : Except Exc Response}
    {response : Response} (hanswer : answer s task outcome = some (.ok response)) :
    (requestIds events task).isSome ∧
      response.headers.get "X-Request-ID" = requestIds events task := by
  obtain ⟨call, hcall, hresponse⟩ := Option.map_eq_some_iff.mp hanswer
  have hid := h.calls task call hcall
  rw [hid]
  refine ⟨rfl, ?_⟩
  cases outcome with
  | error e => cases hresponse
  | ok inner =>
      rw [← Except.ok.inj hresponse]
      exact Headers.get_set_self _ _ _

theorem Inv.failed (h : Inv events s) {task : TaskId} {method : String}
    {outcome : Except Exc Response} {logged : EventDict V}
    (hfailure : failureRecord text shared s task method outcome = some logged) :
    (requestIds events task).isSome ∧
      logged.find "request_id" = (requestIds events task).map text := by
  unfold failureRecord at hfailure
  split at hfailure
  · rename_i call e hcall
    have hid := h.calls task call hcall
    have hself : Nearest (requestIds events) task task :=
      ⟨List.suffix_rfl, fun q htq hqt hne => absurd (htq.eq_of_length_le hqt.length_le).symm hne⟩
    split_ifs at hfailure
    rw [hid]
    exact ⟨rfl, h.record_of_nearest hid hself hfailure⟩
  · cases hfailure

/-- Over every interleaving of requests and of the tasks that they spawn, the records of a
request and its response carry the id of that request and of no other one. -/
theorem log_context (text : String → V) (shared : EventDict V → EventDict V)
    (hrun : Run Step boot events s) : LogContract text shared events s := by
  have h := inv_run hrun
  exact {
    own := fun _ _ _ hid hnearest _ _ => h.record_of_nearest hid hnearest
    outside := fun _ houtside _ _ => h.record_outside houtside
    answered := fun _ _ _ => h.answered
    failed := fun _ _ _ _ => h.failed }

end Contract

/-- A request with an id of its own and one without, whose tasks take turns. -/
def twoCalls : List Event :=
  [.spawn [], .spawn [], .spawn [0], .dispatch [0, 0] ⟨⟨"/a", [("x-request-id", "a-1")], none⟩,
      ⟨"00000000-0000-4000-8000-000000000000", rfl⟩⟩, .spawn [1],
    .dispatch [0, 1] ⟨⟨"/b", [], none⟩, ⟨"11111111-1111-4111-8111-111111111111", rfl⟩⟩,
    .spawn [0, 0], .spawn [0, 1], .finish [0, 1], .spawn [0, 0, 0]]

/-- A task that the first request spawns after the second one has ended. -/
theorem log_context_twoCalls : ∃ s, LogContract id id twoCalls s ∧
    (record id id s [0, 0, 0, 0] [("event", "saved")]).map (Dict.find · "request_id") =
      some (some "a-1") :=
  have hrun : Run Step boot twoCalls _ := run_of_foldlM rfl
  ⟨_, log_context id id hrun, by decide +kernel⟩

end BackendProdReady.Observability.LogContext
