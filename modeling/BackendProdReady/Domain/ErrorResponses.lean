import BackendProdReady.Lib.InsertionDict
import BackendProdReady.Lib.JsonEncoder

/-!
# Responses to domain errors

The exception classes of the domain layer collect what their constructors are given in a
context, and `domain_exception_handler` puts that context into the JSON body as it is.  The
identifiers among the arguments go through `str`; the value of a validation error does not.
A context with entries is kept and extended, not copied, so a value that holds the dict passed
as `context` closes a circle.
-/

namespace BackendProdReady.Domain.ErrorResponses

open BackendProdReady.Lib.InsertionDict
open BackendProdReady.Lib.JsonEncoder

/-! ## Exceptions -/

inductive DomainClass
  | domainError
  | domainValidationError
  | entityNotFoundError
  | domainConflictError
  | domainStateError
  | domainAuthorizationError
  | domainInvariantError
  | aggregateRootError
deriving DecidableEq

/-- `__bases__`, down to `DomainError`. -/
def DomainClass.base : DomainClass → Option DomainClass
  | .domainError => none
  | _ => some .domainError

def DomainClass.mro (cls : DomainClass) : List DomainClass := cls :: cls.base.toList

def DomainClass.isInstance (cls target : DomainClass) : Bool := target ∈ cls.mro

def DomainClass.name : DomainClass → String
  | .domainError => "DomainError"
  | .domainValidationError => "DomainValidationError"
  | .entityNotFoundError => "EntityNotFoundError"
  | .domainConflictError => "DomainConflictError"
  | .domainStateError => "DomainStateError"
  | .domainAuthorizationError => "DomainAuthorizationError"
  | .domainInvariantError => "DomainInvariantError"
  | .aggregateRootError => "AggregateRootError"

variable {F O : Type}

/-- What an argument can hold beside JSON: an object the encoder does not know, or the
very dict that is passed as `context`. -/
inductive Reference (O : Type)
  | object (o : O)
  | context

abbrev PyValue (F O : Type) := Value F (Reference O)

abbrev Context (F O : Type) := Dict PyStr (PyValue F O)

/-- A dict, which has each key once. -/
structure ContextArgument (F O : Type) where
  items : Context F O
  nodup : (Dict.keys items).Nodup

structure DomainError (F O : Type) where
  cls : DomainClass
  message : PyStr
  code : PyStr
  context : Context F O

/-- `context or {}` -/
def orEmpty (context : Option (ContextArgument F O)) : Context F O :=
  (context.map ContextArgument.items).getD []

mutual
/-- The caller's empty dict is not kept, and reads as `{}` wherever it occurs. -/
def detach : PyValue F O → PyValue F O
  | .list items => .list (detachAll items)
  | .dict items => .dict (detachItems items)
  | .other .context => .dict []
  | value => value

def detachAll : List (PyValue F O) → List (PyValue F O)
  | [] => []
  | value :: items => detach value :: detachAll items

def detachItems : List (PyValue F O × PyValue F O) → List (PyValue F O × PyValue F O)
  | [] => []
  | (key, value) :: items => (key, detach value) :: detachItems items
end

/-- `value` inside `context or {}`.  In a context with entries a reference to it stays one,
and the encoder finds the circle. -/
def placed (context : Option (ContextArgument F O)) (value : PyValue F O) : PyValue F O :=
  if (orEmpty context).isEmpty then detach value else value

def DomainError.init (cls : DomainClass) (message : PyStr) (code : Option PyStr)
    (context : Context F O) : DomainError F O where
  cls := cls
  message := message
  code := (code.filter (· ≠ [])).getD (pyStr cls.name)
  context := context

/-- `if text: ctx[key] = text` -/
def setText (key : String) (text : Option PyStr) (ctx : Context F O) : Context F O :=
  match text.filter (· ≠ []) with
  | none => ctx
  | some text => ctx.assign (pyStr key) (.str text)

/-- `if value is not None: ctx[key] = f(value)` -/
def setValue (key : String) (f : PyValue F O → PyValue F O) (value : PyValue F O)
    (ctx : Context F O) : Context F O :=
  match value with
  | .none => ctx
  | value => ctx.assign (pyStr key) (f value)

/-- `if texts: ctx[key] = texts` -/
def setTexts (key : String) (texts : Option (List PyStr)) (ctx : Context F O) : Context F O :=
  match texts.filter (· ≠ []) with
  | none => ctx
  | some texts => ctx.assign (pyStr key) (.list (texts.map .str))

inductive Arguments (F O : Type)
  | domainError (message : PyStr) (code : Option PyStr) (context : Option (ContextArgument F O))
  | domainValidationError (message : PyStr) (field : Option PyStr) (value : PyValue F O)
      (context : Option (ContextArgument F O))
  | entityNotFoundError (entityType : PyStr) (entityId : PyValue F O)
      (context : Option (ContextArgument F O))
  | domainConflictError (message : PyStr) (entityType : Option PyStr) (entityId : PyValue F O)
      (context : Option (ContextArgument F O))
  | domainStateError (message : PyStr) (entityType currentState : Option PyStr)
      (expectedStates : Option (List PyStr)) (context : Option (ContextArgument F O))
  | domainAuthorizationError (message : PyStr) (actorId resourceType action : Option PyStr)
      (context : Option (ContextArgument F O))
  | domainInvariantError (message : PyStr) (invariant : Option PyStr)
      (context : Option (ContextArgument F O))
  | aggregateRootError (message : PyStr) (aggregateType : Option PyStr)
      (context : Option (ContextArgument F O))

section Source

-- `str(value)` and `format(value)`, for any value.
variable (str format : PyValue F O → PyStr)

/-- `f"{entity_type} with id '{entity_id}' not found"` -/
def notFoundMessage (entityType : PyStr) (entityId : PyValue F O) : PyStr :=
  entityType ++ pyStr " with id '" ++ format entityId ++ pyStr "' not found"

def construct : Arguments F O → DomainError F O
  | .domainError message code context => .init .domainError message code (orEmpty context)
  | .domainValidationError message field value context =>
      let ctx := orEmpty context
      let ctx := setText "field" field ctx
      let ctx := setValue "value" (placed context) value ctx
      .init .domainValidationError message (some (pyStr "VALIDATION_ERROR")) ctx
  | .entityNotFoundError entityType entityId context =>
      let message := notFoundMessage format entityType entityId
      let ctx := orEmpty context
      let ctx := ctx.assign (pyStr "entity_type") (.str entityType)
      let ctx := ctx.assign (pyStr "entity_id") (.str (str entityId))
      .init .entityNotFoundError message (some (pyStr "ENTITY_NOT_FOUND")) ctx
  | .domainConflictError message entityType entityId context =>
      let ctx := orEmpty context
      let ctx := setText "entity_type" entityType ctx
      let ctx := setValue "entity_id" (fun id => .str (str id)) entityId ctx
      .init .domainConflictError message (some (pyStr "CONFLICT")) ctx
  | .domainStateError message entityType currentState expectedStates context =>
      let ctx := orEmpty context
      let ctx := setText "entity_type" entityType ctx
      let ctx := setText "current_state" currentState ctx
      let ctx := setTexts "expected_states" expectedStates ctx
      .init .domainStateError message (some (pyStr "INVALID_STATE")) ctx
  | .domainAuthorizationError message actorId resourceType action context =>
      let ctx := orEmpty context
      let ctx := setText "actor_id" actorId ctx
      let ctx := setText "resource_type" resourceType ctx
      let ctx := setText "action" action ctx
      .init .domainAuthorizationError message (some (pyStr "AUTHORIZATION_FAILED")) ctx
  | .domainInvariantError message invariant context =>
      let ctx := setText "invariant" invariant (orEmpty context)
      .init .domainInvariantError message (some (pyStr "INVARIANT_VIOLATED")) ctx
  | .aggregateRootError message aggregateType context =>
      let ctx := setText "aggregate_type" aggregateType (orEmpty context)
      .init .aggregateRootError message (some (pyStr "AGGREGATE_ERROR")) ctx

end Source

/-! ## The handler -/

structure Response (F : Type) where
  statusCode : Nat
  body : Json F

section Handler

-- `nesting` levels of containers are left to the encoder inside the context.
variable (floats : Floats F) (nesting : Nat)

def jsonResponse (statusCode : Nat) (content : PyValue F O) : Option (Response F) :=
  (encode floats content (nesting + 3)).map fun body => ⟨statusCode, body⟩

def textKeys (d : List (PyStr × PyValue F O)) : List (PyValue F O × PyValue F O) :=
  d.map fun item => (.str item.1, item.2)

/-- `if context: error_content["context"] = context` -/
def contextItem (context : Option (Context F O)) : List (PyStr × PyValue F O) :=
  match context with
  | none | some [] => []
  | some (item :: d) => [(pyStr "context", .dict (textKeys (item :: d)))]

def buildErrorResponse (statusCode : Nat) (code message : PyStr)
    (context : Option (Context F O)) : Option (Response F) :=
  let errorContent : List (PyStr × PyValue F O) :=
    (pyStr "code", .str code) :: (pyStr "message", .str message) :: contextItem context
  jsonResponse floats nesting statusCode
    (.dict (textKeys [(pyStr "success", .bool false),
      (pyStr "error", .dict (textKeys errorContent))]))

def statusCode (cls : DomainClass) : Nat :=
  if cls.isInstance .entityNotFoundError then 404
  else if cls.isInstance .domainConflictError then 409
  else if cls.isInstance .domainAuthorizationError then 403
  else if cls.isInstance .domainStateError then 422
  else if cls.isInstance .domainValidationError then 400
  else 400

/-- `domain_exception_handler`; `none` where rendering the body raises. -/
def domainExceptionHandler (exc : DomainError F O) : Option (Response F) :=
  buildErrorResponse floats nesting (statusCode exc.cls) exc.code exc.message
    (if exc.context.isEmpty then none else some exc.context)

end Handler

/-! ## What the caller supplies -/

def textEntry (key : String) (text : Option PyStr) : Context F O :=
  ((text.filter (· ≠ [])).map fun text => (pyStr key, .str text)).toList

def valueEntry (key : String) (f : PyValue F O → PyValue F O) (value : PyValue F O) : Context F O :=
  match value with
  | .none => []
  | value => [(pyStr key, f value)]

def textsEntry (key : String) (texts : Option (List PyStr)) : Context F O :=
  ((texts.filter (· ≠ [])).map fun texts => (pyStr key, .list (texts.map .str))).toList

namespace Arguments

def cls : Arguments F O → DomainClass
  | domainError .. => .domainError
  | domainValidationError .. => .domainValidationError
  | entityNotFoundError .. => .entityNotFoundError
  | domainConflictError .. => .domainConflictError
  | domainStateError .. => .domainStateError
  | domainAuthorizationError .. => .domainAuthorizationError
  | domainInvariantError .. => .domainInvariantError
  | aggregateRootError .. => .aggregateRootError

def context : Arguments F O → Option (ContextArgument F O)
  | domainError _ _ context | domainValidationError _ _ _ context
  | entityNotFoundError _ _ context | domainConflictError _ _ _ context
  | domainStateError _ _ _ _ context | domainAuthorizationError _ _ _ _ context
  | domainInvariantError _ _ context | aggregateRootError _ _ context => context

/-- The entries that stand for the other arguments. -/
def entries (str : PyValue F O → PyStr) : Arguments F O → Context F O
  | domainError .. => []
  | domainValidationError _ field value context =>
      textEntry "field" field ++ valueEntry "value" (placed context) value
  | entityNotFoundError entityType entityId _ =>
      [(pyStr "entity_type", .str entityType), (pyStr "entity_id", .str (str entityId))]
  | domainConflictError _ entityType entityId _ =>
      textEntry "entity_type" entityType ++
        valueEntry "entity_id" (fun id => .str (str id)) entityId
  | domainStateError _ entityType currentState expectedStates _ =>
      textEntry "entity_type" entityType ++ textEntry "current_state" currentState ++
        textsEntry "expected_states" expectedStates
  | domainAuthorizationError _ actorId resourceType action _ =>
      textEntry "actor_id" actorId ++ textEntry "resource_type" resourceType ++
        textEntry "action" action
  | domainInvariantError _ invariant _ => textEntry "invariant" invariant
  | aggregateRootError _ aggregateType _ => textEntry "aggregate_type" aggregateType

def keys : Arguments F O → List String
  | domainError .. => []
  | domainValidationError .. => ["field", "value"]
  | entityNotFoundError .. | domainConflictError .. => ["entity_type", "entity_id"]
  | domainStateError .. => ["entity_type", "current_state", "expected_states"]
  | domainAuthorizationError .. => ["actor_id", "resource_type", "action"]
  | domainInvariantError .. => ["invariant"]
  | aggregateRootError .. => ["aggregate_type"]

def texts (format : PyValue F O → PyStr) : Arguments F O → List PyStr
  | domainError message code _ => message :: code.toList
  | entityNotFoundError entityType entityId _ => [entityType, format entityId]
  | domainValidationError message .. | domainConflictError message .. | domainStateError message ..
  | domainAuthorizationError message .. | domainInvariantError message ..
  | aggregateRootError message .. => [message]

end Arguments

section Construct

variable (str format : PyValue F O → PyStr)

theorem update_append (d : Context F O) (entries more : Context F O) :
    Dict.update d (entries ++ more) = Dict.update (Dict.update d entries) more := by
  rw [Dict.update, List.foldl_append]
  rfl

theorem setText_eq (key : String) (text : Option PyStr) (ctx : Context F O) :
    setText key text ctx = Dict.update ctx (textEntry key text) := by
  rw [setText, textEntry]
  cases text.filter (· ≠ []) with
  | none => rfl
  | some text => rfl

theorem setValue_eq (key : String) (f : PyValue F O → PyValue F O) (value : PyValue F O)
    (ctx : Context F O) : setValue key f value ctx = Dict.update ctx (valueEntry key f value) := by
  cases value <;> rfl

theorem setTexts_eq (key : String) (texts : Option (List PyStr)) (ctx : Context F O) :
    setTexts key texts ctx = Dict.update ctx (textsEntry key texts) := by
  rw [setTexts, textsEntry]
  cases texts.filter (· ≠ []) with
  | none => rfl
  | some texts => rfl

theorem construct_cls (args : Arguments F O) : (construct str format args).cls = args.cls := by
  cases args <;> rfl

/-- Every constructor updates the context with the entries of its arguments. -/
theorem construct_context (args : Arguments F O) :
    (construct str format args).context =
      Dict.update (orEmpty args.context) (args.entries str) := by
  cases args with
  | domainError message code context => rfl
  | entityNotFoundError entityType entityId context => rfl
  | _ =>
      simp only [construct, DomainError.init, Arguments.entries, Arguments.context, update_append,
        setText_eq, setValue_eq, setTexts_eq]

theorem isSome_utf8_pyStr (s : String) : (utf8 (pyStr s)).isSome = true := by
  rw [utf8_pyStr, Option.isSome_some]

theorem isSome_utf8_init (cls : DomainClass) (message : PyStr) (code : Option PyStr)
    (context : Context F O) :
    (utf8 (DomainError.init cls message code context).code).isSome = true ↔
      ∀ s ∈ code, (utf8 s).isSome = true := by
  have hname := isSome_utf8_pyStr cls.name
  cases code with
  | none => exact iff_of_true hname fun _ h => (nomatch h)
  | some code =>
      simp only [Option.mem_def, Option.some.injEq, forall_eq']
      cases code with
      | nil => exact iff_of_true hname rfl
      | cons c s => exact Iff.rfl

theorem isSome_utf8_notFoundMessage (entityType : PyStr) (entityId : PyValue F O) :
    (utf8 (notFoundMessage format entityType entityId)).isSome = true ↔
      (utf8 entityType).isSome = true ∧ (utf8 (format entityId)).isSome = true := by
  simp only [notFoundMessage, isSome_utf8_append, isSome_utf8_pyStr, Bool.and_true,
    Bool.and_eq_true]

theorem isSome_utf8_construct (args : Arguments F O) :
    ((utf8 (construct str format args).code).isSome = true ∧
      (utf8 (construct str format args).message).isSome = true) ↔
        ∀ s ∈ args.texts format, (utf8 s).isSome = true := by
  have hcode : ∀ (cls : DomainClass) (message : PyStr) (code : String) (ctx : Context F O),
      (utf8 (DomainError.init cls message (some (pyStr code)) ctx).code).isSome = true := by
    intro cls message code ctx
    rw [isSome_utf8_init]
    intro s hs
    rw [← Option.some.inj hs]
    exact isSome_utf8_pyStr code
  cases args with
  | domainError message code context =>
      rw [construct, Arguments.texts, List.forall_mem_cons, isSome_utf8_init, and_comm]
      simp [DomainError.init]
  | entityNotFoundError entityType entityId context =>
      rw [construct, Arguments.texts, and_iff_right (hcode _ _ _ _)]
      simpa [DomainError.init] using isSome_utf8_notFoundMessage format entityType entityId
  | _ =>
      rw [construct, Arguments.texts, and_iff_right (hcode _ _ _ _)]
      simp [DomainError.init]

/-! ### The keys of the entries -/

theorem entry_sublist {α : Type} (key : String) (f : α → PyValue F O) (given : Option α) :
    ((given.map fun a => (pyStr key, f a)).toList.map Prod.fst).Sublist [pyStr key] := by
  cases given with
  | none => exact List.nil_sublist _
  | some a => exact List.Sublist.refl _

theorem textEntry_sublist (key : String) (text : Option PyStr) :
    ((textEntry key text : Context F O).map Prod.fst).Sublist [pyStr key] :=
  entry_sublist key .str (text.filter (· ≠ []))

theorem valueEntry_sublist (key : String) (f : PyValue F O → PyValue F O) (value : PyValue F O) :
    ((valueEntry key f value).map Prod.fst).Sublist [pyStr key] := by
  cases value with
  | none => exact List.nil_sublist _
  | _ => exact List.Sublist.refl _

theorem textsEntry_sublist (key : String) (texts : Option (List PyStr)) :
    ((textsEntry key texts : Context F O).map Prod.fst).Sublist [pyStr key] :=
  entry_sublist key (fun texts => .list (texts.map .str)) (texts.filter (· ≠ []))

theorem entries_sublist (args : Arguments F O) :
    ((args.entries str).map Prod.fst).Sublist (args.keys.map pyStr) := by
  cases args with
  | domainError message code context => exact List.nil_sublist _
  | entityNotFoundError entityType entityId context => exact List.Sublist.refl _
  | domainValidationError message field value context =>
      rw [Arguments.entries, List.map_append]
      exact (textEntry_sublist "field" field).append (valueEntry_sublist "value" _ value)
  | domainConflictError message entityType entityId context =>
      rw [Arguments.entries, List.map_append]
      exact (textEntry_sublist "entity_type" entityType).append
        (valueEntry_sublist "entity_id" _ entityId)
  | domainStateError message entityType currentState expectedStates context =>
      rw [Arguments.entries, List.map_append, List.map_append]
      exact ((textEntry_sublist "entity_type" entityType).append
        (textEntry_sublist "current_state" currentState)).append
          (textsEntry_sublist "expected_states" expectedStates)
  | domainAuthorizationError message actorId resourceType action context =>
      rw [Arguments.entries, List.map_append, List.map_append]
      exact ((textEntry_sublist "actor_id" actorId).append
        (textEntry_sublist "resource_type" resourceType)).append (textEntry_sublist "action" action)
  | domainInvariantError message invariant context => exact textEntry_sublist "invariant" invariant
  | aggregateRootError message aggregateType context =>
      exact textEntry_sublist "aggregate_type" aggregateType

theorem nodup_entries (args : Arguments F O) : ((args.entries str).map Prod.fst).Nodup := by
  have hkeys : (args.keys.map pyStr).Nodup := by
    cases args <;> rw [Arguments.keys] <;> decide
  exact (entries_sublist str args).nodup hkeys

theorem isSome_utf8_entries (args : Arguments F O) :
    ∀ e ∈ args.entries str, (utf8 e.1).isSome = true := by
  intro e he
  have hkey := (entries_sublist str args).subset (List.mem_map_of_mem he)
  obtain ⟨key, -, hkey⟩ := List.mem_map.mp hkey
  rw [← hkey]
  exact isSome_utf8_pyStr key

theorem nodup_orEmpty (context : Option (ContextArgument F O)) :
    (Dict.keys (orEmpty context)).Nodup := by
  cases context with
  | none => exact List.nodup_nil
  | some context => exact context.nodup

end Construct

/-! ## Main result -/

section Answers

variable (floats : Floats F) (str format : PyValue F O → PyStr) (nesting : Nat)

/-- The JSON body, with this code and message. -/
def errorBody (code message : List Char) (rest : List (List Char × Json F)) : Json F :=
  .object [("success".toList, .bool false),
    ("error".toList,
      .object (("code".toList, .string code) :: ("message".toList, .string message) :: rest))]

/-- The statuses that the docstring of the handler lists. -/
def documentedStatuses : List (DomainClass × Nat) :=
  [(.domainValidationError, 400), (.entityNotFoundError, 404), (.domainConflictError, 409),
    (.domainAuthorizationError, 403), (.domainStateError, 422), (.domainError, 400)]

/-- The status of a class: that of the nearest listed one in its resolution order. -/
def statusOf (cls : DomainClass) : Option Nat :=
  cls.mro.findSome? fun c => documentedStatuses.lookup c

theorem statusOf_eq (cls : DomainClass) : statusOf cls = some (statusCode cls) := by
  cases cls <;> rfl

/-- The handler responds with the status of the class, and the body carries the code and the
message of the error. -/
def Answers (args : Arguments F O) : Prop :=
  ∃ response code message rest,
    domainExceptionHandler floats nesting (construct str format args) = some response ∧
      statusOf args.cls = some response.statusCode ∧
      utf8 (construct str format args).code = some code ∧
      utf8 (construct str format args).message = some message ∧
      response.body = errorBody code message rest

/-- The arguments can be encoded: the texts of the message and the code, the entries for the
other arguments, and what these do not replace in the context. -/
structure Encodable (args : Arguments F O) : Prop where
  texts : ∀ s ∈ args.texts format, (utf8 s).isSome = true
  entries : ∀ e ∈ args.entries str, (encode floats e.2 nesting).isSome = true
  context : ∀ e ∈ orEmpty args.context, e.1 ∉ (args.entries str).map Prod.fst →
    (utf8 e.1).isSome = true ∧ (encode floats e.2 nesting).isSome = true

theorem contextItem_eq (context : Context F O) :
    contextItem (if context.isEmpty then none else some context) = contextItem (some context) := by
  cases context with
  | nil => rfl
  | cons item context => rfl

theorem domainExceptionHandler_eq (exc : DomainError F O) :
    domainExceptionHandler floats nesting exc =
      (utf8 exc.code).bind fun code => (utf8 exc.message).bind fun message =>
        (encodeItems floats (textKeys (contextItem (some exc.context))) (nesting + 1)).map
          fun rest => ⟨statusCode exc.cls, errorBody code message rest⟩ := by
  rw [domainExceptionHandler, buildErrorResponse, contextItem_eq, jsonResponse]
  simp only [textKeys, List.map_cons, List.map_nil, encode, encodeItems_cons, encodeKey, utf8_pyStr,
    Option.bind_some, Option.map_map]
  cases utf8 exc.code with
  | none => rfl
  | some code =>
      cases utf8 exc.message with
      | none => rfl
      | some message =>
          generalize encodeItems floats _ (nesting + 1) = rest
          cases rest with
          | none => rfl
          | some rest => rfl

theorem isSome_encode_context (context : Context F O) :
    (encodeItems floats (textKeys (contextItem (some context))) (nesting + 1)).isSome = true ↔
      ∀ e ∈ context, (utf8 e.1).isSome = true ∧ (encode floats e.2 nesting).isSome = true := by
  cases context with
  | nil => simp [contextItem, textKeys, encodeItems]
  | cons item context =>
      have hkey : (encodeKey floats (.str (pyStr "context") : PyValue F O)).isSome = true :=
        isSome_utf8_pyStr "context"
      rw [encodeItems_isSome, contextItem, textKeys, List.forall_mem_map, List.forall_mem_singleton,
        and_iff_right hkey, encode, Option.isSome_map, encodeItems_isSome, textKeys,
        List.forall_mem_map]
      exact Iff.rfl

theorem isSome_encode_construct (args : Arguments F O) :
    (encodeItems floats (textKeys (contextItem (some (construct str format args).context)))
      (nesting + 1)).isSome = true ↔
        (∀ e ∈ args.entries str, (encode floats e.2 nesting).isSome = true) ∧
          ∀ e ∈ orEmpty args.context, e.1 ∉ (args.entries str).map Prod.fst →
            (utf8 e.1).isSome = true ∧ (encode floats e.2 nesting).isSome = true := by
  rw [isSome_encode_context, construct_context,
    Dict.forall_mem_update (nodup_orEmpty args.context) (nodup_entries str args)
      fun key v => (utf8 key).isSome = true ∧ (encode floats v nesting).isSome = true]
  apply and_congr_left
  intro _
  exact forall₂_congr fun e he => and_iff_right (isSome_utf8_entries str args e he)

theorem answers_iff (args : Arguments F O) :
    Answers floats str format nesting args ↔ Encodable floats str format nesting args := by
  have htexts := isSome_utf8_construct str format args
  have hcontext := isSome_encode_construct floats str format nesting args
  have hhandler := domainExceptionHandler_eq floats nesting (construct str format args)
  constructor
  · rintro ⟨response, code, message, rest, hresponse, -, hcode, hmessage, -⟩
    rw [hhandler, hcode, hmessage, Option.bind_some, Option.bind_some] at hresponse
    obtain ⟨fields, hfields, -⟩ := Option.map_eq_some_iff.mp hresponse
    obtain ⟨hentries, hkept⟩ := hcontext.mp (by rw [hfields, Option.isSome_some])
    refine ⟨htexts.mp ?_, hentries, hkept⟩
    rw [hcode, hmessage]
    exact ⟨rfl, rfl⟩
  · rintro ⟨hsupplied, hentries, hkept⟩
    obtain ⟨hcode, hmessage⟩ := htexts.mpr hsupplied
    obtain ⟨code, hcode⟩ := Option.isSome_iff_exists.mp hcode
    obtain ⟨message, hmessage⟩ := Option.isSome_iff_exists.mp hmessage
    obtain ⟨fields, hfields⟩ := Option.isSome_iff_exists.mp (hcontext.mpr ⟨hentries, hkept⟩)
    rw [hcode, hmessage, Option.bind_some, Option.bind_some, hfields, Option.map_some,
      construct_cls] at hhandler
    exact ⟨_, code, message, fields, hhandler, statusOf_eq args.cls, hcode, hmessage, rfl⟩

end Answers

def futureBirthDate : Arguments Unit Unit :=
  .domainValidationError (pyStr "in the future") (some (pyStr "birth_date"))
    (.other (.object ())) none

theorem date_not_answered :
    domainExceptionHandler ⟨fun _ => true, fun _ => "0.0"⟩ 900
      (construct (fun _ => []) (fun _ => []) futureBirthDate) = none ∧
    ¬ Answers ⟨fun _ => true, fun _ => "0.0"⟩ (fun _ => []) (fun _ => []) 900 futureBirthDate := by
  have hnone : domainExceptionHandler ⟨fun _ => true, fun _ => "0.0"⟩ 900
      (construct (fun _ => []) (fun _ => []) futureBirthDate) = none := rfl
  refine ⟨hnone, ?_⟩
  rintro ⟨response, code, message, rest, hresponse, -⟩
  rw [hnone] at hresponse
  cases hresponse

/-- A list that holds the caller's context: a circle where the context has an entry, `[{}]`
where it is empty. -/
def holdingContext (context : ContextArgument Unit Unit) : Arguments Unit Unit :=
  .domainValidationError (pyStr "invalid") none (.list [.other .context]) (some context)

example : domainExceptionHandler ⟨fun _ => true, fun _ => "0.0"⟩ 900
    (construct (fun _ => []) (fun _ => [])
      (holdingContext ⟨[(pyStr "a", .bool true)], by decide⟩)) = none := rfl

example : domainExceptionHandler ⟨fun _ => true, fun _ => "0.0"⟩ 900
    (construct (fun _ => []) (fun _ => []) (holdingContext ⟨[], by decide⟩)) =
      some ⟨400, errorBody "VALIDATION_ERROR".toList "invalid".toList
        [("context".toList,
          .object [("value".toList, .array [.object []])])]⟩ := rfl

end BackendProdReady.Domain.ErrorResponses
