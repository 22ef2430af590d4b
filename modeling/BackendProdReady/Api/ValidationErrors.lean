import BackendProdReady.Api.ExceptionHandlers
import BackendProdReady.Lib.Text

/-!
# Validation errors

`extract_validation_errors` turns the locations that pydantic gives its errors into field
names.  The test that drops the place of the parameter (`body`, `query` and so on) is
applied to every component of a location, so a field of such a name is dropped too.
-/

namespace BackendProdReady.Api.ValidationErrors

open BackendProdReady.Lib.Text (contains length_intercalate_lt_of_sublist)
open BackendProdReady.Api.ExceptionHandlers
open BackendProdReady.Api.Middlewares (Response)

/-! ## Locations -/

inductive LocPart
  | name (s : String)
  | position (i : Int)
deriving DecidableEq

def LocPart.name? : LocPart → Option String
  | .name s => some s
  | .position _ => none

def locationPrefixes : List String := ["body", "query", "path", "header", "cookie"]

/-- The components `_format_field_path` keeps. -/
def keptParts (loc : List LocPart) : List String :=
  loc.filterMap fun part =>
    match part with
    | .name s => if s ∈ locationPrefixes then none else some s
    | .position _ => none

def formatFieldPath (loc : List LocPart) : String :=
  if loc = [] then "request"
  else
    let parts := keptParts loc
    if parts = [] then "request body" else ".".intercalate parts

/-! ## Errors -/

structure ErrorDetails where
  type : String
  loc : List LocPart
  msg : String

structure FieldError where
  field : String
  message : String
  type : String
deriving DecidableEq

/-- `s.lower()`, as far as a test for a lower-case word of the letters n, o and e can tell. -/
def lower (s : String) : String := String.ofList (s.toList.map Char.toLower)

def translateValidationError (errorType errorMsg fieldPath : String) (loc : List LocPart) :
    String :=
  let displayField := if loc = [] then fieldPath else formatFieldPath loc
  let quoted := "'" ++ displayField ++ "'"
  if errorType = "json_invalid" then
    "The request body contains invalid JSON. Please check for syntax errors like missing " ++
      "quotes, commas, or brackets."
  else if errorType = "type_error" then
    if contains errorMsg "str" ∧ contains errorMsg "int" then
      quoted ++ " must be a number, not text."
    else if contains errorMsg "int" ∧ contains errorMsg "str" then
      quoted ++ " must be text, not a number."
    else if contains errorMsg "bool" then quoted ++ " must be true or false."
    else if contains (lower errorMsg) "none" then quoted ++ " cannot be null."
    else quoted ++ " has an invalid data type."
  else if errorType = "missing" then quoted ++ " is required."
  else if errorType ∈ ["string_too_short", "string_too_long", "value_error"] then
    if contains errorMsg "too_short" ∨ errorType = "string_too_short" then
      quoted ++ " is too short."
    else if contains errorMsg "too_long" ∨ errorType = "string_too_long" then
      quoted ++ " is too long."
    else if contains errorMsg "invalid" then quoted ++ " contains an invalid value."
    else quoted ++ " has an invalid value."
  else if errorType = "enum" then quoted ++ " must be one of the allowed values."
  else if errorType = "list_type" then quoted ++ " must be a list."
  else if errorType = "dict_type" then quoted ++ " must be an object."
  else if errorType = "string_type" then quoted ++ " must be a string."
  else if errorType = "int_type" then quoted ++ " must be an integer."
  else if errorType = "float_type" then quoted ++ " must be a number."
  else if errorType = "bool_type" then quoted ++ " must be true or false."
  else if errorType = "url_type" ∨ errorType = "url_parsing" then
    quoted ++ " must be a valid URL."
  else if errorType = "email_type" ∨ contains errorType "email" then
    quoted ++ " must be a valid email address."
  else if errorType = "uuid_type" ∨ errorType = "uuid_parsing" then
    quoted ++ " must be a valid UUID."
  else if errorType = "datetime_type" ∨ errorType = "datetime_parsing" then
    quoted ++ " must be a valid date/time."
  else if errorType = "date_type" ∨ errorType = "date_parsing" then
    quoted ++ " must be a valid date."
  else if contains errorType "greater_than" then quoted ++ " is too small."
  else if contains errorType "less_than" then quoted ++ " is too large."
  else quoted ++ " is invalid: " ++ errorMsg

/-- The body of the loop in `extract_validation_errors`. -/
def ErrorDetails.translate (error : ErrorDetails) : FieldError :=
  let displayField := formatFieldPath error.loc
  { field := displayField
    message := translateValidationError error.type error.msg displayField error.loc
    type := error.type }

def extractValidationErrors (errors : List ErrorDetails) : List FieldError :=
  errors.map ErrorDetails.translate

def missingFields (details : List FieldError) : List String :=
  (details.filter fun e => e.type = "missing").map FieldError.field

def overallMessage (errors : List ErrorDetails) : String :=
  let details := extractValidationErrors errors
  let errorTypes := errors.map ErrorDetails.type
  if "json_invalid" ∈ errorTypes then
    "Invalid JSON in request body. Please check for syntax errors."
  else if "missing" ∈ errorTypes then
    match missingFields details with
    | [field] => "Required field '" ++ field ++ "' is missing."
    | fields => "Required fields are missing: " ++ ", ".intercalate fields
  else
    match details with
    | [only] => only.message
    | details => "Validation failed for: " ++ ", ".intercalate (details.map FieldError.field)

/-- What `validation_exception` is registered for. -/
inductive ValidationFailure
  | service (exc : ServiceException (List FieldError))
  /-- `RequestValidationError` and pydantic's `ValidationError`, with their `errors()`. -/
  | errors (errors : List ErrorDetails)

def validationException (render : ErrorContent (List FieldError) → Option String) :
    ValidationFailure → Option Response
  | .service exc => exc.toResponse render
  | .errors errors =>
      let customExc := ServiceException.init (· ≠ []) (.ofClass .validationError)
        ⟨some (overallMessage errors), none, some (extractValidationErrors errors), none, none⟩
      customExc.toResponse render

/-! ## The field of an error -/

/-- Where an error was found: the place of the parameter, then the path below it. -/
structure Location where
  place : String
  path : List LocPart
  known : place ∈ locationPrefixes

namespace Location

variable (location : Location)

def loc : List LocPart := .name location.place :: location.path

def names : List String := location.path.filterMap LocPart.name?

def field : String :=
  if location.names = [] then "request body" else ".".intercalate location.names

end Location

/-- The reported entry is about the field of the location, and where the field is missing
its message says so of this field. -/
structure NamesField (location : Location) (e : FieldError) : Prop where
  field : e.field = location.field
  missing : e.type = "missing" → e.message = "'" ++ location.field ++ "' is required."

theorem keptParts_loc (location : Location) :
    keptParts location.loc = location.names.filter (· ∉ locationPrefixes) := by
  unfold keptParts Location.loc Location.names
  rw [List.filterMap_cons_none (by simp [location.known]), List.filter_filterMap]
  apply List.filterMap_congr
  intro part _
  cases part with
  | name s => by_cases hs : s ∈ locationPrefixes <;> simp [LocPart.name?, hs, Option.filter]
  | position i => rfl

theorem formatFieldPath_loc (location : Location) :
    formatFieldPath location.loc =
      if location.names.filter (· ∉ locationPrefixes) = [] then "request body"
      else ".".intercalate (location.names.filter (· ∉ locationPrefixes)) := by
  rw [formatFieldPath, if_neg (by simp [Location.loc]), keptParts_loc]

theorem intercalate_cons_eq_append (sep s : String) (texts : List String) :
    ∃ tail, sep.intercalate (s :: texts) = s ++ tail := by
  cases texts with
  | nil => exact ⟨"", by simp⟩
  | cons t texts =>
      refine ⟨sep ++ sep.intercalate (t :: texts), ?_⟩
      rw [String.intercalate_cons_cons, String.append_assoc]

/-- No place of a parameter begins like the text for a request without a field. -/
theorem intercalate_ne_request_body {names : List String} (hne : names ≠ [])
    (hall : ∀ name ∈ names, name ∈ locationPrefixes) :
    ".".intercalate names ≠ "request body" := by
  intro h
  cases names with
  | nil => exact hne rfl
  | cons name rest =>
      rcases intercalate_cons_eq_append "." name rest with ⟨tail, htail⟩
      rw [htail] at h
      have hchars := congrArg String.toList h
      rw [String.toList_append] at hchars
      have hname := hall name (by simp)
      simp only [locationPrefixes, List.mem_cons, List.not_mem_nil, or_false] at hname
      rcases hname with rfl | rfl | rfl | rfl | rfl <;> simp at hchars

/-- Dropping a component changes the text of a path. -/
theorem formatFieldPath_eq_field_iff (location : Location) :
    formatFieldPath location.loc = location.field ↔
      ∀ name ∈ location.names, name ∉ locationPrefixes := by
  rw [formatFieldPath_loc, Location.field]
  generalize location.names = names
  constructor
  · intro heq
    by_contra hdropped
    have hlen : (names.filter (· ∉ locationPrefixes)).length < names.length := by
      apply List.length_filter_lt_length_iff_exists.mpr
      simpa using hdropped
    have hne : names ≠ [] := by
      apply List.ne_nil_of_length_pos
      omega
    rw [if_neg hne] at heq
    by_cases hkept : names.filter (· ∉ locationPrefixes) = []
    · rw [if_pos hkept] at heq
      refine intercalate_ne_request_body hne (fun name hname => ?_) heq.symm
      by_contra hnot
      exact List.filter_eq_nil_iff.mp hkept name hname (by simpa using hnot)
    · rw [if_neg hkept] at heq
      have hdot : 0 < ".".length := by decide
      have hlt := length_intercalate_lt_of_sublist hdot List.filter_sublist hlen hkept
      rw [heq] at hlt
      omega
  · intro hall
    rw [List.filter_eq_self.mpr (by simpa using hall)]

/-- The message of a missing field quotes the field that is reported with it. -/
theorem translate_missing (location : Location) {error : ErrorDetails}
    (hloc : error.loc = location.loc) (hmissing : error.type = "missing") :
    error.translate.message = "'" ++ error.translate.field ++ "' is required." := by
  have hne : error.loc ≠ [] := by
    rw [hloc]
    simp [Location.loc]
  have hquote : "' is required." = "'" ++ " is required." := by decide
  rw [hquote, ← String.append_assoc]
  simp [ErrorDetails.translate, translateValidationError, hmissing, hne]

/-! ## Missing fields -/

abbrev Located := ErrorDetails × Location

def Located.Plain (e : Located) : Prop :=
  e.1.loc = e.2.loc ∧ ∀ name ∈ e.2.names, name ∉ locationPrefixes

theorem Located.Plain.field {e : Located} (h : e.Plain) : e.1.translate.field = e.2.field := by
  have hfield : e.1.translate.field = formatFieldPath e.2.loc := by
    rw [← h.1]
    rfl
  rw [hfield]
  exact (formatFieldPath_eq_field_iff e.2).mpr h.2

theorem missingFields_extract {located : List Located} (h : ∀ e ∈ located, e.Plain) :
    missingFields (extractValidationErrors (located.map Prod.fst)) =
      (located.filter fun e => e.1.type = "missing").map fun e => e.2.field := by
  rw [missingFields, extractValidationErrors, List.map_map, List.filter_map, List.map_map]
  apply List.map_congr_left
  intro e he
  exact (h e (List.mem_filter.mp he).1).field

/-- The message of the response names the one field that is missing. -/
theorem overallMessage_of_missing {located : List Located} {e : Located}
    (h : ∀ e ∈ located, e.Plain) (hjson : ∀ e ∈ located, e.1.type ≠ "json_invalid")
    (hone : (located.filter fun e => e.1.type = "missing") = [e]) :
    overallMessage (located.map Prod.fst) = "Required field '" ++ e.2.field ++ "' is missing." := by
  have he : e ∈ located ∧ e.1.type = "missing" := by
    have hmem : e ∈ located.filter fun e => e.1.type = "missing" := by rw [hone]; simp
    simpa using hmem
  have hnone : "json_invalid" ∉ (located.map Prod.fst).map ErrorDetails.type := by
    simp only [List.mem_map, not_exists, not_and]
    rintro error ⟨e', he', rfl⟩
    exact hjson e' he'
  have hmissing : "missing" ∈ (located.map Prod.fst).map ErrorDetails.type := by
    simp only [List.mem_map]
    exact ⟨e.1, ⟨e, he.1, rfl⟩, he.2⟩
  unfold overallMessage
  rw [if_neg hnone, if_pos hmissing, missingFields_extract h, hone]
  rfl

/-! ## Every error -/

/-- An error is reported under its own field exactly when no component of its path has the
name of a place. -/
theorem reports_field_iff {errors : List ErrorDetails} {n : Nat} {error : ErrorDetails}
    {location : Location} (herror : errors[n]? = some error) (hloc : error.loc = location.loc) :
    (∃ reported, (extractValidationErrors errors)[n]? = some reported ∧
        NamesField location reported) ↔
      ∀ name ∈ location.names, name ∉ locationPrefixes := by
  have hreported : (extractValidationErrors errors)[n]? = some error.translate := by
    rw [extractValidationErrors, List.getElem?_map, herror, Option.map_some]
  have hfield : error.translate.field = formatFieldPath location.loc := by
    rw [← hloc]
    rfl
  rw [hreported, ← formatFieldPath_eq_field_iff, ← hfield]
  constructor
  · rintro ⟨reported, heq, hnames⟩
    rw [Option.some.inj heq]
    exact hnames.field
  · intro heq
    refine ⟨error.translate, rfl, heq, fun hmissing => ?_⟩
    rw [translate_missing location hloc hmissing, heq]

def missingEmail : ErrorDetails where
  type := "missing"
  loc := [.name "body", .name "user", .position 3, .name "email"]
  msg := "Field required"

def emailLocation : Location where
  place := "body"
  path := [.name "user", .position 3, .name "email"]
  known := by decide

theorem reports_field_iff_user_email :
    ∃ reported, (extractValidationErrors [missingEmail])[0]? = some reported ∧
      NamesField emailLocation reported :=
  (reports_field_iff rfl rfl).mpr (by decide)

/-- A required query parameter that is called `query`. -/
def missingQuery : ErrorDetails where
  type := "missing"
  loc := [.name "query", .name "query"]
  msg := "Field required"

/-- A body without the `id` of its field `path`. -/
def missingPathId : ErrorDetails where
  type := "missing"
  loc := [.name "body", .name "path", .name "id"]
  msg := "Field required"

theorem query_reported_as_body :
    extractValidationErrors [missingQuery, missingPathId] =
        [⟨"request body", "'request body' is required.", "missing"⟩,
          ⟨"id", "'id' is required.", "missing"⟩] ∧
      Location.field ⟨"query", [.name "query"], by decide⟩ = "query" ∧
      Location.field ⟨"body", [.name "path", .name "id"], by decide⟩ = "path.id" ∧
      ¬ ∃ reported, (extractValidationErrors [missingQuery, missingPathId])[0]? = some reported ∧
        NamesField ⟨"query", [.name "query"], by decide⟩ reported := by
  have hreported : extractValidationErrors [missingQuery, missingPathId] =
      [⟨"request body", "'request body' is required.", "missing"⟩,
        ⟨"id", "'id' is required.", "missing"⟩] := by decide
  refine ⟨hreported, by decide, by decide, ?_⟩
  rintro ⟨reported, hfirst, hnames⟩
  rw [hreported] at hfirst
  obtain rfl := Option.some.inj hfirst
  exact absurd hnames.field (by decide)

end BackendProdReady.Api.ValidationErrors
