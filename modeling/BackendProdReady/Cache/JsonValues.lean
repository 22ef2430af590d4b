import BackendProdReady.Cache.FailSoft
import BackendProdReady.Cache.InMemory

/-!
# JSON values in the cache

`get_json` and `set_json` on Redis and on the in-memory fallback.  The decoding
is the same on both; on Redis it runs inside `_execute_redis_operation`, which
turns most of its exceptions into the default, and on the fallback outside of
it.  Redis and its circuit breaker are healthy.  orjson and
`datetime.fromisoformat` are parameters.
-/

namespace BackendProdReady.Cache.JsonValues

open BackendProdReady.Exceptions.Classes
open BackendProdReady.Lib.InsertionDict
open BackendProdReady.Lib.ExpiringStore
open BackendProdReady.Cache.InMemory
open BackendProdReady.Cache.Operations (Keyspace getCommand setCommand validSeconds deadline)
open BackendProdReady.Cache.FailSoft (RedisException redisError typeError valueError contains
  jsonDecodeError)

/-! ## Values -/

/-- A decoded JSON value under a key; what is not a text is opaque. -/
inductive JsonField (V : Type)
  | text (s : String)
  | other (v : V)
deriving DecidableEq

/-- A value of a dict; `δ` are the datetimes. -/
inductive Field (δ V : Type)
  | text (s : String)
  | other (v : V)
  | datetime (d : δ)
deriving DecidableEq

def Field.ofJson {δ V : Type} : JsonField V → Field δ V
  | .text s => .text s
  | .other v => .other v

inductive Loaded (V : Type)
  | object (fields : Dict String (JsonField V))
  /-- A list, a text, a number, a boolean or null. -/
  | nonObject (v : JsonField V)

/-- `dumps` with `default=str`; `P` are the dicts it is called on, and `none` is an
exception. -/
structure Codec (P δ V : Type) where
  dumps : P → Option String
  loads : String → Option (Loaded V)
  fromisoformat : String → Option δ

/-! ## Exceptions -/

inductive JsonError
  | jsonDecodeError
  /-- `.get` of a value that is not a dict. -/
  | attributeError
  /-- The `ValueError` of `fromisoformat`. -/
  | invalidDate
  | jsonEncodeError
  /-- The error reply of Redis, a `RedisError`. -/
  | responseError
deriving DecidableEq

theorem closed_append_others (names : List String) :
    ∀ d ∈ names.map ExcClass.other ++ [.exception, .baseException], ∀ b, base d = some b →
      b ∈ names.map ExcClass.other ++ [.exception, .baseException] := by
  induction names with
  | nil => exact closed_exception
  | cons name names ih => exact closed_cons_other name ih

/-- An exception with these classes from outside above `Exception`. -/
def outsideException (typeName : String) (superclasses : List String) : RedisException where
  object :=
    { ident := 0
      classes := (typeName :: superclasses).map .other ++ [.exception, .baseException]
      typeTruth := true
      truth := true
      closed := closed_append_others _ }
  typeName := typeName

def JsonError.exception : JsonError → RedisException
  | .jsonDecodeError => outsideException "orjson.JSONDecodeError" ["ValueError"]
  | .attributeError => ⟨.ofClass 0 .attributeError, "AttributeError"⟩
  | .invalidDate => outsideException "ValueError" []
  | .jsonEncodeError => outsideException "orjson.JSONEncodeError" ["TypeError"]
  | .responseError => outsideException "redis.ResponseError" ["redis.RedisError"]

/-- Only the `AttributeError` is raised again. -/
theorem contains_exception (e : JsonError) :
    contains e.exception = true ↔ e ≠ .attributeError := by
  cases e <;> decide

/-! ## Source -/

section Source

variable {P δ V : Type} (codec : Codec P δ V)

def parseField (name : String) (fields : Dict String (Field δ V)) :
    Except JsonError (Dict String (Field δ V)) :=
  match fields.find name with
  | some (.text s) =>
      match codec.fromisoformat s with
      | none => .error .invalidDate
      | some d => .ok (fields.assign name (.datetime d))
  | _ => .ok fields

/-- What both copies of the decoding do. -/
def decode (value : String) : Except JsonError (Dict String (Field δ V)) :=
  match codec.loads value with
  | none => .error .jsonDecodeError
  | some (.nonObject _) => .error .attributeError
  | some (.object fields) =>
      (parseField codec "created_at" (fields.mapValues Field.ofJson)).bind
        (parseField codec "updated_at")

def getJsonInMemory (now : Nat) (key : String) (c : InMemoryCache) :
    Except JsonError (Option (Dict String (Field δ V))) × InMemoryCache :=
  match c.get now key with
  | (none, c) => (.ok none, c)
  | (some value, c) => ((decode codec value).map some, c)

def setJsonInMemory (now : Nat) (key : String) (value : P) (ttl : Option Int)
    (c : InMemoryCache) : Except JsonError Bool × InMemoryCache :=
  match codec.dumps value with
  | none => (.error .jsonEncodeError, c)
  | some text => (.ok (c.set now key text ttl).1, (c.set now key text ttl).2)

/-- `_execute_redis_operation` around a call that the breaker lets through. -/
def executeRedisOperation {α : Type} (operation : Except JsonError α) (defaultReturn : α) :
    Except JsonError α :=
  match operation with
  | .ok value => .ok value
  | .error e => if contains e.exception then .ok defaultReturn else .error e

def getJsonOperation (now : Nat) (key : String) (keys : Keyspace) :
    Except JsonError (Option (Dict String (Field δ V))) :=
  match getCommand now key keys with
  | none => .error .responseError
  | some (none, _) => .ok none
  | some (some value, _) => (decode codec value).map some

def getJsonOnRedis (now : Nat) (key : String) (keys : Keyspace) :
    Except JsonError (Option (Dict String (Field δ V))) :=
  executeRedisOperation (getJsonOperation codec now key keys) none

/-- `_set_json_operation`, and the keys it leaves. -/
def setJsonOperation (now : Nat) (key : String) (value : P) (ttl : Option Int)
    (keys : Keyspace) : Except JsonError Bool × Keyspace :=
  match codec.dumps value with
  | none => (.error .jsonEncodeError, keys)
  | some text =>
      match setCommand now key text (ttl.filter (· ≠ 0)) keys with
      | none => (.error .responseError, keys)
      | some (_, keys') => (.ok true, keys')

def setJsonOnRedis (now : Nat) (key : String) (value : P) (ttl : Option Int)
    (keys : Keyspace) : Except JsonError Bool × Keyspace :=
  let operation := setJsonOperation codec now key value ttl keys
  (executeRedisOperation operation.1 false, operation.2)

end Source

/-- The operations here are those of the wrapper on the exceptions they stand for. -/
theorem executeRedisOperation_exception {α : Type} (operation : Except JsonError α)
    (defaultReturn : α) :
    FailSoft.executeRedisOperation (operation.mapError JsonError.exception) defaultReturn =
      (executeRedisOperation operation defaultReturn).mapError JsonError.exception := by
  cases operation with
  | ok value => rfl
  | error e =>
      simp only [executeRedisOperation, FailSoft.executeRedisOperation, Except.mapError]
      split_ifs <;> rfl

theorem executeRedisOperation_error {α : Type} {e : JsonError} (h : e ≠ .attributeError)
    (defaultReturn : α) :
    executeRedisOperation (.error e) defaultReturn = .ok defaultReturn := by
  rw [executeRedisOperation, if_pos ((contains_exception e).mpr h)]

theorem executeRedisOperation_attributeError {α : Type} (defaultReturn : α) :
    executeRedisOperation (.error .attributeError) defaultReturn = .error .attributeError := by
  rw [executeRedisOperation, if_neg]
  rw [contains_exception]
  exact not_not.mpr rfl

/-! ## Decoding -/

section Decoding

variable {P δ V : Type} {codec : Codec P δ V}

def dateFields : List String := ["created_at", "updated_at"]

variable (codec) in
def DatesParse (fields : Dict String (Field δ V)) : Prop :=
  ∀ name ∈ dateFields, ∀ s, fields.find name = some (.text s) →
    (codec.fromisoformat s).isSome = true

variable (codec) in
/-- A text that is an ISO date becomes its datetime. -/
def readField : Field δ V → Field δ V
  | .text s => (codec.fromisoformat s).elim (.text s) .datetime
  | field => field

theorem parseField_ok {name : String} {fields : Dict String (Field δ V)}
    (h : ∀ s, fields.find name = some (.text s) → (codec.fromisoformat s).isSome = true) :
    ∃ result, parseField codec name fields = .ok result ∧
      Dict.keys result = Dict.keys fields ∧
      ∀ key, result.find key =
        if key = name then (fields.find key).map (readField codec) else fields.find key := by
  have hkept : (∀ s, fields.find name ≠ some (.text s)) → ∀ key, fields.find key =
      if key = name then (fields.find key).map (readField codec) else fields.find key := by
    intro hnot key
    split_ifs with hname
    · subst hname
      cases hfind : fields.find key with
      | none => rfl
      | some field =>
          cases field with
          | text s => exact absurd hfind (hnot s)
          | other v => rfl
          | datetime d => rfl
    · rfl
  unfold parseField
  split
  · rename_i s hfind
    obtain ⟨d, hd⟩ := Option.isSome_iff_exists.mp (h s hfind)
    refine ⟨fields.assign name (.datetime d), by rw [hd], ?_, fun key => ?_⟩
    · rw [Dict.keys_assign, if_pos]
      rw [Dict.mem_keys_iff, hfind, Option.isSome_some]
    · split_ifs with hname
      · rw [hname, Dict.find_assign_self, hfind, Option.map_some, readField, hd, Option.elim_some]
      · exact Dict.find_assign_of_ne _ (Ne.symm hname) _
  · rename_i hnot
    exact ⟨fields, rfl, rfl, hkept fun s hfind => hnot s hfind⟩

theorem parseField_error {name s : String} {fields : Dict String (Field δ V)}
    (hfind : fields.find name = some (.text s)) (hs : codec.fromisoformat s = none) :
    parseField codec name fields = .error .invalidDate := by
  simp only [parseField, hfind, hs]

/-- The two datetime fields, of which neither is the other. -/
theorem parseFields_ok {fields : Dict String (Field δ V)} (h : DatesParse codec fields) :
    ∃ result, (parseField codec "created_at" fields).bind (parseField codec "updated_at") =
        .ok result ∧
      Dict.keys result = Dict.keys fields ∧
      ∀ key, result.find key =
        if key ∈ dateFields then (fields.find key).map (readField codec) else fields.find key := by
  obtain ⟨first, hfirst, hkeys, hfind⟩ := parseField_ok (h "created_at" (by decide))
  have hupdated : first.find "updated_at" = fields.find "updated_at" := by
    rw [hfind, if_neg (by decide)]
  have hparses : ∀ s, first.find "updated_at" = some (.text s) →
      (codec.fromisoformat s).isSome = true := by
    rw [hupdated]
    exact h "updated_at" (by decide)
  obtain ⟨result, hresult, hkeys', hfind'⟩ := parseField_ok hparses
  refine ⟨result, by rw [hfirst]; exact hresult, hkeys'.trans hkeys, fun key => ?_⟩
  rw [hfind', hfind]
  by_cases hcreated : key = "created_at"
  · subst hcreated
    rw [if_neg (by decide), if_pos rfl, if_pos (by decide)]
  · by_cases hupdated : key = "updated_at"
    · subst hupdated
      rw [if_pos rfl, if_neg (by decide), if_pos (by decide)]
    · rw [if_neg hupdated, if_neg hcreated, if_neg (by simp [dateFields, hcreated, hupdated])]

theorem parseFields_error {fields : Dict String (Field δ V)} (h : ¬ DatesParse codec fields) :
    (parseField codec "created_at" fields).bind (parseField codec "updated_at") =
      .error .invalidDate := by
  simp only [DatesParse, not_forall, Bool.not_eq_true, Option.isSome_eq_false_iff,
    Option.isNone_iff_eq_none] at h
  obtain ⟨name, hname, s, hs, hinvalid⟩ := h
  by_cases hcreated : ∀ s, fields.find "created_at" = some (.text s) →
      (codec.fromisoformat s).isSome = true
  · -- the first field parses, so the second is the one that does not
    obtain ⟨first, hfirst, -, hfind⟩ := parseField_ok hcreated
    have hupdated : name = "updated_at" := by
      rcases List.mem_cons.mp hname with rfl | hname
      · have hsome := hcreated s hs
        rw [hinvalid] at hsome
        cases hsome
      · exact List.mem_singleton.mp hname
    subst hupdated
    have hkept : first.find "updated_at" = some (.text s) := by
      rw [hfind, if_neg (by decide), hs]
    rw [hfirst]
    exact parseField_error hkept hinvalid
  · simp only [not_forall, Bool.not_eq_true, Option.isSome_eq_false_iff,
      Option.isNone_iff_eq_none] at hcreated
    obtain ⟨s', hs', hinvalid'⟩ := hcreated
    rw [parseField_error hs' hinvalid']
    rfl

variable (codec) in
def Readable (value : String) : Prop :=
  ∃ loaded, codec.loads value = some loaded ∧
    ∀ fields, loaded = .object fields → DatesParse codec (fields.mapValues Field.ofJson)

/-- Inside the wrapper the decoding ends as it does outside of it exactly for a
readable text. -/
theorem decode_contained_iff (value : String) :
    executeRedisOperation ((decode codec value).map some) none =
        (decode codec value).map some ↔ Readable codec value := by
  unfold decode Readable
  cases hloads : codec.loads value with
  | none =>
      dsimp only [Except.map]
      rw [executeRedisOperation_error (by decide)]
      simp
  | some loaded =>
      cases loaded with
      | nonObject v =>
          dsimp only [Except.map]
          rw [executeRedisOperation_attributeError]
          simp
      | object fields =>
          by_cases hdates : DatesParse codec (fields.mapValues Field.ofJson)
          · obtain ⟨result, hresult, -⟩ := parseFields_ok hdates
            dsimp only
            rw [hresult]
            simp [executeRedisOperation, Except.map, hdates]
          · dsimp only
            rw [parseFields_error hdates]
            dsimp only [Except.map]
            rw [executeRedisOperation_error (by decide)]
            simp [hdates]

end Decoding

/-! ## Agreement of the backends -/

section Agreement

variable {P δ V : Type} (codec : Codec P δ V)

def TtlAccepted (ttl : Option Int) : Prop :=
  ∀ seconds, ttl = some seconds → seconds ≠ 0 → validSeconds seconds = true

def HoldSame (now : Nat) (key : String) (keys : Keyspace) (c : InMemoryCache) : Prop :=
  keys.find now key = (c.get now key).1

theorem setCommand_isSome_iff (now : Nat) (key text : String) (ttl : Option Int)
    (keys : Keyspace) :
    (setCommand now key text (ttl.filter (· ≠ 0)) keys).isSome = true ↔ TtlAccepted ttl := by
  unfold setCommand TtlAccepted
  cases ttl with
  | none => simp
  | some seconds =>
      by_cases hzero : seconds = 0
      · have hnone : (some seconds).filter (· ≠ 0) = none := by simp [hzero]
        rw [hnone]
        simp [hzero]
      · have hsome : (some seconds).filter (· ≠ 0) = some seconds := by simp [hzero]
        rw [hsome]
        cases hvalid : validSeconds seconds <;> simp [hzero, hvalid]

theorem getJson_agrees_iff {now : Nat} {key : String} {keys : Keyspace} {c : InMemoryCache}
    (hsame : HoldSame now key keys c) :
    getJsonOnRedis codec now key keys = (getJsonInMemory codec now key c).1 ↔
      ∀ value, keys.find now key = some value → Readable codec value := by
  unfold getJsonOnRedis getJsonOperation getJsonInMemory getCommand
  rw [hsame]
  cases hget : c.get now key with
  | mk stored c' =>
      cases stored with
      | none => simp [executeRedisOperation]
      | some value => simpa using decode_contained_iff value

theorem setJson_agrees_iff (now : Nat) (key : String) (value : P) (ttl : Option Int)
    (keys : Keyspace) (c : InMemoryCache) :
    (setJsonOnRedis codec now key value ttl keys).1 =
        (setJsonInMemory codec now key value ttl c).1 ↔
      (codec.dumps value).isSome = true ∧ TtlAccepted ttl := by
  unfold setJsonOnRedis setJsonOperation setJsonInMemory
  cases hdumps : codec.dumps value with
  | none =>
      dsimp only
      rw [executeRedisOperation_error (by decide)]
      simp
  | some text =>
      rw [← setCommand_isSome_iff now key text ttl keys]
      cases hset : setCommand now key text (ttl.filter (· ≠ 0)) keys with
      | none =>
          simp only [hset]
          rw [executeRedisOperation_error (by decide)]
          simp [InMemoryCache.set]
      | some done =>
          simp only [hset]
          simp [executeRedisOperation, InMemoryCache.set]

/-- The two backends answer alike exactly when what is stored can be read, the value
can be written and Redis accepts its lifetime. -/
theorem json_backends_agree_iff {now : Nat} {key : String} {keys : Keyspace}
    {c : InMemoryCache} (hsame : HoldSame now key keys c) (value : P) (ttl : Option Int) :
    (getJsonOnRedis codec now key keys = (getJsonInMemory codec now key c).1 ∧
      (setJsonOnRedis codec now key value ttl keys).1 =
        (setJsonInMemory codec now key value ttl c).1) ↔
    (∀ text, keys.find now key = some text → Readable codec text) ∧
      (codec.dumps value).isSome = true ∧ TtlAccepted ttl :=
  and_congr (getJson_agrees_iff codec hsame)
    (setJson_agrees_iff codec now key value ttl keys c)

end Agreement

/-! ## What was written is read back -/

section RoundTrip

variable {δ V : Type}

def Field.toJson (isoformat : δ → String) : Field δ V → JsonField V
  | .text s => .text s
  | .other v => .other v
  | .datetime d => .text (isoformat d)

/-- A dict of JSON values, in whose datetime fields there may be datetimes. -/
structure JsonDict (data : Dict String (Field δ V)) : Prop where
  nodup : (Dict.keys data).Nodup
  datetimes : ∀ key d, data.find key = some (.datetime d) → key ∈ dateFields

/-- orjson reads back what it writes, with datetimes as the ISO texts that
`fromisoformat` reads. -/
structure RoundTrips (codec : Codec (Dict String (Field δ V)) δ V) (isoformat : δ → String) :
    Prop where
  fromisoformat_isoformat : ∀ d, codec.fromisoformat (isoformat d) = some d
  loads_dumps : ∀ data text, JsonDict data → codec.dumps data = some text →
    codec.loads text = some (.object (data.mapValues (Field.toJson isoformat)))

variable (codec : Codec (Dict String (Field δ V)) δ V)

/-- The same keys; every entry is the stored one, but an ISO text in a datetime field
is its datetime. -/
structure ReadsBack (data result : Dict String (Field δ V)) : Prop where
  keys : Dict.keys result = Dict.keys data
  entries : ∀ key field, data.find key = some field →
    (key ∈ dateFields → ∀ s, field ≠ .text s) → result.find key = some field
  dates : ∀ key ∈ dateFields, ∀ s d, data.find key = some (.text s) →
    codec.fromisoformat s = some d → result.find key = some (.datetime d)

def Before (now later : Nat) (ttl : Option Int) : Prop :=
  ∀ seconds, ttl = some seconds → seconds ≠ 0 → (later : Int) ≤ now + 1000 * seconds

variable {codec} {isoformat : δ → String}

theorem find_written (data : Dict String (Field δ V)) (key : String) :
    ((data.mapValues (Field.toJson isoformat)).mapValues Field.ofJson).find key =
      (data.find key).map fun field => (Field.ofJson (field.toJson isoformat) : Field δ V) := by
  rw [Dict.find_mapValues, Dict.find_mapValues, Option.map_map]
  rfl

theorem decode_written (hround : RoundTrips codec isoformat) {data : Dict String (Field δ V)}
    (hdata : JsonDict data) (hdates : DatesParse codec data) {text : String}
    (hdumps : codec.dumps data = some text) :
    ∃ result, decode codec text = .ok result ∧ ReadsBack codec data result := by
  have hparse : DatesParse codec
      ((data.mapValues (Field.toJson isoformat)).mapValues Field.ofJson) := by
    intro name hname s hfind
    rw [find_written, Option.map_eq_some_iff] at hfind
    obtain ⟨field, hfield, hs⟩ := hfind
    cases field with
    | text s' =>
        obtain rfl : s' = s := by simpa [Field.ofJson, Field.toJson] using hs
        exact hdates name hname s' hfield
    | other v => simp [Field.ofJson, Field.toJson] at hs
    | datetime d =>
        obtain rfl : isoformat d = s := by simpa [Field.ofJson, Field.toJson] using hs
        rw [hround.fromisoformat_isoformat d, Option.isSome_some]
  obtain ⟨result, hresult, hkeys, hfind⟩ := parseFields_ok hparse
  refine ⟨result, ?_, ?_⟩
  · rw [decode, hround.loads_dumps data text hdata hdumps]
    exact hresult
  · constructor
    case keys =>
      rw [hkeys]
      simp [Dict.keys, Dict.mapValues]
    case entries =>
      intro key field hfield hnot
      rw [hfind, find_written, hfield]
      cases field with
      | text s =>
          rw [if_neg fun hkey => hnot hkey s rfl]
          rfl
      | other v => split_ifs <;> rfl
      | datetime d =>
          rw [if_pos (hdata.datetimes key d hfield)]
          simp [Field.toJson, Field.ofJson, readField, hround.fromisoformat_isoformat d]
    case dates =>
      intro key hkey s d hs hd
      rw [hfind, find_written, hs, if_pos hkey]
      simp [Field.toJson, Field.ofJson, readField, hd]

theorem get_set_inMemory {now later : Nat} (ttl : Option Int) (httl : Before now later ttl)
    (key text : String) (c : InMemoryCache) :
    ((c.set now key text ttl).2.get later key).1 = some text := by
  have hlive : InMemoryCache.isExpired later (InMemoryCache.expiryOf now ttl) = false := by
    cases ttl with
    | none => rfl
    | some seconds =>
        unfold InMemoryCache.expiryOf
        dsimp only
        split_ifs with hzero
        · rfl
        · have hbefore := httl seconds rfl hzero
          simpa [InMemoryCache.isExpired] using hbefore
  simp [InMemoryCache.get, InMemoryCache.set, InMemoryCache.assign, Dict.find_assign_self, hlive]

theorem find_setCommand {now later : Nat} {ttl : Option Int} (httl : Before now later ttl)
    {key text : String} {keys keys' : Keyspace} {reply : Unit}
    (hset : setCommand now key text (ttl.filter (· ≠ 0)) keys = some (reply, keys')) :
    keys'.find later key = some text := by
  cases hfilter : ttl.filter (· ≠ 0) with
  | none =>
      rw [hfilter, setCommand, Option.some.injEq, Prod.mk.injEq] at hset
      rw [← hset.2, Store.find_put_self]
      rfl
  | some seconds =>
      obtain ⟨httlEq, hzero⟩ := Option.filter_eq_some_iff.mp hfilter
      rw [hfilter, setCommand] at hset
      split_ifs at hset with hvalid
      rw [Option.some.injEq, Prod.mk.injEq] at hset
      have hbefore := httl seconds httlEq (by simpa using hzero)
      have hlive : later ≤ deadline now seconds := by
        unfold deadline
        omega
      rw [← hset.2, Store.find_put_self]
      simp [Entry.live, hlive]

theorem setJsonOnRedis_ok {now : Nat} {key : String} {data : Dict String (Field δ V)}
    {ttl : Option Int} {keys keys' : Keyspace}
    (hset : setJsonOnRedis codec now key data ttl keys = (.ok true, keys')) :
    ∃ text reply, codec.dumps data = some text ∧
      setCommand now key text (ttl.filter (· ≠ 0)) keys = some (reply, keys') := by
  unfold setJsonOnRedis setJsonOperation at hset
  cases hdumps : codec.dumps data with
  | none =>
      simp only [hdumps] at hset
      rw [executeRedisOperation_error (by decide)] at hset
      simp at hset
  | some text =>
      simp only [hdumps] at hset
      cases hcommand : setCommand now key text (ttl.filter (· ≠ 0)) keys with
      | none =>
          simp only [hcommand] at hset
          rw [executeRedisOperation_error (by decide)] at hset
          simp at hset
      | some done =>
          simp only [hcommand] at hset
          obtain ⟨-, rfl⟩ := Prod.mk.inj hset
          exact ⟨text, done.1, rfl, hcommand⟩

theorem setJsonInMemory_ok {now : Nat} {key : String} {data : Dict String (Field δ V)}
    {ttl : Option Int} {c c' : InMemoryCache}
    (hset : setJsonInMemory codec now key data ttl c = (.ok true, c')) :
    ∃ text, codec.dumps data = some text ∧ c' = (c.set now key text ttl).2 := by
  unfold setJsonInMemory at hset
  cases hdumps : codec.dumps data with
  | none => simp [hdumps] at hset
  | some text =>
      simp only [hdumps] at hset
      exact ⟨text, rfl, (Prod.mk.inj hset).2.symm⟩

theorem getJsonOnRedis_of_find {now : Nat} {key text : String} {keys : Keyspace}
    {result : Dict String (Field δ V)} (hfind : keys.find now key = some text)
    (hdecode : decode codec text = .ok result) :
    getJsonOnRedis codec now key keys = .ok (some result) := by
  simp only [getJsonOnRedis, getJsonOperation, getCommand, hfind, hdecode]
  rfl

theorem getJsonInMemory_of_get {now : Nat} {key text : String} {c : InMemoryCache}
    {result : Dict String (Field δ V)} (hget : (c.get now key).1 = some text)
    (hdecode : decode codec text = .ok result) :
    (getJsonInMemory codec now key c).1 = .ok (some result) := by
  unfold getJsonInMemory
  cases hstored : c.get now key with
  | mk stored c' =>
      rw [hstored] at hget
      dsimp only at hget
      subst hget
      simp [hdecode, Except.map]

/-- What `set_json` accepts, `get_json` returns, on either backend. -/
theorem getJson_setJson (hround : RoundTrips codec isoformat) {data : Dict String (Field δ V)}
    (hdata : JsonDict data) (hdates : DatesParse codec data) {now later : Nat}
    {ttl : Option Int} (httl : Before now later ttl) (key : String) :
    (∀ keys keys', setJsonOnRedis codec now key data ttl keys = (.ok true, keys') →
      ∃ result, getJsonOnRedis codec later key keys' = .ok (some result) ∧
        ReadsBack codec data result) ∧
    ∀ c c', setJsonInMemory codec now key data ttl c = (.ok true, c') →
      ∃ result, (getJsonInMemory codec later key c').1 = .ok (some result) ∧
        ReadsBack codec data result := by
  constructor
  · intro keys keys' hset
    obtain ⟨text, reply, hdumps, hcommand⟩ := setJsonOnRedis_ok hset
    obtain ⟨result, hresult, hreads⟩ := decode_written hround hdata hdates hdumps
    have hfind := find_setCommand httl hcommand
    exact ⟨result, getJsonOnRedis_of_find hfind hresult, hreads⟩
  · intro c c' hset
    obtain ⟨text, hdumps, rfl⟩ := setJsonInMemory_ok hset
    obtain ⟨result, hresult, hreads⟩ := decode_written hround hdata hdates hdumps
    have hget := get_set_inMemory ttl httl key text c
    exact ⟨result, getJsonInMemory_of_get hget hresult, hreads⟩

end RoundTrip

/-! ## A dict with two dates -/

/-- The first of January 2024 at midnight is the only datetime. -/
def newYear : Dict String (Field Unit Nat) :=
  [("id", .other 7), ("created_at", .datetime ()), ("updated_at", .text "2024-01-01")]

def newYearText : String :=
  "\x7b\"id\":7,\"created_at\":\"2024-01-01T00:00:00\",\"updated_at\":\"2024-01-01\"\x7d"

def isoNewYear (_ : Unit) : String := "2024-01-01T00:00:00"

/-- The codec on these texts; it refuses every other dict. -/
def newYearCodec : Codec (Dict String (Field Unit Nat)) Unit Nat where
  dumps data := if data = newYear then some newYearText else none
  loads text :=
    if text = newYearText then some (.object (newYear.mapValues (Field.toJson isoNewYear)))
    else none
  fromisoformat s := if s = "2024-01-01" ∨ s = isoNewYear () then some () else none

theorem newYear_roundTrips : RoundTrips newYearCodec isoNewYear where
  fromisoformat_isoformat _ := by simp [newYearCodec]
  loads_dumps data text _ hdumps := by
    simp only [newYearCodec, Option.ite_none_right_eq_some, Option.some.injEq] at hdumps
    obtain ⟨rfl, rfl⟩ := hdumps
    simp [newYearCodec]

theorem newYear_jsonDict : JsonDict newYear where
  nodup := by decide
  datetimes key d hfind := by
    have hmem := Dict.mem_of_find hfind
    simp only [newYear, List.mem_cons, List.not_mem_nil, Prod.mk.injEq, reduceCtorEq, and_false,
      or_false, false_or, and_true] at hmem
    simp [dateFields, hmem]

theorem newYear_datesParse : DatesParse newYearCodec newYear := by
  intro name hname s hs
  rcases List.mem_cons.mp hname with rfl | hname
  · exact absurd hs (by simp [newYear, Dict.find])
  · rw [List.mem_singleton.mp hname] at hs
    obtain rfl : "2024-01-01" = s := by simpa [newYear, Dict.find] using hs
    decide

theorem getJson_setJson_newYear :
    (∀ keys keys', setJsonOnRedis newYearCodec 0 "user" newYear (some 60) keys =
        (.ok true, keys') →
      ∃ result, getJsonOnRedis newYearCodec 59000 "user" keys' = .ok (some result) ∧
        ReadsBack newYearCodec newYear result) ∧
    ∀ c c', setJsonInMemory newYearCodec 0 "user" newYear (some 60) c = (.ok true, c') →
      ∃ result, (getJsonInMemory newYearCodec 59000 "user" c').1 = .ok (some result) ∧
        ReadsBack newYearCodec newYear result := by
  refine getJson_setJson newYear_roundTrips newYear_jsonDict newYear_datesParse ?_ "user"
  intro seconds hseconds _
  obtain rfl := Option.some.inj hseconds
  decide

/-- A text that is an ISO date is not what comes back. -/
theorem iso_text_changes :
    ¬ ∀ (codec : Codec (Dict String (Field Unit Nat)) Unit Nat) (isoformat : Unit → String),
      RoundTrips codec isoformat → ∀ data, JsonDict data →
      ∀ now later key ttl c c', now ≤ later → Before now later ttl →
        setJsonInMemory codec now key data ttl c = (.ok true, c') →
        ∃ result, (getJsonInMemory codec later key c').1 = .ok (some result) ∧
          ∀ name, result.find name = data.find name := by
  intro hclaim
  obtain ⟨result, hresult, hentries⟩ := hclaim newYearCodec isoNewYear newYear_roundTrips newYear
    newYear_jsonDict 0 0 "user" none ⟨[], 10000⟩ _ (Nat.le_refl 0) (fun _ h => nomatch h) rfl
  have hread : (getJsonInMemory newYearCodec 0 "user" ⟨[("user", newYearText, none)], 10000⟩).1 =
      .ok (some [("id", .other 7), ("created_at", .datetime ()),
        ("updated_at", .datetime ())]) := rfl
  obtain rfl := Option.some.inj (Except.ok.inj (hread.symm.trans hresult))
  exact absurd (hentries "updated_at") (by decide)

def emptyKeys : Keyspace := fun _ => none

theorem json_backends_agree_on_newYear :
    getJsonOnRedis newYearCodec 0 "user" emptyKeys =
        (getJsonInMemory newYearCodec 0 "user" .init).1 ∧
      (setJsonOnRedis newYearCodec 0 "user" newYear (some 60) emptyKeys).1 =
        (setJsonInMemory newYearCodec 0 "user" newYear (some 60) .init).1 := by
  have hsame : HoldSame 0 "user" emptyKeys .init := rfl
  refine (json_backends_agree_iff newYearCodec hsame newYear (some 60)).mpr ⟨?_, by decide, ?_⟩
  · intro text htext
    cases htext
  · intro seconds hseconds _
    obtain rfl := Option.some.inj hseconds
    decide

/-- A stored text that is not JSON is a miss on Redis and an exception on the fallback. -/
theorem json_backends_differ :
    let keys := emptyKeys.put "user" ⟨"not json", none⟩
    let c : InMemoryCache := ⟨[("user", "not json", none)], 10000⟩
    HoldSame 0 "user" keys c ∧
      getJsonOnRedis newYearCodec 0 "user" keys = .ok none ∧
      (getJsonInMemory newYearCodec 0 "user" c).1 = .error .jsonDecodeError ∧
      getJsonOnRedis newYearCodec 0 "user" keys ≠ (getJsonInMemory newYearCodec 0 "user" c).1 := by
  intro keys c
  have hmiss : getJsonOnRedis newYearCodec 0 "user" keys = .ok none := by decide
  have hraises : (getJsonInMemory newYearCodec 0 "user" c).1 = .error .jsonDecodeError := by decide
  refine ⟨rfl, hmiss, hraises, ?_⟩
  rw [hmiss, hraises]
  exact fun h => nomatch h

end BackendProdReady.Cache.JsonValues
