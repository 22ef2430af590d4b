import BackendProdReady.Lib.InsertionDict
import BackendProdReady.Lib.LoggerTree
import BackendProdReady.Lib.PosixPath

/-!
# The logging configuration

At start-up the configuration that is read from `logging_config.yaml` goes through
`_adjust_log_paths` and `_apply_logging_format` before `dictConfig` builds the loggers from it.
The first moves the log files, the second swaps handlers for others that format differently.
Whether a handler can be built depends on the host as well: its file is opened.
-/

namespace BackendProdReady.Observability.LoggingConfig

open BackendProdReady.Lib.InsertionDict
open BackendProdReady.Lib.LoggerTree
open BackendProdReady.Lib.PosixPath

/-! ## Configurations -/

/-- `formatter` and the options of a file are left out. -/
structure HandlerConfig where
  handlerClass : String
  level : Nat
  stream : Option String
  filename : Option String
deriving DecidableEq

structure LoggerConfig where
  level : Option Nat
  handlers : Option (List String)
  propagate : Option Bool
deriving DecidableEq

structure Config where
  handlers : Dict String HandlerConfig
  loggers : Dict String LoggerConfig
  root : Option LoggerConfig
deriving DecidableEq

/-! ## `_adjust_log_paths` -/

/-- `new_path` for a file under `/app/logs/`. -/
def adjustFilename (logDir : Path) (filename : String) : String :=
  let originalPath := Path.parse filename
  if "/app/logs/".toList.isPrefixOf originalPath.str.toList then
    (logDir.join originalPath.name).str
  else filename

def HandlerConfig.adjust (logDir : Path) (handler : HandlerConfig) : HandlerConfig :=
  { handler with filename := handler.filename.map (adjustFilename logDir) }

def adjustLogPaths (logDir : Path) (config : Config) : Config :=
  { config with handlers := config.handlers.mapValues (HandlerConfig.adjust logDir) }

/-! ## `_apply_logging_format` -/

def structlogLoggers : List String := ["app", "backend.core.infrastructure.dbos_config"]

def standardLoggers : List String :=
  ["uvicorn", "uvicorn.error", "uvicorn.access", "sqlalchemy", "sqlalchemy.engine", "dbos",
    "httpx", "openai", "slowapi", "watchfiles"]

def handlerMapping : Dict String String :=
  [("console", "console_json"), ("file", "file_json"), ("error_file", "error_file_json")]

def structuredHandlerMapping : Dict String String :=
  [("console", "console_json_structured"), ("file", "file_json_structured"),
    ("error_file", "error_file_json_structured")]

def reverseMapping : Dict String String := handlerMapping.map Prod.swap

/-- What `update_handlers` appends for a handler. -/
def updateHandler (handlers : Dict String HandlerConfig) (useJson isStructlog : Bool)
    (handler : String) : String :=
  if useJson then
    if isStructlog then (handlerMapping.find handler).getD handler
    else
      match structuredHandlerMapping.find handler with
      | some structured =>
          if structured ∈ handlers.keys then structured
          else (handlerMapping.find handler).getD handler
      | none => (handlerMapping.find handler).getD handler
  else (reverseMapping.find handler).getD handler

def LoggerConfig.update (handlers : Dict String HandlerConfig) (useJson isStructlog : Bool)
    (logger : LoggerConfig) : LoggerConfig :=
  { logger with
    handlers := logger.handlers.map fun names =>
      names.map (updateHandler handlers useJson isStructlog) }

def isStructlogLogger (loggerName : String) : Bool :=
  loggerName ∈ structlogLoggers || loggerName ∉ standardLoggers

def applyLoggingFormat (useJson : Bool) (config : Config) : Config :=
  { config with
    loggers := config.loggers.mapItems fun loggerName logger =>
      logger.update config.handlers useJson (isStructlogLogger loggerName)
    root := config.root.map (LoggerConfig.update config.handlers useJson true) }

def configure (logDir : Path) (useJson : Bool) (config : Config) : Config :=
  applyLoggingFormat useJson (adjustLogPaths logDir config)

/-! ## `dictConfig` -/

/-- Where a handler writes. -/
structure Sink where
  handlerClass : String
  stream : Option String
  filename : Option String
deriving DecidableEq

def HandlerConfig.build (handler : HandlerConfig) : Handler Sink :=
  ⟨handler.level, ⟨handler.handlerClass, handler.stream, handler.filename⟩⟩

/-- The handler of a name. -/
def target (handlers : Dict String HandlerConfig) (name : String) : Option (Handler Sink) :=
  (handlers.find name).map HandlerConfig.build

/-- `addHandler` takes no handler twice. -/
def LoggerConfig.build (handlers : Dict String HandlerConfig) (logger : LoggerConfig) :
    Logger (Handler Sink) where
  level := logger.level.getD 0
  handlers := (logger.handlers.getD []).eraseDups.filterMap (target handlers)
  propagate := logger.propagate.getD true

/-- Every handler that a logger names is there. -/
def LoggerConfig.Closed (handlers : Dict String HandlerConfig) (logger : LoggerConfig) : Prop :=
  ∀ name ∈ logger.handlers.getD [], (target handlers name).isSome = true

instance (handlers : Dict String HandlerConfig) (logger : LoggerConfig) :
    Decidable (logger.Closed handlers) :=
  inferInstanceAs (Decidable (∀ name ∈ logger.handlers.getD [], _))

namespace Config

def allLoggers (config : Config) : List LoggerConfig :=
  config.loggers.map Prod.snd ++ config.root.toList

def Closed (config : Config) : Prop :=
  ∀ logger ∈ config.allLoggers, logger.Closed config.handlers

instance (config : Config) : Decidable config.Closed :=
  inferInstanceAs (Decidable (∀ logger ∈ config.allLoggers, _))

/-- The root has no handlers where the configuration does not name it. -/
def tree (config : Config) : Tree String (Handler Sink) where
  find name := (config.loggers.find name).map (LoggerConfig.build config.handlers)
  root := (config.root.getD ⟨none, none, none⟩).build config.handlers

end Config

/-- Every handler can be built, also one that no logger names. -/
def Config.Builds (builds : String → HandlerConfig → Bool) (config : Config) : Prop :=
  ∀ item ∈ config.handlers, builds item.1 item.2 = true

instance (builds : String → HandlerConfig → Bool) (config : Config) :
    Decidable (config.Builds builds) :=
  inferInstanceAs (Decidable (∀ item ∈ config.handlers, _))

/-- `dictConfig` on a host that can build the handlers `builds`; a handler that it cannot
build, or that is unknown, is a `ValueError`. -/
def dictConfig (builds : String → HandlerConfig → Bool) (config : Config) :
    Option (Tree String (Handler Sink)) :=
  if config.Builds builds ∧ config.Closed then some config.tree else none

/-! ## Handlers and their variants -/

/-- The handlers that are swapped write the same records to the same place. -/
structure Variants (handlers : Dict String HandlerConfig) : Prop where
  json : ∀ pair ∈ handlerMapping, target handlers pair.2 = target handlers pair.1
  structured : ∀ pair ∈ structuredHandlerMapping, pair.2 ∈ handlers.keys →
    target handlers pair.2 = target handlers pair.1

def adjustSink (logDir : Path) (sink : Sink) : Sink :=
  { sink with filename := sink.filename.map (adjustFilename logDir) }

section Handlers

variable {handlers : Dict String HandlerConfig} {useJson isStructlog : Bool} {name : String}

theorem target_getD {mapping : Dict String String}
    (h : ∀ pair ∈ mapping, target handlers pair.2 = target handlers pair.1) (name : String) :
    target handlers ((mapping.find name).getD name) = target handlers name := by
  cases hfind : mapping.find name with
  | none => rfl
  | some variant => exact h _ (Dict.mem_of_find hfind)

theorem target_updateHandler (h : Variants handlers) (useJson isStructlog : Bool)
    (name : String) :
    target handlers (updateHandler handlers useJson isStructlog name) = target handlers name := by
  have hreverse : ∀ pair ∈ reverseMapping, target handlers pair.2 = target handlers pair.1 := by
    intro pair hpair
    obtain ⟨original, hmem, rfl⟩ := List.mem_map.mp hpair
    exact (h.json original hmem).symm
  unfold updateHandler
  split_ifs
  · exact target_getD h.json name
  · split
    · rename_i structured hfind
      split_ifs with hkey
      · exact h.structured _ (Dict.mem_of_find hfind) hkey
      · exact target_getD h.json name
    · exact target_getD h.json name
  · exact target_getD hreverse name

def replaced (useJson : Bool) : List String :=
  if useJson then handlerMapping.keys else reverseMapping.keys

theorem getD_not_mem_keys {mapping : Dict String String}
    (h : ∀ pair ∈ mapping, pair.2 ∉ mapping.keys) (name : String) :
    (mapping.find name).getD name ∉ mapping.keys := by
  cases hfind : mapping.find name with
  | none =>
      show name ∉ mapping.keys
      rw [Dict.mem_keys_iff, hfind]
      simp
  | some variant => exact h _ (Dict.mem_of_find hfind)

theorem updateHandler_not_mem (handlers : Dict String HandlerConfig) (useJson isStructlog : Bool)
    (name : String) : updateHandler handlers useJson isStructlog name ∉ replaced useJson := by
  have hjson : ∀ pair ∈ handlerMapping, pair.2 ∉ handlerMapping.keys := by decide
  have hstructured : ∀ pair ∈ structuredHandlerMapping, pair.2 ∉ handlerMapping.keys := by decide
  have hreverse : ∀ pair ∈ reverseMapping, pair.2 ∉ reverseMapping.keys := by decide
  unfold updateHandler replaced
  cases useJson with
  | false => exact getD_not_mem_keys hreverse name
  | true =>
      simp only [if_true]
      split_ifs
      · exact getD_not_mem_keys hjson name
      · split
        · rename_i structured hfind
          split_ifs
          · exact hstructured _ (Dict.mem_of_find hfind)
          · exact getD_not_mem_keys hjson name
        · exact getD_not_mem_keys hjson name

theorem updateHandler_of_not_mem (h : name ∉ replaced useJson) :
    updateHandler handlers useJson isStructlog name = name := by
  cases useJson with
  | false =>
      have hfind : reverseMapping.find name = none := Dict.find_of_not_mem h
      simp [updateHandler, hfind]
  | true =>
      have hfind : handlerMapping.find name = none := Dict.find_of_not_mem h
      have hstructured : structuredHandlerMapping.find name = none := Dict.find_of_not_mem h
      simp [updateHandler, hfind, hstructured]

end Handlers

/-! ## The adjusted handlers -/

section Adjusted

variable {handlers : Dict String HandlerConfig} (logDir : Path)

theorem target_adjust (name : String) :
    target (handlers.mapValues (HandlerConfig.adjust logDir)) name =
      (target handlers name).map (Handler.map (adjustSink logDir)) := by
  rw [target, target, Dict.find_mapValues, Option.map_map, Option.map_map]
  rfl

theorem keys_adjust :
    (handlers.mapValues (HandlerConfig.adjust logDir)).keys = handlers.keys := by
  rw [Dict.keys, Dict.mapValues, List.map_map]
  rfl

theorem Variants.adjust (h : Variants handlers) :
    Variants (handlers.mapValues (HandlerConfig.adjust logDir)) where
  json pair hpair := by rw [target_adjust, target_adjust, h.json pair hpair]
  structured pair hpair hkey := by
    rw [keys_adjust] at hkey
    rw [target_adjust, target_adjust, h.structured pair hpair hkey]

/-- Names that mean the same handlers elsewhere. -/
theorem sim_build {handlers' : Dict String HandlerConfig} {f : Sink → Sink}
    {rename : String → String}
    (h : ∀ name, target handlers' (rename name) = (target handlers name).map (Handler.map f))
    (logger : LoggerConfig) :
    Logger.Sim f (logger.build handlers)
      ({ logger with handlers := logger.handlers.map (List.map rename) }.build handlers') where
  level := rfl
  propagate := rfl
  handlers h' := by
    have hnames : ((logger.handlers.map (List.map rename)).getD []) =
        (logger.handlers.getD []).map rename := by
      cases logger.handlers with
      | none => rfl
      | some names => rfl
    simp only [LoggerConfig.build, hnames, List.mem_filterMap, List.mem_eraseDups, List.mem_map]
    constructor
    · rintro ⟨-, ⟨name, hname, rfl⟩, hbuilt⟩
      rw [h, Option.map_eq_some_iff] at hbuilt
      obtain ⟨built, htarget, hmap⟩ := hbuilt
      exact ⟨built, ⟨name, hname, htarget⟩, hmap⟩
    · rintro ⟨built, ⟨name, hname, htarget⟩, rfl⟩
      exact ⟨rename name, ⟨name, hname, rfl⟩, by rw [h, htarget]; rfl⟩

theorem closed_update {handlers' : Dict String HandlerConfig} {f : Sink → Sink}
    {rename : String → String}
    (h : ∀ name, target handlers' (rename name) = (target handlers name).map (Handler.map f))
    (logger : LoggerConfig) :
    LoggerConfig.Closed handlers'
        { logger with handlers := logger.handlers.map (List.map rename) } ↔
      logger.Closed handlers := by
  cases hnames : logger.handlers with
  | none => simp [LoggerConfig.Closed, hnames]
  | some names => simp [LoggerConfig.Closed, hnames, h]

end Adjusted

/-! ## The configuration that is built -/

section Configure

variable {config : Config} (logDir : Path) (useJson : Bool)

theorem configure_loggers :
    (configure logDir useJson config).loggers =
      config.loggers.mapItems fun loggerName logger =>
        logger.update (configure logDir useJson config).handlers useJson
          (isStructlogLogger loggerName) := rfl

theorem configure_root :
    (configure logDir useJson config).root = config.root.map
      (LoggerConfig.update (configure logDir useJson config).handlers useJson true) := rfl

theorem target_configure (h : Variants config.handlers) (isStructlog : Bool) (name : String) :
    target (configure logDir useJson config).handlers
        (updateHandler (configure logDir useJson config).handlers useJson isStructlog name) =
      (target config.handlers name).map (Handler.map (adjustSink logDir)) := by
  have hvariants : Variants (configure logDir useJson config).handlers := h.adjust logDir
  rw [target_updateHandler hvariants]
  exact target_adjust logDir name

theorem sim_configure (h : Variants config.handlers) :
    config.tree.Sim (adjustSink logDir) (configure logDir useJson config).tree where
  find name := by
    show Option.Rel _ ((config.loggers.find name).map _)
      (((configure logDir useJson config).loggers.find name).map _)
    rw [configure_loggers, Dict.find_mapItems]
    cases config.loggers.find name with
    | none => exact .none
    | some logger => exact .some (sim_build (target_configure logDir useJson h _) logger)
  root := by
    have hroot : (configure logDir useJson config).root.getD ⟨none, none, none⟩ =
        (config.root.getD ⟨none, none, none⟩).update
          (configure logDir useJson config).handlers useJson true := by
      rw [configure_root]
      cases config.root with
      | none => rfl
      | some root => rfl
    show Logger.Sim _ _ (LoggerConfig.build _ ((configure logDir useJson config).root.getD _))
    rw [hroot]
    exact sim_build (target_configure logDir useJson h true) _

theorem closed_configure (h : Variants config.handlers) :
    (configure logDir useJson config).Closed ↔ config.Closed := by
  have hupdate : ∀ isStructlog logger,
      LoggerConfig.Closed (configure logDir useJson config).handlers
          (LoggerConfig.update (configure logDir useJson config).handlers useJson isStructlog
            logger) ↔ logger.Closed config.handlers :=
    fun isStructlog logger => closed_update (target_configure logDir useJson h isStructlog) logger
  have hloggers : (configure logDir useJson config).allLoggers =
      (config.loggers.map fun item => item.2.update
          (configure logDir useJson config).handlers useJson (isStructlogLogger item.1)) ++
        (config.root.map (LoggerConfig.update (configure logDir useJson config).handlers useJson
          true)).toList := by
    rw [Config.allLoggers, configure_loggers, configure_root, Dict.mapItems, List.map_map]
    rfl
  unfold Config.Closed
  rw [hloggers, Config.allLoggers]
  simp only [List.forall_mem_append, List.forall_mem_map, hupdate]
  refine and_congr_right fun _ => ?_
  cases config.root with
  | none => simp
  | some root => simpa using hupdate true root

theorem update_replaced {handlers : Dict String HandlerConfig} {isStructlog : Bool}
    {logger : LoggerConfig} {name : String}
    (h : name ∈ (logger.update handlers useJson isStructlog).handlers.getD []) :
    name ∉ replaced useJson := by
  unfold LoggerConfig.update at h
  cases hnames : logger.handlers with
  | none => simp [hnames] at h
  | some names =>
      simp only [hnames, Option.map_some, Option.getD_some, List.mem_map] at h
      obtain ⟨original, -, rfl⟩ := h
      exact updateHandler_not_mem handlers useJson isStructlog original

theorem mode_configure {logger : LoggerConfig}
    (h : logger ∈ (configure logDir useJson config).allLoggers) :
    ∀ name ∈ logger.handlers.getD [], name ∉ replaced useJson := by
  rw [Config.allLoggers, configure_loggers, configure_root, Dict.mapItems, List.map_map] at h
  rcases List.mem_append.mp h with hlogger | hroot
  · obtain ⟨item, -, rfl⟩ := List.mem_map.mp hlogger
    exact fun name hname => update_replaced useJson hname
  · obtain ⟨root, -, rfl⟩ := Option.map_eq_some_iff.mp (Option.mem_toList.mp hroot)
    exact fun name hname => update_replaced useJson hname

theorem update_of_not_replaced {handlers : Dict String HandlerConfig} {isStructlog : Bool}
    {logger : LoggerConfig} (h : ∀ name ∈ logger.handlers.getD [], name ∉ replaced useJson) :
    logger.update handlers useJson isStructlog = logger := by
  obtain ⟨level, names, propagate⟩ := logger
  cases names with
  | none => rfl
  | some names =>
      have hsame : names.map (updateHandler handlers useJson isStructlog) = names := by
        rw [List.map_congr_left (g := id), List.map_id]
        exact fun name hname => updateHandler_of_not_mem (h name hname)
      rw [LoggerConfig.update, Option.map_some, hsame]

/-- A configuration in which nothing is to be replaced is left alone. -/
theorem applyLoggingFormat_of_not_replaced
    (h : ∀ logger ∈ config.allLoggers, ∀ name ∈ logger.handlers.getD [], name ∉ replaced useJson) :
    applyLoggingFormat useJson config = config := by
  obtain ⟨handlers, loggers, root⟩ := config
  have hloggers : loggers.mapItems (fun loggerName logger =>
      logger.update handlers useJson (isStructlogLogger loggerName)) = loggers := by
    rw [Dict.mapItems, List.map_congr_left (g := id), List.map_id]
    intro item hitem
    have hlogger := h item.2 (List.mem_append_left _ (List.mem_map_of_mem hitem))
    rw [update_of_not_replaced useJson hlogger]
    rfl
  have hroot : root.map (LoggerConfig.update handlers useJson true) = root := by
    cases root with
    | none => rfl
    | some root =>
        rw [Option.map_some, update_of_not_replaced useJson (h root (by simp [Config.allLoggers]))]
  rw [applyLoggingFormat]
  show Config.mk handlers _ _ = _
  rw [hloggers, hroot]

theorem builds_configure (builds : String → HandlerConfig → Bool) :
    (configure logDir useJson config).Builds builds ↔
      ∀ item ∈ config.handlers, builds item.1 (item.2.adjust logDir) = true := by
  change (∀ item ∈ config.handlers.mapValues (HandlerConfig.adjust logDir), _) ↔ _
  rw [Dict.mapValues, List.forall_mem_map]

structure LoggingContract (builds : String → HandlerConfig → Bool) (config : Config) :
    Prop where
  /-- No unknown handler comes in or goes. -/
  closed : (configure logDir useJson config).Closed ↔ config.Closed
  accepted : (dictConfig builds (configure logDir useJson config)).isSome = true ↔
    config.Closed ∧ ∀ item ∈ config.handlers, builds item.1 (item.2.adjust logDir) = true
  /-- Every record of every logger goes to the places that the configuration says, where log
  files are moved. -/
  routed : ∀ T, dictConfig builds (configure logDir useJson config) = some T →
    ∀ ancestors name levelno h', h' ∈ T.emits ancestors name levelno ↔
      ∃ h ∈ config.tree.emits ancestors name levelno, h.map (adjustSink logDir) = h'
  mode : ∀ logger ∈ (configure logDir useJson config).allLoggers,
    ∀ name ∈ logger.handlers.getD [], name ∉ replaced useJson
  stable : applyLoggingFormat useJson (configure logDir useJson config) =
    configure logDir useJson config

theorem isSome_dictConfig {builds : String → HandlerConfig → Bool} :
    (dictConfig builds config).isSome = true ↔ config.Builds builds ∧ config.Closed := by
  unfold dictConfig
  split_ifs with haccepted
  · simp [haccepted]
  · simp [haccepted]

theorem dictConfig_eq_some {builds : String → HandlerConfig → Bool}
    {T : Tree String (Handler Sink)} (h : dictConfig builds config = some T) :
    T = config.tree := by
  unfold dictConfig at h
  split_ifs at h
  exact (Option.some.inj h).symm

end Configure

/-! ## `logging_config.yaml` -/

def streamHandler (level : Nat) : HandlerConfig :=
  ⟨"logging.StreamHandler", level, some "ext://sys.stdout", none⟩

def fileHandler (level : Nat) (filename : String) : HandlerConfig :=
  ⟨"logging.handlers.RotatingFileHandler", level, none, some filename⟩

/-- `level`, `handlers` and `propagate: false`. -/
def leaf (level : Nat) (handlers : List String) : LoggerConfig :=
  ⟨some level, some handlers, some false⟩

def loggingConfig : Config where
  handlers :=
    [("console", streamHandler 20), ("console_structlog", streamHandler 20),
      ("console_passthrough", streamHandler 10), ("console_json", streamHandler 20),
      ("console_json_structured", streamHandler 20),
      ("file", fileHandler 10 "/app/logs/app.log"),
      ("file_json", fileHandler 10 "/app/logs/app.log"),
      ("file_json_structured", fileHandler 10 "/app/logs/app.log"),
      ("error_file", fileHandler 40 "/app/logs/error.log"),
      ("error_file_json", fileHandler 40 "/app/logs/error.log"),
      ("error_file_json_structured", fileHandler 40 "/app/logs/error.log")]
  loggers :=
    [("uvicorn", leaf 20 ["console_structlog", "file"]),
      ("uvicorn.error", leaf 20 ["console_structlog", "error_file"]),
      ("uvicorn.access", leaf 20 ["console_structlog", "file"]),
      ("_granian", leaf 20 ["console_structlog", "file", "error_file"]),
      ("granian.access", leaf 20 ["console_structlog", "file"]),
      ("app", leaf 10 ["console_structlog", "file", "error_file"]),
      ("sqlalchemy", leaf 30 ["console_structlog", "file"]),
      ("sqlalchemy.engine", leaf 30 ["file"]),
      ("httpx", leaf 30 ["console_structlog", "file"]),
      ("openai", leaf 20 ["console_structlog", "file"]),
      ("dbos", leaf 20 ["console_structlog", "file"]),
      ("slowapi", leaf 20 ["console_structlog", "file"]),
      ("watchfiles", leaf 30 ["console_structlog"])]
  root := some ⟨some 20, some ["console_structlog", "file", "error_file"], none⟩

/-- A host without the directory `/app/logs`. -/
def withoutAppLogs (_ : String) (handler : HandlerConfig) : Bool :=
  handler.filename.all fun filename => !"/app/logs/".toList.isPrefixOf filename.toList

end BackendProdReady.Observability.LoggingConfig
