import BackendProdReady.Lib.Runs
import BackendProdReady.Lib.Text
import BackendProdReady.Lib.Calls
import BackendProdReady.Admin.Gate
import BackendProdReady.Api.MiddlewareStack
import BackendProdReady.Security.ClientAddress
import BackendProdReady.Conf.TrustedProxyCidrs
import BackendProdReady.Database.ExitProtocol
import BackendProdReady.Database.SessionRelease
import BackendProdReady.Database.SharedSession
import BackendProdReady.Database.RepositoryStack
import BackendProdReady.Database.LostUpdates
import BackendProdReady.Cache.Reconnection
import BackendProdReady.Cache.Backends
import BackendProdReady.Cache.SetnxExclusion
import BackendProdReady.Cache.FailSoft
import BackendProdReady.Idempotency.Locks
import BackendProdReady.Idempotency.StableResults
import BackendProdReady.Idempotency.ExactlyOnce
import BackendProdReady.Idempotency.TruthfulChecks
import BackendProdReady.Idempotency.Completion
import BackendProdReady.Conf.RequestPath
import BackendProdReady.Api.ExceptionHandlers
import BackendProdReady.Security.CircuitBreaker
import BackendProdReady.Database.WriteBack
import BackendProdReady.Database.ParamSanitizing
import BackendProdReady.Database.Cancellation
import BackendProdReady.Idempotency.Reopening
import BackendProdReady.Idempotency.MarkerLifetime
import BackendProdReady.Idempotency.PathAgreement
import BackendProdReady.Idempotency.Isolation
import BackendProdReady.Api.Pagination
import BackendProdReady.Database.Upsert
import BackendProdReady.Cache.TtlMap
import BackendProdReady.Cache.JsonValues
import BackendProdReady.Cache.PatternDeletion
import BackendProdReady.Lib.Glob
import BackendProdReady.Idempotency.MarkerCounts
import BackendProdReady.Cache.PatternDialects
import BackendProdReady.Cache.SecureKeys
import BackendProdReady.Admin.AddressSpelling
import BackendProdReady.Database.Cycles
import BackendProdReady.Domain.Serialisation
import BackendProdReady.Lib.Regex
import BackendProdReady.Observability.PathNormalisation
import BackendProdReady.FeatureFlags.Acknowledgement
import BackendProdReady.Lib.JsonEncoder
import BackendProdReady.Domain.ErrorResponses
import BackendProdReady.Cache.Backoff
import BackendProdReady.Database.EngineAdapter
import BackendProdReady.Lib.Iterables
import BackendProdReady.Database.BulkInserts
import BackendProdReady.Lib.PosixPath
import BackendProdReady.Api.Profiling
import BackendProdReady.Api.Dtos
import BackendProdReady.Api.ValidationErrors
import BackendProdReady.Lib.Tasks
import BackendProdReady.Cache.DeletionSlots
import BackendProdReady.Lib.Awaitables
import BackendProdReady.Lifecycle.Lifespan
import BackendProdReady.Observability.RequestMetrics
import BackendProdReady.Lib.LazyCells
import BackendProdReady.Security.BreakerRegistry
import BackendProdReady.Lib.TwoPhaseLocking
import BackendProdReady.Database.LockedUpdates
import BackendProdReady.Lib.Ddl
import BackendProdReady.Migrations.Init
import BackendProdReady.Lib.Numerals
import BackendProdReady.Migrations.RevisionIds
import BackendProdReady.Lib.FileTrees
import BackendProdReady.Api.ProfileRetention
import BackendProdReady.FeatureFlags.FlagRegisters
import BackendProdReady.Lib.KeyedMachines
import BackendProdReady.Security.RateLimiting
import BackendProdReady.Lib.TaskContexts
import BackendProdReady.Observability.LogContext
import BackendProdReady.Scripts.CreateAdmin
import BackendProdReady.Lib.WindowWalks
import BackendProdReady.Database.PageWalks
import BackendProdReady.Lib.LoggerTree
import BackendProdReady.Observability.LoggingConfig
