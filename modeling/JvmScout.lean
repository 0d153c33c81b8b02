import JvmScout.Lib.Runs
import JvmScout.Lib.TableFrames
import JvmScout.Lib.Sha256
import JvmScout.Lib.Traverse
import JvmScout.Collector.RedactionComplete
import JvmScout.Collector.Storage
import JvmScout.Agent.AsyncQueue
import JvmScout.Agent.QueueAccounting
import JvmScout.Collector.Security
import JvmScout.Collector.TokenLookup
import JvmScout.Collector.Routes
import JvmScout.Collector.TokenPrivilege
import JvmScout.Collector.TokenCache
import JvmScout.Collector.Ingest
import JvmScout.Collector.IngestBatch
import JvmScout.Collector.Tenancy
import JvmScout.Collector.Queries
import JvmScout.Collector.ReadIsolation
import JvmScout.Collector.Alerts
import JvmScout.Collector.AlertTenancy
import JvmScout.Collector.AlertRules
import JvmScout.Collector.AlertWorker
import JvmScout.Collector.AlertOnce
import JvmScout.Collector.ConfigUpdates
import JvmScout.Agent.QueueDelivery
import JvmScout.Agent.WorkerLoop
import JvmScout.Agent.VmDeath
import JvmScout.Wire.BatchLimit
import JvmScout.Lib.Utf16
import JvmScout.Lib.JsonText
import JvmScout.Agent.JsonWriter
import JvmScout.Agent.EventSerializer
import JvmScout.Wire.RoundTrip
import JvmScout.Agent.CountAggregator
import JvmScout.Agent.Sampler
import JvmScout.Agent.ExceptionHandler
import JvmScout.Agent.JvmtiShadow
import JvmScout.Agent.ShadowAttribution
import JvmScout.Agent.Config
import JvmScout.Agent.WriterTexts
import JvmScout.Agent.SystemInfo
import JvmScout.Agent.StackWalker
import JvmScout.Agent.MaskedTexts
import JvmScout.Collector.SourceClassStores
import JvmScout.Collector.LiveFanout
import JvmScout.Lib.AssocKeys
import JvmScout.Lib.Window
import JvmScout.Lib.Recency
import JvmScout.Lib.Tumbling
import JvmScout.Collector.RateLimiter
import JvmScout.Agent.MessageText
import JvmScout.Agent.GlobMatch
import JvmScout.Agent.ShadowBalance
import JvmScout.Agent.ShadowCodeTransform
import JvmScout.Agent.SamplerLru
import JvmScout.Agent.SamplerTiers
import JvmScout.Collector.Charts
import JvmScout.Collector.RateKeys
import JvmScout.Collector.ConfigIdentity
import JvmScout.Collector.InstanceRows
import JvmScout.Collector.StaticFiles
import JvmScout.Collector.AlertDestinations
import JvmScout.Dashboard.Events
import JvmScout.Dashboard.Paging
import JvmScout.Collector.RedactionCache
import JvmScout.Collector.AlertDebounce
import JvmScout.Collector.AlertCooldown
import JvmScout.Lib.IsoTime
import JvmScout.Collector.Retention
import JvmScout.Agent.Fingerprint
import JvmScout.Lib.Base64
import JvmScout.Agent.SourceCache
import JvmScout.Agent.LineTable
import JvmScout.Agent.Settings
import JvmScout.Agent.Filters
import JvmScout.Agent.ListSpellings
import JvmScout.Collector.SourceTenancy
import JvmScout.Collector.Snippets
import JvmScout.Dashboard.Servers
import JvmScout.Collector.RedactionLaws
import JvmScout.Wire.Pipeline
import JvmScout.Collector.Decompiler
import JvmScout.Collector.TenantViews
import JvmScout.Dashboard.LiveUpdates
import JvmScout.Dashboard.QueryBuilder
import JvmScout.Wire.ClassFiles
import JvmScout.Wire.Registration
import JvmScout.Agent.ExceptionCallback
import JvmScout.Agent.ObjectInspector
import JvmScout.Dashboard.ConfigSession
import JvmScout.Agent.InjectedCalls
import JvmScout.Agent.InstrumentedFrames
import JvmScout.Agent.InstrumentedRuns
