import KafkaManager.Lib.GoMap
import KafkaManager.Lib.GoText
import KafkaManager.Lib.References
import KafkaManager.Lib.Run
import KafkaManager.Lib.Prog
import KafkaManager.Lib.Threads
import KafkaManager.Config.Model
import KafkaManager.Config.Crypto
import KafkaManager.Config.Load
import KafkaManager.Cluster.Manager
import KafkaManager.Cluster.Operations
import KafkaManager.Proofs.PoolLocals
import KafkaManager.Proofs.PoolInvariant
import KafkaManager.Proofs.Ownership
import KafkaManager.Proofs.SaveLoad
import KafkaManager.Config.Store
import KafkaManager.Proofs.SaveReplaces
import KafkaManager.Kafka.Client
import KafkaManager.Kafka.Consumer
import KafkaManager.Kafka.Message
import KafkaManager.Kafka.Topic
import KafkaManager.Proofs.OffsetReset
import KafkaManager.Proofs.Partitions
import KafkaManager.Dashboard.Sampler
import KafkaManager.Api.Server
import KafkaManager.Api.Handlers
import KafkaManager.Proofs.PoolTransactions
import KafkaManager.Proofs.ServerInvariant
import KafkaManager.Proofs.ServerTransactions
import KafkaManager.Proofs.ServerRequests
import KafkaManager.Proofs.Transactions
import KafkaManager.Proofs.ReadOnly
import KafkaManager.Proofs.SourceOfTruth
import KafkaManager.Dashboard.Refresh
import KafkaManager.Proofs.SamplingInvariant
import KafkaManager.Proofs.Sampling
import KafkaManager.Proofs.Backoff
import KafkaManager.Api.Live
import KafkaManager.Proofs.LiveInvariant
import KafkaManager.Proofs.Measured
import KafkaManager.Lib.GoInt
import KafkaManager.Lib.Json
import KafkaManager.Lib.Utf8
import KafkaManager.Auth.Session
import KafkaManager.Api.Auth
import KafkaManager.Proofs.Sessions
import KafkaManager.Proofs.LoginLimit
import KafkaManager.Api.Portal
import KafkaManager.Proofs.Login
import KafkaManager.Lib.Civil
import KafkaManager.Audit.Cleanup
import KafkaManager.Main
import KafkaManager.Proofs.Retention
import KafkaManager.Lib.Rfc3339
import KafkaManager.Audit.Entry
import KafkaManager.Lib.JsonLines
import KafkaManager.Lib.Sort
import KafkaManager.Audit.Query
import KafkaManager.Proofs.AuditLog
import KafkaManager.Proofs.AuditRecovery
import KafkaManager.Kafka.Filter
import KafkaManager.Kafka.Fetch
import KafkaManager.Proofs.Collector
import KafkaManager.Proofs.Fetch
import KafkaManager.Proofs.Newest
import KafkaManager.Api.Topics
import KafkaManager.Proofs.TopicLookup
import KafkaManager.Proofs.KnownLag
import KafkaManager.Proofs.SessionOrigin
import KafkaManager.Api.Routes
import KafkaManager.Web.Urls
import KafkaManager.Proofs.Reachable
import KafkaManager.Lib.Fetched
import KafkaManager.Web.ListPages
import KafkaManager.Proofs.ShownRows
import KafkaManager.Api.Messages
import KafkaManager.Proofs.PageSpec
import KafkaManager.Proofs.QueryParams
import KafkaManager.Proofs.Cutoffs
import KafkaManager.Proofs.RetainDesired
import KafkaManager.Proofs.Rotation
import KafkaManager.Proofs.ApplyInstalls
import KafkaManager.Proofs.ApplyReconnects
import KafkaManager.Lib.JsonText
import KafkaManager.Proofs.ContainsFilter
import KafkaManager.Lib.Significand
import KafkaManager.Proofs.NumericFilter
import KafkaManager.Config.Json
import KafkaManager.Api.Config
import KafkaManager.Lib.JsonRest
import KafkaManager.Proofs.MaskedConfig
import KafkaManager.Lib.Trim
import KafkaManager.Kafka.Stream
import KafkaManager.Proofs.NormalQuery
import KafkaManager.Lib.UriComponent
import KafkaManager.Proofs.RoutePaths
import KafkaManager.Lib.Filepath
import KafkaManager.Config.Backups
import KafkaManager.Proofs.BackupPaths
import KafkaManager.Config.Saves
import KafkaManager.Proofs.KeptBackups
import KafkaManager.Lib.Double
import KafkaManager.Lib.Decimal
import KafkaManager.Lib.JsString
import KafkaManager.Lib.JsNumber
import KafkaManager.Lib.JsValue
import KafkaManager.Lib.SearchParams
import KafkaManager.Web.MessageFilters
import KafkaManager.Proofs.FilterUrls
import KafkaManager.Lib.Shortest
import KafkaManager.Proofs.MessageView
import KafkaManager.Lib.Emits
import KafkaManager.Proofs.Accounted
import KafkaManager.Dashboard.Run
import KafkaManager.Proofs.IdleSampler
import KafkaManager.Cluster.Connect
import KafkaManager.Proofs.StartUp
import KafkaManager.Web.App
import KafkaManager.Proofs.TopicPage
import KafkaManager.Lib.HttpCookie
import KafkaManager.Api.Gate
import KafkaManager.Proofs.Admitted
import KafkaManager.Proofs.Browser
import KafkaManager.Lib.JsonWire
import KafkaManager.Lib.EventStream
import KafkaManager.Web.Follow
import KafkaManager.Proofs.Following
import KafkaManager.Lib.JsonPost
import KafkaManager.Lib.JsonObject
import KafkaManager.Web.Settings
import KafkaManager.Proofs.SettingsPage
import KafkaManager.Api.Audit
import KafkaManager.Web.Audit
import KafkaManager.Proofs.AuditPage
import KafkaManager.Api.Bodies
import KafkaManager.Web.Forms
import KafkaManager.Proofs.FormBodies
