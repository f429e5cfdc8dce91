import Aperio.Run
import Aperio.Ip
import Aperio.Binds
import Aperio.VisitorAuth
import Aperio.Sites
import Aperio.Client
import Aperio.Declare
import Aperio.Agree
import Aperio.Ping
import Aperio.Matching
import Aperio.Server
import Aperio.PathFence
import Aperio.Authoritative
import Aperio.Select
import Aperio.CatchAll
import Aperio.OneRoute
import Aperio.Grants
import Aperio.Users
import Aperio.Orgs
import Aperio.Caller
import Aperio.Gate
import Aperio.RouteGate
import Aperio.Spelling
import Aperio.Traversal
import Aperio.Pick
import Aperio.Proxy
import Aperio.Accounts
import Aperio.Logins
import Aperio.Manage
import Aperio.Oidc
import Aperio.Confine
import Aperio.Tenant
import Aperio.CacheControl
import Aperio.Exchanges
import Aperio.Headers
import Aperio.Unforged
import Aperio.Passwords
import Aperio.Sweep
import Aperio.Narrow
import Aperio.ResponseCache
import Aperio.Outage
import Aperio.Upload
import Aperio.TunnelNames
import Aperio.Registry
import Aperio.BindTunnels
import Aperio.NamedTunnel
import Aperio.E2e
import Aperio.StreamEnds
import Aperio.EndToEnd
import Aperio.MessageBus
import Aperio.Outbound
import Aperio.FileTree
import Aperio.Serve
import Aperio.UrlPath
import Aperio.DestUrl
import Aperio.Firewall
import Aperio.Canary
import Aperio.Limits
import Aperio.Upgrade
import Aperio.Redact
import Aperio.ForwardCache
import Aperio.Drain
import Aperio.ShareScope
import Aperio.ClientIp
import Aperio.AuditTamper
import Aperio.PubsubQueues
import Aperio.HostActions
import Aperio.StreamFlow
import Aperio.Backlog
import Aperio.Scaling
import Aperio.ByteOrder
import Aperio.SnapshotFiles
import Aperio.KeyedSum
import Aperio.Quota
import Aperio.Ceiling
import Aperio.Semaphore
import Aperio.Limiter
import Aperio.CacheClock
import Aperio.CacheLedger
import Aperio.Utf8
import Aperio.Frames
import Aperio.FrameCompression
import Aperio.Rotation
import Aperio.TopicFilters
import Aperio.Subscribers
import Aperio.Redelivery
import Aperio.Breaker
import Aperio.OidcCache
import Aperio.BackendRelay
import Aperio.VisitorCalls
import Aperio.Exposes
import Aperio.ExposeManager
import Aperio.ListenerChange
import Aperio.ListenerQuota
import Aperio.ListenerStates
import Aperio.Results
import Aperio.ExposeApi
import Aperio.ExposeEdits
import Aperio.ListenerTenants
import Aperio.SiteAnswers
import Aperio.PlainRequest
import Aperio.Explain
import Aperio.Unhindered
import Aperio.ExplainAgrees
import Aperio.Commit
import Aperio.OrgStore
import Aperio.OrgPanels
import Aperio.AlertRules
import Aperio.Alerts
import Aperio.Stores
import Aperio.AdminKeys
import Aperio.SecondFactor
import Aperio.TokenPins
import Aperio.Revalidation
import Aperio.Attempt
import Aperio.Redispatch
import Aperio.FailoverLimits
import Aperio.AccountUpdate
import Aperio.TokenRotation
import Aperio.StatsStore
import Aperio.Units
import Aperio.ScalingBounds
import Aperio.Layers
import Aperio.Bandwidth
import Aperio.BodyRelay
import Aperio.TargetMapping
import Aperio.CycleSearch
import Aperio.DependsOn
import Aperio.Lockout
import Aperio.Delegation
import Aperio.StableSort
import Aperio.SiteRank
import Aperio.ColdStart
import Aperio.Adaptive
import Aperio.Egress
import Aperio.ServedVersions
import Aperio.ZonedWindow
import Aperio.JwksFloor
import Aperio.DeliveryLog
import Aperio.LoginRedirect
import Aperio.GroupMap
import Aperio.DeclarationMatch
import Aperio.Base32
import Aperio.AddressRanges
import Aperio.SustainedLoad
import Aperio.GrpcHealth
import Aperio.CacheKeys
import Aperio.RandomNames
import Aperio.ElasticPool
import Aperio.SlidingWindow
import Aperio.CertIssuer
import Aperio.EditDistance
import Aperio.KeySuggestions
import Aperio.Includes
import Aperio.StreamPauses
import Aperio.TemplateVars
