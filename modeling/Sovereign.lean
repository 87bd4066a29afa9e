import Sovereign.Json
import Sovereign.JsonText
import Sovereign.JsonScan
import Sovereign.Rego
import Sovereign.Text
import Sovereign.Trace
import Sovereign.Deque
import Sovereign.TextOrder
import Sovereign.IsoFormat
import Sovereign.WriteBack
import Sovereign.Walk
import Sovereign.Models
import Sovereign.Tenancy
import Sovereign.Identity
import Sovereign.Store
import Sovereign.Listing
import Sovereign.Inventory
import Sovereign.Policy
import Sovereign.BasePolicy
import Sovereign.PackPolicy
import Sovereign.Precheck
import Sovereign.PackParams
import Sovereign.Judged
import Sovereign.Renderers
import Sovereign.Executors
import Sovereign.ControlPlane
import Sovereign.Quota
import Sovereign.Broker
import Sovereign.Effects
import Sovereign.Steps
import Sovereign.SideTables
import Sovereign.Interleaving
import Sovereign.Ownership
import Sovereign.Teardown
import Sovereign.AuditService
import Sovereign.TenantTree
import Sovereign.TenantLayers
import Sovereign.BaseSoundness
import Sovereign.FailClosed
import Sovereign.ReadFaults
import Sovereign.Bindings
import Sovereign.Metering
import Sovereign.InstanceCap
import Sovereign.Paging
import Sovereign.GroupSync
import Sovereign.HashChain
import Sovereign.AuditProcess
import Sovereign.AuditChain
import Sovereign.ChainHead
import Sovereign.SpoolFile
import Sovereign.AuditRows
import Sovereign.AuditCrash
import Sovereign.Passes
import Sovereign.Evidence
import Sovereign.Recovery
import Sovereign.Sweep
import Sovereign.ManualPass
import Sovereign.DriftDetection
import Sovereign.GateAtomicity
import Sovereign.UsageQuota
import Sovereign.Routing
import Sovereign.FailureAttribution
import Sovereign.Startup
import Sovereign.ServiceAuth
import Sovereign.Mtls
import Sovereign.AppliedConfig
import Sovereign.SecretRotation
import Sovereign.RotatingSecrets
import Sovereign.JwksCache
import Sovereign.RateLimit
import Sovereign.XfccEncoding
import Sovereign.Composition
import Sovereign.Convergence
import Sovereign.UsageStore
import Sovereign.Requeue
import Sovereign.ParamRules
import Sovereign.EnvoySchema
import Sovereign.Endpoints
import Sovereign.References
import Sovereign.MutualTls
import Sovereign.PolicyClient
import Sovereign.Dispatch
import Sovereign.UsageSummary
import Sovereign.Dict
import Sovereign.Migrations
import Sovereign.TeardownPages
import Sovereign.TokenBound
import Sovereign.Backup
import Sovereign.Drill
import Sovereign.Chargeback
import Sovereign.Currencies
import Sovereign.StateDrift
import Sovereign.DenySpike
import Sovereign.Connectors
import Sovereign.TenantWalks
import Sovereign.Buckets
import Sovereign.Metrics
import Sovereign.Exposition
import Sovereign.MetricLabels
import Sovereign.Mediation
import Sovereign.Lifecycle
import Sovereign.PackBundles
import Sovereign.Trail
import Sovereign.Authority
import Sovereign.Catalog
import Sovereign.Tracing
import Sovereign.Base64
import Sovereign.Login
import Sovereign.Observability
import Sovereign.Siem
import Sovereign.Wizard
import Sovereign.Percent
import Sovereign.PortalCalls
