import SyntheticsOperator.Api.AssertionExpr
import SyntheticsOperator.Api.Depends
import SyntheticsOperator.Api.Identity
import SyntheticsOperator.Api.Library
import SyntheticsOperator.Api.Types
import SyntheticsOperator.Api.Webhooks
import SyntheticsOperator.Controllers.Cron
import SyntheticsOperator.Controllers.HeartbeatController
import SyntheticsOperator.Controllers.HeartbeatServer
import SyntheticsOperator.Controllers.Kube
import SyntheticsOperator.Controllers.PingWriter
import SyntheticsOperator.Controllers.ProbeControllers
import SyntheticsOperator.Controllers.Probes
import SyntheticsOperator.Controllers.ResyncLoop
import SyntheticsOperator.Controllers.SpecStream
import SyntheticsOperator.Controllers.Specs
import SyntheticsOperator.Controllers.Status
import SyntheticsOperator.Controllers.StatusWriters
import SyntheticsOperator.Controllers.TestControllers
import SyntheticsOperator.Events.Notifier
import SyntheticsOperator.Heartbeat.Lifecycle
import SyntheticsOperator.Heartbeat.Receiver
import SyntheticsOperator.Heartbeat.Token
import SyntheticsOperator.Images.PlaywrightRunner
import SyntheticsOperator.Images.TestSidecar
import SyntheticsOperator.Metrics.Observe
import SyntheticsOperator.Metrics.Store
import SyntheticsOperator.Metrics.Suppression
import SyntheticsOperator.MetricsConsumer.Consumer
import SyntheticsOperator.NatsBus.ColdStart
import SyntheticsOperator.NatsBus.Start
import SyntheticsOperator.Prober.Pipeline
import SyntheticsOperator.Prober.Worker
import SyntheticsOperator.Probes.Assertions
import SyntheticsOperator.Probes.Executors
import SyntheticsOperator.Probes.Offsets
import SyntheticsOperator.Probes.RequestHeaders
import SyntheticsOperator.Probes.RunLoop
import SyntheticsOperator.Probes.Scheduler
import SyntheticsOperator.Probes.Transport
import SyntheticsOperator.Proofs.Admission
import SyntheticsOperator.Proofs.Alerting
import SyntheticsOperator.Proofs.Announcements
import SyntheticsOperator.Proofs.AssertionLanguage
import SyntheticsOperator.Proofs.CertOverlap
import SyntheticsOperator.Proofs.CertRecovery
import SyntheticsOperator.Proofs.CertRotation
import SyntheticsOperator.Proofs.ColdStart
import SyntheticsOperator.Proofs.Configuration
import SyntheticsOperator.Proofs.CronJobs
import SyntheticsOperator.Proofs.CycleCheck
import SyntheticsOperator.Proofs.DepthCaps
import SyntheticsOperator.Proofs.HandOver
import SyntheticsOperator.Proofs.HeaderSecrets
import SyntheticsOperator.Proofs.Healing
import SyntheticsOperator.Proofs.HeartbeatHistory
import SyntheticsOperator.Proofs.Identity
import SyntheticsOperator.Proofs.Loading
import SyntheticsOperator.Proofs.MetricLabels
import SyntheticsOperator.Proofs.MissedWindow
import SyntheticsOperator.Proofs.Outcomes
import SyntheticsOperator.Proofs.PingPaths
import SyntheticsOperator.Proofs.PingURL
import SyntheticsOperator.Proofs.PingWriter
import SyntheticsOperator.Proofs.Pipeline
import SyntheticsOperator.Proofs.Quiescence
import SyntheticsOperator.Proofs.ReadFailures
import SyntheticsOperator.Proofs.Replicas
import SyntheticsOperator.Proofs.ReportWalks
import SyntheticsOperator.Proofs.RequestHeaders
import SyntheticsOperator.Proofs.Reseed
import SyntheticsOperator.Proofs.Responses
import SyntheticsOperator.Proofs.Revocation
import SyntheticsOperator.Proofs.Schedules
import SyntheticsOperator.Proofs.Scheduling
import SyntheticsOperator.Proofs.Series
import SyntheticsOperator.Proofs.SpecStream
import SyntheticsOperator.Proofs.Startup
import SyntheticsOperator.Proofs.StatusWriters
import SyntheticsOperator.Proofs.Suppression
import SyntheticsOperator.Proofs.SuspendedProbes
import SyntheticsOperator.Proofs.Suspension
import SyntheticsOperator.Proofs.Ticks
import SyntheticsOperator.Proofs.Timeline
import SyntheticsOperator.Proofs.TokenAgreement
import SyntheticsOperator.Proofs.Tokens
import SyntheticsOperator.Proofs.Tombstone
import SyntheticsOperator.Proofs.WebhookCerts
import SyntheticsOperator.Proofs.WebhookReplicas
import SyntheticsOperator.Proofs.WireTiming
import SyntheticsOperator.Results.Message
import SyntheticsOperator.Support.Arrivals
import SyntheticsOperator.Support.Base32
import SyntheticsOperator.Support.CappedSearch
import SyntheticsOperator.Support.Cron
import SyntheticsOperator.Support.FirstPaths
import SyntheticsOperator.Support.GoStrings
import SyntheticsOperator.Support.GoTime
import SyntheticsOperator.Support.Histories
import SyntheticsOperator.Support.Interleavings
import SyntheticsOperator.Support.LatestWins
import SyntheticsOperator.Support.Machines
import SyntheticsOperator.Support.MapLookup
import SyntheticsOperator.Support.MergePatch
import SyntheticsOperator.Support.Paths
import SyntheticsOperator.Support.Phases
import SyntheticsOperator.Support.Requests
import SyntheticsOperator.Support.Startup
import SyntheticsOperator.Support.Texts
import SyntheticsOperator.Support.Urls
import SyntheticsOperator.Support.VersionedStore
import SyntheticsOperator.WebhookCerts.Certificates
import SyntheticsOperator.WebhookCerts.Manager
import SyntheticsOperator.WebhookCerts.Replica
