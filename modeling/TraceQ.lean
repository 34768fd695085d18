import TraceQ.Api.Admin
import TraceQ.Api.Analytics
import TraceQ.Api.DataHealth
import TraceQ.Api.Demo
import TraceQ.Api.EndpointMeaning
import TraceQ.Api.EventSources
import TraceQ.Api.Events
import TraceQ.Api.ImportMeaning
import TraceQ.Api.Nonconformances
import TraceQ.Api.Risk
import TraceQ.Api.RouteExports
import TraceQ.Api.RouteMeaning
import TraceQ.Api.Routes
import TraceQ.Api.StoredEvents
import TraceQ.Api.UserAdministration
import TraceQ.Backend.Calls
import TraceQ.Backend.ConcurrentRebuilds
import TraceQ.Backend.Decisions
import TraceQ.Backend.Deliveries
import TraceQ.Backend.Effects
import TraceQ.Backend.Exports
import TraceQ.Backend.Frames
import TraceQ.Backend.Histories
import TraceQ.Backend.InsertOrders
import TraceQ.Backend.Invalidations
import TraceQ.Backend.Invariants
import TraceQ.Backend.Projectable
import TraceQ.Backend.ProjectionInputs
import TraceQ.Backend.RebuildViews
import TraceQ.Backend.RoutedBackend
import TraceQ.Backend.RowSources
import TraceQ.Backend.Sources
import TraceQ.Domain.Canonical
import TraceQ.Domain.CanonicalMeaning
import TraceQ.Domain.Contract
import TraceQ.Domain.ContractMeaning
import TraceQ.Domain.ContractRules
import TraceQ.Domain.Events
import TraceQ.Domain.Json
import TraceQ.Domain.JsonSchema
import TraceQ.Domain.JsonValue
import TraceQ.Domain.Validation
import TraceQ.Erp.Emulator
import TraceQ.Ingestion.Appends
import TraceQ.Ingestion.Authentication
import TraceQ.Ingestion.CallMeaning
import TraceQ.Ingestion.CallTraces
import TraceQ.Ingestion.Calls
import TraceQ.Ingestion.Requests
import TraceQ.Ingestion.Service
import TraceQ.Ingestion.ServiceMeaning
import TraceQ.Library.Base64
import TraceQ.Library.ChangeLog
import TraceQ.Library.Draining
import TraceQ.Library.HashChain
import TraceQ.Library.HighWater
import TraceQ.Library.Lockout
import TraceQ.Library.Machine
import TraceQ.Library.Results
import TraceQ.Library.Tables
import TraceQ.Library.Transactions
import TraceQ.Persistence.Models
import TraceQ.Persistence.Seeding
import TraceQ.Persistence.SeedingMeaning
import TraceQ.Projections.Assessments
import TraceQ.Projections.CaseTables
import TraceQ.Projections.Conflicts
import TraceQ.Projections.ItemProjection
import TraceQ.Projections.Linking
import TraceQ.Projections.LinkingMeaning
import TraceQ.Projections.MissingChecks
import TraceQ.Projections.Rebuild
import TraceQ.Projections.RebuildMeaning
import TraceQ.Projections.RebuildOutcome
import TraceQ.Projections.Recovery
import TraceQ.Projections.Replay
import TraceQ.Projections.ReplayMeaning
import TraceQ.Projections.RunMeaning
import TraceQ.Projections.Store
import TraceQ.Projections.StoredRows
import TraceQ.Properties.Acceptance
import TraceQ.Properties.AccountRevocation
import TraceQ.Properties.ActiveRevisions
import TraceQ.Properties.AdminLockout
import TraceQ.Properties.AnalysisBoundary
import TraceQ.Properties.AnalysisHistory
import TraceQ.Properties.ApprovalRaces
import TraceQ.Properties.AuditRedaction
import TraceQ.Properties.BirthWindows
import TraceQ.Properties.BlastRadius
import TraceQ.Properties.BoundedAttempts
import TraceQ.Properties.CanonicalEvents
import TraceQ.Properties.CanonicalForm
import TraceQ.Properties.CanonicalJson
import TraceQ.Properties.Checkpoints
import TraceQ.Properties.CommutingRebuilds
import TraceQ.Properties.ConflictMarks
import TraceQ.Properties.ContractAgreement
import TraceQ.Properties.DecisionChain
import TraceQ.Properties.DecisionRecords
import TraceQ.Properties.DeliveredTerminal
import TraceQ.Properties.DeliveryLedger
import TraceQ.Properties.DeliveryOrder
import TraceQ.Properties.DemoTampering
import TraceQ.Properties.DeviceInvalidation
import TraceQ.Properties.ErpAgreement
import TraceQ.Properties.EvidenceGate
import TraceQ.Properties.FreshAuthentication
import TraceQ.Properties.Idempotence
import TraceQ.Properties.IntegrityChain
import TraceQ.Properties.InvalidationRaces
import TraceQ.Properties.ItemSources
import TraceQ.Properties.KpiRates
import TraceQ.Properties.Lifecycle
import TraceQ.Properties.Lockouts
import TraceQ.Properties.Logout
import TraceQ.Properties.MacFraming
import TraceQ.Properties.MissingCheckRule
import TraceQ.Properties.OccurrenceIdentity
import TraceQ.Properties.OccurrenceLinking
import TraceQ.Properties.Openings
import TraceQ.Properties.OperationContext
import TraceQ.Properties.PermissionTables
import TraceQ.Properties.ProjectableEvents
import TraceQ.Properties.ReadableEvents
import TraceQ.Properties.RecoveryCompleteness
import TraceQ.Properties.Rejection
import TraceQ.Properties.ReleaseGate
import TraceQ.Properties.Reopening
import TraceQ.Properties.RepeatedDeliveries
import TraceQ.Properties.ReplayProtection
import TraceQ.Properties.RequestBodies
import TraceQ.Properties.ReworkVerification
import TraceQ.Properties.RoutePinning
import TraceQ.Properties.RouteRoundTrip
import TraceQ.Properties.SeparationOfDuties
import TraceQ.Properties.SequenceAlerts
import TraceQ.Properties.SourceAdministration
import TraceQ.Properties.Spellings
import TraceQ.Properties.StoredEvidence
import TraceQ.Properties.Tampering
import TraceQ.Properties.TokenRotation
import TraceQ.Properties.VersionPointers
import TraceQ.Quality.BirthWindow
import TraceQ.Quality.Occurrence
import TraceQ.Quality.Release
import TraceQ.Quality.Trust
import TraceQ.Quality.WindowMeaning
import TraceQ.Security.Audit
import TraceQ.Security.Checkpoints
import TraceQ.Security.Crypto
import TraceQ.Security.Framing
import TraceQ.Security.Integrity
import TraceQ.Security.JsonReader
import TraceQ.Security.JsonText
import TraceQ.Security.SessionMeaning
import TraceQ.Security.Sessions
import TraceQ.Worker.Exchange
import TraceQ.Worker.ExchangeMeaning
import TraceQ.Worker.Outbox
import TraceQ.Worker.OutboxMeaning
