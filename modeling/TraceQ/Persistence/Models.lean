import TraceQ.Domain.Events
import TraceQ.Library.Tables

/-! # Tables

The rows of `backend/app/persistence/models.py` that replay, ingestion and the NCR endpoints read
or write, and the database as one record of tables. A table is the list of its rows in insertion
order. Columns holding the wall clock of a rebuild and generated keys nothing refers to are left
out.

Generated UUIDs are drawn from one counter of the database; `uuid5` of an event id is a function
of that id.
-/
namespace TraceQ
set_option autoImplicit false
set_option maxHeartbeats 250000

abbrev Uuid := ℕ

/-- `uuid5(OBSERVATION_NAMESPACE, event_id)`. -/
structure ObservationId where
  eventId : String
deriving DecidableEq, Repr

/-! ## Source records -/

/-- An accepted event. The envelope columns and the decrypted payload are those of `event`. -/
structure RawEvent where
  event : EventEnvelope
  receivedAt : Instant
  ingestSeq : ℕ
  integrityStreamId : String
  integritySeq : ℕ
deriving DecidableEq

namespace RawEvent
abbrev eventId (raw : RawEvent) : String := raw.event.eventId
abbrev itemId (raw : RawEvent) : Option String := raw.event.itemId
abbrev operationRunId (raw : RawEvent) : Option String := raw.event.operationRunId
abbrev occurredAt (raw : RawEvent) : Instant := raw.event.occurredAt
abbrev payload (raw : RawEvent) : Payload := raw.event.payload
end RawEvent

inductive StreamStatus where
  | ok | integrityFailed
deriving DecidableEq, Repr

structure IntegrityStreamState where
  streamId : String
  lastSeq : ℕ := 0
  status : StreamStatus := .ok
deriving DecidableEq

structure ControlDeviceInvalidation where
  sourceEventId : Option String
  deviceId : String
  affectedFrom : Instant
  affectedTo : Instant
  reason : String
  invalidationType : Option String
  supportingEvidenceRefs : List String
  createdByUserId : Option Uuid
deriving DecidableEq

/-! ## Rebuildable state -/

inductive ProjectionStatus where
  | stale | rebuilding | upToDate | failed
deriving DecidableEq, Repr

structure ProjectionState where
  itemId : String
  latestRawIngestSeq : ℕ := 0
  lastProjectedIngestSeq : ℕ := 0
  projectionVersion : ℕ := 0
  status : ProjectionStatus := .stale
  lastError : Option ReplayError := none
deriving DecidableEq

inductive Disposition where
  | inProcess | reworkRequired | released | scrapped | useAsIs
deriving DecidableEq, Repr

inductive StructureStatus where
  | available | degraded
deriving DecidableEq, Repr

structure Item where
  itemId : String
  productDefinitionId : String
  revision : String
  lineId : Option String
  routeRevisionId : Option Uuid
  status : Disposition := .inProcess
  structureStatus : StructureStatus
  registeredAt : Instant
deriving DecidableEq

structure OperationRun where
  operationRunId : String
  itemId : String
  operationId : Option String
  operatorId : Option String
  equipmentId : Option String
  stationId : Option String
  startedAt : Option Instant
  finishedAt : Option Instant
  completionStatus : Option CompletionStatus
  durationValue : Option ℚ
  durationUnit : Option DurationUnit
  durationMeaning : Option String
  previousOperationRunId : Option String
  runReason : RunReason
  reworkForNonconformanceId : Option Uuid
  parameters : Option Params
deriving DecidableEq

inductive TrustStatus where
  | trusted | untrusted | unassessable | conflicted | invalidated
deriving DecidableEq, Repr

inductive TrustReason where
  | inspectionImpossibleToAssess
  | controlDeviceInvalidated
  | equivalentObservationsConflict
  | observationQualityNotAllowed
  | confidenceRequired
  | confidenceBelowThreshold
  | deviceValidityNotConfirmed
  | mediaRequired
deriving DecidableEq, Repr

structure Observation where
  id : ObservationId
  eventId : String
  itemId : String
  operationRunId : Option String
  occurredAt : Instant
  inspectionResult : InspectionResult
  observationQuality : ObservationQuality
  controlPointId : String
  confidence : Option ℚ
  inspectionScope : Option InspectionScope
  componentInstanceId : Option String
  controlDeviceId : Option String
  captureSessionId : Option String
  evidenceRefs : List String
  trustStatus : TrustStatus
  trustReasons : List TrustReason
deriving DecidableEq

structure DefectObservation where
  observationId : ObservationId
  itemId : String
  defectType : String
  componentInstanceId : Option String
  description : Option String
  severity : Option Severity
deriving DecidableEq

structure MachineEvent where
  eventId : String
  itemId : String
  operationRunId : Option String
  equipmentId : String
  state : String
  code : Option String
  occurredAt : Instant
  parameters : Option Params
deriving DecidableEq

structure OperatorAction where
  eventId : String
  itemId : String
  operationRunId : Option String
  operatorId : String
  actionType : String
  occurredAt : Instant
  parameters : Option Params
deriving DecidableEq

/-! ## Occurrences, nonconformances and their analyses -/

/-- The columns an occurrence is matched by, apart from the item. -/
structure DefectKey where
  defectType : String
  componentInstanceId : Option String
deriving DecidableEq

inductive OccurrenceStatus where
  | opened | closed
deriving DecidableEq, Repr

structure DefectOccurrence where
  id : Uuid
  itemId : String
  defectType : String
  componentInstanceId : Option String
  firstObservationId : ObservationId
  currentObservationId : ObservationId
  status : OccurrenceStatus := .opened
  openedAt : Instant
  closedAt : Option Instant := none
deriving DecidableEq

def DefectOccurrence.key (occurrence : DefectOccurrence) : DefectKey :=
  ⟨occurrence.defectType, occurrence.componentInstanceId⟩

inductive Verdict where
  | pendingReview | needsExtraCheck | confirmed | rejected
deriving DecidableEq, Repr

inductive CauseStatus where
  | notEstablished | candidate | confirmedByHuman
deriving DecidableEq, Repr

inductive Containment where
  | none | hold | reinspectionRequired | reviewRequired
deriving DecidableEq, Repr

inductive ResolutionType where
  | rework
deriving DecidableEq, Repr

inductive VerificationStatus where
  | pending | passed | failed
deriving DecidableEq, Repr

structure Nonconformance where
  id : Uuid
  occurrenceId : Uuid
  itemId : String
  defectType : String
  componentInstanceId : Option String
  verdict : Verdict := .pendingReview
  causeStatus : CauseStatus := .notEstablished
  disposition : Disposition := .inProcess
  containment : Containment := .reviewRequired
  openedAt : Instant
  closedAt : Option Instant := Option.none
  currentAnalysisVersion : ℕ := 1
  resolutionType : Option ResolutionType := Option.none
  resolvedAt : Option Instant := Option.none
  verificationDecisionId : Option Uuid := Option.none
  verificationStatus : Option VerificationStatus := Option.none
deriving DecidableEq

def Nonconformance.key (ncr : Nonconformance) : DefectKey :=
  ⟨ncr.defectType, ncr.componentInstanceId⟩

inductive AnalysisStatus where
  | bounded | leftOpen | evidenceInvalidated
deriving DecidableEq, Repr

inductive AnalysisReason where
  | initialDetection | lateEventRebuild | controlDeviceInvalidation
deriving DecidableEq, Repr

structure AnalysisVersion where
  id : Uuid
  nonconformanceId : Uuid
  itemId : String
  version : ℕ
  status : AnalysisStatus
  defectType : String
  componentInstanceId : Option String
  leftBoundaryAt : Option Instant
  rightBoundaryAt : Option Instant
  reason : AnalysisReason
deriving DecidableEq

inductive EvidenceType where
  | firstTrustedDefect | lastTrustedGood | operationInWindow | machineWarning | operatorAction
  | conflictingObservation | deviceValidity | poorObservation | missingCheck
deriving DecidableEq, Repr

inductive EvidenceRole where
  | boundary | context | limitation
deriving DecidableEq, Repr

/-- The `details` dict of each kind of evidence. -/
inductive EvidenceDetails where
  | defect (defectType : String) (componentInstanceId : Option String)
  | lastGood (controlPointId : String)
  | operation (operationRunId : String) (operationId operatorId equipmentId : Option String)
  | machine (equipmentId state : String)
  | action (operatorId actionType : String)
  | trust (trustStatus : TrustStatus) (reasons : List TrustReason)
  | deviceValidity (controlDeviceId : Option String) (reasons : List TrustReason)
  | missingCheck (controlPointId beforeOperationId : String)
deriving DecidableEq

structure AnalysisEvidence where
  analysisVersionId : Uuid
  evidenceType : EvidenceType
  evidenceRole : EvidenceRole
  sourceEventId : Option String
  occurredAt : Option Instant
  details : EvidenceDetails
deriving DecidableEq

/-! ## Human and integration records -/

structure ControllerDecision where
  id : Uuid
  nonconformanceId : Uuid
  userId : Uuid
  verdict : Verdict
  disposition : Disposition
  containment : Containment
  reason : String
  analysisVersion : ℕ
  previousDecisionId : Option Uuid
  createdAt : Instant
deriving DecidableEq

/-- `f"QR-{decision.id}"`. -/
structure MessageId where
  decisionId : Uuid
deriving DecidableEq, Repr

structure QualityPayload where
  messageId : MessageId
  itemId : String
  nonconformanceId : Uuid
  decisionId : Uuid
  verdict : Verdict
  disposition : Disposition
  containment : Containment
  decidedAt : Instant
deriving DecidableEq

structure QualityResult where
  messageId : MessageId
  decisionId : Uuid
  itemId : String
  payload : QualityPayload
deriving DecidableEq

structure OutboxMessage where
  messageId : MessageId
  destination : String
  messageType : String
  payload : QualityPayload
deriving DecidableEq

inductive ProposalStatus where
  | pending | approved | rejected
deriving DecidableEq, Repr

structure ContainmentProposal where
  id : Uuid
  nonconformanceId : Option Uuid
  proposedBy : Uuid
  containment : Containment
  rationale : String
  status : ProposalStatus := .pending
  reviewedBy : Option Uuid := Option.none
  reviewReason : Option String := Option.none
  reviewedAt : Option Instant := Option.none
deriving DecidableEq

/-! ## Configuration -/

structure TrustPolicy where
  policyVersion : ℕ
  controlPointId : String
  allowedObservationQuality : List ObservationQuality
  confidenceRequired : Bool := false
  minConfidence : Option ℚ := none
  requiresValidDevice : Bool := false
  mediaRequired : Bool := false
  active : Bool := true
deriving DecidableEq

structure RouteDefinition where
  id : Uuid
  code : String
  activeRevisionId : Option Uuid
deriving DecidableEq

structure RouteRevision where
  id : Uuid
  routeId : Uuid
  revision : ℕ
deriving DecidableEq

structure RouteStep where
  routeRevisionId : Uuid
  position : ℕ
  operationId : String
  controlPointId : Option String
  requiredInspection : Bool
deriving DecidableEq

structure ProductStructureSnapshot where
  assemblyId : String
  revision : String
deriving DecidableEq

/-- Tables that replay only reads; seeding and the route and structure endpoints write them. -/
structure Configuration where
  trustPolicies : List TrustPolicy := []
  routeDefinitions : List RouteDefinition := []
  routeRevisions : List RouteRevision := []
  routeSteps : List RouteStep := []
  productStructureSnapshots : List ProductStructureSnapshot := []

/-! ## The database -/

/-- The order of the INSERTs of one flush. No `relationship()` ties `DefectObservation` to `Observation`, so
SQLAlchemy sorts the two mappers by the names of their classes; with one it would insert the observations, the
parents, first. -/
inductive InsertOrder where
  | byClassName | parentsFirst
deriving DecidableEq, Repr

structure Database where
  config : Configuration := {}
  /-- How the mapping orders its INSERTs; nothing writes it. -/
  insertOrder : InsertOrder := .byClassName
  rawEvents : List RawEvent := []
  integrityStreamStates : List IntegrityStreamState := []
  controlDeviceInvalidations : List ControlDeviceInvalidation := []
  projectionStates : List ProjectionState := []
  items : List Item := []
  operationRuns : List OperationRun := []
  observations : List Observation := []
  defectObservations : List DefectObservation := []
  machineEvents : List MachineEvent := []
  operatorActions : List OperatorAction := []
  defectOccurrences : List DefectOccurrence := []
  nonconformances : List Nonconformance := []
  analysisVersions : List AnalysisVersion := []
  analysisEvidence : List AnalysisEvidence := []
  controllerDecisions : List ControllerDecision := []
  qualityResults : List QualityResult := []
  outboxMessages : List OutboxMessage := []
  containmentProposals : List ContainmentProposal := []
  /-- The next generated UUID. -/
  nextId : Uuid := 0
  /-- The `Identity()` sequence of `raw_events.ingest_seq`. -/
  nextIngestSeq : ℕ := 1

end TraceQ
