import TraceQ.Domain.Json

/-! # Canonical events

The typed payloads of `shared_contracts/generated/events.py` and the validated envelope of
`backend/app/domain/events.py`. An envelope carries the cross-field rules of its validators, so an
event that `validate_event` refuses cannot be built.

* Instants are microseconds since the epoch in UTC (`timestamptz` keeps no more).
* Floats are the rationals they denote; only comparisons are ever made on them.
* String length limits are not repeated here.
-/
namespace TraceQ
set_option autoImplicit false
set_option maxHeartbeats 250000

abbrev Instant := ℤ

/-- A free-form JSON object. -/
abbrev Params := List (String × Json)

/-! ## Payloads -/

structure SourceRef where
  sourceId : String
  sourceType : String
  sequence : Option ℕ := none
deriving DecidableEq

inductive DurationUnit where
  | ms | s | min | h
deriving DecidableEq, Repr

structure Duration where
  value : ℚ
  unit : DurationUnit
  meaning : String
deriving DecidableEq

inductive Severity where
  | minor | major | critical
deriving DecidableEq, Repr

structure Defect where
  defectType : String
  description : Option String := none
  severity : Option Severity := none
  componentInstanceId : Option String := none
deriving DecidableEq

structure ItemRegisteredPayload where
  productDefinitionId : String
  revision : String
  lineId : Option String := none
  routeId : Option String := none
  routeRevision : Option ℕ := none
deriving DecidableEq

inductive RunReason where
  | production | rework
deriving DecidableEq, Repr

structure OperationStartedPayload where
  operationId : String
  operatorId : String
  equipmentId : String
  stationId : String
  parameters : Option Params := none
  previousOperationRunId : Option String := none
  runReason : RunReason := .production
  reworkForNonconformanceId : Option String := none
deriving DecidableEq

inductive CompletionStatus where
  | completed | failed | aborted | interrupted
deriving DecidableEq, Repr

structure OperationFinishedPayload where
  completionStatus : CompletionStatus
  duration : Option Duration := none
  stopReason : Option String := none
  parameters : Option Params := none
deriving DecidableEq

inductive InspectionResult where
  | noDefect | defectDetected | impossibleToAssess
deriving DecidableEq, Repr

inductive ObservationQuality where
  | good | poor | unknown
deriving DecidableEq, Repr

/-- `dict[str, Any] | list[Any]`, with anything inside. -/
inductive InspectionScope where
  | listing (values : List Json)
  | mapping (fields : Params)
deriving DecidableEq

structure InspectionResultPayload where
  inspectionResult : InspectionResult
  observationQuality : ObservationQuality
  controlPointId : String
  confidence : Option ℚ := none
  inspectionScope : Option InspectionScope := none
  defects : List Defect := []
  evidenceRefs : List String := []
  componentInstanceId : Option String := none
  controlDeviceId : Option String := none
  captureSessionId : Option String := none
  /-- `validate_defects`: defects are listed exactly for `defect_detected`. -/
  validate_defects : inspectionResult = .defectDetected ↔ defects ≠ [] := by decide
deriving DecidableEq

structure MachineStatePayload where
  equipmentId : String
  state : String
  code : Option String := none
  parameters : Option Params := none
deriving DecidableEq

structure OperatorActionPayload where
  operatorId : String
  actionType : String
  parameters : Option Params := none
deriving DecidableEq

structure ControlDeviceInvalidatedPayload where
  deviceId : String
  affectedFrom : Instant
  affectedTo : Instant
  reason : String
  invalidationType : Option String := none
  supportingEvidenceRefs : List String := []
  validate_period : affectedFrom ≤ affectedTo := by decide
deriving DecidableEq

inductive Payload where
  | itemRegistered (payload : ItemRegisteredPayload)
  | operationStarted (payload : OperationStartedPayload)
  | operationFinished (payload : OperationFinishedPayload)
  | inspectionResult (payload : InspectionResultPayload)
  | machineState (payload : MachineStatePayload)
  | operatorAction (payload : OperatorActionPayload)
  | controlDeviceInvalidated (payload : ControlDeviceInvalidatedPayload)
deriving DecidableEq

/-! ## The envelope -/

/-- Event types whose envelope must name an item. -/
def Payload.needsItem : Payload → Bool
  | .itemRegistered _ | .operationStarted _ | .operationFinished _ | .inspectionResult _ => true
  | .machineState _ | .operatorAction _ | .controlDeviceInvalidated _ => false

/-- Event types whose envelope must name an operation run. -/
def Payload.needsRun : Payload → Bool
  | .operationStarted _ | .operationFinished _ => true
  | _ => false

/-- A validated event. Its type is the constructor of its payload. -/
structure EventEnvelope where
  eventId : String
  schemaVersion : String := "1.0"
  occurredAt : Instant
  source : SourceRef
  itemId : Option String := none
  operationRunId : Option String := none
  payload : Payload
  item_required : payload.needsItem = true → truthy itemId = true := by decide
  run_required : payload.needsRun = true → truthy operationRunId = true := by decide
deriving DecidableEq

/-! ## Canonical content -/

mutual
/-- Keys sorted at every level, as `canonical_json_bytes` writes them. -/
def Json.canonical : Json → Json
  | .arr values => .arr (Json.canonicalList values)
  | .obj fields => .obj ((Json.canonicalFields fields).insertionSort fun a b => a.1 ≤ b.1)
  | value => value
def Json.canonicalList : List Json → List Json
  | [] => []
  | value :: rest => value.canonical :: Json.canonicalList rest
def Json.canonicalFields : List (String × Json) → List (String × Json)
  | [] => []
  | (key, value) :: rest => (key, value.canonical) :: Json.canonicalFields rest
end

def canonicalParams (fields : Params) : Params :=
  (Json.canonicalFields fields).insertionSort fun a b => a.1 ≤ b.1

def InspectionScope.canonical : InspectionScope → InspectionScope
  | .listing values => .listing (Json.canonicalList values)
  | .mapping fields => .mapping (canonicalParams fields)

def Payload.canonical : Payload → Payload
  | .operationStarted p => .operationStarted { p with parameters := p.parameters.map canonicalParams }
  | .operationFinished p => .operationFinished { p with parameters := p.parameters.map canonicalParams }
  | .inspectionResult p =>
      .inspectionResult { p with inspectionScope := p.inspectionScope.map InspectionScope.canonical }
  | .machineState p => .machineState { p with parameters := p.parameters.map canonicalParams }
  | .operatorAction p => .operatorAction { p with parameters := p.parameters.map canonicalParams }
  | .itemRegistered p => .itemRegistered p
  | .controlDeviceInvalidated p => .controlDeviceInvalidated p

/-- `content_hash`. A SHA-256 is only ever compared with another one, so the canonical content
stands for its own hash. -/
structure ContentHash where
  eventId : String
  schemaVersion : String
  occurredAt : Instant
  source : SourceRef
  itemId : Option String
  operationRunId : Option String
  payload : Payload
deriving DecidableEq

def EventEnvelope.contentHash (event : EventEnvelope) : ContentHash where
  eventId := event.eventId
  schemaVersion := event.schemaVersion
  occurredAt := event.occurredAt
  source := event.source
  itemId := event.itemId
  operationRunId := event.operationRunId
  payload := event.payload.canonical

/-! ## What an event reports -/

/-- The defects an event lists: none unless it is an `inspection.result`. -/
def Payload.defects : Payload → List Defect
  | .inspectionResult p => p.defects
  | _ => []

end TraceQ
