import TraceQ.Domain.Validation

/-! # The canonical form of an event

`canonical_event_dict` in `backend/app/domain/events.py`: the model of an event in JSON mode, with all its
fields, under the names and in the order of `shared_contracts/generated/events.py`. How pydantic writes
floats and timestamps is a parameter.
-/
namespace TraceQ
open Security
set_option autoImplicit false
set_option maxHeartbeats 250000

/-! ## Parsed events -/

/-- A validated event; an invalidation still has its timestamps as they were read. -/
structure ParsedEvent where
  incoming : IncomingEvent
  period : Option (Datetime × Datetime) := none

/-- The timestamps of an invalidation. -/
def periodOf (r : Reading) (payload : Payload) (fields : Params) : Option (Datetime × Datetime) :=
  match payload with
  | .controlDeviceInvalidated _ =>
      (invalidationFields r fields).map fun fields => (fields.affectedFrom, fields.affectedTo)
  | _ => none

/-- `validate_event`, with all that `model_dump` writes. -/
def parseEvent (r : Reading) (value : Json) : Except Raised ParsedEvent := do
  let incoming ← validateEvent r value
  match value with
  | .obj fields =>
      let (_, payload) ← normalizeLegacy r fields
      return { incoming := incoming, period := periodOf r incoming.event.payload payload.fields }
  | _ => return { incoming := incoming }

/-! ## `model_dump` -/

/-- How pydantic writes floats and timestamps in JSON mode. -/
structure Writing where
  float : ℚ → String
  datetime : Datetime → String

section Names

def DurationUnit.text : DurationUnit → String
  | .ms => "ms"
  | .s => "s"
  | .min => "min"
  | .h => "h"

def Severity.text : Severity → String
  | .minor => "minor"
  | .major => "major"
  | .critical => "critical"

def RunReason.text : RunReason → String
  | .production => "production"
  | .rework => "rework"

def CompletionStatus.text : CompletionStatus → String
  | .completed => "completed"
  | .failed => "failed"
  | .aborted => "aborted"
  | .interrupted => "interrupted"

def InspectionResult.text : InspectionResult → String
  | .noDefect => "no_defect"
  | .defectDetected => "defect_detected"
  | .impossibleToAssess => "impossible_to_assess"

def ObservationQuality.text : ObservationQuality → String
  | .good => "good"
  | .poor => "poor"
  | .unknown => "unknown"

end Names

/-- An optional field. -/
def dumpOption {α : Type} (dump : α → Json) : Option α → Json
  | none => .null
  | some value => dump value

def dumpTexts (texts : List String) : Json := .arr (texts.map .str)

def InspectionScope.dump : InspectionScope → Json
  | .listing values => .arr values
  | .mapping fields => .obj fields

def SourceRef.dump (source : SourceRef) : Params :=
  [("source_id", .str source.sourceId),
    ("source_type", .str source.sourceType),
    ("sequence", dumpOption (fun sequence : ℕ => .int sequence) source.sequence)]

def Defect.dump (defect : Defect) : Params :=
  [("defect_type", .str defect.defectType),
    ("description", dumpOption .str defect.description),
    ("severity", dumpOption (fun severity => .str severity.text) defect.severity),
    ("component_instance_id", dumpOption .str defect.componentInstanceId)]

section Dump
variable (w : Writing)

def Duration.dump (duration : Duration) : Params :=
  [("value", .decimal (w.float duration.value)),
    ("unit", .str duration.unit.text),
    ("meaning", .str duration.meaning)]

def ItemRegisteredPayload.dump (p : ItemRegisteredPayload) : Params :=
  [("product_definition_id", .str p.productDefinitionId),
    ("revision", .str p.revision),
    ("line_id", dumpOption .str p.lineId),
    ("route_id", dumpOption .str p.routeId),
    ("route_revision", dumpOption (fun revision : ℕ => .int revision) p.routeRevision)]

def OperationStartedPayload.dump (p : OperationStartedPayload) : Params :=
  [("operation_id", .str p.operationId),
    ("operator_id", .str p.operatorId),
    ("equipment_id", .str p.equipmentId),
    ("station_id", .str p.stationId),
    ("parameters", dumpOption .obj p.parameters),
    ("previous_operation_run_id", dumpOption .str p.previousOperationRunId),
    ("run_reason", .str p.runReason.text),
    ("rework_for_nonconformance_id", dumpOption .str p.reworkForNonconformanceId)]

def OperationFinishedPayload.dump (p : OperationFinishedPayload) : Params :=
  [("completion_status", .str p.completionStatus.text),
    ("duration", dumpOption (fun duration => .obj (duration.dump w)) p.duration),
    ("stop_reason", dumpOption .str p.stopReason),
    ("parameters", dumpOption .obj p.parameters)]

def InspectionResultPayload.dump (p : InspectionResultPayload) : Params :=
  [("inspection_result", .str p.inspectionResult.text),
    ("observation_quality", .str p.observationQuality.text),
    ("control_point_id", .str p.controlPointId),
    ("confidence", dumpOption (fun confidence => .decimal (w.float confidence)) p.confidence),
    ("inspection_scope", dumpOption InspectionScope.dump p.inspectionScope),
    ("defects", .arr (p.defects.map fun defect => .obj defect.dump)),
    ("evidence_refs", dumpTexts p.evidenceRefs),
    ("component_instance_id", dumpOption .str p.componentInstanceId),
    ("control_device_id", dumpOption .str p.controlDeviceId),
    ("capture_session_id", dumpOption .str p.captureSessionId)]

def MachineStatePayload.dump (p : MachineStatePayload) : Params :=
  [("equipment_id", .str p.equipmentId),
    ("state", .str p.state),
    ("code", dumpOption .str p.code),
    ("parameters", dumpOption .obj p.parameters)]

def OperatorActionPayload.dump (p : OperatorActionPayload) : Params :=
  [("operator_id", .str p.operatorId),
    ("action_type", .str p.actionType),
    ("parameters", dumpOption .obj p.parameters)]

/-- The timestamps are written with the offsets they were read with. -/
def ControlDeviceInvalidatedPayload.dump (period : Option (Datetime × Datetime))
    (p : ControlDeviceInvalidatedPayload) : Params :=
  [("device_id", .str p.deviceId),
    ("affected_from", dumpOption (fun period => .str (w.datetime period.1)) period),
    ("affected_to", dumpOption (fun period => .str (w.datetime period.2)) period),
    ("reason", .str p.reason),
    ("invalidation_type", dumpOption .str p.invalidationType),
    ("supporting_evidence_refs", dumpTexts p.supportingEvidenceRefs)]

def Payload.dump (period : Option (Datetime × Datetime)) : Payload → Params
  | .itemRegistered p => p.dump
  | .operationStarted p => p.dump
  | .operationFinished p => p.dump w
  | .inspectionResult p => p.dump w
  | .machineState p => p.dump
  | .operatorAction p => p.dump
  | .controlDeviceInvalidated p => p.dump w period

/-- The fields of `canonical_event_dict`. -/
def canonicalFieldsOf (event : ParsedEvent) : Params :=
  let envelope := event.incoming.event
  [("event_id", .str envelope.eventId),
    ("event_type", .str (eventTypeOf envelope.payload)),
    ("schema_version", .str envelope.schemaVersion),
    ("occurred_at", .str (w.datetime event.incoming.occurredAt)),
    ("source", .obj envelope.source.dump),
    ("item_id", dumpOption .str envelope.itemId),
    ("operation_run_id", dumpOption .str envelope.operationRunId),
    ("payload", .obj (envelope.payload.dump w event.period))]

def canonicalEventDict (event : ParsedEvent) : Json := .obj (canonicalFieldsOf w event)

/-- What `ingest_event` hashes and encrypts. -/
def plaintextOf (event : ParsedEvent) : Bytes := canonicalJsonBytes (canonicalEventDict w event)

/-- The `content_hash` of a value that is accepted; SHA-256 is a parameter. -/
def contentHashOf (r : Reading) (sha256Hex : Bytes → String) (value : Json) : Except Raised String := do
  let event ← parseEvent r value
  return sha256Hex (plaintextOf w event)

end Dump

end TraceQ
