import TraceQ.Domain.JsonSchema

/-! # The canonical event

`contracts/events/canonical-event.schema.json`, its definitions under their names.
-/
namespace TraceQ.Contract
open JsonSchema
set_option autoImplicit false
set_option maxHeartbeats 250000

section Definitions
variable (d : Dialect)

/-- `{"type": "string", "minLength": least, "maxLength": most}`. -/
def string (least most : ℕ) : Schema := allOf [types d [.string], minLength least, maxLength most]

/-- `{"type": ["string", "null"], "maxLength": most}`. -/
def nullableString (most : ℕ) : Schema := allOf [types d [.string, .null], maxLength most]

def texts (values : List String) : List Json := values.map .str

def source : Schema := closedObject d ["source_id", "source_type"]
  [("source_id", string d 1 128),
    ("source_type", string d 1 64),
    ("sequence", allOf [types d [.integer, .null], minimum d 0])]

def duration : Schema := closedObject d ["value", "unit", "meaning"]
  [("value", allOf [types d [.number], minimum d 0]),
    ("unit", enum (texts ["ms", "s", "min", "h"])),
    ("meaning", string d 1 64)]

def defect : Schema := closedObject d ["defect_type"]
  [("defect_type", string d 1 128),
    ("description", nullableString d 2000),
    ("severity", enum (texts ["minor", "major", "critical"] ++ [.null])),
    ("component_instance_id", nullableString d 128)]

def itemRegistered : Schema := closedObject d ["product_definition_id", "revision"]
  [("product_definition_id", allOf [types d [.string], minLength 1]),
    ("revision", allOf [types d [.string], minLength 1]),
    ("line_id", types d [.string, .null]),
    ("route_id", types d [.string, .null]),
    ("route_revision", allOf [types d [.integer, .null], minimum d 1])]

def operationStarted : Schema :=
  closedObject d ["operation_id", "operator_id", "equipment_id", "station_id"]
    [("operation_id", types d [.string]),
      ("operator_id", types d [.string]),
      ("equipment_id", types d [.string]),
      ("station_id", types d [.string]),
      ("parameters", types d [.object, .null]),
      ("previous_operation_run_id", types d [.string, .null]),
      ("run_reason", enum (texts ["production", "rework"])),
      ("rework_for_nonconformance_id", types d [.string, .null])]

def operationFinished : Schema := closedObject d ["completion_status"]
  [("completion_status", enum (texts ["completed", "failed", "aborted", "interrupted"])),
    ("duration", oneOf [duration d, types d [.null]]),
    ("stop_reason", types d [.string, .null]),
    ("parameters", types d [.object, .null])]

def inspectionResult : Schema :=
  closedObject d ["inspection_result", "observation_quality", "control_point_id"]
    [("inspection_result", enum (texts ["no_defect", "defect_detected", "impossible_to_assess"])),
      ("observation_quality", enum (texts ["good", "poor", "unknown"])),
      ("control_point_id", types d [.string]),
      ("confidence", allOf [types d [.number, .null], minimum d 0, maximum d 1]),
      ("inspection_scope", types d [.object, .array, .null]),
      ("defects", allOf [types d [.array], items (defect d)]),
      ("evidence_refs", allOf [types d [.array], items (types d [.string])]),
      ("component_instance_id", types d [.string, .null]),
      ("control_device_id", types d [.string, .null]),
      ("capture_session_id", types d [.string, .null])]

def machineState : Schema := closedObject d ["equipment_id", "state"]
  [("equipment_id", types d [.string]),
    ("state", types d [.string]),
    ("code", types d [.string, .null]),
    ("parameters", types d [.object, .null])]

def operatorAction : Schema := closedObject d ["operator_id", "action_type"]
  [("operator_id", types d [.string]),
    ("action_type", types d [.string]),
    ("parameters", types d [.object, .null])]

def dateTime : Schema := allOf [types d [.string], dateTimeFormat d]

def controlDeviceInvalidated : Schema :=
  closedObject d ["device_id", "affected_from", "affected_to", "reason"]
    [("device_id", string d 1 128),
      ("affected_from", dateTime d),
      ("affected_to", dateTime d),
      ("reason", string d 3 2000),
      ("invalidation_type", nullableString d 64),
      ("supporting_evidence_refs",
        allOf [types d [.array], items (types d [.string]), maxItems 100])]

/-! ## The envelope -/

/-- The definition of the payload of each event type. -/
def payloads : List (String × Schema) :=
  [("item.registered", itemRegistered d),
    ("operation.started", operationStarted d),
    ("operation.finished", operationFinished d),
    ("inspection.result", inspectionResult d),
    ("machine.state", machineState d),
    ("operator.action", operatorAction d),
    ("control_device.invalidated", controlDeviceInvalidated d)]

/-- One `if`/`then` of the envelope. -/
def payloadWhen (eventType : String) (payload : Schema) : Schema :=
  ifThen (properties [("event_type", const (.str eventType))]) (properties [("payload", payload)])

/-- `{"type": ["string", "null"], "minLength": 1, "maxLength": 128}`. -/
def envelopeId : Schema := allOf [types d [.string, .null], minLength 1, maxLength 128]

def envelopeProperties : List (String × Schema) :=
  [("event_id", string d 1 128),
    ("event_type", enum (texts ["item.registered", "operation.started", "operation.finished",
      "inspection.result", "machine.state", "operator.action", "control_device.invalidated"])),
    ("schema_version", const (.str "1.0")),
    ("occurred_at", dateTime d),
    ("source", source d),
    ("item_id", envelopeId d),
    ("operation_run_id", envelopeId d),
    ("payload", types d [.object])]

def canonicalEvent : Schema :=
  allOf
    [closedObject d ["event_id", "event_type", "schema_version", "occurred_at", "source", "payload"]
        (envelopeProperties d),
      allOf ((payloads d).map fun entry => payloadWhen entry.1 entry.2)]

end Definitions

end TraceQ.Contract
