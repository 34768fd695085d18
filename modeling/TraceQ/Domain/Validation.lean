import TraceQ.Library.Tables
import TraceQ.Security.Integrity

/-! # Validating an event

`_normalize_legacy` and `validate_event` in `backend/app/domain/events.py` with the field rules of
`shared_contracts/generated/events.py`. How pydantic reads numbers and timestamps, and the text of its
error details, are parameters.
-/
namespace TraceQ
open Security Tables
set_option autoImplicit false
set_option maxHeartbeats 250000

/-! ## Errors -/

structure TraceQError where
  code : String
  message : String
  statusCode : ℕ := 400
deriving DecidableEq

/-- Exceptions that nothing handles. -/
inductive PyException where
  | typeError | valueError | attributeError | integrityError | dataError
deriving DecidableEq, Repr

inductive Raised where
  | refused (error : TraceQError)
  | crashed (exception : PyException)
deriving DecidableEq

/-- What a pydantic model raises: `ValidationError`, or what a validator lets through. -/
inductive Failure where
  | validation | typeError
deriving DecidableEq

/-! ## Reading scalars -/

/-- A dict made from a payload; keys that are no strings are only counted. -/
structure LegacyPayload where
  fields : Params := []
  otherKeys : Bool := false

/-- What pydantic and Python make of JSON scalars, and what pydantic says about errors. -/
structure Reading where
  /-- The float of a decimal literal. -/
  decimal : String → ℚ
  readInt : Json → Option ℤ
  readFloat : Json → Option ℚ
  readDatetime : Json → Option Datetime
  payloadDetails : String → LegacyPayload → String
  envelopeDetails : Params → String

section Fields
variable {α : Type}

def text (minLength maxLength : ℕ) : Json → Option String
  | .str value => if minLength ≤ value.length ∧ value.length ≤ maxLength then some value else none
  | _ => none

def anyText : Json → Option String
  | .str value => some value
  | _ => none

def literal (values : List (String × α)) : Json → Option α
  | .str value => values.lookup value
  | _ => none

def anyMapping : Json → Option Params
  | .obj fields => some fields
  | _ => none

def atLeast (least : ℤ) (value : ℤ) : Option ℕ := if least ≤ value then some value.toNat else none

def nullable (read : Json → Option α) : Json → Option (Option α)
  | .null => some none
  | value => (read value).map some

def listOf (read : Json → Option α) : Json → Option (List α)
  | .arr values => values.mapM read
  | _ => none

/-- `extra="forbid"`. -/
def onlyKeys (allowed : List String) (fields : Params) : Bool :=
  fields.all fun field => allowed.contains field.1

def model (allowed : List String) (read : Params → Option α) : Json → Option α
  | .obj fields => if onlyKeys allowed fields then read fields else none
  | _ => none

def required (fields : Params) (key : String) (read : Json → Option α) : Option α :=
  (fields.lookup key).bind read

def optional (fields : Params) (key : String) (default : α) (read : Json → Option α) : Option α :=
  match fields.lookup key with
  | none => some default
  | some value => read value

end Fields

/-! ## The models -/

section Models
variable (r : Reading) (fields : Params)

def sourceRef : Option SourceRef := do
  return {
    sourceId := ← required fields "source_id" (text 1 128)
    sourceType := ← required fields "source_type" (text 1 64)
    sequence := ← optional fields "sequence" none (nullable fun value => r.readInt value >>= atLeast 0) }

def duration : Option Duration := do
  let value ← required fields "value" r.readFloat
  guard (0 ≤ value)
  return {
    value := value
    unit := ← required fields "unit" (literal [("ms", .ms), ("s", .s), ("min", .min), ("h", .h)])
    meaning := ← required fields "meaning" (text 1 64) }

def defect : Option Defect := do
  return {
    defectType := ← required fields "defect_type" (text 1 128)
    description := ← optional fields "description" none (nullable (text 0 2000))
    severity := ← optional fields "severity" none
      (nullable (literal [("minor", .minor), ("major", .major), ("critical", .critical)]))
    componentInstanceId := ← optional fields "component_instance_id" none (nullable (text 0 128)) }

def itemRegistered : Option ItemRegisteredPayload := do
  return {
    productDefinitionId := ← required fields "product_definition_id" (text 1 128)
    revision := ← required fields "revision" (text 1 64)
    lineId := ← optional fields "line_id" none (nullable (text 0 128))
    routeId := ← optional fields "route_id" none (nullable (text 0 128))
    routeRevision := ← optional fields "route_revision" none
      (nullable fun value => r.readInt value >>= atLeast 1) }

def operationStarted : Option OperationStartedPayload := do
  return {
    operationId := ← required fields "operation_id" (text 1 128)
    operatorId := ← required fields "operator_id" (text 1 128)
    equipmentId := ← required fields "equipment_id" (text 1 128)
    stationId := ← required fields "station_id" (text 1 128)
    parameters := ← optional fields "parameters" none (nullable anyMapping)
    previousOperationRunId :=
      ← optional fields "previous_operation_run_id" none (nullable (text 0 128))
    runReason := ← optional fields "run_reason" .production
      (literal [("production", .production), ("rework", .rework)])
    reworkForNonconformanceId :=
      ← optional fields "rework_for_nonconformance_id" none (nullable anyText) }

def operationFinished : Option OperationFinishedPayload := do
  return {
    completionStatus := ← required fields "completion_status" (literal
      [("completed", .completed), ("failed", .failed), ("aborted", .aborted),
        ("interrupted", .interrupted)])
    duration := ← optional fields "duration" none
      (nullable (model ["value", "unit", "meaning"] (duration r)))
    stopReason := ← optional fields "stop_reason" none (nullable (text 0 1000))
    parameters := ← optional fields "parameters" none (nullable anyMapping) }

def inspectionScope : Json → Option InspectionScope
  | .obj fields => some (.mapping fields)
  | .arr values => some (.listing values)
  | _ => none

def confidence (value : Json) : Option ℚ := do
  let confidence ← r.readFloat value
  guard (0 ≤ confidence ∧ confidence ≤ 1)
  return confidence

/-- `list[str]` of at most 100. -/
def references (value : Json) : Option (List String) := do
  let values ← listOf anyText value
  guard (values.length ≤ 100)
  return values

def inspectionResult : Option InspectionResultPayload := do
  let result ← required fields "inspection_result" (literal
    [("no_defect", .noDefect), ("defect_detected", .defectDetected),
      ("impossible_to_assess", .impossibleToAssess)])
  let quality ← required fields "observation_quality"
    (literal [("good", .good), ("poor", .poor), ("unknown", .unknown)])
  let controlPointId ← required fields "control_point_id" (text 1 128)
  let confidence ← optional fields "confidence" none (nullable (confidence r))
  let scope ← optional fields "inspection_scope" none (nullable inspectionScope)
  let defects ← optional fields "defects" [] (listOf (model
    ["defect_type", "description", "severity", "component_instance_id"] defect))
  let evidenceRefs ← optional fields "evidence_refs" [] references
  let componentInstanceId ← optional fields "component_instance_id" none (nullable (text 0 128))
  let controlDeviceId ← optional fields "control_device_id" none (nullable (text 0 128))
  let captureSessionId ← optional fields "capture_session_id" none (nullable (text 0 128))
  if h : result = .defectDetected ↔ defects ≠ [] then
    some {
      inspectionResult := result
      observationQuality := quality
      controlPointId := controlPointId
      confidence := confidence
      inspectionScope := scope
      defects := defects
      evidenceRefs := evidenceRefs
      componentInstanceId := componentInstanceId
      controlDeviceId := controlDeviceId
      captureSessionId := captureSessionId
      validate_defects := h }
  else none

def machineState : Option MachineStatePayload := do
  return {
    equipmentId := ← required fields "equipment_id" (text 1 128)
    state := ← required fields "state" (text 1 64)
    code := ← optional fields "code" none (nullable (text 0 64))
    parameters := ← optional fields "parameters" none (nullable anyMapping) }

def operatorAction : Option OperatorActionPayload := do
  return {
    operatorId := ← required fields "operator_id" (text 1 128)
    actionType := ← required fields "action_type" (text 1 64)
    parameters := ← optional fields "parameters" none (nullable anyMapping) }

/-- The fields of `ControlDeviceInvalidatedPayload` before `validate_period`. -/
structure InvalidationFields where
  deviceId : String
  affectedFrom : Datetime
  affectedTo : Datetime
  reason : String
  invalidationType : Option String
  supportingEvidenceRefs : List String

def invalidationFields : Option InvalidationFields := do
  return {
    deviceId := ← required fields "device_id" (text 1 128)
    affectedFrom := ← required fields "affected_from" r.readDatetime
    affectedTo := ← required fields "affected_to" r.readDatetime
    reason := ← required fields "reason" (text 3 2000)
    invalidationType := ← optional fields "invalidation_type" none (nullable (text 0 64))
    supportingEvidenceRefs := ← optional fields "supporting_evidence_refs" [] references }

/-- One timestamp has an offset and the other none; Python does not compare such a pair. -/
def InvalidationFields.mixed (p : InvalidationFields) : Bool :=
  p.affectedFrom.offset.isSome != p.affectedTo.offset.isSome

def validatePeriod (p : InvalidationFields) : Except Failure ControlDeviceInvalidatedPayload :=
  if p.mixed then .error .typeError
  else if h : p.affectedFrom.instant ≤ p.affectedTo.instant then
    .ok {
      deviceId := p.deviceId
      affectedFrom := p.affectedFrom.instant
      affectedTo := p.affectedTo.instant
      reason := p.reason
      invalidationType := p.invalidationType
      supportingEvidenceRefs := p.supportingEvidenceRefs
      validate_period := h }
  else .error .validation

end Models

def checked {α : Type} (read : Option α) : Except Failure α :=
  match read with
  | some value => .ok value
  | none => .error .validation

/-- A payload model: the keys it knows and what it reads from them. -/
structure PayloadModel where
  keys : List String
  read : Reading → Params → Except Failure Payload

/-- `PAYLOAD_MODELS`. -/
def payloadModels : List (String × PayloadModel) :=
  [("item.registered",
      { keys := ["product_definition_id", "revision", "line_id", "route_id", "route_revision"]
        read := fun r fields => .itemRegistered <$> checked (itemRegistered r fields) }),
    ("operation.started",
      { keys := ["operation_id", "operator_id", "equipment_id", "station_id", "parameters",
          "previous_operation_run_id", "run_reason", "rework_for_nonconformance_id"]
        read := fun _ fields => .operationStarted <$> checked (operationStarted fields) }),
    ("operation.finished",
      { keys := ["completion_status", "duration", "stop_reason", "parameters"]
        read := fun r fields => .operationFinished <$> checked (operationFinished r fields) }),
    ("inspection.result",
      { keys := ["inspection_result", "observation_quality", "control_point_id", "confidence",
          "inspection_scope", "defects", "evidence_refs", "component_instance_id",
          "control_device_id", "capture_session_id"]
        read := fun r fields => .inspectionResult <$> checked (inspectionResult r fields) }),
    ("machine.state",
      { keys := ["equipment_id", "state", "code", "parameters"]
        read := fun _ fields => .machineState <$> checked (machineState fields) }),
    ("operator.action",
      { keys := ["operator_id", "action_type", "parameters"]
        read := fun _ fields => .operatorAction <$> checked (operatorAction fields) }),
    ("control_device.invalidated",
      { keys := ["device_id", "affected_from", "affected_to", "reason", "invalidation_type",
          "supporting_evidence_refs"]
        read := fun r fields => do
          let payload ← checked (invalidationFields r fields)
          .controlDeviceInvalidated <$> validatePeriod payload })]

/-- `SCHEMA_REGISTRY`. -/
def schemaRegistry : List (String × String) :=
  [("control_device.invalidated", "1.0"), ("inspection.result", "1.0"), ("item.registered", "1.0"),
    ("machine.state", "1.0"), ("operation.finished", "1.0"), ("operation.started", "1.0"),
    ("operator.action", "1.0")]

/-- `EventEnvelope.model_validate` with a payload that is already a model. -/
def envelope (r : Reading) (candidate : Params) (payload : Payload) : Option IncomingEvent := do
  guard (onlyKeys ["event_id", "event_type", "schema_version", "occurred_at", "source", "item_id",
    "operation_run_id", "payload"] candidate)
  let eventId ← required candidate "event_id" (text 1 128)
  let _ ← required candidate "event_type" (text 1 64)
  let schemaVersion ← required candidate "schema_version" (text 1 16)
  let occurredAt ← required candidate "occurred_at" r.readDatetime
  let source ← required candidate "source" (model ["source_id", "source_type", "sequence"] (sourceRef r))
  let itemId ← optional candidate "item_id" none (nullable (text 0 128))
  let operationRunId ← optional candidate "operation_run_id" none (nullable (text 0 128))
  if hitem : payload.needsItem = true → truthy itemId = true then
    if hrun : payload.needsRun = true → truthy operationRunId = true then
      some {
        event := {
          eventId := eventId
          schemaVersion := schemaVersion
          occurredAt := occurredAt.instant
          source := source
          itemId := itemId
          operationRunId := operationRunId
          payload := payload
          item_required := hitem
          run_required := hrun }
        occurredAt := occurredAt
        same_instant := rfl }
    else none
  else none

/-! ## Python values -/

/-- `fields.get(key)`. -/
def getField (fields : Params) (key : String) : Json := (fields.lookup key).getD .null

/-- `fields.pop(key)`. -/
def popField (fields : Params) (key : String) : Params := fields.filter fun field => field.1 ≠ key

/-- `fields[key] = value`. -/
def setField (fields : Params) (key : String) (value : Json) : Params :=
  upsert (·.1) key (key, value) (fun _ => (key, value)) fields

def Json.hashable : Json → Bool
  | .arr _ => false
  | .obj _ => false
  | _ => true

def Json.truthy (r : Reading) : Json → Bool
  | .null => false
  | .bool value => value
  | .int value => decide (value ≠ 0)
  | .decimal token => decide (r.decimal token ≠ 0)
  | .str text => !text.isEmpty
  | .arr values => !values.isEmpty
  | .obj fields => !fields.isEmpty

/-- The number a value equals in Python. -/
def Json.number (r : Reading) : Json → Option ℚ
  | .bool value => some (if value then 1 else 0)
  | .int value => some value
  | .decimal token => some (r.decimal token)
  | _ => none

mutual
/-- `a == b`. -/
def pyEq (r : Reading) : Json → Json → Bool
  | .arr xs, .arr ys => pyEqList r xs ys
  | .obj xs, .obj ys => decide (xs.length = ys.length) && pyEqFields r xs ys
  | .str a, .str b => decide (a = b)
  | .null, .null => true
  | a, b => (a.number r).isSome && decide (a.number r = b.number r)
def pyEqList (r : Reading) : List Json → List Json → Bool
  | [], [] => true
  | x :: xs, y :: ys => pyEq r x y && pyEqList r xs ys
  | _, _ => false
def pyEqFields (r : Reading) : Params → Params → Bool
  | [], _ => true
  | (key, value) :: rest, ys =>
      (match ys.lookup key with
        | some other => pyEq r value other
        | none => false) && pyEqFields r rest ys
end

/-- One element of a sequence given to `dict`. -/
def dictEntry : Json → Except Raised (Json × Json)
  | .arr [key, value] => .ok (key, value)
  | .arr _ => .error (.crashed .valueError)
  | .str text =>
      match text.toList with
      | [key, value] => .ok (.str (String.singleton key), .str (String.singleton value))
      | _ => .error (.crashed .valueError)
  | .obj [(key, _), (value, _)] => .ok (.str key, .str value)
  | .obj _ => .error (.crashed .valueError)
  | _ => .error (.crashed .typeError)

def dictInsert (dict : LegacyPayload) (entry : Json) : Except Raised LegacyPayload := do
  let (key, value) ← dictEntry entry
  match key with
  | .str key => return { dict with fields := setField dict.fields key value }
  | key => if key.hashable then return { dict with otherKeys := true } else throw (.crashed .typeError)

/-- `dict(value)` of a truthy value. -/
def dictOf : Json → Except Raised LegacyPayload
  | .obj fields => .ok { fields := fields }
  | .arr entries => entries.foldlM dictInsert {}
  | .str _ => .error (.crashed .valueError)
  | _ => .error (.crashed .typeError)

/-! ## `validate_event` -/

section Validate
variable (r : Reading)

def schemaError (message : String) : TraceQError :=
  ⟨"EVENT_SCHEMA_VALIDATION_ERROR", message, 422⟩

/-- One of the envelope keys that old payloads carry; the envelope, then the payload. -/
def normalizeKey (state : Params × LegacyPayload) (key : String) :
    Except Raised (Params × LegacyPayload) :=
  let legacy := getField state.2.fields key
  let payload := { state.2 with fields := popField state.2.fields key }
  if legacy = .null then .ok (state.1, payload)
  else if getField state.1 key = .null then .ok (setField state.1 key legacy, payload)
  else if pyEq r (getField state.1 key) legacy then .ok (state.1, payload)
  else .error (.refused (schemaError (key ++ " differs between envelope and legacy payload")))

def normalizeDuration (payload : LegacyPayload) : LegacyPayload :=
  match payload.fields.lookup "duration_seconds", payload.fields.lookup "duration" with
  | some value, none =>
      { payload with
        fields := setField (popField payload.fields "duration_seconds") "duration"
          (.obj [("value", value), ("unit", .str "s"), ("meaning", .str "active_processing")]) }
  | _, _ => payload

def normalizeLegacy (fields : Params) : Except Raised (Params × LegacyPayload) := do
  let payload ← if (getField fields "payload").truthy r then dictOf (getField fields "payload") else pure {}
  let (candidate, payload) ← ["item_id", "operation_run_id"].foldlM (normalizeKey r) (fields, payload)
  return (candidate, normalizeDuration payload)

def validationError (details : String) : Raised :=
  .refused (schemaError ("Event validation failed: " ++ details))

/-- `PAYLOAD_MODELS[event_type].model_validate`. -/
def validatePayload (eventType : String) (model : PayloadModel) (payload : LegacyPayload) :
    Except Raised Payload :=
  let invalid := validationError (r.payloadDetails eventType payload)
  if payload.otherKeys || !onlyKeys model.keys payload.fields then .error invalid
  else match model.read r payload.fields with
    | .ok value => .ok value
    | .error .validation => .error invalid
    | .error .typeError => .error (.crashed .typeError)

def validateEnvelope (candidate : Params) (payload : Payload) : Except Raised IncomingEvent :=
  match envelope r (setField candidate "payload" .null) payload with
  | some event => .ok event
  | none => .error (validationError (r.envelopeDetails candidate))

def unsupportedType : TraceQError := ⟨"UNSUPPORTED_EVENT_TYPE", "Unsupported event type", 422⟩

def unsupportedVersion : TraceQError :=
  ⟨"UNSUPPORTED_SCHEMA_VERSION", "Unsupported event schema version", 422⟩

/-- The checks of an event whose type and version are registered. -/
def validateFields (eventType : String) (model : PayloadModel) (fields : Params) :
    Except Raised IncomingEvent := do
  let (candidate, payload) ← normalizeLegacy r fields
  let payload ← validatePayload r eventType model payload
  validateEnvelope r candidate payload

/-- `event_type not in SUPPORTED_EVENT_TYPES`, where the types are those with a model. -/
def registeredType : Json → Except Raised (String × PayloadModel)
  | .str eventType =>
      match payloadModels.lookup eventType with
      | some model =>
          if schemaRegistry.any fun entry => entry.1 == eventType then .ok (eventType, model)
          else .error (.refused unsupportedType)
      | none => .error (.refused unsupportedType)
  | value => if value.hashable then .error (.refused unsupportedType) else .error (.crashed .typeError)

/-- `(event_type, version) not in SCHEMA_REGISTRY`. -/
def registeredVersion (eventType : String) : Json → Except Raised Unit
  | .str version =>
      if schemaRegistry.contains (eventType, version) then .ok () else .error (.refused unsupportedVersion)
  | value => if value.hashable then .error (.refused unsupportedVersion) else .error (.crashed .typeError)

def validateEvent : Json → Except Raised IncomingEvent
  | .obj fields => do
      let (eventType, model) ← registeredType (getField fields "event_type")
      registeredVersion eventType (getField fields "schema_version")
      validateFields r eventType model fields
  | _ => .error (.refused ⟨"INVALID_EVENT", "Event must be a JSON object", 422⟩)

end Validate

end TraceQ
