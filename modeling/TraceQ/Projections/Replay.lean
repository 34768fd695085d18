import TraceQ.Quality.BirthWindow

/-! # Replaying the history of an item

The reading half of `rebuild_item` in `backend/app/projections/rebuild.py`: the stored events of
one item in business order are folded into projected values, observations get their trust, and
opposing equivalent observations lose it again. Nothing here writes to the database.
-/
namespace TraceQ.Projections
open Quality Tables
set_option autoImplicit false
set_option maxHeartbeats 250000

/-! ## Business order -/

/-- `occurred_at, source_id, source_sequence NULLS LAST, received_at, event_id`. -/
def businessKey (raw : RawEvent) : Instant ×ₗ String ×ₗ WithTop ℕ ×ₗ Instant ×ₗ String :=
  toLex (raw.occurredAt, toLex (raw.event.source.sourceId,
    toLex ((raw.event.source.sequence : WithTop ℕ), toLex (raw.receivedAt, raw.eventId))))

/-- The stored events of an item. -/
def storedEvents (db : Database) (itemId : String) : List RawEvent :=
  db.rawEvents.filter fun raw => decide (raw.itemId = some itemId)

/-- The stored events of an item in business order. -/
def history (db : Database) (itemId : String) : List RawEvent :=
  (storedEvents db itemId).insertionSort fun a b => businessKey a ≤ businessKey b

/-! ## Trust of one observation -/

/-- `_trust_policy`: the newest active policy of the control point, or the default one. -/
def trustPolicy (config : Configuration) (controlPointId : String) : TrustPolicyValue :=
  match latestBy (·.policyVersion) (config.trustPolicies.filter fun policy =>
      decide (policy.controlPointId = controlPointId) && policy.active) with
  | none => {}
  | some policy =>
      { allowedObservationQuality := policy.allowedObservationQuality
        confidenceRequired := policy.confidenceRequired
        minConfidence := policy.minConfidence
        requiresValidDevice := policy.requiresValidDevice
        mediaRequired := policy.mediaRequired }

/-- Whether the invalidation covers the device at that time. -/
def invalidationCovers (record : ControlDeviceInvalidation) (deviceId : Option String)
    (time : Instant) : Bool :=
  decide (deviceId = some record.deviceId) &&
    (decide (record.affectedFrom ≤ time) && decide (time ≤ record.affectedTo))

/-- An observation without a device, or with an empty device id, is never invalidated. -/
def deviceInvalidated (invalidations : List ControlDeviceInvalidation) (deviceId : Option String)
    (time : Instant) : Bool :=
  truthy deviceId && invalidations.any fun record => invalidationCovers record deviceId time

def observationValue (db : Database) (raw : RawEvent) (payload : InspectionResultPayload) :
    ObservationValue :=
  let trust := evaluateTrust payload (trustPolicy db.config payload.controlPointId) true
    (deviceInvalidated db.controlDeviceInvalidations payload.controlDeviceId raw.occurredAt)
  { payload := payload
    itemId := raw.itemId
    operationRunId := raw.operationRunId
    eventId := raw.eventId
    occurredAt := raw.occurredAt
    trustStatus := trust.status
    trustReasons := trust.reasons }

/-! ## The fold over the events -/

/-- `{**payload, "registered_at": occurred_at}`. -/
structure ItemValue where
  payload : ItemRegisteredPayload
  registeredAt : Instant

/-- The local collections of `rebuild_item`. -/
structure ReplayValues where
  item : Option ItemValue := none
  operations : List OperationValue := []
  observations : List ObservationValue := []
  machineEvents : List MachineValue := []
  operatorActions : List ActionValue := []

/-- The update of a run by its `operation.started`. -/
def startRun (raw : RawEvent) (payload : OperationStartedPayload) (run : OperationValue) :
    OperationValue :=
  { run with
    operationId := some payload.operationId
    operatorId := some payload.operatorId
    equipmentId := some payload.equipmentId
    stationId := some payload.stationId
    parameters := payload.parameters
    previousOperationRunId := payload.previousOperationRunId
    runReason := payload.runReason
    reworkForNonconformanceId := payload.reworkForNonconformanceId
    startedAt := some raw.occurredAt
    sourceEventId := some raw.eventId }

/-- The update of a run by its `operation.finished`. -/
def finishRun (raw : RawEvent) (payload : OperationFinishedPayload) (run : OperationValue) :
    OperationValue :=
  { run with
    finishedAt := some raw.occurredAt
    completionStatus := some payload.completionStatus
    duration := payload.duration
    finishParameters := payload.parameters
    sourceEventId := some raw.eventId }

/-- Update the run the event names; `required_envelope_ids` makes sure it names one. -/
def updateRun (raw : RawEvent) (f : OperationValue → OperationValue) (runs : List OperationValue) :
    List OperationValue :=
  match raw.operationRunId with
  | none => runs
  | some runId => upsert (·.operationRunId) runId { operationRunId := runId } f runs

def replayEvent (db : Database) (values : ReplayValues) (raw : RawEvent) : ReplayValues :=
  match raw.payload with
  | .itemRegistered payload => { values with item := some ⟨payload, raw.occurredAt⟩ }
  | .operationStarted payload =>
      { values with operations := updateRun raw (startRun raw payload) values.operations }
  | .operationFinished payload =>
      { values with operations := updateRun raw (finishRun raw payload) values.operations }
  | .inspectionResult payload =>
      { values with observations := values.observations ++ [observationValue db raw payload] }
  | .machineState payload =>
      { values with machineEvents := values.machineEvents ++
          [⟨payload, raw.operationRunId, raw.eventId, raw.occurredAt⟩] }
  | .operatorAction payload =>
      { values with operatorActions := values.operatorActions ++
          [⟨payload, raw.operationRunId, raw.eventId, raw.occurredAt⟩] }
  | .controlDeviceInvalidated _ => values

/-! ## Conflicts -/

/-- `int(occurred_at.timestamp() // 300)`, in exact arithmetic. Rounding `timestamp()` to a double
moves no instant across a bucket edge before the year 2500. -/
def timeBucket (time : Instant) : ℤ := time / 300000000

/-- The group an observation is compared in: its capture session, or else its five-minute bucket,
at its control point and component. -/
def conflictKey (obs : ObservationValue) : (String ⊕ ℤ) × String × Option String :=
  (match obs.payload.captureSessionId with
    | none => .inr (timeBucket obs.occurredAt)
    | some session => if session.isEmpty then .inr (timeBucket obs.occurredAt) else .inl session,
    obs.payload.controlPointId, obs.payload.componentInstanceId)

def conflictGroup (observations : List ObservationValue) (obs : ObservationValue) :
    List ObservationValue :=
  observations.filter fun other => decide (conflictKey other = conflictKey obs)

/-- More than one inspection result in the group. -/
def opposed (group : List ObservationValue) : Bool :=
  decide (1 < (group.map (·.payload.inspectionResult)).dedup.length)

def markConflicts (observations : List ObservationValue) : List ObservationValue :=
  observations.map fun obs =>
    if opposed (conflictGroup observations obs) then
      { obs with
        trustStatus := .conflicted
        trustReasons := [.equivalentObservationsConflict] }
    else obs

/-- The values `rebuild_item` holds when it starts writing. -/
def replay (db : Database) (itemId : String) : ReplayValues :=
  let values := (history db itemId).foldl (replayEvent db) {}
  { values with observations := markConflicts values.observations }

/-! ## Missing checks -/

/-- `operations.get(operation_id)` in the dict built from all runs: the last run wins. -/
def operationNamed (operations : List OperationValue) (operationId : String) :
    Option OperationValue :=
  (operations.filter fun run => decide (run.operationId = some operationId)).getLast?

/-- The limitation for one required step, if the next operation started without its inspection. -/
def missingCheck (operations : List OperationValue) (observations : List ObservationValue)
    (step next : RouteStep) : Option EvidenceValue := do
  let controlPoint ← step.controlPointId
  if ¬ step.requiredInspection ∨ controlPoint.isEmpty then none
  let nextRun ← operationNamed operations next.operationId
  let startedAt ← nextRun.startedAt
  let lower := (operationNamed operations step.operationId).bind (·.finishedAt)
  let present := observations.any fun obs =>
    decide (obs.payload.controlPointId = controlPoint) &&
      (lower.all (fun bound => decide (bound ≤ obs.occurredAt)) && decide (obs.occurredAt ≤ startedAt))
  if present then none
  else some ⟨.missingCheck, .limitation, none, some startedAt,
    .missingCheck controlPoint next.operationId⟩

def missingCheckLimitations (config : Configuration) (item : Option Item)
    (operations : List OperationValue) (observations : List ObservationValue) :
    List EvidenceValue :=
  match item.bind (·.routeRevisionId) with
  | none => []
  | some revisionId =>
      let steps := (config.routeSteps.filter fun step =>
        decide (step.routeRevisionId = revisionId)).insertionSort fun a b => a.position ≤ b.position
      (steps.zip steps.tail).filterMap fun pair =>
        missingCheck operations observations pair.1 pair.2

/-! ## Defect sightings -/

/-- The nested loops over defect observations and their defects, flattened in order. -/
def sightings (observations : List ObservationValue) : List Sighting :=
  (observations.filter fun obs => decide (obs.payload.inspectionResult = .defectDetected)).flatMap
    fun obs => obs.payload.defects.map fun defect => ⟨obs, defect⟩

end TraceQ.Projections
