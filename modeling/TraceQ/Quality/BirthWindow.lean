import TraceQ.Quality.Trust

/-! # Defect birth window

`backend/app/quality/birth_window.py`, with the projected values it is given. The window of a
trusted defect ends at the defect and starts after the latest capable trusted GOOD before it.
-/
namespace TraceQ.Quality
open Tables
set_option autoImplicit false
set_option maxHeartbeats 250000

/-! ## Projected values -/

/-- A projected observation: the payload with its envelope columns and its derived trust. -/
structure ObservationValue where
  payload : InspectionResultPayload
  itemId : Option String
  operationRunId : Option String
  eventId : String
  occurredAt : Instant
  trustStatus : TrustStatus
  trustReasons : List TrustReason
deriving DecidableEq

/-- The dict of one operation run; a key that is absent reads as `none`. -/
structure OperationValue where
  operationRunId : String
  operationId : Option String := none
  operatorId : Option String := none
  equipmentId : Option String := none
  stationId : Option String := none
  parameters : Option Params := none
  previousOperationRunId : Option String := none
  runReason : RunReason := .production
  reworkForNonconformanceId : Option String := none
  startedAt : Option Instant := none
  finishedAt : Option Instant := none
  completionStatus : Option CompletionStatus := none
  duration : Option Duration := none
  finishParameters : Option Params := none
  sourceEventId : Option String := none
deriving DecidableEq

structure MachineValue where
  payload : MachineStatePayload
  operationRunId : Option String
  eventId : String
  occurredAt : Instant
deriving DecidableEq

structure ActionValue where
  payload : OperatorActionPayload
  operationRunId : Option String
  eventId : String
  occurredAt : Instant
deriving DecidableEq

structure EvidenceValue where
  evidenceType : EvidenceType
  evidenceRole : EvidenceRole
  sourceEventId : Option String
  occurredAt : Option Instant
  details : EvidenceDetails
deriving DecidableEq

/-- One defect of one defect observation, with the component it is attributed to. -/
structure Sighting where
  observation : ObservationValue
  defect : Defect
deriving DecidableEq

namespace Sighting

/-- `defect.get("component_instance_id") or obs.get("component_instance_id")`. -/
def component (sighting : Sighting) : Option String :=
  pyOr sighting.defect.componentInstanceId sighting.observation.payload.componentInstanceId

def key (sighting : Sighting) : DefectKey := ⟨sighting.defect.defectType, sighting.component⟩

def occurredAt (sighting : Sighting) : Instant := sighting.observation.occurredAt

end Sighting

/-- Everything an analysis looks at besides the defect itself. -/
structure AnalysisContext where
  observations : List ObservationValue
  operations : List OperationValue
  machineEvents : List MachineValue
  operatorActions : List ActionValue
  limitations : List EvidenceValue

/-! ## Boundaries -/

/-- Whether `obs` is a capable trusted GOOD before the defect. -/
def isCandidate (key : DefectKey) (defectTime : Instant) (obs : ObservationValue) :
    Except ReplayError Bool :=
  if obs.occurredAt < defectTime ∧ obs.trustStatus = .trusted ∧
      obs.payload.inspectionResult = .noDefect then do
    let covers ← scopeCovers obs.payload.inspectionScope key.defectType key.componentInstanceId
    return covers && decide (obs.payload.componentInstanceId = none ∨
      obs.payload.componentInstanceId = key.componentInstanceId ∨ key.componentInstanceId = none)
  else .ok false

/-- The candidates in order; a scope that cannot be searched aborts the whole comprehension. -/
def candidates (key : DefectKey) (defectTime : Instant) :
    List ObservationValue → Except ReplayError (List ObservationValue)
  | [] => .ok []
  | obs :: rest => do
      let keep ← isCandidate key defectTime obs
      let kept ← candidates key defectTime rest
      return if keep then obs :: kept else kept

/-- `max(candidates, key=occurred_at, default=None)`: the first of the latest. -/
def lastGood (found : List ObservationValue) : Option ObservationValue :=
  latestBy (·.occurredAt) found

/-- `inside`: the half-open window `(left, right]`. -/
def inside (left : Option Instant) (defectTime value : Instant) : Bool :=
  left.all (fun bound => decide (bound < value)) && decide (value ≤ defectTime)

/-! ## Evidence -/

def OperationValue.marker (operation : OperationValue) : Option Instant :=
  operation.finishedAt.or operation.startedAt

def operationEvidence (within : Instant → Bool) (operation : OperationValue) : Option EvidenceValue :=
  match operation.marker with
  | none => none
  | some marker =>
      if within marker then
        some ⟨.operationInWindow, .context, operation.sourceEventId, some marker,
          .operation operation.operationRunId operation.operationId operation.operatorId
            operation.equipmentId⟩
      else none

def machineEvidence (within : Instant → Bool) (machine : MachineValue) : Option EvidenceValue :=
  if within machine.occurredAt ∧ ¬ (machine.payload.state = "normal" ∨ machine.payload.state = "idle") then
    some ⟨.machineWarning, .context, some machine.eventId, some machine.occurredAt,
      .machine machine.payload.equipmentId machine.payload.state⟩
  else none

def actionEvidence (within : Instant → Bool) (action : ActionValue) : Option EvidenceValue :=
  if within action.occurredAt then
    some ⟨.operatorAction, .context, some action.eventId, some action.occurredAt,
      .action action.payload.operatorId action.payload.actionType⟩
  else none

/-- The kind of limitation an observation without trust is. -/
def limitationKind : TrustStatus → EvidenceType
  | .conflicted => .conflictingObservation
  | .invalidated => .deviceValidity
  | _ => .poorObservation

def observationEvidence (within : Instant → Bool) (obs : ObservationValue) : Option EvidenceValue :=
  if within obs.occurredAt ∧ obs.trustStatus ≠ .trusted then
    some ⟨limitationKind obs.trustStatus, .limitation, some obs.eventId, some obs.occurredAt,
      .trust obs.trustStatus obs.trustReasons⟩
  else none

def goodEvidence (good : ObservationValue) : EvidenceValue :=
  ⟨.lastTrustedGood, .boundary, some good.eventId, some good.occurredAt,
    .lastGood good.payload.controlPointId⟩

def defectEvidence (sighting : Sighting) : EvidenceValue :=
  ⟨.firstTrustedDefect, .boundary, some sighting.observation.eventId, some sighting.occurredAt,
    .defect sighting.defect.defectType sighting.component⟩

/-! ## The result -/

/-- Status and boundaries: the columns in which two analyses are compared. -/
structure Assessment where
  status : AnalysisStatus
  leftBoundaryAt : Option Instant
  rightBoundaryAt : Option Instant
deriving DecidableEq, Repr

structure BirthWindowResult where
  assessment : Assessment
  evidence : List EvidenceValue
deriving DecidableEq

/-- The window of a defect at `defectTime` whose last capable GOOD was at `left`. -/
def window (left : Option Instant) (defectTime : Instant) : Assessment :=
  ⟨if left.isSome then .bounded else .leftOpen, left, some defectTime⟩

def calculateBirthWindow (sighting : Sighting) (context : AnalysisContext) :
    Except ReplayError BirthWindowResult := do
  let found ← candidates sighting.key sighting.occurredAt context.observations
  let good := lastGood found
  let left := good.map (·.occurredAt)
  let within := inside left sighting.occurredAt
  return ⟨window left sighting.occurredAt,
    (good.map goodEvidence).toList ++ [defectEvidence sighting] ++
    context.operations.filterMap (operationEvidence within) ++
    context.machineEvents.filterMap (machineEvidence within) ++
    context.operatorActions.filterMap (actionEvidence within) ++
    context.observations.filterMap (observationEvidence within) ++
    context.limitations⟩

end TraceQ.Quality
