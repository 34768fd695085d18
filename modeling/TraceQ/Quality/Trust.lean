import TraceQ.Persistence.Models

/-! # Observation trust

`backend/app/quality/trust.py`.
-/
namespace TraceQ.Quality
set_option autoImplicit false
set_option maxHeartbeats 250000

structure TrustPolicyValue where
  allowedObservationQuality : List ObservationQuality := [.good]
  confidenceRequired : Bool := false
  minConfidence : Option ℚ := none
  requiresValidDevice : Bool := false
  mediaRequired : Bool := false

structure TrustResult where
  status : TrustStatus
  reasons : List TrustReason
deriving DecidableEq

/-- `[reason]` when the check fails, for the list of reasons. -/
def reasonIf (failed : Bool) (reason : TrustReason) : List TrustReason :=
  if failed then [reason] else []

/-- The policy checks of `evaluate_trust`, in its order. -/
def policyReasons (observation : InspectionResultPayload) (policy : TrustPolicyValue)
    (deviceValid : Bool) : List TrustReason :=
  reasonIf (!policy.allowedObservationQuality.contains observation.observationQuality)
      .observationQualityNotAllowed ++
  reasonIf (policy.confidenceRequired && observation.confidence.isNone) .confidenceRequired ++
  reasonIf (match policy.minConfidence, observation.confidence with
      | none, _ => false
      | some _, none => true
      | some threshold, some confidence => decide (confidence < threshold))
      .confidenceBelowThreshold ++
  reasonIf (policy.requiresValidDevice && !deviceValid) .deviceValidityNotConfirmed ++
  reasonIf (policy.mediaRequired && observation.evidenceRefs.isEmpty) .mediaRequired

def evaluateTrust (observation : InspectionResultPayload) (policy : TrustPolicyValue)
    (deviceValid : Bool := true) (invalidated : Bool := false) (conflicted : Bool := false) :
    TrustResult :=
  if observation.inspectionResult = .impossibleToAssess then
    ⟨.unassessable, [.inspectionImpossibleToAssess]⟩
  else if invalidated then ⟨.invalidated, [.controlDeviceInvalidated]⟩
  else if conflicted then ⟨.conflicted, [.equivalentObservationsConflict]⟩
  else
    match policyReasons observation policy deviceValid with
    | [] => ⟨.trusted, []⟩
    | reasons => ⟨.untrusted, reasons⟩

/-! ## Inspection scope -/

/-- `fields.get(key, ["*"])`. -/
def scopeEntry (fields : Params) (key : String) : Json :=
  (fields.lookup key).getD (.arr [.str "*"])

/-- `"*" in values or name in values`. -/
def admits (values : Json) (name : String) : Except ReplayError Bool := do
  if ← pyContains "*" values then return true
  pyContains name values

def scopeCovers (inspectionScope : Option InspectionScope) (defectType : String)
    (componentInstanceId : Option String) : Except ReplayError Bool :=
  match inspectionScope with
  | none => .ok true
  | some (.listing values) =>
      .ok (values.any (Json.isText defectType) || values.any (Json.isText "*"))
  | some (.mapping fields) => do
      let defectOk ← admits (scopeEntry fields "defect_types") defectType
      let componentOk ← match componentInstanceId with
        | none => pure true
        | some component => admits (scopeEntry fields "component_instance_ids") component
      return defectOk && componentOk

end TraceQ.Quality
