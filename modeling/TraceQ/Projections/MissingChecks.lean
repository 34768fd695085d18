import TraceQ.Library.Results
import TraceQ.Projections.Replay

/-! # What a missing check reports

`_missing_check_limitations` looks at each step of the pinned route with the step after it. It reports the
control point of a required step whose next operation has started with no inspection there in between.
-/
namespace TraceQ.Projections
open Quality Tables Results
set_option autoImplicit false
set_option maxHeartbeats 250000

/-- An inspection at the control point no later than `start` and no earlier than `lower`, if there is one. -/
def CheckedBetween (observations : List ObservationValue) (controlPoint : String) (lower : Option Instant)
    (start : Instant) : Prop :=
  ∃ obs ∈ observations, obs.payload.controlPointId = controlPoint ∧
    (∀ bound, lower = some bound → bound ≤ obs.occurredAt) ∧ obs.occurredAt ≤ start

/-- The control point a step requires to be checked. -/
def requiredPoint (step : RouteStep) : Option String :=
  step.controlPointId.filter fun controlPoint => step.requiredInspection && !controlPoint.isEmpty

/-- The finish of the run that stands for the operation of a step. -/
def lastFinish (operations : List OperationValue) (step : RouteStep) : Option Instant :=
  (operationNamed operations step.operationId).bind (·.finishedAt)

/-- The start of the run that stands for the operation of a step. -/
def lastStarted (operations : List OperationValue) (step : RouteStep) : Option Instant :=
  (operationNamed operations step.operationId).bind (·.startedAt)

variable {operations : List OperationValue} {observations : List ObservationValue} {step next : RouteStep}

theorem requiredPoint_eq_some {controlPoint : String} : requiredPoint step = some controlPoint ↔
    step.controlPointId = some controlPoint ∧ step.requiredInspection = true ∧
      controlPoint.isEmpty = false := by
  simp only [requiredPoint, Option.filter_eq_some_iff, Bool.and_eq_true, Bool.not_eq_true']

theorem any_checked_iff {controlPoint : String} {lower : Option Instant} {start : Instant} :
    (observations.any fun obs => decide (obs.payload.controlPointId = controlPoint) &&
      (lower.all (fun bound => decide (bound ≤ obs.occurredAt)) && decide (obs.occurredAt ≤ start))) =
        true ↔ CheckedBetween observations controlPoint lower start := by
  have hlower : ∀ time : Instant, lower.all (fun bound => decide (bound ≤ time)) = true ↔
      ∀ bound, lower = some bound → bound ≤ time := fun time => by
    cases lower <;> simp
  simp only [List.any_eq_true, Bool.and_eq_true, decide_eq_true_eq, hlower]
  rfl

theorem missingCheck_eq_some {value : EvidenceValue} :
    missingCheck operations observations step next = some value ↔
      ∃ controlPoint start, requiredPoint step = some controlPoint ∧
        lastStarted operations next = some start ∧
        ¬ CheckedBetween observations controlPoint (lastFinish operations step) start ∧
        value = ⟨.missingCheck, .limitation, none, some start,
          .missingCheck controlPoint next.operationId⟩ := by
  simp only [missingCheck, Option.bind_eq_bind, Option.bind_eq_some_iff, lastStarted,
    requiredPoint_eq_some]
  constructor
  · rintro ⟨controlPoint, hpoint, h⟩
    split at h
    · cases h
    rename_i hrequired
    rw [not_or, not_not, Bool.not_eq_true] at hrequired
    obtain ⟨run, hrun, h⟩ := Option.bind_eq_some_iff.mp h
    obtain ⟨start, hstart, h⟩ := Option.bind_eq_some_iff.mp h
    split at h
    · cases h
    rename_i hmissing
    exact ⟨controlPoint, start, ⟨hpoint, hrequired.1, hrequired.2⟩, ⟨run, hrun, hstart⟩,
      mt any_checked_iff.mpr hmissing, (Option.some.inj h).symm⟩
  · rintro ⟨controlPoint, start, ⟨hpoint, hrequired, hpresent⟩, ⟨run, hrun, hstart⟩, hmissing, rfl⟩
    refine ⟨controlPoint, hpoint, ?_⟩
    rw [if_neg (by rw [not_or, not_not, Bool.not_eq_true]; exact ⟨hrequired, hpresent⟩)]
    refine Option.bind_eq_some_iff.mpr ⟨run, hrun, Option.bind_eq_some_iff.mpr ⟨start, hstart, ?_⟩⟩
    exact if_neg (mt any_checked_iff.mp hmissing)

theorem missingCheckLimitations_role {config : Configuration} {item : Option Item} {value : EvidenceValue}
    (h : value ∈ missingCheckLimitations config item operations observations) :
    value.evidenceRole = .limitation := by
  rw [missingCheckLimitations] at h
  split at h
  · cases h
  · obtain ⟨pair, -, hpair⟩ := List.mem_filterMap.mp h
    obtain ⟨controlPoint, start, -, -, -, rfl⟩ := missingCheck_eq_some.mp hpair
    rfl

end TraceQ.Projections
