import TraceQ.Library.Results
import TraceQ.Quality.BirthWindow

/-! # What a birth window is computed from

The candidates of `calculate_birth_window` are the capable trusted GOODs before the defect, and the computation
succeeds exactly when the scope of every trusted GOOD before the defect can be searched. The five loops collect
one entry for each row they admit.
-/
namespace TraceQ.Quality
open Tables Results
set_option autoImplicit false
set_option maxHeartbeats 250000

/-! ## Capable trusted GOODs -/

/-- A TRUSTED `no_defect` before the defect. -/
structure TrustedGood (defectTime : Instant) (obs : ObservationValue) : Prop where
  before : obs.occurredAt < defectTime
  trusted : obs.trustStatus = .trusted
  good : obs.payload.inspectionResult = .noDefect

/-- It covers the type and the component of the defect. -/
structure Capable (key : DefectKey) (defectTime : Instant) (obs : ObservationValue) : Prop
    extends TrustedGood defectTime obs where
  scope : scopeCovers obs.payload.inspectionScope key.defectType key.componentInstanceId = .ok true
  component : obs.payload.componentInstanceId = none ∨
    obs.payload.componentInstanceId = key.componentInstanceId ∨ key.componentInstanceId = none

/-- The scope of every trusted GOOD before the defect can be searched. -/
def Searchable (key : DefectKey) (defectTime : Instant) (observations : List ObservationValue) : Prop :=
  ∀ obs ∈ observations, TrustedGood defectTime obs →
    ∃ covers, scopeCovers obs.payload.inspectionScope key.defectType key.componentInstanceId = .ok covers

variable {key : DefectKey} {time : Instant} {observations : List ObservationValue}

theorem isCandidate_iff {obs : ObservationValue} :
    isCandidate key time obs = .ok true ↔ Capable key time obs := by
  unfold isCandidate
  split
  · rename_i hgood
    obtain ⟨hbefore, htrusted, hresult⟩ := hgood
    rw [bind_ok]
    constructor
    · rintro ⟨covers, hcovers, hboth⟩
      obtain ⟨rfl, hcomponent⟩ := Bool.and_eq_true_iff.mp (pure_ok.mp hboth)
      exact ⟨⟨hbefore, htrusted, hresult⟩, hcovers, of_decide_eq_true hcomponent⟩
    · intro h
      exact ⟨true, h.scope, pure_ok.mpr (by rw [Bool.true_and]; exact decide_eq_true h.component)⟩
  · rename_i hgood
    exact iff_of_false nofun fun h => hgood ⟨h.before, h.trusted, h.good⟩

theorem isCandidate_succeeds_iff {obs : ObservationValue} :
    (∃ keep, isCandidate key time obs = .ok keep) ↔
      (TrustedGood time obs → ∃ covers,
        scopeCovers obs.payload.inspectionScope key.defectType key.componentInstanceId = .ok covers) := by
  unfold isCandidate
  split
  · rename_i hgood
    constructor
    · rintro ⟨keep, h⟩ -
      obtain ⟨covers, hcovers, -⟩ := bind_ok.mp h
      exact ⟨covers, hcovers⟩
    · intro h
      obtain ⟨covers, hcovers⟩ := h ⟨hgood.1, hgood.2.1, hgood.2.2⟩
      exact ⟨_, bind_ok.mpr ⟨covers, hcovers, rfl⟩⟩
  · rename_i hgood
    exact iff_of_true ⟨false, rfl⟩ fun h => absurd ⟨h.before, h.trusted, h.good⟩ hgood

theorem candidates_succeeds_iff :
    (∃ found, candidates key time observations = .ok found) ↔ Searchable key time observations := by
  induction observations with
  | nil => exact iff_of_true ⟨[], rfl⟩ fun obs hobs => absurd hobs List.not_mem_nil
  | cons obs rest ih =>
    rw [Searchable, List.forall_mem_cons, ← Searchable, ← ih, ← isCandidate_succeeds_iff]
    constructor
    · rintro ⟨found, h⟩
      rw [candidates] at h
      obtain ⟨keep, hkeep, h⟩ := bind_ok.mp h
      obtain ⟨kept, hkept, -⟩ := bind_ok.mp h
      exact ⟨⟨keep, hkeep⟩, ⟨kept, hkept⟩⟩
    · rintro ⟨⟨keep, hkeep⟩, ⟨kept, hkept⟩⟩
      rw [candidates]
      exact ⟨_, bind_ok.mpr ⟨keep, hkeep, bind_ok.mpr ⟨kept, hkept, rfl⟩⟩⟩

/-- The candidates are the capable trusted GOODs, in order. -/
theorem candidates_eq {found : List ObservationValue} (h : candidates key time observations = .ok found) :
    found = observations.filter fun obs => decide (isCandidate key time obs = .ok true) := by
  induction observations generalizing found with
  | nil => exact (Except.ok.inj h).symm
  | cons obs rest ih =>
    rw [candidates] at h
    obtain ⟨keep, hkeep, h⟩ := bind_ok.mp h
    obtain ⟨kept, hkept, h⟩ := bind_ok.mp h
    rw [← pure_ok.mp h, List.filter_cons, hkeep, ih hkept]
    cases keep <;> rfl

theorem mem_candidates {found : List ObservationValue} (h : candidates key time observations = .ok found)
    {obs : ObservationValue} : obs ∈ found ↔ obs ∈ observations ∧ Capable key time obs := by
  rw [candidates_eq h, List.mem_filter, decide_eq_true_eq, isCandidate_iff]

/-! ## The rows in the window -/

/-- `time` lies in `(left, right]`. -/
def InWindow (left : Option Instant) (right time : Instant) : Prop :=
  (∀ bound, left = some bound → bound < time) ∧ time ≤ right

theorem inside_iff {left : Option Instant} {right time : Instant} :
    inside left right time = true ↔ InWindow left right time := by
  cases left <;> simp [inside, InWindow]

instance (left : Option Instant) (right time : Instant) : Decidable (InWindow left right time) :=
  decidable_of_iff _ inside_iff

/-- The marker of the operation, its finish or else its start, lies in the window. -/
def MarkedInWindow (left : Option Instant) (right : Instant) (operation : OperationValue) : Prop :=
  ∃ marker, operation.marker = some marker ∧ InWindow left right marker

instance (left : Option Instant) (right : Instant) (operation : OperationValue) :
    Decidable (MarkedInWindow left right operation) :=
  decidable_of_iff ((operation.marker.any fun marker => decide (InWindow left right marker)) = true) (by
    cases h : operation.marker <;> simp [MarkedInWindow, h])

def operationEntry (operation : OperationValue) : EvidenceValue :=
  ⟨.operationInWindow, .context, operation.sourceEventId, operation.marker,
    .operation operation.operationRunId operation.operationId operation.operatorId operation.equipmentId⟩

def machineEntry (machine : MachineValue) : EvidenceValue :=
  ⟨.machineWarning, .context, some machine.eventId, some machine.occurredAt,
    .machine machine.payload.equipmentId machine.payload.state⟩

def actionEntry (action : ActionValue) : EvidenceValue :=
  ⟨.operatorAction, .context, some action.eventId, some action.occurredAt,
    .action action.payload.operatorId action.payload.actionType⟩

def observationEntry (obs : ObservationValue) : EvidenceValue :=
  ⟨limitationKind obs.trustStatus, .limitation, some obs.eventId, some obs.occurredAt,
    .trust obs.trustStatus obs.trustReasons⟩

/-- The entries of a window besides its boundaries: one for each row in it that says something. -/
def windowEntries (left : Option Instant) (right : Instant) (context : AnalysisContext) :
    List EvidenceValue :=
  (context.operations.filter fun operation => decide (MarkedInWindow left right operation)).map
      operationEntry ++
  (context.machineEvents.filter fun machine => decide (InWindow left right machine.occurredAt ∧
      machine.payload.state ≠ "normal" ∧ machine.payload.state ≠ "idle")).map machineEntry ++
  (context.operatorActions.filter fun action => decide (InWindow left right action.occurredAt)).map
      actionEntry ++
  (context.observations.filter fun obs => decide (InWindow left right obs.occurredAt ∧
      obs.trustStatus ∈ [.untrusted, .unassessable, .conflicted, .invalidated])).map observationEntry ++
  context.limitations

section Loops
variable (left : Option Instant) (right : Instant)

theorem operationEvidence_eq (operation : OperationValue) :
    operationEvidence (inside left right) operation =
      if MarkedInWindow left right operation then some (operationEntry operation) else none := by
  rw [operationEvidence]
  cases hmarker : operation.marker with
  | none =>
    have hout : ¬ MarkedInWindow left right operation := by
      rintro ⟨marker, hsome, -⟩
      rw [hmarker] at hsome
      cases hsome
    rw [if_neg hout]
  | some marker =>
    have hin : MarkedInWindow left right operation ↔ inside left right marker = true := by
      rw [MarkedInWindow, hmarker, inside_iff]
      exact ⟨fun ⟨_, heq, h⟩ => Option.some.inj heq ▸ h, fun h => ⟨marker, rfl, h⟩⟩
    simp only [hin, operationEntry, hmarker]

theorem machineEvidence_eq (machine : MachineValue) :
    machineEvidence (inside left right) machine =
      if InWindow left right machine.occurredAt ∧ machine.payload.state ≠ "normal" ∧
        machine.payload.state ≠ "idle" then some (machineEntry machine) else none := by
  simp only [machineEvidence, inside_iff, not_or, machineEntry, ne_eq]

theorem actionEvidence_eq (action : ActionValue) :
    actionEvidence (inside left right) action =
      if InWindow left right action.occurredAt then some (actionEntry action) else none := by
  simp only [actionEvidence, inside_iff, actionEntry]

theorem observationEvidence_eq (obs : ObservationValue) :
    observationEvidence (inside left right) obs =
      if InWindow left right obs.occurredAt ∧
        obs.trustStatus ∈ [.untrusted, .unassessable, .conflicted, .invalidated] then
        some (observationEntry obs) else none := by
  have htrust : obs.trustStatus ∈ [.untrusted, .unassessable, .conflicted, .invalidated] ↔
      obs.trustStatus ≠ .trusted := by
    cases obs.trustStatus <;> simp
  simp only [observationEvidence, inside_iff, htrust, observationEntry]

end Loops

/-! ## The result -/

/-- The result of a computation that succeeds, from its candidates. -/
theorem calculateBirthWindow_eq {sighting : Sighting} {context : AnalysisContext} {result : BirthWindowResult}
    (h : calculateBirthWindow sighting context = .ok result) :
    ∃ found, candidates sighting.key sighting.occurredAt context.observations = .ok found ∧
      result.assessment = window ((lastGood found).map (·.occurredAt)) sighting.occurredAt ∧
      result.evidence = ((lastGood found).map goodEvidence).toList ++ [defectEvidence sighting] ++
        windowEntries result.assessment.leftBoundaryAt sighting.occurredAt context := by
  obtain ⟨found, hfound, hresult⟩ := bind_ok.mp h
  have heq := pure_ok.mp hresult
  refine ⟨found, hfound, by rw [← heq], ?_⟩
  rw [← heq]
  simp only [window, windowEntries, List.append_assoc]
  rw [filterMap_eq_map_filter (operationEvidence_eq _ _), filterMap_eq_map_filter (machineEvidence_eq _ _),
    filterMap_eq_map_filter (actionEvidence_eq _ _), filterMap_eq_map_filter (observationEvidence_eq _ _)]
  rfl

theorem calculateBirthWindow_succeeds_iff {sighting : Sighting} {context : AnalysisContext} :
    (∃ result, calculateBirthWindow sighting context = .ok result) ↔
      Searchable sighting.key sighting.occurredAt context.observations := by
  rw [← candidates_succeeds_iff]
  constructor
  · rintro ⟨result, h⟩
    obtain ⟨found, hfound, -⟩ := calculateBirthWindow_eq h
    exact ⟨found, hfound⟩
  · rintro ⟨found, hfound⟩
    exact ⟨_, bind_ok.mpr ⟨found, hfound, rfl⟩⟩

end TraceQ.Quality
