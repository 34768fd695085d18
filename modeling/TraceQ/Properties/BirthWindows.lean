import TraceQ.Quality.WindowMeaning

/-! # Birth windows

The window of a defect starts at the latest capable trusted GOOD before it and ends at the defect, and its
evidence is its boundaries, one entry for each row in it that says something, and the given limitations. Only
a scope that cannot be searched keeps `calculate_birth_window` from returning it.
-/
namespace TraceQ.Properties
open Quality Tables
set_option autoImplicit false
set_option maxHeartbeats 250000

/-! ## The specification -/

/-- The latest capable trusted GOOD is at `left`. -/
structure IsLastGood (key : DefectKey) (defectTime : Instant) (observations : List ObservationValue)
    (left : Instant) : Prop where
  reached : ∃ good ∈ observations, Capable key defectTime good ∧ good.occurredAt = left
  latest : ∀ good ∈ observations, Capable key defectTime good → good.occurredAt ≤ left

/-- The same rows in another order. -/
structure Permuted (context context' : AnalysisContext) : Prop where
  observations : context.observations.Perm context'.observations
  operations : context.operations.Perm context'.operations
  machineEvents : context.machineEvents.Perm context'.machineEvents
  operatorActions : context.operatorActions.Perm context'.operatorActions
  limitations : context.limitations.Perm context'.limitations

/-- The boundary entries of a window that starts at `left`. -/
def IsBoundaries (sighting : Sighting) (observations : List ObservationValue) (left : Option Instant)
    (boundaries : List EvidenceValue) : Prop :=
  match left with
  | none => boundaries = [defectEvidence sighting]
  | some left => ∃ good ∈ observations, Capable sighting.key sighting.occurredAt good ∧
      good.occurredAt = left ∧ boundaries = [goodEvidence good, defectEvidence sighting]

structure IsBirthWindow (sighting : Sighting) (context : AnalysisContext) (result : BirthWindowResult) :
    Prop where
  right : result.assessment.rightBoundaryAt = some sighting.occurredAt
  bounded : ∀ left, result.assessment.leftBoundaryAt = some left →
    result.assessment.status = .bounded ∧ left < sighting.occurredAt ∧
      IsLastGood sighting.key sighting.occurredAt context.observations left
  leftOpen : result.assessment.leftBoundaryAt = none → result.assessment.status = .leftOpen ∧
    ∀ good ∈ context.observations, ¬ Capable sighting.key sighting.occurredAt good
  unbroken : ∀ good ∈ context.observations, Capable sighting.key sighting.occurredAt good →
    ¬ ((∀ left, result.assessment.leftBoundaryAt = some left → left < good.occurredAt) ∧
      good.occurredAt < sighting.occurredAt)
  evidence : ∃ boundaries,
    IsBoundaries sighting context.observations result.assessment.leftBoundaryAt boundaries ∧
      result.evidence = boundaries ++
        windowEntries result.assessment.leftBoundaryAt sighting.occurredAt context
  permuted : ∀ context', Permuted context context' → ∃ result',
    calculateBirthWindow sighting context' = .ok result' ∧ result'.assessment = result.assessment
  extended : ∀ good, Capable sighting.key sighting.occurredAt good → ∀ context' : AnalysisContext,
    context'.observations.Perm (good :: context.observations) → ∃ result',
      calculateBirthWindow sighting context' = .ok result' ∧
        ∀ left, result.assessment.leftBoundaryAt = some left →
          ∃ left', result'.assessment.leftBoundaryAt = some left' ∧ left ≤ left'

/-! ## The code meets it -/

theorem lastGood_isLast {key : DefectKey} {time : Instant} {observations found : List ObservationValue}
    (h : candidates key time observations = .ok found) {good : ObservationValue}
    (hgood : lastGood found = some good) :
    good ∈ observations ∧ Capable key time good ∧ IsLastGood key time observations good.occurredAt := by
  obtain ⟨hmem, hcapable⟩ := (mem_candidates h).mp (latestBy_mem hgood)
  refine ⟨hmem, hcapable, ⟨good, hmem, hcapable, rfl⟩, fun other hother hcapable => ?_⟩
  exact latestBy_le hgood ((mem_candidates h).mpr ⟨hother, hcapable⟩)

theorem lastGood_eq_none {key : DefectKey} {time : Instant} {observations found : List ObservationValue}
    (h : candidates key time observations = .ok found) (hnone : lastGood found = none) :
    ∀ good ∈ observations, ¬ Capable key time good := by
  intro good hgood hcapable
  have hmem := (mem_candidates h).mpr ⟨hgood, hcapable⟩
  rw [latestBy_eq_none.mp hnone] at hmem
  cases hmem

theorem searchable_perm {key : DefectKey} {time : Instant} {observations observations' : List ObservationValue}
    (h : observations.Perm observations') (hs : Searchable key time observations) :
    Searchable key time observations' :=
  fun obs hobs => hs obs (h.mem_iff.mpr hobs)

theorem candidates_perm {key : DefectKey} {time : Instant}
    {observations observations' found found' : List ObservationValue}
    (h : observations.Perm observations') (hfound : candidates key time observations = .ok found)
    (hfound' : candidates key time observations' = .ok found') : found.Perm found' := by
  rw [candidates_eq hfound, candidates_eq hfound']
  exact h.filter _

theorem birthWindow_permuted {sighting : Sighting} {context context' : AnalysisContext}
    {result : BirthWindowResult} (h : calculateBirthWindow sighting context = .ok result)
    (hperm : context.observations.Perm context'.observations) : ∃ result',
      calculateBirthWindow sighting context' = .ok result' ∧ result'.assessment = result.assessment := by
  have hs := calculateBirthWindow_succeeds_iff.mp ⟨result, h⟩
  obtain ⟨result', h'⟩ := calculateBirthWindow_succeeds_iff.mpr (searchable_perm hperm hs)
  obtain ⟨found, hfound, hwindow, -⟩ := calculateBirthWindow_eq h
  obtain ⟨found', hfound', hwindow', -⟩ := calculateBirthWindow_eq h'
  have hlatest : (lastGood found).map (·.occurredAt) = (lastGood found').map (·.occurredAt) :=
    map_latestBy_perm (candidates_perm hperm hfound hfound')
  exact ⟨result', h', by rw [hwindow, hwindow', hlatest]⟩

theorem birthWindow_extended {sighting : Sighting} {context context' : AnalysisContext}
    {result : BirthWindowResult} (h : calculateBirthWindow sighting context = .ok result)
    {good : ObservationValue} (hgood : Capable sighting.key sighting.occurredAt good)
    (hperm : context'.observations.Perm (good :: context.observations)) : ∃ result',
      calculateBirthWindow sighting context' = .ok result' ∧
        ∀ left, result.assessment.leftBoundaryAt = some left →
          ∃ left', result'.assessment.leftBoundaryAt = some left' ∧ left ≤ left' := by
  have hs := calculateBirthWindow_succeeds_iff.mp ⟨result, h⟩
  have hs' : Searchable sighting.key sighting.occurredAt context'.observations := by
    refine searchable_perm hperm.symm ?_
    rw [Searchable, List.forall_mem_cons]
    exact ⟨fun _ => ⟨true, hgood.scope⟩, hs⟩
  obtain ⟨result', h'⟩ := calculateBirthWindow_succeeds_iff.mpr hs'
  refine ⟨result', h', fun left hleft => ?_⟩
  obtain ⟨found, hfound, hwindow, -⟩ := calculateBirthWindow_eq h
  obtain ⟨found', hfound', hwindow', -⟩ := calculateBirthWindow_eq h'
  rw [hwindow, window] at hleft
  obtain ⟨last, hlast, rfl⟩ := Option.map_eq_some_iff.mp hleft
  -- the last GOOD is still a candidate, so the new one is no earlier
  obtain ⟨hmem, hcapable, -⟩ := lastGood_isLast hfound hlast
  have hstill : last ∈ found' :=
    (mem_candidates hfound').mpr ⟨hperm.mem_iff.mpr (List.mem_cons_of_mem _ hmem), hcapable⟩
  cases hlast' : lastGood found' with
  | none =>
    rw [latestBy_eq_none.mp hlast'] at hstill
    cases hstill
  | some last' =>
    refine ⟨last'.occurredAt, ?_, latestBy_le hlast' hstill⟩
    rw [hwindow', hlast']
    rfl

theorem birthWindow_spec {sighting : Sighting} {context : AnalysisContext} {result : BirthWindowResult}
    (h : calculateBirthWindow sighting context = .ok result) : IsBirthWindow sighting context result := by
  obtain ⟨found, hfound, hwindow, hevidence⟩ := calculateBirthWindow_eq h
  cases hlast : lastGood found with
  | none =>
    have hnone := lastGood_eq_none hfound hlast
    have hleft : result.assessment.leftBoundaryAt = none := by rw [hwindow, hlast]; rfl
    refine ⟨by rw [hwindow]; rfl, ?_, ?_, ?_, ?_,
      fun _ hperm => birthWindow_permuted h hperm.observations,
      fun _ hgood _ hperm => birthWindow_extended h hgood hperm⟩
    · intro left hsome
      rw [hleft] at hsome
      cases hsome
    · exact fun _ => ⟨by rw [hwindow, hlast]; rfl, hnone⟩
    · exact fun good hgood hcapable => absurd hcapable (hnone good hgood)
    · refine ⟨[defectEvidence sighting], ?_, ?_⟩
      · rw [hleft]
        rfl
      · rw [hevidence, hlast]
        rfl
  | some good =>
    obtain ⟨hmem, hcapable, hlatest⟩ := lastGood_isLast hfound hlast
    have hleft : result.assessment.leftBoundaryAt = some good.occurredAt := by
      rw [hwindow, hlast]
      rfl
    refine ⟨by rw [hwindow]; rfl, ?_, ?_, ?_, ?_,
      fun _ hperm => birthWindow_permuted h hperm.observations,
      fun _ hgood _ hperm => birthWindow_extended h hgood hperm⟩
    · intro left hsome
      obtain rfl := Option.some.inj (hleft.symm.trans hsome)
      exact ⟨by rw [hwindow, hlast]; rfl, hcapable.before, hlatest⟩
    · intro hnone
      rw [hleft] at hnone
      cases hnone
    · rintro other hother hcapable ⟨hafter, -⟩
      exact absurd (hafter good.occurredAt hleft) (hlatest.latest other hother hcapable).not_gt
    · refine ⟨[goodEvidence good, defectEvidence sighting], ?_, ?_⟩
      · rw [hleft]
        exact ⟨good, hmem, hcapable, rfl, rfl⟩
      · rw [hevidence, hlast]
        rfl

/-- `calculate_birth_window` returns the birth window of a defect exactly when the scope of every trusted
GOOD before the defect can be searched. -/
theorem birth_window_iff (sighting : Sighting) (context : AnalysisContext) :
    (∃ result, calculateBirthWindow sighting context = .ok result ∧ IsBirthWindow sighting context result) ↔
      Searchable sighting.key sighting.occurredAt context.observations := by
  rw [← calculateBirthWindow_succeeds_iff]
  constructor
  · rintro ⟨result, h, -⟩
    exact ⟨result, h⟩
  · rintro ⟨result, h⟩
    exact ⟨result, h, birthWindow_spec h⟩

/-! ### A scope that is no list -/

theorem good_lists_nothing : InspectionResult.noDefect = .defectDetected ↔ ([] : List Defect) ≠ [] := by decide

theorem bad_lists_scratch : InspectionResult.defectDetected = .defectDetected ↔
    [({ defectType := "scratch" } : Defect)] ≠ [] := by decide

/-- A GOOD at 5 whose scope names its defects by a number. -/
def numberedScope : ObservationValue where
  payload :=
    { inspectionResult := .noDefect
      observationQuality := .good
      controlPointId := "CP-1"
      inspectionScope := some (.mapping [("defect_types", .int 5)])
      validate_defects := good_lists_nothing }
  itemId := some "item-1"
  operationRunId := none
  eventId := "e-1"
  occurredAt := 5
  trustStatus := .trusted
  trustReasons := []

/-- A scratch at 10. -/
def scratchSighting : Sighting where
  observation :=
    { payload :=
        { inspectionResult := .defectDetected
          observationQuality := .good
          controlPointId := "CP-1"
          defects := [{ defectType := "scratch" }]
          validate_defects := bad_lists_scratch }
      itemId := some "item-1"
      operationRunId := none
      eventId := "e-2"
      occurredAt := 10
      trustStatus := .trusted
      trustReasons := [] }
  defect := { defectType := "scratch" }

theorem birth_window_raises : ¬ ∀ (sighting : Sighting) (context : AnalysisContext),
    ∃ result, calculateBirthWindow sighting context = .ok result ∧
      IsBirthWindow sighting context result := by
  intro h
  obtain ⟨result, hresult, -⟩ := h scratchSighting ⟨[numberedScope], [], [], [], []⟩
  have hraises : calculateBirthWindow scratchSighting ⟨[numberedScope], [], [], [], []⟩ =
      .error .notAContainer := rfl
  rw [hraises] at hresult
  cases hresult

end TraceQ.Properties
