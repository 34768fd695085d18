import TraceQ.Projections.MissingChecks
import TraceQ.Projections.Rebuild
import TraceQ.Properties.BirthWindows

/-! # Operations around a birth window

The window collects an operation by one marker, its finish or else its start. An operation that is running at
one end of the window has its marker outside, although its execution intersects the window.
-/
namespace TraceQ.Properties
open Projections Quality Tables
set_option autoImplicit false
set_option maxHeartbeats 250000

/-! ## Execution intervals -/

/-- The operation is running at `time`; without a finish it has not ended. -/
def RunningAt (operation : OperationValue) (time : Instant) : Prop :=
  (∃ start, operation.startedAt = some start ∧ start ≤ time) ∧
    ∀ finish, operation.finishedAt = some finish → time ≤ finish

/-- The execution of the operation intersects the window. -/
def Intersects (left : Option Instant) (right : Instant) (operation : OperationValue) : Prop :=
  ∃ time, RunningAt operation time ∧ InWindow left right time

theorem intersects_iff {left : Option Instant} {right : Instant}
    (hwindow : ∀ bound, left = some bound → bound < right) {operation : OperationValue} :
    Intersects left right operation ↔ ∃ start, operation.startedAt = some start ∧ start ≤ right ∧
      ∀ finish, operation.finishedAt = some finish → start ≤ finish ∧
        ∀ bound, left = some bound → bound < finish := by
  constructor
  · rintro ⟨time, ⟨⟨start, hstart, hbefore⟩, hfinish⟩, hafter, hright⟩
    refine ⟨start, hstart, hbefore.trans hright, fun finish hsome => ?_⟩
    have hrunning := hfinish finish hsome
    exact ⟨hbefore.trans hrunning, fun bound hbound => (hafter bound hbound).trans_le hrunning⟩
  · rintro ⟨start, hstart, hright, hfinish⟩
    cases hsome : operation.finishedAt with
    | none =>
      refine ⟨right, ⟨⟨start, hstart, hright⟩, fun finish hfinished => ?_⟩, hwindow, le_rfl⟩
      rw [hsome] at hfinished
      cases hfinished
    | some finish =>
      obtain ⟨horder, hafter⟩ := hfinish finish hsome
      refine ⟨min finish right, ⟨⟨start, hstart, le_min horder hright⟩, fun other hother => ?_⟩,
        fun bound hbound => lt_min (hafter bound hbound) (hwindow bound hbound), min_le_right _ _⟩
      obtain rfl := Option.some.inj (hsome.symm.trans hother)
      exact min_le_left _ _

/-! ## The entries of operations -/

/-- What a rebuild passes as limitations are limitations. -/
def OnlyLimitations (context : AnalysisContext) : Prop :=
  ∀ value ∈ context.limitations, value.evidenceRole = .limitation

theorem analysisContext_limitations (db : Database) (itemId : String) (values : ReplayValues) :
    OnlyLimitations (analysisContext db itemId values) :=
  fun _ hvalue => missingCheckLimitations_role hvalue

section Entries
variable {sighting : Sighting} {context : AnalysisContext} {result : BirthWindowResult}
  (h : calculateBirthWindow sighting context = .ok result) (hlimits : OnlyLimitations context)
include h hlimits

/-- An operation has an entry exactly when its marker lies in the window. -/
theorem operationEntry_mem_iff {operation : OperationValue} (hmem : operation ∈ context.operations) :
    operationEntry operation ∈ result.evidence ↔
      MarkedInWindow result.assessment.leftBoundaryAt sighting.occurredAt operation := by
  obtain ⟨found, -, -, hevidence⟩ := calculateBirthWindow_eq h
  rw [hevidence]
  constructor
  · intro hentry
    simp only [windowEntries, List.mem_append, List.mem_map, List.mem_filter, decide_eq_true_eq,
      List.mem_singleton, Option.mem_toList, Option.map_eq_some_iff] at hentry
    rcases hentry with (⟨good, -, heq⟩ | heq) | (((⟨other, ⟨-, hmarked⟩, heq⟩ | ⟨machine, -, heq⟩) |
      ⟨action, -, heq⟩) | ⟨obs, -, heq⟩) | hlimit
    · cases congrArg EvidenceValue.evidenceRole heq
    · cases congrArg EvidenceValue.evidenceRole heq
    · have hmarker : other.marker = operation.marker := congrArg EvidenceValue.occurredAt heq
      rw [MarkedInWindow, hmarker] at hmarked
      exact hmarked
    · cases congrArg EvidenceValue.evidenceType heq
    · cases congrArg EvidenceValue.evidenceType heq
    · cases congrArg EvidenceValue.evidenceRole heq
    · cases hlimits _ hlimit
  · intro hmarked
    refine List.mem_append_right _ ?_
    simp only [windowEntries, List.mem_append, List.mem_map, List.mem_filter, decide_eq_true_eq]
    exact .inl (.inl (.inl (.inl ⟨operation, ⟨hmem, hmarked⟩, rfl⟩)))

end Entries

/-! ## When no execution is missed -/

/-- An operation that has started by the time of the defect has finished by then, or it has no finish and
started after every capable trusted GOOD. -/
def OperationsSettled (sighting : Sighting) (context : AnalysisContext) : Prop :=
  ∀ operation ∈ context.operations, ∀ start, operation.startedAt = some start →
    start ≤ sighting.occurredAt →
    (∀ finish, operation.finishedAt = some finish → finish ≤ sighting.occurredAt) ∧
      (operation.finishedAt = none → ∀ good ∈ context.observations,
        Capable sighting.key sighting.occurredAt good → good.occurredAt < start)

theorem marker_of_finished {operation : OperationValue} {finish : Instant}
    (h : operation.finishedAt = some finish) : operation.marker = some finish := by
  rw [OperationValue.marker, h]
  rfl

theorem marker_of_unfinished {operation : OperationValue} (h : operation.finishedAt = none) :
    operation.marker = operation.startedAt := by
  rw [OperationValue.marker, h]
  rfl

theorem markedInWindow_iff {left : Option Instant} {right : Instant} {operation : OperationValue}
    {marker : Instant} (h : operation.marker = some marker) :
    MarkedInWindow left right operation ↔ InWindow left right marker := by
  rw [MarkedInWindow, h]
  exact ⟨fun ⟨_, heq, hin⟩ => Option.some.inj heq ▸ hin, fun hin => ⟨marker, rfl, hin⟩⟩

/-- Nothing capable lies at or after `start` exactly when the window starts before it. -/
theorem left_lt_iff {sighting : Sighting} {context : AnalysisContext} {result : BirthWindowResult}
    (h : IsBirthWindow sighting context result) {start : Instant} :
    (∀ bound, result.assessment.leftBoundaryAt = some bound → bound < start) ↔
      ∀ good ∈ context.observations, Capable sighting.key sighting.occurredAt good →
        good.occurredAt < start := by
  cases hleft : result.assessment.leftBoundaryAt with
  | none =>
    refine iff_of_true (fun bound hbound => by cases hbound) fun good hgood hcapable => ?_
    exact absurd hcapable ((h.leftOpen hleft).2 good hgood)
  | some left =>
    obtain ⟨-, -, hlast⟩ := h.bounded left hleft
    constructor
    · intro hbefore good hgood hcapable
      exact (hlast.latest good hgood hcapable).trans_lt (hbefore left rfl)
    · rintro hgoods bound heq
      obtain rfl := Option.some.inj heq
      obtain ⟨good, hgood, hcapable, htime⟩ := hlast.reached
      exact htime ▸ hgoods good hgood hcapable

/-- An operation that intersects the window is marked in it exactly when it is settled. -/
theorem marked_of_intersects_iff {sighting : Sighting} {context : AnalysisContext}
    {result : BirthWindowResult} (h : IsBirthWindow sighting context result) (operation : OperationValue) :
    (Intersects result.assessment.leftBoundaryAt sighting.occurredAt operation →
        MarkedInWindow result.assessment.leftBoundaryAt sighting.occurredAt operation) ↔
      ∀ start, operation.startedAt = some start → start ≤ sighting.occurredAt →
        (∀ finish, operation.finishedAt = some finish → finish ≤ sighting.occurredAt) ∧
          (operation.finishedAt = none → ∀ good ∈ context.observations,
            Capable sighting.key sighting.occurredAt good → good.occurredAt < start) := by
  have hwindow : ∀ bound, result.assessment.leftBoundaryAt = some bound → bound < sighting.occurredAt :=
    fun bound hbound => (h.bounded bound hbound).2.1
  rw [intersects_iff hwindow]
  cases hfinished : operation.finishedAt with
  | none =>
    rw [MarkedInWindow, marker_of_unfinished hfinished]
    constructor
    · intro hmarked start hstart hbefore
      obtain ⟨marker, hmarker, hin, -⟩ := hmarked ⟨start, hstart, hbefore, nofun⟩
      obtain rfl := Option.some.inj (hstart.symm.trans hmarker)
      exact ⟨nofun, fun _ => (left_lt_iff h).mp hin⟩
    · rintro hsettled ⟨start, hstart, hbefore, -⟩
      exact ⟨start, hstart, (left_lt_iff h).mpr ((hsettled start hstart hbefore).2 rfl), hbefore⟩
  | some finish =>
    rw [markedInWindow_iff (marker_of_finished hfinished)]
    constructor
    · intro hmarked start hstart hbefore
      refine ⟨fun other hother => ?_, fun hnone => by cases hnone⟩
      obtain rfl := Option.some.inj hother
      -- a run that ends after the defect intersects the window
      by_contra hlate
      rw [not_le] at hlate
      have hin := hmarked ⟨start, hstart, hbefore, fun other hother => by
        obtain rfl := Option.some.inj hother
        exact ⟨hbefore.trans hlate.le, fun bound hbound => (hwindow bound hbound).trans hlate⟩⟩
      exact absurd hin.2 hlate.not_ge
    · rintro hsettled ⟨start, hstart, hbefore, hinterval⟩
      exact ⟨(hinterval finish rfl).2, (hsettled start hstart hbefore).1 finish rfl⟩

/-- Every operation that intersects the window has an entry exactly when the operations are settled. A finish
that arrives later keeps the entry exactly when it is no later than the defect. -/
theorem operations_in_context_iff {sighting : Sighting} {context : AnalysisContext}
    {result : BirthWindowResult} (h : calculateBirthWindow sighting context = .ok result)
    (hlimits : OnlyLimitations context) :
    ((∀ operation ∈ context.operations,
        Intersects result.assessment.leftBoundaryAt sighting.occurredAt operation →
        operationEntry operation ∈ result.evidence) ↔ OperationsSettled sighting context) ∧
      ∀ operation ∈ context.operations, operation.finishedAt = none →
        operationEntry operation ∈ result.evidence → ∀ (raw : RawEvent) (payload : OperationFinishedPayload),
        (∀ start, operation.startedAt = some start → start ≤ raw.occurredAt) →
        ∀ (context' : AnalysisContext) (result' : BirthWindowResult),
          context'.observations.Perm context.observations → OnlyLimitations context' →
          finishRun raw payload operation ∈ context'.operations →
          calculateBirthWindow sighting context' = .ok result' →
          (operationEntry (finishRun raw payload operation) ∈ result'.evidence ↔
            raw.occurredAt ≤ sighting.occurredAt) := by
  have hwindow := birthWindow_spec h
  constructor
  · constructor
    · intro hentries operation hmem
      refine (marked_of_intersects_iff hwindow operation).mp fun hin => ?_
      exact (operationEntry_mem_iff h hlimits hmem).mp (hentries operation hmem hin)
    · intro hsettled operation hmem hin
      rw [operationEntry_mem_iff h hlimits hmem]
      exact (marked_of_intersects_iff hwindow operation).mpr (hsettled operation hmem) hin
  · intro operation hmem hunfinished hentry raw payload horder context' result' hperm hlimits' hmem' h'
    rw [operationEntry_mem_iff h' hlimits' hmem', markedInWindow_iff (marker_of_finished rfl)]
    -- the finish changes no observation, so the window is the same
    obtain ⟨again, hagain, hsame⟩ := birthWindow_permuted h hperm.symm
    obtain rfl := Except.ok.inj (h'.symm.trans hagain)
    rw [hsame]
    obtain ⟨start, hstart, hin⟩ := (operationEntry_mem_iff h hlimits hmem).mp hentry
    rw [marker_of_unfinished hunfinished] at hstart
    refine ⟨fun hboth => hboth.2, fun hbefore => ⟨fun bound hbound => ?_, hbefore⟩⟩
    exact (hin.1 bound hbound).trans_le (horder start hstart)

/-! ### An operation that outlasts the detection -/

/-- The scratch at 10 is seen while this run is going on. -/
def grinding : OperationValue where
  operationRunId := "run-1"
  operationId := some "OP-GRIND"
  startedAt := some 8

/-- The finish of the run arrives afterwards. -/
def grindingFinished (time : Instant) : OperationValue :=
  { grinding with
    finishedAt := some time
    completionStatus := some .completed
    sourceEventId := some "e-3" }

/-- The scratch with one operation around it. -/
def scratchDuring (operation : OperationValue) : AnalysisContext := ⟨[], [operation], [], [], []⟩

theorem operations_in_context_grinding : ∃ result,
    calculateBirthWindow scratchSighting (scratchDuring (grindingFinished 9)) = .ok result ∧
      operationEntry (grindingFinished 9) ∈ result.evidence := by
  have hsettled : OperationsSettled scratchSighting (scratchDuring (grindingFinished 9)) := by
    intro operation hmem start hstart hbefore
    obtain rfl := List.mem_singleton.mp hmem
    exact ⟨fun finish hfinish => by cases hfinish; decide, nofun⟩
  have hintersects : Intersects none 10 (grindingFinished 9) :=
    ⟨8, ⟨⟨8, rfl, le_rfl⟩, fun finish hfinish => by cases hfinish; decide⟩, nofun, by decide⟩
  have hlimits : OnlyLimitations (scratchDuring (grindingFinished 9)) :=
    fun _ hvalue => absurd hvalue List.not_mem_nil
  exact ⟨_, rfl, (operations_in_context_iff rfl hlimits).1.mpr hsettled _ List.mem_cons_self hintersects⟩

/-- The run was going on when the scratch was seen. Without its finish it is in the evidence; once the finish is
known it is not. -/
theorem operations_in_context_lost :
    (¬ ∀ (sighting : Sighting) (context : AnalysisContext) (result : BirthWindowResult),
      calculateBirthWindow sighting context = .ok result → OnlyLimitations context →
      ∀ operation ∈ context.operations,
        Intersects result.assessment.leftBoundaryAt sighting.occurredAt operation →
        operationEntry operation ∈ result.evidence) ∧
    (calculateBirthWindow scratchSighting (scratchDuring grinding)).map
        (fun result => decide (operationEntry grinding ∈ result.evidence)) = .ok true ∧
      (calculateBirthWindow scratchSighting (scratchDuring (grindingFinished 12))).map
        (fun result => decide (operationEntry (grindingFinished 12) ∈ result.evidence)) = .ok false := by
  refine ⟨fun h => ?_, by decide +kernel, by decide +kernel⟩
  have hintersects : Intersects none 10 (grindingFinished 12) :=
    ⟨8, ⟨⟨8, rfl, le_rfl⟩, fun finish hfinish => by cases hfinish; decide⟩, nofun, by decide⟩
  have hlimits : OnlyLimitations (scratchDuring (grindingFinished 12)) :=
    fun _ hvalue => absurd hvalue List.not_mem_nil
  have hentry := h scratchSighting (scratchDuring (grindingFinished 12)) _ rfl hlimits _ List.mem_cons_self
    hintersects
  exact absurd hentry (by decide +kernel)

end TraceQ.Properties
