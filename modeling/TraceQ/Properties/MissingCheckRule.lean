import TraceQ.Projections.MissingChecks

/-! # Every run that started without its check

A step is unchecked when some run of the next operation started with no inspection since the last finish of
the step before it. The replay lets one run stand for all runs of an operation, so it overlooks a run that
another one overshadows, and takes a finish that came too late for the one to look from.
-/
namespace TraceQ.Properties
open Projections Quality Tables
set_option autoImplicit false
set_option maxHeartbeats 250000

/-! ## The rule over all runs -/

/-- The latest finish of a run of the operation that is no later than `start`. -/
def finishBefore (operations : List OperationValue) (operationId : String) (start : Instant) :
    Option Instant :=
  latestBy id (((operations.filter fun run => decide (run.operationId = some operationId)).filterMap
    (·.finishedAt)).filter fun finish => decide (finish ≤ start))

/-- A run of the operation that started at `start`. -/
def StartedRun (operations : List OperationValue) (operationId : String) (start : Instant) : Prop :=
  ∃ run ∈ operations, run.operationId = some operationId ∧ run.startedAt = some start

/-- Some run of the next operation started without a check of the step. -/
def Unchecked (operations : List OperationValue) (observations : List ObservationValue)
    (step next : RouteStep) (controlPoint : String) : Prop :=
  ∃ start, StartedRun operations next.operationId start ∧
    ¬ CheckedBetween observations controlPoint (finishBefore operations step.operationId start) start

/-- The replay reports the check of the step as missing. -/
def CheckReported (operations : List OperationValue) (observations : List ObservationValue)
    (step next : RouteStep) (controlPoint : String) : Prop :=
  ∃ start, missingCheck operations observations step next =
    some ⟨.missingCheck, .limitation, none, some start, .missingCheck controlPoint next.operationId⟩

/-- The steps of the pinned route, each with the next one. -/
def consecutiveSteps (config : Configuration) (item : Option Item) : List (RouteStep × RouteStep) :=
  match item.bind (·.routeRevisionId) with
  | none => []
  | some revisionId =>
      let steps := (config.routeSteps.filter fun step =>
        decide (step.routeRevisionId = revisionId)).insertionSort fun a b => a.position ≤ b.position
      steps.zip steps.tail

theorem missingCheckLimitations_eq (config : Configuration) (item : Option Item)
    (operations : List OperationValue) (observations : List ObservationValue) :
    missingCheckLimitations config item operations observations =
      (consecutiveSteps config item).filterMap fun pair =>
        missingCheck operations observations pair.1 pair.2 := by
  rw [missingCheckLimitations, consecutiveSteps]
  cases item.bind (·.routeRevisionId) <;> rfl

/-! ## The run that stands for all -/

variable {operations : List OperationValue} {observations : List ObservationValue} {step next : RouteStep}
  {controlPoint : String}

/-- A run started without its check, while the run that stands for the operation has not started or has a check
since the run that stands for the step. -/
def Overshadowed (operations : List OperationValue) (observations : List ObservationValue)
    (step next : RouteStep) (controlPoint : String) : Prop :=
  ∃ start, StartedRun operations next.operationId start ∧
    ¬ CheckedBetween observations controlPoint (finishBefore operations step.operationId start) start ∧
    ∀ last, lastStarted operations next = some last →
      CheckedBetween observations controlPoint (lastFinish operations step) last

/-- The run that stands for the step finished after the next operation had started, and every run of that
operation started with its check. -/
def FinishedLate (operations : List OperationValue) (observations : List ObservationValue)
    (step next : RouteStep) (controlPoint : String) : Prop :=
  (∃ last finish, lastStarted operations next = some last ∧ lastFinish operations step = some finish ∧
    last < finish) ∧
    ∀ start, StartedRun operations next.operationId start →
      CheckedBetween observations controlPoint (finishBefore operations step.operationId start) start

theorem operationNamed_mem {operationId : String} {run : OperationValue}
    (h : operationNamed operations operationId = some run) :
    run ∈ operations ∧ run.operationId = some operationId := by
  obtain ⟨hmem, hid⟩ := List.mem_filter.mp (List.mem_of_getLast? h)
  exact ⟨hmem, of_decide_eq_true hid⟩

theorem startedRun_of_last {last : Instant} (h : lastStarted operations next = some last) :
    StartedRun operations next.operationId last := by
  obtain ⟨run, hrun, hstart⟩ := Option.bind_eq_some_iff.mp h
  obtain ⟨hmem, hid⟩ := operationNamed_mem hrun
  exact ⟨run, hmem, hid, hstart⟩

/-- A finish of the step that is early enough is no later than the one the rule looks from. -/
theorem lastFinish_le {finish start : Instant} (h : lastFinish operations step = some finish)
    (hle : finish ≤ start) :
    ∃ bound, finishBefore operations step.operationId start = some bound ∧ finish ≤ bound := by
  obtain ⟨run, hrun, hfinish⟩ := Option.bind_eq_some_iff.mp h
  obtain ⟨hmem, hid⟩ := operationNamed_mem hrun
  have hlisted : finish ∈ ((operations.filter fun run => decide (run.operationId =
      some step.operationId)).filterMap (·.finishedAt)).filter fun finish => decide (finish ≤ start) := by
    refine List.mem_filter.mpr ⟨List.mem_filterMap.mpr ⟨run, ?_, hfinish⟩, decide_eq_true hle⟩
    exact List.mem_filter.mpr ⟨hmem, decide_eq_true hid⟩
  cases hbound : finishBefore operations step.operationId start with
  | none =>
    rw [latestBy_eq_none.mp hbound] at hlisted
    cases hlisted
  | some bound => exact ⟨bound, rfl, latestBy_le hbound hlisted⟩

/-- What a later bound admits an earlier one does. -/
theorem checkedBetween_mono {lower lower' : Option Instant} {start : Instant}
    (h : ∀ bound, lower = some bound → ∃ bound', lower' = some bound' ∧ bound ≤ bound')
    (hchecked : CheckedBetween observations controlPoint lower' start) :
    CheckedBetween observations controlPoint lower start := by
  obtain ⟨obs, hobs, hpoint, hlower, hbefore⟩ := hchecked
  refine ⟨obs, hobs, hpoint, fun bound hbound => ?_, hbefore⟩
  obtain ⟨bound', hbound', hle⟩ := h bound hbound
  exact hle.trans (hlower bound' hbound')

/-- Unless it looks from a finish that came too late, the replay reports only unchecked steps. -/
theorem unchecked_of_missing {last : Instant} (hlast : lastStarted operations next = some last)
    (hmissing : ¬ CheckedBetween observations controlPoint (lastFinish operations step) last)
    (hearly : ∀ finish, lastFinish operations step = some finish → finish ≤ last) :
    Unchecked operations observations step next controlPoint := by
  refine ⟨last, startedRun_of_last hlast, fun hchecked => hmissing ?_⟩
  exact checkedBetween_mono (fun finish hfinish => lastFinish_le hfinish (hearly finish hfinish)) hchecked

theorem missingCheck_correct_iff (hpoint : requiredPoint step = some controlPoint) :
    (CheckReported operations observations step next controlPoint ↔
        Unchecked operations observations step next controlPoint) ↔
      ¬ Overshadowed operations observations step next controlPoint ∧
        ¬ FinishedLate operations observations step next controlPoint := by
  have hreported : CheckReported operations observations step next controlPoint ↔
      ∃ last, lastStarted operations next = some last ∧
        ¬ CheckedBetween observations controlPoint (lastFinish operations step) last := by
    simp only [CheckReported, missingCheck_eq_some, hpoint]
    constructor
    · rintro ⟨_, _, last, heq, hlast, hmissing, -⟩
      obtain rfl := Option.some.inj heq
      exact ⟨last, hlast, hmissing⟩
    · rintro ⟨last, hlast, hmissing⟩
      exact ⟨last, controlPoint, last, rfl, hlast, hmissing, rfl⟩
  rw [hreported]
  constructor
  · intro h
    constructor
    · rintro ⟨start, hrun, hunchecked, hlasts⟩
      obtain ⟨last, hlast, hmissing⟩ := h.mpr ⟨start, hrun, hunchecked⟩
      exact hmissing (hlasts last hlast)
    · rintro ⟨⟨last, finish, hlast, hfinish, hlate⟩, hchecked⟩
      -- nothing lies between a finish and an earlier start
      have hmissing : ¬ CheckedBetween observations controlPoint (lastFinish operations step) last := by
        rintro ⟨obs, -, -, hlower, hbefore⟩
        exact absurd ((hlower finish hfinish).trans hbefore) hlate.not_ge
      obtain ⟨start, hrun, hunchecked⟩ := h.mp ⟨last, hlast, hmissing⟩
      exact hunchecked (hchecked start hrun)
  · rintro ⟨hshadow, hlate⟩
    constructor
    · rintro ⟨last, hlast, hmissing⟩
      by_contra hchecked
      refine hlate ⟨?_, fun start hrun => ?_⟩
      · by_contra hnone
        refine hchecked (unchecked_of_missing hlast hmissing fun finish hfinish => ?_)
        by_contra hafter
        exact hnone ⟨last, finish, hlast, hfinish, not_le.mp hafter⟩
      · by_contra hunchecked
        exact hchecked ⟨start, hrun, hunchecked⟩
    · rintro ⟨start, hrun, hunchecked⟩
      by_contra hnone
      refine hshadow ⟨start, hrun, hunchecked, fun last hlast => ?_⟩
      by_contra hmissing
      exact hnone ⟨last, hlast, hmissing⟩

/-- The replay reports a required step exactly when some run of the next operation started without its check,
as long as no such run is overshadowed and the step did not finish late. -/
theorem missing_checks_iff (config : Configuration) (item : Option Item)
    (operations : List OperationValue) (observations : List ObservationValue) :
    missingCheckLimitations config item operations observations =
        (consecutiveSteps config item).filterMap (fun pair =>
          missingCheck operations observations pair.1 pair.2) ∧
      ((∀ pair ∈ consecutiveSteps config item, ∀ controlPoint, requiredPoint pair.1 = some controlPoint →
        (CheckReported operations observations pair.1 pair.2 controlPoint ↔
          Unchecked operations observations pair.1 pair.2 controlPoint)) ↔
      ∀ pair ∈ consecutiveSteps config item, ∀ controlPoint, requiredPoint pair.1 = some controlPoint →
        ¬ Overshadowed operations observations pair.1 pair.2 controlPoint ∧
          ¬ FinishedLate operations observations pair.1 pair.2 controlPoint) := by
  refine ⟨missingCheckLimitations_eq config item operations observations, fun h => ?_, fun h => ?_⟩
  · exact fun pair hpair controlPoint hpoint =>
      (missingCheck_correct_iff hpoint).mp (h pair hpair controlPoint hpoint)
  · exact fun pair hpair controlPoint hpoint =>
      (missingCheck_correct_iff hpoint).mpr (h pair hpair controlPoint hpoint)

/-! ### A repeated operation -/

/-- The turned part is checked at CP-1. -/
def turnStep : RouteStep where
  routeRevisionId := 1
  position := 1
  operationId := "OP-TURN"
  controlPointId := some "CP-1"
  requiredInspection := true

def grindStep : RouteStep where
  routeRevisionId := 1
  position := 2
  operationId := "OP-GRIND"
  controlPointId := none
  requiredInspection := false

def pinnedItem : Item where
  itemId := "item-1"
  productDefinitionId := "part-1"
  revision := "A"
  lineId := none
  routeRevisionId := some 1
  structureStatus := .available
  registeredAt := 0

def runOf (runId operationId : String) (startedAt finishedAt : Instant) : OperationValue where
  operationRunId := runId
  operationId := some operationId
  startedAt := some startedAt
  finishedAt := some finishedAt

def checkAt (time : Instant) : ObservationValue where
  payload :=
    { inspectionResult := .noDefect
      observationQuality := .good
      controlPointId := "CP-1" }
  itemId := some "item-1"
  operationRunId := none
  eventId := "e-1"
  occurredAt := time
  trustStatus := .trusted
  trustReasons := []

/-- The part is ground, checked and ground again. -/
def groundTwice : List OperationValue :=
  [runOf "run-1" "OP-TURN" 1 2, runOf "run-2" "OP-GRIND" 3 4, runOf "run-3" "OP-GRIND" 6 7]

/-- The part is turned, checked and ground, and turned once more later. -/
def turnedAgain : List OperationValue :=
  [runOf "run-1" "OP-TURN" 1 2, runOf "run-2" "OP-GRIND" 6 7, runOf "run-3" "OP-TURN" 8 9]

/-- The first grinding started unchecked and nothing is reported; the only one started checked and is
reported. -/
theorem missing_checks_collapsed :
    (¬ ∀ (config : Configuration) (item : Option Item) (operations : List OperationValue)
      (observations : List ObservationValue), ∀ pair ∈ consecutiveSteps config item, ∀ controlPoint,
        requiredPoint pair.1 = some controlPoint →
        Unchecked operations observations pair.1 pair.2 controlPoint →
        CheckReported operations observations pair.1 pair.2 controlPoint) ∧
    ¬ ∀ (config : Configuration) (item : Option Item) (operations : List OperationValue)
      (observations : List ObservationValue), ∀ pair ∈ consecutiveSteps config item, ∀ controlPoint,
        requiredPoint pair.1 = some controlPoint →
        CheckReported operations observations pair.1 pair.2 controlPoint →
        Unchecked operations observations pair.1 pair.2 controlPoint := by
  have hpair : (turnStep, grindStep) ∈
      consecutiveSteps { routeSteps := [turnStep, grindStep] } (some pinnedItem) := by decide +kernel
  constructor
  · intro h
    have hunchecked : Unchecked groundTwice [checkAt 5] turnStep grindStep "CP-1" := by
      refine ⟨3, ⟨runOf "run-2" "OP-GRIND" 3 4, by decide +kernel, rfl, rfl⟩, ?_⟩
      rintro ⟨obs, hobs, -, -, hbefore⟩
      rw [List.mem_singleton.mp hobs] at hbefore
      exact absurd hbefore (by decide)
    obtain ⟨start, hreported⟩ := h _ _ groundTwice [checkAt 5] _ hpair "CP-1" rfl hunchecked
    have hnone : missingCheck groundTwice [checkAt 5] turnStep grindStep = none := by decide +kernel
    rw [hnone] at hreported
    cases hreported
  · intro h
    have hreported : CheckReported turnedAgain [checkAt 5] turnStep grindStep "CP-1" := ⟨6, by decide +kernel⟩
    obtain ⟨start, ⟨run, hrun, hgrind, hstart⟩, hmissing⟩ :=
      h _ _ turnedAgain [checkAt 5] _ hpair "CP-1" rfl hreported
    -- the part is ground once, after the check
    have hsix : ∀ run ∈ turnedAgain, run.operationId = some "OP-GRIND" → run.startedAt = some 6 := by
      decide +kernel
    obtain rfl := Option.some.inj ((hsix run hrun hgrind).symm.trans hstart)
    refine hmissing ⟨checkAt 5, List.mem_cons_self, rfl, fun bound hbound => ?_, by decide⟩
    have hturned : finishBefore turnedAgain turnStep.operationId 6 = some 2 := by decide +kernel
    obtain rfl := Option.some.inj (hturned.symm.trans hbound)
    decide

end TraceQ.Properties
