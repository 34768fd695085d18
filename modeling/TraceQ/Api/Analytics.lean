import TraceQ.Persistence.Models

/-! # The quality figures

`quality_kpi` in `backend/app/api/analytics.py`, in exact arithmetic. The texts under `notes` are left out, and
so is the order of groups of the same size, which the queries leave open.
-/
namespace TraceQ.Api
open Tables
set_option autoImplicit false
set_option maxHeartbeats 250000

/-! ## Aggregates -/

/-- `count(distinct column)`. -/
def countDistinct (column : List String) : ℕ := column.dedup.length

/-- `GROUP BY` with the size of each group. -/
def groupCounts {κ : Type} [DecidableEq κ] (keys : List κ) : List (κ × ℕ) :=
  keys.dedup.map fun key => (key, keys.count key)

/-- `sum(values) / len(values) if values else None`. -/
def average (values : List ℚ) : Option ℚ :=
  if values.isEmpty then none else some (values.sum / values.length)

/-- The value at the ratio of the way through the sorted values, between its two neighbours. -/
def percentile (values : List ℚ) (ratio : ℚ) : Option ℚ :=
  if values.isEmpty then none
  else
    let position := (values.length - 1 : ℚ) * ratio
    let lower := ⌊position⌋₊
    let upper := min (lower + 1) (values.length - 1)
    let fraction := position - lower
    some (values.getD lower 0 * (1 - fraction) + values.getD upper 0 * fraction)

def sorted (values : List ℚ) : List ℚ := values.insertionSort (· ≤ ·)

/-- `(later - earlier).total_seconds()`. -/
def totalSeconds (earlier later : Instant) : ℚ := (later - earlier : ℤ) / 1000000

/-! ## Columns -/

/-- The items with a TRUSTED observation. -/
def trustedItems (db : Database) : List String :=
  (db.observations.filter fun obs => decide (obs.trustStatus = .trusted)).map (·.itemId)

/-- The items with a confirmed nonconformance. -/
def confirmedItems (db : Database) : List String :=
  (db.nonconformances.filter fun ncr => decide (ncr.verdict = .confirmed)).map (·.itemId)

/-- The items of the rework runs. -/
def reworkItems (db : Database) : List String :=
  (db.operationRuns.filter fun run => decide (run.runReason = .rework)).map (·.itemId)

/-- The line of the item and the station of the run of every defect observation of a registered item. -/
def detectionPlaces (db : Database) : List (Option String × Option String) :=
  db.defectObservations.filterMap fun defect => do
    let obs ← db.observations.find? fun obs => decide (obs.id = defect.observationId)
    let item ← db.items.find? fun item => decide (item.itemId = obs.itemId)
    let run := db.operationRuns.find? fun run => decide (some run.operationRunId = obs.operationRunId)
    return (item.lineId, run.bind (·.stationId))

/-- Seconds in the unit of a duration. -/
def unitSeconds : DurationUnit → ℚ
  | .ms => 1 / 1000
  | .s => 1
  | .min => 60
  | .h => 3600

/-- The durations of the runs that report one, in seconds. -/
def runDurations (db : Database) : List ℚ :=
  db.operationRuns.filterMap fun run =>
    run.durationValue.map fun value => value * unitSeconds (run.durationUnit.getD .s)

/-- The widths of the bounded birth windows, in seconds. -/
def windowWidths (db : Database) : List ℚ :=
  db.analysisVersions.filterMap fun version => do
    let left ← version.leftBoundaryAt
    let right ← version.rightBoundaryAt
    return totalSeconds left right

/-- How long after the end of its run a trusted defect was seen, in seconds. -/
def detectionDelays (db : Database) : List ℚ :=
  db.observations.filterMap fun obs => do
    let run ← db.operationRuns.find? fun run => decide (some run.operationRunId = obs.operationRunId)
    let finishedAt ← run.finishedAt
    if obs.inspectionResult = .defectDetected ∧ obs.trustStatus = .trusted ∧ finishedAt ≤ obs.occurredAt then
      return totalSeconds finishedAt obs.occurredAt
    else none

/-! ## The endpoint -/

structure QualityKpi where
  calculatedAt : Instant
  recalculatedAt : Instant
  inspectedItems : ℕ
  assessableInspectedItems : ℕ
  itemsWithConfirmedNc : ℕ
  numberOfUniqueDefects : ℕ
  defectsByType : List (String × ℕ)
  detectedDefectsByLineStation : List ((Option String × Option String) × ℕ)
  establishedCauses : ℕ
  unknownCauses : ℕ
  operationDurationAvgSeconds : Option ℚ
  operationDurationMedianSeconds : Option ℚ
  operationDurationP95Seconds : Option ℚ
  reworkCount : ℕ
  reworkItemRate : Option ℚ
  firstPassYield : Option ℚ
  birthWindowWidthAvgSeconds : Option ℚ
  birthWindowWidthP95Seconds : Option ℚ
  postOperationDetectionDelayAvgSeconds : Option ℚ
deriving DecidableEq

def causes (db : Database) (status : CauseStatus) : ℕ :=
  db.nonconformances.countP fun ncr => decide (ncr.causeStatus = status)

def qualityKpi (db : Database) (calculatedAt : Instant) : QualityKpi :=
  let assessable := countDistinct (trustedItems db)
  let confirmed := countDistinct (confirmedItems db)
  let total := db.items.length
  let rework := countDistinct (reworkItems db)
  let durations := sorted (runDurations db)
  let widths := windowWidths db
  { calculatedAt := calculatedAt
    recalculatedAt := calculatedAt
    inspectedItems := countDistinct (db.observations.map (·.itemId))
    assessableInspectedItems := assessable
    itemsWithConfirmedNc := confirmed
    numberOfUniqueDefects := db.defectOccurrences.length
    defectsByType := (groupCounts (db.defectOccurrences.map (·.defectType))).insertionSort fun a b => b.2 ≤ a.2
    detectedDefectsByLineStation := groupCounts (detectionPlaces db)
    establishedCauses := causes db .confirmedByHuman
    unknownCauses := causes db .notEstablished
    operationDurationAvgSeconds := average durations
    operationDurationMedianSeconds := percentile durations (1 / 2)
    operationDurationP95Seconds := percentile durations (95 / 100)
    reworkCount := db.operationRuns.countP fun run => decide (run.runReason = .rework)
    reworkItemRate := if total = 0 then none else some (rework / total)
    firstPassYield := if assessable = 0 then none else some ((assessable - confirmed) / assessable)
    birthWindowWidthAvgSeconds := average widths
    birthWindowWidthP95Seconds := percentile (sorted widths) (95 / 100)
    postOperationDetectionDelayAvgSeconds := average (detectionDelays db) }

end TraceQ.Api
