import TraceQ.Projections.Linking

/-! # Rebuilding the projection of an item

`rebuild_item`, `mark_projection_failed` and `recover_stale_projections`. A rebuild is one
transaction: either it commits the database it returns, or it raises and nothing it wrote stays.
-/
namespace TraceQ.Projections
open Quality Tables
set_option autoImplicit false
set_option maxHeartbeats 250000

def findState (db : Database) (itemId : String) : Option ProjectionState :=
  db.projectionStates.find? fun state => decide (state.itemId = itemId)

/-- `db.get(ProjectionState, item_id)`, or a new row when there is none, updated by `f`. -/
def updateState (db : Database) (itemId : String) (f : ProjectionState → ProjectionState) : Database :=
  { db with projectionStates := upsert (·.itemId) itemId { itemId := itemId } f db.projectionStates }

/-- `max(raw.ingest_seq for raw in raws)`. -/
def maxIngestSeq (raws : List RawEvent) : ℕ := (raws.map (·.ingestSeq)).foldl max 0

def projected (raws : List RawEvent) (state : ProjectionState) : ProjectionState :=
  { state with
    latestRawIngestSeq := maxIngestSeq raws
    lastProjectedIngestSeq := maxIngestSeq raws
    projectionVersion := state.projectionVersion + 1
    status := .upToDate
    lastError := none }

/-- What the analyses of the item look at. -/
def analysisContext (db : Database) (itemId : String) (values : ReplayValues) : AnalysisContext where
  observations := values.observations
  operations := values.operations
  machineEvents := values.machineEvents
  operatorActions := values.operatorActions
  limitations := missingCheckLimitations db.config (findItem db itemId) values.operations
    values.observations

def rebuildItem (db : Database) (itemId : String) : Except ReplayError Database :=
  match history db itemId with
  | [] => .ok (updateState db itemId fun state => { state with status := .upToDate })
  | raws => do
      let values := replay db itemId
      let stored ← storeProjection db itemId values
      let registered := projectItem stored itemId values.item
      let linked ← linkSightings itemId (analysisContext registered itemId values) registered
        (sightings values.observations)
      return updateState linked itemId (projected raws)

def markProjectionFailed (db : Database) (itemId : String) (error : ReplayError) : Database :=
  updateState db itemId fun state => { state with status := .failed, lastError := some error }

/-- A rebuild whose failure is rolled back and recorded. -/
def rebuildOrMark (db : Database) (itemId : String) : Database :=
  match rebuildItem db itemId with
  | .ok rebuilt => rebuilt
  | .error error => markProjectionFailed db itemId error

theorem rebuildItem_rebuildOrMark {db : Database} {itemId : String}
    (h : (rebuildItem db itemId).isOk = true) :
    rebuildItem db itemId = .ok (rebuildOrMark db itemId) := by
  unfold rebuildOrMark
  cases hrebuild : rebuildItem db itemId with
  | ok rebuilt => rfl
  | error error => rw [hrebuild] at h; cases h

/-- The items `recover_stale_projections` selects. -/
def staleItems (db : Database) : List String :=
  (db.projectionStates.filter fun state =>
    decide (state.lastProjectedIngestSeq < state.latestRawIngestSeq) ||
      [.stale, .failed, .rebuilding].contains state.status).map (·.itemId)

def recoverStaleProjections (db : Database) : Database :=
  (staleItems db).foldl rebuildOrMark db

end TraceQ.Projections
