import TraceQ.Ingestion.Service

/-! # Endpoints that trigger rebuilds

`receive_event` in `backend/app/api/events.py` and `invalidate_device` in `backend/app/api/risk.py`.
-/
namespace TraceQ.Api
open Projections Ingestion
set_option autoImplicit false
set_option maxHeartbeats 250000

/-- What a delivery leaves behind: the committed database, the answer of the ingestion and the
items whose rebuild failed. -/
structure ReceiveResult where
  db : Database
  ingestion : IngestionResult
  failedRebuilds : List String

/-- The items the endpoint rebuilds after an accepted event: its own, then the affected ones. -/
def rebuildTargets (event : EventEnvelope) (result : IngestionResult) : List String :=
  (match event.itemId with
    | some itemId =>
        if result.ingestionStatus = .accepted ∧ itemId.isEmpty = false then [itemId] else []
    | none => []) ++ result.affectedItems

/-- One rebuild of the endpoint in its own transaction. -/
def rebuildStep (state : Database × List String) (itemId : String) : Database × List String :=
  match rebuildItem state.1 itemId with
  | .ok rebuilt => (rebuilt, state.2)
  | .error error => (markProjectionFailed state.1 itemId error, state.2 ++ [itemId])

def receiveEvent (db : Database) (event : EventEnvelope) (receivedAt : Instant) :
    Except IngestError ReceiveResult := do
  let (ingested, result) ← ingestEvent db event receivedAt
  let done := (rebuildTargets event result).foldl rebuildStep (ingested, [])
  return ⟨done.1, result, done.2⟩

/-! ## Manual invalidation of a device -/

structure InvalidationInput where
  deviceId : String
  affectedFrom : Instant
  affectedTo : Instant
  reason : String
  invalidationType : Option String := none
  supportingEvidenceRefs : List String := []

/-- The rebuild loop in the endpoint's own session: every rebuild commits, and an exception keeps
what was committed before it. -/
def rebuildAll (committed session : Database) : List String → Database × Option ReplayError
  | [] => (session, none)
  | itemId :: rest =>
      match rebuildItem session itemId with
      | .ok rebuilt => rebuildAll rebuilt rebuilt rest
      | .error error => (committed, some error)

def invalidateDevice (db : Database) (body : InvalidationInput) (userId : Uuid) :
    Database × Option ReplayError :=
  let recorded : Database :=
    { db with
      controlDeviceInvalidations := db.controlDeviceInvalidations ++
        [{ sourceEventId := none
           deviceId := body.deviceId
           affectedFrom := body.affectedFrom
           affectedTo := body.affectedTo
           reason := body.reason
           invalidationType := body.invalidationType
           supportingEvidenceRefs := body.supportingEvidenceRefs
           createdByUserId := some userId }] }
  rebuildAll db recorded (affectedItems recorded body.deviceId body.affectedFrom body.affectedTo)

end TraceQ.Api
