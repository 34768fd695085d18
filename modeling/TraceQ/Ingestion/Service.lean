import TraceQ.Projections.Rebuild

/-! # Accepting an event

`ingest_event` in `backend/app/ingestion/service.py` from the point where the event has been
authenticated, validated and found within the scope of its source. Attempts, alerts and the MAC
chain are not kept here; the stored ciphertext is the event it decrypts to.
-/
namespace TraceQ.Ingestion
open Projections Tables
set_option autoImplicit false
set_option maxHeartbeats 250000

inductive IngestError where
  /-- `EVENT_ID_CONFLICT`. -/
  | eventIdConflict
  /-- `TypeError`: `max(None, ingest_seq)` on a `ProjectionState` that was never flushed. -/
  | unsetDefault
deriving DecidableEq, Repr

inductive IngestionStatus where
  | accepted | duplicate
deriving DecidableEq, Repr

structure IngestionResult where
  ingestionStatus : IngestionStatus
  affectedItems : List String := []
deriving DecidableEq

def findRawEvent (db : Database) (eventId : String) : Option RawEvent :=
  db.rawEvents.find? fun raw => decide (raw.eventId = eventId)

def streamIdOf (event : EventEnvelope) : String := "source:" ++ event.source.sourceId

/-- `stream.last_seq`, of a new stream if the source has none yet. -/
def lastSeq (db : Database) (streamId : String) : ℕ :=
  ((db.integrityStreamStates.find? fun stream => decide (stream.streamId = streamId)).map (·.lastSeq)).getD 0

/-- Insert the raw event and advance its integrity stream. -/
def appendRaw (db : Database) (event : EventEnvelope) (receivedAt : Instant) : Database :=
  let streamId := streamIdOf event
  { db with
    rawEvents := db.rawEvents ++
      [⟨event, receivedAt, db.nextIngestSeq, streamId, lastSeq db streamId + 1⟩]
    integrityStreamStates := upsert (·.streamId) streamId { streamId := streamId }
      (fun stream => { stream with lastSeq := stream.lastSeq + 1 }) db.integrityStreamStates
    nextIngestSeq := db.nextIngestSeq + 1 }

/-- Mark the projection of the event's item stale. -/
def markIngested (db : Database) (event : EventEnvelope) (ingestSeq : ℕ) :
    Except IngestError Database :=
  match event.itemId with
  | none => .ok db
  | some itemId =>
      if itemId.isEmpty then .ok db
      else match findState db itemId with
        | none => .error .unsetDefault
        | some _ => .ok (updateState db itemId fun state =>
            { state with
              latestRawIngestSeq := max state.latestRawIngestSeq ingestSeq
              status := .stale })

/-- The items with an observation of the device in the interval, sorted. -/
def affectedItems (db : Database) (deviceId : String) (affectedFrom affectedTo : Instant) :
    List String :=
  (((db.observations.filter fun obs =>
    decide (obs.controlDeviceId = some deviceId ∧
      affectedFrom ≤ obs.occurredAt ∧ obs.occurredAt ≤ affectedTo)).map (·.itemId)).dedup).insertionSort
    fun a b => a ≤ b

def markStale (db : Database) (itemId : String) : Database :=
  { db with
    projectionStates := modifyWhere (fun state => decide (state.itemId = itemId))
      (fun state => { state with status := .stale }) db.projectionStates }

/-- The record of a `control_device.invalidated` event. -/
def invalidationRecord (event : EventEnvelope) (payload : ControlDeviceInvalidatedPayload) :
    ControlDeviceInvalidation where
  sourceEventId := some event.eventId
  deviceId := payload.deviceId
  affectedFrom := payload.affectedFrom
  affectedTo := payload.affectedTo
  reason := payload.reason
  invalidationType := payload.invalidationType
  supportingEvidenceRefs := payload.supportingEvidenceRefs
  createdByUserId := none

/-- Record the invalidation an event carries and find the items it affects. -/
def recordInvalidation (db : Database) (event : EventEnvelope) : Database × List String :=
  match event.payload with
  | .controlDeviceInvalidated payload =>
      let affected := affectedItems db payload.deviceId payload.affectedFrom payload.affectedTo
      (affected.foldl markStale
        { db with
          controlDeviceInvalidations := db.controlDeviceInvalidations ++
            [invalidationRecord event payload] }, affected)
  | _ => (db, [])

def ingestEvent (db : Database) (event : EventEnvelope) (receivedAt : Instant) :
    Except IngestError (Database × IngestionResult) :=
  match findRawEvent db event.eventId with
  | some existing =>
      if existing.event.contentHash = event.contentHash then .ok (db, ⟨.duplicate, []⟩)
      else .error .eventIdConflict
  | none => do
      let marked ← markIngested (appendRaw db event receivedAt) event db.nextIngestSeq
      let recorded := recordInvalidation marked event
      return (recorded.1, ⟨.accepted, recorded.2⟩)

end TraceQ.Ingestion
