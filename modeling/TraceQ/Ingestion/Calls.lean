import TraceQ.Api.Events
import TraceQ.Ingestion.Authentication

/-! # Whole calls

`ingest_event` in `backend/app/ingestion/service.py` from the request to the answer, one call at a time,
and `receive_event` in `backend/app/api/events.py` around it. Audit entries are not kept.
-/
namespace TraceQ.Ingestion
open Projections Security Tables
set_option autoImplicit false
set_option maxHeartbeats 250000

/-! ## Answers -/

inductive ProjectionReport where
  | unchanged | stale | notApplicable | updated | failed
deriving DecidableEq, Repr

inductive Warning where
  | suspiciousDuration
deriving DecidableEq, Repr

structure IngestAnswer where
  eventId : String
  result : IngestionResult
  projectionStatus : ProjectionReport
  contentHash : ContentHash
  warnings : List Warning := []
deriving DecidableEq

def DurationUnit.factor : DurationUnit → ℚ
  | .ms => 1 / 1000
  | .s => 1
  | .min => 60
  | .h => 3600

def dataQualityWarnings (event : EventEnvelope) : List Warning :=
  match event.payload with
  | .operationFinished payload =>
      match payload.duration with
      | some duration =>
          if 4 * 3600 < duration.value * DurationUnit.factor duration.unit then [.suspiciousDuration]
          else []
      | none => []
  | _ => []

/-! ## The scope of a source -/

def lineIdOf : Payload → Option String
  | .itemRegistered payload => payload.lineId
  | _ => none

def stationIdOf : Payload → Option String
  | .operationStarted payload => some payload.stationId
  | _ => none

/-- `allowed and value not in (None, *allowed)`. -/
def outside (allowed : List String) (value : Option String) : Bool :=
  !allowed.isEmpty && value.any fun id => !allowed.contains id

def scopeViolation (message : String) : Raised := .refused ⟨"SOURCE_SCOPE_VIOLATION", message, 403⟩

def checkScope (source : EventSource) (event : EventEnvelope) : Except Raised Unit :=
  if event.source.sourceId ≠ source.sourceId ∨ event.source.sourceType ≠ source.sourceType then
    .error (.refused ⟨"SOURCE_IDENTITY_MISMATCH",
      "Authenticated source does not match the event source", 403⟩)
  else if !source.allowedEventTypes.contains (eventTypeOf event.payload) then
    .error (.refused ⟨"EVENT_TYPE_NOT_ALLOWED",
      "Source is not allowed to submit this event type", 403⟩)
  else if outside source.allowedLineIds (lineIdOf event.payload) then
    .error (scopeViolation "Source is outside its allowed line scope")
  else if outside source.allowedStationIds (stationIdOf event.payload) then
    .error (scopeViolation "Source is outside its allowed station scope")
  else if eventTypeOf event.payload = "control_device.invalidated" ∧
      source.sourceType ≠ "calibration_system" then
    .error (scopeViolation "Only a calibration source may invalidate a control device")
  else .ok ()

/-- Validation and scope. -/
def admission (g : Gateway) (source : EventSource) (value : Json) : Except Raised IncomingEvent := do
  let incoming ← validateEvent g.reading value
  checkScope source incoming.event
  return incoming

/-! ## Sequence tracking -/

/-- The value `max` leaves; an unset or zero value counts as -1. -/
def trackedSequence (source : EventSource) (sequence : ℕ) : ℕ :=
  max (source.lastSourceSequence.getD 0) sequence

def sequenceAlerts (source : EventSource) (event : EventEnvelope) : List SecurityAlert :=
  match event.source.sequence, source.lastSourceSequence with
  | some sequence, some previous =>
      if sequence ≤ previous then
        [{ alertType := .sourceSequenceAnomaly
           sourceId := some source.sourceId
           targetId := some event.eventId
           details := .sequences previous sequence }]
      else []
  | _, _ => []

def trackSequence (source : EventSource) (event : EventEnvelope) (sources : List EventSource) :
    List EventSource :=
  match event.source.sequence with
  | none => sources
  | some sequence =>
      modifyWhere (fun row => decide (row.sourceId = source.sourceId))
        (fun row => { row with lastSourceSequence := some (trackedSequence source sequence) }) sources

/-! ## What the columns take -/

/-- The event id and the sequence number. -/
def namesFit (event : EventEnvelope) : Bool :=
  storable event.eventId && event.source.sequence.all fun sequence => decide (sequence < 2 ^ 63)

/-- Representable as a `datetime` in UTC. -/
def representable (time : Instant) : Bool :=
  decide (-62135596800000000 ≤ time ∧ time ≤ 253402300799999999)

def textsOf : Payload → List String
  | .controlDeviceInvalidated payload =>
      payload.deviceId :: payload.reason ::
        (payload.invalidationType.toList ++ payload.supportingEvidenceRefs)
  | _ => []

/-- The columns of the raw event, its stream and the invalidation it carries. -/
def rowFits (event : EventEnvelope) : Bool :=
  decide ((streamIdOf event).length ≤ 128) && representable event.occurredAt &&
    (event.itemId.toList ++ event.operationRunId.toList ++ textsOf event.payload).all storable

/-! ## One call -/

section Call
variable (g : Gateway) (s : Store)

def refuse (call : IngestCall) : Raised → Store × Except Raised IngestAnswer
  | .refused error =>
      let recorded := recordRejectedAttempt s call.headerSourceId (claimedEventId g call.value) error
      (recorded.1, .error recorded.2)
  | .crashed exception => (s, .error (.crashed exception))

/-- The head of the event's stream, of a new stream if the source has none yet. -/
def streamHead (streamId : String) : StreamHead :=
  match s.db.integrityStreamStates.find? fun stream => decide (stream.streamId = streamId) with
  | some stream => { stream with lastMac := s.lastMac streamId }
  | none => { streamId := streamId }

def eventAttempt (source : EventSource) (event : EventEnvelope) (status : AttemptStatus) :
    IngestAttempt where
  sourceId := some source.sourceId
  claimedEventId := some event.eventId
  status := status
  errorCode := if status = .conflict then some "EVENT_ID_CONFLICT" else none
  rawEventId := some event.eventId
  payloadHash := some event.contentHash

def eventIdConflict : TraceQError :=
  ⟨"EVENT_ID_CONFLICT", "The event ID already exists with different content", 409⟩

/-- The store with what the session of an authenticated event holds so far. -/
def tracked (source : EventSource) (event : EventEnvelope) : Store :=
  { s with
    sources := trackSequence source event s.sources
    alerts := s.alerts ++ sequenceAlerts source event }

/-- The event id is taken: a duplicate, or a conflict. -/
def repeatEvent (source : EventSource) (event : EventEnvelope) (existing : RawEvent) :
    Store × Except Raised IngestAnswer :=
  let s := tracked s source event
  if existing.event.contentHash = event.contentHash then
    ({ s with attempts := s.attempts ++ [eventAttempt source event .duplicate] },
      .ok ⟨event.eventId, ⟨.duplicate, []⟩, .unchanged, event.contentHash, []⟩)
  else
    ({ s with
        attempts := s.attempts ++ [eventAttempt source event .conflict]
        alerts := s.alerts ++
          [{ alertType := .eventIdConflict
             sourceId := some source.sourceId
             targetId := some event.eventId }] },
      .error (.refused eventIdConflict))

/-- Another event has the place in the stream. -/
def placeTaken (event : EventEnvelope) : Bool :=
  s.db.rawEvents.any fun raw => decide (raw.integrityStreamId = streamIdOf event ∧
    raw.integritySeq = (streamHead s (streamIdOf event)).lastSeq + 1)

/-- An exception after the insert: everything is rolled back but the `Identity()` sequence. -/
def drawnSequence : Store := { s with db := { s.db with nextIngestSeq := s.db.nextIngestSeq + 1 } }

/-- The event is new. -/
def appendEvent (source : EventSource) (incoming : IncomingEvent) (call : IngestCall) :
    Store × Except Raised IngestAnswer :=
  let event := incoming.event
  let streamId := streamIdOf event
  let row := sealEvent g.crypto (streamHead s streamId) incoming call.now s.db.nextIngestSeq call.aesNonce
  if rowFits event = false then (s, .error (.crashed .dataError))
  else if placeTaken s event then (drawnSequence s, .error (.crashed .integrityError))
  else match markIngested (appendRaw s.db event call.now) event s.db.nextIngestSeq with
    | .error _ => (drawnSequence s, .error (.crashed .typeError))
    | .ok marked =>
        let recorded := recordInvalidation marked event
        let s := tracked s source event
        ({ s with
            db := recorded.1
            sealed := s.sealed ++ [row]
            lastMac := Function.update s.lastMac streamId row.integrityMac
            attempts := s.attempts ++ [eventAttempt source event .accepted] },
          .ok ⟨event.eventId, ⟨.accepted, recorded.2⟩,
            if truthy event.itemId then .stale else .notApplicable, event.contentHash,
            dataQualityWarnings event⟩)

def ingestAdmitted (source : EventSource) (incoming : IncomingEvent) (call : IngestCall) :
    Store × Except Raised IngestAnswer :=
  if namesFit incoming.event = false then (s, .error (.crashed .dataError))
  else match findRawEvent s.db incoming.event.eventId with
    | some existing => repeatEvent s source incoming.event existing
    | none => appendEvent g s source incoming call

def ingestCall (call : IngestCall) : Store × Except Raised IngestAnswer :=
  let authenticated := authenticateSource g s call
  match authenticated.2 with
  | .error raised => refuse g authenticated.1 call raised
  | .ok source =>
      match admission g source call.value with
      | .error raised => refuse g authenticated.1 call raised
      | .ok incoming => ingestAdmitted g authenticated.1 source incoming call

/-! ## The endpoint -/

/-- `value.get("item_id") or (value.get("payload") or {}).get("item_id")`. -/
def bodyItemId (r : Reading) : Json → Except Raised Json
  | .obj fields =>
      let itemId := getField fields "item_id"
      let payload := getField fields "payload"
      if itemId.truthy r then .ok itemId
      else if payload.truthy r = false then .ok .null
      else match payload with
        | .obj fields => .ok (getField fields "item_id")
        | _ => .error (.crashed .attributeError)
  | _ => .error (.crashed .attributeError)

/-- The event's own item, if it is to be rebuilt. -/
def ownTarget (answer : IngestAnswer) : Json → List String
  | .str itemId => if answer.result.ingestionStatus = .accepted ∧ itemId ≠ "" then [itemId] else []
  | _ => []

def reported (db : Database) (answer : IngestAnswer) : List String → ProjectionReport
  | [] => answer.projectionStatus
  | itemId :: _ => if (rebuildItem db itemId).isOk then .updated else .failed

def receiveCall (call : IngestCall) : Store × Except Raised IngestAnswer :=
  let ingested := ingestCall g s call
  match ingested.2 with
  | .error raised => (ingested.1, .error raised)
  | .ok answer =>
      match bodyItemId g.reading call.value with
      | .error raised => (ingested.1, .error raised)
      | .ok itemId =>
          let own := ownTarget answer itemId
          let done := (own ++ answer.result.affectedItems).foldl Api.rebuildStep (ingested.1.db, [])
          ({ ingested.1 with db := done.1 },
            .ok { answer with projectionStatus := reported ingested.1.db answer own })

end Call

end TraceQ.Ingestion
