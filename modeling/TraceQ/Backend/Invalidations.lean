import TraceQ.Ingestion.Service
import TraceQ.Projections.Recovery

/-! # Invalidations beside rebuilds

The transactions that record the invalidation of a device, by a `control_device.invalidated` event or
by the `invalidate_device` endpoint, with the rebuilds they trigger, beside ingestions of inspections
and rebuilds of any item, under READ COMMITTED. An invalidation looks for projected observations, and
a rebuild looks for recorded invalidations once per inspection.

After its record is committed an endpoint runs to its end. A rebuild of `invalidate_device` that
raises then would end it; such calls do not commit and are not part of these runs.
-/
namespace TraceQ.Backend
open Projections Ingestion Quality Tables Transactions
set_option autoImplicit false
set_option maxHeartbeats 250000

/-! ## The committed rows -/

structure DeviceTables where
  rawEvents : List RawEvent
  invalidations : List ControlDeviceInvalidation
  observations : List Observation
  /-- The status of the `ProjectionState` row of an item, if there is one. -/
  status : String → Option ProjectionStatus

/-- An inspection as a rebuild values it, with the invalidations committed at that time. -/
structure Valued where
  value : ObservationValue
  seen : List ControlDeviceInvalidation

/-- `rebuild_item` on one event of the history. -/
def valuedEvent (config : Configuration) (seen : List ControlDeviceInvalidation) (raw : RawEvent) :
    Option Valued :=
  match raw.payload with
  | .inspectionResult payload =>
      some ⟨observationValue { config := config, controlDeviceInvalidations := seen } raw payload, seen⟩
  | _ => none

/-- The observation rows a rebuild writes. -/
def valuedRows (itemId : String) (done : List Valued) : List Observation :=
  (markConflicts (done.map (·.value))).map (observationRow itemId)

/-- The events of an item in business order. -/
def itemHistory (tables : DeviceTables) (itemId : String) : List RawEvent :=
  history { rawEvents := tables.rawEvents } itemId

/-- The items with an observation the record covers. -/
def foundItems (tables : DeviceTables) (record : ControlDeviceInvalidation) : List String :=
  affectedItems { observations := tables.observations } record.deviceId record.affectedFrom
    record.affectedTo

/-- Mark the rows of the items that were read, as far as they differ from `stale`. -/
def markRead (reads : List (String × Option ProjectionStatus))
    (status : String → Option ProjectionStatus) : String → Option ProjectionStatus := fun itemId =>
  match reads.lookup itemId with
  | some (some read) => (status itemId).map (written read .stale)
  | _ => status itemId

/-- The status `mark_projection_failed` leaves: `read` is the one it read, if there was a row. -/
def failedStatus : Option ProjectionStatus → Option ProjectionStatus → ProjectionStatus
  | some read, some current => written read .failed current
  | _, _ => .failed

/-! ## The transactions -/

inductive JobKind where
  /-- A rebuild of its own. -/
  | single
  /-- One of the rebuilds that follow an invalidation event. -/
  | event
  /-- One of the rebuilds of `invalidate_device`. -/
  | human
deriving DecidableEq

inductive JobPhase where
  | start
  | read (status : Option ProjectionStatus)
  | flushed (isNew : Bool)
  /-- Under the advisory lock, with the events read and those still to be valued. -/
  | valuing (isNew : Bool) (raws todo : List RawEvent) (done : List Valued)
  | raised
  | failedRead (status : Option ProjectionStatus)

/-- A rebuild and the items to be rebuilt after it. The record of `invalidate_device` is committed
with its first rebuild. -/
structure Job where
  kind : JobKind
  itemId : String
  phase : JobPhase := .start
  own : Option ControlDeviceInvalidation := none
  rest : List String := []

inductive DeviceTransaction where
  | ingest (raw : RawEvent) (itemId : String)
  | ingestRead (raw : RawEvent) (itemId : String) (read : Option ProjectionStatus)
  /-- By the event in `source`, or by `invalidate_device`. -/
  | invalidates (source : Option RawEvent) (record : ControlDeviceInvalidation)
  | found (source : Option RawEvent) (record : ControlDeviceInvalidation) (items : List String)
  /-- The rows of the items found are read one by one. -/
  | marks (raw : RawEvent) (record : ControlDeviceInvalidation) (items todo : List String)
      (reads : List (String × Option ProjectionStatus))
  | rebuilds (job : Job)

/-- The item of the event itself, which is marked and rebuilt first. -/
def ownItem (raw : RawEvent) : List String := raw.itemId.toList.filter fun itemId => decide (itemId ≠ "")

/-- The next rebuild of an endpoint. -/
def nextJob (kind : JobKind) : List String → Option DeviceTransaction
  | [] => none
  | itemId :: rest => some (.rebuilds { kind := kind, itemId := itemId, rest := rest })

/-- The item whose row the transaction has updated and not committed. -/
def DeviceTransaction.rowLock : DeviceTransaction → Option String
  | .rebuilds job =>
      match job.phase with
      | .flushed _ => some job.itemId
      | .valuing _ _ _ _ => some job.itemId
      | _ => none
  | _ => none

/-- The item whose advisory lock the transaction holds. -/
def DeviceTransaction.itemLock : DeviceTransaction → Option String
  | .rebuilds job =>
      match job.phase with
      | .valuing _ _ _ _ => some job.itemId
      | _ => none
  | _ => none

abbrev DeviceWorld := World DeviceTables DeviceTransaction

section Steps
variable (config : Configuration) (w : DeviceWorld) (i : ℕ)

inductive JobMoves (job : Job) : Job → Prop where
  | reads (hphase : job.phase = .start) :
      JobMoves job { job with phase := .read (w.committed.status job.itemId) }
  | flushes (status : Option ProjectionStatus) (hphase : job.phase = .read status)
      (hlock : w.Others i fun m => m.rowLock ≠ some job.itemId)
      (hnew : status = none → w.committed.status job.itemId = none) :
      JobMoves job { job with phase := .flushed status.isNone }
  | locks (isNew : Bool) (hphase : job.phase = .flushed isNew)
      (hlock : w.Others i fun m => m.itemLock ≠ some job.itemId) :
      JobMoves job { job with
        phase := .valuing isNew (itemHistory w.committed job.itemId)
          (itemHistory w.committed job.itemId) [] }
  | values (isNew : Bool) (raws : List RawEvent) (raw : RawEvent) (todo : List RawEvent)
      (done : List Valued) (hphase : job.phase = .valuing isNew raws (raw :: todo) done) :
      JobMoves job { job with
        phase := .valuing isNew raws todo (done ++
          (valuedEvent config (w.committed.invalidations ++ job.own.toList) raw).toList) }
  | raises (hkind : job.kind ≠ .human) (hphase : ∀ status, job.phase ≠ .failedRead status) :
      JobMoves job { job with phase := .raised }
  | failedReads (hphase : job.phase = .raised) :
      JobMoves job { job with phase := .failedRead (w.committed.status job.itemId) }

inductive DeviceMoves : DeviceTransaction → DeviceTransaction → Prop where
  | ingestReads (raw : RawEvent) (itemId : String) :
      DeviceMoves (.ingest raw itemId) (.ingestRead raw itemId (w.committed.status itemId))
  | finds (source : Option RawEvent) (record : ControlDeviceInvalidation) :
      DeviceMoves (.invalidates source record) (.found source record (foundItems w.committed record))
  | marks (raw : RawEvent) (record : ControlDeviceInvalidation) (items : List String) :
      DeviceMoves (.found (some raw) record items) (.marks raw record items (ownItem raw ++ items) [])
  | readsRow (raw : RawEvent) (record : ControlDeviceInvalidation) (items todo : List String)
      (itemId : String) (reads : List (String × Option ProjectionStatus)) :
      DeviceMoves (.marks raw record items (itemId :: todo) reads)
        (.marks raw record items todo (reads ++ [(itemId, w.committed.status itemId)]))
  | rebuildsFirst (record : ControlDeviceInvalidation) (itemId : String) (rest : List String) :
      DeviceMoves (.found none record (itemId :: rest))
        (.rebuilds { kind := .human, itemId := itemId, own := some record, rest := rest })
  | rebuilds (job job' : Job) (h : JobMoves config w i job job') :
      DeviceMoves (.rebuilds job) (.rebuilds job')

inductive DeviceCommits : DeviceTransaction → DeviceTables → Option DeviceTransaction → Prop where
  | ingest (raw : RawEvent) (itemId : String) (read : ProjectionStatus)
      (hlock : read ≠ .stale → w.Others i fun m => m.rowLock ≠ some itemId) :
      DeviceCommits (.ingestRead raw itemId (some read))
        { w.committed with
          rawEvents := w.committed.rawEvents ++ [raw]
          status := markRead [(itemId, some read)] w.committed.status } none
  /-- The transaction of the event; its endpoint goes on to the rebuilds. -/
  | event (raw : RawEvent) (record : ControlDeviceInvalidation) (items : List String)
      (reads : List (String × Option ProjectionStatus))
      (hlock : ∀ itemId read, (itemId, some read) ∈ reads → read ≠ .stale →
        w.Others i fun m => m.rowLock ≠ some itemId) :
      DeviceCommits (.marks raw record items [] reads)
        { w.committed with
          rawEvents := w.committed.rawEvents ++ [raw]
          invalidations := w.committed.invalidations ++ [record]
          status := markRead reads w.committed.status } (nextJob .event (ownItem raw ++ items))
  /-- `invalidate_device` found no item. -/
  | human (record : ControlDeviceInvalidation) :
      DeviceCommits (.found none record [])
        { w.committed with invalidations := w.committed.invalidations ++ [record] } none
  | rebuild (job : Job) (isNew : Bool) (raws : List RawEvent) (done : List Valued)
      (hphase : job.phase = .valuing isNew raws [] done) :
      DeviceCommits (.rebuilds job)
        { w.committed with
          invalidations := w.committed.invalidations ++ job.own.toList
          observations := if raws = [] then w.committed.observations
            else replaceOwned (·.itemId) job.itemId w.committed.observations (valuedRows job.itemId done)
          status := Function.update w.committed.status job.itemId (some .upToDate) }
        (nextJob job.kind job.rest)
  | failed (job : Job) (read : Option ProjectionStatus) (hphase : job.phase = .failedRead read)
      (hlock : read ≠ some .failed → w.Others i fun m => m.rowLock ≠ some job.itemId)
      (hnew : read = none → w.committed.status job.itemId = none) :
      DeviceCommits (.rebuilds job)
        { w.committed with
          status := Function.update w.committed.status job.itemId
            (some (failedStatus read (w.committed.status job.itemId))) }
        (nextJob job.kind job.rest)

end Steps

/-- Where a transaction may fail as a whole: before its record is committed. -/
def failsWhole : DeviceTransaction → Prop
  | .rebuilds job => job.kind = .single ∨ job.own.isSome = true
  | _ => True

def deviceProtocol (config : Configuration) : Protocol DeviceTables DeviceTransaction where
  begins l := (∃ raw itemId, l = .ingest raw itemId ∧ raw.itemId = some itemId) ∨
    (∃ source record, l = .invalidates source record ∧ record.deviceId ≠ "" ∧
      ∀ raw, source = some raw → ∃ payload, raw.payload = .controlDeviceInvalidated payload ∧
        record = invalidationRecord raw.event payload) ∨
    ∃ itemId, l = .rebuilds { kind := .single, itemId := itemId }
  moves := DeviceMoves config
  commits := DeviceCommits
  rollsBack := failsWhole

end TraceQ.Backend
