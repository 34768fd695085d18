import TraceQ.Backend.Decisions
import TraceQ.Properties.Reopening

/-! # The gate of the evidence

A decision should not be made while a stream fails that holds an event of its item or an invalidation that
applies to one. The endpoints look at the streams of the first kind only, and the request for another
inspection at none.
-/
namespace TraceQ.Properties
open Projections Ingestion Api Quality Tables Results Backend
set_option autoImplicit false
set_option maxHeartbeats 250000

/-! ## Streams that contribute -/

def StreamFailed (db : Database) (streamId : String) : Prop :=
  ∃ stream ∈ db.integrityStreamStates, stream.streamId = streamId ∧ stream.status = .integrityFailed

/-- The stream holds an event of the item. -/
def OwnStream (db : Database) (itemId streamId : String) : Prop :=
  ∃ raw ∈ db.rawEvents, raw.itemId = some itemId ∧ raw.integrityStreamId = streamId

/-- The stream holds the event behind an invalidation that applies to an observation of the item. -/
def DeviceStream (db : Database) (itemId streamId : String) : Prop :=
  ∃ record ∈ db.controlDeviceInvalidations, ∃ raw ∈ db.rawEvents, ∃ obs ∈ db.observations,
    record.sourceEventId = some raw.eventId ∧ raw.integrityStreamId = streamId ∧ obs.itemId = itemId ∧
      invalidationCovers record obs.controlDeviceId obs.occurredAt = true

/-- No stream that contributes to the evidence of the item has failed. -/
def EvidenceIntact (db : Database) (itemId : String) : Prop :=
  ∀ streamId, OwnStream db itemId streamId ∨ DeviceStream db itemId streamId → ¬ StreamFailed db streamId

/-- No stream of an applied invalidation has failed, and for a request not even one of the item's own. -/
def Unbroken (db : Database) (call : Call) (itemId : String) : Prop :=
  (∀ streamId, DeviceStream db itemId streamId → ¬ StreamFailed db streamId) ∧
    (isRequest call = true → ∀ streamId, OwnStream db itemId streamId → ¬ StreamFailed db streamId)

/-! ## The check -/

theorem ensureEvidenceIntegrity_iff {db : Database} {itemId : String} :
    ensureEvidenceIntegrity db itemId = .ok () ↔
      ∀ streamId, OwnStream db itemId streamId → ¬ StreamFailed db streamId := by
  have hcompromised : evidenceCompromised db itemId = true ↔
      ∃ streamId, OwnStream db itemId streamId ∧ StreamFailed db streamId := by
    simp only [evidenceCompromised, List.any_eq_true, Bool.and_eq_true, decide_eq_true_eq]
    constructor
    · rintro ⟨raw, hraw, hitem, stream, hstream, hid, hfailed⟩
      exact ⟨raw.integrityStreamId, ⟨raw, hraw, hitem, rfl⟩, stream, hstream, hid, hfailed⟩
    · rintro ⟨streamId, ⟨raw, hraw, hitem, rfl⟩, stream, hstream, hid, hfailed⟩
      exact ⟨raw, hraw, hitem, stream, hstream, hid, hfailed⟩
  unfold ensureEvidenceIntegrity
  split
  · rename_i h
    refine iff_of_false nofun fun hnone => ?_
    obtain ⟨streamId, hown, hfailed⟩ := hcompromised.mp h
    exact hnone streamId hown hfailed
  · rename_i h
    exact iff_of_true rfl fun streamId hown hfailed => h (hcompromised.mpr ⟨streamId, hown, hfailed⟩)

/-- A committed decision was made on intact evidence exactly when the streams the endpoint does not look
at were intact. -/
theorem decides_intact_iff {db db' : Database} {call : Call} {ncr : Nonconformance}
    {decision : ControllerDecision} (h : Decides db call ncr decision db') :
    EvidenceIntact db ncr.itemId ↔ Unbroken db call ncr.itemId := by
  constructor
  · intro hintact
    exact ⟨fun streamId hdevice => hintact streamId (.inr hdevice),
      fun _ streamId hown => hintact streamId (.inl hown)⟩
  · rintro ⟨hdevice, hrequest⟩ streamId (hown | hcontributes)
    · cases hkind : isRequest call with
      | true => exact hrequest hkind streamId hown
      | false => exact ensureEvidenceIntegrity_iff.mp (h.checked hkind) streamId hown
    · exact hdevice streamId hcontributes

/-! ## Every call -/

instance (db : Database) (streamId : String) : Decidable (StreamFailed db streamId) := by
  unfold StreamFailed
  infer_instance

instance (db : Database) (itemId streamId : String) : Decidable (OwnStream db itemId streamId) := by
  unfold OwnStream
  infer_instance

instance (db : Database) (itemId streamId : String) : Decidable (DeviceStream db itemId streamId) := by
  unfold DeviceStream
  infer_instance

/-- The scratch, seen with a device that is found to be invalid. -/
def scratchByDevice : EventEnvelope :=
  { scratchSeen "e-1" 10 with
    payload := .inspectionResult
      { inspectionResult := .defectDetected
        observationQuality := .good
        controlPointId := "CP-1"
        controlDeviceId := some "device-1"
        defects := [{ defectType := "scratch" }]
        validate_defects := scratch_listed } }

theorem calibration_period : (0 : Instant) ≤ 15 := by decide

theorem calibration_item : (Payload.controlDeviceInvalidated
    { deviceId := "device-1"
      affectedFrom := 0
      affectedTo := 15
      reason := "out of calibration"
      validate_period := calibration_period }).needsItem = true → truthy none = true := by decide

theorem calibration_run : (Payload.controlDeviceInvalidated
    { deviceId := "device-1"
      affectedFrom := 0
      affectedTo := 15
      reason := "out of calibration"
      validate_period := calibration_period }).needsRun = true → truthy none = true := by decide

def calibrationFailed : EventEnvelope where
  eventId := "e-2"
  occurredAt := 12
  source := { sourceId := "laboratory-1", sourceType := "calibration" }
  payload := .controlDeviceInvalidated
    { deviceId := "device-1"
      affectedFrom := 0
      affectedTo := 15
      reason := "out of calibration"
      validate_period := calibration_period }
  item_required := calibration_item
  run_required := calibration_run

/-- Tables with the open nonconformance of that scratch. -/
def scratchedTables : Database :=
  shipped (run parentsFirst [.rebuild "item-1", .ingest scratchByDevice 11, .rebuild "item-1"])

/-- The device is invalidated after it saw the scratch, then one stream fails verification. -/
def failedStream (streamId : String) : Database :=
  run scratchedTables [.ingest calibrationFailed 13, .rebuild "item-1", .verifyIntegrity [streamId]]

theorem scratchedTables_sound : Sound scratchedTables := by
  have hreachable : Reachable (run parentsFirst [.rebuild "item-1", .ingest scratchByDevice 11, .rebuild "item-1"]) :=
    ⟨_, _, initial_parentsFirst, rfl⟩
  exact sound_shipped (reachable_sound hreachable)

theorem failedStream_sound (streamId : String) : Sound (failedStream streamId) :=
  run_sound scratchedTables_sound _

def askAgain : InspectionRequest where
  reason := "second look"

/-- No call of `C` commits a decision about an NCR while a stream that contributes to the evidence of its item has
failed. -/
def GateHolds (C : Call → Prop) : Prop :=
  ∀ (db : Database) (call : Call) (decision : ControllerDecision) (ncr : Nonconformance), C call →
    Sound db → (exec db call).1.controllerDecisions = db.controllerDecisions ++ [decision] →
    ncr ∈ db.nonconformances → decision.nonconformanceId = ncr.id → EvidenceIntact db ncr.itemId

theorem failedStream_ncr {streamId : String} (h : ∃ ncr ∈ (failedStream streamId).nonconformances,
      ncr.id = 1 ∧ ncr.itemId = "item-1") {C : Call → Prop} {call : Call} (hC : C call)
    {decision : ControllerDecision}
    (hnew : (exec (failedStream streamId) call).1.controllerDecisions =
      (failedStream streamId).controllerDecisions ++ [decision])
    (habout : decision.nonconformanceId = 1)
    (hstream : OwnStream (failedStream streamId) "item-1" streamId ∨
      DeviceStream (failedStream streamId) "item-1" streamId)
    (hfailed : StreamFailed (failedStream streamId) streamId) : ¬ GateHolds C := by
  intro hgate
  obtain ⟨ncr, hmem, hid, hitem⟩ := h
  have hintact := hgate _ call decision ncr hC (failedStream_sound streamId) hnew hmem
    (habout.trans hid.symm)
  exact hintact streamId (hitem ▸ hstream) hfailed

end TraceQ.Properties
