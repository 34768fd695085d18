import TraceQ.Ingestion.Service
import TraceQ.Library.Results

/-! # What accepting an event does

A delivery is a duplicate, which changes nothing, or it appends one raw event and at most one
invalidation, and touches no projected row.
-/
namespace TraceQ.Ingestion
open Projections Tables Results
set_option autoImplicit false
set_option maxHeartbeats 250000

/-- The database without what accepting an event may write. -/
def outsideIngestion (db : Database) : Database :=
  { db with
    rawEvents := []
    integrityStreamStates := []
    controlDeviceInvalidations := []
    projectionStates := []
    nextIngestSeq := 0 }

/-- The invalidation an event records, if it is one. -/
def recordsOf (event : EventEnvelope) : List ControlDeviceInvalidation :=
  match event.payload with
  | .controlDeviceInvalidated payload => [invalidationRecord event payload]
  | _ => []

/-- The items an event affects besides its own. -/
def affectedBy (db : Database) (event : EventEnvelope) : List String :=
  match event.payload with
  | .controlDeviceInvalidated payload =>
      affectedItems db payload.deviceId payload.affectedFrom payload.affectedTo
  | _ => []

/-- The affected items are those with an observation the recorded invalidation covers. -/
theorem mem_affectedBy {db : Database} {event : EventEnvelope} {itemId : String} :
    itemId ∈ affectedBy db event ↔ ∃ record ∈ recordsOf event, ∃ obs ∈ db.observations,
      obs.itemId = itemId ∧ invalidationCovers record obs.controlDeviceId obs.occurredAt = true := by
  cases hpayload : event.payload with
  | controlDeviceInvalidated payload =>
    simp only [affectedBy, recordsOf, hpayload, affectedItems, List.mem_insertionSort,
      List.mem_dedup, List.mem_map, List.mem_filter, decide_eq_true_eq, List.mem_singleton,
      exists_eq_left, invalidationCovers, invalidationRecord, Bool.and_eq_true]
    exact exists_congr fun obs => by tauto
  | _ => simp only [affectedBy, recordsOf, hpayload, List.not_mem_nil, false_and, exists_false]

/-- Events of equal content record the same invalidation. -/
theorem recordsOf_of_hash {a b : EventEnvelope} (h : a.contentHash = b.contentHash) :
    recordsOf a = recordsOf b := by
  have hid : a.eventId = b.eventId := congrArg ContentHash.eventId h
  have hpayload : a.payload.canonical = b.payload.canonical := congrArg ContentHash.payload h
  cases ha : a.payload <;> cases hb : b.payload <;> rw [ha, hb] at hpayload <;>
    simp only [Payload.canonical, reduceCtorEq, Payload.controlDeviceInvalidated.injEq] at hpayload <;>
    simp only [recordsOf, ha, hb]
  rw [hpayload, invalidationRecord, invalidationRecord, hid]

theorem markIngested_ok {db db' : Database} {event : EventEnvelope} {ingestSeq : ℕ}
    (h : markIngested db event ingestSeq = .ok db') :
    ∃ states, db' = { db with projectionStates := states } := by
  unfold markIngested at h
  split at h
  · exact ⟨db.projectionStates, (Except.ok.inj h).symm⟩
  · split at h
    · exact ⟨db.projectionStates, (Except.ok.inj h).symm⟩
    · split at h
      · cases h
      · exact ⟨_, (Except.ok.inj h).symm⟩

/-- The mark on an item needs its row. -/
theorem markIngested_isOk {db : Database} {event : EventEnvelope} {ingestSeq : ℕ} :
    (∃ marked, markIngested db event ingestSeq = .ok marked) ↔
      ∀ itemId, event.itemId = some itemId → itemId ≠ "" → (findState db itemId).isSome = true := by
  unfold markIngested
  cases hitem : event.itemId with
  | none => simp
  | some itemId =>
    by_cases hempty : itemId = ""
    · subst hempty
      simp
    · cases hfind : findState db itemId with
      | none => simp [hempty, hfind]
      | some state => simp [hempty, hfind]

theorem foldl_markStale (db : Database) (affected : List String) :
    ∃ states, affected.foldl markStale db = { db with projectionStates := states } := by
  induction affected generalizing db with
  | nil => exact ⟨db.projectionStates, rfl⟩
  | cons itemId rest ih =>
    obtain ⟨states, hstates⟩ := ih (markStale db itemId)
    exact ⟨states, hstates⟩

theorem recordInvalidation_eq (db : Database) (event : EventEnvelope) :
    ∃ states, recordInvalidation db event =
      ({ db with
          projectionStates := states
          controlDeviceInvalidations := db.controlDeviceInvalidations ++ recordsOf event },
        affectedBy db event) := by
  cases hpayload : event.payload with
  | controlDeviceInvalidated payload =>
    obtain ⟨states, hstates⟩ := foldl_markStale
      { db with
        controlDeviceInvalidations := db.controlDeviceInvalidations ++
          [invalidationRecord event payload] }
      (affectedItems db payload.deviceId payload.affectedFrom payload.affectedTo)
    refine ⟨states, ?_⟩
    simp only [recordInvalidation, recordsOf, affectedBy, hpayload, hstates]
  | _ =>
    refine ⟨db.projectionStates, ?_⟩
    simp only [recordInvalidation, recordsOf, affectedBy, hpayload, List.append_nil]

/-- Everything a delivery can do. -/
theorem ingestEvent_cases {db db' : Database} {event : EventEnvelope} {receivedAt : Instant}
    {result : IngestionResult} (h : ingestEvent db event receivedAt = .ok (db', result)) :
    (∃ existing, findRawEvent db event.eventId = some existing ∧
      existing.event.contentHash = event.contentHash ∧ db' = db ∧ result = ⟨.duplicate, []⟩) ∨
    (findRawEvent db event.eventId = none ∧ result = ⟨.accepted, affectedBy db event⟩ ∧
      outsideIngestion db' = outsideIngestion db ∧
      (∃ raw, raw.event = event ∧ raw.receivedAt = receivedAt ∧
        db'.rawEvents = db.rawEvents ++ [raw]) ∧
      db'.controlDeviceInvalidations = db.controlDeviceInvalidations ++ recordsOf event) := by
  unfold ingestEvent at h
  cases hfind : findRawEvent db event.eventId with
  | some existing =>
    simp only [hfind] at h
    split at h
    · rename_i hhash
      obtain ⟨hdb, hresult⟩ := Prod.ext_iff.mp (Except.ok.inj h)
      exact .inl ⟨existing, rfl, hhash, hdb.symm, hresult.symm⟩
    · cases h
  | none =>
    simp only [hfind] at h
    obtain ⟨marked, hmarked, h⟩ := bind_ok.mp h
    obtain ⟨states, rfl⟩ := markIngested_ok hmarked
    obtain ⟨states', hrecorded⟩ := recordInvalidation_eq
      { appendRaw db event receivedAt with projectionStates := states } event
    rw [hrecorded] at h
    obtain ⟨hdb, hresult⟩ := pair_ok.mp h
    refine .inr ⟨rfl, hresult.symm, ?_, ?_, ?_⟩
    · rw [← hdb]
      rfl
    · rw [← hdb]
      exact ⟨_, rfl, rfl, rfl⟩
    · rw [← hdb]
      rfl

end TraceQ.Ingestion
