import TraceQ.Library.HashChain
import TraceQ.Security.Crypto

/-! # The integrity chain of a stream

The sealed rows of `raw_events`, how `ingest_event` seals one, and `verify_integrity` in
`backend/app/security/integrity.py`. Writer and verifier build the metadata of a row from different
representations of its timestamps; the MAC they compute is the same.
-/
namespace TraceQ.Security
open Tables HashChain
set_option autoImplicit false
set_option maxHeartbeats 250000

/-! ## Rows -/

/-- A row of `raw_events` with its sealing columns. -/
structure SealedEvent where
  raw : RawEvent
  payloadCiphertext : Bytes
  nonce : Bytes
  prevIntegrityMac : Bytes
  integrityMac : Bytes
  cryptoKeyId : String
deriving DecidableEq

/-- A row of `integrity_stream_states` with the MAC of its last event. -/
structure StreamHead extends IntegrityStreamState where
  lastMac : Bytes := []
deriving DecidableEq

inductive FailureReason where
  | sequenceGap | previousMacMismatch | macMismatch
deriving DecidableEq, Repr

structure IntegrityFailure where
  streamId : String
  eventId : String
  sequence : ℕ
  reason : FailureReason
deriving DecidableEq

inductive AlertType where
  | replayAttempt | sourceAuthFailed | sourceScopeViolation | eventIdConflict | keyUnavailable
  | sourceSequenceAnomaly | rawLogIntegrityFailed
deriving DecidableEq, Repr

inductive AlertDetails where
  | none
  | sequences (previous : ℤ) (received : ℕ)
  | integrity (streamId : String) (sequence : ℕ) (reason : FailureReason)
deriving DecidableEq

structure SecurityAlert where
  alertType : AlertType
  sourceId : Option String := Option.none
  targetId : Option String := Option.none
  details : AlertDetails := .none
deriving DecidableEq

/-- The rows the verification reads and writes. -/
structure Ledger where
  rows : List SealedEvent := []
  heads : List StreamHead := []
  alerts : List SecurityAlert := []

/-! ## Sealing an event -/

/-- A validated event whose timestamp is still the one the source sent. -/
structure IncomingEvent where
  event : EventEnvelope
  occurredAt : Datetime
  same_instant : event.occurredAt = occurredAt.instant

/-- The row `ingest_event` inserts after the head of the stream it read. -/
def sealEvent (settings : CryptoSettings) (head : StreamHead) (incoming : IncomingEvent)
    (receivedAt : Instant) (ingestSeq : ℕ) (nonce : Bytes) : SealedEvent :=
  let received : Datetime := fromColumn receivedAt
  let ciphertext := settings.aesGcm nonce incoming.event.contentHash
    (buildAad incoming.event incoming.occurredAt received settings.aesKeyId)
  { raw := ⟨incoming.event, receivedAt, ingestSeq, head.streamId, head.lastSeq + 1⟩
    payloadCiphertext := ciphertext
    nonce := nonce
    prevIntegrityMac := head.lastMac
    integrityMac := computeIntegrityMac settings head.lastMac
      (integrityMetadata incoming.event incoming.occurredAt received head.streamId (head.lastSeq + 1))
      ciphertext nonce settings.aesKeyId
    cryptoKeyId := settings.aesKeyId }

/-! ## Verification -/

section Verify
variable (settings : CryptoSettings)

/-- The MAC of a row, from its columns as the database returns them. -/
def calculatedMac (row : SealedEvent) : Bytes :=
  computeIntegrityMac settings row.prevIntegrityMac
    (integrityMetadata row.raw.event (fromColumn row.raw.occurredAt) (fromColumn row.raw.receivedAt)
      row.raw.integrityStreamId row.raw.integritySeq)
    row.payloadCiphertext row.nonce row.cryptoKeyId

/-- The columns of the chain. -/
def chainColumns : Columns SealedEvent Bytes where
  seq row := row.raw.integritySeq
  prev row := row.prevIntegrityMac
  mac row := row.integrityMac
  intact row := calculatedMac settings row = row.integrityMac

/-- The checks on one event of a stream. -/
def eventFailures (streamId : String) (previous : Bytes) (expectedSeq : ℕ) (event : SealedEvent) :
    List IntegrityFailure :=
  let failure := IntegrityFailure.mk streamId event.raw.eventId event.raw.integritySeq
  (if event.raw.integritySeq = expectedSeq then [] else [failure .sequenceGap]) ++
    (if event.prevIntegrityMac = previous then [] else [failure .previousMacMismatch]) ++
    (if calculatedMac settings event = event.integrityMac then [] else [failure .macMismatch])

/-- The rows of a stream, `ORDER BY integrity_seq`. -/
def streamEvents (rows : List SealedEvent) (streamId : String) : List SealedEvent :=
  (rows.filter fun row => decide (row.raw.integrityStreamId = streamId)).insertionSort
    fun a b => a.raw.integritySeq ≤ b.raw.integritySeq

def streamFailures (rows : List SealedEvent) (streamId : String) : List IntegrityFailure :=
  audit (chainColumns settings) (eventFailures settings streamId) [] 1 (streamEvents rows streamId)

def integrityFailures (ledger : Ledger) : List IntegrityFailure :=
  ((ledger.heads.map (·.streamId)).insertionSort fun a b => a ≤ b).flatMap
    (streamFailures settings ledger.rows)

/-- A new alert; the query sees no alert of the same verification, which is not flushed yet. -/
def integrityAlert (alerts : List SecurityAlert) (failure : IntegrityFailure) : Option SecurityAlert :=
  if alerts.any fun alert => decide (alert.alertType = .rawLogIntegrityFailed ∧
      alert.targetId = some failure.eventId) then none
  else some
    { alertType := .rawLogIntegrityFailed
      targetId := some failure.eventId
      details := .integrity failure.streamId failure.sequence failure.reason }

def verifyIntegrity (ledger : Ledger) : Ledger × List IntegrityFailure :=
  let failures := integrityFailures settings ledger
  let judged := fun head : StreamHead =>
    { head with
      status := if failures.any fun failure => decide (failure.streamId = head.streamId)
        then .integrityFailed else .ok }
  ({ ledger with
      heads := ledger.heads.map judged
      alerts := ledger.alerts ++ failures.filterMap (integrityAlert ledger.alerts) }, failures)

end Verify

/-! ## What the verification finds -/

variable {settings : CryptoSettings}

theorem eventFailures_eq_nil {streamId : String} {previous : Bytes} {expectedSeq : ℕ}
    {event : SealedEvent} : eventFailures settings streamId previous expectedSeq event = [] ↔
      (chainColumns settings).seq event = expectedSeq ∧ (chainColumns settings).prev event = previous ∧
        (chainColumns settings).intact event := by
  simp only [eventFailures, List.append_eq_nil_iff, ite_eq_left_iff, List.cons_ne_nil, imp_false,
    not_not, and_assoc, chainColumns]

theorem streamFailures_eq_nil {rows : List SealedEvent} {streamId : String} :
    streamFailures settings rows streamId = [] ↔
      Linked (chainColumns settings) [] 1 (streamEvents rows streamId) :=
  audit_eq_nil_iff fun _ _ _ => eventFailures_eq_nil

theorem mem_audit_streamId {streamId : String} {failure : IntegrityFailure} :
    ∀ {previous : Bytes} {expectedSeq : ℕ} {rows : List SealedEvent},
      failure ∈ audit (chainColumns settings) (eventFailures settings streamId) previous expectedSeq
        rows → failure.streamId = streamId := by
  intro previous expectedSeq rows
  induction rows generalizing previous expectedSeq with
  | nil => simp [audit]
  | cons row rest ih =>
    simp only [audit, List.mem_append]
    rintro (h | h)
    · simp only [eventFailures, List.mem_append] at h
      rcases h with (h | h) | h
      all_goals
        split at h
        · cases h
        · rw [List.mem_singleton.mp h]
    · exact ih h

theorem mem_integrityFailures {ledger : Ledger} {failure : IntegrityFailure} :
    failure ∈ integrityFailures settings ledger ↔
      (∃ head ∈ ledger.heads, head.streamId = failure.streamId) ∧
        failure ∈ streamFailures settings ledger.rows failure.streamId := by
  simp only [integrityFailures, List.mem_flatMap, List.mem_insertionSort, List.mem_map]
  constructor
  · rintro ⟨streamId, ⟨head, hhead, rfl⟩, hfailure⟩
    have hid : failure.streamId = head.streamId := mem_audit_streamId hfailure
    exact ⟨⟨head, hhead, hid.symm⟩, hid ▸ hfailure⟩
  · rintro ⟨⟨head, hhead, hid⟩, hfailure⟩
    exact ⟨failure.streamId, ⟨head, hhead, hid⟩, hfailure⟩

/-- A stream is reported, and marked, exactly when its rows are not a chain from the start. -/
theorem reported_iff {ledger : Ledger} {head : StreamHead} (hhead : head ∈ ledger.heads) :
    (∃ failure ∈ (verifyIntegrity settings ledger).2, failure.streamId = head.streamId) ↔
      ¬ Linked (chainColumns settings) [] 1 (streamEvents ledger.rows head.streamId) := by
  rw [← streamFailures_eq_nil, List.eq_nil_iff_forall_not_mem]
  simp only [verifyIntegrity, mem_integrityFailures, not_forall, not_not]
  constructor
  · rintro ⟨failure, ⟨-, hfailure⟩, hid⟩
    exact ⟨failure, hid ▸ hfailure⟩
  · rintro ⟨failure, hfailure⟩
    have hid : failure.streamId = head.streamId := mem_audit_streamId hfailure
    exact ⟨failure, ⟨⟨head, hhead, hid.symm⟩, hid ▸ hfailure⟩, hid⟩

/-- The status of every stream says whether a failure of it is reported. -/
theorem verified_status {ledger : Ledger} {head : StreamHead}
    (hhead : head ∈ (verifyIntegrity settings ledger).1.heads) :
    head.status = .integrityFailed ↔
      ∃ failure ∈ (verifyIntegrity settings ledger).2, failure.streamId = head.streamId := by
  obtain ⟨old, -, rfl⟩ := List.mem_map.mp hhead
  simp only [verifyIntegrity, ite_eq_left_iff, reduceCtorEq, imp_false, not_not, List.any_eq_true,
    decide_eq_true_eq]

/-! ## What the sealing writes -/

/-- The verifier calculates the MAC the writer stored. -/
theorem sealEvent_intact (head : StreamHead) (incoming : IncomingEvent) (receivedAt : Instant)
    (ingestSeq : ℕ) (nonce : Bytes) :
    (chainColumns settings).intact
      (sealEvent settings head incoming receivedAt ingestSeq nonce) := by
  have htime : isoformatUtc (fromColumn incoming.event.occurredAt) =
      isoformatUtc incoming.occurredAt :=
    isoformatUtc_congr (by rw [instant_fromColumn, incoming.same_instant])
  simp only [chainColumns, calculatedMac, sealEvent, integrityMetadata, htime]

end TraceQ.Security
