import TraceQ.Ingestion.Appends
import TraceQ.Projections.ReplayMeaning
import TraceQ.Security.Framing

/-! # Replaying stored rows

`raw_events` column by column, as `_decrypt`, `verify_integrity` and the reading half of `rebuild_item`
find them: a row that somebody has changed need not fit the event inside its ciphertext.
-/
namespace TraceQ.Projections
open Security Tables HashChain Ingestion Quality
set_option autoImplicit false
set_option maxHeartbeats 250000

/-! ## Rows -/

@[ext]
structure StoredRow where
  eventId : String
  eventType : String
  schemaVersion : String
  sourceId : String
  sourceType : String
  sourceSequence : Option ℕ
  itemId : Option String
  operationRunId : Option String
  occurredAt : Instant
  receivedAt : Instant
  ingestSeq : ℕ
  payloadCiphertext : Bytes
  nonce : Bytes
  integrityStreamId : String
  integritySeq : ℕ
  prevIntegrityMac : Bytes
  integrityMac : Bytes
  cryptoKeyId : String
  cryptoProfileId : String
deriving DecidableEq

/-- The columns `ingest_event` fills. -/
def columnsOf (row : SealedEvent) : StoredRow where
  eventId := row.raw.eventId
  eventType := eventTypeOf row.raw.payload
  schemaVersion := row.raw.event.schemaVersion
  sourceId := row.raw.event.source.sourceId
  sourceType := row.raw.event.source.sourceType
  sourceSequence := row.raw.event.source.sequence
  itemId := row.raw.itemId
  operationRunId := row.raw.operationRunId
  occurredAt := row.raw.occurredAt
  receivedAt := row.raw.receivedAt
  ingestSeq := row.raw.ingestSeq
  payloadCiphertext := row.payloadCiphertext
  nonce := row.nonce
  integrityStreamId := row.raw.integrityStreamId
  integritySeq := row.raw.integritySeq
  prevIntegrityMac := row.prevIntegrityMac
  integrityMac := row.integrityMac
  cryptoKeyId := row.cryptoKeyId
  cryptoProfileId := "CLASSIC_V2"

/-- The primitives, with what the replay of a row needs of them. -/
structure Vault where
  crypto : CryptoSettings
  /-- `AESGCM.decrypt` of a nonce, a ciphertext and the associated data, and `json.loads`. -/
  aesGcmOpen : Bytes → Bytes → Bytes → Option ContentHash
  /-- `str.upper`. -/
  upper : String → String

section Read
variable (v : Vault)

/-- `profile.upper().replace("-", "_") == "CLASSIC_V1"`. -/
def classicV1 (profile : String) : Bool :=
  decide ((v.upper profile).map (fun c => if c = '-' then '_' else c) = "CLASSIC_V1")

/-- The fields `build_aad` writes under every profile. -/
def baseFields (row : StoredRow) : List (String × Json) :=
  [("event_id", .str row.eventId),
    ("event_type", .str row.eventType),
    ("received_at", .str (isoformatUtc (fromColumn row.receivedAt))),
    ("schema_version", .str row.schemaVersion),
    ("source_id", .str row.sourceId)]

/-- The fields of every profile but `CLASSIC_V1`. -/
def profileFields (row : StoredRow) : List (String × Json) :=
  [("occurred_at", .str (isoformatUtc (fromColumn row.occurredAt))),
    ("item_id", (row.itemId.map Json.str).getD .null),
    ("crypto_key_id", .str row.cryptoKeyId),
    ("crypto_profile", .str row.cryptoProfileId)]

/-- `build_aad` of the columns of a row. -/
def storedAad (row : StoredRow) : Bytes :=
  canonicalJsonBytes (.obj (if classicV1 v row.cryptoProfileId then baseFields row
    else baseFields row ++ profileFields row))

/-- `_decrypt`. -/
def decryptRow (row : StoredRow) : Option ContentHash :=
  v.aesGcmOpen row.nonce row.payloadCiphertext (storedAad v row)

/-! ## Verification -/

def storedMetadata (row : StoredRow) : Bytes :=
  canonicalJsonBytes (.obj
    [("event_id", .str row.eventId),
      ("event_type", .str row.eventType),
      ("integrity_seq", .int row.integritySeq),
      ("integrity_stream_id", .str row.integrityStreamId),
      ("occurred_at", .str (isoformatUtc (fromColumn row.occurredAt))),
      ("received_at", .str (isoformatUtc (fromColumn row.receivedAt))),
      ("schema_version", .str row.schemaVersion),
      ("source_id", .str row.sourceId)])

def storedMac (row : StoredRow) : Bytes :=
  computeIntegrityMac v.crypto row.prevIntegrityMac (storedMetadata row) row.payloadCiphertext row.nonce
    row.cryptoKeyId

def storedColumns : Columns StoredRow Bytes where
  seq row := row.integritySeq
  prev row := row.prevIntegrityMac
  mac row := row.integrityMac
  intact row := storedMac v row = row.integrityMac

/-- The checks on one row of a stream. -/
def rowFailures (streamId : String) (previous : Bytes) (expectedSeq : ℕ) (row : StoredRow) :
    List IntegrityFailure :=
  let failure := IntegrityFailure.mk streamId row.eventId row.integritySeq
  (if row.integritySeq = expectedSeq then [] else [failure .sequenceGap]) ++
    (if row.prevIntegrityMac = previous then [] else [failure .previousMacMismatch]) ++
    (if storedMac v row = row.integrityMac then [] else [failure .macMismatch])

def storedStream (rows : List StoredRow) (streamId : String) : List StoredRow :=
  (rows.filter fun row => decide (row.integrityStreamId = streamId)).insertionSort
    fun a b => a.integritySeq ≤ b.integritySeq

/-- The failures `verify_integrity` reports of the streams. -/
def storedFailures (streamIds : List String) (rows : List StoredRow) : List IntegrityFailure :=
  (streamIds.insertionSort fun a b => a ≤ b).flatMap fun streamId =>
    audit (storedColumns v) (rowFailures v streamId) [] 1 (storedStream rows streamId)

/-! ## Replay -/

def storedKey (row : StoredRow) : Instant ×ₗ String ×ₗ WithTop ℕ ×ₗ Instant ×ₗ String :=
  toLex (row.occurredAt, toLex (row.sourceId,
    toLex ((row.sourceSequence : WithTop ℕ), toLex (row.receivedAt, row.eventId))))

/-- The rows of an item in business order. -/
def storedHistory (rows : List StoredRow) (itemId : String) : List StoredRow :=
  (rows.filter fun row => decide (row.itemId = some itemId)).insertionSort
    fun a b => storedKey a ≤ storedKey b

/-- The row as the replay takes it, if its type and its ids fit the payload inside. -/
def asRaw (row : StoredRow) (payload : Payload) : Option RawEvent :=
  if h : row.eventType = eventTypeOf payload ∧ (payload.needsItem = true → truthy row.itemId = true) ∧
      (payload.needsRun = true → truthy row.operationRunId = true) then
    some
      { event :=
          { eventId := row.eventId
            schemaVersion := row.schemaVersion
            occurredAt := row.occurredAt
            source := ⟨row.sourceId, row.sourceType, row.sourceSequence⟩
            itemId := row.itemId
            operationRunId := row.operationRunId
            payload := payload
            item_required := h.2.1
            run_required := h.2.2 }
        receivedAt := row.receivedAt
        ingestSeq := row.ingestSeq
        integrityStreamId := row.integrityStreamId
        integritySeq := row.integritySeq }
  else none

/-- What the replay makes of a row that does not fit its payload; `none` if it raises. -/
abbrev Misfit := ReplayValues → StoredRow → Payload → Option ReplayValues

def replayRow (misfit : Misfit) (db : Database) (values : ReplayValues) (event : StoredRow × Payload) :
    Option ReplayValues :=
  match asRaw event.1 event.2 with
  | some raw => some (replayEvent db values raw)
  | none => misfit values event.1 event.2

/-- The values `rebuild_item` holds when it starts writing; `none` if it raises before. -/
def replayStored (misfit : Misfit) (db : Database) (rows : List StoredRow) (itemId : String) :
    Option ReplayValues := do
  let events ← (storedHistory rows itemId).mapM fun row =>
    (decryptRow v row).map fun content => (row, content.payload)
  let values ← events.foldlM (replayRow misfit db) {}
  return { values with observations := markConflicts values.observations }

end Read

/-! ## Honest rows -/

section Honest
variable {v : Vault} {misfit : Misfit} {db : Database}

@[simp] theorem eventTypeOf_canonical (payload : Payload) :
    eventTypeOf payload.canonical = eventTypeOf payload := by
  cases payload <;> rfl

@[simp] theorem needsItem_canonical (payload : Payload) :
    payload.canonical.needsItem = payload.needsItem := by
  cases payload <;> rfl

@[simp] theorem needsRun_canonical (payload : Payload) :
    payload.canonical.needsRun = payload.needsRun := by
  cases payload <;> rfl

/-- The event with the payload as it was encrypted. -/
def sealedRaw (row : SealedEvent) : RawEvent :=
  { row.raw with
    event :=
      { row.raw.event with
        payload := row.raw.payload.canonical
        item_required := by
          rw [needsItem_canonical]
          exact row.raw.event.item_required
        run_required := by
          rw [needsRun_canonical]
          exact row.raw.event.run_required } }

/-- An honest row fits its payload. -/
theorem asRaw_columnsOf (row : SealedEvent) :
    asRaw (columnsOf row) row.raw.event.contentHash.payload = some (sealedRaw row) := by
  have hfits : (columnsOf row).eventType = eventTypeOf row.raw.event.contentHash.payload ∧
      (row.raw.event.contentHash.payload.needsItem = true → truthy (columnsOf row).itemId = true) ∧
      (row.raw.event.contentHash.payload.needsRun = true →
        truthy (columnsOf row).operationRunId = true) :=
    ⟨(eventTypeOf_canonical _).symm, (sealedRaw row).event.item_required,
      (sealedRaw row).event.run_required⟩
  rw [asRaw, dif_pos hfits]
  rfl

theorem storedHistory_columnsOf (db : Database) (rows : List SealedEvent) (itemId : String) :
    ∃ ordered : List SealedEvent, storedHistory (rows.map columnsOf) itemId = ordered.map columnsOf ∧
      history { db with rawEvents := rows.map sealedRaw } itemId = ordered.map sealedRaw ∧
      ∀ row ∈ ordered, row ∈ rows := by
  refine ⟨(rows.filter fun row => decide (row.raw.itemId = some itemId)).insertionSort
    fun a b => businessKey a.raw ≤ businessKey b.raw, ?_, ?_, ?_⟩
  · rw [storedHistory, List.filter_map, List.map_insertionSort _ (s := fun a b => storedKey a ≤ storedKey b)]
    · rfl
    · exact fun a _ b _ => Iff.rfl
  · rw [history, storedEvents, List.filter_map,
      List.map_insertionSort _ (s := fun a b => businessKey a ≤ businessKey b)]
    · rfl
    · exact fun a _ b _ => Iff.rfl
  · intro row hrow
    rw [List.mem_insertionSort] at hrow
    exact List.mem_of_mem_filter hrow

/-- Rows read off other things, whose ciphertexts hold the contents read off the same things. -/
theorem mapM_decryptRow {α : Type} {f : α → StoredRow} {content : α → ContentHash} {entries : List α}
    (hopens : ∀ entry ∈ entries, decryptRow v (f entry) = some (content entry)) :
    ((entries.map f).mapM fun row => (decryptRow v row).map fun content => (row, content.payload)) =
      some (entries.map fun entry => (f entry, (content entry).payload)) := by
  induction entries with
  | nil => rfl
  | cons entry rest ih =>
    rw [List.map_cons, List.mapM_cons, hopens entry List.mem_cons_self,
      ih fun other hother => hopens other (List.mem_cons_of_mem _ hother)]
    rfl

theorem foldlM_replayRow (misfit : Misfit) (db : Database) (rows : List SealedEvent) (values : ReplayValues) :
    (rows.map fun row => (columnsOf row, row.raw.event.contentHash.payload)).foldlM
      (replayRow misfit db) values = some ((rows.map sealedRaw).foldl (replayEvent db) values) := by
  induction rows generalizing values with
  | nil => rfl
  | cons row rest ih =>
    have hrow : replayRow misfit db values (columnsOf row, row.raw.event.contentHash.payload) =
        some (replayEvent db values (sealedRaw row)) := by
      rw [replayRow, asRaw_columnsOf]
    rw [List.map_cons, List.foldlM_cons, hrow]
    exact ih _

/-- On an honest log that decrypts, the replay of the columns is the replay of the events. -/
theorem replayStored_columnsOf {rows : List SealedEvent}
    (hopens : ∀ row ∈ rows, decryptRow v (columnsOf row) = some row.raw.event.contentHash)
    (itemId : String) : replayStored v misfit db (rows.map columnsOf) itemId =
      some (replay { db with rawEvents := rows.map sealedRaw } itemId) := by
  obtain ⟨ordered, hstored, hhistory, hin⟩ := storedHistory_columnsOf db rows itemId
  have hmap := mapM_decryptRow (v := v) fun row hrow => hopens row (hin row hrow)
  have hevents : replayEvent { db with rawEvents := rows.map sealedRaw } = replayEvent db :=
    replayEvent_congr rfl fun _ _ => rfl
  have hfold := foldlM_replayRow misfit db ordered {}
  rw [replayStored, hstored, hmap, replay, hhistory, hevents, Option.bind_eq_bind, Option.bind_some,
    hfold]
  rfl

end Honest

end TraceQ.Projections
