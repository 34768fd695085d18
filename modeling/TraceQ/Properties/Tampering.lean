import TraceQ.Projections.StoredRows
import TraceQ.Properties.IntegrityChain

/-! # What a change of the raw log can do to a projection

The MAC binds the ciphertext and the nonce of a row, and the associated data binds the other columns the
replay reads, but for the operation run, the sequence number of the source and the item: a row whose item
is changed is not read at all.
-/
namespace TraceQ.Properties
open Projections Security Tables HashChain Ingestion Transactions Quality
set_option autoImplicit false
set_option maxHeartbeats 250000

/-! ## Statement -/

/-- The columns that `rebuild_item` reads. -/
inductive Column where
  | eventId | eventType | schemaVersion | sourceId | sourceSequence | itemId | operationRunId
  | occurredAt | receivedAt | payloadCiphertext | nonce | cryptoKeyId | cryptoProfileId

def Column.Kept (old new : StoredRow) : Column → Prop
  | .eventId => new.eventId = old.eventId
  | .eventType => new.eventType = old.eventType
  | .schemaVersion => new.schemaVersion = old.schemaVersion
  | .sourceId => new.sourceId = old.sourceId
  | .sourceSequence => new.sourceSequence = old.sourceSequence
  | .itemId => new.itemId = old.itemId
  | .operationRunId => new.operationRunId = old.operationRunId
  | .occurredAt => new.occurredAt = old.occurredAt
  | .receivedAt => new.receivedAt = old.receivedAt
  | .payloadCiphertext => new.payloadCiphertext = old.payloadCiphertext
  | .nonce => new.nonce = old.nonce
  | .cryptoKeyId => new.cryptoKeyId = old.cryptoKeyId
  | .cryptoProfileId => new.cryptoProfileId = old.cryptoProfileId

/-- Somebody has changed columns among these. -/
structure Changed (columns : Set Column) (old new : StoredRow) : Prop where
  kept : ∀ column, column ∉ columns → column.Kept old new
  sourceType : new.sourceType = old.sourceType
  ingestSeq : new.ingestSeq = old.ingestSeq
  streamId : new.integrityStreamId = old.integrityStreamId
  seq : new.integritySeq = old.integritySeq
  prevMac : new.prevIntegrityMac = old.prevIntegrityMac
  mac : new.integrityMac = old.integrityMac

/-- What Python can read into a `datetime` and frame with `to_bytes`. -/
structure Readable (row : StoredRow) : Prop where
  occurredAt : firstInstant ≤ row.occurredAt
  receivedAt : firstInstant ≤ row.receivedAt
  metadata : (storedMetadata row).length < 256 ^ 4
  ciphertext : row.payloadCiphertext.length < 256 ^ 8
  nonce : row.nonce.length < 256 ^ 4

/-- The MAC has no collision, and AES-GCM opens the ciphertexts of the log with their own associated data
and with no other. -/
structure Guarded (v : Vault) (rows : List SealedEvent) : Prop where
  collisionFree : Function.Injective v.crypto.hmacSha256
  upper : v.upper "CLASSIC_V2" = "CLASSIC_V2"
  opens : ∀ row ∈ rows, decryptRow v (columnsOf row) = some row.raw.event.contentHash
  rejects : ∀ row ∈ rows, ∀ aad, (v.aesGcmOpen row.nonce row.payloadCiphertext aad).isSome = true →
    aad = storedAad v (columnsOf row)

/-- The values of the operation runs, observations, machine events and operator actions. -/
def projectionOf (values : Option ReplayValues) : Option (List OperationValue ×
    List ObservationValue × List MachineValue × List ActionValue) :=
  values.map fun values =>
    (values.operations, values.observations, values.machineEvents, values.operatorActions)

/-- An honest log, what somebody made of it, and an item: nothing is reported, and every row of the item
still decrypts. -/
structure Undetected (columns : Set Column) (v : Vault) (w : World Ledger Append) (rows : List StoredRow)
    (itemId : String) : Prop where
  honest : (appending v.crypto).Reachable (World.quiet {}) w
  guarded : Guarded v w.committed.rows
  readable : ∀ row ∈ w.committed.rows, Readable (columnsOf row)
  changed : List.Forall₂ (Changed columns) (w.committed.rows.map columnsOf) rows
  stillReadable : ∀ row ∈ rows, Readable row
  verified : storedFailures v (w.committed.heads.map (·.streamId)) rows = []
  decrypts : ∀ row ∈ rows, row.itemId = some itemId → (decryptRow v row).isSome = true

/-- The projection of the item is that of the honest log. -/
def SameProjection (v : Vault) (w : World Ledger Append) (rows : List StoredRow) (itemId : String) : Prop :=
  ∀ (misfit : Misfit) (db : Database), projectionOf (replayStored v misfit db rows itemId) =
    projectionOf (replayStored v misfit db (w.committed.rows.map columnsOf) itemId)

/-- Undetected changes of these columns leave every projection as it was. -/
def Harmless (columns : Set Column) : Prop :=
  ∀ v w rows itemId, Undetected columns v w rows itemId → SameProjection v w rows itemId

/-- A row of the item stays with it and keeps its operation run and its sequence number. -/
def KeepsUnbound (itemId : String) (old new : StoredRow) : Prop :=
  old.itemId = some itemId → new.itemId = old.itemId ∧ new.operationRunId = old.operationRunId ∧
    new.sourceSequence = old.sourceSequence

/-! ## What is bound -/

section Bound
variable {v : Vault} {columns : Set Column} {old new : StoredRow}

theorem flat_aadFields (row : StoredRow) :
    ∀ field ∈ (if classicV1 v row.cryptoProfileId then baseFields row
      else baseFields row ++ profileFields row), Flat field.2 := by
  have hbase : ∀ field ∈ baseFields row, Flat field.2 := by simp [baseFields, Flat]
  have hprofile : ∀ field ∈ profileFields row, Flat field.2 := by
    cases hitem : row.itemId <;> simp [profileFields, Flat, hitem]
  intro field hfield
  split at hfield
  · exact hbase field hfield
  · rcases List.mem_append.mp hfield with hin | hin
    · exact hbase field hin
    · exact hprofile field hin

/-- The associated data of a row sealed under `CLASSIC_V2` is that of no row with other columns. -/
theorem storedAad_determines (hold : classicV1 v old.cryptoProfileId = false)
    (hreadable : Readable old) (hreadable' : Readable new) (h : storedAad v new = storedAad v old) :
    new.eventId = old.eventId ∧ new.eventType = old.eventType ∧
      new.schemaVersion = old.schemaVersion ∧ new.sourceId = old.sourceId ∧
      new.itemId = old.itemId ∧ new.occurredAt = old.occurredAt ∧ new.receivedAt = old.receivedAt ∧
      new.cryptoKeyId = old.cryptoKeyId ∧ new.cryptoProfileId = old.cryptoProfileId := by
  have hperm := canonical_flat_perm (flat_aadFields new) (flat_aadFields old) h
  rw [hold] at hperm
  have hnew : classicV1 v new.cryptoProfileId = false := by
    cases hprofile : classicV1 v new.cryptoProfileId with
    | false => rfl
    | true =>
      rw [hprofile] at hperm
      have hlength := hperm.length_eq
      simp [baseFields, profileFields] at hlength
  rw [hnew] at hperm
  simp only [Bool.false_eq_true, if_false] at hperm
  have hmem : ∀ field ∈ baseFields new ++ profileFields new,
      field ∈ baseFields old ++ profileFields old := fun field hin => hperm.mem_iff.mp hin
  have hitem : (new.itemId.map Json.str).getD .null = (old.itemId.map Json.str).getD .null := by
    simpa [baseFields, profileFields] using
      hmem ("item_id", (new.itemId.map Json.str).getD .null) (by simp [profileFields])
  have htime := hmem ("occurred_at", .str (isoformatUtc (fromColumn new.occurredAt)))
    (by simp [profileFields])
  have hreceived := hmem ("received_at", .str (isoformatUtc (fromColumn new.receivedAt)))
    (by simp [baseFields])
  refine ⟨?_, ?_, ?_, ?_, ?_, ?_, ?_, ?_, ?_⟩
  · simpa [baseFields, profileFields] using hmem ("event_id", .str new.eventId) (by simp [baseFields])
  · simpa [baseFields, profileFields] using hmem ("event_type", .str new.eventType) (by simp [baseFields])
  · simpa [baseFields, profileFields] using
      hmem ("schema_version", .str new.schemaVersion) (by simp [baseFields])
  · simpa [baseFields, profileFields] using hmem ("source_id", .str new.sourceId) (by simp [baseFields])
  · cases hn : new.itemId <;> cases ho : old.itemId <;> simp_all
  · have htext : isoformatUtc (fromColumn new.occurredAt) = isoformatUtc (fromColumn old.occurredAt) := by
      simpa [baseFields, profileFields] using htime
    simpa using isoformatUtc_injective (by simpa using hreadable'.occurredAt)
      (by simpa using hreadable.occurredAt) htext
  · have htext : isoformatUtc (fromColumn new.receivedAt) = isoformatUtc (fromColumn old.receivedAt) := by
      simpa [baseFields, profileFields] using hreceived
    simpa using isoformatUtc_injective (by simpa using hreadable'.receivedAt)
      (by simpa using hreadable.receivedAt) htext
  · simpa [baseFields, profileFields] using
      hmem ("crypto_key_id", .str new.cryptoKeyId) (by simp [profileFields])
  · simpa [baseFields, profileFields] using
      hmem ("crypto_profile", .str new.cryptoProfileId) (by simp [profileFields])

theorem classicV2_current (h : v.upper "CLASSIC_V2" = "CLASSIC_V2") : classicV1 v "CLASSIC_V2" = false := by
  rw [classicV1, h]
  decide +kernel

/-- The columns of a row that is still intact and still decrypts are those it was sealed with, up to the
three that nothing binds. -/
theorem row_unchanged {rows : List SealedEvent} (hguarded : Guarded v rows) {row : SealedEvent}
    (hrow : row ∈ rows) (hmac : storedMac v (columnsOf row) = (columnsOf row).integrityMac)
    (hreadable : Readable (columnsOf row)) (hreadable' : Readable new)
    (hchanged : Changed columns (columnsOf row) new) (hintact : storedMac v new = new.integrityMac)
    (hdecrypts : (decryptRow v new).isSome = true) {itemId : String} (hown : new.itemId = some itemId)
    (hkept : KeepsUnbound itemId (columnsOf row) new) : new = columnsOf row := by
  have hsame : storedMac v new = storedMac v (columnsOf row) := by
    rw [hintact, hchanged.mac, hmac]
  unfold storedMac at hsame
  rw [hchanged.prevMac] at hsame
  obtain ⟨-, hciphertext, hnonce, -⟩ := computeIntegrityMac_determines hguarded.collisionFree
    hreadable'.metadata hreadable.metadata hreadable'.ciphertext hreadable.ciphertext hreadable'.nonce
    hreadable.nonce hsame
  have haad : storedAad v new = storedAad v (columnsOf row) := by
    refine hguarded.rejects row hrow _ ?_
    unfold decryptRow at hdecrypts
    rwa [hnonce, hciphertext] at hdecrypts
  have hprofile : classicV1 v (columnsOf row).cryptoProfileId = false := classicV2_current hguarded.upper
  obtain ⟨heventId, heventType, hschema, hsource, hitem, hoccurred, hreceived, hkey, hprofileId⟩ :=
    storedAad_determines hprofile hreadable hreadable' haad
  obtain ⟨-, hrun, hsequence⟩ := hkept (hitem.symm.trans hown)
  exact StoredRow.ext heventId heventType hschema hsource hchanged.sourceType hsequence hitem hrun
    hoccurred hreceived hchanged.ingestSeq hciphertext hnonce hchanged.streamId hchanged.seq
    hchanged.prevMac hchanged.mac hkey hprofileId

end Bound

/-! ## Honest logs -/

/-- Some call sealed the row. -/
def Sealed (settings : CryptoSettings) (row : SealedEvent) : Prop :=
  ∃ head incoming receivedAt ingestSeq nonce,
    row = sealEvent settings head incoming receivedAt ingestSeq nonce

theorem sealed_of_reachable {settings : CryptoSettings} {w : World Ledger Append}
    (h : (appending settings).Reachable (World.quiet {}) w) :
    ∀ row ∈ w.committed.rows, Sealed settings row := by
  have hheld := Protocol.invariant (P := Protocol.Held (fun ledger => ∀ row ∈ ledger.rows, Sealed settings row)
    (fun _ append => ∀ row, append.pending = some row → Sealed settings row) fun _ _ => True) ?_
    (Protocol.held_quiet (by simp)) h
  · exact hheld.shared
  · intro w w' hw hstep
    refine Protocol.held_step (fun _ _ _ => trivial) ?_ ?_ ?_ hw hstep
    · rintro ledger append - ⟨call, rfl⟩
      exact ⟨fun row hrow => (by cases hrow), fun _ => trivial⟩
    · intro w i l l' hw hl hmove
      refine ⟨?_, fun _ _ _ _ => trivial⟩
      have hmoves : AppendMoves settings w i l l' := hmove
      cases hmoves with
      | inserts call head isNew ingestSeq row hrow =>
        intro other hother
        cases hother
        exact ⟨head, call.incoming, call.receivedAt, ingestSeq, call.nonce, hrow⟩
      | _ => exact fun row hrow => by cases hrow
    · intro w i l ledger l' hw hl hcommit
      have hcommits : AppendCommits w l ledger l' := hcommit
      cases hcommits with
      | commit row isNew =>
        refine ⟨fun other hother => ?_, fun j m _ hm => hw.each j m hm, fun m hm => by cases hm⟩
        rcases List.mem_append.mp hother with hold | hlast
        · exact hw.shared other hold
        · rw [List.mem_singleton.mp hlast]
          exact hw.each i _ hl row rfl

/-- The MAC of an honest row is calculated from its columns again. -/
theorem columns_intact {v : Vault} {row : SealedEvent} (h : Sealed v.crypto row) :
    storedMac v (columnsOf row) = (columnsOf row).integrityMac := by
  obtain ⟨head, incoming, receivedAt, ingestSeq, nonce, rfl⟩ := h
  exact sealEvent_intact head incoming receivedAt ingestSeq nonce

theorem rowFailures_eq_nil {v : Vault} {streamId : String} {previous : Bytes} {expectedSeq : ℕ}
    {row : StoredRow} : rowFailures v streamId previous expectedSeq row = [] ↔
      (storedColumns v).seq row = expectedSeq ∧ (storedColumns v).prev row = previous ∧
        (storedColumns v).intact row := by
  simp only [rowFailures, List.append_eq_nil_iff, ite_eq_left_iff, List.cons_ne_nil, imp_false,
    not_not, and_assoc, storedColumns]

theorem storedStream_columnsOf (rows : List SealedEvent) (streamId : String) :
    storedStream (rows.map columnsOf) streamId = (streamEvents rows streamId).map columnsOf := by
  rw [storedStream, streamEvents, List.filter_map]
  exact (List.map_insertionSort (fun a b : SealedEvent => a.raw.integritySeq ≤ b.raw.integritySeq)
    (fun a b : StoredRow => a.integritySeq ≤ b.integritySeq) columnsOf _ fun _ _ _ _ => Iff.rfl).symm

theorem linked_columnsOf {v : Vault} {previous : Bytes} {expectedSeq : ℕ} {rows : List SealedEvent} :
    Linked (storedColumns v) previous expectedSeq (rows.map columnsOf) ↔
      Linked (chainColumns v.crypto) previous expectedSeq rows := by
  induction rows generalizing previous expectedSeq with
  | nil => exact Iff.rfl
  | cons row rest ih => exact and_congr Iff.rfl (and_congr Iff.rfl (and_congr Iff.rfl ih))

/-- Nothing is reported of the columns of a chained ledger. -/
theorem storedFailures_of_chained {v : Vault} {ledger : Ledger} (h : Chained v.crypto ledger)
    (streamIds : List String) : storedFailures v streamIds (ledger.rows.map columnsOf) = [] := by
  refine List.flatMap_eq_nil_iff.mpr fun streamId _ => ?_
  rw [audit_eq_nil_iff fun _ _ _ => rowFailures_eq_nil, storedStream_columnsOf, linked_columnsOf,
    h.streamEvents]
  exact h.linked streamId

/-- The associated data of an honest row is calculated from its columns again. -/
theorem storedAad_sealEvent {v : Vault} (hupper : v.upper "CLASSIC_V2" = "CLASSIC_V2")
    (head : StreamHead) (incoming : IncomingEvent) (receivedAt : Instant) (ingestSeq : ℕ) (nonce : Bytes) :
    storedAad v (columnsOf (sealEvent v.crypto head incoming receivedAt ingestSeq nonce)) =
      buildAad incoming.event incoming.occurredAt (fromColumn receivedAt) v.crypto.aesKeyId := by
  have htime : isoformatUtc (fromColumn incoming.event.occurredAt) =
      isoformatUtc incoming.occurredAt :=
    isoformatUtc_congr (by rw [instant_fromColumn, incoming.same_instant])
  have hprofile : classicV1 v (columnsOf
      (sealEvent v.crypto head incoming receivedAt ingestSeq nonce)).cryptoProfileId = false :=
    classicV2_current hupper
  rw [storedAad, hprofile, buildAad, ← htime]
  rfl

/-- Where nothing is reported, every row of a known stream is intact. -/
theorem intact_of_verified {v : Vault} {streamIds : List String} {rows : List StoredRow}
    (h : storedFailures v streamIds rows = []) {row : StoredRow} (hrow : row ∈ rows)
    (hstream : row.integrityStreamId ∈ streamIds) : storedMac v row = row.integrityMac := by
  have hmem : row.integrityStreamId ∈ streamIds.insertionSort fun a b => a ≤ b := by simpa using hstream
  have haudit := List.flatMap_eq_nil_iff.mp h _ hmem
  have hlinked := (audit_eq_nil_iff fun _ _ _ => rowFailures_eq_nil).mp haudit
  exact intact_of_linked hlinked (by simp [storedStream, hrow])

/-- The rows that now belong to the item are unchanged, and none of its rows has left it. -/
theorem filter_unchanged {columns : Set Column} {itemId : String} {honest rows : List StoredRow}
    (hchanged : List.Forall₂ (Changed columns) honest rows)
    (hkept : List.Forall₂ (KeepsUnbound itemId) honest rows)
    (hsame : ∀ old ∈ honest, ∀ new ∈ rows, Changed columns old new → KeepsUnbound itemId old new →
      new.itemId = some itemId → new = old) :
    (rows.filter fun row => decide (row.itemId = some itemId)) =
      honest.filter fun row => decide (row.itemId = some itemId) := by
  induction hchanged with
  | nil => rfl
  | @cons old new honest rows hfirst hrest ih =>
    obtain ⟨hfirstKept, hrestKept⟩ := List.forall₂_cons.mp hkept
    have hothers := ih hrestKept
      fun a ha b hb => hsame a (List.mem_cons_of_mem _ ha) b (List.mem_cons_of_mem _ hb)
    by_cases hown : new.itemId = some itemId
    · rw [hsame old List.mem_cons_self new List.mem_cons_self hfirst hfirstKept hown, List.filter_cons,
        List.filter_cons, hothers]
    · have hother : ¬ old.itemId = some itemId := fun hold => hown ((hfirstKept hold).1.trans hold)
      rw [List.filter_cons, List.filter_cons, if_neg (by simpa using hown),
        if_neg (by simpa using hother), hothers]

theorem sameProjection_of_kept {columns : Set Column} {v : Vault} {w : World Ledger Append}
    {rows : List StoredRow} {itemId : String} (h : Undetected columns v w rows itemId)
    (hkept : List.Forall₂ (KeepsUnbound itemId) (w.committed.rows.map columnsOf) rows) :
    SameProjection v w rows itemId := by
  have hchained := appends_chained h.honest
  have hsealed := sealed_of_reachable h.honest
  have hfilter := filter_unchanged h.changed hkept ?_
  · intro misfit db
    rw [replayStored, replayStored, storedHistory, storedHistory, hfilter]
  · intro old hold new hnew hrow hunbound hown
    obtain ⟨row, hmem, rfl⟩ := List.mem_map.mp hold
    have hstream : new.integrityStreamId ∈ w.committed.heads.map (·.streamId) := by
      rw [hrow.streamId]
      exact hchained.covered row hmem
    exact row_unchanged h.guarded hmem (columns_intact (hsealed row hmem)) (h.readable row hmem)
      (h.stillReadable new hnew) hrow (intact_of_verified h.verified hnew hstream)
      (h.decrypts new hnew hown) hown hunbound

/-! ## Columns that nothing binds -/

/-- The row without its item, its operation run and its sequence number. -/
def boundPart (row : StoredRow) : StoredRow :=
  { row with itemId := none, operationRunId := none, sourceSequence := none }

theorem readable_boundPart {row : StoredRow} : Readable (boundPart row) ↔ Readable row :=
  ⟨fun ⟨ho, hr, hm, hc, hn⟩ => ⟨ho, hr, hm, hc, hn⟩, fun ⟨ho, hr, hm, hc, hn⟩ => ⟨ho, hr, hm, hc, hn⟩⟩

theorem storedStream_boundPart (rows : List StoredRow) (streamId : String) :
    storedStream (rows.map boundPart) streamId = (storedStream rows streamId).map boundPart := by
  rw [storedStream, storedStream, List.filter_map]
  exact (List.map_insertionSort (fun a b : StoredRow => a.integritySeq ≤ b.integritySeq)
    (fun a b : StoredRow => a.integritySeq ≤ b.integritySeq) boundPart _ fun _ _ _ _ => Iff.rfl).symm

/-- `verify_integrity` reads none of the three. -/
theorem storedFailures_boundPart (v : Vault) (streamIds : List String) (rows : List StoredRow) :
    storedFailures v streamIds (rows.map boundPart) = storedFailures v streamIds rows := by
  unfold storedFailures
  refine congrArg (fun f => List.flatMap f _) (funext fun streamId => ?_)
  rw [storedStream_boundPart]
  apply audit_map
  · intro row
    rfl
  · intro previous expectedSeq row
    rfl

theorem storedFailures_congr {old new : List StoredRow} (h : new.map boundPart = old.map boundPart)
    (v : Vault) (streamIds : List String) : storedFailures v streamIds new = storedFailures v streamIds old := by
  rw [← storedFailures_boundPart, h, storedFailures_boundPart]

/-- `_decrypt` reads the item alone of them. -/
theorem decryptRow_congr {old new : StoredRow} (h : boundPart new = boundPart old)
    (hitem : new.itemId = old.itemId) (v : Vault) : decryptRow v new = decryptRow v old := by
  have hrow : ∀ row, decryptRow v row = decryptRow v { boundPart row with itemId := row.itemId } :=
    fun row => rfl
  rw [hrow new, hrow old, h, hitem]

/-- The replay of an item whose rows hold these contents. -/
def replayContents (misfit : Misfit) (db : Database) (content : StoredRow → ContentHash)
    (rows : List StoredRow) (itemId : String) : Option ReplayValues :=
  (((storedHistory rows itemId).map fun row => (row, (content row).payload)).foldlM
    (replayRow misfit db) {}).map fun values =>
      { values with observations := markConflicts values.observations }

theorem replayStored_contents {v : Vault} {misfit : Misfit} {db : Database}
    {content : StoredRow → ContentHash} {rows : List StoredRow} {itemId : String}
    (hopens : ∀ row ∈ rows, row.itemId = some itemId → decryptRow v row = some (content row)) :
    replayStored v misfit db rows itemId = replayContents misfit db content rows itemId := by
  have hhistory : ∀ row ∈ storedHistory rows itemId, decryptRow v row = some (content row) := by
    intro row hrow
    rw [storedHistory, List.mem_insertionSort] at hrow
    obtain ⟨hmem, hown⟩ := List.mem_filter.mp hrow
    exact hopens row hmem (of_decide_eq_true hown)
  have hmap := mapM_decryptRow (f := id) hhistory
  simp only [List.map_id, id_eq] at hmap
  rw [replayStored, hmap, replayContents, Option.bind_eq_bind, Option.bind_some]
  cases ((storedHistory rows itemId).map fun row => (row, (content row).payload)).foldlM
    (replayRow misfit db) {} <;> rfl

/-! ### Two reports of one run -/

/-- Two reports that one run has started. -/
def runEvent (eventId operatorId : String) (sequence : ℕ) : EventEnvelope where
  eventId := eventId
  occurredAt := 10
  source := { sourceId := "plc-1", sourceType := "plc", sequence := some sequence }
  itemId := some "item-1"
  operationRunId := some "run-1"
  payload := .operationStarted
    { operationId := "mill", operatorId := operatorId, equipmentId := "press-1", stationId := "station-1" }
  item_required := fun _ => by decide
  run_required := fun _ => by decide

instance (row : StoredRow) : Decidable (Readable row) :=
  decidable_of_iff (firstInstant ≤ row.occurredAt ∧ firstInstant ≤ row.receivedAt ∧
      (storedMetadata row).length < 256 ^ 4 ∧ row.payloadCiphertext.length < 256 ^ 8 ∧
      row.nonce.length < 256 ^ 4)
    ⟨fun ⟨ho, hr, hm, hc, hn⟩ => ⟨ho, hr, hm, hc, hn⟩, fun h => ⟨h.occurredAt, h.receivedAt, h.metadata,
      h.ciphertext, h.nonce⟩⟩

def runCall (eventId operatorId : String) (sequence : ℕ) : AppendCall where
  incoming := ⟨runEvent eventId operatorId sequence, ⟨10, some 0⟩, rfl⟩
  receivedAt := 20
  nonce := [1, 2, 3]

def firstRun : SealedEvent :=
  sealEvent plainSettings (headFor {} (runCall "e-1" "operator-1" 1))
    (runCall "e-1" "operator-1" 1).incoming 20 1 [1, 2, 3]

def secondRun : SealedEvent :=
  sealEvent plainSettings (headFor (appendRow {} firstRun) (runCall "e-2" "operator-2" 2))
    (runCall "e-2" "operator-2" 2).incoming 20 2 [1, 2, 3]

def runLedger : Ledger := appendRow (appendRow {} firstRun) secondRun

theorem runLedger_reachable :
    (appending plainSettings).Reachable (World.quiet {}) (World.quiet runLedger) :=
  (append_alone plainSettings {} (runCall "e-1" "operator-1" 1) 1 rfl (by simp)).trans
    (append_alone plainSettings (appendRow {} firstRun) (runCall "e-2" "operator-2" 2) 2 rfl
      (by decide +kernel))

/-- It opens what was sealed. -/
def runVault : Vault where
  crypto := plainSettings
  aesGcmOpen nonce ciphertext aad :=
    if ciphertext = nonce ++ aad then
      (runLedger.rows.find? fun row => decide (row.nonce = nonce ∧ row.payloadCiphertext = ciphertext)).map
        (·.raw.event.contentHash)
    else none
  upper text := text

theorem runLedger_rows : runLedger.rows = [firstRun, secondRun] := rfl

theorem runLedger_readable : ∀ row ∈ runLedger.rows, Readable (columnsOf row) := by decide +kernel

theorem runLedger_ciphertext : ∀ row ∈ runLedger.rows,
    row.payloadCiphertext = row.nonce ++ storedAad runVault (columnsOf row) := by
  intro row hrow
  rcases List.mem_pair.mp (runLedger_rows ▸ hrow) with rfl | rfl
  · exact (congrArg ([1, 2, 3] ++ ·) (storedAad_sealEvent (v := runVault) rfl ..)).symm
  · exact (congrArg ([1, 2, 3] ++ ·) (storedAad_sealEvent (v := runVault) rfl ..)).symm

theorem runLedger_distinct : firstRun.payloadCiphertext ≠ secondRun.payloadCiphertext := by
  intro hsame
  have haad : storedAad runVault (columnsOf firstRun) = storedAad runVault (columnsOf secondRun) := by
    rw [runLedger_ciphertext firstRun (by simp [runLedger, appendRow]),
      runLedger_ciphertext secondRun (by simp [runLedger, appendRow])] at hsame
    exact List.append_cancel_left hsame
  have hevent := (storedAad_determines (classicV2_current rfl) (runLedger_readable secondRun
    (by simp [runLedger, appendRow])) (runLedger_readable firstRun (by simp [runLedger, appendRow])) haad).1
  exact absurd hevent (by decide)

theorem runLedger_opens : ∀ row ∈ runLedger.rows,
    decryptRow runVault (columnsOf row) = some row.raw.event.contentHash := by
  have hopens : ∀ row ∈ runLedger.rows, decryptRow runVault (columnsOf row) =
      (runLedger.rows.find? fun other => decide (other.nonce = row.nonce ∧
        other.payloadCiphertext = row.payloadCiphertext)).map (·.raw.event.contentHash) :=
    fun row hrow => if_pos (runLedger_ciphertext row hrow)
  have hnonce : firstRun.nonce = secondRun.nonce := rfl
  intro row hrow
  rw [hopens row hrow, runLedger_rows]
  rw [runLedger_rows, List.mem_pair] at hrow
  rcases hrow with rfl | rfl
  · simp
  · simp [runLedger_distinct, hnonce]

theorem runLedger_guarded : Guarded runVault runLedger.rows := by
  refine ⟨Function.injective_id, rfl, runLedger_opens, fun row hrow aad hopens => ?_⟩
  have hciphertext : row.payloadCiphertext = row.nonce ++ aad := by
    by_contra hother
    simp only [runVault, if_neg hother] at hopens
    cases hopens
  exact (List.append_cancel_left ((runLedger_ciphertext row hrow).symm.trans hciphertext)).symm

/-- The log after somebody has rewritten each of its rows. -/
def rewritten (first second : StoredRow → StoredRow) : List StoredRow :=
  [first (columnsOf firstRun), second (columnsOf secondRun)]

theorem runLedger_verifies : storedFailures runVault ["source:plc-1"] (runLedger.rows.map columnsOf) = [] :=
  storedFailures_of_chained (v := runVault) (appends_chained runLedger_reachable) _

/-- What the ciphertext of a row holds. -/
def runContent (row : StoredRow) : ContentHash :=
  if row.eventId = "e-1" then firstRun.raw.event.contentHash else secondRun.raw.event.contentHash

/-- The projection of the item as the contents of its rows have it. -/
def runProjection (rows : List StoredRow) : Option (List OperationValue × List ObservationValue ×
    List MachineValue × List ActionValue) :=
  projectionOf (replayContents (fun _ _ _ => none) {} runContent rows "item-1")

/-- Rows that are changed in the three columns alone are not reported and decrypt, so the projection shows
whether the change does harm. -/
theorem not_harmless {columns : Set Column} (first second : StoredRow → StoredRow)
    (hfirst : Changed columns (columnsOf firstRun) (first (columnsOf firstRun)))
    (hsecond : Changed columns (columnsOf secondRun) (second (columnsOf secondRun)))
    (hbound : (rewritten first second).map boundPart = (runLedger.rows.map columnsOf).map boundPart)
    (hdiffers : runProjection (rewritten first second) ≠ runProjection (runLedger.rows.map columnsOf)) :
    ¬ Harmless columns := by
  intro h
  have horigin : ∀ new ∈ rewritten first second, ∃ row ∈ runLedger.rows,
      boundPart new = boundPart (columnsOf row) := by
    intro new hnew
    have hmem : boundPart new ∈ (runLedger.rows.map columnsOf).map boundPart :=
      hbound ▸ List.mem_map_of_mem hnew
    obtain ⟨old, hold, hsame⟩ := List.mem_map.mp hmem
    obtain ⟨row, hrow, rfl⟩ := List.mem_map.mp hold
    exact ⟨row, hrow, hsame.symm⟩
  have hitem : ∀ row ∈ runLedger.rows, (columnsOf row).itemId = some "item-1" := by
    intro row hrow
    rcases List.mem_pair.mp (runLedger_rows ▸ hrow) with rfl | rfl <;> rfl
  have hopens : ∀ new ∈ rewritten first second, new.itemId = some "item-1" →
      decryptRow runVault new = some (runContent new) := by
    intro new hnew hown
    obtain ⟨row, hrow, hsame⟩ := horigin new hnew
    have hid : new.eventId = row.raw.eventId := congrArg StoredRow.eventId hsame
    rw [decryptRow_congr hsame (hown.trans (hitem row hrow).symm), runLedger_opens row hrow, runContent, hid]
    rcases List.mem_pair.mp (runLedger_rows ▸ hrow) with rfl | rfl <;> rfl
  have hhonest : ∀ old ∈ runLedger.rows.map columnsOf, old.itemId = some "item-1" →
      decryptRow runVault old = some (runContent old) := by
    intro old hold _
    obtain ⟨row, hrow, rfl⟩ := List.mem_map.mp hold
    rw [runLedger_opens row hrow]
    rcases List.mem_pair.mp (runLedger_rows ▸ hrow) with rfl | rfl <;> rfl
  have hundetected : Undetected columns runVault (World.quiet runLedger) (rewritten first second) "item-1" := by
    refine ⟨runLedger_reachable, runLedger_guarded, runLedger_readable, .cons hfirst (.cons hsecond .nil),
      ?_, (storedFailures_congr hbound _ _).trans runLedger_verifies, ?_⟩
    · intro new hnew
      obtain ⟨row, hrow, hsame⟩ := horigin new hnew
      exact readable_boundPart.mp (hsame ▸ readable_boundPart.mpr (runLedger_readable row hrow))
    · intro new hnew hown
      rw [hopens new hnew hown]
      rfl
  have hsame : projectionOf (replayStored runVault (fun _ _ _ => none) {} (rewritten first second) "item-1") =
      projectionOf (replayStored runVault (fun _ _ _ => none) {} (runLedger.rows.map columnsOf) "item-1") :=
    h _ _ _ _ hundetected _ _
  rw [replayStored_contents hopens, replayStored_contents hhonest] at hsame
  exact hdiffers hsame

theorem changed_run {columns : Set Column} (h : Column.operationRunId ∈ columns) (row : StoredRow)
    (run : Option String) : Changed columns row { row with operationRunId := run } := by
  refine ⟨fun column hout => ?_, rfl, rfl, rfl, rfl, rfl, rfl⟩
  cases column with
  | operationRunId => exact absurd h hout
  | _ => exact rfl

theorem changed_item {columns : Set Column} (h : Column.itemId ∈ columns) (row : StoredRow)
    (item : Option String) : Changed columns row { row with itemId := item } := by
  refine ⟨fun column hout => ?_, rfl, rfl, rfl, rfl, rfl, rfl⟩
  cases column with
  | itemId => exact absurd h hout
  | _ => exact rfl

theorem changed_sequence {columns : Set Column} (h : Column.sourceSequence ∈ columns) (row : StoredRow)
    (sequence : Option ℕ) : Changed columns row { row with sourceSequence := sequence } := by
  refine ⟨fun column hout => ?_, rfl, rfl, rfl, rfl, rfl, rfl⟩
  cases column with
  | sourceSequence => exact absurd h hout
  | _ => exact rfl

theorem changed_refl (columns : Set Column) (row : StoredRow) : Changed columns row row := by
  refine ⟨fun column _ => ?_, rfl, rfl, rfl, rfl, rfl, rfl⟩
  cases column <;> exact rfl

/-- The second report is moved to another run. -/
theorem run_unbound {columns : Set Column} (h : Column.operationRunId ∈ columns) : ¬ Harmless columns := by
  refine not_harmless id (fun row => { row with operationRunId := some "run-2" }) (changed_refl _ _)
    (changed_run h _ _) rfl ?_
  decide +kernel

/-- The second report is taken from the item. -/
theorem item_unbound {columns : Set Column} (h : Column.itemId ∈ columns) : ¬ Harmless columns := by
  refine not_harmless id (fun row => { row with itemId := none }) (changed_refl _ _)
    (changed_item h _ _) rfl ?_
  decide +kernel

/-- The first report comes after the second. -/
theorem sequence_unbound {columns : Set Column} (h : Column.sourceSequence ∈ columns) :
    ¬ Harmless columns := by
  refine not_harmless (fun row => { row with sourceSequence := some 3 }) id (changed_sequence h _ _)
    (changed_refl _ _) rfl ?_
  decide +kernel

/-- Somebody moves an event to another run: nothing is reported, everything decrypts, and the projection
has another run. -/
theorem moved_run_undetected : ¬ Harmless Set.univ := run_unbound (Set.mem_univ _)

/-- An undetected change of some columns leaves the projection of an item as it was if the rows of the
item stay with it and keep their runs and their sequence numbers. Columns that may be changed without
this condition are those but for these three. -/
theorem undetected_tampering_harmless_iff (columns : Set Column) :
    (∀ v w rows itemId, Undetected columns v w rows itemId →
      List.Forall₂ (KeepsUnbound itemId) (w.committed.rows.map columnsOf) rows →
      SameProjection v w rows itemId) ∧
    (Harmless columns ↔ Column.itemId ∉ columns ∧ Column.operationRunId ∉ columns ∧
      Column.sourceSequence ∉ columns) := by
  refine ⟨fun v w rows itemId h hkept => sameProjection_of_kept h hkept, fun h => ?_, ?_⟩
  · exact ⟨fun hitem => item_unbound hitem h, fun hrun => run_unbound hrun h,
      fun hsequence => sequence_unbound hsequence h⟩
  · rintro ⟨hitem, hrun, hsequence⟩ v w rows itemId h
    refine sameProjection_of_kept h (h.changed.imp fun old new hchanged _ => ?_)
    exact ⟨hchanged.kept .itemId hitem, hchanged.kept .operationRunId hrun,
      hchanged.kept .sourceSequence hsequence⟩

end TraceQ.Properties
