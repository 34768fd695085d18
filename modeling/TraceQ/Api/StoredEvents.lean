import TraceQ.Api.Nonconformances
import TraceQ.Domain.Canonical
import TraceQ.Ingestion.CallMeaning
import TraceQ.Library.Machine
import TraceQ.Projections.StoredRows
import TraceQ.Security.JsonText

/-! # Stored events and their readers

`encrypt_event` as `ingest_event` calls it, `_decrypt` in `backend/app/projections/rebuild.py` and `get_event`
in `backend/app/api/events.py`. AES-GCM under the configured key is a parameter.
-/
namespace TraceQ.Api
open Projections Ingestion Security Tables
set_option autoImplicit false
set_option maxHeartbeats 250000

/-! ## AES-GCM -/

/-- `AESGCM(key)`: of a nonce, a plaintext or ciphertext, and the associated data; `decrypt` is `none` if it
raises `InvalidTag`. -/
structure AesGcm where
  encrypt : Bytes → Bytes → Bytes → Bytes
  decrypt : Bytes → Bytes → Bytes → Option Bytes

def AesGcm.Inverts (aes : AesGcm) : Prop :=
  ∀ nonce plaintext aad, aes.decrypt nonce (aes.encrypt nonce plaintext aad) aad = some plaintext

/-! ## Writing -/

section Write
variable (aes : AesGcm) (w : Writing) (g : Gateway)

/-- The settings with which `ingest_event` encrypts the canonical bytes of the value. -/
def encrypting (value : Json) : Gateway :=
  match parseEvent g.reading value with
  | .ok event =>
      { g with
        crypto := { g.crypto with aesGcm := fun nonce _ aad => aes.encrypt nonce (plaintextOf w event) aad } }
  | .error _ => g

inductive LogCall where
  | ingest (call : IngestCall)
  /-- Anything else, which leaves these rows behind. Only the tampering of the demo writes raw events, and it is
  not among the calls. -/
  | other (after : Store)

def execLog (s : Store) : LogCall → Store × Except Raised Unit
  | .ingest call =>
      let ingested := ingestCall (encrypting aes w g call.value) s call
      (ingested.1, ingested.2.map fun _ => ())
  | .other after => ({ after with sealed := s.sealed, db := { after.db with rawEvents := s.db.rawEvents } }, .ok ())

end Write

/-! ## Reading -/

inductive ReadFailure where
  | refused (error : Quality.TraceQError)
  /-- `InvalidTag`. -/
  | invalidTag
  /-- `JSONDecodeError`. -/
  | undecodable
deriving DecidableEq

/-- What `get_event` returns. -/
structure EventView where
  event : Json
  receivedAt : Datetime
  ingestSeq : ℕ
  contentHash : ContentHash
  integrityStreamId : String
  integritySeq : ℕ

/-! The floats of a plaintext are written by `repr`, so that `json.loads` reads each as the token that stands there. -/

section Read
variable (aes : AesGcm) (v : Vault)

/-- `_decrypt`. -/
def decryptStored (row : StoredRow) : Except ReadFailure Json :=
  match aes.decrypt row.nonce row.payloadCiphertext (storedAad v row) with
  | none => .error .invalidTag
  | some plaintext =>
      match loads id plaintext with
      | none => .error .undecodable
      | some value => .ok value

/-- `get_event`. -/
def getEvent (rows : List SealedEvent) (eventId : String) : Except ReadFailure EventView :=
  match rows.find? fun row => decide (row.raw.eventId = eventId) with
  | none => .error (.refused (notFound "Event"))
  | some row =>
      match aes.decrypt row.nonce row.payloadCiphertext (storedAad v (columnsOf row)) with
      | none => .error .invalidTag
      | some plaintext =>
          match loads id plaintext with
          | none => .error .undecodable
          | some value =>
              .ok {
                event := value
                receivedAt := fromColumn row.raw.receivedAt
                ingestSeq := row.raw.ingestSeq
                contentHash := row.raw.event.contentHash
                integrityStreamId := row.raw.integrityStreamId
                integritySeq := row.raw.integritySeq }

end Read

end TraceQ.Api
