import TraceQ.Api.Nonconformances
import TraceQ.Ingestion.Appends

/-! # Tampering for a demonstration

`_tamper` in `backend/app/api/demo.py` and the endpoint `demo_tamper` in `backend/app/api/admin.py`: past
the trigger of `raw_events` they flip one bit of a stored ciphertext. Events that go on arriving are sealed
behind the rows as they are, and `verify_integrity` may run at any time.
-/
namespace TraceQ.Api
open Quality Security Ingestion
set_option autoImplicit false
set_option maxHeartbeats 250000

/-! ## One tampering -/

/-- `set_byte(value, 0, get_byte(value, 0) # 1)`; `none` if there is no byte. -/
def flipLowestBit : Bytes → Option Bytes
  | [] => none
  | first :: rest => some ((first ^^^ 1) :: rest)

inductive TamperFailure where
  | refused (error : Quality.TraceQError)
  /-- The database raises and the transaction is rolled back. -/
  | databaseError

def tamperUnavailable : Quality.TraceQError :=
  ⟨"DEMO_TAMPER_UNAVAILABLE", "Demo tamper connection is not configured", 503⟩

def flipRow (eventId : String) (row : SealedEvent) : Option SealedEvent :=
  if row.raw.eventId = eventId then
    (flipLowestBit row.payloadCiphertext).map fun ciphertext => { row with payloadCiphertext := ciphertext }
  else some row

/-- The `UPDATE` of both. -/
def flipStored (ledger : Ledger) (eventId : String) : Except TamperFailure Ledger :=
  match ledger.rows.mapM (flipRow eventId) with
  | none => .error .databaseError
  | some rows => .ok { ledger with rows := rows }

section Tamper
variable (demoPrivilegedDatabaseUrl : Option String)

/-- `_tamper`. -/
def tamper (ledger : Ledger) (eventId : String) : Except TamperFailure Ledger :=
  if truthy demoPrivilegedDatabaseUrl then flipStored ledger eventId
  else .error (.refused tamperUnavailable)

def demoTamper (ledger : Ledger) (eventId : String) : Except TamperFailure Ledger :=
  if truthy demoPrivilegedDatabaseUrl then
    if ledger.rows.any fun row => decide (row.raw.eventId = eventId) then flipStored ledger eventId
    else .error (.refused (notFound "Event"))
  else .error (.refused tamperUnavailable)

/-! ## Histories -/

inductive DemoStep where
  /-- A call of `ingest_event` that is authenticated and valid, with the number its row gets. -/
  | ingest (call : AppendCall) (ingestSeq : ℕ)
  | tamper (eventId : String)
  | demoTamper (eventId : String)
  | verify

variable (settings : CryptoSettings)

def ingestStep (ledger : Ledger) (call : AppendCall) (ingestSeq : ℕ) : Ledger :=
  let row := sealEvent settings (headFor ledger call) call.incoming call.receivedAt ingestSeq call.nonce
  if ledger.rows.any fun old => decide (Clash row old) then ledger else appendRow ledger row

/-- What a step leaves; what raises leaves everything. -/
def demoStep (ledger : Ledger) : DemoStep → Ledger
  | .ingest call ingestSeq => ingestStep settings ledger call ingestSeq
  | .tamper eventId => (tamper demoPrivilegedDatabaseUrl ledger eventId).toOption.getD ledger
  | .demoTamper eventId => (demoTamper demoPrivilegedDatabaseUrl ledger eventId).toOption.getD ledger
  | .verify => (verifyIntegrity settings ledger).1

def demoRun (ledger : Ledger) (steps : List DemoStep) : Ledger :=
  steps.foldl (demoStep demoPrivilegedDatabaseUrl settings) ledger

end Tamper

end TraceQ.Api
