import TraceQ.Persistence.Models

/-! # Controlled outbound release

`OutboundReleasePolicy` in `backend/app/quality/release.py`, the only constructor of quality results
and their outbox messages. All clock readings of one request are the same `now`.
-/
namespace TraceQ.Quality
open Tables
set_option autoImplicit false
set_option maxHeartbeats 250000

structure TraceQError where
  code : String
  message : String
  statusCode : ℕ := 400
deriving DecidableEq, Repr

/-- `{"RELEASED", "USE_AS_IS", "SCRAPPED"}`. -/
def exportable : Disposition → Bool
  | .released | .useAsIs | .scrapped => true
  | .inProcess | .reworkRequired => false

def authorize (ncr : Nonconformance) (decision : ControllerDecision) : Except TraceQError Unit :=
  if decision.nonconformanceId ≠ ncr.id ∨
      ¬ (decision.verdict = .confirmed ∨ decision.verdict = .rejected) then
    .error ⟨"ACTION_NOT_AUTHORIZED", "An authorized controller decision is required", 403⟩
  else if exportable decision.disposition = false then
    .error ⟨"ACTION_NOT_AUTHORIZED", "This disposition is not exportable", 403⟩
  else if ncr.resolutionType = some .rework ∧ ncr.verificationStatus ≠ some .passed then
    .error ⟨"REWORK_VERIFICATION_REQUIRED", "Successful controller verification is required", 409⟩
  else .ok ()

def resultPayload (ncr : Nonconformance) (decision : ControllerDecision) (now : Instant) :
    QualityPayload where
  messageId := ⟨decision.id⟩
  itemId := ncr.itemId
  nonconformanceId := ncr.id
  decisionId := decision.id
  verdict := decision.verdict
  disposition := decision.disposition
  containment := decision.containment
  decidedAt := now

/-- `if item: item.status = disposition`. -/
def setItemStatus (db : Database) (itemId : String) (disposition : Disposition) : Database :=
  { db with
    items := modifyWhere (fun item => decide (item.itemId = itemId))
      (fun item => { item with status := disposition }) db.items }

/-- Write the changed columns of an NCR back to its row. -/
def saveNcr (db : Database) (ncr : Nonconformance) : Database :=
  { db with
    nonconformances := modifyWhere (fun row => decide (row.id = ncr.id)) (fun _ => ncr)
      db.nonconformances }

def closeOccurrence (db : Database) (occurrenceId : Uuid) (now : Instant) : Database :=
  { db with
    defectOccurrences := modifyWhere (fun row => decide (row.id = occurrenceId))
      (fun row => { row with status := .closed, closedAt := some now }) db.defectOccurrences }

/-- `create_result`; `ncr` is the row as the endpoint has changed it so far. -/
def createResult (db : Database) (ncr : Nonconformance) (decision : ControllerDecision)
    (now : Instant) : Except TraceQError (Database × MessageId) := do
  authorize ncr decision
  match db.qualityResults.find? fun result => decide (result.decisionId = decision.id) with
  | some existing => return (saveNcr db ncr, existing.messageId)
  | none =>
      let payload := resultPayload ncr decision now
      let exported : Database :=
        { db with
          qualityResults := db.qualityResults ++ [⟨payload.messageId, decision.id, ncr.itemId, payload⟩]
          outboxMessages := db.outboxMessages ++
            [⟨payload.messageId, "erp-emulator", "quality.result", payload⟩] }
      let released := setItemStatus exported ncr.itemId decision.disposition
      let closed := saveNcr released { ncr with closedAt := some now }
      return (closeOccurrence closed ncr.occurrenceId now, payload.messageId)

end TraceQ.Quality
