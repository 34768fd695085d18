import TraceQ.Projections.Linking
import TraceQ.Quality.Release

/-! # The NCR endpoints

`backend/app/api/nonconformances.py`. An endpoint returns the database it commits, or raises and
its session is closed without a commit. The permission checks come before these functions; the
audit trail is left out.
-/
namespace TraceQ.Api
open Projections Quality Tables
set_option autoImplicit false
set_option maxHeartbeats 250000

/-! ## Requests -/

structure ReviewRequest where
  verdict : Verdict
  reason : String
  allowed : verdict = .pendingReview ∨ verdict = .needsExtraCheck := by decide

structure DecisionRequest where
  verdict : Verdict
  disposition : Disposition
  containment : Containment
  reason : String
  allowed : verdict = .confirmed ∨ verdict = .rejected := by decide
  /-- A rejected NCR cannot require rework. -/
  valid_combination : ¬ (verdict = .rejected ∧ disposition = .reworkRequired) := by decide

structure ReworkVerificationRequest where
  passed : Bool
  reason : String

structure InspectionRequest where
  reason : String

structure ContainmentProposalRequest where
  containment : Containment
  rationale : String
  allowed : containment ≠ .none := by decide

structure ContainmentReviewRequest where
  approve : Bool
  reason : String

/-! ## Shared lookups -/

def notFound (entity : String) : TraceQError := ⟨"NOT_FOUND", entity ++ " not found", 404⟩

def ncrOr404 (db : Database) (ncrId : Uuid) : Except TraceQError Nonconformance :=
  match db.nonconformances.find? fun ncr => decide (ncr.id = ncrId) with
  | some ncr => .ok ncr
  | none => .error (notFound "Nonconformance")

/-- A stream holding an event of the item has failed verification. -/
def evidenceCompromised (db : Database) (itemId : String) : Bool :=
  db.rawEvents.any fun raw => decide (raw.itemId = some itemId) &&
    db.integrityStreamStates.any fun stream =>
      decide (stream.streamId = raw.integrityStreamId ∧ stream.status = .integrityFailed)

def ensureEvidenceIntegrity (db : Database) (itemId : String) : Except TraceQError Unit :=
  if evidenceCompromised db itemId then
    .error ⟨"EVIDENCE_INTEGRITY_FAILED",
      "A decision is blocked because supporting evidence failed integrity verification", 409⟩
  else .ok ()

/-- `ORDER BY created_at DESC LIMIT 1`. -/
def latestDecision (db : Database) (ncrId : Uuid) : Option ControllerDecision :=
  latestBy (·.createdAt) (db.controllerDecisions.filter fun decision =>
    decide (decision.nonconformanceId = ncrId))

/-- The decision row of a request: its analysis version and predecessor are read, not chosen. -/
def newDecision (db : Database) (ncr : Nonconformance) (userId : Uuid) (now : Instant)
    (verdict : Verdict) (disposition : Disposition) (containment : Containment) (reason : String) :
    ControllerDecision where
  id := db.nextId
  nonconformanceId := ncr.id
  userId := userId
  verdict := verdict
  disposition := disposition
  containment := containment
  reason := reason
  analysisVersion := ncr.currentAnalysisVersion
  previousDecisionId := (latestDecision db ncr.id).map (·.id)
  createdAt := now

def addDecision (db : Database) (decision : ControllerDecision) : Database :=
  { db with
    controllerDecisions := db.controllerDecisions ++ [decision]
    nextId := db.nextId + 1 }

/-! ## Review -/

def reviewNonconformance (db : Database) (ncrId : Uuid) (body : ReviewRequest) :
    Except TraceQError Database := do
  let ncr ← ncrOr404 db ncrId
  ensureEvidenceIntegrity db ncr.itemId
  return saveNcr db { ncr with verdict := body.verdict }

/-! ## Decision -/

structure DecisionResponse where
  decisionId : Uuid
  messageId : Option MessageId
deriving DecidableEq

/-- The columns a decision writes into its NCR. -/
def applyDecision (body : DecisionRequest) (ncr : Nonconformance) : Nonconformance :=
  let decided :=
    { ncr with
      verdict := body.verdict
      disposition := body.disposition
      containment := body.containment }
  if body.disposition = .reworkRequired then
    { decided with
      resolutionType := some .rework
      verificationStatus := some .pending }
  else decided

def decideNonconformance (db : Database) (ncrId : Uuid) (body : DecisionRequest) (userId : Uuid)
    (now : Instant) : Except TraceQError (Database × DecisionResponse) := do
  let ncr ← ncrOr404 db ncrId
  ensureEvidenceIntegrity db ncr.itemId
  let decision := newDecision db ncr userId now body.verdict body.disposition body.containment
    body.reason
  let decided := applyDecision body ncr
  let updated := setItemStatus (addDecision db decision) ncr.itemId body.disposition
  if exportable body.disposition then
    let (exported, messageId) ← createResult updated decided decision now
    return (exported, ⟨decision.id, some messageId⟩)
  else return (saveNcr updated decided, ⟨decision.id, none⟩)

/-! ## Rework verification -/

structure VerificationResponse where
  verificationStatus : VerificationStatus
  decisionId : Uuid
  messageId : Option MessageId
deriving DecidableEq

/-- The completed rework run with the latest finish; `NULL` sorts first in descending order. -/
def reworkRun (db : Database) (ncr : Nonconformance) : Option OperationRun :=
  latestBy (κ := WithTop Instant) (fun run => run.finishedAt)
    (db.operationRuns.filter fun run =>
      decide (run.itemId = ncr.itemId ∧ run.runReason = .rework ∧
        run.reworkForNonconformanceId = some ncr.id ∧ run.completionStatus = some .completed))

/-- The latest TRUSTED GOOD of the item at or after `finishedAt`. -/
def trustedGood (db : Database) (itemId : String) (finishedAt : Instant) : Option Observation :=
  latestBy (·.occurredAt) (db.observations.filter fun obs =>
    decide (obs.itemId = itemId ∧ finishedAt ≤ obs.occurredAt ∧
      obs.inspectionResult = .noDefect ∧ obs.trustStatus = .trusted))

def reworkNotCompleted : TraceQError :=
  ⟨"REWORK_NOT_COMPLETED", "A completed rework operation is required", 409⟩

/-- The finish of the selected run, which the endpoint requires. -/
def reworkFinish (db : Database) (ncr : Nonconformance) : Except TraceQError Instant :=
  match (reworkRun db ncr).bind (·.finishedAt) with
  | some finishedAt => .ok finishedAt
  | none => .error reworkNotCompleted

def verifyRework (db : Database) (ncrId : Uuid) (body : ReworkVerificationRequest) (userId : Uuid)
    (now : Instant) : Except TraceQError (Database × VerificationResponse) := do
  let ncr ← ncrOr404 db ncrId
  ensureEvidenceIntegrity db ncr.itemId
  let finishedAt ← reworkFinish db ncr
  let effectivePass := body.passed && (trustedGood db ncr.itemId finishedAt).isSome
  let decision := newDecision db ncr userId now .confirmed
    (if effectivePass then .released else .reworkRequired)
    (if effectivePass then .none else .hold) body.reason
  let recorded := addDecision db decision
  if effectivePass then
    let verified :=
      { ncr with
        verificationDecisionId := some decision.id
        verificationStatus := some .passed
        resolutionType := some .rework
        resolvedAt := some now
        disposition := .released
        containment := .none }
    let (exported, messageId) ← createResult recorded verified decision now
    return (exported, ⟨.passed, decision.id, some messageId⟩)
  else
    let failed :=
      { ncr with
        verificationDecisionId := some decision.id
        verificationStatus := some .failed
        disposition := .reworkRequired
        containment := .hold }
    return (saveNcr recorded failed, ⟨.failed, decision.id, none⟩)

/-! ## Extra inspection and containment -/

/-- No evidence check here; the NCR keeps its disposition. -/
def requestInspection (db : Database) (ncrId : Uuid) (body : InspectionRequest) (userId : Uuid)
    (now : Instant) : Except TraceQError (Database × Uuid) := do
  let ncr ← ncrOr404 db ncrId
  let decision := newDecision db ncr userId now .needsExtraCheck ncr.disposition
    .reinspectionRequired body.reason
  return (saveNcr (addDecision db decision)
    { ncr with verdict := .needsExtraCheck, containment := .reinspectionRequired }, decision.id)

def proposeContainment (db : Database) (ncrId : Uuid) (body : ContainmentProposalRequest)
    (userId : Uuid) : Except TraceQError (Database × Uuid) := do
  let ncr ← ncrOr404 db ncrId
  let proposal : ContainmentProposal :=
    { id := db.nextId
      nonconformanceId := some ncr.id
      proposedBy := userId
      containment := body.containment
      rationale := body.rationale }
  return ({ db with
    containmentProposals := db.containmentProposals ++ [proposal]
    nextId := db.nextId + 1 }, proposal.id)

/-- `_ncr_or_404` on the nullable reference of a proposal. -/
def proposalNcr (db : Database) (proposal : ContainmentProposal) :
    Except TraceQError Nonconformance :=
  match proposal.nonconformanceId with
  | some ncrId => ncrOr404 db ncrId
  | none => .error (notFound "Nonconformance")

def proposalOr404 (db : Database) (proposalId : Uuid) : Except TraceQError ContainmentProposal :=
  match db.containmentProposals.find? fun row => decide (row.id = proposalId) with
  | some proposal => .ok proposal
  | none => .error (notFound "Containment proposal")

def ensurePending (proposal : ContainmentProposal) : Except TraceQError Unit :=
  if proposal.status ≠ .pending then
    .error ⟨"PROPOSAL_ALREADY_REVIEWED", "Containment proposal was already reviewed", 409⟩
  else .ok ()

def reviewContainment (db : Database) (proposalId : Uuid) (body : ContainmentReviewRequest)
    (userId : Uuid) (now : Instant) : Except TraceQError Database := do
  let proposal ← proposalOr404 db proposalId
  ensurePending proposal
  let ncr ← proposalNcr db proposal
  let reviewed : Database :=
    { db with
      containmentProposals := modifyWhere (fun row => decide (row.id = proposalId))
        (fun row =>
          { row with
            status := if body.approve then .approved else .rejected
            reviewedBy := some userId
            reviewReason := some body.reason
            reviewedAt := some now }) db.containmentProposals }
  return if body.approve then saveNcr reviewed { ncr with containment := proposal.containment }
    else reviewed

end TraceQ.Api
