import TraceQ.Api.Nonconformances
import TraceQ.Library.Machine

/-! # Blast radius and approvals

`blast_radius` and `approve` of `backend/app/api/risk.py`, beside the two endpoints of
`backend/app/api/nonconformances.py` that write containment proposals. The permission checks come
before these functions; the audit trail is left out.
-/
namespace TraceQ.Api
open Projections Quality Tables
set_option autoImplicit false
set_option maxHeartbeats 250000

/-! ## Tables -/

inductive FactorType where
  | equipment | tool | materialLot | controlDevice | component | timeInterval
deriving DecidableEq, Repr

structure BlastRadiusQuery where
  id : Uuid
  factorType : FactorType
  factorValue : String
  affectedFrom : Instant
  affectedTo : Instant
  requestedBy : Uuid
deriving DecidableEq

structure BlastRadiusExposure where
  queryId : Uuid
  itemId : String
  relationshipPath : List String
  exposureEventId : Option String
  operationRunId : Option String
  lastInspectionEventId : Option String
  proposedAction : Containment
deriving DecidableEq

inductive ApprovalStatus where
  | pending | approved
deriving DecidableEq, Repr

inductive ActionType where
  | massContainment | containment
deriving DecidableEq, Repr

/-- An entry of `ApprovalRequest.approvals`. -/
structure ApprovalEntry where
  userId : Uuid
  reason : String
  at_ : Instant
deriving DecidableEq

/-- `target_id` is the text of the proposal's identifier. -/
structure ApprovalRequest where
  id : Uuid
  actionType : ActionType
  targetId : Uuid
  requesterId : Uuid
  requiredApprovals : ℕ := 1
  approvals : List ApprovalEntry := []
  status : ApprovalStatus := .pending
  reason : String
  completedAt : Option Instant := none
deriving DecidableEq

/-- The database with the tables of the blast radius. The column `blast_radius_query_id` of a proposal
stands beside the proposals. -/
structure RiskTables where
  db : Database
  queries : List BlastRadiusQuery := []
  exposures : List BlastRadiusExposure := []
  blastRadiusQueryId : Uuid → Option Uuid := fun _ => none
  approvalRequests : List ApprovalRequest := []

/-! ## Requests -/

structure BlastRadiusRequest where
  factorType : FactorType
  factorValue : String
  affectedFrom : Instant
  affectedTo : Instant
  proposedAction : Containment := .reviewRequired
  rationale : String
  allowed : proposedAction ≠ .none := by decide
  /-- `affected_to` must not be before `affected_from`. -/
  period : affectedFrom ≤ affectedTo := by decide

structure ApprovalInput where
  reason : String

/-! ## Blast radius -/

/-- What a dict holds of a candidate: the event, the run and the path. -/
structure Candidate where
  itemId : String
  eventId : Option String
  runId : Option String
  path : List String
deriving DecidableEq

def FactorType.name : FactorType → String
  | .equipment => "equipment"
  | .tool => "tool"
  | .materialLot => "material_lot"
  | .controlDevice => "control_device"
  | .component => "component"
  | .timeInterval => "time_interval"

/-- The key of the parameters that names the factor. -/
def FactorType.key : FactorType → Option String
  | .tool => some "tool_id"
  | .materialLot => some "material_lot_id"
  | .component => some "component_instance_id"
  | _ => none

/-- `_matches`. -/
def runMatches (run : OperationRun) (body : BlastRadiusRequest) : Bool :=
  match body.factorType with
  | .timeInterval => true
  | .equipment => decide (run.equipmentId = some body.factorValue)
  | factor => factor.key.any fun key =>
      ((run.parameters.getD []).lookup key).any fun value => value.beq (.str body.factorValue)

/-- `candidates[item_id] = …`. -/
def setCandidate (rows : List Candidate) (candidate : Candidate) : List Candidate :=
  upsert (·.itemId) candidate.itemId candidate (fun _ => candidate) rows

def candidates (db : Database) (body : BlastRadiusRequest) : List Candidate :=
  if body.factorType = .controlDevice then
    ((db.observations.filter fun obs => decide (obs.controlDeviceId = some body.factorValue ∧
        body.affectedFrom ≤ obs.occurredAt ∧ obs.occurredAt ≤ body.affectedTo)).map fun obs =>
      ⟨obs.itemId, some obs.eventId, obs.operationRunId, ["control_device", body.factorValue]⟩).foldl
      setCandidate []
  else
    ((db.operationRuns.filter fun run => (run.startedAt.any fun time => decide (time ≤ body.affectedTo)) &&
        (run.finishedAt.all fun time => decide (time ≥ body.affectedFrom)) &&
        runMatches run body).map fun run =>
      ⟨run.itemId, none, some run.operationRunId, [body.factorType.name, body.factorValue]⟩).foldl
      setCandidate []

/-- The latest observation of an item. -/
def lastObservation (db : Database) (itemId : String) : Option Observation :=
  ((db.observations.filter fun obs => decide (obs.itemId = itemId)).insertionSort
    fun a b => a.occurredAt ≥ b.occurredAt).head?

def exposureOf (db : Database) (body : BlastRadiusRequest) (queryId : Uuid) (candidate : Candidate) :
    BlastRadiusExposure where
  queryId := queryId
  itemId := candidate.itemId
  relationshipPath := candidate.path
  exposureEventId := candidate.eventId
  operationRunId := candidate.runId
  lastInspectionEventId := (lastObservation db candidate.itemId).map (·.eventId)
  proposedAction := body.proposedAction

/-- The items that the query lists. -/
def affectedRows (db : Database) (body : BlastRadiusRequest) (queryId : Uuid) :
    List BlastRadiusExposure :=
  ((candidates db body).insertionSort fun a b => a.itemId ≤ b.itemId).map
    (exposureOf db body queryId)

def approvalsRequired (threshold affected : ℕ) : ℕ := if affected ≥ threshold then 2 else 1

/-- `threshold` is `settings.mass_containment_threshold`. The query, the proposal and the approval
request draw their identifiers in this order. -/
def blastRadius (threshold : ℕ) (t : RiskTables) (body : BlastRadiusRequest) (userId : Uuid) :
    RiskTables :=
  let query : BlastRadiusQuery :=
    { id := t.db.nextId
      factorType := body.factorType
      factorValue := body.factorValue
      affectedFrom := body.affectedFrom
      affectedTo := body.affectedTo
      requestedBy := userId }
  let result := affectedRows t.db body query.id
  let proposal : ContainmentProposal :=
    { id := t.db.nextId + 1
      nonconformanceId := none
      proposedBy := userId
      containment := body.proposedAction
      rationale := body.rationale }
  let required := approvalsRequired threshold result.length
  let approval : ApprovalRequest :=
    { id := t.db.nextId + 2
      actionType := if required = 2 then .massContainment else .containment
      targetId := proposal.id
      requesterId := userId
      requiredApprovals := required
      reason := body.rationale }
  { t with
    db := { t.db with
      containmentProposals := t.db.containmentProposals ++ [proposal]
      nextId := t.db.nextId + 3 }
    queries := t.queries ++ [query]
    exposures := t.exposures ++ result
    blastRadiusQueryId := Function.update t.blastRadiusQueryId proposal.id (some query.id)
    approvalRequests := t.approvalRequests ++ [approval] }

/-! ## Approvals -/

def findApproval (t : RiskTables) (approvalId : Uuid) : Except TraceQError ApprovalRequest :=
  match t.approvalRequests.find? fun row => decide (row.id = approvalId) with
  | some approval => .ok approval
  | none => .error (notFound "Approval request")

/-- The three refusals of `approve`, in their order. -/
def ensureApprovable (approval : ApprovalRequest) (userId : Uuid) : Except TraceQError Unit :=
  if approval.status ≠ .pending then
    .error ⟨"APPROVAL_ALREADY_COMPLETE", "Approval request is not pending", 409⟩
  else if approval.requesterId = userId then
    .error ⟨"SEPARATION_OF_DUTIES", "Requester cannot approve this action", 403⟩
  else if approval.approvals.any fun entry => decide (entry.userId = userId) then
    .error ⟨"DUPLICATE_APPROVAL", "This user already approved", 409⟩
  else .ok ()

/-- The request with one more approval. -/
def ApprovalRequest.add (approval : ApprovalRequest) (entry : ApprovalEntry) : ApprovalRequest :=
  if approval.approvals.length + 1 ≥ approval.requiredApprovals then
    { approval with
      approvals := approval.approvals ++ [entry], status := .approved, completedAt := some entry.at_ }
  else { approval with approvals := approval.approvals ++ [entry] }

/-- The proposal is approved. -/
def approveProposal (entry : ApprovalEntry) (proposal : ContainmentProposal) : ContainmentProposal :=
  { proposal with
    status := .approved
    reviewedBy := some entry.userId
    reviewReason := some entry.reason
    reviewedAt := some entry.at_ }

def approve (t : RiskTables) (approvalId : Uuid) (body : ApprovalInput) (userId : Uuid)
    (now : Instant) : Except TraceQError RiskTables := do
  let approval ← findApproval t approvalId
  ensureApprovable approval userId
  let entry : ApprovalEntry := ⟨userId, body.reason, now⟩
  let changed := approval.add entry
  let saved := { t with
    approvalRequests := modifyWhere (fun row => decide (row.id = approvalId)) (fun _ => changed)
      t.approvalRequests }
  return if changed.status = .approved then
      { saved with db := { t.db with
          containmentProposals := modifyWhere (fun row => decide (row.id = approval.targetId))
            (approveProposal entry) t.db.containmentProposals } }
    else saved

/-! ## Calls -/

inductive RiskCall where
  | blastRadius (body : BlastRadiusRequest) (userId : Uuid)
  | approve (approvalId : Uuid) (body : ApprovalInput) (userId : Uuid) (now : Instant)
  | proposeContainment (ncrId : Uuid) (body : ContainmentProposalRequest) (userId : Uuid)
  | reviewContainment (proposalId : Uuid) (body : ContainmentReviewRequest) (userId : Uuid)
      (now : Instant)

inductive RiskResponse where
  | done
  | refused (error : TraceQError)
deriving DecidableEq

/-- A call that raises commits nothing. -/
def commitRisk (t : RiskTables) : Except TraceQError RiskTables → RiskTables × RiskResponse
  | .ok t' => (t', .done)
  | .error error => (t, .refused error)

def execRisk (threshold : ℕ) (t : RiskTables) : RiskCall → RiskTables × RiskResponse
  | .blastRadius body userId => (blastRadius threshold t body userId, .done)
  | .approve approvalId body userId now => commitRisk t (approve t approvalId body userId now)
  | .proposeContainment ncrId body userId =>
      commitRisk t ((proposeContainment t.db ncrId body userId).map fun r => { t with db := r.1 })
  | .reviewContainment proposalId body userId now =>
      commitRisk t ((reviewContainment t.db proposalId body userId now).map fun db => { t with db := db })

end TraceQ.Api
