import TraceQ.Api.Events
import TraceQ.Api.Nonconformances
import TraceQ.Library.Machine

/-! # The backend as a machine

Every transaction that writes the tables of the model, as one call on the database. A call that
raises is rolled back; a rebuild that raises is rolled back and then recorded as failed.
-/
namespace TraceQ.Backend
open Projections Ingestion Api Quality Tables
set_option autoImplicit false
set_option maxHeartbeats 250000

inductive Call where
  /-- The transaction of `ingest_event`. -/
  | ingest (event : EventEnvelope) (receivedAt : Instant)
  /-- One `rebuild_item`: of a delivered event, of an administrator or of the startup recovery. -/
  | rebuild (itemId : String)
  | invalidateDevice (body : InvalidationInput) (userId : Uuid)
  | review (ncrId : Uuid) (body : ReviewRequest)
  | decide (ncrId : Uuid) (body : DecisionRequest) (userId : Uuid) (now : Instant)
  | verifyRework (ncrId : Uuid) (body : ReworkVerificationRequest) (userId : Uuid) (now : Instant)
  | requestInspection (ncrId : Uuid) (body : InspectionRequest) (userId : Uuid) (now : Instant)
  | proposeContainment (ncrId : Uuid) (body : ContainmentProposalRequest) (userId : Uuid)
  | reviewContainment (proposalId : Uuid) (body : ContainmentReviewRequest) (userId : Uuid)
      (now : Instant)
  /-- Seeding and the route, policy and structure endpoints. -/
  | configure (config : Configuration)
  /-- `verify_integrity`, with the streams it found broken. -/
  | verifyIntegrity (failed : List String)

inductive Response where
  | done
  | rolledBack
  | decided (response : DecisionResponse)
  | verified (response : VerificationResponse)
deriving DecidableEq

/-- Commit what the endpoint returns, or keep the database it was called on. -/
def commit {ε α : Type} (db : Database) (answer : α → Response) :
    Except ε (Database × α) → Database × Response
  | .ok (committed, value) => (committed, answer value)
  | .error _ => (db, .rolledBack)

def withUnit {ε : Type} (result : Except ε Database) : Except ε (Database × Unit) :=
  result.map fun db => (db, ())

/-- The verdict of `verify_integrity` on every stream. -/
def setStreamStatus (failed : List String) (db : Database) : Database :=
  { db with
    integrityStreamStates := db.integrityStreamStates.map fun stream =>
      { stream with
        status := if failed.contains stream.streamId then .integrityFailed else .ok } }

def exec (db : Database) : Call → Database × Response
  | .ingest event receivedAt => commit db (fun _ => .done) (ingestEvent db event receivedAt)
  | .rebuild itemId => (rebuildOrMark db itemId, .done)
  | .invalidateDevice body userId => ((invalidateDevice db body userId).1, .done)
  | .review ncrId body => commit db (fun _ => .done) (withUnit (reviewNonconformance db ncrId body))
  | .decide ncrId body userId now =>
      commit db .decided (decideNonconformance db ncrId body userId now)
  | .verifyRework ncrId body userId now =>
      commit db .verified (verifyRework db ncrId body userId now)
  | .requestInspection ncrId body userId now =>
      commit db (fun _ => .done) (requestInspection db ncrId body userId now)
  | .proposeContainment ncrId body userId =>
      commit db (fun _ => .done) (proposeContainment db ncrId body userId)
  | .reviewContainment proposalId body userId now =>
      commit db (fun _ => .done) (withUnit (reviewContainment db proposalId body userId now))
  | .configure config => ({ db with config := config }, .done)
  | .verifyIntegrity failed => (setStreamStatus failed db, .done)

/-- Empty tables, under any configuration and any order of the INSERTs. -/
def Initial (db : Database) : Prop :=
  ∃ (config : Configuration) (order : InsertOrder), db = { config := config, insertOrder := order }

/-- The states of the database some sequence of calls leads to. -/
def Reachable (db : Database) : Prop := Machine.Reachable exec Initial db

def run (db : Database) (calls : List Call) : Database := Machine.run exec db calls

theorem reachable_run {db : Database} (h : Reachable db) (calls : List Call) :
    Reachable (run db calls) := Machine.reachable_run h calls

theorem reachable_exec {db : Database} (h : Reachable db) (call : Call) :
    Reachable (exec db call).1 := Machine.reachable_step h call

/-! ## Endpoints as runs -/

/-- A successful rebuild is a call. -/
theorem exec_rebuild {db db' : Database} {itemId : String} (h : rebuildItem db itemId = .ok db') :
    (exec db (.rebuild itemId)).1 = db' := by
  simp only [exec, rebuildOrMark, h]

theorem reachable_rebuild {db db' : Database} {itemId : String} (hdb : Reachable db)
    (h : rebuildItem db itemId = .ok db') : Reachable db' :=
  exec_rebuild h ▸ reachable_exec hdb (.rebuild itemId)

theorem rebuildStep_fst (state : Database × List String) (itemId : String) :
    (rebuildStep state itemId).1 = rebuildOrMark state.1 itemId := by
  unfold rebuildStep rebuildOrMark
  cases rebuildItem state.1 itemId with
  | ok rebuilt => rfl
  | error error => rfl

theorem foldl_rebuildStep_fst (state : Database × List String) (targets : List String) :
    (targets.foldl rebuildStep state).1 = run state.1 (targets.map .rebuild) := by
  induction targets generalizing state with
  | nil => rfl
  | cons target rest ih =>
    rw [List.foldl_cons, ih, rebuildStep_fst]
    rfl

/-- A delivery is the transaction of the ingestion followed by one rebuild per target. -/
theorem receiveEvent_eq_run {db : Database} {event : EventEnvelope} {receivedAt : Instant}
    {result : ReceiveResult} (h : receiveEvent db event receivedAt = .ok result) :
    result.db = run db (.ingest event receivedAt ::
      (rebuildTargets event result.ingestion).map .rebuild) := by
  unfold receiveEvent at h
  cases hingest : ingestEvent db event receivedAt with
  | error e => rw [hingest] at h; cases h
  | ok ingested =>
    rw [hingest] at h
    cases h
    have hexec : (exec db (.ingest event receivedAt)).1 = ingested.1 := by
      simp only [exec, hingest, commit]
    rw [run, Machine.run_cons, hexec]
    exact foldl_rebuildStep_fst (ingested.1, []) _

/-- The startup recovery is one rebuild per stale item. -/
theorem recoverStaleProjections_eq_run (db : Database) :
    recoverStaleProjections db = run db ((staleItems db).map .rebuild) := by
  rw [recoverStaleProjections, run, Machine.run, List.foldl_map]
  rfl

end TraceQ.Backend
