import TraceQ.Backend.Frames

/-! # The decisions calls commit

A call commits at most one decision. It is about a stored nonconformance, copies its current version and
names its latest decision; only a request for an inspection is not preceded by the check of the evidence.
-/
namespace TraceQ.Backend
open Projections Ingestion Api Quality Tables Results
set_option autoImplicit false
set_option maxHeartbeats 250000

/-- The call is a request for another inspection. -/
def isRequest : Call → Bool
  | .requestInspection .. => true
  | _ => false

/-- A call commits `decision` about `ncr`. -/
structure Decides (db : Database) (call : Call) (ncr : Nonconformance) (decision : ControllerDecision)
    (db' : Database) : Prop where
  found : ncr ∈ db.nonconformances
  about : decision.nonconformanceId = ncr.id
  version : decision.analysisVersion = ncr.currentAnalysisVersion
  previous : decision.previousDecisionId = (latestDecision db ncr.id).map (·.id)
  decisions : db'.controllerDecisions = db.controllerDecisions ++ [decision]
  checked : isRequest call = false → ensureEvidenceIntegrity db ncr.itemId = .ok ()

/-! ## The check of the evidence -/

theorem decideNonconformance_checked {db : Database} {ncrId userId : Uuid} {body : DecisionRequest}
    {now : Instant} {ncr : Nonconformance} {result : Database × DecisionResponse}
    (h : decideNonconformance db ncrId body userId now = .ok result) (hncr : ncrOr404 db ncrId = .ok ncr) :
    ensureEvidenceIntegrity db ncr.itemId = .ok () := by
  unfold decideNonconformance at h
  obtain ⟨found, hfound, h⟩ := bind_ok.mp h
  obtain ⟨_, hchecked, -⟩ := bind_ok.mp h
  obtain rfl := Except.ok.inj (hncr.symm.trans hfound)
  exact hchecked

theorem verifyRework_checked {db : Database} {ncrId userId : Uuid} {body : ReworkVerificationRequest}
    {now : Instant} {ncr : Nonconformance} {result : Database × VerificationResponse}
    (h : verifyRework db ncrId body userId now = .ok result) (hncr : ncrOr404 db ncrId = .ok ncr) :
    ensureEvidenceIntegrity db ncr.itemId = .ok () := by
  unfold verifyRework at h
  obtain ⟨found, hfound, h⟩ := bind_ok.mp h
  obtain ⟨_, hchecked, -⟩ := bind_ok.mp h
  obtain rfl := Except.ok.inj (hncr.symm.trans hfound)
  exact hchecked

/-- Ids are unique, so a stored row is the one that is found. -/
theorem ncrOr404_of_mem {db : Database} (hwf : WellFormed db) {ncr : Nonconformance}
    (hncr : ncr ∈ db.nonconformances) : ncrOr404 db ncr.id = .ok ncr := by
  have hfind : (db.nonconformances.find? fun row => decide (row.id = ncr.id)) = some ncr :=
    (find?_key_eq_some_iff hwf.ncr_ids).mpr ⟨hncr, rfl⟩
  rw [ncrOr404, hfind]

/-! ## Every call -/

theorem exec_decides {db : Database} (hs : Sound db) (call : Call) :
    (exec db call).1.controllerDecisions = db.controllerDecisions ∨
      ∃ ncr decision, Decides db call ncr decision (exec db call).1 := by
  cases call with
  | ingest event receivedAt =>
    left
    simp only [exec]
    cases h : ingestEvent db event receivedAt with
    | error e => rfl
    | ok result =>
      have hquiet : Quiet db result.1 := ingest_quiet h
      exact hquiet.decisions
  | rebuild itemId =>
    left
    simp only [exec, rebuildOrMark]
    cases h : rebuildItem db itemId with
    | error e => rfl
    | ok rebuilt => exact (rebuildItem_decided hs.toWellFormed h).decisions
  | invalidateDevice body userId =>
    exact .inl ((invalidateDevice_rebuilds db body userId).frame hs.toWellFormed).2.1.decisions
  | review ncrId body =>
    left
    simp only [exec, withUnit]
    cases h : reviewNonconformance db ncrId body with
    | error e => rfl
    | ok committed =>
      obtain ⟨ncr, -, -, rfl⟩ := reviewNonconformance_ok h
      rfl
  | decide ncrId body userId now =>
    simp only [exec]
    cases h : decideNonconformance db ncrId body userId now with
    | error e => exact .inl rfl
    | ok result =>
      obtain ⟨ncr, hmem, rfl, -, hdb⟩ := decideNonconformance_ok hs.results_fresh h
      refine .inr ⟨ncr, requestedDecision db ncr body userId now, ?_⟩
      refine ⟨hmem, rfl, rfl, rfl, ?_, fun _ =>
        decideNonconformance_checked h (ncrOr404_of_mem hs.toWellFormed hmem)⟩
      rcases hdb with ⟨-, hdb⟩ | ⟨-, -, hdb⟩
      · exact congrArg Database.controllerDecisions hdb
      · exact congrArg Database.controllerDecisions hdb
  | verifyRework ncrId body userId now =>
    simp only [exec]
    cases h : verifyRework db ncrId body userId now with
    | error e => exact .inl rfl
    | ok result =>
      obtain ⟨ncr, _, hncr, -, hdb⟩ := verifyRework_ok hs.results_fresh h
      have hchecked := verifyRework_checked h hncr
      obtain ⟨hmem, rfl⟩ := ncrOr404_ok hncr
      rcases hdb with ⟨-, -, -, hdb⟩ | ⟨-, -, hdb⟩
      · exact .inr ⟨ncr, passedDecision db ncr body userId now, hmem, rfl, rfl, rfl,
          congrArg Database.controllerDecisions hdb, fun _ => hchecked⟩
      · exact .inr ⟨ncr, failedDecision db ncr body userId now, hmem, rfl, rfl, rfl,
          congrArg Database.controllerDecisions hdb, fun _ => hchecked⟩
  | requestInspection ncrId body userId now =>
    simp only [exec]
    cases h : requestInspection db ncrId body userId now with
    | error e => exact .inl rfl
    | ok result =>
      obtain ⟨ncr, hmem, rfl, hdb⟩ := requestInspection_ok h
      exact .inr ⟨ncr, _, hmem, rfl, rfl, rfl, congrArg Database.controllerDecisions hdb,
        fun hverify => by cases hverify⟩
  | proposeContainment ncrId body userId =>
    left
    simp only [exec]
    cases h : proposeContainment db ncrId body userId with
    | error e => rfl
    | ok result =>
      obtain ⟨committed, answer⟩ := result
      obtain ⟨proposals, rfl⟩ := proposeContainment_ok h
      rfl
  | reviewContainment proposalId body userId now =>
    left
    simp only [exec, withUnit]
    cases h : reviewContainment db proposalId body userId now with
    | error e => rfl
    | ok committed =>
      obtain ⟨proposals, rfl | ⟨ncr, -, containment, rfl⟩⟩ := reviewContainment_ok h <;> rfl
  | configure config => exact .inl rfl
  | verifyIntegrity failed => exact .inl rfl

end TraceQ.Backend
