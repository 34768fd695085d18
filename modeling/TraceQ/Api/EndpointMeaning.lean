import TraceQ.Projections.RebuildMeaning
import TraceQ.Api.Nonconformances

/-! # What the NCR endpoints do

Inversion of each endpoint: the nonconformance it found and the database it commits.
-/
namespace TraceQ.Api
open Projections Quality Tables Results
set_option autoImplicit false
set_option maxHeartbeats 250000

/-! ## The release of a result -/

/-- The quality result and its outbox message. -/
def exportResult (db : Database) (ncr : Nonconformance) (decision : ControllerDecision)
    (now : Instant) : Database :=
  { db with
    qualityResults := db.qualityResults ++
      [⟨⟨decision.id⟩, decision.id, ncr.itemId, resultPayload ncr decision now⟩]
    outboxMessages := db.outboxMessages ++
      [⟨⟨decision.id⟩, "erp-emulator", "quality.result", resultPayload ncr decision now⟩] }

/-- Export the result, release the item and close the case. -/
def release (db : Database) (ncr : Nonconformance) (decision : ControllerDecision) (now : Instant) :
    Database :=
  closeOccurrence
    (saveNcr (setItemStatus (exportResult db ncr decision now) ncr.itemId decision.disposition)
      { ncr with closedAt := some now }) ncr.occurrenceId now

theorem createResult_ok {db db' : Database} {ncr : Nonconformance} {decision : ControllerDecision}
    {now : Instant} {messageId : MessageId}
    (h : createResult db ncr decision now = .ok (db', messageId))
    (hfresh : ∀ r ∈ db.qualityResults, r.decisionId ≠ decision.id) :
    authorize ncr decision = .ok () ∧ db' = release db ncr decision now ∧
      messageId = ⟨decision.id⟩ := by
  unfold createResult at h
  obtain ⟨_, hauth, h⟩ := bind_ok.mp h
  have hnone : (db.qualityResults.find? fun r => decide (r.decisionId = decision.id)) = none := by
    rw [List.find?_eq_none]
    intro r hr
    simpa using hfresh r hr
  rw [hnone] at h
  obtain ⟨hdb, hid⟩ := pair_ok.mp h
  exact ⟨hauth, hdb.symm, hid.symm⟩

theorem authorize_ok {ncr : Nonconformance} {decision : ControllerDecision} :
    authorize ncr decision = .ok () ↔ decision.nonconformanceId = ncr.id ∧
      (decision.verdict = .confirmed ∨ decision.verdict = .rejected) ∧
      exportable decision.disposition = true ∧
      (ncr.resolutionType = some .rework → ncr.verificationStatus = some .passed) := by
  unfold authorize
  by_cases hown : decision.nonconformanceId ≠ ncr.id ∨
      ¬ (decision.verdict = .confirmed ∨ decision.verdict = .rejected)
  · rw [if_pos hown]
    refine iff_of_false nofun fun h => ?_
    rcases hown with hid | hverdict
    · exact hid h.1
    · exact hverdict h.2.1
  · rw [if_neg hown]
    rw [not_or, not_not, not_not] at hown
    by_cases hexport : exportable decision.disposition = false
    · rw [if_pos hexport]
      exact iff_of_false nofun fun h => by simp [hexport] at h
    · rw [if_neg hexport]
      rw [Bool.not_eq_false] at hexport
      by_cases hgate : ncr.resolutionType = some .rework ∧ ncr.verificationStatus ≠ some .passed
      · rw [if_pos hgate]
        exact iff_of_false nofun fun h => hgate.2 (h.2.2.2 hgate.1)
      · rw [if_neg hgate]
        refine iff_of_true rfl ⟨hown.1, hown.2, hexport, fun hrework => ?_⟩
        by_contra hne
        exact hgate ⟨hrework, hne⟩

/-- An authorized decision is exported. -/
theorem createResult_total {ncr : Nonconformance} {decision : ControllerDecision}
    (h : authorize ncr decision = .ok ()) (db : Database) (now : Instant) :
    ∃ db' messageId, createResult db ncr decision now = .ok (db', messageId) := by
  unfold createResult
  rw [h]
  cases hfind : db.qualityResults.find? fun result => decide (result.decisionId = decision.id) with
  | none => exact ⟨_, _, rfl⟩
  | some existing => exact ⟨_, _, rfl⟩

/-! ## Inversion of the endpoints -/

theorem ncrOr404_ok {db : Database} {ncrId : Uuid} {ncr : Nonconformance}
    (h : ncrOr404 db ncrId = .ok ncr) : ncr ∈ db.nonconformances ∧ ncr.id = ncrId := by
  unfold ncrOr404 at h
  cases hfind : db.nonconformances.find? fun ncr => decide (ncr.id = ncrId) with
  | none => rw [hfind] at h; cases h
  | some found =>
    rw [hfind] at h
    obtain rfl := Except.ok.inj h
    exact ⟨List.mem_of_find?_eq_some hfind, by simpa using List.find?_some hfind⟩

theorem reviewNonconformance_ok {db db' : Database} {ncrId : Uuid} {body : ReviewRequest}
    (h : reviewNonconformance db ncrId body = .ok db') :
    ∃ ncr ∈ db.nonconformances, ncr.id = ncrId ∧
      db' = saveNcr db { ncr with verdict := body.verdict } := by
  unfold reviewNonconformance at h
  obtain ⟨ncr, hncr, h⟩ := bind_ok.mp h
  obtain ⟨_, -, h⟩ := bind_ok.mp h
  obtain ⟨hmem, hid⟩ := ncrOr404_ok hncr
  exact ⟨ncr, hmem, hid, (pure_ok.mp h).symm⟩

theorem requestInspection_ok {db db' : Database} {ncrId userId decisionId : Uuid}
    {body : InspectionRequest} {now : Instant}
    (h : requestInspection db ncrId body userId now = .ok (db', decisionId)) :
    ∃ ncr ∈ db.nonconformances, ncr.id = ncrId ∧
      db' = saveNcr (addDecision db (newDecision db ncr userId now .needsExtraCheck ncr.disposition
        .reinspectionRequired body.reason))
        { ncr with verdict := .needsExtraCheck, containment := .reinspectionRequired } := by
  unfold requestInspection at h
  obtain ⟨ncr, hncr, h⟩ := bind_ok.mp h
  obtain ⟨hmem, hid⟩ := ncrOr404_ok hncr
  exact ⟨ncr, hmem, hid, (pair_ok.mp h).1.symm⟩

/-- The decision of a `decide` request. -/
def requestedDecision (db : Database) (ncr : Nonconformance) (body : DecisionRequest)
    (userId : Uuid) (now : Instant) : ControllerDecision :=
  newDecision db ncr userId now body.verdict body.disposition body.containment body.reason

theorem decideNonconformance_ok {db db' : Database} {ncrId userId : Uuid} {body : DecisionRequest}
    {now : Instant} {response : DecisionResponse}
    (hfresh : ∀ r ∈ db.qualityResults, r.decisionId < db.nextId)
    (h : decideNonconformance db ncrId body userId now = .ok (db', response)) :
    ∃ ncr ∈ db.nonconformances, ncr.id = ncrId ∧
      response.decisionId = db.nextId ∧
      ((exportable body.disposition = false ∧
        db' = saveNcr (setItemStatus (addDecision db (requestedDecision db ncr body userId now))
          ncr.itemId body.disposition) (applyDecision body ncr)) ∨
      (exportable body.disposition = true ∧
        authorize (applyDecision body ncr) (requestedDecision db ncr body userId now) = .ok () ∧
        db' = release (setItemStatus (addDecision db (requestedDecision db ncr body userId now))
          ncr.itemId body.disposition) (applyDecision body ncr)
          (requestedDecision db ncr body userId now) now)) := by
  unfold decideNonconformance at h
  obtain ⟨ncr, hncr, h⟩ := bind_ok.mp h
  obtain ⟨_, -, h⟩ := bind_ok.mp h
  obtain ⟨hmem, hid⟩ := ncrOr404_ok hncr
  refine ⟨ncr, hmem, hid, ?_⟩
  dsimp only at h
  split at h
  · rename_i hexport
    obtain ⟨⟨exported, messageId⟩, hcreate, h⟩ := bind_ok.mp h
    obtain ⟨hauth, hdb, -⟩ := createResult_ok hcreate fun r hr => (hfresh r hr).ne
    obtain ⟨hdb', hresponse⟩ := pair_ok.mp h
    exact ⟨by rw [← hresponse]; rfl, .inr ⟨hexport, hauth, hdb'.symm.trans hdb⟩⟩
  · rename_i hexport
    obtain ⟨hdb', hresponse⟩ := pair_ok.mp h
    exact ⟨by rw [← hresponse]; rfl, .inl ⟨by simpa using hexport, hdb'.symm⟩⟩

/-- What a verification makes of its nonconformance. -/
def verifiedNcr (ncr : Nonconformance) (decisionId : Uuid) (now : Instant) : Nonconformance :=
  { ncr with
    verificationDecisionId := some decisionId
    verificationStatus := some .passed
    resolutionType := some .rework
    resolvedAt := some now
    disposition := .released
    containment := .none }

def failedNcr (ncr : Nonconformance) (decisionId : Uuid) : Nonconformance :=
  { ncr with
    verificationDecisionId := some decisionId
    verificationStatus := some .failed
    disposition := .reworkRequired
    containment := .hold }

/-- The decision of a verification that passed, and of one that failed. -/
def passedDecision (db : Database) (ncr : Nonconformance) (body : ReworkVerificationRequest)
    (userId : Uuid) (now : Instant) : ControllerDecision :=
  newDecision db ncr userId now .confirmed .released .none body.reason

def failedDecision (db : Database) (ncr : Nonconformance) (body : ReworkVerificationRequest)
    (userId : Uuid) (now : Instant) : ControllerDecision :=
  newDecision db ncr userId now .confirmed .reworkRequired .hold body.reason

theorem verifyRework_ok {db db' : Database} {ncrId userId : Uuid}
    {body : ReworkVerificationRequest} {now : Instant} {response : VerificationResponse}
    (hfresh : ∀ r ∈ db.qualityResults, r.decisionId < db.nextId)
    (h : verifyRework db ncrId body userId now = .ok (db', response)) :
    ∃ ncr finishedAt, ncrOr404 db ncrId = .ok ncr ∧ reworkFinish db ncr = .ok finishedAt ∧
      (((body.passed && (trustedGood db ncr.itemId finishedAt).isSome) = true ∧
        response.verificationStatus = .passed ∧
        authorize (verifiedNcr ncr db.nextId now) (passedDecision db ncr body userId now) = .ok () ∧
        db' = release (addDecision db (passedDecision db ncr body userId now))
          (verifiedNcr ncr db.nextId now) (passedDecision db ncr body userId now) now) ∨
      ((body.passed && (trustedGood db ncr.itemId finishedAt).isSome) = false ∧
        response.verificationStatus = .failed ∧
        db' = saveNcr (addDecision db (failedDecision db ncr body userId now))
          (failedNcr ncr db.nextId))) := by
  unfold verifyRework at h
  obtain ⟨ncr, hncr, h⟩ := bind_ok.mp h
  obtain ⟨_, -, h⟩ := bind_ok.mp h
  obtain ⟨finishedAt, hfinish, h⟩ := bind_ok.mp h
  refine ⟨ncr, finishedAt, hncr, hfinish, ?_⟩
  cases hpass : body.passed && (trustedGood db ncr.itemId finishedAt).isSome with
  | true =>
    simp only [hpass, if_true] at h
    obtain ⟨⟨exported, messageId⟩, hcreate, h⟩ := bind_ok.mp h
    obtain ⟨hauth, hdb, -⟩ := createResult_ok hcreate fun r hr => (hfresh r hr).ne
    obtain ⟨hdb', hresponse⟩ := pair_ok.mp h
    exact .inl ⟨rfl, by rw [← hresponse], hauth, hdb'.symm.trans hdb⟩
  | false =>
    simp only [hpass, Bool.false_eq_true, if_false] at h
    obtain ⟨hdb', hresponse⟩ := pair_ok.mp h
    exact .inr ⟨rfl, by rw [← hresponse], hdb'.symm⟩

/-- The gate never refuses a verification. -/
theorem verification_authorized (db : Database) (ncr : Nonconformance)
    (body : ReworkVerificationRequest) (userId : Uuid) (now : Instant) :
    authorize (verifiedNcr ncr db.nextId now) (passedDecision db ncr body userId now) = .ok () :=
  authorize_ok.mpr ⟨rfl, .inl rfl, rfl, fun _ => rfl⟩

/-- A verification ends PASSED exactly when it asks for that and finds some trusted GOOD after the
finish of the rework. -/
theorem verifyRework_passes_iff {db : Database} {ncrId : Uuid} {ncr : Nonconformance}
    (hncr : ncrOr404 db ncrId = .ok ncr) (body : ReworkVerificationRequest) (userId : Uuid)
    (now : Instant) :
    (∃ db' answer, verifyRework db ncrId body userId now = .ok (db', answer) ∧
      answer.verificationStatus = .passed) ↔
    ensureEvidenceIntegrity db ncr.itemId = .ok () ∧ ∃ finishedAt,
      reworkFinish db ncr = .ok finishedAt ∧
        (body.passed && (trustedGood db ncr.itemId finishedAt).isSome) = true := by
  unfold verifyRework
  constructor
  · rintro ⟨db', answer, h, hstatus⟩
    obtain ⟨ncr', hncr', h⟩ := bind_ok.mp h
    obtain rfl := Except.ok.inj (hncr.symm.trans hncr')
    obtain ⟨_, hevidence, h⟩ := bind_ok.mp h
    obtain ⟨finishedAt, hfinish, h⟩ := bind_ok.mp h
    refine ⟨hevidence, finishedAt, hfinish, ?_⟩
    cases hpass : body.passed && (trustedGood db ncr.itemId finishedAt).isSome with
    | true => rfl
    | false =>
      simp only [hpass, Bool.false_eq_true, if_false] at h
      rw [← (pair_ok.mp h).2] at hstatus
      cases hstatus
  · rintro ⟨hevidence, finishedAt, hfinish, hpass⟩
    obtain ⟨exported, messageId, hcreate⟩ := createResult_total
      (verification_authorized db ncr body userId now)
      (addDecision db (passedDecision db ncr body userId now)) now
    refine ⟨exported, ⟨.passed, db.nextId, some messageId⟩, ?_, rfl⟩
    refine bind_ok.mpr ⟨ncr, hncr, bind_ok.mpr ⟨(), hevidence, bind_ok.mpr ⟨finishedAt, hfinish, ?_⟩⟩⟩
    simp only [hpass, if_true]
    exact bind_ok.mpr ⟨_, hcreate, rfl⟩

theorem reviewContainment_ok {db db' : Database} {proposalId userId : Uuid}
    {body : ContainmentReviewRequest} {now : Instant}
    (h : reviewContainment db proposalId body userId now = .ok db') :
    ∃ proposals, db' = { db with containmentProposals := proposals } ∨
      ∃ ncr ∈ db.nonconformances, ∃ containment,
        db' = saveNcr { db with containmentProposals := proposals }
          { ncr with containment := containment } := by
  unfold reviewContainment at h
  obtain ⟨proposal, -, h⟩ := bind_ok.mp h
  obtain ⟨_, -, h⟩ := bind_ok.mp h
  obtain ⟨ncr, hncr, h⟩ := bind_ok.mp h
  have hmem : ncr ∈ db.nonconformances := by
    unfold proposalNcr at hncr
    split at hncr
    · exact (ncrOr404_ok hncr).1
    · cases hncr
  have hdb := pure_ok.mp h
  split at hdb
  · exact ⟨_, .inr ⟨ncr, hmem, _, hdb.symm⟩⟩
  · exact ⟨_, .inl hdb.symm⟩

theorem proposeContainment_ok {db db' : Database} {ncrId userId proposalId : Uuid}
    {body : ContainmentProposalRequest}
    (h : proposeContainment db ncrId body userId = .ok (db', proposalId)) :
    ∃ proposals, db' =
      { db with containmentProposals := proposals, nextId := db.nextId + 1 } := by
  unfold proposeContainment at h
  obtain ⟨ncr, -, h⟩ := bind_ok.mp h
  exact ⟨_, (pair_ok.mp h).1.symm⟩

end TraceQ.Api
