import TraceQ.Properties.ReleaseGate

/-! # One decision, four records

A decision is kept in its own row, in the nonconformance, in the status of the item and in the
exported result. The endpoints of decisions and of extra inspections write all of them alike. A
verification writes the verdict only into its decision and, when it fails, leaves the item alone.
-/
namespace TraceQ.Properties
open Projections Ingestion Api Quality Tables Results Backend
set_option autoImplicit false
set_option maxHeartbeats 250000

/-! ## Agreement of the records -/

abbrev Ruling := Verdict × Disposition × Containment

def decisionRuling (decision : ControllerDecision) : Ruling :=
  (decision.verdict, decision.disposition, decision.containment)

def ncrRuling (ncr : Nonconformance) : Ruling := (ncr.verdict, ncr.disposition, ncr.containment)

def payloadRuling (payload : QualityPayload) : Ruling :=
  (payload.verdict, payload.disposition, payload.containment)

/-- The calls that create a decision for the nonconformance. -/
def decidesOn (ncrId : Uuid) : Call → Prop
  | .decide id _ _ _ => id = ncrId
  | .verifyRework id _ _ _ => id = ncrId
  | .requestInspection id _ _ _ => id = ncrId
  | _ => False

/-- Decisions and verifications, but not requests for an inspection, are about the item too. -/
def rulesItem : Call → Bool
  | .requestInspection _ _ _ _ => false
  | _ => true

/-- All records show the decision. -/
structure Recorded (db' : Database) (ncr : Nonconformance) (call : Call)
    (decision : ControllerDecision) : Prop where
  stored : ∀ row ∈ db'.nonconformances, row.id = ncr.id → ncrRuling row = decisionRuling decision
  item : rulesItem call = true → ∀ item ∈ db'.items, item.itemId = ncr.itemId →
    item.status = decision.disposition
  exported : ∀ result ∈ db'.qualityResults, result.decisionId = decision.id →
    ∀ row ∈ db'.nonconformances, row.id = ncr.id → payloadRuling result.payload = ncrRuling row

theorem saved_row {rows : List Nonconformance} {ncr saved row : Nonconformance}
    (hrow : row ∈ modifyWhere (fun r => decide (r.id = ncr.id)) (fun _ => saved) rows)
    (hid : row.id = ncr.id) : row = saved := by
  obtain ⟨old, -, rfl⟩ := mem_modifyWhere.mp hrow
  by_cases h : old.id = ncr.id
  · simp [h]
  · simp [h] at hid

/-- The nonconformance is saved as this row. -/
structure Saved (db db' : Database) (ncr saved : Nonconformance) : Prop where
  id : saved.id = ncr.id
  rows : db'.nonconformances =
    modifyWhere (fun r => decide (r.id = ncr.id)) (fun _ => saved) db.nonconformances

section Saved
variable {db db' : Database} {ncr saved : Nonconformance} {call : Call}
  {decision : ControllerDecision}

/-- Once the nonconformance is saved and the result, if any, shows the decision, what is left is
the saved row and the item. -/
theorem recorded_iff (hncr : ncr ∈ db.nonconformances) (hsaved : Saved db db' ncr saved)
    (hresults : ∀ result ∈ db'.qualityResults, result.decisionId = decision.id →
      payloadRuling result.payload = decisionRuling decision) :
    Recorded db' ncr call decision ↔ ncrRuling saved = decisionRuling decision ∧
      (rulesItem call = true → ∀ item ∈ db'.items, item.itemId = ncr.itemId →
        item.status = decision.disposition) := by
  constructor
  · intro h
    refine ⟨h.stored saved ?_ hsaved.id, h.item⟩
    rw [hsaved.rows]
    exact mem_modifyWhere.mpr ⟨ncr, hncr, by simp⟩
  · rintro ⟨hruling, hitem⟩
    have hstored : ∀ row ∈ db'.nonconformances, row.id = ncr.id →
        ncrRuling row = decisionRuling decision := by
      intro row hrow hid
      rw [hsaved.rows] at hrow
      rw [saved_row hrow hid]
      exact hruling
    refine ⟨hstored, hitem, fun result hresult hid row hrow hrowid => ?_⟩
    rw [hresults result hresult hid, hstored row hrow hrowid]

/-- No result exists yet for the decision a call is about to make. -/
theorem no_result_of_new (hs : Sound db) (hresults : db'.qualityResults = db.qualityResults)
    (hid : decision.id = db.nextId) : ∀ result ∈ db'.qualityResults,
      result.decisionId = decision.id → payloadRuling result.payload = decisionRuling decision := by
  intro result hresult hsame
  rw [hresults] at hresult
  have hlt := hs.results_fresh result hresult
  rw [hsame, hid] at hlt
  exact absurd hlt (lt_irrefl _)

/-- The one result of a released decision shows it. -/
theorem result_of_release (hs : Sound db) {now : Instant} (hid : decision.id = db.nextId)
    (hresults : db'.qualityResults = db.qualityResults ++
      [⟨⟨decision.id⟩, decision.id, saved.itemId, resultPayload saved decision now⟩]) :
    ∀ result ∈ db'.qualityResults,
      result.decisionId = decision.id → payloadRuling result.payload = decisionRuling decision := by
  intro result hresult hsame
  rw [hresults] at hresult
  rcases List.mem_append.mp hresult with hold | hnew
  · exact no_result_of_new hs rfl hid result hold hsame
  · rw [List.mem_singleton.mp hnew]
    rfl

end Saved

/-! ## The three endpoints -/

section Endpoints
variable {db db' : Database} (hs : Sound db) {ncr : Nonconformance} {userId : Uuid} {now : Instant}
  (hncr : ncr ∈ db.nonconformances) {decision : ControllerDecision}
  (hmade : db'.controllerDecisions = db.controllerDecisions ++ [decision])
include hs hncr hmade

theorem request_recorded {body : InspectionRequest} {answer : Uuid}
    (h : requestInspection db ncr.id body userId now = .ok (db', answer)) :
    Recorded db' ncr (.requestInspection ncr.id body userId now) decision := by
  obtain ⟨found, hfound, hid, rfl⟩ := requestInspection_ok h
  obtain rfl := eq_found hs.toWellFormed hfound hncr hid.symm
  obtain rfl := List.singleton_injective (List.append_cancel_left hmade)
  have hsaved : Saved db (saveNcr (addDecision db (newDecision db ncr userId now .needsExtraCheck
      ncr.disposition .reinspectionRequired body.reason))
      { ncr with verdict := .needsExtraCheck, containment := .reinspectionRequired }) ncr
      { ncr with verdict := .needsExtraCheck, containment := .reinspectionRequired } := ⟨rfl, rfl⟩
  refine (recorded_iff hncr hsaved (no_result_of_new hs rfl rfl)).mpr ⟨rfl, fun hitem => ?_⟩
  cases hitem

theorem decide_recorded {body : DecisionRequest} {answer : DecisionResponse}
    (h : decideNonconformance db ncr.id body userId now = .ok (db', answer)) :
    Recorded db' ncr (.decide ncr.id body userId now) decision := by
  obtain ⟨found, hfound, hid, -, ⟨-, rfl⟩ | ⟨-, -, rfl⟩⟩ := decideNonconformance_ok hs.results_fresh h
  all_goals
    obtain rfl := eq_found hs.toWellFormed hfound hncr hid.symm
    obtain rfl := List.singleton_injective (List.append_cancel_left hmade)
    obtain ⟨hidentity, hdisposition⟩ := applyDecision_identity body ncr
    have hruling : ncrRuling (applyDecision body ncr) =
        (body.verdict, body.disposition, body.containment) := by
      unfold applyDecision
      split <;> rfl
  · have hsaved : Saved db (saveNcr (setItemStatus (addDecision db
        (requestedDecision db ncr body userId now)) ncr.itemId body.disposition)
        (applyDecision body ncr)) ncr (applyDecision body ncr) :=
      ⟨hidentity.id, by simp only [saveNcr, hidentity.id]; rfl⟩
    refine (recorded_iff hncr hsaved (no_result_of_new hs rfl rfl)).mpr
      ⟨hruling, fun _ item hitem hown => ?_⟩
    obtain ⟨old, -, rfl⟩ := mem_modifyWhere.mp hitem
    by_cases hold : old.itemId = ncr.itemId
    · simp only [hold, decide_true, if_true]
      rfl
    · simp [hold] at hown
  · have hsaved : Saved db (release (setItemStatus (addDecision db
        (requestedDecision db ncr body userId now)) ncr.itemId body.disposition)
        (applyDecision body ncr) (requestedDecision db ncr body userId now) now) ncr
        { applyDecision body ncr with closedAt := some now } :=
      ⟨hidentity.id, by simp only [release, closeOccurrence, saveNcr, hidentity.id]; rfl⟩
    exact (recorded_iff hncr hsaved (result_of_release hs rfl rfl)).mpr
      ⟨hruling, fun _ item hitem hown => release_items hitem (hown.trans hidentity.itemId.symm)⟩

/-- A verification is recorded alike everywhere when the verdict is `confirmed` already and, if it
fails, the item is marked for rework already. -/
theorem verify_recorded_iff {body : ReworkVerificationRequest} {answer : VerificationResponse}
    (h : verifyRework db ncr.id body userId now = .ok (db', answer)) :
    Recorded db' ncr (.verifyRework ncr.id body userId now) decision ↔
      ncr.verdict = .confirmed ∧ ((∃ finishedAt, reworkFinish db ncr = .ok finishedAt ∧
        (body.passed && (trustedGood db ncr.itemId finishedAt).isSome) = true) ∨
        ∀ item ∈ db.items, item.itemId = ncr.itemId → item.status = .reworkRequired) := by
  obtain ⟨found, finishedAt, hfound, hfinish, hcases⟩ := verifyRework_ok hs.results_fresh h
  obtain ⟨hmem, hid⟩ := ncrOr404_ok hfound
  obtain rfl := eq_found hs.toWellFormed hmem hncr hid.symm
  have hverdict : ∀ d c, ((ncr.verdict, d, c) : Ruling) = (.confirmed, d, c) ↔
      ncr.verdict = .confirmed := by simp
  rcases hcases with ⟨hpass, -, -, rfl⟩ | ⟨hfail, -, rfl⟩
  all_goals obtain rfl := List.singleton_injective (List.append_cancel_left hmade)
  · have hsaved : Saved db (release (addDecision db (passedDecision db ncr body userId now))
        (verifiedNcr ncr db.nextId now) (passedDecision db ncr body userId now) now) ncr
        { verifiedNcr ncr db.nextId now with closedAt := some now } := ⟨rfl, rfl⟩
    refine (recorded_iff hncr hsaved (result_of_release hs rfl rfl)).trans
      (and_congr (hverdict _ _) (iff_of_true (fun _ _ => release_items) (.inl ⟨finishedAt, hfinish, hpass⟩)))
  · have hsaved : Saved db (saveNcr (addDecision db (failedDecision db ncr body userId now))
        (failedNcr ncr db.nextId)) ncr (failedNcr ncr db.nextId) := ⟨rfl, rfl⟩
    refine (recorded_iff hncr hsaved (no_result_of_new hs rfl rfl)).trans
      (and_congr (hverdict _ _) ⟨fun hitem => .inr (hitem rfl), ?_⟩)
    rintro (⟨finish, hfinish', hpass⟩ | hitem)
    · obtain rfl := Except.ok.inj (hfinish.symm.trans hfinish')
      rw [hfail] at hpass
      cases hpass
    · exact fun _ => hitem

end Endpoints

/-! ## Every call -/

/-- The nonconformance and the item as the call finds them leave nothing for it to miss. -/
def InStep (db : Database) (ncr : Nonconformance) : Call → Prop
  | .verifyRework _ body _ _ => ncr.verdict = .confirmed ∧
      ((∃ finishedAt, reworkFinish db ncr = .ok finishedAt ∧
        (body.passed && (trustedGood db ncr.itemId finishedAt).isSome) = true) ∨
        ∀ item ∈ db.items, item.itemId = ncr.itemId → item.status = .reworkRequired)
  | _ => True

/-- After every call that makes a decision, whatever the calls before it, the records show it alike exactly when
the call was in step. -/
theorem decision_recorded_iff {db : Database} (hs : Sound db) {ncr : Nonconformance}
    (hncr : ncr ∈ db.nonconformances) {call : Call} (hcall : decidesOn ncr.id call)
    {decision : ControllerDecision}
    (hmade : (exec db call).1.controllerDecisions = db.controllerDecisions ++ [decision]) :
    Recorded (exec db call).1 ncr call decision ↔ InStep db ncr call := by
  have hcommitted : db.controllerDecisions ≠ db.controllerDecisions ++ [decision] := by simp
  cases call with
  | decide id body userId now =>
    obtain rfl : id = ncr.id := hcall
    simp only [exec] at hmade ⊢
    cases h : decideNonconformance db ncr.id body userId now with
    | error e =>
      rw [h] at hmade
      exact absurd hmade hcommitted
    | ok result =>
      rw [h] at hmade
      exact iff_of_true (decide_recorded hs hncr hmade h) trivial
  | verifyRework id body userId now =>
    obtain rfl : id = ncr.id := hcall
    simp only [exec] at hmade ⊢
    cases h : verifyRework db ncr.id body userId now with
    | error e =>
      rw [h] at hmade
      exact absurd hmade hcommitted
    | ok result =>
      rw [h] at hmade
      exact verify_recorded_iff hs hncr hmade h
  | requestInspection id body userId now =>
    obtain rfl : id = ncr.id := hcall
    simp only [exec] at hmade ⊢
    cases h : requestInspection db ncr.id body userId now with
    | error e =>
      rw [h] at hmade
      exact absurd hmade hcommitted
    | ok result =>
      rw [h] at hmade
      exact iff_of_true (request_recorded hs hncr hmade h) trivial
  | _ => exact absurd hcall id

/-! ### An extra inspection before the verification -/

/-- Tables with a reworked scratch, for which an extra inspection is asked: it sets the verdict back. -/
def inspectedRework : Database :=
  run (shipped (run parentsFirst (analysedScratch ++ .decide 1 reworkIt 100 20 :: reworked)))
    [.requestInspection 1 ⟨"look again"⟩ 100 25]

/-- The nonconformance the verification finds. -/
def inspectedNcr : Nonconformance :=
  { scratchNcr with
    verdict := .needsExtraCheck
    disposition := .reworkRequired
    containment := .reinspectionRequired
    resolutionType := some .rework
    verificationStatus := some .pending }

/-- The decision it makes. -/
def inspectedDecision (db : Database) : ControllerDecision :=
  newDecision db inspectedNcr 100 900000002 .confirmed .released .none "clean"

theorem inspectedRework_sound : Sound inspectedRework := by
  have hreachable : Reachable (run parentsFirst (analysedScratch ++ .decide 1 reworkIt 100 20 :: reworked)) :=
    ⟨_, _, initial_parentsFirst, rfl⟩
  exact exec_sound (sound_shipped (reachable_sound hreachable)) _

theorem decision_recorded_iff_inspected_rework :
    ¬ Recorded (exec inspectedRework (.verifyRework 1 verified 100 900000002)).1 inspectedNcr
      (.verifyRework 1 verified 100 900000002) (inspectedDecision inspectedRework) := by
  have hmem : inspectedNcr ∈ inspectedRework.nonconformances := by decide +kernel
  have hcall : decidesOn inspectedNcr.id (.verifyRework 1 verified 100 900000002) := rfl
  rw [decision_recorded_iff inspectedRework_sound hmem hcall (by decide +kernel)]
  exact fun h => nomatch h.1

/-- A verification releases an item and exports `confirmed`, while the nonconformance keeps the
verdict `needs_extra_check`. -/
theorem verification_drifts : ¬ ∀ (db : Database) (ncr : Nonconformance) (call : Call)
    (decision : ControllerDecision), Sound db → ncr ∈ db.nonconformances →
    decidesOn ncr.id call →
    (exec db call).1.controllerDecisions = db.controllerDecisions ++ [decision] →
    Recorded (exec db call).1 ncr call decision := by
  intro h
  have hrecorded := h inspectedRework inspectedNcr (.verifyRework 1 verified 100 900000002)
    (inspectedDecision inspectedRework) inspectedRework_sound (by decide +kernel) rfl
    (by decide +kernel)
  have hstored : ∃ row ∈ (exec inspectedRework
      (.verifyRework 1 verified 100 900000002)).1.nonconformances,
      row.id = inspectedNcr.id ∧ row.verdict = .needsExtraCheck := by decide +kernel
  obtain ⟨row, hrow, hid, hverdict⟩ := hstored
  have hruling := congrArg Prod.fst (hrecorded.stored row hrow hid)
  rw [ncrRuling, hverdict] at hruling
  cases hruling

end TraceQ.Properties
