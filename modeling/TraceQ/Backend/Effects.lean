import TraceQ.Api.EndpointMeaning
import TraceQ.Backend.Calls
import TraceQ.Ingestion.ServiceMeaning

/-! # What one call can do

The list of effects a call has on the cases, the decisions and the exported results: none, a
rebuild, an edit of one nonconformance, or the release of one. Every invariant over runs is proved
from this list.
-/
namespace TraceQ.Backend
open Projections Ingestion Api Quality Tables Results
set_option autoImplicit false
set_option maxHeartbeats 250000

/-! ## Effects -/

/-- No decision and no result is written. -/
structure SameDecisions (db db' : Database) : Prop where
  decisions : db'.controllerDecisions = db.controllerDecisions
  results : db'.qualityResults = db.qualityResults
  outbox : db'.outboxMessages = db.outboxMessages

/-- The cases, the decisions and the results stay as they are. -/
structure Quiet (db db' : Database) : Prop extends SameCases db db', SameDecisions db db' where
  insertOrder : db'.insertOrder = db.insertOrder
  rawEvents : db.rawEvents <+: db'.rawEvents

/-- Successful rebuilds after a quiet write that stores no event. -/
inductive Rebuilds (db : Database) : Database → Prop where
  | start {m : Database} (quiet : Quiet db m) (rawEvents : m.rawEvents = db.rawEvents) : Rebuilds db m
  | step {m n : Database} {itemId : String} (h : Rebuilds db m)
      (rebuild : rebuildItem m itemId = .ok n) : Rebuilds db n

/-- The columns no endpoint changes. -/
structure SameIdentity (a b : Nonconformance) : Prop where
  id : b.id = a.id
  occurrenceId : b.occurrenceId = a.occurrenceId
  itemId : b.itemId = a.itemId
  key : b.key = a.key
  version : b.currentAnalysisVersion = a.currentAnalysisVersion
  closedAt : b.closedAt = a.closedAt

/-- One nonconformance is rewritten as `ncr'`, perhaps with a new decision. -/
structure Edits (db : Database) (ncr ncr' : Nonconformance) (db' : Database) : Prop where
  found : ncr ∈ db.nonconformances
  identity : SameIdentity ncr ncr'
  occurrences : db'.defectOccurrences = db.defectOccurrences
  nonconformances : db'.nonconformances =
    modifyWhere (fun row => decide (row.id = ncr.id)) (fun _ => ncr') db.nonconformances
  versions : db'.analysisVersions = db.analysisVersions
  rawEvents : db'.rawEvents = db.rawEvents
  results : db'.qualityResults = db.qualityResults
  outbox : db'.outboxMessages = db.outboxMessages
  decisions : (db'.controllerDecisions = db.controllerDecisions ∧ db.nextId ≤ db'.nextId) ∨
    ∃ decision, decision.id = db.nextId ∧ db'.nextId = db.nextId + 1 ∧
      db'.controllerDecisions = db.controllerDecisions ++ [decision]

/-- One nonconformance is rewritten as `ncr'`, its result exported and its case closed. -/
structure Releases (db : Database) (ncr ncr' : Nonconformance) (decision : ControllerDecision)
    (now : Instant) (db' : Database) : Prop where
  found : ncr ∈ db.nonconformances
  identity : SameIdentity ncr ncr'
  occurrences : db'.defectOccurrences =
    modifyWhere (fun row => decide (row.id = ncr.occurrenceId))
      (fun row => { row with status := .closed, closedAt := some now }) db.defectOccurrences
  nonconformances : db'.nonconformances =
    modifyWhere (fun row => decide (row.id = ncr.id)) (fun _ => { ncr' with closedAt := some now })
      db.nonconformances
  versions : db'.analysisVersions = db.analysisVersions
  rawEvents : db'.rawEvents = db.rawEvents
  results : db'.qualityResults = db.qualityResults ++
    [⟨⟨decision.id⟩, decision.id, ncr'.itemId, resultPayload ncr' decision now⟩]
  outbox : db'.outboxMessages = db.outboxMessages ++
    [⟨⟨decision.id⟩, "erp-emulator", "quality.result", resultPayload ncr' decision now⟩]
  decisions : db'.controllerDecisions = db.controllerDecisions ++ [decision]
  fresh : decision.id = db.nextId
  nextId : db'.nextId = db.nextId + 1
  authorized : authorize ncr' decision = .ok ()
  disposition : ncr'.disposition = decision.disposition
  items : ∀ item ∈ db'.items, item.itemId = ncr.itemId → item.status = decision.disposition

/-- Whether the call may take a final disposition back: a decision that is not final, or a
verification. -/
def redecides (ncrId : Uuid) : Call → Prop
  | .decide id body _ _ => id = ncrId ∧ exportable body.disposition = false
  | .verifyRework id _ _ _ => id = ncrId
  | _ => False

/-- The gate fields stay, are shut by a rework decision, or record a failed verification. -/
def GateEdit (ncr ncr' : Nonconformance) : Prop :=
  (ncr'.resolutionType = ncr.resolutionType ∧ ncr'.verificationStatus = ncr.verificationStatus) ∨
  (ncr'.resolutionType = some .rework ∧ ncr'.verificationStatus = some .pending) ∨
  (ncr'.resolutionType = ncr.resolutionType ∧ ncr'.verificationStatus = some .failed)

/-- A verification of the nonconformance that ended PASSED. -/
def passes (ncrId : Uuid) (call : Call) (response : Response) : Prop :=
  ∃ body userId now answer, call = .verifyRework ncrId body userId now ∧
    response = .verified answer ∧ answer.verificationStatus = .passed

inductive Effect (db : Database) (call : Call) (response : Response) (db' : Database) : Prop where
  | quiet (h : Quiet db db')
  | rebuilds (h : Rebuilds db db')
  | edits (ncr ncr' : Nonconformance) (h : Edits db ncr ncr' db') (gate : GateEdit ncr ncr')
      (kept : ncr'.disposition = ncr.disposition ∨
        (exportable ncr'.disposition = false ∧ redecides ncr.id call))
  | releases (ncr ncr' : Nonconformance) (decision : ControllerDecision) (now : Instant)
      (h : Releases db ncr ncr' decision now db')
      (gate : (ncr'.resolutionType = ncr.resolutionType ∧
        ncr'.verificationStatus = ncr.verificationStatus) ∨ passes ncr.id call response)

/-! ## Sound states -/

/-- The case invariant, and no result for a decision yet to be made. -/
structure Sound (db : Database) : Prop extends WellFormed db where
  results_fresh : ∀ r ∈ db.qualityResults, r.decisionId < db.nextId

/-! ## Rebuilds -/

theorem quiet_refl (db : Database) : Quiet db db :=
  ⟨⟨rfl, rfl, rfl, rfl, le_rfl⟩, ⟨rfl, rfl, rfl⟩, rfl, List.prefix_rfl⟩

theorem quiet_of_tables {db db' : Database} (insertOrder : db'.insertOrder = db.insertOrder)
    (occurrences : db'.defectOccurrences = db.defectOccurrences)
    (nonconformances : db'.nonconformances = db.nonconformances)
    (versions : db'.analysisVersions = db.analysisVersions)
    (evidence : db'.analysisEvidence = db.analysisEvidence) (nextId : db.nextId ≤ db'.nextId)
    (decisions : db'.controllerDecisions = db.controllerDecisions)
    (results : db'.qualityResults = db.qualityResults)
    (outbox : db'.outboxMessages = db.outboxMessages) (raws : db'.rawEvents = db.rawEvents) :
    Quiet db db' :=
  ⟨⟨occurrences, nonconformances, versions, evidence, nextId⟩, ⟨decisions, results, outbox⟩, insertOrder,
    raws ▸ List.prefix_rfl⟩

theorem rebuildItem_decided {db db' : Database} (hwf : WellFormed db) {itemId : String}
    (h : rebuildItem db itemId = .ok db') : SameDecisions db db' := by
  have hout := rebuildItem_outside hwf h
  exact ⟨(congrArg Database.controllerDecisions hout :), (congrArg Database.qualityResults hout :),
    (congrArg Database.outboxMessages hout :)⟩

theorem rebuildItem_rawEvents {db db' : Database} (hwf : WellFormed db) {itemId : String}
    (h : rebuildItem db itemId = .ok db') : db'.rawEvents = db.rawEvents :=
  rawEvents_of_outside (rebuildItem_outside hwf h)

/-- What a quiet write and every rebuild keep holds after all of them. -/
theorem Rebuilds.invariant {db db' : Database} (h : Rebuilds db db') {P : Database → Prop}
    (start : ∀ m, Quiet db m → m.rawEvents = db.rawEvents → P m)
    (step : ∀ m n itemId, P m → rebuildItem m itemId = .ok n → P n) : P db' := by
  induction h with
  | start quiet rawEvents => exact start _ quiet rawEvents
  | step _ rebuild ih => exact step _ _ _ ih rebuild

theorem Rebuilds.wellFormed {db db' : Database} (h : Rebuilds db db') (hwf : WellFormed db) :
    WellFormed db' :=
  h.invariant (P := WellFormed) (fun _ quiet _ => quiet.toSameCases.wellFormed hwf)
    fun _ _ _ hm hn => rebuildItem_wellFormed hm hn

/-- Rebuilds extend the cases and write nothing else. -/
theorem Rebuilds.frame {db db' : Database} (h : Rebuilds db db') (hwf : WellFormed db) :
    Grows db db' ∧ SameDecisions db db' ∧ db'.rawEvents = db.rawEvents := by
  refine (h.invariant (P := fun m => WellFormed m ∧ Grows db m ∧ SameDecisions db m ∧
    m.rawEvents = db.rawEvents) ?_ ?_).2
  · exact fun m quiet hraws =>
      ⟨quiet.toSameCases.wellFormed hwf, quiet.toSameCases.grows, quiet.toSameDecisions, hraws⟩
  · rintro m n itemId ⟨hm, hgrows, hdecided, hraws⟩ hn
    have hdecided' := rebuildItem_decided hm hn
    exact ⟨rebuildItem_wellFormed hm hn, hgrows.trans (rebuildItem_grows hm hn),
      ⟨hdecided'.decisions.trans hdecided.decisions, hdecided'.results.trans hdecided.results,
        hdecided'.outbox.trans hdecided.outbox⟩, (rebuildItem_rawEvents hm hn).trans hraws⟩

/-! ## The effect of each call -/

theorem ingest_quiet {db db' : Database} {event : EventEnvelope} {receivedAt : Instant}
    {result : IngestionResult} (h : ingestEvent db event receivedAt = .ok (db', result)) :
    Quiet db db' := by
  rcases ingestEvent_cases h with ⟨_, -, -, rfl, -⟩ | ⟨-, -, hout, ⟨raw, -, -, hraws⟩, -⟩
  · exact quiet_refl _
  · have hnext : db'.nextId = db.nextId := (congrArg Database.nextId hout :)
    exact ⟨⟨(congrArg Database.defectOccurrences hout :),
      (congrArg Database.nonconformances hout :), (congrArg Database.analysisVersions hout :),
      (congrArg Database.analysisEvidence hout :), hnext.ge⟩,
      ⟨(congrArg Database.controllerDecisions hout :), (congrArg Database.qualityResults hout :),
        (congrArg Database.outboxMessages hout :)⟩, (congrArg Database.insertOrder hout :),
      hraws ▸ List.prefix_append _ _⟩

/-- What every rebuild of the loop keeps holds of what the loop commits. -/
theorem rebuildAll_invariant {P : Database → Prop}
    (step : ∀ m n itemId, P m → rebuildItem m itemId = .ok n → P n) {committed session : Database}
    (hcommitted : P committed) (hsession : P session) (targets : List String) :
    P (rebuildAll committed session targets).1 := by
  induction targets generalizing committed session with
  | nil => exact hsession
  | cons itemId rest ih =>
    rw [rebuildAll]
    cases hrebuild : rebuildItem session itemId with
    | ok rebuilt =>
      exact ih (step session rebuilt itemId hsession hrebuild)
        (step session rebuilt itemId hsession hrebuild)
    | error e => exact hcommitted

theorem invalidateDevice_rebuilds (db : Database) (body : InvalidationInput) (userId : Uuid) :
    Rebuilds db (invalidateDevice db body userId).1 := by
  refine rebuildAll_invariant (P := Rebuilds db) (fun m n itemId hm hn => hm.step hn) ?_ ?_ _
  · exact .start (quiet_refl db) rfl
  · exact .start (quiet_of_tables rfl rfl rfl rfl rfl le_rfl rfl rfl rfl rfl) rfl

theorem applyDecision_identity (body : DecisionRequest) (ncr : Nonconformance) :
    SameIdentity ncr (applyDecision body ncr) ∧
      (applyDecision body ncr).disposition = body.disposition := by
  unfold applyDecision
  by_cases h : body.disposition = .reworkRequired
  · simp only [h, if_true]
    exact ⟨⟨rfl, rfl, rfl, rfl, rfl, rfl⟩, trivial⟩
  · simp only [h, if_false]
    exact ⟨⟨rfl, rfl, rfl, rfl, rfl, rfl⟩, trivial⟩

/-- A rework decision shuts the gate, any other decision leaves it. -/
theorem applyDecision_gate (body : DecisionRequest) (ncr : Nonconformance) :
    GateEdit ncr (applyDecision body ncr) := by
  unfold applyDecision
  by_cases h : body.disposition = .reworkRequired
  · simp only [h, if_true]
    exact .inr (.inl ⟨rfl, rfl⟩)
  · simp only [h, if_false]
    exact .inl ⟨rfl, rfl⟩

/-- Only a rework decision touches the gate, and it exports nothing. -/
theorem applyDecision_exportable {body : DecisionRequest} (ncr : Nonconformance)
    (h : exportable body.disposition = true) :
    (applyDecision body ncr).resolutionType = ncr.resolutionType ∧
      (applyDecision body ncr).verificationStatus = ncr.verificationStatus := by
  unfold applyDecision
  rw [if_neg]
  · exact ⟨rfl, rfl⟩
  · intro hrework
    rw [hrework] at h
    cases h

/-- A release sets the status of its item. -/
theorem release_items {db : Database} {ncr : Nonconformance} {decision : ControllerDecision}
    {now : Instant} {item : Item} (h : item ∈ (release db ncr decision now).items)
    (hitem : item.itemId = ncr.itemId) : item.status = decision.disposition := by
  obtain ⟨old, -, rfl⟩ := mem_modifyWhere.mp h
  by_cases hold : old.itemId = ncr.itemId
  · simp [hold]
  · simp [hold] at hitem

/-- A new decision, after which its nonconformance is released. -/
theorem release_releases {db : Database} {ncr ncr' : Nonconformance} {decision : ControllerDecision}
    {now : Instant} (items : List Item) (hmem : ncr ∈ db.nonconformances) (hidentity : SameIdentity ncr ncr')
    (hfresh : decision.id = db.nextId) (hauth : authorize ncr' decision = .ok ())
    (hdisposition : ncr'.disposition = decision.disposition) :
    Releases db ncr ncr' decision now (release { addDecision db decision with items := items } ncr' decision now) where
  found := hmem
  identity := hidentity
  occurrences := by
    rw [← hidentity.occurrenceId]
    rfl
  nonconformances := by
    rw [← hidentity.id]
    rfl
  versions := rfl
  rawEvents := rfl
  results := rfl
  outbox := rfl
  decisions := rfl
  fresh := hfresh
  nextId := rfl
  authorized := hauth
  disposition := hdisposition
  items := fun _ hitem hid => release_items hitem (hid.trans hidentity.itemId.symm)

theorem decide_releases {db db' : Database} (hs : Sound db) {ncrId userId : Uuid}
    {body : DecisionRequest} {now : Instant} {response : DecisionResponse}
    (h : decideNonconformance db ncrId body userId now = .ok (db', response))
    (hexport : exportable body.disposition = true) :
    ∃ ncr decision, ncr.id = ncrId ∧ decision.disposition = body.disposition ∧
      Releases db ncr (applyDecision body ncr) decision now db' := by
  obtain ⟨ncr, hmem, rfl, -, ⟨hnot, -⟩ | ⟨-, hauth, rfl⟩⟩ := decideNonconformance_ok hs.results_fresh h
  · rw [hexport] at hnot
    cases hnot
  · obtain ⟨hidentity, hdisposition⟩ := applyDecision_identity body ncr
    exact ⟨ncr, requestedDecision db ncr body userId now, rfl, rfl,
      release_releases _ hmem hidentity rfl hauth hdisposition⟩

theorem decide_effect {db db' : Database} (hs : Sound db) {ncrId userId : Uuid}
    {body : DecisionRequest} {now : Instant} {response : DecisionResponse}
    (h : decideNonconformance db ncrId body userId now = .ok (db', response)) (answer : Response) :
    Effect db (.decide ncrId body userId now) answer db' := by
  by_cases hexport : exportable body.disposition = true
  · obtain ⟨ncr, decision, -, -, hrelease⟩ := decide_releases hs h hexport
    exact .releases ncr _ decision now hrelease (.inl (applyDecision_exportable ncr hexport))
  · obtain ⟨ncr, hmem, rfl, -, ⟨hnot, rfl⟩ | ⟨hyes, -⟩⟩ := decideNonconformance_ok hs.results_fresh h
    · obtain ⟨hidentity, hdisposition⟩ := applyDecision_identity body ncr
      refine .edits ncr (applyDecision body ncr) ⟨hmem, hidentity, rfl, ?_, rfl, rfl, rfl, rfl,
        .inr ⟨_, rfl, rfl, rfl⟩⟩ (applyDecision_gate body ncr)
        (.inr ⟨by rw [hdisposition, hnot], rfl, hnot⟩)
      simp only [saveNcr, hidentity.id]
      rfl
    · exact absurd hyes hexport

theorem verifyRework_releases {db db' : Database} (hs : Sound db) {ncrId userId : Uuid}
    {body : ReworkVerificationRequest} {now : Instant} {response : VerificationResponse}
    (h : verifyRework db ncrId body userId now = .ok (db', response))
    (hpassed : response.verificationStatus = .passed) :
    ∃ ncr decision, ncr.id = ncrId ∧ decision.disposition = .released ∧
      Releases db ncr (verifiedNcr ncr db.nextId now) decision now db' := by
  obtain ⟨ncr, finishedAt, hncr, -, ⟨-, -, hauth, rfl⟩ | ⟨-, hfailed, -⟩⟩ :=
    verifyRework_ok hs.results_fresh h
  · obtain ⟨hmem, rfl⟩ := ncrOr404_ok hncr
    exact ⟨ncr, passedDecision db ncr body userId now, rfl, rfl,
      release_releases db.items hmem ⟨rfl, rfl, rfl, rfl, rfl, rfl⟩ rfl hauth rfl⟩
  · rw [hpassed] at hfailed
    cases hfailed

theorem verifyRework_effect {db db' : Database} (hs : Sound db) {ncrId userId : Uuid}
    {body : ReworkVerificationRequest} {now : Instant} {response : VerificationResponse}
    (h : verifyRework db ncrId body userId now = .ok (db', response)) :
    Effect db (.verifyRework ncrId body userId now) (.verified response) db' := by
  by_cases hpassed : response.verificationStatus = .passed
  · obtain ⟨ncr, decision, rfl, -, hrelease⟩ := verifyRework_releases hs h hpassed
    exact .releases ncr _ decision now hrelease (.inr ⟨body, userId, now, response, rfl, rfl, hpassed⟩)
  · obtain ⟨ncr, finishedAt, hncr, -, ⟨-, hyes, -⟩ | ⟨-, -, rfl⟩⟩ :=
      verifyRework_ok hs.results_fresh h
    · exact absurd hyes hpassed
    · obtain ⟨hmem, rfl⟩ := ncrOr404_ok hncr
      exact .edits ncr (failedNcr ncr db.nextId)
        ⟨hmem, ⟨rfl, rfl, rfl, rfl, rfl, rfl⟩, rfl, rfl, rfl, rfl, rfl, rfl, .inr ⟨_, rfl, rfl, rfl⟩⟩
        (.inr (.inr ⟨rfl, rfl⟩)) (.inr ⟨rfl, rfl⟩)

/-- A call that commits nothing. -/
theorem idle_effect (db : Database) (call : Call) (response : Response) :
    Effect db call response db :=
  .quiet (quiet_refl db)

/-- An edit of the verdict or the containment alone. -/
theorem edits_effect {db : Database} {call : Call} {response : Response} {ncr : Nonconformance}
    (hmem : ncr ∈ db.nonconformances) (verdict : Verdict) (containment : Containment)
    (proposals : List ContainmentProposal) :
    Effect db call response (saveNcr { db with containmentProposals := proposals }
      { ncr with verdict := verdict, containment := containment }) :=
  .edits ncr { ncr with verdict := verdict, containment := containment }
    ⟨hmem, ⟨rfl, rfl, rfl, rfl, rfl, rfl⟩, rfl, rfl, rfl, rfl, rfl, rfl, .inl ⟨rfl, le_rfl⟩⟩
    (.inl ⟨rfl, rfl⟩) (.inl rfl)

/-- Everything a call can do. -/
theorem exec_cases {db : Database} (hs : Sound db) (call : Call) :
    Effect db call (exec db call).2 (exec db call).1 := by
  cases call with
  | ingest event receivedAt =>
    simp only [exec]
    cases h : ingestEvent db event receivedAt with
    | error e => exact idle_effect db _ _
    | ok result =>
      obtain ⟨committed, answer⟩ := result
      exact .quiet (ingest_quiet h)
  | rebuild itemId =>
    simp only [exec, rebuildOrMark]
    cases h : rebuildItem db itemId with
    | error e => exact .quiet (quiet_of_tables rfl rfl rfl rfl rfl le_rfl rfl rfl rfl rfl)
    | ok rebuilt => exact .rebuilds (.step (.start (quiet_refl db) rfl) h)
  | invalidateDevice body userId => exact .rebuilds (invalidateDevice_rebuilds db body userId)
  | review ncrId body =>
    simp only [exec, withUnit]
    cases h : reviewNonconformance db ncrId body with
    | error e => exact idle_effect db _ _
    | ok committed =>
      obtain ⟨ncr, hmem, -, rfl⟩ := reviewNonconformance_ok h
      exact edits_effect hmem body.verdict ncr.containment db.containmentProposals
  | decide ncrId body userId now =>
    simp only [exec]
    cases h : decideNonconformance db ncrId body userId now with
    | error e => exact idle_effect db _ _
    | ok result =>
      obtain ⟨committed, answer⟩ := result
      exact decide_effect hs h _
  | verifyRework ncrId body userId now =>
    simp only [exec]
    cases h : verifyRework db ncrId body userId now with
    | error e => exact idle_effect db _ _
    | ok result =>
      obtain ⟨committed, answer⟩ := result
      exact verifyRework_effect hs h
  | requestInspection ncrId body userId now =>
    simp only [exec]
    cases h : requestInspection db ncrId body userId now with
    | error e => exact idle_effect db _ _
    | ok result =>
      obtain ⟨committed, answer⟩ := result
      obtain ⟨ncr, hmem, -, rfl⟩ := requestInspection_ok h
      exact .edits ncr { ncr with verdict := .needsExtraCheck, containment := .reinspectionRequired }
        ⟨hmem, ⟨rfl, rfl, rfl, rfl, rfl, rfl⟩, rfl, rfl, rfl, rfl, rfl, rfl,
        .inr ⟨_, rfl, rfl, rfl⟩⟩ (.inl ⟨rfl, rfl⟩) (.inl rfl)
  | proposeContainment ncrId body userId =>
    simp only [exec]
    cases h : proposeContainment db ncrId body userId with
    | error e => exact idle_effect db _ _
    | ok result =>
      obtain ⟨committed, answer⟩ := result
      obtain ⟨proposals, rfl⟩ := proposeContainment_ok h
      exact .quiet (quiet_of_tables rfl rfl rfl rfl rfl (Nat.le_succ _) rfl rfl rfl rfl)
  | reviewContainment proposalId body userId now =>
    simp only [exec, withUnit]
    cases h : reviewContainment db proposalId body userId now with
    | error e => exact idle_effect db _ _
    | ok committed =>
      obtain ⟨proposals, rfl | ⟨ncr, hmem, containment, rfl⟩⟩ := reviewContainment_ok h
      · exact .quiet (quiet_of_tables rfl rfl rfl rfl rfl le_rfl rfl rfl rfl rfl)
      · exact edits_effect hmem ncr.verdict containment proposals
  | configure config => exact .quiet (quiet_of_tables rfl rfl rfl rfl rfl le_rfl rfl rfl rfl rfl)
  | verifyIntegrity failed => exact .quiet (quiet_of_tables rfl rfl rfl rfl rfl le_rfl rfl rfl rfl rfl)

end TraceQ.Backend
