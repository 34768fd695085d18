import TraceQ.Backend.Exports
import TraceQ.Properties.AnalysisBoundary

/-! # The release gate

Results and their outbox messages come in pairs, one pair for each exported decision. A rework
decision shuts the gate of its nonconformance, and only a verification that passes opens it again.
-/
namespace TraceQ.Properties
open Projections Ingestion Api Quality Tables Results Backend
set_option autoImplicit false
set_option maxHeartbeats 250000

/-! ## The gate of one nonconformance -/

/-- The gate refuses every release. -/
def GateShut (ncr : Nonconformance) : Prop :=
  ncr.resolutionType = some .rework ∧ ncr.verificationStatus ≠ some .passed

def ShutFor (db : Database) (ncrId : Uuid) : Prop :=
  ∃ ncr ∈ db.nonconformances, ncr.id = ncrId ∧ GateShut ncr

/-- No edit opens a shut gate. -/
theorem gateEdit_keepsShut {ncr ncr' : Nonconformance} (h : GateEdit ncr ncr')
    (hshut : GateShut ncr) : GateShut ncr' := by
  rcases h with ⟨htype, hstatus⟩ | ⟨htype, hstatus⟩ | ⟨htype, hstatus⟩
  · exact ⟨htype.trans hshut.1, hstatus ▸ hshut.2⟩
  · exact ⟨htype, by rw [hstatus]; decide⟩
  · exact ⟨htype.trans hshut.1, by rw [hstatus]; decide⟩

theorem not_authorized_of_shut {ncr : Nonconformance} {decision : ControllerDecision}
    (hshut : GateShut ncr) : authorize ncr decision ≠ .ok () :=
  fun hauth => hshut.2 ((authorize_ok.mp hauth).2.2.2 hshut.1)

/-- A shut gate stays shut unless the call is a verification that passes. -/
theorem effect_keepsShut {db db' : Database} {call : Call} {response : Response} (hs : Sound db)
    (h : Effect db call response db') {ncrId : Uuid} (hshut : ShutFor db ncrId)
    (hcall : ¬ passes ncrId call response) : ShutFor db' ncrId := by
  obtain ⟨n, hn, rfl, hgate⟩ := hshut
  cases h with
  | quiet hquiet => exact ⟨n, hquiet.nonconformances ▸ hn, rfl, hgate⟩
  | rebuilds hrebuilds =>
    obtain ⟨n', hn', hfixed⟩ := (hrebuilds.frame hs.toWellFormed).1.keepsNcr hn
    have htype : n'.resolutionType = n.resolutionType :=
      (congrArg Nonconformance.resolutionType hfixed :)
    have hstatus : n'.verificationStatus = n.verificationStatus :=
      (congrArg Nonconformance.verificationStatus hfixed :)
    exact ⟨n', hn', (congrArg Nonconformance.id hfixed :), htype.trans hgate.1, hstatus ▸ hgate.2⟩
  | edits ncr ncr' hedit hkeeps _ =>
    refine ⟨_, hedit.nonconformances ▸ mem_modifyWhere.mpr ⟨n, hn, rfl⟩, ?_⟩
    by_cases hid : n.id = ncr.id
    · obtain rfl := eq_found hs.toWellFormed hedit.found hn hid
      simp only [decide_true, if_true]
      exact ⟨hedit.identity.id, gateEdit_keepsShut hkeeps hgate⟩
    · simp only [hid, decide_false, Bool.false_eq_true, if_false]
      exact ⟨trivial, hgate⟩
  | releases ncr ncr' decision now hrelease hkeeps =>
    refine ⟨_, hrelease.nonconformances ▸ mem_modifyWhere.mpr ⟨n, hn, rfl⟩, ?_⟩
    by_cases hid : n.id = ncr.id
    · obtain rfl := eq_found hs.toWellFormed hrelease.found hn hid
      rcases hkeeps with ⟨htype, hstatus⟩ | hpass
      · exact absurd hrelease.authorized
          (not_authorized_of_shut ⟨htype.trans hgate.1, hstatus ▸ hgate.2⟩)
      · exact absurd hpass hcall
    · simp only [hid, decide_false, Bool.false_eq_true, if_false]
      exact ⟨trivial, hgate⟩

/-- A rework decision that commits shuts the gate. -/
theorem decide_shuts {db : Database} (hs : Sound db) {ncrId userId : Uuid} {body : DecisionRequest}
    {now : Instant} (hrework : body.disposition = .reworkRequired)
    (hcommits : (exec db (.decide ncrId body userId now)).2 ≠ .rolledBack) :
    ShutFor (exec db (.decide ncrId body userId now)).1 ncrId := by
  simp only [exec] at hcommits ⊢
  cases h : decideNonconformance db ncrId body userId now with
  | error e => rw [h] at hcommits; exact absurd rfl hcommits
  | ok result =>
    obtain ⟨committed, answer⟩ := result
    obtain ⟨ncr, hmem, rfl, -, ⟨-, rfl⟩ | ⟨hexport, -⟩⟩ := decideNonconformance_ok hs.results_fresh h
    · refine ⟨applyDecision body ncr, ?_, (applyDecision_identity body ncr).1.id, ?_⟩
      · refine mem_modifyWhere.mpr ⟨ncr, hmem, ?_⟩
        rw [if_pos (by simpa using (applyDecision_identity body ncr).1.id.symm)]
      · rw [applyDecision, if_pos hrework]
        exact ⟨rfl, by simp⟩
    · rw [hrework] at hexport
      cases hexport

/-! ## The creation of a result -/

/-- The call exports a result of the nonconformance. -/
def Creates (db : Database) (call : Call) (ncrId : Uuid) : Prop :=
  ∃ result ∈ (exec db call).1.qualityResults, result ∉ db.qualityResults ∧
    result.payload.nonconformanceId = ncrId

instance (db : Database) (call : Call) (ncrId : Uuid) : Decidable (Creates db call ncrId) := by
  unfold Creates
  infer_instance

/-- Through a shut gate only a passing verification exports. -/
theorem creates_through_shut {db : Database} (hs : Sound db) {call : Call} {ncrId : Uuid}
    (hshut : ShutFor db ncrId) (hcreates : Creates db call ncrId) :
    passes ncrId call (exec db call).2 := by
  obtain ⟨result, hnew, hold, rfl⟩ := hcreates
  obtain ⟨n, hn, hid, hgate⟩ := hshut
  cases exec_cases hs call with
  | quiet hquiet => exact absurd (hquiet.results ▸ hnew) hold
  | rebuilds hrebuilds =>
    exact absurd ((hrebuilds.frame hs.toWellFormed).2.1.results ▸ hnew) hold
  | edits ncr ncr' hedit _ _ => exact absurd (hedit.results ▸ hnew) hold
  | releases ncr ncr' decision now hrelease hkeeps =>
    rw [hrelease.results] at hnew
    rcases List.mem_append.mp hnew with hkept | hadded
    · exact absurd hkept hold
    · obtain rfl := List.mem_singleton.mp hadded
      have hncr : ncr'.id = ncr.id := hrelease.identity.id
      obtain rfl := eq_found hs.toWellFormed hrelease.found hn (hid.trans hncr)
      rcases hkeeps with ⟨htype, hstatus⟩ | hpass
      · exact absurd hrelease.authorized
          (not_authorized_of_shut ⟨htype.trans hgate.1, hstatus ▸ hgate.2⟩)
      · exact hid ▸ hpass

/-- Some call of the run is a verification of the nonconformance that ends PASSED. -/
def PassedDuring (start : Database) (calls : List Call) (ncrId : Uuid) : Prop :=
  ∃ front call rest, calls = front ++ call :: rest ∧
    passes ncrId call (exec (run start front) call).2

/-- From a shut gate on, a result is exported only after a verification has passed. -/
theorem passed_of_shut {db : Database} (hs : Sound db) {ncrId : Uuid} (hshut : ShutFor db ncrId)
    (between : List Call) {call : Call} (hcreates : Creates (run db between) call ncrId) :
    PassedDuring db (between ++ [call]) ncrId := by
  have hrun := Machine.holds_or_ending (P := Sound) (Q := fun s => ShutFor s ncrId)
    (E := fun s c => passes ncrId c (exec s c).2) (fun s c hgood => exec_sound hgood c)
    (fun s c hgood hq hnot => effect_keepsShut hgood (exec_cases hgood c) hq hnot) hs hshut between
  rcases hrun with hstill | ⟨front, verify, rest, rfl, hpass⟩
  · have hgood : Sound (run db between) := 
      Machine.run_invariant (P := Sound) (fun _ c h => exec_sound h c) hs between
    exact ⟨between, call, [], rfl, creates_through_shut hgood hstill hcreates⟩
  · exact ⟨front, verify, rest ++ [call], by simp, hpass⟩

/-! ## Every run -/

/-- Results and messages in pairs, each pair for one authorized decision. -/
structure Controlled (db : Database) : Prop where
  result_messages : (db.qualityResults.map (·.messageId)).Nodup
  outbox_messages : (db.outboxMessages.map (·.messageId)).Nodup
  sent : ∀ result ∈ db.qualityResults, ∃ message ∈ db.outboxMessages,
    message.messageId = result.messageId ∧ message.messageType = "quality.result" ∧
      message.payload = result.payload
  stored : ∀ message ∈ db.outboxMessages, ∃ result ∈ db.qualityResults,
    result.messageId = message.messageId ∧ result.payload = message.payload
  one_per_decision : (db.qualityResults.map (·.decisionId)).Nodup
  decided : ∀ result ∈ db.qualityResults, Authorized db result

theorem controlled_of_exported {db : Database} (h : Exported db) : Controlled db := by
  have hmessages : db.qualityResults.map (·.messageId) =
      (db.qualityResults.map (·.decisionId)).map MessageId.mk := by
    rw [List.map_map]
    exact List.map_congr_left fun result hr => (h.authorized result hr).message
  have hnodup : (db.qualityResults.map (·.messageId)).Nodup := by
    rw [hmessages]
    exact h.result_decisions.map fun _ _ heq => MessageId.mk.inj heq
  refine
    { result_messages := hnodup
      outbox_messages := by rw [h.outbox, List.map_map]; exact hnodup
      sent := ?_
      stored := ?_
      one_per_decision := h.result_decisions
      decided := h.authorized }
  · intro result hr
    exact ⟨messageOf result, h.outbox ▸ List.mem_map_of_mem hr, rfl, rfl, rfl⟩
  · intro message hm
    rw [h.outbox] at hm
    obtain ⟨result, hr, rfl⟩ := List.mem_map.mp hm
    exact ⟨result, hr, rfl, rfl⟩

/-- In every run from empty tables the results are controlled, and no result of a nonconformance is
exported after a rework decision on it before a verification has passed since that decision. -/
theorem release_gate {start : Database} (hstart : Initial start) (calls : List Call) :
    Controlled (run start calls) ∧
    ∀ (front between rest : List Call) (ncrId userId : Uuid) (body : DecisionRequest)
      (now : Instant) (call : Call),
      calls = front ++ .decide ncrId body userId now :: (between ++ call :: rest) →
      body.disposition = .reworkRequired →
      (exec (run start front) (.decide ncrId body userId now)).2 ≠ .rolledBack →
      Creates (run start (front ++ .decide ncrId body userId now :: between)) call ncrId →
      PassedDuring (run start (front ++ [.decide ncrId body userId now])) (between ++ [call]) ncrId := by
  have hreachable : ∀ some, Reachable (run start some) := fun some => ⟨start, some, hstart, rfl⟩
  refine ⟨controlled_of_exported (reachable_exported (hreachable calls)), ?_⟩
  intro front between rest ncrId userId body now call _ hrework hcommits hcreates
  have hs := reachable_sound (hreachable front)
  have hdecided : run start (front ++ [.decide ncrId body userId now]) =
      (exec (run start front) (.decide ncrId body userId now)).1 := Machine.run_append _ _ _
  have hsplit : run start (front ++ .decide ncrId body userId now :: between) =
      run (exec (run start front) (.decide ncrId body userId now)).1 between :=
    Machine.run_append _ _ _
  rw [hdecided]
  rw [hsplit] at hcreates
  exact passed_of_shut (exec_sound hs _) (decide_shuts hs hrework hcommits) between hcreates

/-! ### A scratch that is reworked -/

def reworkIt : DecisionRequest where
  verdict := .confirmed
  disposition := .reworkRequired
  containment := .hold
  reason := "polish"
  allowed := confirmed_allowed
  valid_combination := confirmed_rework

/-- The run that reworks the nonconformance with id 1. -/
def reworkStarted : EventEnvelope where
  eventId := "e-3"
  occurredAt := 30
  source := { sourceId := "mes-1", sourceType := "mes" }
  itemId := some "item-1"
  operationRunId := some "run-1"
  payload := .operationStarted
    { operationId := "polish"
      operatorId := "operator-1"
      equipmentId := "polisher-1"
      stationId := "station-1"
      runReason := .rework
      reworkForNonconformanceId := some "00000000000000000000000000000001" }

def reworkFinished : EventEnvelope where
  eventId := "e-4"
  occurredAt := 40
  source := { sourceId := "mes-1", sourceType := "mes" }
  itemId := some "item-1"
  operationRunId := some "run-1"
  payload := .operationFinished { completionStatus := .completed }

/-- The rework finishes and a later inspection finds nothing. -/
def reworked : List Call :=
  [.ingest reworkStarted 31, .ingest reworkFinished 41, .ingest (goodSeen "e-5" 900000000) 900000001,
    .rebuild "item-1"]

def verified : ReworkVerificationRequest := ⟨true, "clean"⟩

theorem release_gate_reworked :
    PassedDuring (run parentsFirst (analysedScratch ++ [.decide 1 reworkIt 100 20]))
      (reworked ++ [.verifyRework 1 verified 100 900000002]) 1 := by
  have hcommits : (exec (run parentsFirst analysedScratch) (.decide 1 reworkIt 100 20)).2 ≠ .rolledBack := by
    decide +kernel
  have hcreates : Creates (run parentsFirst (analysedScratch ++ .decide 1 reworkIt 100 20 :: reworked))
      (.verifyRework 1 verified 100 900000002) 1 := by decide +kernel
  exact (release_gate initial_parentsFirst (analysedScratch ++ .decide 1 reworkIt 100 20 ::
    (reworked ++ .verifyRework 1 verified 100 900000002 :: []))).2 analysedScratch reworked [] 1 100 reworkIt
    20 (.verifyRework 1 verified 100 900000002) rfl rfl hcommits hcreates

end TraceQ.Properties
