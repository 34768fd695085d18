import TraceQ.Backend.Invariants

/-! # Exported results

Every quality result stands for one authorized decision and went out in one outbox message. Only
the release of a nonconformance exports, so the invariant is kept by every call.
-/
namespace TraceQ.Backend
open Projections Ingestion Api Quality Tables Results
set_option autoImplicit false
set_option maxHeartbeats 250000

/-- The message that carries a result. -/
def messageOf (result : QualityResult) : OutboxMessage :=
  ⟨result.messageId, "erp-emulator", "quality.result", result.payload⟩

/-- The result exports a committed decision of the nonconformance in its payload. -/
structure Authorized (db : Database) (result : QualityResult) : Prop where
  message : result.messageId = ⟨result.decisionId⟩
  decision : ∃ decision ∈ db.controllerDecisions, decision.id = result.decisionId ∧
    decision.nonconformanceId = result.payload.nonconformanceId ∧
    (decision.verdict = .confirmed ∨ decision.verdict = .rejected) ∧
    exportable decision.disposition = true ∧ decision.disposition = result.payload.disposition

structure Exported (db : Database) : Prop where
  decision_ids : (db.controllerDecisions.map (·.id)).Nodup
  decisions_fresh : ∀ decision ∈ db.controllerDecisions, decision.id < db.nextId
  result_decisions : (db.qualityResults.map (·.decisionId)).Nodup
  outbox : db.outboxMessages = db.qualityResults.map messageOf
  authorized : ∀ result ∈ db.qualityResults, Authorized db result

theorem exported_initial (config : Configuration) (order : InsertOrder) :
    Exported { config := config, insertOrder := order } := by
  constructor <;> simp

theorem Authorized.mono {db db' : Database} {result : QualityResult} (h : Authorized db result)
    (hsub : db.controllerDecisions ⊆ db'.controllerDecisions) : Authorized db' result := by
  obtain ⟨decision, hmem, hfacts⟩ := h.decision
  exact ⟨h.message, decision, hsub hmem, hfacts⟩

/-! ## One effect -/

/-- Neither a decision nor a result is written. -/
theorem SameDecisions.exported {db db' : Database} (hsame : SameDecisions db db')
    (hnext : db.nextId ≤ db'.nextId) (h : Exported db) : Exported db' where
  decision_ids := hsame.decisions ▸ h.decision_ids
  decisions_fresh := fun decision hd =>
    (h.decisions_fresh decision (hsame.decisions ▸ hd)).trans_le hnext
  result_decisions := hsame.results ▸ h.result_decisions
  outbox := by rw [hsame.outbox, hsame.results, h.outbox]
  authorized := fun result hr =>
    (h.authorized result (hsame.results ▸ hr)).mono (fun _ hd => hsame.decisions ▸ hd)

/-- One more decision without a result. -/
theorem exported_decision {db db' : Database} {decision : ControllerDecision} (h : Exported db)
    (hid : decision.id = db.nextId) (hnext : db'.nextId = db.nextId + 1)
    (hdecisions : db'.controllerDecisions = db.controllerDecisions ++ [decision])
    (hresults : db'.qualityResults = db.qualityResults)
    (houtbox : db'.outboxMessages = db.outboxMessages) : Exported db' where
  decision_ids := by
    rw [hdecisions]
    exact nodup_map_append h.decision_ids fun d hd => hid ▸ (h.decisions_fresh d hd).ne
  decisions_fresh := by
    intro d hd
    rw [hdecisions] at hd
    rw [hnext]
    rcases List.mem_append.mp hd with hold | hnew
    · exact (h.decisions_fresh d hold).trans (Nat.lt_succ_self _)
    · rw [List.mem_singleton.mp hnew, hid]
      exact Nat.lt_succ_self _
  result_decisions := hresults ▸ h.result_decisions
  outbox := by rw [houtbox, hresults, h.outbox]
  authorized := fun result hr =>
    (h.authorized result (hresults ▸ hr)).mono (hdecisions ▸ List.subset_append_left _ _)

/-- One more decision with its result. -/
theorem exported_release {db db' : Database} (hs : Sound db) (h : Exported db)
    {ncr ncr' : Nonconformance} {decision : ControllerDecision} {now : Instant}
    (hrelease : Releases db ncr ncr' decision now db') : Exported db' := by
  obtain ⟨hown, hverdict, hexport, -⟩ := authorize_ok.mp hrelease.authorized
  -- the decision alone, and then its result
  have hmade : Exported { db with
      controllerDecisions := db.controllerDecisions ++ [decision], nextId := db.nextId + 1 } :=
    exported_decision h hrelease.fresh rfl rfl rfl rfl
  refine
    { decision_ids := hrelease.decisions ▸ hmade.decision_ids
      decisions_fresh := fun d hd =>
        hrelease.nextId ▸ hmade.decisions_fresh d (hrelease.decisions ▸ hd)
      result_decisions := ?_
      outbox := by rw [hrelease.outbox, hrelease.results, h.outbox, List.map_append]; rfl
      authorized := ?_ }
  · rw [hrelease.results]
    exact nodup_map_append h.result_decisions fun r hr => hrelease.fresh ▸ (hs.results_fresh r hr).ne
  · intro result hr
    rw [hrelease.results] at hr
    rcases List.mem_append.mp hr with hold | hnew
    · exact (h.authorized result hold).mono (hrelease.decisions ▸ List.subset_append_left _ _)
    · rw [List.mem_singleton.mp hnew]
      exact ⟨rfl, decision, hrelease.decisions ▸ List.mem_append_right _ (List.mem_singleton_self _),
        rfl, hown, hverdict, hexport, rfl⟩

theorem effect_exported {db db' : Database} {call : Call} {response : Response} (hs : Sound db)
    (h : Exported db) (heffect : Effect db call response db') : Exported db' := by
  cases heffect with
  | quiet hquiet => exact hquiet.toSameDecisions.exported hquiet.nextId h
  | rebuilds hrebuilds =>
    obtain ⟨hgrows, hdecided, -⟩ := hrebuilds.frame hs.toWellFormed
    exact hdecided.exported hgrows.nextId h
  | edits ncr ncr' hedit _ _ =>
    rcases hedit.decisions with ⟨hsame, hnext⟩ | ⟨decision, hid, hnext, hdecisions⟩
    · exact SameDecisions.exported ⟨hsame, hedit.results, hedit.outbox⟩ hnext h
    · exact exported_decision h hid hnext hdecisions hedit.results hedit.outbox
  | releases ncr ncr' decision now hrelease _ => exact exported_release hs h hrelease

theorem reachable_exported {db : Database} (h : Reachable db) : Exported db := by
  refine (Machine.reachable_invariant (P := fun m => Sound m ∧ Exported m) ?_ ?_ h).2
  · rintro m ⟨config, order, rfl⟩
    exact ⟨sound_initial ⟨config, order, rfl⟩, exported_initial config order⟩
  · rintro m call ⟨hs, hm⟩
    exact ⟨exec_sound hs call, effect_exported hs hm (exec_cases hs call)⟩

/-! ## Results of one nonconformance -/

/-- Some decision of the nonconformance was exported. -/
def HasResult (db : Database) (ncrId : Uuid) : Prop :=
  ∃ result ∈ db.qualityResults, ∃ decision ∈ db.controllerDecisions,
    decision.id = result.decisionId ∧ decision.nonconformanceId = ncrId

/-- The nonconformance of the decision is that of the payload. -/
theorem hasResult_iff {db : Database} (h : Exported db) {ncrId : Uuid} :
    HasResult db ncrId ↔ ∃ result ∈ db.qualityResults, result.payload.nonconformanceId = ncrId := by
  constructor
  · rintro ⟨result, hresult, decision, hdecision, hid, hncr⟩
    obtain ⟨named, hnamed, hnamedId, hpayload, -⟩ := (h.authorized result hresult).decision
    obtain rfl := eq_of_nodup_map h.decision_ids hdecision hnamed (hid.trans hnamedId.symm)
    exact ⟨result, hresult, hpayload.symm.trans hncr⟩
  · rintro ⟨result, hresult, hncr⟩
    obtain ⟨decision, hdecision, hid, hpayload, -⟩ := (h.authorized result hresult).decision
    exact ⟨result, hresult, decision, hdecision, hid, hpayload.trans hncr⟩

end TraceQ.Backend
