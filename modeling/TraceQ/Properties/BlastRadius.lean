import TraceQ.Api.Risk
import TraceQ.Backend.RowSources
import TraceQ.Projections.RebuildOutcome
import TraceQ.Projections.RunMeaning
import TraceQ.Properties.Reopening

/-! # The blast radius of a factor

A run that has not finished counts as going on, so it may be exposed at any time after its start. What a run
reports of a tool, a lot or a component is looked up in one column, which holds the parameters of the start, or
those of the finish where the start has none.
-/
namespace TraceQ.Properties
open Projections Ingestion Api Quality Tables Results Backend
set_option autoImplicit false
set_option maxHeartbeats 250000

/-! ## Exposed runs -/

/-- The projected runs of every item are those of its history. -/
def RunsProjected (db : Database) : Prop :=
  ∀ itemId, operationRunRows itemId (replay db itemId).operations =
    .ok (ownedBy (·.itemId) itemId db.operationRuns)

/-- Factors that runs report. -/
def ReportedByRuns (factor : FactorType) : Prop :=
  factor = .tool ∨ factor = .materialLot ∨ factor = .component ∨ factor = .equipment

/-- The parameters name the value of the factor. -/
def NamesFactor (body : BlastRadiusRequest) (params : Option Params) : Prop :=
  ∃ key, body.factorType.key = some key ∧ (params.getD []).lookup key = some (.str body.factorValue)

/-- The started event reports the factor value. -/
def StartReports (body : BlastRadiusRequest) (payload : OperationStartedPayload) : Prop :=
  (body.factorType = .equipment ∧ payload.equipmentId = body.factorValue) ∨ NamesFactor body payload.parameters

/-- The last start of a run of the item, if the run starts no later than the period ends and, once finished,
finishes no earlier than the period begins. -/
structure InPeriod (db : Database) (itemId runId : String) (body : BlastRadiusRequest)
    (start : RawEvent) (payload : OperationStartedPayload) : Prop where
  started : lastStartEvent (history db itemId) runId = some (start, payload)
  before_end : start.occurredAt ≤ body.affectedTo
  after_begin : ∀ finish, lastFinishEvent (history db itemId) runId = some finish →
    body.affectedFrom ≤ finish.1.occurredAt

/-- For a run that does not finish before it starts, that is to say that its interval meets the period. -/
theorem inPeriod_iff {db : Database} {itemId runId : String} {body : BlastRadiusRequest} {start : RawEvent}
    {payload : OperationStartedPayload}
    (hstarted : lastStartEvent (history db itemId) runId = some (start, payload))
    (horder : ∀ finish, lastFinishEvent (history db itemId) runId = some finish →
      start.occurredAt ≤ finish.1.occurredAt) :
    InPeriod db itemId runId body start payload ↔
      ∃ time, body.affectedFrom ≤ time ∧ time ≤ body.affectedTo ∧ start.occurredAt ≤ time ∧
        ∀ finish, lastFinishEvent (history db itemId) runId = some finish → time ≤ finish.1.occurredAt := by
  constructor
  · intro h
    refine ⟨max body.affectedFrom start.occurredAt, le_max_left _ _, max_le body.period h.before_end,
      le_max_right _ _, fun finish hfinish => max_le (h.after_begin finish hfinish) (horder finish hfinish)⟩
  · rintro ⟨time, hfrom, hto, hstart, hfinished⟩
    exact ⟨hstarted, hstart.trans hto, fun finish hfinish => hfrom.trans (hfinished finish hfinish)⟩

/-! ## The rows of the query -/

theorem mem_operationRunRows {itemId : String} {runs : List OperationValue} {rows : List OperationRun}
    (h : operationRunRows itemId runs = .ok rows) {row : OperationRun} :
    row ∈ rows ↔ ∃ run ∈ runs, operationRunRow itemId run = .ok row := by
  induction runs generalizing rows with
  | nil =>
    rw [operationRunRows] at h
    rw [← Except.ok.inj h]
    simp
  | cons run rest ih =>
    rw [operationRunRows] at h
    obtain ⟨first, hfirst, h⟩ := bind_ok.mp h
    obtain ⟨others, hothers, h⟩ := bind_ok.mp h
    rw [← pure_ok.mp h, List.mem_cons, ih hothers, List.exists_mem_cons_iff, hfirst, Except.ok.injEq, eq_comm]

theorem mem_projectedRuns {db : Database} (h : RunsProjected db) {row : OperationRun} :
    row ∈ db.operationRuns ↔ ∃ run ∈ (replay db row.itemId).operations,
      operationRunRow row.itemId run = .ok row := by
  rw [← mem_operationRunRows (h row.itemId), mem_ownedBy]
  exact (and_iff_left rfl).symm

theorem row_of_run {db : Database} (h : RunsProjected db) {itemId : String} {run : OperationValue}
    (hrun : run ∈ (replay db itemId).operations) : ∃ row, operationRunRow itemId run = .ok row := by
  obtain ⟨reference, hreference⟩ := operationRunRows_succeeds_iff.mp ⟨_, h itemId⟩ run hrun
  exact ⟨_, bind_ok.mpr ⟨reference, hreference, rfl⟩⟩

theorem operationRunRow_columns {itemId : String} {run : OperationValue} {row : OperationRun}
    (h : operationRunRow itemId run = .ok row) : row.itemId = itemId ∧ row.startedAt = run.startedAt ∧
      row.finishedAt = run.finishedAt ∧ row.equipmentId = run.equipmentId ∧
      row.parameters = paramsOr run.parameters run.finishParameters := by
  obtain ⟨rework, -, h⟩ := bind_ok.mp h
  rw [← pure_ok.mp h]
  exact ⟨rfl, rfl, rfl, rfl, rfl⟩

/-- `_matches`, for the factors that runs report. -/
theorem runMatches_iff {row : OperationRun} {body : BlastRadiusRequest}
    (hfactor : ReportedByRuns body.factorType) : runMatches row body = true ↔
      (body.factorType = .equipment ∧ row.equipmentId = some body.factorValue) ∨
        NamesFactor body row.parameters := by
  unfold runMatches NamesFactor
  rcases hfactor with h | h | h | h <;>
    simp [h, FactorType.key, Option.any_eq_true, Json.beq_iff]

/-- The query selects the row of a run exactly if the run is exposed by what its row has of the parameters. -/
theorem row_selected {db : Database} {body : BlastRadiusRequest} (hfactor : ReportedByRuns body.factorType)
    {itemId : String} {run : OperationValue} {row : OperationRun} (hread : ReadFrom (history db itemId) run)
    (hrow : operationRunRow itemId run = .ok row) :
    ((row.startedAt.any fun time => decide (time ≤ body.affectedTo)) &&
        (row.finishedAt.all fun time => decide (time ≥ body.affectedFrom)) && runMatches row body) = true ↔
      ∃ start payload, InPeriod db itemId run.operationRunId body start payload ∧
        ((body.factorType = .equipment ∧ payload.equipmentId = body.factorValue) ∨
          NamesFactor body (paramsOr payload.parameters
            ((lastFinishEvent (history db itemId) run.operationRunId).bind (·.2.parameters)))) := by
  obtain ⟨-, hstart, hfinish, hequipment, hparameters⟩ := operationRunRow_columns hrow
  simp only [Bool.and_eq_true, runMatches_iff hfactor, hstart, hfinish, hequipment, hparameters,
    hread.startedAt, hread.finishedAt, hread.equipmentId, hread.parameters, hread.finishParameters]
  cases hstarted : lastStartEvent (history db itemId) run.operationRunId with
  | none =>
    refine iff_of_false (fun h => by simp at h) ?_
    rintro ⟨start, payload, hperiod, -⟩
    rw [hperiod.started] at hstarted
    cases hstarted
  | some last =>
    obtain ⟨start, payload⟩ := last
    have hafter : ((lastFinishEvent (history db itemId) run.operationRunId).map (·.1.occurredAt)).all
          (fun time => decide (time ≥ body.affectedFrom)) = true ↔
        ∀ finish, lastFinishEvent (history db itemId) run.operationRunId = some finish →
          body.affectedFrom ≤ finish.1.occurredAt := by
      cases lastFinishEvent (history db itemId) run.operationRunId <;> simp
    simp only [Option.map_some, Option.any_some, decide_eq_true_eq, hafter, Option.bind_some,
      Option.some.injEq]
    constructor
    · rintro ⟨⟨hbefore, hafter⟩, hreports⟩
      exact ⟨start, payload, ⟨hstarted, hbefore, hafter⟩, hreports⟩
    · rintro ⟨start', payload', hperiod, hreports⟩
      obtain ⟨rfl, rfl⟩ := Prod.mk.inj (Option.some.inj (hstarted.symm.trans hperiod.started))
      exact ⟨⟨hperiod.before_end, hperiod.after_begin⟩, hreports⟩

/-! ## One entry for each item -/

theorem map_setCandidate (rows : List Candidate) (candidate : Candidate) :
    (setCandidate rows candidate).map (·.itemId) =
      if candidate.itemId ∈ rows.map (·.itemId) then rows.map (·.itemId)
      else rows.map (·.itemId) ++ [candidate.itemId] := by
  unfold setCandidate
  induction rows with
  | nil => simp [upsert]
  | cons head rest ih =>
    by_cases hkey : head.itemId = candidate.itemId
    · simp [upsert, hkey]
    · have hne : candidate.itemId ≠ head.itemId := fun heq => hkey heq.symm
      simp only [upsert, hkey, if_false, List.map_cons, ih, List.mem_cons, hne, false_or]
      split <;> rfl

theorem foldl_setCandidate (found rows : List Candidate) (h : (rows.map (·.itemId)).Nodup) :
    ((found.foldl setCandidate rows).map (·.itemId)).Nodup ∧
      ∀ itemId, itemId ∈ (found.foldl setCandidate rows).map (·.itemId) ↔
        itemId ∈ rows.map (·.itemId) ∨ itemId ∈ found.map (·.itemId) := by
  induction found generalizing rows with
  | nil => exact ⟨h, fun itemId => by simp⟩
  | cons candidate rest ih =>
    have hkeys := map_setCandidate rows candidate
    have hnodup : ((setCandidate rows candidate).map (·.itemId)).Nodup := by
      rw [hkeys]
      split
      · exact h
      · rename_i hnew
        rw [← List.concat_eq_append]
        exact h.concat hnew
    have hmem : ∀ itemId, itemId ∈ (setCandidate rows candidate).map (·.itemId) ↔
        itemId ∈ rows.map (·.itemId) ∨ itemId = candidate.itemId := by
      intro itemId
      rw [hkeys]
      split
      · rename_i hold
        exact ⟨.inl, fun hmem => hmem.elim id fun heq => heq ▸ hold⟩
      · rw [List.mem_append, List.mem_singleton]
    obtain ⟨hrest, hrestMem⟩ := ih (setCandidate rows candidate) hnodup
    refine ⟨hrest, fun itemId => ?_⟩
    rw [List.foldl_cons, hrestMem, hmem, List.map_cons, List.mem_cons, or_assoc]

/-- The items that the query lists. -/
def listedItems (db : Database) (body : BlastRadiusRequest) (queryId : Uuid) : List String :=
  (affectedRows db body queryId).map (·.itemId)

theorem listedItems_perm (db : Database) (body : BlastRadiusRequest) (queryId : Uuid) :
    (listedItems db body queryId).Perm ((Api.candidates db body).map (·.itemId)) := by
  rw [listedItems, affectedRows, List.map_map]
  exact (List.perm_insertionSort _ _).map _

/-- An item is listed exactly if one of its runs is exposed by what the projection has of its parameters. -/
theorem mem_listedItems {db : Database} (h : RunsProjected db) {body : BlastRadiusRequest}
    (hfactor : ReportedByRuns body.factorType) {queryId : Uuid} {itemId : String} :
    itemId ∈ listedItems db body queryId ↔
      ∃ runId start payload, InPeriod db itemId runId body start payload ∧
        ((body.factorType = .equipment ∧ payload.equipmentId = body.factorValue) ∨
          NamesFactor body (paramsOr payload.parameters
            ((lastFinishEvent (history db itemId) runId).bind (·.2.parameters)))) := by
  have hdevice : body.factorType ≠ .controlDevice := by
    rcases hfactor with h | h | h | h <;> rw [h] <;> decide
  rw [(listedItems_perm db body queryId).mem_iff, Api.candidates, if_neg hdevice,
    (foldl_setCandidate _ [] List.nodup_nil).2 itemId, List.map_map]
  simp only [List.map_nil, List.not_mem_nil, false_or, List.mem_map, List.mem_filter, Function.comp_apply]
  constructor
  · rintro ⟨row, ⟨hrow, hselected⟩, rfl⟩
    obtain ⟨run, hrun, hcolumns⟩ := (mem_projectedRuns h).mp hrow
    obtain ⟨start, payload, hexposed⟩ :=
      (row_selected hfactor ((runsRead_replay db row.itemId).read run hrun) hcolumns).mp hselected
    exact ⟨run.operationRunId, start, payload, hexposed⟩
  · rintro ⟨runId, start, payload, hperiod, hreports⟩
    obtain ⟨run, hrun, rfl⟩ := ((runsRead_replay db itemId).named runId).mpr (.inl (by rw [hperiod.started]; rfl))
    obtain ⟨row, hcolumns⟩ := row_of_run h hrun
    have hitem := (operationRunRow_columns hcolumns).1
    subst hitem
    exact ⟨row, ⟨(mem_projectedRuns h).mpr ⟨run, hrun, hcolumns⟩,
      (row_selected hfactor ((runsRead_replay db row.itemId).read run hrun) hcolumns).mpr
        ⟨start, payload, hperiod, hreports⟩⟩, rfl⟩

theorem paramsOr_of_names {body : BlastRadiusRequest} {params : Option Params} (h : NamesFactor body params)
    (other : Option Params) : paramsOr params other = params := by
  obtain ⟨key, -, hvalue⟩ := h
  cases params with
  | none => simp at hvalue
  | some fields =>
    cases fields with
    | nil => simp at hvalue
    | cons field rest => rfl

theorem paramsOr_of_empty {params : Option Params} (h : params.getD [] = []) (other : Option Params) :
    paramsOr params other = other := by
  cases params with
  | none => rfl
  | some fields =>
    cases fields with
    | nil => rfl
    | cons field rest => cases h

/-- The finished event of the run reports the factor value. -/
def FinishReports (db : Database) (itemId runId : String) (body : BlastRadiusRequest) : Prop :=
  ∃ finish, lastFinishEvent (history db itemId) runId = some finish ∧ NamesFactor body finish.2.parameters

theorem finishReports_iff {db : Database} {itemId runId : String} {body : BlastRadiusRequest} :
    FinishReports db itemId runId body ↔
      NamesFactor body ((lastFinishEvent (history db itemId) runId).bind (·.2.parameters)) := by
  unfold FinishReports
  cases lastFinishEvent (history db itemId) runId with
  | none => simp [NamesFactor]
  | some finish => simp

/-- Every listed item has an exposed run; every item is listed that has one whose start reports the value, or
whose finish reports it after a start without parameters; no item is listed twice. -/
theorem blast_radius_lists (threshold : ℕ) {t : RiskTables} (h : RunsProjected t.db)
    {body : BlastRadiusRequest} (hfactor : ReportedByRuns body.factorType) (userId : Uuid) :
    ∃ result : List BlastRadiusExposure,
      (blastRadius threshold t body userId).exposures = t.exposures ++ result ∧
      (result.map (·.itemId)).Nodup ∧
      (∀ itemId ∈ result.map (·.itemId), ∃ runId start payload,
        InPeriod t.db itemId runId body start payload ∧
          (StartReports body payload ∨ FinishReports t.db itemId runId body)) ∧
      ∀ itemId runId start payload, InPeriod t.db itemId runId body start payload →
        (StartReports body payload ∨
          (payload.parameters.getD [] = [] ∧ FinishReports t.db itemId runId body)) →
        itemId ∈ result.map (·.itemId) := by
  refine ⟨affectedRows t.db body t.db.nextId, rfl, ?_, fun itemId hmem => ?_,
    fun itemId runId start payload hperiod hreports => ?_⟩
  · have hdevice : body.factorType ≠ .controlDevice := by
      rcases hfactor with h | h | h | h <;> rw [h] <;> decide
    refine (listedItems_perm t.db body t.db.nextId).nodup_iff.mpr ?_
    rw [Api.candidates, if_neg hdevice]
    exact (foldl_setCandidate _ [] List.nodup_nil).1
  · obtain ⟨runId, start, payload, hperiod, hequipment | hnames⟩ := (mem_listedItems h hfactor).mp hmem
    · exact ⟨runId, start, payload, hperiod, .inl (.inl hequipment)⟩
    · refine ⟨runId, start, payload, hperiod, ?_⟩
      by_cases hempty : payload.parameters.getD [] = []
      · rw [paramsOr_of_empty hempty] at hnames
        exact .inr (finishReports_iff.mpr hnames)
      · refine .inl (.inr ?_)
        cases hparams : payload.parameters with
        | none => simp [hparams] at hempty
        | some fields =>
          rw [hparams] at hnames hempty
          cases fields with
          | nil => simp at hempty
          | cons field rest => exact hnames
  · refine (mem_listedItems h hfactor).mpr ⟨runId, start, payload, hperiod, ?_⟩
    rcases hreports with (hequipment | hnames) | ⟨hempty, hfinish⟩
    · exact .inl hequipment
    · exact .inr ((paramsOr_of_names hnames _).symm ▸ hnames)
    · exact .inr ((paramsOr_of_empty hempty _).symm ▸ finishReports_iff.mp hfinish)

/-- The runs are projected once the rows of every item with events are those of its replay. -/
theorem runsProjected_of_synced {db : Database} (hdb : Reachable db)
    (h : ∀ itemId, history db itemId ≠ [] → Synced db itemId) : RunsProjected db := by
  intro itemId
  by_cases hraws : history db itemId = []
  · have hnone : ownedBy (·.itemId) itemId db.operationRuns = [] := by
      refine List.eq_nil_iff_forall_not_mem.mpr fun row hrow => ?_
      obtain ⟨hmem, rfl⟩ := mem_ownedBy.mp hrow
      obtain ⟨raw, hraw, -⟩ := (reachable_rows hdb).operationRuns row hmem
      rw [← mem_history, hraws] at hraw
      cases hraw
    rw [replay_of_no_history hraws, hnone]
    rfl
  · obtain ⟨-, hrows⟩ := h itemId hraws
    obtain ⟨runs, hruns, heq⟩ := map_ok.mp hrows
    rw [hruns]
    exact congrArg Except.ok (congrArg ProjectedRows.operationRuns heq :)

/-! ### A run that goes on -/

/-- A run with tool T-1. -/
def turningWithTool : EventEnvelope where
  eventId := "e-1"
  occurredAt := 10
  source := { sourceId := "mes-1", sourceType := "mes" }
  itemId := some "item-1"
  operationRunId := some "run-1"
  payload := .operationStarted
    { operationId := "OP-TURN"
      operatorId := "operator-1"
      equipmentId := "lathe-1"
      stationId := "station-1"
      parameters := some [("tool_id", .str "T-1")] }

def underway : List Call := [.rebuild "item-1", .ingest turningWithTool 11]

theorem turning_projected : RunsProjected (rebuildOrMark (run {} underway) "item-1") := by
  have hdb : Reachable (run {} underway) := ⟨{}, _, ⟨{}, _, rfl⟩, rfl⟩
  have hrebuild : rebuildItem (run {} underway) "item-1" = .ok (rebuildOrMark (run {} underway) "item-1") :=
    rebuildItem_rebuildOrMark (by decide +kernel)
  have hwf := (reachable_sound hdb).toWellFormed
  have hhistory : history (run {} underway) "item-1" ≠ [] := by decide +kernel
  refine runsProjected_of_synced (reachable_rebuild hdb hrebuild) fun itemId hraws => ?_
  obtain ⟨raw, hraw⟩ := List.exists_mem_of_ne_nil _ hraws
  have hitem : ∀ raw ∈ (rebuildOrMark (run {} underway) "item-1").rawEvents, raw.itemId = some "item-1" := by
    decide +kernel
  obtain ⟨hmem, hraw⟩ := List.mem_filter.mp (mem_history.mp hraw)
  obtain rfl : "item-1" = itemId := Option.some.inj ((hitem raw hmem).symm.trans (of_decide_eq_true hraw))
  exact rebuildItem_synced hwf hrebuild hhistory

/-- Everything that tool T-1 touched from 20 to 30. -/
def toolQuery : BlastRadiusRequest where
  factorType := .tool
  factorValue := "T-1"
  affectedFrom := 20
  affectedTo := 30
  rationale := "chipped edge"

theorem blast_radius_lists_turning : ∃ result : List BlastRadiusExposure,
    (blastRadius 5 { db := rebuildOrMark (run {} underway) "item-1" } toolQuery 100).exposures = [] ++ result ∧
      (result.map (·.itemId)).Nodup ∧ "item-1" ∈ result.map (·.itemId) := by
  obtain ⟨result, hresult, hnodup, -, hlisted⟩ := @blast_radius_lists 5
    { db := rebuildOrMark (run {} underway) "item-1" } turning_projected toolQuery (.inl rfl) 100
  obtain ⟨raw, payload, hstarted, hbefore, htool⟩ : ∃ raw payload,
      lastStartEvent (history (rebuildOrMark (run {} underway) "item-1") "item-1") "run-1" =
          some (raw, payload) ∧
        raw.occurredAt ≤ 30 ∧ payload.parameters = some [("tool_id", .str "T-1")] :=
    ⟨_, _, rfl, by decide +kernel, rfl⟩
  have hunfinished : lastFinishEvent (history (rebuildOrMark (run {} underway) "item-1") "item-1") "run-1" =
      none := by
    decide +kernel
  have hperiod : InPeriod (rebuildOrMark (run {} underway) "item-1") "item-1" "run-1" toolQuery raw payload := by
    refine ⟨hstarted, hbefore, fun finish hfinish => ?_⟩
    rw [hunfinished] at hfinish
    cases hfinish
  have hreports : StartReports toolQuery payload := .inr ⟨"tool_id", rfl, by rw [htool]; rfl⟩
  exact ⟨result, hresult, hnodup, hlisted "item-1" "run-1" raw payload hperiod (.inl hreports)⟩

/-- A listed item need not have a finished run. -/
theorem blast_radius_unfinished : ¬ ∀ (threshold : ℕ) (t : RiskTables) (body : BlastRadiusRequest) (userId : Uuid),
    RunsProjected t.db → ReportedByRuns body.factorType → ∃ result : List BlastRadiusExposure,
      (blastRadius threshold t body userId).exposures = t.exposures ++ result ∧
      (result.map (·.itemId)).Nodup ∧
      ∀ itemId, itemId ∈ result.map (·.itemId) ↔ ∃ runId start payload finish,
        InPeriod t.db itemId runId body start payload ∧
        lastFinishEvent (history t.db itemId) runId = some finish ∧
          (StartReports body payload ∨ NamesFactor body finish.2.parameters) := by
  intro h
  obtain ⟨result, hresult, -, hlisted⟩ := h 5 { db := rebuildOrMark (run {} underway) "item-1" } toolQuery 100
    turning_projected (.inl rfl)
  have hitems : ((blastRadius 5 { db := rebuildOrMark (run {} underway) "item-1" } toolQuery 100).exposures).map
      (·.itemId) = ["item-1"] := by decide +kernel
  rw [hresult, List.nil_append] at hitems
  obtain ⟨runId, -, -, finish, -, hfinish, -⟩ := (hlisted "item-1").mp (hitems ▸ List.mem_cons_self)
  have hunfinished : (history (rebuildOrMark (run {} underway) "item-1") "item-1").filterMap (finishedBy runId) =
      [] := by
    have hpayloads : ∀ raw ∈ history (rebuildOrMark (run {} underway) "item-1") "item-1",
        raw.payload = turningWithTool.payload := by decide +kernel
    refine List.filterMap_eq_nil_iff.mpr fun raw hraw => ?_
    simp only [finishedBy, hpayloads raw hraw, turningWithTool]
  rw [lastFinishEvent, hunfinished] at hfinish
  cases hfinish

end TraceQ.Properties
