import TraceQ.Backend.Frames
import TraceQ.Backend.Sources
import TraceQ.Projections.ItemProjection

/-! # Where the projected rows come from

Every projected row belongs to the item of the stored event it was made from: an observation, a machine
event and an operator action carry its id, a run is one that it names.
-/
namespace TraceQ.Backend
open Projections Ingestion Api Quality Tables Results
set_option autoImplicit false
set_option maxHeartbeats 250000

/-! ## What a replay collects -/

/-- The events the collected values were made from. -/
structure FromEvents (raws : List RawEvent) (values : ReplayValues) : Prop where
  operations : ∀ run ∈ values.operations, ∃ raw ∈ raws, raw.operationRunId = some run.operationRunId ∧
    raw.payload.needsRun = true
  observations : ∀ obs ∈ values.observations, ∃ raw ∈ raws, raw.eventId = obs.eventId ∧
    raw.payload = .inspectionResult obs.payload ∧ raw.occurredAt = obs.occurredAt
  machineEvents : ∀ machine ∈ values.machineEvents, ∃ raw ∈ raws, raw.eventId = machine.eventId
  operatorActions : ∀ action ∈ values.operatorActions, ∃ raw ∈ raws, raw.eventId = action.eventId

/-- An update of the run of an event keeps where the runs come from. -/
theorem operations_updateRun {raws : List RawEvent} {values : ReplayValues} (h : FromEvents raws values)
    {raw : RawEvent} (hraw : raw ∈ raws) (hrun : raw.payload.needsRun = true)
    {f : OperationValue → OperationValue} (hf : ∀ run, (f run).operationRunId = run.operationRunId) :
    ∀ run ∈ updateRun raw f values.operations, ∃ raw ∈ raws,
      raw.operationRunId = some run.operationRunId ∧ raw.payload.needsRun = true := by
  intro run hmem
  unfold updateRun at hmem
  split at hmem
  · exact h.operations run hmem
  · rename_i runId hid
    by_cases hown : run.operationRunId = runId
    · exact ⟨raw, hraw, by rw [hid, hown], hrun⟩
    · have hblank : ({ operationRunId := runId } : OperationValue).operationRunId = runId := rfl
      exact h.operations run ((mem_upsert_other hblank hf hown).mp hmem)

theorem fromEvents_replayEvent {db : Database} {raws : List RawEvent} {values : ReplayValues}
    (h : FromEvents raws values) {raw : RawEvent} (hraw : raw ∈ raws) :
    FromEvents raws (replayEvent db values raw) := by
  cases hpayload : raw.payload with
  | itemRegistered payload =>
    simp only [replayEvent, hpayload]
    exact ⟨h.operations, h.observations, h.machineEvents, h.operatorActions⟩
  | operationStarted payload =>
    simp only [replayEvent, hpayload]
    exact ⟨operations_updateRun h hraw (by rw [hpayload]; rfl) fun _ => rfl, h.observations,
      h.machineEvents, h.operatorActions⟩
  | operationFinished payload =>
    simp only [replayEvent, hpayload]
    exact ⟨operations_updateRun h hraw (by rw [hpayload]; rfl) fun _ => rfl, h.observations,
      h.machineEvents, h.operatorActions⟩
  | inspectionResult payload =>
    simp only [replayEvent, hpayload]
    refine ⟨h.operations, fun obs hobs => ?_, h.machineEvents, h.operatorActions⟩
    rcases List.mem_append.mp hobs with hold | hnew
    · exact h.observations obs hold
    · rw [List.mem_singleton.mp hnew]
      exact ⟨raw, hraw, rfl, hpayload, rfl⟩
  | machineState payload =>
    simp only [replayEvent, hpayload]
    refine ⟨h.operations, h.observations, fun machine hmachine => ?_, h.operatorActions⟩
    rcases List.mem_append.mp hmachine with hold | hnew
    · exact h.machineEvents machine hold
    · rw [List.mem_singleton.mp hnew]
      exact ⟨raw, hraw, rfl⟩
  | operatorAction payload =>
    simp only [replayEvent, hpayload]
    refine ⟨h.operations, h.observations, h.machineEvents, fun action haction => ?_⟩
    rcases List.mem_append.mp haction with hold | hnew
    · exact h.operatorActions action hold
    · rw [List.mem_singleton.mp hnew]
      exact ⟨raw, hraw, rfl⟩
  | controlDeviceInvalidated payload =>
    simp only [replayEvent, hpayload]
    exact h

theorem fromEvents_foldl {db : Database} {all raws : List RawEvent} {values : ReplayValues}
    (h : FromEvents all values) (hsub : raws ⊆ all) :
    FromEvents all (raws.foldl (replayEvent db) values) := by
  induction raws generalizing values with
  | nil => exact h
  | cons raw rest ih =>
    exact ih (fromEvents_replayEvent h (hsub List.mem_cons_self))
      fun other hother => hsub (List.mem_cons_of_mem _ hother)

theorem fromEvents_replay (db : Database) (itemId : String) :
    FromEvents (storedEvents db itemId) (replay db itemId) := by
  have hstart : FromEvents (storedEvents db itemId) {} := by constructor <;> simp
  have hsub : history db itemId ⊆ storedEvents db itemId := fun raw hraw => mem_history.mp hraw
  have hfold : FromEvents (storedEvents db itemId) ((history db itemId).foldl (replayEvent db) {}) :=
    fromEvents_foldl hstart hsub
  unfold replay
  refine ⟨hfold.operations, fun obs hobs => ?_, hfold.machineEvents, hfold.operatorActions⟩
  obtain ⟨old, hold, hpayload, hid, htime⟩ := mem_markConflicts hobs
  rw [hpayload, hid, htime]
  exact hfold.observations old hold

/-! ## Rows -/

structure RowsStored (db : Database) : Prop where
  operationRuns : ∀ row ∈ db.operationRuns, ∃ raw ∈ storedEvents db row.itemId,
    raw.operationRunId = some row.operationRunId ∧ raw.payload.needsRun = true
  observations : ∀ row ∈ db.observations, row.id = ⟨row.eventId⟩ ∧
    ∃ raw ∈ storedEvents db row.itemId, raw.eventId = row.eventId
  defectObservations : ∀ row ∈ db.defectObservations,
    ∃ raw ∈ storedEvents db row.itemId, raw.eventId = row.observationId.eventId
  machineEvents : ∀ row ∈ db.machineEvents, ∃ raw ∈ storedEvents db row.itemId, raw.eventId = row.eventId
  operatorActions : ∀ row ∈ db.operatorActions,
    ∃ raw ∈ storedEvents db row.itemId, raw.eventId = row.eventId

theorem RowsStored.keeps {db db' : Database} (h : RowsStored db) (hrows : SameRows db db')
    (hraws : db.rawEvents <+: db'.rawEvents) : RowsStored db' := by
  have hkept : ∀ {itemId : String} {raw : RawEvent}, raw ∈ storedEvents db itemId →
      raw ∈ storedEvents db' itemId := fun hraw => (hraws.sublist.filter _).subset hraw
  refine ⟨fun row hrow => ?_, fun row hrow => ?_, fun row hrow => ?_, fun row hrow => ?_,
    fun row hrow => ?_⟩
  · obtain ⟨raw, hraw, hid⟩ := h.operationRuns row (hrows.operationRuns ▸ hrow)
    exact ⟨raw, hkept hraw, hid⟩
  · obtain ⟨hrowId, raw, hraw, hid⟩ := h.observations row (hrows.observations ▸ hrow)
    exact ⟨hrowId, raw, hkept hraw, hid⟩
  · obtain ⟨raw, hraw, hid⟩ := h.defectObservations row (hrows.defectObservations ▸ hrow)
    exact ⟨raw, hkept hraw, hid⟩
  · obtain ⟨raw, hraw, hid⟩ := h.machineEvents row (hrows.machineEvents ▸ hrow)
    exact ⟨raw, hkept hraw, hid⟩
  · obtain ⟨raw, hraw, hid⟩ := h.operatorActions row (hrows.operatorActions ▸ hrow)
    exact ⟨raw, hkept hraw, hid⟩

/-- A row of a table whose rows of one item are written anew is an old one or a new one. -/
theorem mem_replaceOwned {α : Type} {ownerOf : α → String} {itemId : String} {rows fresh : List α}
    {row : α} (h : row ∈ replaceOwned ownerOf itemId rows fresh) : row ∈ rows ∨ row ∈ fresh := by
  rcases List.mem_append.mp h with hold | hnew
  · exact .inl (List.mem_of_mem_filter hold)
  · exact .inr hnew

theorem operationRunRows_mem {itemId : String} {runs : List OperationValue} {rows : List OperationRun}
    (h : operationRunRows itemId runs = .ok rows) :
    rows.map (·.operationRunId) = runs.map (·.operationRunId) := by
  induction runs generalizing rows with
  | nil =>
    rw [operationRunRows] at h
    rw [← Except.ok.inj h]
    rfl
  | cons run rest ih =>
    rw [operationRunRows] at h
    obtain ⟨row, hrow, h⟩ := bind_ok.mp h
    obtain ⟨others, hothers, h⟩ := bind_ok.mp h
    obtain ⟨rework, -, hrow⟩ := bind_ok.mp hrow
    rw [← pure_ok.mp h, List.map_cons, List.map_cons, ih hothers, ← pure_ok.mp hrow]

theorem storeProjection_stored {db stored : Database} (h : RowsStored db) {itemId : String}
    (hstored : storeProjection db itemId (replay db itemId) = .ok stored) : RowsStored stored := by
  obtain ⟨runs, hruns, rfl⟩ := storeProjection_ok hstored
  have hvalues := fromEvents_replay db itemId
  refine ⟨fun row hrow => ?_, fun row hrow => ?_, fun row hrow => ?_, fun row hrow => ?_,
    fun row hrow => ?_⟩
  · rcases mem_replaceOwned hrow with hold | hnew
    · exact h.operationRuns row hold
    · have hid : row.operationRunId ∈ (replay db itemId).operations.map (·.operationRunId) := by
        rw [← operationRunRows_mem hruns]
        exact List.mem_map_of_mem hnew
      obtain ⟨run, hrun, hid⟩ := List.mem_map.mp hid
      obtain ⟨raw, hraw, hrawId, hneeds⟩ := hvalues.operations run hrun
      rw [operationRunRows_item hruns row hnew, ← hid]
      exact ⟨raw, hraw, hrawId, hneeds⟩
  · rcases mem_replaceOwned hrow with hold | hnew
    · exact h.observations row hold
    · obtain ⟨obs, hobs, rfl⟩ := List.mem_map.mp hnew
      obtain ⟨raw, hraw, hid, -⟩ := hvalues.observations obs hobs
      exact ⟨rfl, raw, hraw, hid⟩
  · rcases mem_replaceOwned hrow with hold | hnew
    · exact h.defectObservations row hold
    · obtain ⟨obs, hobs, hlisted⟩ := List.mem_flatMap.mp hnew
      obtain ⟨defect, -, rfl⟩ := List.mem_map.mp hlisted
      obtain ⟨raw, hraw, hid, -⟩ := hvalues.observations obs hobs
      exact ⟨raw, hraw, hid⟩
  · rcases mem_replaceOwned hrow with hold | hnew
    · exact h.machineEvents row hold
    · obtain ⟨machine, hmachine, rfl⟩ := List.mem_map.mp hnew
      exact hvalues.machineEvents machine hmachine
  · rcases mem_replaceOwned hrow with hold | hnew
    · exact h.operatorActions row hold
    · obtain ⟨action, haction, rfl⟩ := List.mem_map.mp hnew
      exact hvalues.operatorActions action haction

theorem rebuildItem_stored {db db' : Database} (hwf : WellFormed db) (h : RowsStored db)
    {itemId : String} (hrebuild : rebuildItem db itemId = .ok db') : RowsStored db' := by
  by_cases hraws : history db itemId = []
  · rcases rebuildItem_cases hrebuild with ⟨-, rfl⟩ | ⟨hne, -⟩
    · exact h.keeps ⟨rfl, rfl, rfl, rfl, rfl⟩ List.prefix_rfl
    · exact absurd hraws hne
  · obtain ⟨stored, hstored, hrows, -⟩ := rebuildItem_stores hwf hrebuild hraws
    refine (storeProjection_stored h hstored).keeps hrows ?_
    obtain ⟨runs, -, rfl⟩ := storeProjection_ok hstored
    exact rebuildItem_rawEvents hwf hrebuild ▸ List.prefix_rfl

/-! ## Observations after a rebuild -/

section Rebuild
variable {db db' : Database} (hwf : WellFormed db) {target : String}
  (h : rebuildItem db target = .ok db')
include hwf h

theorem rebuildItem_observations (hraws : history db target ≠ []) :
    ownedBy (·.itemId) target db'.observations =
        (replay db target).observations.map (observationRow target) ∧
      ownedBy (·.itemId) target db'.defectObservations =
        (replay db target).observations.flatMap (defectObservationRows target) := by
  obtain ⟨stored, hstored, hrows, -⟩ := rebuildItem_stores hwf h hraws
  obtain ⟨runs, -, rfl⟩ := storeProjection_ok hstored
  rw [hrows.observations, hrows.defectObservations]
  exact ⟨ownedBy_replaceOwned_self (observationRows_item target _) _,
    ownedBy_replaceOwned_self (defectObservationRows_item target _) _⟩

theorem rebuildItem_observations_other {itemId : String} (hother : itemId ≠ target) :
    ownedBy (·.itemId) itemId db'.observations = ownedBy (·.itemId) itemId db.observations ∧
      ownedBy (·.itemId) itemId db'.defectObservations =
        ownedBy (·.itemId) itemId db.defectObservations := by
  by_cases hraws : history db target = []
  · rcases rebuildItem_cases h with ⟨-, rfl⟩ | ⟨hne, -⟩
    · exact ⟨rfl, rfl⟩
    · exact absurd hraws hne
  · obtain ⟨stored, hstored, hrows, -⟩ := rebuildItem_stores hwf h hraws
    obtain ⟨runs, -, rfl⟩ := storeProjection_ok hstored
    rw [hrows.observations, hrows.defectObservations]
    exact ⟨ownedBy_replaceOwned_other hother (observationRows_item target _) _,
      ownedBy_replaceOwned_other hother (defectObservationRows_item target _) _⟩

end Rebuild

/-! ## Every reachable state -/

theorem rowsStored_initial (config : Configuration) (order : InsertOrder) :
    RowsStored { config := config, insertOrder := order } := by
  constructor <;> simp

theorem exec_stored {db : Database} (hs : Sound db) (h : RowsStored db) (call : Call) :
    RowsStored (exec db call).1 := by
  cases exec_frame hs call with
  | ingested event receivedAt result _ hingest =>
    refine h.keeps ?_ (ingest_quiet hingest).rawEvents
    rcases ingestEvent_cases hingest with ⟨_, -, -, heq, -⟩ | ⟨-, -, hout, -, -⟩
    · rw [heq]
      exact ⟨rfl, rfl, rfl, rfl, rfl⟩
    · exact ⟨(congrArg Database.operationRuns hout :), (congrArg Database.observations hout :),
        (congrArg Database.defectObservations hout :), (congrArg Database.machineEvents hout :),
        (congrArg Database.operatorActions hout :)⟩
  | rebuilt itemId _ hrebuild => exact rebuildItem_stored hs.toWellFormed h hrebuild
  | failed itemId error _ _ hmarked =>
    rw [hmarked]
    exact h.keeps ⟨rfl, rfl, rfl, rfl, rfl⟩ List.prefix_rfl
  | invalidated body userId _ heq =>
    rw [heq]
    refine (rebuildAll_invariant (P := fun m => WellFormed m ∧ RowsStored m) ?_ ?_ ?_ _).2
    · rintro m n itemId ⟨hm, hrows⟩ hn
      exact ⟨rebuildItem_wellFormed hm hn, rebuildItem_stored hm hrows hn⟩
    · exact ⟨hs.toWellFormed, h⟩
    · exact ⟨wellFormed_congr hs.toWellFormed rfl rfl rfl le_rfl,
        h.keeps ⟨rfl, rfl, rfl, rfl, rfl⟩ List.prefix_rfl⟩
  | configured config _ heq =>
    rw [heq]
    exact h.keeps ⟨rfl, rfl, rfl, rfl, rfl⟩ List.prefix_rfl
  | other hsame => exact h.keeps hsame.toSameRows (hsame.rawEvents ▸ List.prefix_rfl)

theorem reachable_rows {db : Database} (h : Reachable db) : RowsStored db := by
  refine (Machine.reachable_invariant (P := fun m => Sound m ∧ RowsStored m) ?_ ?_ h).2
  · rintro m ⟨config, order, rfl⟩
    exact ⟨sound_initial ⟨config, order, rfl⟩, rowsStored_initial config order⟩
  · rintro m call ⟨hs, hm⟩
    exact ⟨exec_sound hs call, exec_stored hs hm call⟩

end TraceQ.Backend
