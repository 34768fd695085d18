import TraceQ.Projections.ReplayMeaning

/-! # The projected rows of one item

The rows of an item are a function of its replay. A rebuild of the item makes them so, and they stay
so under rebuilds of any item and under invalidations that cover none of its observations.
-/
namespace TraceQ.Projections
open Quality Tables Results
set_option autoImplicit false
set_option maxHeartbeats 250000

structure ProjectedRows where
  operationRuns : List OperationRun
  observations : List Observation
  machineEvents : List MachineEvent
  operatorActions : List OperatorAction

/-- The rows the database holds for the item. -/
def projectedRows (db : Database) (itemId : String) : ProjectedRows where
  operationRuns := ownedBy (·.itemId) itemId db.operationRuns
  observations := ownedBy (·.itemId) itemId db.observations
  machineEvents := ownedBy (·.itemId) itemId db.machineEvents
  operatorActions := ownedBy (·.itemId) itemId db.operatorActions

/-- The rows a replay writes. -/
def rowsOf (itemId : String) (values : ReplayValues) : Except ReplayError ProjectedRows :=
  (operationRunRows itemId values.operations).map fun runs =>
    { operationRuns := runs
      observations := values.observations.map (observationRow itemId)
      machineEvents := values.machineEvents.map (machineEventRow itemId)
      operatorActions := values.operatorActions.map (operatorActionRow itemId) }

/-- The rows of the item are those of its replay. -/
def Synced (db : Database) (itemId : String) : Prop :=
  history db itemId ≠ [] ∧ rowsOf itemId (replay db itemId) = .ok (projectedRows db itemId)

theorem projectedRows_congr {db db' : Database} (h : SameRows db db') (itemId : String) :
    projectedRows db' itemId = projectedRows db itemId := by
  simp only [projectedRows, h.operationRuns, h.observations, h.machineEvents, h.operatorActions]

/-! ## One rebuild -/

section Rebuild
variable {db db' : Database} (hwf : WellFormed db) {target : String}
  (h : rebuildItem db target = .ok db')
include hwf h

/-- The rows of the rebuilt item are those of the replay. -/
theorem rebuildItem_rows (hraws : history db target ≠ []) :
    rowsOf target (replay db target) = .ok (projectedRows db' target) := by
  obtain ⟨stored, hstored, hrows, -⟩ := rebuildItem_stores hwf h hraws
  obtain ⟨runs, hruns, rfl⟩ := storeProjection_ok hstored
  rw [projectedRows_congr hrows, rowsOf, hruns]
  simp only [Except.map, projectedRows]
  rw [ownedBy_replaceOwned_self (operationRunRows_item hruns),
    ownedBy_replaceOwned_self (observationRows_item target _),
    ownedBy_replaceOwned_self (machineEventRows_item target _),
    ownedBy_replaceOwned_self (operatorActionRows_item target _)]

/-- The rows of another item stay. -/
theorem rebuildItem_rows_other {itemId : String} (hother : itemId ≠ target) :
    projectedRows db' itemId = projectedRows db itemId := by
  by_cases hraws : history db target = []
  · rcases rebuildItem_cases h with ⟨-, rfl⟩ | ⟨hne, -⟩
    · rfl
    · exact absurd hraws hne
  · obtain ⟨stored, hstored, hrows, -⟩ := rebuildItem_stores hwf h hraws
    obtain ⟨runs, hruns, rfl⟩ := storeProjection_ok hstored
    rw [projectedRows_congr hrows]
    simp only [projectedRows]
    rw [ownedBy_replaceOwned_other hother (operationRunRows_item hruns),
      ownedBy_replaceOwned_other hother (observationRows_item target _),
      ownedBy_replaceOwned_other hother (machineEventRows_item target _),
      ownedBy_replaceOwned_other hother (operatorActionRows_item target _)]

/-- Without events a rebuild writes no row. -/
theorem rebuildItem_rows_empty {itemId : String} (hempty : history db itemId = []) :
    projectedRows db' itemId = projectedRows db itemId := by
  by_cases hitem : itemId = target
  · subst hitem
    rcases rebuildItem_cases h with ⟨-, rfl⟩ | ⟨hne, -⟩
    · rfl
    · exact absurd hempty hne
  · exact rebuildItem_rows_other hwf h hitem

theorem rebuildItem_synced (hraws : history db target ≠ []) : Synced db' target := by
  have hout := rebuildItem_outside hwf h
  refine ⟨by rwa [history_of_outside hout], ?_⟩
  rw [replay_of_outside hout]
  exact rebuildItem_rows hwf h hraws

theorem Synced.rebuild {itemId : String} (hsynced : Synced db itemId) : Synced db' itemId := by
  by_cases hitem : itemId = target
  · subst hitem
    exact rebuildItem_synced hwf h hsynced.1
  · have hout := rebuildItem_outside hwf h
    refine ⟨by rw [history_of_outside hout]; exact hsynced.1, ?_⟩
    rw [replay_of_outside hout, rebuildItem_rows_other hwf h hitem]
    exact hsynced.2

end Rebuild

/-! ## A loop of rebuilds -/

section Loop
variable {db db' : Database} (hwf : WellFormed db) {targets : List String}
  (h : targets.foldlM rebuildItem db = .ok db')
include hwf h

theorem rebuilds_outside : WellFormed db' ∧ outsideProjection db' = outsideProjection db := by
  refine foldlM_invariant (P := fun m => WellFormed m ∧
    outsideProjection m = outsideProjection db) ?_ h ⟨hwf, rfl⟩
  rintro target - m n ⟨hm, hout⟩ hn
  exact ⟨rebuildItem_wellFormed hm hn, (rebuildItem_outside hm hn).trans hout⟩

theorem Synced.rebuilds {itemId : String} (hsynced : Synced db itemId) : Synced db' itemId := by
  refine (foldlM_invariant (P := fun m => WellFormed m ∧ Synced m itemId) ?_ h ⟨hwf, hsynced⟩).2
  rintro target - m n ⟨hm, hms⟩ hn
  exact ⟨rebuildItem_wellFormed hm hn, hms.rebuild hm hn⟩

theorem rebuilds_rows_other {itemId : String} (hother : itemId ∉ targets) :
    projectedRows db' itemId = projectedRows db itemId := by
  refine (foldlM_invariant (P := fun m => WellFormed m ∧
    projectedRows m itemId = projectedRows db itemId) ?_ h ⟨hwf, rfl⟩).2
  rintro target hmem m n ⟨hm, hrows⟩ hn
  refine ⟨rebuildItem_wellFormed hm hn, (rebuildItem_rows_other hm hn ?_).trans hrows⟩
  rintro rfl
  exact hother hmem

theorem rebuilds_rows_empty {itemId : String} (hempty : history db itemId = []) :
    projectedRows db' itemId = projectedRows db itemId := by
  refine (foldlM_invariant (P := fun m => WellFormed m ∧ history m itemId = [] ∧
    projectedRows m itemId = projectedRows db itemId) ?_ h ⟨hwf, hempty, rfl⟩).2.2
  rintro target - m n ⟨hm, hnone, hrows⟩ hn
  refine ⟨rebuildItem_wellFormed hm hn, ?_, (rebuildItem_rows_empty hm hn hnone).trans hrows⟩
  rw [history_of_outside (rebuildItem_outside hm hn)]
  exact hnone

/-- A loop that rebuilds the item leaves its rows in sync. -/
theorem rebuilds_synced {itemId : String} (hmem : itemId ∈ targets)
    (hraws : history db itemId ≠ []) : Synced db' itemId := by
  obtain ⟨front, rest, rfl⟩ := List.append_of_mem hmem
  obtain ⟨m, hfront, hm⟩ := foldlM_append_ok.mp h
  obtain ⟨n, hn, hrest⟩ := foldlM_cons_ok.mp hm
  obtain ⟨hwfm, hout⟩ := rebuilds_outside hwf hfront
  have hsynced : Synced n itemId := by
    refine rebuildItem_synced hwfm hn ?_
    rw [history_of_outside hout]
    exact hraws
  exact hsynced.rebuilds (rebuildItem_wellFormed hwfm hn) hrest

end Loop

/-! ## Invalidations that miss the item -/

theorem deviceInvalidated_append {old new : List ControlDeviceInvalidation}
    {deviceId : Option String} {time : Instant}
    (hmiss : ∀ record ∈ new, invalidationCovers record deviceId time = false) :
    deviceInvalidated (old ++ new) deviceId time = deviceInvalidated old deviceId time := by
  have hnone : (new.any fun record => invalidationCovers record deviceId time) = false := by
    rw [List.any_eq_false]
    intro record hrecord
    rw [hmiss record hrecord]
    decide
  rw [deviceInvalidated, deviceInvalidated, List.any_append, hnone, Bool.or_false]

/-- The observation row of a stored inspection. -/
theorem row_of_inspection {db : Database} {itemId : String} {raw : RawEvent}
    {payload : InspectionResultPayload} (hraw : raw ∈ history db itemId)
    (hpayload : raw.payload = .inspectionResult payload) :
    ∃ row ∈ (replay db itemId).observations.map (observationRow itemId),
      row.controlDeviceId = payload.controlDeviceId ∧ row.occurredAt = raw.occurredAt := by
  have hmem : observationValue db raw payload ∈ (history db itemId).filterMap (inspected db) :=
    List.mem_filterMap.mpr ⟨raw, hraw, by simp only [inspected, hpayload]⟩
  rw [replay_observations]
  refine ⟨_, List.mem_map_of_mem (List.mem_map_of_mem hmem), ?_⟩
  split <;> exact ⟨rfl, rfl⟩

/-- New invalidations that cover no observation of a synced item leave its replay alone. -/
theorem Synced.replay_missed {db db' : Database} {itemId : String} (hsynced : Synced db itemId)
    {new : List ControlDeviceInvalidation} (hhistory : history db' itemId = history db itemId)
    (hconfig : db'.config = db.config)
    (hinv : db'.controlDeviceInvalidations = db.controlDeviceInvalidations ++ new)
    (hmiss : ∀ record ∈ new, ∀ obs ∈ db.observations, obs.itemId = itemId →
      invalidationCovers record obs.controlDeviceId obs.occurredAt = false) :
    replay db' itemId = replay db itemId := by
  obtain ⟨runs, -, hrows⟩ := map_ok.mp hsynced.2
  have hobs : (replay db itemId).observations.map (observationRow itemId) =
      ownedBy (·.itemId) itemId db.observations := congrArg ProjectedRows.observations hrows
  have hvalue : ∀ raw ∈ history db itemId, ∀ payload, raw.payload = .inspectionResult payload →
      observationValue db' raw payload = observationValue db raw payload := by
    intro raw hraw payload hpayload
    obtain ⟨row, hrow, hdevice, htime⟩ := row_of_inspection hraw hpayload
    rw [hobs] at hrow
    obtain ⟨hmem, hitem⟩ := mem_ownedBy.mp hrow
    rw [observationValue, observationValue, hconfig, hinv, deviceInvalidated_append]
    intro record hrecord
    rw [← hdevice, ← htime]
    exact hmiss record hrecord row hmem hitem
  have hstep : ∀ values, ∀ raw ∈ history db itemId,
      replayEvent db' values raw = replayEvent db values raw := by
    intro values raw hraw
    cases hpayload : raw.payload with
    | inspectionResult payload =>
      simp only [replayEvent, hpayload, hvalue raw hraw payload hpayload]
    | _ => simp only [replayEvent, hpayload]
  rw [replay, replay, hhistory, List.foldl_ext _ _ _ hstep]

end TraceQ.Projections
