import TraceQ.Backend.RowSources
import TraceQ.Projections.RebuildOutcome

/-! # Which items can be rebuilt

Events have unique ids, so the rows that carry the id of an event never collide in a reachable state. What is
left of the reasons for a rebuild to fail is decided by the runs and the inspections of the item.
-/
namespace TraceQ.Backend
open Projections Ingestion Api Quality Tables Results
set_option autoImplicit false
set_option maxHeartbeats 250000

/-! ## Ids of the collected values -/

/-- Collections to which every event adds at most one value with its own id have the ids of events. -/
theorem foldl_ids {db : Database} {c : ReplayValues → List String}
    (h : ∀ values raw, c (replayEvent db values raw) = c values ∨
      c (replayEvent db values raw) = c values ++ [raw.eventId]) (raws : List RawEvent)
    (values : ReplayValues) : ∃ ids, ids.Sublist (raws.map (·.eventId)) ∧
      c (raws.foldl (replayEvent db) values) = c values ++ ids := by
  induction raws generalizing values with
  | nil => exact ⟨[], List.nil_sublist _, by simp⟩
  | cons raw rest ih =>
    obtain ⟨ids, hsub, hids⟩ := ih (replayEvent db values raw)
    rcases h values raw with hsame | hadded
    · exact ⟨ids, hsub.cons _, by rw [List.foldl_cons, hids, hsame]⟩
    · refine ⟨raw.eventId :: ids, hsub.cons_cons _, ?_⟩
      rw [List.foldl_cons, hids, hadded, List.append_assoc, List.singleton_append]

/-- Such a collection has no id twice where the events have none. -/
theorem foldl_ids_nodup {db : Database} {c : ReplayValues → List String} (hempty : c {} = [])
    (h : ∀ values raw, c (replayEvent db values raw) = c values ∨
      c (replayEvent db values raw) = c values ++ [raw.eventId]) (hs : Sources db)
    (itemId : String) : (c ((history db itemId).foldl (replayEvent db) {})).Nodup := by
  obtain ⟨ids, hsub, hids⟩ := foldl_ids h (history db itemId) {}
  have hhistory : ((history db itemId).map (·.eventId)).Nodup := by
    have hperm : (history db itemId).Perm (storedEvents db itemId) := List.perm_insertionSort _ _
    have hstored : ((storedEvents db itemId).map (·.eventId)).Nodup :=
      hs.event_ids.sublist (List.filter_sublist.map _)
    exact (hperm.map _).nodup_iff.mpr hstored
  rw [hids, hempty, List.nil_append]
  exact hhistory.sublist hsub

theorem observations_nodup {db : Database} (hs : Sources db) (itemId : String) :
    ((replay db itemId).observations.map (·.eventId)).Nodup := by
  have hmarked : ((replay db itemId).observations.map (·.eventId)) =
      ((history db itemId).foldl (replayEvent db) {}).observations.map (·.eventId) := by
    simp only [replay, markConflicts, List.map_map]
    refine List.map_congr_left fun obs _ => ?_
    simp only [Function.comp_apply]
    split <;> rfl
  rw [hmarked]
  refine foldl_ids_nodup (c := fun values => values.observations.map (·.eventId)) rfl ?_ hs itemId
  intro values raw
  cases hpayload : raw.payload <;> simp [replayEvent, hpayload, observationValue]

theorem machineEvents_nodup {db : Database} (hs : Sources db) (itemId : String) :
    ((replay db itemId).machineEvents.map (·.eventId)).Nodup := by
  refine foldl_ids_nodup (c := fun values => values.machineEvents.map (·.eventId)) rfl ?_ hs itemId
  intro values raw
  cases hpayload : raw.payload <;> simp [replayEvent, hpayload]

theorem operatorActions_nodup {db : Database} (hs : Sources db) (itemId : String) :
    ((replay db itemId).operatorActions.map (·.eventId)).Nodup := by
  refine foldl_ids_nodup (c := fun values => values.operatorActions.map (·.eventId)) rfl ?_ hs itemId
  intro values raw
  cases hpayload : raw.payload <;> simp [replayEvent, hpayload]

theorem updateRun_nodup {runs : List OperationValue} (h : (runs.map (·.operationRunId)).Nodup)
    (raw : RawEvent) {f : OperationValue → OperationValue}
    (hf : ∀ run, (f run).operationRunId = run.operationRunId) :
    ((updateRun raw f runs).map (·.operationRunId)).Nodup := by
  unfold updateRun
  split
  · exact h
  · rename_i runId _
    have hblank : ({ operationRunId := runId } : OperationValue).operationRunId = runId := rfl
    rw [map_upsert hblank hf]
    split
    · exact h
    · rename_i hnew
      rw [← List.concat_eq_append]
      exact h.concat hnew

theorem operations_nodup (db : Database) (itemId : String) :
    ((replay db itemId).operations.map (·.operationRunId)).Nodup := by
  have hfold : ∀ (raws : List RawEvent) (values : ReplayValues),
      (values.operations.map (·.operationRunId)).Nodup →
      ((raws.foldl (replayEvent db) values).operations.map (·.operationRunId)).Nodup := by
    intro raws
    induction raws with
    | nil => exact fun _ h => h
    | cons raw rest ih =>
      intro values h
      refine ih _ ?_
      cases hpayload : raw.payload <;> simp only [replayEvent, hpayload]
      case operationStarted payload => exact updateRun_nodup h raw fun _ => rfl
      case operationFinished payload => exact updateRun_nodup h raw fun _ => rfl
      all_goals exact h
  exact hfold _ _ List.nodup_nil

/-! ## Collisions -/

/-- Rows that carry the id of an event of their item collide with no row of another item. -/
theorem insertable_of_events {α : Type} {ownerOf key : α → String} {db : Database} (hs : Sources db)
    {itemId : String} {rows fresh : List α} (hfresh : (fresh.map key).Nodup)
    (hrows : ∀ row ∈ rows, ∃ raw ∈ storedEvents db (ownerOf row), raw.eventId = key row)
    (hnew : ∀ row ∈ fresh, ∃ raw ∈ storedEvents db itemId, raw.eventId = key row) :
    Insertable ownerOf key itemId rows fresh := by
  refine ⟨hfresh, fun row hrow howner new hmem hkey => howner ?_⟩
  obtain ⟨raw, hraw, hid⟩ := hrows row hrow
  obtain ⟨raw', hraw', hid'⟩ := hnew new hmem
  obtain ⟨hstored, hitem⟩ := List.mem_filter.mp hraw
  obtain ⟨hstored', hitem'⟩ := List.mem_filter.mp hraw'
  have hsame : raw = raw' :=
    eq_of_nodup_map hs.event_ids hstored hstored' (hid.trans (hkey.trans hid'.symm))
  rw [decide_eq_true_eq] at hitem hitem'
  exact Option.some.inj (hitem.symm.trans (hsame ▸ hitem'))

/-- No run of the item has the id of a projected run of another item. -/
def RunsUnused (db : Database) (itemId : String) (runs : List OperationValue) : Prop :=
  ∀ row ∈ db.operationRuns, row.itemId ≠ itemId → ∀ run ∈ runs, row.operationRunId ≠ run.operationRunId

/-- Where the rows of defects are inserted before those of observations, no event of the item lists any. -/
def DefectsInsertable (db : Database) (itemId : String) : Prop :=
  db.insertOrder = .byClassName → ∀ raw ∈ storedEvents db itemId, raw.payload.defects = []

theorem storable_iff {db : Database} (h : Reachable db) {itemId : String} {runs : List OperationRun}
    (hruns : operationRunRows itemId (replay db itemId).operations = .ok runs) :
    Storable db itemId (replay db itemId) runs ↔ DefectsInsertable db itemId ∧
      valuesStorable (replay db itemId) = true ∧ RunsUnused db itemId (replay db itemId).operations := by
  have hs := reachable_sources h
  have hrows := reachable_rows h
  have hvalues := fromEvents_replay db itemId
  have hids : runs.map (·.operationRunId) = (replay db itemId).operations.map (·.operationRunId) :=
    operationRunRows_mem hruns
  have hreferences : referencesPresent db.insertOrder
      ((replay db itemId).observations.flatMap (defectObservationRows itemId)) = true ↔
        DefectsInsertable db itemId := by
    rw [referencesPresent_iff, defectObservationRows_eq_nil_iff, DefectsInsertable]
  constructor
  · intro hstorable
    refine ⟨hreferences.mp hstorable.references, hstorable.storable, fun row hrow howner run hrun hkey => ?_⟩
    have hmem : run.operationRunId ∈ runs.map (·.operationRunId) := hids ▸ List.mem_map_of_mem hrun
    obtain ⟨new, hnew, hid⟩ := List.mem_map.mp hmem
    exact hstorable.operationRuns.2 row hrow howner new hnew (hkey.trans hid.symm)
  · rintro ⟨hinsertable, hstorable, hunused⟩
    refine ⟨hreferences.mpr hinsertable, hstorable,
      ⟨hids ▸ operations_nodup db itemId, fun row hrow howner new hnew hkey => ?_⟩, ?_, ?_, ?_⟩
    · have hmem : new.operationRunId ∈ (replay db itemId).operations.map (·.operationRunId) :=
        hids ▸ List.mem_map_of_mem hnew
      obtain ⟨run, hrun, hid⟩ := List.mem_map.mp hmem
      exact hunused row hrow howner run hrun (hkey.trans hid.symm)
    · refine insertable_of_events hs ?_ (fun row hrow => (hrows.observations row hrow).2) ?_
      · rw [List.map_map]
        exact observations_nodup hs itemId
      · intro row hrow
        obtain ⟨obs, hobs, rfl⟩ := List.mem_map.mp hrow
        obtain ⟨raw, hraw, hid, -⟩ := hvalues.observations obs hobs
        exact ⟨raw, hraw, hid⟩
    · refine insertable_of_events hs ?_ hrows.machineEvents ?_
      · rw [List.map_map]
        exact machineEvents_nodup hs itemId
      · intro row hrow
        obtain ⟨machine, hmachine, rfl⟩ := List.mem_map.mp hrow
        exact hvalues.machineEvents machine hmachine
    · refine insertable_of_events hs ?_ hrows.operatorActions ?_
      · rw [List.map_map]
        exact operatorActions_nodup hs itemId
      · intro row hrow
        obtain ⟨action, haction, rfl⟩ := List.mem_map.mp hrow
        exact hvalues.operatorActions action haction

/-- In a reachable state a rebuild succeeds exactly when every reference of a run can be read, the rows of the
item can be inserted, no run of the item is one of another item, and every scope the analyses look at can be
searched. -/
theorem reachable_rebuild_iff {db : Database} (h : Reachable db) {itemId : String} :
    (∃ db', rebuildItem db itemId = .ok db') ↔
      ReferencesParse (replay db itemId).operations ∧ DefectsInsertable db itemId ∧
        valuesStorable (replay db itemId) = true ∧ RunsUnused db itemId (replay db itemId).operations ∧
        ScopesSearchable (replay db itemId).observations := by
  rw [rebuildItem_succeeds_iff]
  constructor
  · rintro ⟨⟨runs, hruns, hstorable⟩, hscopes⟩
    obtain ⟨hinsertable, hvalues, hunused⟩ := (storable_iff h hruns).mp hstorable
    exact ⟨operationRunRows_succeeds_iff.mp ⟨runs, hruns⟩, hinsertable, hvalues, hunused, hscopes⟩
  · rintro ⟨hparse, hinsertable, hvalues, hunused, hscopes⟩
    obtain ⟨runs, hruns⟩ := operationRunRows_succeeds_iff.mpr hparse
    exact ⟨⟨runs, hruns, (storable_iff h hruns).mpr ⟨hinsertable, hvalues, hunused⟩⟩, hscopes⟩

/-! ## The lookup of a route

`rebuildItem` reads the routes as tables. The SELECTs of the code also refuse a code that no text column takes
and, once they have found the route, a number that is no INTEGER.
-/

def routeAskable (config : Configuration) (payload : ItemRegisteredPayload) : Bool :=
  let code := (pyOr payload.routeId (some "ROUTE-DEFAULT")).getD "ROUTE-DEFAULT"
  storableText code &&
    (!config.routeDefinitions.any (fun route => decide (route.code = code)) ||
      decide (payload.routeRevision.getD 0 < 2 ^ 31))

/-- The route of a registration is looked up unless the item has one. -/
def lookupAnswers (db : Database) (itemId : String) (value : Option ItemValue) : Bool :=
  value.all fun value =>
    ((findItem db itemId).bind (·.routeRevisionId)).isSome || routeAskable db.config value.payload

/-- A rebuild whose lookup may raise. -/
def rebuildAsking (db : Database) (itemId : String) : Except ReplayError Database := do
  demand (lookupAnswers db itemId (replay db itemId).item) .unstorableValue
  rebuildItem db itemId

theorem rebuildAsking_ok {db db' : Database} {itemId : String} :
    rebuildAsking db itemId = .ok db' ↔
      lookupAnswers db itemId (replay db itemId).item = true ∧ rebuildItem db itemId = .ok db' := by
  rw [rebuildAsking, bind_ok]
  constructor
  · rintro ⟨u, hanswers, hrebuild⟩
    exact ⟨demand_ok.mp hanswers, hrebuild⟩
  · rintro ⟨hanswers, hrebuild⟩
    exact ⟨(), demand_ok.mpr hanswers, hrebuild⟩

end TraceQ.Backend
