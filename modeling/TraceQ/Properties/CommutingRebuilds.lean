import TraceQ.Backend.RebuildViews
import TraceQ.Properties.ProjectableEvents

/-! # Rebuilding two items

Rebuilds of two items in either order end the same way, unless the items share a run. Runs are keyed by an id
that their sources choose, so of two items that share one only the first is projected.
-/
namespace TraceQ.Properties
open Projections Ingestion Api Quality Tables Results Backend
set_option autoImplicit false
set_option maxHeartbeats 250000

/-! ## Either order -/

def Succeeds (db : Database) (itemId : String) : Prop := ∃ db', rebuildAsking db itemId = .ok db'

/-- One rebuild, rolled back when it raises. -/
def attempt (db : Database) (itemId : String) : Database :=
  match rebuildAsking db itemId with
  | .ok rebuilt => rebuilt
  | .error _ => db

/-- Each rebuild succeeds or fails in either order, both orders end in the same projection of every item, and
neither rebuild touches the projection of the other item. -/
structure Commute (db : Database) (a b : String) : Prop where
  second : Succeeds (attempt db a) b ↔ Succeeds db b
  first : Succeeds (attempt db b) a ↔ Succeeds db a
  views : ∀ itemId, viewOf (attempt (attempt db a) b) itemId = viewOf (attempt (attempt db b) a) itemId
  outside : outsideProjection (attempt (attempt db a) b) = outsideProjection (attempt (attempt db b) a)
  undisturbed : viewOf (attempt db a) b = viewOf db b ∧ viewOf (attempt db b) a = viewOf db a

theorem attempt_ok {db db' : Database} {itemId : String} (h : rebuildAsking db itemId = .ok db') :
    attempt db itemId = db' := by
  rw [attempt, h]

theorem attempt_fails {db : Database} {itemId : String} (h : ¬ Succeeds db itemId) :
    attempt db itemId = db := by
  rw [attempt]
  cases hrebuild : rebuildAsking db itemId with
  | ok rebuilt => exact absurd ⟨rebuilt, hrebuild⟩ h
  | error e => rfl

/-! ## Shared runs -/

/-- The item has an event of the run. -/
def HasRun (db : Database) (itemId runId : String) : Prop :=
  ∃ raw ∈ storedEvents db itemId, raw.payload.needsRun = true ∧ raw.operationRunId = some runId

def SharesRun (db : Database) (a b : String) : Prop := ∃ runId, HasRun db a runId ∧ HasRun db b runId

/-- No projected run of another item is a run of the item. -/
def RunsFree (db : Database) (itemId : String) : Prop :=
  ∀ row ∈ db.operationRuns, row.itemId ≠ itemId → ¬ HasRun db itemId row.operationRunId

/-- What a rebuild of the item alone needs. -/
structure Projectable (db : Database) (itemId : String) : Prop where
  events : EventsProjectable db itemId
  runs : RunsFree db itemId

theorem run_of_event {db : Database} {itemId runId : String} (h : HasRun db itemId runId) :
    ∃ run ∈ (replay db itemId).operations, run.operationRunId = runId := by
  obtain ⟨raw, hraw, hneeds, hid⟩ := h
  have hkept : ∀ (values : ReplayValues) (other : RawEvent),
      (∃ run ∈ values.operations, run.operationRunId = runId) →
      ∃ run ∈ (replayEvent db values other).operations, run.operationRunId = runId := by
    rintro values other ⟨run, hrun, hrunId⟩
    have hupdated : ∀ f : OperationValue → OperationValue, (∀ old, (f old).operationRunId = old.operationRunId) →
        ∃ run ∈ updateRun other f values.operations, run.operationRunId = runId := by
      intro f hf
      unfold updateRun
      split
      · exact ⟨run, hrun, hrunId⟩
      · rename_i otherId _
        have hblank : ({ operationRunId := otherId } : OperationValue).operationRunId = otherId := rfl
        have hmem : runId ∈ (upsert (·.operationRunId) otherId { operationRunId := otherId } f
            values.operations).map (·.operationRunId) := by
          rw [map_upsert hblank hf]
          split
          · exact List.mem_map.mpr ⟨run, hrun, hrunId⟩
          · exact List.mem_append_left _ (List.mem_map.mpr ⟨run, hrun, hrunId⟩)
        exact List.mem_map.mp hmem
    cases hpayload : other.payload <;> simp only [replayEvent, hpayload]
    case operationStarted payload => exact hupdated _ fun _ => rfl
    case operationFinished payload => exact hupdated _ fun _ => rfl
    all_goals exact ⟨run, hrun, hrunId⟩
  have hadded : ∀ values : ReplayValues, ∃ run ∈ (replayEvent db values raw).operations,
      run.operationRunId = runId := by
    intro values
    have hupdated : ∀ f : OperationValue → OperationValue, (∀ old, (f old).operationRunId = old.operationRunId) →
        ∃ run ∈ updateRun raw f values.operations, run.operationRunId = runId := by
      intro f hf
      have hblank : ({ operationRunId := runId } : OperationValue).operationRunId = runId := rfl
      obtain ⟨old, hold, hmem⟩ := exists_mem_upsert (f := f) hblank values.operations
      refine ⟨f old, ?_, (hf old).trans hold⟩
      rw [updateRun, hid]
      exact hmem
    cases hpayload : raw.payload <;> simp only [replayEvent, hpayload]
    case operationStarted payload => exact hupdated _ fun _ => rfl
    case operationFinished payload => exact hupdated _ fun _ => rfl
    all_goals simp [hpayload, Payload.needsRun] at hneeds
  have hfold : ∀ (raws : List RawEvent) (values : ReplayValues),
      raw ∈ raws ∨ (∃ run ∈ values.operations, run.operationRunId = runId) →
      ∃ run ∈ (raws.foldl (replayEvent db) values).operations, run.operationRunId = runId := by
    intro raws
    induction raws with
    | nil =>
      rintro values (hmem | hfound)
      · cases hmem
      · exact hfound
    | cons other rest ih =>
      rintro values (hmem | hfound)
      · rcases List.mem_cons.mp hmem with rfl | hrest
        · exact ih _ (.inr (hadded values))
        · exact ih _ (.inl hrest)
      · exact ih _ (.inr (hkept values other hfound))
  exact hfold (history db itemId) {} (.inl (mem_history.mpr hraw))

theorem event_of_run {db : Database} {itemId : String} {run : OperationValue}
    (h : run ∈ (replay db itemId).operations) : HasRun db itemId run.operationRunId := by
  obtain ⟨raw, hraw, hid, hneeds⟩ := (fromEvents_replay db itemId).operations run h
  exact ⟨raw, hraw, hneeds, hid⟩

theorem succeeds_iff {db : Database} (h : Reachable db) {itemId : String} :
    Succeeds db itemId ↔ Projectable db itemId := by
  have hruns : RunsUnused db itemId (replay db itemId).operations ↔ RunsFree db itemId := by
    constructor
    · intro hunused row hrow howner hrun
      obtain ⟨run, hmem, hid⟩ := run_of_event hrun
      exact hunused row hrow howner run hmem hid.symm
    · intro hfree row hrow howner run hrun hkey
      exact hfree row hrow howner (hkey ▸ event_of_run hrun)
  rw [Succeeds, rebuildAsking_iff h, hruns]
  exact ⟨fun ⟨hevents, hfree⟩ => ⟨hevents, hfree⟩, fun hp => ⟨hp.events, hp.runs⟩⟩

/-! ## The other item after a rebuild -/

section Rebuild
variable {db db' : Database} (h : Reachable db) {a b : String} (hne : a ≠ b)
  (hrebuild : rebuildItem db a = .ok db')
include h hne hrebuild

/-- After the rebuild of an item the runs of another one are free as before, if the two share none. -/
theorem runsFree_after : RunsFree db' b ↔ RunsFree db b ∧ ¬ SharesRun db a b := by
  have hwf := (reachable_sound h).toWellFormed
  have hout := rebuildItem_outside hwf hrebuild
  have hhas : ∀ itemId runId, HasRun db' itemId runId ↔ HasRun db itemId runId := fun itemId runId => by
    rw [HasRun, HasRun, storedEvents_congr (rawEvents_of_outside hout)]
  have hothers : ∀ row : OperationRun, row.itemId ≠ a → (row ∈ db'.operationRuns ↔ row ∈ db.operationRuns) := by
    intro row hrow
    have hrows := congrArg ProjectedRows.operationRuns (rebuildItem_rows_other hwf hrebuild hrow)
    have hmem : row ∈ ownedBy (·.itemId) row.itemId db'.operationRuns ↔
        row ∈ ownedBy (·.itemId) row.itemId db.operationRuns := by
      rw [show ownedBy (·.itemId) row.itemId db'.operationRuns =
        ownedBy (·.itemId) row.itemId db.operationRuns from hrows]
    simpa [mem_ownedBy] using hmem
  have hown : ∀ row ∈ db.operationRuns, row.itemId = a → HasRun db a row.operationRunId := by
    rintro row hrow rfl
    obtain ⟨raw, hraw, hid, hneeds⟩ := (reachable_rows h).operationRuns row hrow
    exact ⟨raw, hraw, hneeds, hid⟩
  constructor
  · intro hfree
    have hshares : ¬ SharesRun db a b := by
      rintro ⟨runId, hruna, hrunb⟩
      -- the run of the first item has its row after the rebuild
      have hraws : history db a ≠ [] := by
        obtain ⟨raw, hraw, -⟩ := hruna
        exact List.ne_nil_of_mem (mem_history.mpr hraw)
      obtain ⟨rows, hrows, hprojected⟩ := map_ok.mp (rebuildItem_rows hwf hrebuild hraws)
      obtain ⟨run, hrun, hid⟩ := run_of_event hruna
      have hids := operationRunRows_mem hrows
      have hmem : runId ∈ rows.map (·.operationRunId) := hids ▸ List.mem_map.mpr ⟨run, hrun, hid⟩
      obtain ⟨row, hrow, rfl⟩ := List.mem_map.mp hmem
      have hstoredRows : rows = ownedBy (·.itemId) a db'.operationRuns :=
        congrArg ProjectedRows.operationRuns hprojected
      rw [hstoredRows] at hrow
      obtain ⟨hstored, hitem⟩ := mem_ownedBy.mp hrow
      exact hfree row hstored (hitem ▸ hne) ((hhas b _).mpr hrunb)
    refine ⟨fun row hrow howner hrun => ?_, hshares⟩
    by_cases hitem : row.itemId = a
    · exact hshares ⟨row.operationRunId, hown row hrow hitem, hrun⟩
    · exact hfree row ((hothers row hitem).mpr hrow) howner ((hhas b _).mpr hrun)
  · rintro ⟨hfree, hshares⟩ row hrow howner hrun
    by_cases hitem : row.itemId = a
    · obtain ⟨raw, hraw, hid, hneeds⟩ := (reachable_rows (reachable_rebuild h hrebuild)).operationRuns row hrow
      rw [hitem] at hraw
      exact hshares ⟨row.operationRunId, (hhas a _).mp ⟨raw, hraw, hneeds, hid⟩, (hhas b _).mp hrun⟩
    · exact hfree row ((hothers row hitem).mp hrow) howner ((hhas b _).mp hrun)

/-- What the events of the other item need is left as it is. -/
theorem events_after : EventsProjectable db' b ↔ EventsProjectable db b := by
  have hwf := (reachable_sound h).toWellFormed
  have hout := rebuildItem_outside hwf hrebuild
  have hhistory := history_of_outside hout b
  have hstored : storedEvents db' b = storedEvents db b := storedEvents_congr (rawEvents_of_outside hout) b
  have hitem := congrArg ItemView.item (rebuildItem_view_other hwf hrebuild hne.symm)
  have hroute : ∀ value, lookupAnswers db' b value = lookupAnswers db b value := by
    intro value
    rw [lookupAnswers, lookupAnswers, show findItem db' b = findItem db b from hitem, config_of_outside hout]
  have hdefects : DefectsInsertable db' b ↔ DefectsInsertable db b := by
    rw [DefectsInsertable, DefectsInsertable, insertOrder_of_outside hout, hstored]
  have hstorable : EventsStorable db' b ↔ EventsStorable db b := by
    rw [← valuesStorable_iff, ← valuesStorable_iff, replay_of_outside hout]
  have hscopes : ScopesReadable db' b ↔ ScopesReadable db b := by
    rw [← scopesSearchable_iff, ← scopesSearchable_iff, replay_of_outside hout]
  have hreferences : ReferencesReadable db' b ↔ ReferencesReadable db b := by
    rw [ReferencesReadable, ReferencesReadable, hhistory]
  constructor
  · rintro ⟨route, references, defects, storable, scopes⟩
    rw [hroute, hhistory] at route
    exact ⟨route, hreferences.mp references, hdefects.mp defects, hstorable.mp storable, hscopes.mp scopes⟩
  · rintro ⟨route, references, defects, storable, scopes⟩
    rw [← hroute, ← hhistory] at route
    exact ⟨route, hreferences.mpr references, hdefects.mpr defects, hstorable.mpr storable, hscopes.mpr scopes⟩

theorem projectable_after : Projectable db' b ↔ Projectable db b ∧ ¬ SharesRun db a b := by
  have hevents := events_after h hne hrebuild
  have hruns := runsFree_after h hne hrebuild
  constructor
  · intro hp
    obtain ⟨hfree, hshares⟩ := hruns.mp hp.runs
    exact ⟨⟨hevents.mp hp.events, hfree⟩, hshares⟩
  · rintro ⟨hp, hshares⟩
    exact ⟨hevents.mpr hp.events, hruns.mpr ⟨hp.runs, hshares⟩⟩

end Rebuild

theorem sharesRun_comm {db : Database} {a b : String} : SharesRun db a b ↔ SharesRun db b a :=
  ⟨fun ⟨runId, ha, hb⟩ => ⟨runId, hb, ha⟩, fun ⟨runId, hb, ha⟩ => ⟨runId, ha, hb⟩⟩

/-- The rebuild of an item changes what becomes of another one only where both could be rebuilt and share a
run. -/
theorem succeeds_after {db : Database} (h : Reachable db) {a b : String} (hne : a ≠ b)
    (hnot : ¬ (Projectable db a ∧ Projectable db b ∧ SharesRun db a b)) :
    Succeeds (attempt db a) b ↔ Succeeds db b := by
  by_cases hrebuilds : Succeeds db a
  · have hp : Projectable db a := (succeeds_iff h).mp hrebuilds
    obtain ⟨db', hasked⟩ := hrebuilds
    have hrebuild := (rebuildAsking_ok.mp hasked).2
    rw [attempt_ok hasked, succeeds_iff (reachable_rebuild h hrebuild), succeeds_iff h,
      projectable_after h hne hrebuild]
    exact and_iff_left_of_imp fun hpb hshares => hnot ⟨hp, hpb, hshares⟩
  · rw [attempt_fails hrebuilds]

theorem attempt_undisturbed {db : Database} (h : Reachable db) {a b : String} (hne : a ≠ b) :
    viewOf (attempt db a) b = viewOf db b := by
  by_cases hrebuilds : Succeeds db a
  · obtain ⟨db', hasked⟩ := hrebuilds
    rw [attempt_ok hasked]
    exact rebuildItem_view_other (reachable_sound h).toWellFormed (rebuildAsking_ok.mp hasked).2 hne.symm
  · rw [attempt_fails hrebuilds]

/-! ## Two rebuilds that succeed -/

/-- Two rebuilds that succeed in either order end in the same projections. -/
theorem both_views {db da db' ea eb : Database} (h : Reachable db) {a b : String} (hne : a ≠ b)
    (hda : rebuildItem db a = .ok da) (hdb : rebuildItem da b = .ok db') (heb : rebuildItem db b = .ok eb)
    (hea : rebuildItem eb a = .ok ea) (itemId : String) : viewOf db' itemId = viewOf ea itemId := by
  have hwf := (reachable_sound h).toWellFormed
  have hwfa := rebuildItem_wellFormed hwf hda
  have hwfb := rebuildItem_wellFormed hwf heb
  by_cases ha : itemId = a
  · subst ha
    rw [rebuildItem_view_other hwfa hdb hne]
    exact rebuildItem_view_self hwf hwfb (rebuildItem_outside hwf heb).symm
      (rebuildItem_view_other hwf heb hne).symm hda hea
  · by_cases hb : itemId = b
    · subst hb
      rw [rebuildItem_view_other hwfb hea ha]
      exact rebuildItem_view_self hwfa hwf (rebuildItem_outside hwf hda)
        (rebuildItem_view_other hwf hda ha) hdb heb
    · rw [rebuildItem_view_other hwfa hdb hb, rebuildItem_view_other hwf hda ha,
        rebuildItem_view_other hwfb hea ha, rebuildItem_view_other hwf heb hb]

theorem both_outside {db da db' ea eb : Database} (h : Reachable db) {a b : String}
    (hda : rebuildItem db a = .ok da) (hdb : rebuildItem da b = .ok db') (heb : rebuildItem db b = .ok eb)
    (hea : rebuildItem eb a = .ok ea) : outsideProjection db' = outsideProjection ea := by
  have hwf := (reachable_sound h).toWellFormed
  rw [rebuildItem_outside (rebuildItem_wellFormed hwf hda) hdb, rebuildItem_outside hwf hda,
    rebuildItem_outside (rebuildItem_wellFormed hwf heb) hea, rebuildItem_outside hwf heb]

/-! ## Every reachable state -/

/-- In every reachable state, rebuilds of two items commute unless both can be rebuilt and share a run. -/
theorem rebuilds_commute_iff {db : Database} (h : Reachable db) {a b : String} (hne : a ≠ b) :
    Commute db a b ↔ ¬ (Projectable db a ∧ Projectable db b ∧ SharesRun db a b) := by
  constructor
  · rintro hcommute ⟨hpa, hpb, hshares⟩
    obtain ⟨da, hasked⟩ := (succeeds_iff h).mpr hpa
    have hda := (rebuildAsking_ok.mp hasked).2
    have hsecond := hcommute.second.mpr ((succeeds_iff h).mpr hpb)
    rw [attempt_ok hasked, succeeds_iff (reachable_rebuild h hda), projectable_after h hne hda] at hsecond
    exact hsecond.2 hshares
  · intro hnot
    have hsecond := succeeds_after h hne hnot
    have hfirst : Succeeds (attempt db b) a ↔ Succeeds db a := by
      refine succeeds_after h hne.symm fun hboth => hnot ⟨hboth.2.1, hboth.1, sharesRun_comm.mp hboth.2.2⟩
    have hends : (∀ itemId, viewOf (attempt (attempt db a) b) itemId = viewOf (attempt (attempt db b) a) itemId) ∧
        outsideProjection (attempt (attempt db a) b) = outsideProjection (attempt (attempt db b) a) := by
      by_cases hra : Succeeds db a
      · by_cases hrb : Succeeds db b
        · obtain ⟨da, hda⟩ := hra
          obtain ⟨eb, heb⟩ := hrb
          obtain ⟨db', hdb⟩ := hsecond.mpr ⟨eb, heb⟩
          obtain ⟨ea, hea⟩ := hfirst.mpr ⟨da, hda⟩
          rw [attempt_ok hda] at hdb
          rw [attempt_ok heb] at hea
          rw [attempt_ok hda, attempt_ok heb, attempt_ok hdb, attempt_ok hea]
          rw [rebuildAsking_ok] at hda hdb heb hea
          exact ⟨both_views h hne hda.2 hdb.2 heb.2 hea.2, both_outside h hda.2 hdb.2 heb.2 hea.2⟩
        · rw [attempt_fails (mt hsecond.mp hrb), attempt_fails hrb]
          exact ⟨fun _ => rfl, rfl⟩
      · rw [attempt_fails (mt hfirst.mp hra), attempt_fails hra]
        exact ⟨fun _ => rfl, rfl⟩
    exact ⟨hsecond, hfirst, hends.1, hends.2, attempt_undisturbed h hne, attempt_undisturbed h hne.symm⟩

/-! ### Two items on one line -/

def turningStarted (eventId itemId runId : String) (h : truthy (some runId) = true)
    (hitem : truthy (some itemId) = true) : EventEnvelope where
  eventId := eventId
  occurredAt := 10
  source := { sourceId := "mes-1", sourceType := "mes" }
  itemId := some itemId
  operationRunId := some runId
  payload := .operationStarted
    { operationId := "OP-10"
      operatorId := "operator-1"
      equipmentId := "lathe-1"
      stationId := "station-1" }
  item_required := fun _ => hitem
  run_required := fun _ => h

/-- Both items are turned, in the runs that their sources name. -/
def twoTurnings (runId runId' : String) (h : truthy (some runId) = true) (h' : truthy (some runId') = true) :
    List Call :=
  [.rebuild "item-1", .rebuild "item-2", .ingest (turningStarted "e-1" "item-1" runId h (by decide)) 11,
    .ingest (turningStarted "e-2" "item-2" runId' h' (by decide)) 12]

theorem rebuilds_commute_own_runs :
    Commute (run {} (twoTurnings "run-1" "run-2" (by decide) (by decide))) "item-1" "item-2" := by
  refine (rebuilds_commute_iff ⟨{}, _, ⟨{}, _, rfl⟩, rfl⟩ (by decide)).mpr ?_
  rintro ⟨-, -, runId, ⟨raw, hraw, -, hid⟩, other, hother, -, hid'⟩
  have howned : ∀ raw ∈ (run {} (twoTurnings "run-1" "run-2" (by decide) (by decide))).rawEvents,
      ∀ other ∈ (run {} (twoTurnings "run-1" "run-2" (by decide) (by decide))).rawEvents,
        raw.operationRunId = other.operationRunId → raw.itemId = other.itemId := by decide +kernel
  obtain ⟨hstored, hitem⟩ := List.mem_filter.mp hraw
  obtain ⟨hstored', hitem'⟩ := List.mem_filter.mp hother
  rw [decide_eq_true_eq] at hitem hitem'
  have hsame := howned raw hstored other hstored' (hid.trans hid'.symm)
  rw [hitem, hitem'] at hsame
  exact absurd hsame (by decide)

/-- With one run for both items only the item that is rebuilt first is projected. -/
theorem shared_run_blocks :
    ¬ ∀ db a b, Reachable db → a ≠ b → Commute db a b := by
  intro h
  have hcommute := h (run {} (twoTurnings "run-1" "run-1" (by decide) (by decide))) "item-1" "item-2"
    ⟨{}, _, ⟨{}, _, rfl⟩, rfl⟩ (by decide)
  have halone : (rebuildAsking (run {} (twoTurnings "run-1" "run-1" (by decide) (by decide))) "item-2").isOk =
      true := by decide +kernel
  have hafter : (rebuildAsking (attempt (run {} (twoTurnings "run-1" "run-1" (by decide) (by decide))) "item-1")
      "item-2").isOk = false := by decide +kernel
  have hsucceeds : Succeeds (run {} (twoTurnings "run-1" "run-1" (by decide) (by decide))) "item-2" := by
    cases hrebuild : rebuildAsking (run {} (twoTurnings "run-1" "run-1" (by decide) (by decide))) "item-2" with
    | ok db' => exact ⟨db', hrebuild⟩
    | error e =>
      rw [hrebuild] at halone
      cases halone
  obtain ⟨db', hok⟩ := hcommute.second.mpr hsucceeds
  rw [hok] at hafter
  cases hafter

end TraceQ.Properties
