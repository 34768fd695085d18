import TraceQ.Backend.Projectable
import TraceQ.Backend.ProjectionInputs

/-! # What a rebuild does to each item

The projection of an item, apart from generated keys and the order of the rows of different items. A rebuild
leaves that of every other item alone, and what it makes of its own depends on nothing else.
-/
namespace TraceQ.Backend
open Projections Ingestion Api Quality Tables Results
set_option autoImplicit false
set_option maxHeartbeats 250000

/-! ## Views -/

structure ItemView where
  rows : ProjectedRows
  defects : List DefectObservation
  item : Option Item
  state : Option ProjectionState
  cases : DefectKey → Option CaseFile

def viewOf (db : Database) (itemId : String) : ItemView where
  rows := projectedRows db itemId
  defects := ownedBy (·.itemId) itemId db.defectObservations
  item := findItem db itemId
  state := findState db itemId
  cases key := caseFiles db (itemId, key)

/-! ## Items and states -/

theorem findState_updateState (db : Database) (target itemId : String)
    {f : ProjectionState → ProjectionState} (hf : ∀ state, (f state).itemId = state.itemId) :
    findState (updateState db target f) itemId =
      if itemId = target then some (f ((findState db target).getD { itemId := target }))
      else findState db itemId := by
  have hblank : ({ itemId := target } : ProjectionState).itemId = target := rfl
  split
  · rename_i heq
    rw [heq]
    exact find?_upsert_self hblank hf db.projectionStates
  · rename_i hne
    simp only [findState, updateState]
    induction db.projectionStates with
    | nil =>
      have hother : (f { itemId := target }).itemId ≠ itemId := by
        rw [hf]
        exact fun heq => hne heq.symm
      simp [upsert, hother]
    | cons state rest ih =>
      rw [upsert]
      split
      · rename_i hkey
        have hother : (f state).itemId ≠ itemId := by
          rw [hf, hkey]
          exact fun heq => hne heq.symm
        have hother' : state.itemId ≠ itemId := by
          rw [hkey]
          exact fun heq => hne heq.symm
        simp [hother, hother']
      · rw [List.find?_cons, List.find?_cons, ih]

theorem findItem_projectItem_other (db : Database) {target itemId : String} (hother : itemId ≠ target)
    (value : Option ItemValue) : findItem (projectItem db target value) itemId = findItem db itemId := by
  unfold projectItem
  cases value with
  | none => rfl
  | some value =>
    cases findItem db target with
    | none =>
      have hnew : (newItem db.config target value).itemId ≠ itemId := fun heq => hother heq.symm
      simp [findItem, List.find?_append, hnew]
    | some item =>
      have hfind := find?_modifyWhere (p := fun item => decide (item.itemId = target))
        (f := registerItem value) (q := fun item => decide (item.itemId = itemId)) (fun _ => rfl) db.items
      simp only [findItem]
      rw [hfind]
      cases hfound : db.items.find? fun item => decide (item.itemId = itemId) with
      | none => rfl
      | some row =>
        have hrow : row.itemId = itemId := by simpa using List.find?_some hfound
        have hne : row.itemId ≠ target := by rwa [hrow]
        simp [hne]

/-- The row of the item after its registration. -/
theorem findItem_projectItem (db : Database) (itemId : String) (value : Option ItemValue) :
    findItem (projectItem db itemId value) itemId = value.elim (findItem db itemId) fun value =>
      some (((findItem db itemId).map (registerItem value)).getD (newItem db.config itemId value)) := by
  unfold projectItem
  cases value with
  | none => rfl
  | some value =>
    cases hfound : findItem db itemId with
    | none =>
      rw [findItem] at hfound ⊢
      rw [List.find?_append, hfound]
      simp [newItem]
    | some item =>
      have hfind := find?_modifyWhere (p := fun item => decide (item.itemId = itemId))
        (f := registerItem value) (q := fun item => decide (item.itemId = itemId)) (fun _ => rfl) db.items
      have hrow : item.itemId = itemId := by simpa using List.find?_some hfound
      rw [findItem] at hfound ⊢
      simp only
      rw [hfind, hfound]
      simp [hrow]

theorem findItem_projectItem_self {db db' : Database} (itemId : String) (value : Option ItemValue)
    (hconfig : db.config = db'.config) (hitem : findItem db itemId = findItem db' itemId) :
    findItem (projectItem db itemId value) itemId = findItem (projectItem db' itemId value) itemId := by
  rw [findItem_projectItem, findItem_projectItem, hconfig, hitem]

/-! ## The two halves -/

section Rebuild
variable {db db' : Database} (hwf : WellFormed db) {target : String} (h : rebuildItem db target = .ok db')
include hwf h

theorem rebuildItem_state (itemId : String) : findState db' itemId =
    if itemId = target then some ((if history db target = [] then
        fun state : ProjectionState => { state with status := .upToDate }
        else projected (history db target)) ((findState db target).getD { itemId := target }))
      else findState db itemId := by
  rcases rebuildItem_cases h with ⟨hnil, rfl⟩ | ⟨hne, stored, registered, linked, hstored, rfl, hlinked, rfl⟩
  · have hfind := findState_updateState db target itemId
      (f := fun state => { state with status := .upToDate }) fun _ => rfl
    rw [hfind, if_pos hnil]
  · obtain ⟨runs, -, hdb⟩ := storeProjection_ok hstored
    have hstoredWf : WellFormed stored := by
      rw [hdb]
      exact wellFormed_congr hwf rfl rfl rfl le_rfl
    have hregistered := (sameCases_projectItem stored target (replay db target).item).wellFormed hstoredWf
    have hlinkedStates := (congrArg Database.projectionStates (linkSightings_outsideCases hregistered hlinked) :)
    have hstates : linked.projectionStates = db.projectionStates := by
      have hkept := projectItem_states stored target (replay db target).item
      rw [hdb] at hkept
      exact hlinkedStates.trans (hdb ▸ hkept)
    have hfind : ∀ other, findState linked other = findState db other := fun other => by
      rw [findState, findState, hstates]
    rw [findState_updateState linked target itemId (f := projected (history db target)) fun _ => rfl,
      hfind, hfind, if_neg hne]

theorem rebuildItem_item : ∃ stored, stored.config = db.config ∧ stored.items = db.items ∧
    (history db target = [] → db'.items = db.items) ∧
    (history db target ≠ [] → db'.items = (projectItem stored target (replay db target).item).items) := by
  by_cases hraws : history db target = []
  · rcases rebuildItem_cases h with ⟨-, rfl⟩ | ⟨hne, -⟩
    · exact ⟨db, rfl, rfl, fun _ => rfl, fun hne => absurd hraws hne⟩
    · exact absurd hraws hne
  · obtain ⟨stored, hstored, -, hitems⟩ := rebuildItem_stores hwf h hraws
    obtain ⟨runs, -, hdb⟩ := storeProjection_ok hstored
    exact ⟨stored, by rw [hdb], by rw [hdb], fun hnil => absurd hnil hraws, fun _ => hitems⟩

/-- The rebuild of an item leaves the projection of every other one alone. -/
theorem rebuildItem_view_other {itemId : String} (hother : itemId ≠ target) :
    viewOf db' itemId = viewOf db itemId := by
  have hitem : findItem db' itemId = findItem db itemId := by
    obtain ⟨stored, -, hitems, hempty, hfull⟩ := rebuildItem_item hwf h
    by_cases hraws : history db target = []
    · rw [findItem, findItem, hempty hraws]
    · have hprojected := findItem_projectItem_other stored hother (replay db target).item
      rw [findItem, hfull hraws]
      rw [findItem, findItem, hitems] at hprojected
      exact hprojected
  have hcases : ∀ key, caseFiles db' (itemId, key) = caseFiles db (itemId, key) := by
    intro key
    obtain ⟨registered, linked, hsame, hlinked, hsame'⟩ := rebuildItem_links_after hwf h
    rw [hsame'.caseFiles, caseFile_after_other (hsame.wellFormed hwf) hlinked hother, hsame.caseFiles]
  have hstate := rebuildItem_state hwf h itemId
  rw [if_neg hother] at hstate
  simp only [viewOf, rebuildItem_rows_other hwf h hother, (rebuildItem_observations_other hwf h hother).2, hitem,
    hstate, hcases]

end Rebuild

/-- What a rebuild makes of its item depends on the stored events, the policies and the item's projection. -/
theorem rebuildItem_view_self {a b a' b' : Database} (ha : WellFormed a) (hb : WellFormed b)
    (hout : outsideProjection a = outsideProjection b) {itemId : String} (hview : viewOf a itemId = viewOf b itemId)
    (hra : rebuildItem a itemId = .ok a') (hrb : rebuildItem b itemId = .ok b') :
    viewOf a' itemId = viewOf b' itemId := by
  have hhistory := history_of_outside hout itemId
  have hreplay := replay_of_outside hout itemId
  have hitemBefore : findItem a itemId = findItem b itemId := congrArg ItemView.item hview
  have hitem : findItem a' itemId = findItem b' itemId := by
    obtain ⟨stored, hconfig, hitems, hempty, hfull⟩ := rebuildItem_item ha hra
    obtain ⟨stored', hconfig', hitems', hempty', hfull'⟩ := rebuildItem_item hb hrb
    by_cases hraws : history b itemId = []
    · rw [findItem, findItem, hempty (hhistory.trans hraws), hempty' hraws]
      exact hitemBefore
    · have hstored : findItem stored itemId = findItem stored' itemId := by
        rw [findItem, findItem, hitems, hitems']
        exact hitemBefore
      have hconfigs : stored.config = stored'.config := by
        rw [hconfig, hconfig', config_of_outside hout]
      have hprojected := findItem_projectItem_self itemId (replay b itemId).item hconfigs hstored
      rw [findItem, findItem, hfull (by rwa [hhistory]), hfull' hraws, hreplay]
      exact hprojected
  have hcases : ∀ key, caseFiles a' (itemId, key) = caseFiles b' (itemId, key) := by
    intro key
    obtain ⟨registered, linked, hsame, hlinked, hsame'⟩ := rebuildItem_links_after ha hra
    obtain ⟨registeredB, linkedB, hsameB, hlinkedB, hsameB'⟩ := rebuildItem_links_after hb hrb
    have houta := rebuildItem_outside ha hra
    have houtb := rebuildItem_outside hb hrb
    have hafter : outsideProjection a' = outsideProjection b' := houta.trans (hout.trans houtb.symm)
    have hcontext : itemContext a' itemId = itemContext b' itemId := by
      rw [itemContext, itemContext, replay_of_outside hafter, analysisContext, analysisContext, hitem,
        config_of_outside hafter]
    have hbefore : caseFiles a (itemId, key) = caseFiles b (itemId, key) :=
      congrFun (congrArg ItemView.cases hview) key
    rw [hsame'.caseFiles, hsameB'.caseFiles, caseFile_after (hsame.wellFormed ha) hlinked,
      caseFile_after (hsameB.wellFormed hb) hlinkedB, hsame.caseFiles, hsameB.caseFiles, hcontext,
      itemSightings_of_outside hout, hbefore]
  have hstate : findState a' itemId = findState b' itemId := by
    have hbefore : findState a itemId = findState b itemId := congrArg ItemView.state hview
    rw [rebuildItem_state ha hra, rebuildItem_state hb hrb, hhistory, hbefore]
  have hrows : projectedRows a' itemId = projectedRows b' itemId ∧
      ownedBy (·.itemId) itemId a'.defectObservations = ownedBy (·.itemId) itemId b'.defectObservations := by
    by_cases hraws : history b itemId = []
    · rcases rebuildItem_cases hra with ⟨-, rfl⟩ | ⟨hne, -⟩
      · rcases rebuildItem_cases hrb with ⟨-, rfl⟩ | ⟨hne, -⟩
        · exact ⟨congrArg ItemView.rows hview, congrArg ItemView.defects hview⟩
        · exact absurd hraws hne
      · exact absurd (hhistory.trans hraws) hne
    · have hraws' : history a itemId ≠ [] := by rwa [hhistory]
      have hrowsA := rebuildItem_rows ha hra hraws'
      rw [hreplay, rebuildItem_rows hb hrb hraws] at hrowsA
      refine ⟨(Except.ok.inj hrowsA).symm, ?_⟩
      rw [(rebuildItem_observations ha hra hraws').2, (rebuildItem_observations hb hrb hraws).2, hreplay]
  simp only [viewOf, hrows.1, hrows.2, hitem, hstate, hcases]

end TraceQ.Backend
