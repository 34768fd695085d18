import TraceQ.Backend.Frames
import TraceQ.Projections.ReplayMeaning

/-! # Rebuilds in the order of the class names

Where the rows of defects are inserted before those of observations, a rebuild raises at the foreign key as soon
as the history of the item lists a defect. So a rebuild that completes has no sighting to link: it opens no case
and appends no analysis, and no other call does either.
-/
namespace TraceQ.Backend
open Projections Ingestion Api Quality Tables Results
set_option autoImplicit false
set_option maxHeartbeats 250000

/-! ## One rebuild -/

section Rebuild
variable {db db' : Database} {itemId : String} (horder : db.insertOrder = .byClassName)
  (h : rebuildItem db itemId = .ok db')
include horder h

theorem rebuildItem_lists_nothing : ∀ raw ∈ storedEvents db itemId, raw.payload.defects = [] := by
  rcases rebuildItem_cases h with ⟨hnil, -⟩ | ⟨-, stored, _, _, hstored, -⟩
  · intro raw hraw
    have hmem := mem_history.mpr hraw
    rw [hnil] at hmem
    cases hmem
  · obtain ⟨_, -, hstorable, -⟩ := storeProjection_ok_iff.mp hstored
    exact defectObservationRows_eq_nil_iff.mp (referencesPresent_iff.mp hstorable.references horder)

theorem rebuildItem_sights_nothing : itemSightings db itemId = [] :=
  itemSightings_eq_nil_iff.mpr (rebuildItem_lists_nothing horder h)

/-- A rebuild that completes leaves the cases and their analyses as they are. -/
theorem rebuildItem_sameCases : SameCases db db' := by
  obtain ⟨registered, linked, hsame, -, hlinked, hsame', -, -⟩ := rebuildItem_links h
  rw [rebuildItem_sights_nothing horder h] at hlinked
  obtain rfl : registered = linked := Except.ok.inj hlinked
  exact ⟨hsame'.occurrences.trans hsame.occurrences, hsame'.nonconformances.trans hsame.nonconformances,
    hsame'.versions.trans hsame.versions, hsame'.evidence.trans hsame.evidence,
    hsame.nextId.trans hsame'.nextId⟩

end Rebuild

/-! ## Every call -/

/-- What a nonconformance is about, and the version it points at. -/
def identityOf (n : Nonconformance) : Uuid × Uuid × String × DefectKey × ℕ :=
  (n.id, n.occurrenceId, n.itemId, n.key, n.currentAnalysisVersion)

/-- No case is opened, reopened or given to another defect, and no analysis is appended; the order of the
INSERTs stays. -/
structure KeepsCases (db db' : Database) : Prop where
  insertOrder : db'.insertOrder = db.insertOrder
  occurrenceIds : db'.defectOccurrences.map (·.id) = db.defectOccurrences.map (·.id)
  stillOpen : ∀ o ∈ db'.defectOccurrences, o.status = .opened → o ∈ db.defectOccurrences
  identities : db'.nonconformances.map identityOf = db.nonconformances.map identityOf
  versions : db'.analysisVersions = db.analysisVersions
  evidence : db'.analysisEvidence = db.analysisEvidence

theorem KeepsCases.refl (db : Database) : KeepsCases db db := ⟨rfl, rfl, fun _ ho _ => ho, rfl, rfl, rfl⟩

theorem KeepsCases.trans {a b c : Database} (hab : KeepsCases a b) (hbc : KeepsCases b c) : KeepsCases a c :=
  ⟨hbc.insertOrder.trans hab.insertOrder, hbc.occurrenceIds.trans hab.occurrenceIds,
    fun o ho hopen => hab.stillOpen o (hbc.stillOpen o ho hopen) hopen, hbc.identities.trans hab.identities,
    hbc.versions.trans hab.versions, hbc.evidence.trans hab.evidence⟩

theorem keepsCases_of_same {db db' : Database} (h : SameCases db db')
    (horder : db'.insertOrder = db.insertOrder) : KeepsCases db db' :=
  ⟨horder, by rw [h.occurrences], fun o ho _ => h.occurrences ▸ ho, by rw [h.nonconformances], h.versions,
    h.evidence⟩

theorem KeepsCases.ncrIds {db db' : Database} (h : KeepsCases db db') :
    db'.nonconformances.map (·.id) = db.nonconformances.map (·.id) := by
  have hids := congrArg (List.map Prod.fst) h.identities
  rwa [List.map_map, List.map_map] at hids

/-- The nonconformance a row was before. -/
theorem KeepsCases.ncr_before {db db' : Database} (h : KeepsCases db db') {n : Nonconformance}
    (hn : n ∈ db'.nonconformances) : ∃ old ∈ db.nonconformances, identityOf old = identityOf n :=
  List.mem_map.mp (h.identities ▸ List.mem_map_of_mem hn)

theorem rebuildItem_keepsCases {db db' : Database} (hwf : WellFormed db) (horder : db.insertOrder = .byClassName)
    {itemId : String} (h : rebuildItem db itemId = .ok db') : KeepsCases db db' :=
  keepsCases_of_same (rebuildItem_sameCases horder h) (insertOrder_of_outside (rebuildItem_outside hwf h))

theorem rebuilds_keepsCases {db db' : Database} (hwf : WellFormed db) (horder : db.insertOrder = .byClassName)
    (h : Rebuilds db db') : KeepsCases db db' := by
  refine (h.invariant (P := fun m => WellFormed m ∧ KeepsCases db m) ?_ ?_).2
  · exact fun m quiet _ =>
      ⟨quiet.toSameCases.wellFormed hwf, keepsCases_of_same quiet.toSameCases quiet.insertOrder⟩
  · rintro m n itemId ⟨hm, hkept⟩ hn
    exact ⟨rebuildItem_wellFormed hm hn,
      hkept.trans (rebuildItem_keepsCases hm (hkept.insertOrder.trans horder) hn)⟩

/-- Rewriting the row of one nonconformance by one of its identity. -/
theorem rewritten_identities {db : Database} (hwf : WellFormed db) {ncr ncr' : Nonconformance}
    (hfound : ncr ∈ db.nonconformances) (hsame : identityOf ncr' = identityOf ncr) :
    (modifyWhere (fun row => decide (row.id = ncr.id)) (fun _ => ncr') db.nonconformances).map identityOf =
      db.nonconformances.map identityOf := by
  simp only [modifyWhere, List.map_map]
  refine List.map_congr_left fun row hrow => ?_
  by_cases hid : row.id = ncr.id
  · obtain rfl := eq_found hwf hfound hrow hid
    simp [hsame]
  · simp [hid]

theorem exec_keepsCases {db : Database} (hs : Sound db) (horder : db.insertOrder = .byClassName) (call : Call) :
    KeepsCases db (exec db call).1 := by
  have hwf := hs.toWellFormed
  have hsame : ∀ {ncr ncr' : Nonconformance}, SameIdentity ncr ncr' → identityOf ncr' = identityOf ncr :=
    fun h => by rw [identityOf, identityOf, h.id, h.occurrenceId, h.itemId, h.key, h.version]
  -- an endpoint of a nonconformance rewrites its row, and a release closes its occurrence
  have hedits : SameEvidence db (exec db call).1 → KeepsCases db (exec db call).1 := by
    intro hother
    cases exec_cases hs call with
    | quiet h => exact keepsCases_of_same h.toSameCases h.insertOrder
    | rebuilds h => exact rebuilds_keepsCases hwf horder h
    | edits ncr ncr' h _ _ =>
      refine ⟨hother.insertOrder, by rw [h.occurrences], fun o ho _ => h.occurrences ▸ ho, ?_, hother.versions,
        hother.evidence⟩
      rw [h.nonconformances]
      exact rewritten_identities hwf h.found (hsame h.identity)
    | releases ncr ncr' decision now h _ =>
      refine ⟨hother.insertOrder, ?_, fun o ho hopen => ?_, ?_, hother.versions, hother.evidence⟩
      · rw [h.occurrences]
        refine map_modifyWhere ?_ db.defectOccurrences
        exact fun _ => rfl
      · rw [h.occurrences] at ho
        obtain ⟨old, hold, rfl⟩ := mem_modifyWhere.mp ho
        split at hopen
        · cases hopen
        · rename_i hmiss
          rwa [if_neg hmiss]
      · have hclosed : identityOf { ncr' with closedAt := some now } = identityOf ncr := by
          rw [← hsame h.identity]
          rfl
        rw [h.nonconformances]
        exact rewritten_identities hwf h.found hclosed
  cases exec_frame hs call with
  | ingested event receivedAt result _ h =>
    exact keepsCases_of_same (ingest_quiet h).toSameCases (ingest_quiet h).insertOrder
  | rebuilt itemId _ h => exact rebuildItem_keepsCases hwf horder h
  | failed itemId error _ _ hmarked =>
    rw [hmarked]
    exact ⟨rfl, rfl, fun _ ho _ => ho, rfl, rfl, rfl⟩
  | invalidated body userId _ heq =>
    rw [heq]
    exact rebuilds_keepsCases hwf horder (invalidateDevice_rebuilds db body userId)
  | configured config _ heq =>
    rw [heq]
    exact ⟨rfl, rfl, fun _ ho _ => ho, rfl, rfl, rfl⟩
  | other h => exact hedits h

theorem run_keepsCases {db : Database} (hs : Sound db) (horder : db.insertOrder = .byClassName)
    (calls : List Call) : KeepsCases db (run db calls) :=
  Machine.run_related (P := fun m => Sound m ∧ m.insertOrder = .byClassName) (r := KeepsCases) KeepsCases.refl
    KeepsCases.trans
    (fun _ call hm => ⟨⟨exec_sound hm.1 call,
      (exec_keepsCases hm.1 hm.2 call).insertOrder.trans hm.2⟩, exec_keepsCases hm.1 hm.2 call⟩)
    ⟨hs, horder⟩ calls

/-! ## Tables under either mapping -/

/-- Empty tables of a mapping that inserts the observations first. -/
def parentsFirst : Database := { insertOrder := .parentsFirst }

theorem initial_parentsFirst : Initial parentsFirst := ⟨{}, _, rfl⟩

/-- The same tables under the mapping that sorts its INSERTs by class name. -/
def shipped (db : Database) : Database := { db with insertOrder := .byClassName }

theorem sound_shipped {db : Database} (h : Sound db) : Sound (shipped db) :=
  ⟨wellFormed_congr h.toWellFormed rfl rfl rfl le_rfl, h.results_fresh⟩

end TraceQ.Backend
