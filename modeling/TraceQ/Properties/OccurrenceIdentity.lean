import TraceQ.Backend.RowSources
import TraceQ.Properties.Reopening

/-! # Identity of the occurrences

Observations are deleted and written anew by every rebuild while the occurrences stay. An occurrence names
its observations by ids that the events determine, and no event is lost, so the ids name rows again after
every rebuild.
-/
namespace TraceQ.Properties
open Projections Ingestion Api Quality Tables Results Backend
set_option autoImplicit false
set_option maxHeartbeats 250000

/-! ## Observations an occurrence names -/

/-- The id is that of an observation of the item which found a defect of the key. -/
def Names (db : Database) (itemId : String) (key : DefectKey) (id : ObservationId) : Prop :=
  ∃ obs ∈ db.observations, obs.id = id ∧ obs.itemId = itemId ∧ obs.inspectionResult = .defectDetected ∧
    ∃ defect ∈ db.defectObservations, defect.observationId = id ∧ defect.itemId = itemId ∧
      (⟨defect.defectType, defect.componentInstanceId⟩ : DefectKey) = key

/-- The id is that of a stored event of the item which reports the key. -/
def Reports (db : Database) (itemId : String) (key : DefectKey) (id : ObservationId) : Prop :=
  ∃ raw ∈ storedEvents db itemId, raw.eventId = id.eventId ∧ key ∈ reportedKeys raw.payload

theorem Reports.mono {db db' : Database} (h : db.rawEvents <+: db'.rawEvents) {itemId : String}
    {key : DefectKey} {id : ObservationId} (hreports : Reports db itemId key id) :
    Reports db' itemId key id := by
  obtain ⟨raw, hraw, hid, hkey⟩ := hreports
  exact ⟨raw, (h.sublist.filter _).subset hraw, hid, hkey⟩

theorem Names.congr {db db' : Database} (h : SameRows db db') {itemId : String} {key : DefectKey}
    {id : ObservationId} (hnames : Names db itemId key id) : Names db' itemId key id := by
  unfold Names at hnames ⊢
  rw [h.observations, h.defectObservations]
  exact hnames

theorem names_iff_owned {db : Database} {itemId : String} {key : DefectKey} {id : ObservationId} :
    Names db itemId key id ↔ ∃ obs ∈ ownedBy (·.itemId) itemId db.observations, obs.id = id ∧
      obs.inspectionResult = .defectDetected ∧
      ∃ defect ∈ ownedBy (·.itemId) itemId db.defectObservations, defect.observationId = id ∧
        (⟨defect.defectType, defect.componentInstanceId⟩ : DefectKey) = key := by
  simp only [Names, mem_ownedBy, and_assoc]
  constructor
  · rintro ⟨obs, hobs, hid, hitem, hresult, defect, hdefect, hdid, hditem, hkey⟩
    exact ⟨obs, hobs, hitem, hid, hresult, defect, hdefect, hditem, hdid, hkey⟩
  · rintro ⟨obs, hobs, hitem, hid, hresult, defect, hdefect, hditem, hdid, hkey⟩
    exact ⟨obs, hobs, hid, hitem, hresult, defect, hdefect, hdid, hditem, hkey⟩

theorem reports_of_sighting {db : Database} {itemId : String} {sighting : Sighting}
    (h : sighting ∈ itemSightings db itemId) :
    Reports db itemId sighting.key ⟨sighting.observation.eventId⟩ := by
  obtain ⟨hobs, -, hdefect⟩ := mem_sightings.mp h
  obtain ⟨raw, hraw, hid, hpayload, -⟩ := (fromEvents_replay db itemId).observations _ hobs
  refine ⟨raw, hraw, hid, ?_⟩
  rw [hpayload]
  exact List.mem_map_of_mem hdefect

/-! ## One rebuild -/

/-- After a rebuild of its item, every event that reports a key has its rows. -/
theorem names_of_reports {db db' : Database} (hwf : WellFormed db) {itemId : String}
    (h : rebuildItem db itemId = .ok db') {key : DefectKey} {id : ObservationId}
    (hreports : Reports db itemId key id) : Names db' itemId key id := by
  obtain ⟨raw, hraw, hid, hkey⟩ := hreports
  have hraws : history db itemId ≠ [] := List.ne_nil_of_mem (mem_history.mpr hraw)
  obtain ⟨hobs, hdefects⟩ := rebuildItem_observations hwf h hraws
  cases hkind : raw.payload with
  | inspectionResult payload =>
    rw [hkind] at hkey
    obtain ⟨defect, hdefect, rfl⟩ := List.mem_map.mp hkey
    have hresult : payload.inspectionResult = .defectDetected :=
      payload.validate_defects.mpr (List.ne_nil_of_mem hdefect)
    have hvalue : observationValue db raw payload ∈ (history db itemId).filterMap (inspected db) :=
      List.mem_filterMap.mpr ⟨raw, mem_history.mpr hraw, by simp only [inspected, hkind]⟩
    -- conflicts may have changed the trust of the value and nothing else
    have hmarked : ∃ value ∈ (replay db itemId).observations, value.payload = payload ∧
        value.eventId = raw.eventId := by
      rw [replay_observations]
      refine ⟨_, List.mem_map_of_mem hvalue, ?_⟩
      split <;> exact ⟨rfl, rfl⟩
    obtain ⟨value, hmem, hpayload, hevent⟩ := hmarked
    have hrowId : (⟨value.eventId⟩ : ObservationId) = id := by rw [hevent, hid]
    rw [names_iff_owned, hobs, hdefects]
    refine ⟨_, List.mem_map_of_mem hmem, hrowId, (congrArg _ hpayload).trans hresult, ?_⟩
    have hlisted : defect ∈ value.payload.defects := hpayload ▸ hdefect
    refine ⟨_, List.mem_flatMap.mpr ⟨value, hmem, List.mem_map_of_mem hlisted⟩, hrowId, ?_⟩
    rw [hpayload]
  | _ => rw [hkind] at hkey; cases hkey

/-- Where the ids of the occurrences after the linking of sightings come from. -/
def IdsFrom (db : Database) (itemId : String) (found : List Sighting) (m : Database) : Prop :=
  ∀ o ∈ m.defectOccurrences, ∀ id, id = o.firstObservationId ∨ id = o.currentObservationId →
    (∃ old ∈ db.defectOccurrences, old.itemId = o.itemId ∧ old.key = o.key ∧
      (id = old.firstObservationId ∨ id = old.currentObservationId)) ∨
    (o.itemId = itemId ∧ ∃ s ∈ found, s.key = o.key ∧ id = ⟨s.observation.eventId⟩)

theorem records_occurrences {db db' : Database} {n : Nonconformance} {a : Option Assessment}
    (h : Records db n a db') : db'.defectOccurrences = db.defectOccurrences := by
  rcases h with ⟨-, rfl⟩ | ⟨result, reason, evidence, -, -, -, rfl⟩ <;> rfl

theorem linkSighting_ids {db m m' : Database} (hwf : WellFormed m) {itemId : String}
    {context : AnalysisContext} {found : List Sighting} {s : Sighting} (hs : s ∈ found)
    (hids : IdsFrom db itemId found m) (h : linkSighting itemId context m s = .ok m') :
    IdsFrom db itemId found m' := by
  intro o ho id hid
  rcases linkSighting_cases hwf h with ⟨touched, n, hopen, -, hrec⟩ | ⟨-, hrec⟩
  · rw [records_occurrences hrec] at ho
    obtain ⟨old, hold, rfl⟩ := mem_modifyWhere.mp ho
    by_cases htouched : old.id = touched.id
    · obtain ⟨hmem, hitem, hkey, -⟩ := (findOpenOccurrence_iff hwf).mp hopen
      obtain rfl := eq_of_nodup_map hwf.occurrence_ids hold hmem htouched
      simp only [decide_true, if_true] at hid ⊢
      rcases hid with rfl | rfl
      · exact hids _ hold _ (.inl rfl)
      · exact .inr ⟨hitem, s, hs, hkey.symm, rfl⟩
    · simp only [htouched, decide_false, Bool.false_eq_true, if_false] at hid ⊢
      exact hids old hold id hid
  · rw [records_occurrences hrec] at ho
    rcases List.mem_append.mp ho with hold | hnew
    · exact hids o hold id hid
    · rw [List.mem_singleton.mp hnew] at hid ⊢
      refine .inr ⟨rfl, s, hs, rfl, ?_⟩
      rcases hid with rfl | rfl <;> rfl

theorem linkSightings_ids {db m m' : Database} (hwf : WellFormed m) {itemId : String}
    {context : AnalysisContext} {found : List Sighting}
    (hsame : m.defectOccurrences = db.defectOccurrences)
    (h : linkSightings itemId context m found = .ok m') : IdsFrom db itemId found m' := by
  refine (foldlM_invariant (P := fun k => WellFormed k ∧ IdsFrom db itemId found k) ?_ h ⟨hwf, ?_⟩).2
  · rintro s hs k k' ⟨hk, hids⟩ hstep
    exact ⟨linkSighting_wellFormed hk hstep, linkSighting_ids hk hs hids hstep⟩
  · exact fun o ho id hid => .inl ⟨o, hsame ▸ ho, rfl, rfl, hid⟩

/-- Both ids of every occurrence name a stored event and a row. -/
def Named (db : Database) : Prop :=
  ∀ o ∈ db.defectOccurrences, ∀ id, id = o.firstObservationId ∨ id = o.currentObservationId →
    Reports db o.itemId o.key id ∧ Names db o.itemId o.key id

theorem rebuildItem_named {db db' : Database} (hwf : WellFormed db) (hn : Named db) {target : String}
    (h : rebuildItem db target = .ok db') : Named db' := by
  have hraws := rebuildItem_rawEvents hwf h
  obtain ⟨registered, linked, hsame, hlinked, hsame'⟩ := rebuildItem_links_after hwf h
  have hids := linkSightings_ids (hsame.wellFormed hwf) hsame.occurrences hlinked
  rw [IdsFrom, ← hsame'.occurrences] at hids
  intro o ho id hid
  have hreports : Reports db o.itemId o.key id := by
    rcases hids o ho id hid with ⟨old, hold, hitem, hkey, hid'⟩ | ⟨hitem, s, hs, hkey, rfl⟩
    · rw [← hitem, ← hkey]
      exact (hn old hold id hid').1
    · rw [hitem, ← hkey]
      exact reports_of_sighting hs
  refine ⟨hreports.mono (hraws ▸ List.prefix_rfl), ?_⟩
  by_cases hown : o.itemId = target
  · rw [hown] at hreports ⊢
    exact names_of_reports hwf h hreports
  · rcases hids o ho id hid with ⟨old, hold, hitem, hkey, hid'⟩ | ⟨hitem, -⟩
    · have hnames := (hn old hold id hid').2
      obtain ⟨hobs, hdefects⟩ := rebuildItem_observations_other hwf h hown
      rw [hitem, hkey, names_iff_owned] at hnames
      rw [names_iff_owned, hobs, hdefects]
      exact hnames
    · exact absurd hitem hown

/-! ## Every reachable state -/

/-- Occurrences that are old ones with other status columns keep their names. -/
theorem Named.keeps {db db' : Database} (h : Named db) (hrows : SameRows db db')
    (hraws : db.rawEvents <+: db'.rawEvents)
    (hocc : ∀ o' ∈ db'.defectOccurrences, ∃ o ∈ db.defectOccurrences, o'.itemId = o.itemId ∧
      o'.key = o.key ∧ o'.firstObservationId = o.firstObservationId ∧
      o'.currentObservationId = o.currentObservationId) : Named db' := by
  intro o' ho' id hid
  obtain ⟨o, ho, hitem, hkey, hfirst, hcurrent⟩ := hocc o' ho'
  rw [hfirst, hcurrent] at hid
  rw [hitem, hkey]
  obtain ⟨hreports, hnames⟩ := h o ho id hid
  exact ⟨hreports.mono hraws, hnames.congr hrows⟩

/-- Occurrences keep what identifies them in every call but a rebuild. -/
theorem exec_named {db : Database} (hs : Sound db) (h : Named db) (call : Call) :
    Named (exec db call).1 := by
  have hkept : ∀ db' : Database, SameRows db db' → db.rawEvents <+: db'.rawEvents →
      db'.defectOccurrences = db.defectOccurrences → Named db' := fun db' hrows hraws hocc =>
    h.keeps hrows hraws fun o ho => ⟨o, hocc ▸ ho, rfl, rfl, rfl, rfl⟩
  cases exec_frame hs call with
  | ingested event receivedAt result _ hingest =>
    have hquiet := ingest_quiet hingest
    refine hkept _ ?_ hquiet.rawEvents hquiet.occurrences
    rcases ingestEvent_cases hingest with ⟨_, -, -, heq, -⟩ | ⟨-, -, hout, -, -⟩
    · rw [heq]
      exact ⟨rfl, rfl, rfl, rfl, rfl⟩
    · exact ⟨(congrArg Database.operationRuns hout :), (congrArg Database.observations hout :),
        (congrArg Database.defectObservations hout :), (congrArg Database.machineEvents hout :),
        (congrArg Database.operatorActions hout :)⟩
  | rebuilt itemId _ hrebuild => exact rebuildItem_named hs.toWellFormed h hrebuild
  | failed itemId error _ _ hmarked =>
    rw [hmarked]
    exact hkept _ ⟨rfl, rfl, rfl, rfl, rfl⟩ List.prefix_rfl rfl
  | invalidated body userId _ heq =>
    rw [heq]
    refine (rebuildAll_invariant (P := fun m => WellFormed m ∧ Named m) ?_ ?_ ?_ _).2
    · rintro m n itemId ⟨hm, hnamed⟩ hn
      exact ⟨rebuildItem_wellFormed hm hn, rebuildItem_named hm hnamed hn⟩
    · exact ⟨hs.toWellFormed, h⟩
    · exact ⟨wellFormed_congr hs.toWellFormed rfl rfl rfl le_rfl,
        hkept _ ⟨rfl, rfl, rfl, rfl, rfl⟩ List.prefix_rfl rfl⟩
  | configured config _ heq =>
    rw [heq]
    exact hkept _ ⟨rfl, rfl, rfl, rfl, rfl⟩ List.prefix_rfl rfl
  | other hsame =>
    refine h.keeps hsame.toSameRows (hsame.rawEvents ▸ List.prefix_rfl) fun o' ho' => ?_
    have hmem : whileOpen o' ∈ db.defectOccurrences.map whileOpen :=
      hsame.occurrences ▸ List.mem_map_of_mem ho'
    obtain ⟨o, ho, heq⟩ := List.mem_map.mp hmem
    exact ⟨o, ho, (congrArg DefectOccurrence.itemId heq).symm, (congrArg DefectOccurrence.key heq).symm,
      (congrArg DefectOccurrence.firstObservationId heq).symm,
      (congrArg DefectOccurrence.currentObservationId heq).symm⟩

theorem reachable_named {db : Database} (h : Reachable db) : Named db := by
  refine (Machine.reachable_invariant (P := fun m => Sound m ∧ Named m) ?_ ?_ h).2
  · rintro m ⟨config, order, rfl⟩
    exact ⟨sound_initial ⟨config, order, rfl⟩, by simp [Named]⟩
  · rintro m call ⟨hs, hm⟩
    exact ⟨exec_sound hs call, exec_named hs hm call⟩

/-! ## The identity of the occurrences -/

structure OccurrenceIdentity (db : Database) : Prop where
  one_open : ∀ itemId key, (db.defectOccurrences.filter fun o =>
    decide (o.itemId = itemId ∧ o.key = key ∧ o.status = .opened)).length ≤ 1
  one_ncr : ∀ o ∈ db.defectOccurrences, ∃ n, n.itemId = o.itemId ∧ n.key = o.key ∧
    (db.nonconformances.filter fun n => decide (n.occurrenceId = o.id)) = [n]
  first_named : ∀ o ∈ db.defectOccurrences, Names db o.itemId o.key o.firstObservationId
  current_named : ∀ o ∈ db.defectOccurrences, Names db o.itemId o.key o.currentObservationId

/-- Every defect a projected observation of the item lists has an occurrence. -/
def DefectsCovered (db : Database) (itemId : String) : Prop :=
  ∀ obs ∈ db.observations, obs.itemId = itemId → obs.inspectionResult = .defectDetected →
    ∀ defect ∈ db.defectObservations, defect.observationId = obs.id →
      ∃ o ∈ db.defectOccurrences, o.itemId = itemId ∧
        o.key = ⟨defect.defectType, defect.componentInstanceId⟩

theorem length_le_one {α : Type} {rows : List α} (hnodup : rows.Nodup)
    (h : ∀ a ∈ rows, ∀ b ∈ rows, a = b) : rows.length ≤ 1 := by
  match rows with
  | [] => exact Nat.zero_le _
  | [_] => exact le_rfl
  | a :: b :: rest =>
    have hne := (List.nodup_cons.mp hnodup).1
    exact absurd (h a (by simp) b (by simp) ▸ List.mem_cons_self) hne

theorem occurrenceIdentity_of_wellFormed {db : Database} (h : WellFormed db) (hn : Named db) :
    OccurrenceIdentity db := by
  refine ⟨fun itemId key => ?_, fun o ho => ?_, fun o ho => (hn o ho _ (.inl rfl)).2,
    fun o ho => (hn o ho _ (.inr rfl)).2⟩
  · refine length_le_one (h.occurrence_ids.of_map.filter _) fun a ha b hb => ?_
    simp only [List.mem_filter, decide_eq_true_eq] at ha hb
    obtain ⟨ha, hai, hak, has⟩ := ha
    obtain ⟨hb, hbi, hbk, hbs⟩ := hb
    exact h.open_unique a ha b hb ⟨has, hbs, hai.trans hbi.symm, hak.trans hbk.symm⟩
  · obtain ⟨n, hmem, hid⟩ := h.ncr_of_occurrence o ho
    obtain ⟨o', ho', hoid, hitem, hkey⟩ := h.occurrence_of_ncr n hmem
    obtain rfl := eq_of_nodup_map h.occurrence_ids ho' ho (hoid.trans hid)
    refine ⟨n, hitem.symm, hkey.symm, ?_⟩
    have hin : n ∈ db.nonconformances.filter fun n => decide (n.occurrenceId = o'.id) := by
      simp [hmem, hid]
    have hlength : (db.nonconformances.filter fun n => decide (n.occurrenceId = o'.id)).length ≤ 1 := by
      refine length_le_one (h.ncr_ids.of_map.filter _) fun a ha b hb => ?_
      simp only [List.mem_filter, decide_eq_true_eq] at ha hb
      exact eq_of_nodup_map h.ncr_occurrences ha.1 hb.1 (ha.2.trans hb.2.symm)
    obtain ⟨m, hm⟩ := List.length_eq_one_iff.mp (le_antisymm hlength (List.length_pos_of_mem hin))
    rw [hm] at hin ⊢
    rw [List.mem_singleton.mp hin]

theorem defect_item {db : Database} (hsources : Sources db) (hrows : RowsStored db) {obs : Observation}
    (hobs : obs ∈ db.observations) {defect : DefectObservation} (hdefect : defect ∈ db.defectObservations)
    (hid : defect.observationId = obs.id) : defect.itemId = obs.itemId := by
  obtain ⟨hrowId, raw, hraw, hevent⟩ := hrows.observations obs hobs
  obtain ⟨raw', hraw', hevent'⟩ := hrows.defectObservations defect hdefect
  obtain ⟨hmem, hitem⟩ := List.mem_filter.mp hraw
  obtain ⟨hmem', hitem'⟩ := List.mem_filter.mp hraw'
  have hsame : raw'.eventId = raw.eventId := by
    rw [hevent', hevent, hid, hrowId]
  obtain rfl := eq_of_nodup_map hsources.event_ids hmem' hmem hsame
  exact Option.some.inj ((of_decide_eq_true hitem').symm.trans (of_decide_eq_true hitem))

theorem covered_of_rebuild {db db' : Database} (hdb : Reachable db) {itemId : String}
    (h : rebuildItem db itemId = .ok db') : DefectsCovered db' itemId := by
  have hwf := (reachable_sound hdb).toWellFormed
  have hdb' := reachable_rebuild hdb h
  intro obs hobs hitem hresult defect hdefect hid
  have hown := (defect_item (reachable_sources hdb') (reachable_rows hdb') hobs hdefect hid).trans hitem
  have hraws : history db itemId ≠ [] := by
    obtain ⟨-, raw, hraw, -⟩ := (reachable_rows hdb').observations obs hobs
    rw [hitem, storedEvents_congr (rebuildItem_rawEvents hwf h)] at hraw
    exact List.ne_nil_of_mem (mem_history.mpr hraw)
  obtain ⟨-, hdefects⟩ := rebuildItem_observations hwf h hraws
  have hlisted := mem_ownedBy.mpr ⟨hdefect, hown⟩
  rw [hdefects] at hlisted
  obtain ⟨value, hvalue, hlisted⟩ := List.mem_flatMap.mp hlisted
  obtain ⟨listed, hdetail, rfl⟩ := List.mem_map.mp hlisted
  have hdetected : value.payload.inspectionResult = .defectDetected :=
    value.payload.validate_defects.mpr (List.ne_nil_of_mem hdetail)
  have hsighting : (⟨value, listed⟩ : Sighting) ∈ itemSightings db itemId :=
    mem_sightings.mpr ⟨hvalue, hdetected, hdetail⟩
  obtain ⟨o, ho, hoitem, hokey, -⟩ :=
    (caseFiles_isSome (rebuildItem_wellFormed hwf h)).mp (rebuildItem_opens hwf h hsighting)
  exact ⟨o, ho, hoitem, hokey⟩

/-- In every reachable state the occurrences are identified by their defects and their observations, and a
rebuild leaves no projected defect without one. -/
theorem occurrence_identity (db : Database) (h : Reachable db) :
    OccurrenceIdentity db ∧
      ∀ itemId db', rebuildItem db itemId = .ok db' → DefectsCovered db' itemId :=
  ⟨occurrenceIdentity_of_wellFormed (reachable_sound h).toWellFormed (reachable_named h),
    fun _ _ hrebuild => covered_of_rebuild h hrebuild⟩

theorem occurrence_identity_accepted_scratch : OccurrenceIdentity (run parentsFirst acceptedScratch) :=
  (occurrence_identity _ acceptedScratch_reachable).1

end TraceQ.Properties
