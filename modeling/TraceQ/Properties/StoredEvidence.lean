import TraceQ.Backend.Histories
import TraceQ.Backend.RebuildViews
import TraceQ.Properties.AnalysisBoundary

/-! # Evidence of the current analysis

The evidence of a version is written once, when the version is appended, and a version is appended
only when the status or a boundary changes. So the stored evidence is that of the current projections
right after the append; later context inside an unchanged window is not added to it. In the order of the class
names a rebuild that completes is of an item without cases, and leaves those of the others as they are.
-/
namespace TraceQ.Properties
open Projections Ingestion Api Quality Tables Results Backend ChangeLog
set_option autoImplicit false
set_option maxHeartbeats 250000

/-! ## Rows of evidence belong to versions -/

/-- Every row of evidence belongs to a version. -/
def EvidenceOwned (db : Database) : Prop :=
  ∀ row ∈ db.analysisEvidence, ∃ v ∈ db.analysisVersions, v.id = row.analysisVersionId

theorem EvidenceOwned.congr {db db' : Database} (h : EvidenceOwned db)
    (versions : db'.analysisVersions = db.analysisVersions)
    (evidence : db'.analysisEvidence = db.analysisEvidence) : EvidenceOwned db' := by
  intro row hrow
  rw [evidence] at hrow
  rw [versions]
  exact h row hrow

theorem evidenceOwned_appendVersion {db : Database} (h : EvidenceOwned db) (n : Nonconformance)
    (result : Assessment) (reason : AnalysisReason) (evidence : List EvidenceValue) :
    EvidenceOwned (appendVersion db n result reason evidence) := by
  intro row hrow
  rcases List.mem_append.mp hrow with hold | hnew
  · obtain ⟨v, hv, hid⟩ := h row hold
    exact ⟨v, List.mem_append_left _ hv, hid⟩
  · obtain ⟨value, -, rfl⟩ := List.mem_map.mp hnew
    exact ⟨newVersion db n result reason, List.mem_append_right _ (List.mem_singleton_self _), rfl⟩

theorem evidenceOwned_records {db db' : Database} {n : Nonconformance} {a : Option Assessment}
    (h : EvidenceOwned db) (hrec : Records db n a db') : EvidenceOwned db' := by
  rcases hrec with ⟨-, rfl⟩ | ⟨result, reason, evidence, -, -, -, rfl⟩
  · exact h
  · exact evidenceOwned_appendVersion h n result reason evidence

theorem linkSighting_owned {db db' : Database} (hwf : WellFormed db) (h : EvidenceOwned db)
    {itemId : String} {context : AnalysisContext} {sighting : Sighting}
    (hok : linkSighting itemId context db sighting = .ok db') : EvidenceOwned db' := by
  rcases linkSighting_cases hwf hok with ⟨o, n, -, -, hrec⟩ | ⟨-, hrec⟩
  · have htouch : EvidenceOwned (touchOccurrence db o.id ⟨sighting.observation.eventId⟩) :=
      h.congr rfl rfl
    exact evidenceOwned_records htouch hrec
  · have hopen : EvidenceOwned (openCase db itemId sighting) := h.congr rfl rfl
    exact evidenceOwned_records hopen hrec

theorem rebuildItem_owned {db db' : Database} (hwf : WellFormed db) (h : EvidenceOwned db)
    {itemId : String} (hrebuild : rebuildItem db itemId = .ok db') : EvidenceOwned db' := by
  obtain ⟨registered, linked, hsame, -, hlinked, hsame', -, -⟩ := rebuildItem_links hrebuild
  have hloop : WellFormed linked ∧ EvidenceOwned linked := by
    refine foldlM_invariant (P := fun m => WellFormed m ∧ EvidenceOwned m) ?_ hlinked
      ⟨hsame.wellFormed hwf, h.congr hsame.versions hsame.evidence⟩
    rintro s - m n ⟨hm, howned⟩ hstep
    exact ⟨linkSighting_wellFormed hm hstep, linkSighting_owned hm howned hstep⟩
  exact hloop.2.congr hsame'.versions hsame'.evidence

theorem exec_owned {db : Database} (hs : Sound db) (h : EvidenceOwned db) (call : Call) :
    EvidenceOwned (exec db call).1 := by
  cases exec_frame hs call with
  | ingested event receivedAt result _ hingest =>
    exact h.congr (ingest_quiet hingest).versions (ingest_quiet hingest).evidence
  | rebuilt itemId _ hrebuild => exact rebuildItem_owned hs.toWellFormed h hrebuild
  | failed itemId error _ _ hmarked => exact hmarked ▸ h.congr rfl rfl
  | invalidated body userId _ heq =>
    rw [heq]
    refine (rebuildAll_invariant (P := fun m => WellFormed m ∧ EvidenceOwned m) ?_ ?_ ?_ _).2
    · rintro m n itemId ⟨hm, howned⟩ hn
      exact ⟨rebuildItem_wellFormed hm hn, rebuildItem_owned hm howned hn⟩
    · exact ⟨hs.toWellFormed, h⟩
    · exact ⟨wellFormed_congr hs.toWellFormed rfl rfl rfl le_rfl, h.congr rfl rfl⟩
  | configured config _ heq => exact heq ▸ h.congr rfl rfl
  | other hother => exact h.congr hother.versions hother.evidence

theorem reachable_owned {db : Database} (h : Reachable db) : EvidenceOwned db := by
  refine (Machine.reachable_invariant (P := fun m => Sound m ∧ EvidenceOwned m) ?_ ?_ h).2
  · rintro m ⟨config, order, rfl⟩
    exact ⟨sound_initial ⟨config, order, rfl⟩, fun _ hrow => absurd hrow List.not_mem_nil⟩
  · rintro m call ⟨hs, hm⟩
    exact ⟨exec_sound hs call, exec_owned hs hm call⟩

/-! ## What a version is appended with -/

/-- The evidence of a version is that of the birth window of a trusted sighting of its defect, which
ends where the version does. -/
def Evidenced (db : Database) (context : AnalysisContext) (found : List Sighting)
    (v : AnalysisVersion) : Prop :=
  ∃ s ∈ found, s.key = ⟨v.defectType, v.componentInstanceId⟩ ∧
    s.observation.trustStatus = .trusted ∧ v.rightBoundaryAt = some s.occurredAt ∧
    ∃ w, calculateBirthWindow s context = .ok w ∧ assessmentOf v = w.assessment ∧
      (evidenceOf db v.id).Perm (w.evidence.map (evidenceRow v.id))

/-- An assessment writes nothing, or it appends a version with the evidence computed for it. -/
theorem assessSighting_appends {db db' : Database} {n : Nonconformance} {sighting : Sighting}
    {context : AnalysisContext} (hok : assessSighting db n sighting context = .ok db') :
    db' = db ∨ ∃ result reason evidence, db' = appendVersion db n result reason evidence ∧
      (isWindow result → sighting.observation.trustStatus = .trusted ∧
        calculateBirthWindow sighting context = .ok ⟨result, evidence⟩) := by
  unfold assessSighting at hok
  cases htrust : sighting.observation.trustStatus with
  | trusted =>
    simp only [htrust] at hok
    obtain ⟨w, hw, hok⟩ := bind_ok.mp hok
    have hdb := pure_ok.mp hok
    by_cases hchanged : analysisChanged (latestAnalysis db n.id) w.assessment = true
    · rw [if_pos hchanged] at hdb
      exact .inr ⟨w.assessment, _, w.evidence, hdb.symm, fun _ => ⟨rfl, hw⟩⟩
    · rw [if_neg hchanged] at hdb
      exact .inl hdb.symm
  | invalidated =>
    simp only [htrust] at hok
    rw [← Except.ok.inj hok]
    by_cases hversion : n.currentAnalysisVersion ≠ 0
    · rw [if_pos hversion, createInvalidatedAnalysis]
      split
      · exact .inl rfl
      · exact .inr ⟨_, _, _, rfl, fun hwindow => absurd hwindow (by decide)⟩
    · exact .inl (if_neg hversion)
  | untrusted | unassessable | conflicted =>
    simp only [htrust] at hok
    exact .inl (Except.ok.inj hok).symm

/-- The new rows are all of the evidence of the new version. -/
theorem evidenceOf_appendVersion {db : Database} (hhistory : History db) (howned : EvidenceOwned db)
    (n : Nonconformance) (result : Assessment) (reason : AnalysisReason)
    (evidence : List EvidenceValue) :
    evidenceOf (appendVersion db n result reason evidence) (newVersion db n result reason).id =
      evidence.map (evidenceRow (newVersion db n result reason).id) := by
  have hnone : evidenceOf db (newVersion db n result reason).id = [] := by
    rw [evidenceOf, List.filter_eq_nil_iff]
    intro row hrow hid
    rw [decide_eq_true_eq] at hid
    obtain ⟨v, hv, hvid⟩ := howned row hrow
    exact absurd (hhistory.ids v hv) (by rw [hvid, hid]; exact lt_irrefl _)
  have hall : (evidence.map (evidenceRow (newVersion db n result reason).id)).filter
      (fun row => decide (row.analysisVersionId = (newVersion db n result reason).id)) =
      evidence.map (evidenceRow (newVersion db n result reason).id) := by
    rw [List.filter_eq_self]
    intro row hrow
    obtain ⟨value, -, rfl⟩ := List.mem_map.mp hrow
    exact decide_eq_true rfl
  have happ : evidenceOf (appendVersion db n result reason evidence)
      (newVersion db n result reason).id = evidenceOf db (newVersion db n result reason).id ++
      (evidence.map (evidenceRow (newVersion db n result reason).id)).filter
        (fun row => decide (row.analysisVersionId = (newVersion db n result reason).id)) :=
    List.filter_append _ _
  rw [happ, hnone, hall, List.nil_append]

/-! ## One sighting, the loop -/

/-- The window versions from the id `first` on have the evidence computed for them. -/
structure FreshEvidenced (first : Uuid) (context : AnalysisContext) (found : List Sighting)
    (db : Database) : Prop where
  wellFormed : WellFormed db
  history : History db
  owned : EvidenceOwned db
  evidenced : ∀ v ∈ db.analysisVersions, first ≤ v.id → isWindow (assessmentOf v) →
    Evidenced db context found v

theorem Evidenced.congr {db db' : Database} {context : AnalysisContext} {found : List Sighting}
    {v : AnalysisVersion} (h : Evidenced db context found v)
    (evidence : evidenceOf db' v.id = evidenceOf db v.id) : Evidenced db' context found v := by
  obtain ⟨s, hs, hkey, htrusted, hright, w, hw, hassessment, hrows⟩ := h
  exact ⟨s, hs, hkey, htrusted, hright, w, hw, hassessment, evidence ▸ hrows⟩

/-- The nonconformance a sighting is linked to has its defect. -/
theorem linkNcr_key {db : Database} (hwf : WellFormed db) (itemId : String) (sighting : Sighting) :
    (linkNcr (linkOccurrence db itemId sighting).1 (linkOccurrence db itemId sighting).2 itemId
      sighting).2.key = sighting.key := by
  cases hopen : findOpenOccurrence db itemId sighting.key with
  | some o =>
    obtain ⟨n, hn, hlink⟩ := link_open hwf hopen
    obtain ⟨hmem, hocc⟩ := (findNcr_iff hwf).mp hn
    obtain ⟨o', ho', hoid, -, hkey⟩ := hwf.occurrence_of_ncr n hmem
    obtain ⟨ho, -, hokey, -⟩ := (findOpenOccurrence_iff hwf).mp hopen
    obtain rfl := eq_of_nodup_map hwf.occurrence_ids ho' ho (hoid.trans hocc)
    rw [hlink, ← hokey, hkey]
  | none =>
    rw [link_new hwf hopen]
    rfl

/-- Finding or opening the case writes no analysis. -/
theorem linked_analyses {db : Database} (hwf : WellFormed db) (itemId : String)
    (sighting : Sighting) :
    let linked := linkOccurrence db itemId sighting
    let found := linkNcr linked.1 linked.2 itemId sighting
    found.1.analysisVersions = db.analysisVersions ∧ found.1.analysisEvidence = db.analysisEvidence ∧
      db.nextId ≤ found.1.nextId := by
  cases hopen : findOpenOccurrence db itemId sighting.key with
  | some o =>
    obtain ⟨n, -, hlink⟩ := link_open hwf hopen
    simp only [hlink]
    exact ⟨rfl, rfl, le_rfl⟩
  | none =>
    simp only [link_new hwf hopen]
    exact ⟨rfl, rfl, by simp [openCase]⟩

theorem linkSighting_evidenced {first : Uuid} {context : AnalysisContext} {found : List Sighting}
    {db db' : Database} (h : FreshEvidenced first context found db) {itemId : String}
    {sighting : Sighting} (hs : sighting ∈ found)
    (hok : linkSighting itemId context db sighting = .ok db') :
    FreshEvidenced first context found db' := by
  have hwf' := linkSighting_wellFormed h.wellFormed hok
  obtain ⟨happends, hhistory'⟩ := linkSighting_history h.wellFormed h.history hok
  refine ⟨hwf', hhistory', linkSighting_owned h.wellFormed h.owned hok, fun v hv hfirst hwindow => ?_⟩
  -- a version that was there keeps its evidence
  have hold : v ∈ db.analysisVersions → Evidenced db' context found v := fun hmem =>
    (h.evidenced v hmem hfirst hwindow).congr (happends.evidenceOf (h.history.ids v hmem))
  have hkey := linkNcr_key h.wellFormed itemId sighting
  obtain ⟨hversions, hevidence, hnext⟩ := linked_analyses h.wellFormed itemId sighting
  simp only [linkSighting] at hok
  generalize linkNcr (linkOccurrence db itemId sighting).1 (linkOccurrence db itemId sighting).2 itemId
    sighting = linked at hok hkey hversions hevidence hnext
  rcases assessSighting_appends hok with rfl | ⟨result, reason, evidence, rfl, hcomputed⟩
  · exact hold (hversions ▸ hv)
  · rcases List.mem_append.mp hv with hmem | hnew
    · exact hold (hversions ▸ hmem)
    · obtain rfl := List.mem_singleton.mp hnew
      obtain ⟨htrusted, hw⟩ := hcomputed hwindow
      have hrows := evidenceOf_appendVersion (h.history.keeps hversions hnext)
        (h.owned.congr hversions hevidence) linked.2 result reason evidence
      exact ⟨sighting, hs, hkey.symm, htrusted, (birthWindow_right hw).1, _, hw, rfl, .of_eq hrows⟩

theorem rebuildItem_evidenced {db db' : Database} (hwf : WellFormed db) (hhistory : History db)
    (howned : EvidenceOwned db) {itemId : String} (h : rebuildItem db itemId = .ok db')
    {v : AnalysisVersion} (hv : v ∈ db'.analysisVersions) (hnew : db.nextId ≤ v.id)
    (hwindow : isWindow (assessmentOf v)) :
    Evidenced db' (itemContext db' itemId) (itemSightings db' itemId) v := by
  rw [itemSightings_of_outside (rebuildItem_outside hwf h)]
  obtain ⟨registered, linked, hsame, hlinked, hsame'⟩ := rebuildItem_links_after hwf h
  have hstart : FreshEvidenced db.nextId (itemContext db' itemId) (itemSightings db itemId)
      registered := by
    refine ⟨hsame.wellFormed hwf, hhistory.keeps hsame.versions hsame.nextId,
      howned.congr hsame.versions hsame.evidence, fun v hmem hfirst => ?_⟩
    rw [hsame.versions] at hmem
    exact absurd (hhistory.ids v hmem) (not_lt_of_ge hfirst)
  have hloop := foldlM_invariant (fun s hs m n hm hstep => linkSighting_evidenced hm hs hstep) hlinked
    hstart
  have hrows : evidenceOf db' v.id = evidenceOf linked v.id := by
    rw [evidenceOf, evidenceOf, hsame'.evidence]
  exact (hloop.evidenced v (hsame'.versions ▸ hv) hnew hwindow).congr hrows

/-! ## The evidence after a rebuild -/

/-- After a rebuild the current window of an open case has the evidence computed from the projections
if the rebuild appended it. Otherwise it has the evidence it had, and it is still the window computed
for the last assessed sighting of the defect, if there is one. -/
theorem stored_evidence {db db' : Database} (hdb : Reachable db) {itemId : String}
    (h : rebuildItem db itemId = .ok db') {o : DefectOccurrence} (ho : o ∈ db'.defectOccurrences)
    (hopen : o.status = .opened) {n : Nonconformance} (hn : n ∈ db'.nonconformances)
    (hid : n.occurrenceId = o.id) {v : AnalysisVersion} (hv : latestAnalysis db' n.id = some v)
    (hwindow : isWindow (assessmentOf v)) :
    (v ∉ db.analysisVersions →
      Evidenced db' (itemContext db' itemId) (itemSightings db' itemId) v) ∧
    (v ∈ db.analysisVersions → evidenceOf db' v.id = evidenceOf db v.id ∧
      ∀ last, o.itemId = itemId → lastAssessed n.key (itemSightings db' itemId) = some last →
        ∃ w, calculateBirthWindow last (itemContext db' itemId) = .ok w ∧
          assessmentOf v = w.assessment) := by
  have hwf := (reachable_sound hdb).toWellFormed
  have hwf' := rebuildItem_wellFormed hwf h
  have hhistory := reachable_history hdb
  obtain ⟨happends, -⟩ := rebuildItem_history hwf hhistory h
  have hmem : v ∈ db'.analysisVersions := (mem_versionsOf.mp (latestBy_mem hv)).1
  refine ⟨fun hfresh => ?_, fun hold => ⟨happends.evidenceOf (hhistory.ids v hold),
    fun last hitem hlast => ?_⟩⟩
  · obtain ⟨fresh, heq, hids⟩ := happends.versions
    rw [heq] at hmem
    have hnew := (List.mem_append.mp hmem).resolve_left hfresh
    exact rebuildItem_evidenced hwf hhistory (reachable_owned hdb) h (heq ▸ hmem) (hids v hnew).1 hwindow
  · obtain ⟨o', ho', hoid', -, hkey⟩ := hwf'.occurrence_of_ncr n hn
    obtain rfl := eq_of_nodup_map hwf'.occurrence_ids ho' ho (hoid'.trans hid)
    have hncr : findNcr db' o'.id = some n := (findNcr_iff hwf').mpr ⟨hn, hid⟩
    have hcurrent := rebuildItem_currentAssessment hwf h ho hitem hopen
    rw [itemSightings_of_outside (rebuildItem_outside hwf h)] at hlast
    rw [currentAssessment, hncr, Option.bind_some, currentAnalysis_log hwf' hn,
      ← latest_assessment (hwf'.versions_numbered n.id), hv, hkey, hlast, Option.map_some,
      Option.bind_some] at hcurrent
    obtain ⟨hfound, -, hassessed⟩ := lastAssessed_mem hlast
    obtain ⟨a, ha⟩ := rebuildItem_assess_ok hwf h last hfound
    rcases isAssessed_iff.mp hassessed with htrust | htrust
    · obtain ⟨w, hw, -⟩ := assess_trusted htrust ha
      rw [assessed_trusted htrust hw, Option.some_or] at hcurrent
      exact ⟨w, hw, Option.some.inj hcurrent⟩
    · rw [assessed_invalidated htrust, Option.some_or] at hcurrent
      rw [Option.some.inj hcurrent] at hwindow
      exact absurd hwindow (by decide)

/-! ## In the order of the class names -/

/-- Every current window of an open case of the item has the evidence computed now. -/
def EvidenceCurrent (db : Database) (itemId : String) : Prop :=
  ∀ o ∈ db.defectOccurrences, o.itemId = itemId → o.status = .opened →
    ∀ n ∈ db.nonconformances, n.occurrenceId = o.id → ∀ v, latestAnalysis db n.id = some v →
      isWindow (assessmentOf v) → Evidenced db (itemContext db itemId) (itemSightings db itemId) v

/-- After every rebuild that completes, the windows of its item have the evidence computed now. The projection of
every other item stays as it was, and so does the evidence of its windows. -/
theorem evidence_stays_current {db db' : Database} (hs : Sound db) (horder : db.insertOrder = .byClassName)
    (hreported : Reported db) {itemId : String} (h : rebuildItem db itemId = .ok db') :
    EvidenceCurrent db' itemId ∧ ∀ other, other ≠ itemId →
      viewOf db' other = viewOf db other ∧ (EvidenceCurrent db other → EvidenceCurrent db' other) := by
  have hwf := hs.toWellFormed
  have hsame := rebuildItem_sameCases horder h
  have hout := rebuildItem_outside hwf h
  constructor
  · intro o ho hitem
    rw [hsame.occurrences] at ho
    obtain ⟨raw, hraw, hdefects⟩ := hreported o ho
    rw [hitem] at hraw
    exact absurd (rebuildItem_lists_nothing horder h raw hraw) hdefects
  · intro other hother
    have hview := rebuildItem_view_other hwf h hother
    refine ⟨hview, fun hcurrent o ho hitem hopen n hn hid v hv hwindow => ?_⟩
    have hcontext : itemContext db' other = itemContext db other := by
      have hfound : findItem db' other = findItem db other := congrArg ItemView.item hview
      rw [itemContext, itemContext, replay_of_outside hout, analysisContext, analysisContext, hfound,
        config_of_outside hout]
    rw [hsame.occurrences] at ho
    rw [hsame.nonconformances] at hn
    rw [latestAnalysis, versionsOf, hsame.versions] at hv
    rw [hcontext, itemSightings_of_outside hout]
    exact (hcurrent o ho hitem hopen n hn hid v hv hwindow).congr (by rw [evidenceOf, evidenceOf, hsame.evidence])

/-! ### A scratch beside a good item -/

/-- A good inspection of another item, and the scratch is analysed. -/
def scratchBesideGood : List Call :=
  oneScratch ++ [.ingest { goodSeen "e-2" 20 with itemId := some "item-2" } 21, .rebuild "item-1"]

theorem scratchBesideGood_reachable : Reachable (run parentsFirst scratchBesideGood) :=
  ⟨_, scratchBesideGood, initial_parentsFirst, rfl⟩

theorem scratchBesideGood_current : EvidenceCurrent (run parentsFirst scratchBesideGood) "item-1" := by
  intro o ho _ hopen n hn hid v hv hwindow
  have hbefore : Reachable (run parentsFirst (scratchBesideGood.take 3)) := ⟨_, _, initial_parentsFirst, rfl⟩
  have hrebuild : rebuildItem (run parentsFirst (scratchBesideGood.take 3)) "item-1" =
      .ok (run parentsFirst scratchBesideGood) := rebuildItem_rebuildOrMark (by decide +kernel)
  have hnone : (run parentsFirst (scratchBesideGood.take 3)).analysisVersions = [] := by decide +kernel
  refine (stored_evidence hbefore hrebuild ho hopen hn hid hv hwindow).1 ?_
  rw [hnone]
  exact List.not_mem_nil

/-- The window of the scratch has its evidence still after the good item is rebuilt. -/
theorem evidence_stays_current_beside_good : EvidenceCurrent
    (rebuildOrMark (shipped (run parentsFirst scratchBesideGood)) "item-2") "item-1" := by
  have hreported : Reported (run parentsFirst scratchBesideGood) := reachable_reported scratchBesideGood_reachable
  have hrebuild : rebuildItem (shipped (run parentsFirst scratchBesideGood)) "item-2" =
      .ok (rebuildOrMark (shipped (run parentsFirst scratchBesideGood)) "item-2") :=
    rebuildItem_rebuildOrMark (by decide +kernel)
  exact ((evidence_stays_current (sound_shipped (reachable_sound scratchBesideGood_reachable)) rfl hreported
    hrebuild).2 "item-1" (by decide)).2 scratchBesideGood_current

/-! ### A late machine event -/

/-- A machine that stopped before the scratch was seen. -/
def pressStopped : EventEnvelope where
  eventId := "e-m"
  occurredAt := 5
  source := { sourceId := "press-1", sourceType := "plc" }
  itemId := some "item-1"
  payload := .machineState { equipmentId := "press-1", state := "alarm" }
  item_required := nofun
  run_required := nofun

/-- With the observations inserted first, a machine event from before the scratch lies in its window after the next
rebuild, and not in the stored evidence. -/
example :
    (itemSightings (run parentsFirst (analysedScratch ++ [.ingest pressStopped 21, .rebuild "item-1"])) "item-1").map
      (fun s => (calculateBirthWindow s (itemContext
        (run parentsFirst (analysedScratch ++ [.ingest pressStopped 21, .rebuild "item-1"])) "item-1")).toOption.map
          (·.evidence.length)) = [some 2] ∧
    (run parentsFirst (analysedScratch ++ [.ingest pressStopped 21, .rebuild "item-1"])).analysisEvidence.length = 1 := by
  decide +kernel

end TraceQ.Properties
