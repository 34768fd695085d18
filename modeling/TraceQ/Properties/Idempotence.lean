import TraceQ.Projections.Assessments
import TraceQ.Projections.RebuildOutcome
import TraceQ.Properties.Reopening

/-! # Rebuilding twice

A second rebuild replaces the projected rows by themselves and links the same sightings to the
cases the first one left. It succeeds, and it changes no row of the item exactly when the assessed
sightings of every defect agree.
-/
namespace TraceQ.Properties
open Projections Ingestion Api Quality Tables Results Backend ChangeLog
set_option autoImplicit false
set_option maxHeartbeats 250000

/-! ## The projected rows -/

theorem insertable_again {α κ : Type} {ownerOf : α → String} {key : α → κ} {itemId : String}
    {rows fresh : List α} (howner : ∀ row ∈ fresh, ownerOf row = itemId)
    (h : Insertable ownerOf key itemId rows fresh) :
    Insertable ownerOf key itemId (replaceOwned ownerOf itemId rows fresh) fresh := by
  refine ⟨h.1, fun row hrow hother => ?_⟩
  rcases List.mem_append.mp hrow with hold | hnew
  · exact h.2 row (List.mem_filter.mp hold).1 hother
  · exact absurd (howner row hnew) hother

/-- Storing a projection where it is stored already writes nothing. -/
theorem storeProjection_again {db stored db' : Database} {itemId : String} {values : ReplayValues}
    (h : storeProjection db itemId values = .ok stored)
    (hrows : SameRows stored db') (horder : db'.insertOrder = db.insertOrder) :
    storeProjection db' itemId values = .ok db' := by
  obtain ⟨runs, hvalues, hstorable, rfl⟩ := storeProjection_ok_iff.mp h
  obtain ⟨hruns, hobservations, hdefects, hmachines, hactions⟩ := hrows
  dsimp only at hruns hobservations hdefects hmachines hactions
  have hruns' := operationRunRows_item hvalues
  have hobservations' := observationRows_item itemId values.observations
  have hdefects' := defectObservationRows_item itemId values.observations
  have hmachines' := machineEventRows_item itemId values.machineEvents
  have hactions' := operatorActionRows_item itemId values.operatorActions
  refine storeProjection_ok_iff.mpr ⟨runs, hvalues, ⟨?_, hstorable.storable, ?_, ?_, ?_, ?_⟩, ?_⟩
  · rw [horder]
    exact hstorable.references
  · rw [hruns]
    exact insertable_again hruns' hstorable.operationRuns
  · rw [hobservations]
    exact insertable_again hobservations' hstorable.observations
  · rw [hmachines]
    exact insertable_again hmachines' hstorable.machineEvents
  · rw [hactions]
    exact insertable_again hactions' hstorable.operatorActions
  · rw [hruns, hobservations, hdefects, hmachines, hactions, replaceOwned_again hruns',
      replaceOwned_again hobservations', replaceOwned_again hdefects', replaceOwned_again hmachines',
      replaceOwned_again hactions', ← hruns, ← hobservations, ← hdefects, ← hmachines, ← hactions]

/-- Registering an item again from the same event changes nothing. -/
theorem projectItem_again {stored db' : Database} {itemId : String} {value : Option ItemValue}
    (h : db'.items = (projectItem stored itemId value).items) :
    projectItem db' itemId value = db' := by
  cases value with
  | none => rfl
  | some value =>
    have hregistered : ∀ item ∈ db'.items, item.itemId = itemId →
        registerItem value item = item := by
      intro item hitem hid
      rw [h, projectItem] at hitem
      cases hfind : findItem stored itemId with
      | none =>
        simp only [hfind] at hitem
        rcases List.mem_append.mp hitem with hold | hnew
        · have hmiss := List.find?_eq_none.mp hfind item hold
          simp [hid] at hmiss
        · rw [List.mem_singleton.mp hnew]
          rfl
      | some found =>
        simp only [hfind] at hitem
        obtain ⟨old, -, rfl⟩ := mem_modifyWhere.mp hitem
        by_cases hold : old.itemId = itemId
        · simp only [hold, decide_true, if_true]
          rfl
        · simp [hold] at hid
    have hsome : (findItem db' itemId).isSome = true := by
      rw [findItem, h, projectItem]
      cases hfind : findItem stored itemId with
      | none => simp [List.find?_append, newItem]
      | some found =>
        have hkeep := find?_modifyWhere (p := fun item => decide (item.itemId = itemId))
          (f := registerItem value) (q := fun item => decide (item.itemId = itemId))
          (fun _ => rfl) stored.items
        simp only
        rw [hkeep, Option.isSome_map]
        rw [findItem] at hfind
        rw [hfind]
        rfl
    obtain ⟨found, hfound⟩ := Option.isSome_iff_exists.mp hsome
    rw [projectItem, hfound]
    simp only
    rw [modifyWhere_eq_self fun item hitem hp => hregistered item hitem (by simpa using hp)]

/-! ## The second rebuild -/

theorem rebuildItem_of_steps {db stored linked : Database} {itemId : String}
    (hraws : history db itemId ≠ [])
    (hstored : storeProjection db itemId (replay db itemId) = .ok stored)
    (hlinked : linkSightings itemId
      (analysisContext (projectItem stored itemId (replay db itemId).item) itemId (replay db itemId))
      (projectItem stored itemId (replay db itemId).item) (itemSightings db itemId) = .ok linked) :
    rebuildItem db itemId = .ok (updateState linked itemId (projected (history db itemId))) := by
  unfold rebuildItem
  cases hhistory : history db itemId with
  | nil => exact absurd hhistory hraws
  | cons raw rest =>
    refine bind_ok.mpr ⟨stored, hstored, bind_ok.mpr ⟨linked, hlinked, ?_⟩⟩
    rfl

/-- The second rebuild links the same sightings, starting from what the first one committed. -/
theorem rebuildItem_again {db first : Database} (hwf : WellFormed db) {itemId : String}
    (h : rebuildItem db itemId = .ok first) :
    ∃ linked f, linkSightings itemId (itemContext first itemId) first (itemSightings first itemId) =
        .ok linked ∧ rebuildItem first itemId = .ok (updateState linked itemId f) := by
  have hout := rebuildItem_outside hwf h
  have hassess : ∀ s ∈ itemSightings first itemId, ∃ a, assess (itemContext first itemId) s = .ok a := by
    rw [itemSightings_of_outside hout]
    exact rebuildItem_assess_ok hwf h
  obtain ⟨linked, hlinked⟩ := linkSightings_total first hassess
  by_cases hraws : history db itemId = []
  · have hraws' : history first itemId = [] := by rw [history_of_outside hout, hraws]
    refine ⟨first, fun state => { state with status := .upToDate }, ?_, ?_⟩
    · rw [itemSightings_of_no_history hraws']
      rfl
    · rw [rebuildItem, hraws']
  · obtain ⟨stored, hstored, hrows, hitems⟩ := rebuildItem_stores hwf h hraws
    rw [← replay_of_outside hout] at hstored hitems
    refine ⟨linked, projected (history first itemId), hlinked,
      rebuildItem_of_steps ?_ (storeProjection_again hstored hrows (insertOrder_of_outside hout)) ?_⟩
    · rw [history_of_outside hout]
      exact hraws
    · rw [projectItem_again hitems]
      exact hlinked

/-! ## Sightings that add nothing -/

/-- The sighting has a case whose log it does not change. -/
def Settled (context : AnalysisContext) (db : Database) (itemId : String) (s : Sighting) : Prop :=
  ∃ file, caseFiles db (itemId, s.key) = some file ∧
    pushSome file.log (assessed context s) = file.log

/-- The open occurrence a sighting belongs to. -/
def touches (itemId : String) (s : Sighting) (row : DefectOccurrence) : Bool :=
  decide (row.itemId = itemId ∧ row.key = s.key ∧ row.status = .opened)

def pointAt (s : Sighting) (row : DefectOccurrence) : DefectOccurrence :=
  { row with currentObservationId := ⟨s.observation.eventId⟩ }

theorem touchOccurrence_eq {db : Database} (h : WellFormed db) {itemId : String} {s : Sighting}
    {o : DefectOccurrence} (ho : findOpenOccurrence db itemId s.key = some o) :
    touchOccurrence db o.id ⟨s.observation.eventId⟩ =
      { db with
        defectOccurrences := modifyWhere (touches itemId s) (pointAt s) db.defectOccurrences } := by
  obtain ⟨hmem, hitem, hkey, hopen⟩ := (findOpenOccurrence_iff h).mp ho
  rw [touchOccurrence, Database.mk.injEq]
  refine ⟨rfl, rfl, rfl, rfl, rfl, rfl, rfl, rfl, rfl, rfl, rfl, rfl, ?_, rfl, rfl, rfl, rfl, rfl, rfl,
    rfl, rfl, rfl⟩
  refine List.map_congr_left fun row hrow => ?_
  by_cases hid : row.id = o.id
  · obtain rfl := eq_of_nodup_map h.occurrence_ids hrow hmem hid
    simp [touches, hitem, hkey, hopen, pointAt]
  · have hmiss : touches itemId s row = false := by
      rw [touches, decide_eq_false_iff_not]
      rintro ⟨hi, hk, hs⟩
      exact hid (by rw [h.open_unique row hrow o hmem
        ⟨hs, hopen, hi.trans hitem.symm, hk.trans hkey.symm⟩])
    simp [hid, hmiss]

theorem linkSighting_settled {db db' : Database} (h : WellFormed db) {itemId : String}
    {context : AnalysisContext} {s : Sighting} (hsettled : Settled context db itemId s)
    (hok : linkSighting itemId context db s = .ok db') :
    db' = { db with
      defectOccurrences := modifyWhere (touches itemId s) (pointAt s) db.defectOccurrences } := by
  obtain ⟨file, hfile, hlog⟩ := hsettled
  rcases linkSighting_cases h hok with ⟨o, n, ho, hn, hrec⟩ | ⟨hnone, -⟩
  · have hlogOf : file.log = logOf db n.id := by
      rw [caseFiles, ho, Option.bind_some, fileOf, hn, Option.map_some] at hfile
      rw [← Option.some.inj hfile]
    rcases hrec with ⟨-, rfl⟩ | ⟨result, _, _, hsome, hnew, -, -⟩
    · exact touchOccurrence_eq h ho
    · rw [hsome, hlogOf] at hlog
      have hpush : push (logOf db n.id) result = logOf db n.id := hlog
      have hlast : (logOf db n.id).getLast? = some result := by rw [← hpush, getLast?_push]
      exact absurd hlast hnew
  · rw [caseFiles, hnone] at hfile
    cases hfile

/-- Settled sightings move the current observation of their occurrences and nothing else. -/
theorem linkSightings_settled {db db' : Database} (h : WellFormed db) {itemId : String}
    {context : AnalysisContext} {found : List Sighting}
    (hsettled : ∀ s ∈ found, Settled context db itemId s)
    (hok : linkSightings itemId context db found = .ok db') :
    db' = { db with
      defectOccurrences := found.foldl (fun rows s => modifyWhere (touches itemId s) (pointAt s) rows)
        db.defectOccurrences } := by
  have hstep : ∀ s ∈ found, ∀ m n, (WellFormed m ∧ (∃ rows, m = { db with defectOccurrences := rows }) ∧
      ∀ key, (caseFiles m (itemId, key)).map (·.log) = (caseFiles db (itemId, key)).map (·.log)) →
      linkSighting itemId context m s = .ok n →
      (WellFormed n ∧ (∃ rows, n = { db with defectOccurrences := rows }) ∧
        ∀ key, (caseFiles n (itemId, key)).map (·.log) = (caseFiles db (itemId, key)).map (·.log)) ∧
      n.defectOccurrences = modifyWhere (touches itemId s) (pointAt s) m.defectOccurrences := by
    rintro s hs m n ⟨hwf, ⟨rows, hrows⟩, hlogs⟩ hlink
    obtain ⟨file, hfile, hpush⟩ := hsettled s hs
    have hkey := hlogs s.key
    rw [hfile, Option.map_some, Option.map_eq_some_iff] at hkey
    obtain ⟨file', hfile', hsame⟩ := hkey
    have hn := linkSighting_settled hwf ⟨file', hfile', by rw [hsame, hpush]⟩ hlink
    refine ⟨⟨linkSighting_wellFormed hwf hlink, ⟨_, by rw [hn, hrows]⟩, fun key => ?_⟩, by rw [hn]⟩
    rw [linkSighting_caseFiles hwf hlink, ← hlogs key]
    by_cases hk : key = s.key
    · subst hk
      have hself : fileAt (fun s => (itemId, s.key)) (extendFile context) (caseFiles m) s
          (itemId, s.key) = extendFile context (caseFiles m (itemId, s.key)) s := fileAt_self
      rw [hself, extendFile, hfile']
      simp [hsame, hpush]
    · rw [fileAt_other]
      simpa using hk
  have hgood := foldlM_invariant (fun s hs m n hm hlink => (hstep s hs m n hm hlink).1) hok
    ⟨h, ⟨db.defectOccurrences, rfl⟩, fun _ => rfl⟩
  have hfold := foldlM_simulates (v := Database.defectOccurrences)
    (g := fun rows s => modifyWhere (touches itemId s) (pointAt s) rows) hstep hok
    ⟨h, ⟨db.defectOccurrences, rfl⟩, fun _ => rfl⟩
  obtain ⟨-, ⟨rows, hrows⟩, -⟩ := hgood
  rw [← hfold, hrows]

/-- The last sighting of a row decides its current observation. -/
theorem foldl_pointAt (itemId : String) (found : List Sighting) (row : DefectOccurrence) :
    found.foldl (fun row s => if touches itemId s row then pointAt s row else row) row =
      ((found.filter fun s => touches itemId s row).getLast?).elim row fun s => pointAt s row := by
  induction found generalizing row with
  | nil => rfl
  | cons s rest ih =>
    rw [List.foldl_cons, ih, List.filter_cons]
    by_cases hs : touches itemId s row = true
    · have hsame : ∀ t, touches itemId t (pointAt s row) = touches itemId t row := fun _ => rfl
      simp only [hs, if_true, hsame]
      cases hlast : rest.filter fun t => touches itemId t row with
      | nil => rfl
      | cons t others =>
        rw [List.getLast?_cons_cons, List.getLast?_eq_some_getLast (List.cons_ne_nil _ _)]
        rfl
    · simp only [hs, Bool.false_eq_true, if_false]

/-- The file of an open occurrence. -/
theorem caseFiles_of_open {db : Database} (h : WellFormed db) {o : DefectOccurrence}
    (ho : o ∈ db.defectOccurrences) (hopen : o.status = .opened) :
    ∃ n, findNcr db o.id = some n ∧ caseFiles db (o.itemId, o.key) = some
      ⟨⟨o.firstObservationId, o.openedAt, n.verdict⟩, o.currentObservationId, logOf db n.id⟩ := by
  obtain ⟨n, hn⟩ := findNcr_of_occurrence h ho
  have hfind := (findOpenOccurrence_iff h).mpr ⟨ho, rfl, rfl, hopen⟩
  exact ⟨n, hn, by rw [caseFiles, hfind, Option.bind_some, fileOf, hn, Option.map_some]⟩

/-- After a rebuild every open occurrence points at the last sighting of its defect already. -/
theorem rebuildItem_points {db first : Database} (hwf : WellFormed db) {itemId : String}
    (h : rebuildItem db itemId = .ok first) {row : DefectOccurrence}
    (hrow : row ∈ first.defectOccurrences) :
    (itemSightings db itemId).foldl
      (fun row s => if touches itemId s row then pointAt s row else row) row = row := by
  rw [foldl_pointAt]
  cases hlast : ((itemSightings db itemId).filter fun s => touches itemId s row).getLast? with
  | none => rfl
  | some last =>
    have hmem := List.mem_filter.mp (List.mem_of_getLast? hlast)
    rw [touches, decide_eq_true_eq] at hmem
    obtain ⟨-, hitem, hkey, hopen⟩ := hmem
    have hwf' := rebuildItem_wellFormed hwf h
    obtain ⟨n, -, hfile⟩ := caseFiles_of_open hwf' hrow hopen
    -- the sightings that touch the row are those of its defect
    have hsame : ((itemSightings db itemId).filter fun s => touches itemId s row) =
        ofKey row.key (itemSightings db itemId) := by
      refine List.filter_congr fun s _ => ?_
      simp [touches, hitem, hopen, eq_comm]
    obtain ⟨registered, linked, hsame', hlinked, hcases⟩ := rebuildItem_links_after hwf h
    have hafter := caseFile_after (hsame'.wellFormed hwf) hlinked row.key
    rw [hcases.caseFiles] at hfile
    rw [hitem, hafter] at hfile
    rw [hsame] at hlast
    cases hof : ofKey row.key (itemSightings db itemId) with
    | nil => rw [hof] at hlast; cases hlast
    | cons s rest =>
      rw [hof, foldl_extendFile, Option.some.injEq] at hfile
      have hcurrent := congrArg CaseFile.currentObservationId hfile
      rw [hof, List.getLast?_eq_some_getLast (List.cons_ne_nil _ _), Option.some.injEq] at hlast
      simp only [hlast] at hcurrent
      rw [Option.elim_some, pointAt, hcurrent]

/-! ## The rows of an item -/

/-- Every row of an item that a rebuild may write, apart from its projection state. -/
structure ItemRows where
  items : List Item
  operationRuns : List OperationRun
  observations : List Observation
  defectObservations : List DefectObservation
  machineEvents : List MachineEvent
  operatorActions : List OperatorAction
  occurrences : List DefectOccurrence
  nonconformances : List Nonconformance
  versions : List AnalysisVersion
  evidence : List AnalysisEvidence

/-- The versions of the nonconformances of an item. -/
def itemVersions (db : Database) (itemId : String) : List AnalysisVersion :=
  db.analysisVersions.filter fun version =>
    decide (version.nonconformanceId ∈ (ownedBy (·.itemId) itemId db.nonconformances).map (·.id))

def itemRows (db : Database) (itemId : String) : ItemRows where
  items := ownedBy (·.itemId) itemId db.items
  operationRuns := ownedBy (·.itemId) itemId db.operationRuns
  observations := ownedBy (·.itemId) itemId db.observations
  defectObservations := ownedBy (·.itemId) itemId db.defectObservations
  machineEvents := ownedBy (·.itemId) itemId db.machineEvents
  operatorActions := ownedBy (·.itemId) itemId db.operatorActions
  occurrences := ownedBy (·.itemId) itemId db.defectOccurrences
  nonconformances := ownedBy (·.itemId) itemId db.nonconformances
  versions := itemVersions db itemId
  evidence := db.analysisEvidence.filter fun row =>
    decide (row.analysisVersionId ∈ (itemVersions db itemId).map (·.id))

theorem versionsOf_itemVersions {db : Database} {itemId : String} {n : Nonconformance}
    (hn : n ∈ ownedBy (·.itemId) itemId db.nonconformances) :
    versionsOf db n.id = (itemVersions db itemId).filter fun version =>
      decide (version.nonconformanceId = n.id) := by
  rw [versionsOf, itemVersions, List.filter_filter]
  refine List.filter_congr fun version _ => ?_
  by_cases hid : version.nonconformanceId = n.id
  · have hmem : n.id ∈ (ownedBy (·.itemId) itemId db.nonconformances).map (·.id) :=
      List.mem_map_of_mem hn
    simp [hid, hmem]
  · simp [hid]

/-- Equal rows have equal logs. -/
theorem log_of_itemRows {db db' : Database} (hwf : WellFormed db) (hwf' : WellFormed db')
    {itemId : String} {key : DefectKey} {file : CaseFile}
    (hrows : itemRows db' itemId = itemRows db itemId)
    (hfile : caseFiles db (itemId, key) = some file) :
    ∃ file', caseFiles db' (itemId, key) = some file' ∧ file'.log = file.log := by
  obtain ⟨o, ho, rfl, rfl, hopen⟩ :=
    (caseFiles_isSome hwf).mp (Option.isSome_iff_exists.mpr ⟨file, hfile⟩)
  obtain ⟨n, hn, hopenFile⟩ := caseFiles_of_open hwf ho hopen
  obtain rfl := Option.some.inj (hfile.symm.trans hopenFile)
  obtain ⟨hnmem, hnocc⟩ := (findNcr_iff hwf).mp hn
  have hnitem : n.itemId = o.itemId := by
    obtain ⟨o', ho', hid, hitem, -⟩ := hwf.occurrence_of_ncr n hnmem
    rw [← hitem, eq_of_nodup_map hwf.occurrence_ids ho' ho (hid.trans hnocc)]
  have hnown : n ∈ ownedBy (·.itemId) o.itemId db.nonconformances := mem_ownedBy.mpr ⟨hnmem, hnitem⟩
  have hncrs : ownedBy (·.itemId) o.itemId db'.nonconformances =
      ownedBy (·.itemId) o.itemId db.nonconformances := (congrArg ItemRows.nonconformances hrows :)
  have hoccs : ownedBy (·.itemId) o.itemId db'.defectOccurrences =
      ownedBy (·.itemId) o.itemId db.defectOccurrences := (congrArg ItemRows.occurrences hrows :)
  have ho' : o ∈ db'.defectOccurrences :=
    (mem_ownedBy.mp (hoccs ▸ mem_ownedBy.mpr ⟨ho, rfl⟩)).1
  have hnown' : n ∈ ownedBy (·.itemId) o.itemId db'.nonconformances := hncrs ▸ hnown
  obtain ⟨n', hn', hfile'⟩ := caseFiles_of_open hwf' ho' hopen
  obtain rfl : n' = n :=
    Option.some.inj (hn'.symm.trans ((findNcr_iff hwf').mpr ⟨(mem_ownedBy.mp hnown').1, hnocc⟩))
  refine ⟨_, hfile', ?_⟩
  have hversions : itemVersions db' o.itemId = itemVersions db o.itemId :=
    (congrArg ItemRows.versions hrows :)
  simp only [logOf]
  rw [versionsOf_itemVersions hnown', hversions, ← versionsOf_itemVersions hnown]

/-! ## When the second rebuild changes nothing -/

/-- The assessed sightings of every defect agree. -/
def SightingsAgree (db : Database) (itemId : String) : Prop :=
  ∀ s ∈ itemSightings db itemId, ∀ t ∈ itemSightings db itemId, s.key = t.key →
    isAssessed s = true → isAssessed t = true → Agree s t

instance (db : Database) (itemId : String) : Decidable (SightingsAgree db itemId) := by
  unfold SightingsAgree
  infer_instance

theorem mem_assessments {context : AnalysisContext} {key : DefectKey} {found : List Sighting}
    {x : Assessment} :
    x ∈ assessments context key found ↔ ∃ s ∈ found, s.key = key ∧ assessed context s = some x := by
  simp only [assessments, List.mem_filterMap, mem_ofKey, and_assoc]

/-- Agreeing sightings have equal assessments. -/
theorem assessments_eq_iff {db first : Database} (hwf : WellFormed db) {itemId : String}
    (h : rebuildItem db itemId = .ok first) :
    SightingsAgree db itemId ↔ ∀ key,
      ∀ x ∈ assessments (itemContext first itemId) key (itemSightings db itemId),
      ∀ y ∈ assessments (itemContext first itemId) key (itemSightings db itemId), x = y := by
  have hok := rebuildItem_assess_ok hwf h
  constructor
  · intro hagree key x hx y hy
    obtain ⟨s, hs, hskey, hsx⟩ := mem_assessments.mp hx
    obtain ⟨t, ht, htkey, hty⟩ := mem_assessments.mp hy
    have hsa : isAssessed s = true := by rw [← assessed_isSome (hok s hs), hsx]; rfl
    have hta : isAssessed t = true := by rw [← assessed_isSome (hok t ht), hty]; rfl
    have hkey : s.key = t.key := hskey.trans htkey.symm
    have heq := (assessed_eq_iff hkey hsa hta (hok s hs) (hok t ht)).mpr
      (hagree s hs t ht hkey hsa hta)
    exact Option.some.inj (by rw [← hsx, heq, hty])
  · intro hequal s hs t ht hkey hsa hta
    refine (assessed_eq_iff hkey hsa hta (hok s hs) (hok t ht)).mp ?_
    rw [← assessed_isSome (hok s hs)] at hsa
    rw [← assessed_isSome (hok t ht)] at hta
    obtain ⟨x, hx⟩ := Option.isSome_iff_exists.mp hsa
    obtain ⟨y, hy⟩ := Option.isSome_iff_exists.mp hta
    rw [hx, hy, hequal t.key x (mem_assessments.mpr ⟨s, hs, hkey, hx⟩) y
      (mem_assessments.mpr ⟨t, ht, rfl, hy⟩)]

/-- If the sightings agree, the second run links nothing new. -/
theorem linkSightings_again {db first linked : Database} (hwf : WellFormed db) {itemId : String}
    (h : rebuildItem db itemId = .ok first) (hagree : SightingsAgree db itemId)
    (hlinked : linkSightings itemId (itemContext first itemId) first (itemSightings first itemId) =
      .ok linked) : linked = first := by
  have hwf' := rebuildItem_wellFormed hwf h
  have hfound := itemSightings_of_outside (rebuildItem_outside hwf h) itemId
  rw [hfound] at hlinked
  have hsettled : ∀ s ∈ itemSightings db itemId,
      Settled (itemContext first itemId) first itemId s := by
    intro s hs
    obtain ⟨file, hfile⟩ := Option.isSome_iff_exists.mp (rebuildItem_opens hwf h hs)
    refine ⟨file, hfile, ?_⟩
    cases hx : assessed (itemContext first itemId) s with
    | none => rfl
    | some x =>
      have hlog := rebuildItem_log hwf h s.key
      rw [hfile, Option.map_some, Option.getD_some] at hlog
      have hequal : pushAll file.log
          (assessments (itemContext first itemId) s.key (itemSightings db itemId)) = file.log := by
        rw [hlog]
        exact pushAll_again_iff.mpr ((assessments_eq_iff hwf h).mp hagree s.key)
      exact push_of_last (pushAll_eq_self_iff.mp hequal x (mem_assessments.mpr ⟨s, hs, rfl, hx⟩))
  rw [linkSightings_settled hwf' hsettled hlinked, foldl_modifyWhere]
  have hrows : first.defectOccurrences.map (fun row => (itemSightings db itemId).foldl
      (fun row s => if touches itemId s row then pointAt s row else row) row) =
      first.defectOccurrences :=
    (List.map_congr_left fun row hrow => rebuildItem_points hwf h hrow).trans (List.map_id' _)
  rw [hrows]

/-- A second rebuild leaves every row of the item as it is exactly when the assessed sightings of
every defect agree. -/
theorem rebuild_again_iff {db first : Database} (hwf : WellFormed db) {itemId : String}
    (h : rebuildItem db itemId = .ok first) :
    (∃ second, rebuildItem first itemId = .ok second ∧
      itemRows second itemId = itemRows first itemId) ↔ SightingsAgree db itemId := by
  have hwf' := rebuildItem_wellFormed hwf h
  obtain ⟨linked, f, hlinked, hsecond⟩ := rebuildItem_again hwf h
  constructor
  · rintro ⟨second, hok, hrows⟩
    obtain rfl := Except.ok.inj (hsecond.symm.trans hok)
    have hrows' : itemRows linked itemId = itemRows first itemId := hrows
    rw [assessments_eq_iff hwf h]
    intro key
    rw [itemSightings_of_outside (rebuildItem_outside hwf h)] at hlinked
    cases hfile : caseFiles first (itemId, key) with
    | none =>
      intro x hx
      obtain ⟨s, hs, rfl, -⟩ := mem_assessments.mp hx
      have hopen := rebuildItem_opens hwf h hs
      rw [hfile] at hopen
      cases hopen
    | some file =>
      obtain ⟨file', hfile', hlog⟩ :=
        log_of_itemRows hwf' (linkSightings_wellFormed hwf' hlinked) hrows' hfile
      have hagain := log_after hwf' hlinked key
      have honce := rebuildItem_log hwf h key
      rw [hfile, Option.map_some, Option.getD_some] at hagain honce
      rw [hfile', Option.map_some, Option.getD_some, hlog] at hagain
      rw [honce] at hagain
      exact pushAll_again_iff.mp hagain.symm
  · intro hagree
    refine ⟨_, hsecond, ?_⟩
    rw [linkSightings_again hwf h hagree hlinked]
    rfl

/-! ## In the order of the class names -/

/-- The projection states do not decide whether a rebuild succeeds. -/
theorem rebuildItem_marked_iff (db : Database) (itemId : String) (error : ReplayError) :
    (∃ db', rebuildItem (markProjectionFailed db itemId error) itemId = .ok db') ↔
      ∃ db', rebuildItem db itemId = .ok db' := by
  have hreplay : replay (markProjectionFailed db itemId error) itemId = replay db itemId := rfl
  have hstorable : ∀ runs, Storable (markProjectionFailed db itemId error) itemId (replay db itemId) runs ↔
      Storable db itemId (replay db itemId) runs := fun runs =>
    ⟨fun h => ⟨h.references, h.storable, h.operationRuns, h.observations, h.machineEvents, h.operatorActions⟩,
      fun h => ⟨h.references, h.storable, h.operationRuns, h.observations, h.machineEvents, h.operatorActions⟩⟩
  rw [rebuildItem_succeeds_iff, rebuildItem_succeeds_iff, hreplay]
  simp only [hstorable]

/-- Whatever the tables hold, a second rebuild ends as the first one did and leaves every row of the item as
the first one left it. -/
theorem rebuild_idempotent {db : Database} (hs : Sound db) (horder : db.insertOrder = .byClassName)
    (itemId : String) :
    ((∃ again, rebuildItem (rebuildOrMark db itemId) itemId = .ok again) ↔
      ∃ first, rebuildItem db itemId = .ok first) ∧
    itemRows (rebuildOrMark (rebuildOrMark db itemId) itemId) itemId =
      itemRows (rebuildOrMark db itemId) itemId := by
  cases hfirst : rebuildItem db itemId with
  | ok first =>
    have hagree : SightingsAgree db itemId := by
      intro s hs'
      rw [rebuildItem_sights_nothing horder hfirst] at hs'
      cases hs'
    obtain ⟨second, hsecond, hrows⟩ := (rebuild_again_iff hs.toWellFormed hfirst).mpr hagree
    have hmark : rebuildOrMark db itemId = first := by rw [rebuildOrMark, hfirst]
    refine ⟨iff_of_true ⟨second, hmark ▸ hsecond⟩ ⟨first, rfl⟩, ?_⟩
    rw [hmark, rebuildOrMark, hsecond]
    exact hrows
  | error e =>
    have hmark : rebuildOrMark db itemId = markProjectionFailed db itemId e := by rw [rebuildOrMark, hfirst]
    have hraises := rebuildItem_marked_iff db itemId e
    rw [hfirst] at hraises
    rw [hmark]
    refine ⟨hraises, ?_⟩
    cases hagain : rebuildItem (markProjectionFailed db itemId e) itemId with
    | ok again =>
      obtain ⟨_, hok⟩ := hraises.mp ⟨again, hagain⟩
      cases hok
    | error e' =>
      rw [rebuildOrMark, hagain]
      rfl

/-! ### A scratch that is seen twice -/

def oneScratch : List Call := [.rebuild "item-1", .ingest (scratchSeen "e-1" 10) 11]

def scratchTwice : List Call := oneScratch ++ [.ingest (scratchSeen "e-2" 900000000) 900000001]

theorem oneScratch_reachable : Reachable (run parentsFirst oneScratch) :=
  ⟨_, oneScratch, initial_parentsFirst, rfl⟩

/-- The rebuild of a GOOD completes twice, that of an open scratch raises twice. -/
theorem rebuild_idempotent_good_and_scratch :
    itemRows (rebuildOrMark (rebuildOrMark (run {} [.rebuild "item-1", .ingest (goodSeen "e-2" 20) 21]) "item-1")
      "item-1") "item-1" =
      itemRows (rebuildOrMark (run {} [.rebuild "item-1", .ingest (goodSeen "e-2" 20) 21]) "item-1") "item-1" ∧
    itemRows (rebuildOrMark (rebuildOrMark (shipped (run parentsFirst (oneScratch ++ [.rebuild "item-1"])))
      "item-1") "item-1") "item-1" =
      itemRows (rebuildOrMark (shipped (run parentsFirst (oneScratch ++ [.rebuild "item-1"]))) "item-1")
        "item-1" := by
  have hgood : Reachable (run {} [.rebuild "item-1", .ingest (goodSeen "e-2" 20) 21]) :=
    ⟨{}, _, ⟨{}, _, rfl⟩, rfl⟩
  have hscratch : Reachable (run parentsFirst (oneScratch ++ [.rebuild "item-1"])) :=
    ⟨_, _, initial_parentsFirst, rfl⟩
  exact ⟨(rebuild_idempotent (reachable_sound hgood) rfl "item-1").2,
    (rebuild_idempotent (sound_shipped (reachable_sound hscratch)) rfl "item-1").2⟩

/-- With the observations inserted first, two trusted sightings of one open defect make every rebuild append
versions. -/
example : (itemRows (rebuildOrMark (rebuildOrMark (run parentsFirst scratchTwice) "item-1") "item-1")
      "item-1").versions.length =
    (itemRows (rebuildOrMark (run parentsFirst scratchTwice) "item-1") "item-1").versions.length + 2 := by
  decide +kernel

end TraceQ.Properties
