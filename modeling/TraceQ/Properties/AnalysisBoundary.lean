import TraceQ.Backend.Projectable
import TraceQ.Properties.Idempotence

/-! # Boundaries of the current analysis

A rebuild leaves as current analysis of an open case the assessment of the last sighting that has
one. That is the window of the first trusted defect only when the last assessed sighting agrees
with it; and when no sighting is assessed any more, the analysis of an earlier rebuild stays. In the order of the
class names no rebuild links a sighting: no window is shown, and the windows there are stay backed.
-/
namespace TraceQ.Properties
open Projections Ingestion Api Quality Tables Results Backend ChangeLog
set_option autoImplicit false
set_option maxHeartbeats 250000

/-! ## The current analysis of a case -/

/-- The compared columns of the current analysis of an occurrence. -/
def currentAssessment (db : Database) (o : DefectOccurrence) : Option Assessment :=
  ((findNcr db o.id).bind (currentAnalysis db)).map assessmentOf

theorem currentAnalysis_log {db : Database} (hwf : WellFormed db) {n : Nonconformance}
    (hn : n ∈ db.nonconformances) :
    (currentAnalysis db n).map assessmentOf = (logOf db n.id).getLast? := by
  rw [currentAnalysis_eq hwf hn, logOf, List.getLast?_map]

/-- The current analysis of an open case is the last entry of its log. -/
theorem currentAssessment_eq {db : Database} (hwf : WellFormed db) {o : DefectOccurrence}
    (ho : o ∈ db.defectOccurrences) (hopen : o.status = .opened) :
    currentAssessment db o = (((caseFiles db (o.itemId, o.key)).map (·.log)).getD []).getLast? := by
  obtain ⟨n, hn, hfile⟩ := caseFiles_of_open hwf ho hopen
  rw [currentAssessment, hn, hfile, Option.bind_some,
    currentAnalysis_log hwf ((findNcr_iff hwf).mp hn).1]
  rfl

/-- After a rebuild the current analysis is the assessment of the last assessed sighting, or the
analysis from before if there is none. -/
theorem rebuildItem_currentAssessment {db db' : Database} (hwf : WellFormed db) {itemId : String}
    (h : rebuildItem db itemId = .ok db') {o : DefectOccurrence} (ho : o ∈ db'.defectOccurrences)
    (hitem : o.itemId = itemId) (hopen : o.status = .opened) :
    currentAssessment db' o =
      ((lastAssessed o.key (itemSightings db itemId)).bind
        (assessed (itemContext db' itemId))).or
        (((caseFiles db (itemId, o.key)).map (·.log)).getD []).getLast? := by
  rw [currentAssessment_eq (rebuildItem_wellFormed hwf h) ho hopen, hitem, rebuildItem_log hwf h,
    getLast?_pushAll, getLast?_assessments (rebuildItem_assess_ok hwf h)]

/-! ## The window of the first trusted defect -/

/-- The first trusted sighting of a defect in business order. -/
def firstTrusted (key : DefectKey) (found : List Sighting) : Option Sighting :=
  (ofKey key found).find? fun s => decide (s.observation.trustStatus = .trusted)

theorem firstTrusted_mem {key : DefectKey} {found : List Sighting} {first : Sighting}
    (h : firstTrusted key found = some first) :
    first ∈ found ∧ first.key = key ∧ first.observation.trustStatus = .trusted := by
  obtain ⟨hfound, hkey⟩ := mem_ofKey.mp (List.mem_of_find?_eq_some h)
  exact ⟨hfound, hkey, by simpa using List.find?_some h⟩

/-- A rebuild completes and the current analysis of the open case of the defect is the birth window of `first`. -/
def ShowsWindow (db : Database) (itemId : String) (first : Sighting) : Prop :=
  ∃ db', rebuildItem db itemId = .ok db' ∧
    ∃ o ∈ db'.defectOccurrences, o.itemId = itemId ∧ o.key = first.key ∧ o.status = .opened ∧
      ∃ result, calculateBirthWindow first (itemContext db' itemId) = .ok result ∧
        currentAssessment db' o = some result.assessment

/-- After a rebuild the window of the first trusted defect is shown exactly when the last assessed sighting of the
defect is trusted and as old as the first trusted one. -/
theorem rebuildItem_first_window_iff {db db' : Database} (hwf : WellFormed db) {itemId : String}
    (h : rebuildItem db itemId = .ok db') {o : DefectOccurrence} (ho : o ∈ db'.defectOccurrences)
    (hitem : o.itemId = itemId) (hopen : o.status = .opened) {first : Sighting}
    (hfirst : firstTrusted o.key (itemSightings db itemId) = some first) :
    (∃ result, calculateBirthWindow first (itemContext db' itemId) = .ok result ∧
      currentAssessment db' o = some result.assessment) ↔
    ∃ last, lastAssessed o.key (itemSightings db itemId) = some last ∧ Agree last first := by
  obtain ⟨hfound, hkey, htrusted⟩ := firstTrusted_mem hfirst
  have hok := rebuildItem_assess_ok hwf h
  have hassessed : isAssessed first = true := isAssessed_iff.mpr (.inl htrusted)
  obtain ⟨a, ha⟩ := hok first hfound
  obtain ⟨result, hresult, -⟩ := assess_trusted htrusted ha
  -- some sighting is assessed, so the log ends with the last one
  obtain ⟨last, hlast⟩ : ∃ last, lastAssessed o.key (itemSightings db itemId) = some last := by
    cases hnone : lastAssessed o.key (itemSightings db itemId) with
    | none =>
      rw [lastAssessed_eq_none.mp hnone first hfound hkey] at hassessed
      cases hassessed
    | some last => exact ⟨last, rfl⟩
  obtain ⟨hlastFound, hlastKey, hlastAssessed⟩ := lastAssessed_mem hlast
  have hsome : (assessed (itemContext db' itemId) last).isSome = true := by
    rw [assessed_isSome (hok last hlastFound), hlastAssessed]
  have hcurrent : currentAssessment db' o = assessed (itemContext db' itemId) last := by
    rw [rebuildItem_currentAssessment hwf h ho hitem hopen, hlast, Option.bind_some]
    exact Option.or_of_isSome hsome
  have hagree := assessed_eq_iff (hlastKey.trans hkey.symm) hlastAssessed hassessed
    (hok last hlastFound) ⟨a, ha⟩
  rw [assessed_trusted htrusted hresult] at hagree
  constructor
  · rintro ⟨result', hresult', heq⟩
    obtain rfl := Except.ok.inj (hresult.symm.trans hresult')
    exact ⟨last, hlast, hagree.mp (hcurrent.symm.trans heq)⟩
  · rintro ⟨last', hlast', hlastAgree⟩
    obtain rfl := Option.some.inj (hlast.symm.trans hlast')
    exact ⟨result, hresult, hcurrent.trans (hagree.mpr hlastAgree)⟩

/-- Where a reachable state has a trusted sighting of the defect, a rebuild shows the window of the first one exactly
when the observations are inserted before their defects, nothing else keeps the rebuild from completing, and the
last assessed sighting agrees with the first trusted one. -/
theorem first_window_iff {db : Database} (hdb : Reachable db) {itemId : String} {key : DefectKey} {first : Sighting}
    (hfirst : firstTrusted key (itemSightings db itemId) = some first) :
    ShowsWindow db itemId first ↔
      db.insertOrder = .parentsFirst ∧ ReferencesParse (replay db itemId).operations ∧
        valuesStorable (replay db itemId) = true ∧ RunsUnused db itemId (replay db itemId).operations ∧
        ScopesSearchable (replay db itemId).observations ∧
        ∃ last, lastAssessed key (itemSightings db itemId) = some last ∧ Agree last first := by
  have hwf := (reachable_sound hdb).toWellFormed
  obtain ⟨hfound, rfl, -⟩ := firstTrusted_mem hfirst
  have hcompletes : (∃ db', rebuildItem db itemId = .ok db') ↔ _ := reachable_rebuild_iff hdb
  constructor
  · rintro ⟨db', h, o, ho, hitem, hkey, hopen, hshown⟩
    obtain ⟨hparse, -, hvalues, hunused, hscopes⟩ := hcompletes.mp ⟨db', h⟩
    rw [← hkey] at hfirst ⊢
    refine ⟨?_, hparse, hvalues, hunused, hscopes,
      (rebuildItem_first_window_iff hwf h ho hitem hopen hfirst).mp hshown⟩
    cases horder : db.insertOrder with
    | parentsFirst => rfl
    | byClassName =>
      rw [rebuildItem_sights_nothing horder h] at hfound
      cases hfound
  · rintro ⟨horder, hparse, hvalues, hunused, hscopes, hlast⟩
    have hinsertable : DefectsInsertable db itemId := fun horder' => by
      rw [horder] at horder'
      cases horder'
    obtain ⟨db', h⟩ := hcompletes.mpr ⟨hparse, hinsertable, hvalues, hunused, hscopes⟩
    obtain ⟨o, ho, hitem, hkey, hopen⟩ :=
      (caseFiles_isSome (rebuildItem_wellFormed hwf h)).mp (rebuildItem_opens hwf h hfound)
    have hkey : o.key = first.key := hkey
    rw [← hkey] at hfirst hlast
    exact ⟨db', h, o, ho, hitem, hkey, hopen,
      (rebuildItem_first_window_iff hwf h ho hitem hopen hfirst).mpr hlast⟩

/-- With the observations inserted first, a repeat of a trusted defect moves the right boundary of its window. -/
example : (rebuildOrMark (run parentsFirst scratchTwice) "item-1").defectOccurrences.map
    (currentAssessment (rebuildOrMark (run parentsFirst scratchTwice) "item-1")) =
      [some ⟨.leftOpen, none, some 900000000⟩] := by decide +kernel

/-! ## What backs a window -/

def isWindow (a : Assessment) : Prop := a.status = .bounded ∨ a.status = .leftOpen

instance (a : Assessment) : Decidable (isWindow a) := by unfold isWindow; infer_instance

/-- A current window of the nonconformance ends at a trusted observation of its defect. -/
def Backed (db : Database) (n : Nonconformance) : Prop :=
  ∀ v, currentAnalysis db n = some v → isWindow (assessmentOf v) →
    ∃ obs ∈ db.observations, obs.itemId = n.itemId ∧ obs.trustStatus = .trusted ∧
      obs.inspectionResult = .defectDetected ∧ v.rightBoundaryAt = some obs.occurredAt ∧
      ∃ defect ∈ db.defectObservations, defect.observationId = obs.id ∧
        defect.itemId = n.itemId ∧ defect.defectType = n.defectType ∧
        defect.componentInstanceId = n.componentInstanceId

/-- Before the rebuild the current analysis of the nonconformance was a window. -/
def ShowedWindow (db : Database) (n : Nonconformance) : Prop :=
  ∃ m ∈ db.nonconformances, m.id = n.id ∧ ∃ v, currentAnalysis db m = some v ∧
    isWindow (assessmentOf v)

/-- The projected rows behind a trusted sighting. -/
theorem rows_iff_sighting {db db' : Database} (hwf : WellFormed db) {itemId : String}
    (h : rebuildItem db itemId = .ok db') (hraws : history db itemId ≠ []) (key : DefectKey)
    (time : Instant) :
    (∃ obs ∈ db'.observations, obs.itemId = itemId ∧ obs.trustStatus = .trusted ∧
      obs.inspectionResult = .defectDetected ∧ obs.occurredAt = time ∧
      ∃ defect ∈ db'.defectObservations, defect.observationId = obs.id ∧ defect.itemId = itemId ∧
        defect.defectType = key.defectType ∧
        defect.componentInstanceId = key.componentInstanceId) ↔
    ∃ s ∈ itemSightings db itemId, s.key = key ∧ s.observation.trustStatus = .trusted ∧
      s.occurredAt = time := by
  obtain ⟨stored, hstored, hrows, -⟩ := rebuildItem_stores hwf h hraws
  have hunique := storeProjection_nodup hstored
  obtain ⟨runs, -, hdb⟩ := storeProjection_ok hstored
  have hobs : ownedBy (·.itemId) itemId db'.observations =
      (replay db itemId).observations.map (observationRow itemId) := by
    rw [hrows.observations, hdb]
    exact ownedBy_replaceOwned_self (observationRows_item itemId _) _
  have hdefects : ownedBy (·.itemId) itemId db'.defectObservations =
      (replay db itemId).observations.flatMap (defectObservationRows itemId) := by
    rw [hrows.defectObservations, hdb]
    exact ownedBy_replaceOwned_self (defectObservationRows_item itemId _) _
  constructor
  · rintro ⟨obs, hobsMem, hitem, htrust, hresult, htime, row, hrow, hid, hrowItem, htype, hcomponent⟩
    have hobsOwned := mem_ownedBy.mpr ⟨hobsMem, hitem⟩
    rw [hobs] at hobsOwned
    obtain ⟨value, hvalue, rfl⟩ := List.mem_map.mp hobsOwned
    have hrowOwned := mem_ownedBy.mpr ⟨hrow, hrowItem⟩
    rw [hdefects] at hrowOwned
    obtain ⟨value', hvalue', hlisted⟩ := List.mem_flatMap.mp hrowOwned
    obtain ⟨defect, hdefect, rfl⟩ := List.mem_map.mp hlisted
    have hsame : value'.eventId = value.eventId := congrArg ObservationId.eventId hid
    obtain rfl := eq_of_nodup_map hunique hvalue' hvalue hsame
    refine ⟨⟨value', defect⟩, mem_sightings.mpr ⟨hvalue', hresult, hdefect⟩, ?_, htrust, htime⟩
    rw [Sighting.key, DefectKey.mk.injEq]
    exact ⟨htype, hcomponent⟩
  · rintro ⟨s, hs, rfl, htrust, rfl⟩
    obtain ⟨hmem, hresult, hdefect⟩ := mem_sightings.mp hs
    have hobsOwned : observationRow itemId s.observation ∈
        ownedBy (·.itemId) itemId db'.observations := hobs ▸ List.mem_map_of_mem hmem
    have hrowOwned : (⟨⟨s.observation.eventId⟩, itemId, s.defect.defectType, s.component,
        s.defect.description, s.defect.severity⟩ : DefectObservation) ∈
        ownedBy (·.itemId) itemId db'.defectObservations := by
      rw [hdefects]
      exact List.mem_flatMap.mpr ⟨s.observation, hmem, List.mem_map.mpr ⟨s.defect, hdefect, rfl⟩⟩
    exact ⟨_, (mem_ownedBy.mp hobsOwned).1, rfl, htrust, hresult, rfl, _,
      (mem_ownedBy.mp hrowOwned).1, rfl, rfl, rfl, rfl⟩

/-- A nonconformance of before the rebuild is that of an open case afterwards exactly when it was
that of the open case of the defect before. -/
theorem ncr_before_iff {db db' : Database} (hwf : WellFormed db) (hwf' : WellFormed db')
    (hgrows : Grows db db') {o : DefectOccurrence} (ho : o ∈ db'.defectOccurrences)
    (hopen : o.status = .opened) {n m : Nonconformance} (hn : n ∈ db'.nonconformances)
    (hid : n.occurrenceId = o.id) (hm : m ∈ db.nonconformances) :
    m.id = n.id ↔ ∃ old, findOpenOccurrence db o.itemId o.key = some old ∧
      findNcr db old.id = some m := by
  obtain ⟨m', hm', hkept⟩ := hgrows.keepsNcr hm
  have hmid : m'.id = m.id := (congrArg Nonconformance.id hkept :)
  have hmocc : m'.occurrenceId = m.occurrenceId := (congrArg Nonconformance.occurrenceId hkept :)
  constructor
  · intro hsame
    obtain rfl := eq_of_nodup_map hwf'.ncr_ids hm' hn (hmid.trans hsame)
    obtain ⟨old, hold, holdid, -⟩ := hwf.occurrence_of_ncr m hm
    obtain ⟨o', ho', hfixed⟩ := hgrows.keepsOccurrence hold
    have hkeptid : o'.id = old.id := (congrArg DefectOccurrence.id hfixed :)
    have hoid : o'.id = o.id := by rw [hkeptid, holdid, ← hmocc, hid]
    obtain rfl := eq_of_nodup_map hwf'.occurrence_ids ho' ho hoid
    refine ⟨old, (findOpenOccurrence_iff hwf).mpr ⟨hold, ?_, ?_, ?_⟩,
      (findNcr_iff hwf).mpr ⟨hm, holdid.symm⟩⟩
    · exact (congrArg DefectOccurrence.itemId hfixed :).symm
    · exact (congrArg DefectOccurrence.key hfixed :).symm
    · exact (congrArg DefectOccurrence.status hfixed :).symm.trans hopen
  · rintro ⟨old, hold, hncr⟩
    obtain ⟨holdmem, hitem, hkey, hwas⟩ := (findOpenOccurrence_iff hwf).mp hold
    obtain ⟨o', ho', hfixed⟩ := hgrows.keepsOccurrence holdmem
    have hstays : o'.status = .opened := (congrArg DefectOccurrence.status hfixed :).trans hwas
    have hitem' : o'.itemId = o.itemId := (congrArg DefectOccurrence.itemId hfixed :).trans hitem
    have hkey' : o'.key = o.key := (congrArg DefectOccurrence.key hfixed :).trans hkey
    have hid' : o'.id = old.id := (congrArg DefectOccurrence.id hfixed :)
    obtain rfl := hwf'.open_unique o' ho' o ho ⟨hstays, hopen, hitem', hkey'⟩
    have hocc : m'.occurrenceId = n.occurrenceId := by
      rw [hmocc, ((findNcr_iff hwf).mp hncr).2, hid, hid']
    rw [← hmid, eq_of_nodup_map hwf'.ncr_occurrences hm' hn hocc]

/-- Whether the nonconformance showed a window is read off the log of the open case. -/
theorem showedWindow_iff {db db' : Database} (hwf : WellFormed db) (hwf' : WellFormed db')
    (hgrows : Grows db db') {o : DefectOccurrence} (ho : o ∈ db'.defectOccurrences)
    (hopen : o.status = .opened) {n : Nonconformance} (hn : n ∈ db'.nonconformances)
    (hid : n.occurrenceId = o.id) :
    ShowedWindow db n ↔ ∃ a, isWindow a ∧
      (((caseFiles db (o.itemId, o.key)).map (·.log)).getD []).getLast? = some a := by
  constructor
  · rintro ⟨m, hm, hmid, v, hv, hwindow⟩
    obtain ⟨old, hold, hncr⟩ := (ncr_before_iff hwf hwf' hgrows ho hopen hn hid hm).mp hmid
    refine ⟨assessmentOf v, hwindow, ?_⟩
    rw [caseFiles, hold, Option.bind_some, fileOf, hncr]
    have hlog := currentAnalysis_log hwf hm
    rw [hv] at hlog
    exact hlog.symm
  · rintro ⟨a, hwindow, hlast⟩
    cases hold : findOpenOccurrence db o.itemId o.key with
    | none => rw [caseFiles, hold] at hlast; cases hlast
    | some old =>
      obtain ⟨m, hm⟩ := findNcr_of_occurrence hwf ((findOpenOccurrence_iff hwf).mp hold).1
      have hmem := ((findNcr_iff hwf).mp hm).1
      rw [caseFiles, hold, Option.bind_some, fileOf, hm] at hlast
      have hlog : (logOf db m.id).getLast? = some a := hlast
      rw [← currentAnalysis_log hwf hmem, Option.map_eq_some_iff] at hlog
      obtain ⟨v, hv, rfl⟩ := hlog
      exact ⟨m, hmem, (ncr_before_iff hwf hwf' hgrows ho hopen hn hid hmem).mpr ⟨old, hold, hm⟩,
        v, hv, hwindow⟩

/-- A rebuild leaves a window without a trusted defect behind exactly when no sighting of the defect
is assessed any more and the analysis from before was a window. -/
theorem window_backed_iff {db db' : Database} (hwf : WellFormed db) (hreported : Reported db) {itemId : String}
    (h : rebuildItem db itemId = .ok db') {o : DefectOccurrence} (ho : o ∈ db'.defectOccurrences)
    (hitem : o.itemId = itemId) (hopen : o.status = .opened) {n : Nonconformance}
    (hn : n ∈ db'.nonconformances) (hid : n.occurrenceId = o.id) :
    Backed db' n ↔
      (∃ s ∈ itemSightings db itemId, s.key = n.key ∧ isAssessed s = true) ∨
        ¬ ShowedWindow db n := by
  have hwf' := rebuildItem_wellFormed hwf h
  have hgrows := rebuildItem_grows hwf h
  obtain ⟨o', ho', hoid', hoitem, hkey⟩ := hwf'.occurrence_of_ncr n hn
  obtain rfl := eq_of_nodup_map hwf'.occurrence_ids ho' ho (hoid'.trans hid)
  rw [hitem] at hoitem
  have hraws : history db itemId ≠ [] := by
    obtain ⟨raw, hraw, -⟩ := rebuildItem_reported hwf hreported h o' ho
    rw [hitem, storedEvents_congr (rebuildItem_rawEvents hwf h)] at hraw
    exact List.ne_nil_of_mem ((List.mem_insertionSort _).mpr hraw)
  have hncr : findNcr db' o'.id = some n := (findNcr_iff hwf').mpr ⟨hn, hid⟩
  have hcurrent := rebuildItem_currentAssessment hwf h ho hitem hopen
  rw [currentAssessment, hncr, Option.bind_some, hkey] at hcurrent
  have hshowed := showedWindow_iff hwf hwf' hgrows ho hopen hn hid
  rw [hitem, hkey] at hshowed
  have hbacked := rows_iff_sighting hwf h hraws n.key
  cases hlast : lastAssessed n.key (itemSightings db itemId) with
  | some last =>
    -- the current analysis is the assessment of `last`
    obtain ⟨hfound, hlastKey, hassessed⟩ := lastAssessed_mem hlast
    obtain ⟨a, ha⟩ := rebuildItem_assess_ok hwf h last hfound
    refine iff_of_true ?_ (.inl ⟨last, hfound, hlastKey, hassessed⟩)
    intro v hv hwindow
    rw [hv, hlast, Option.bind_some, Option.map_some] at hcurrent
    rcases isAssessed_iff.mp hassessed with htrust | htrust
    · obtain ⟨result, hresult, -⟩ := assess_trusted htrust ha
      rw [assessed_trusted htrust hresult, Option.some_or] at hcurrent
      have hright := (birthWindow_right hresult).1
      rw [← Option.some.inj hcurrent] at hright
      obtain ⟨obs, hobs, hobsItem, hobsTrust, hdetected, htime, row, hrow⟩ :=
        (hbacked last.occurredAt).mpr ⟨last, hfound, hlastKey, htrust, rfl⟩
      exact ⟨obs, hobs, hobsItem.trans hoitem, hobsTrust, hdetected, by rw [htime]; exact hright,
        row, hrow.1, hrow.2.1, hrow.2.2.1.trans hoitem, hrow.2.2.2⟩
    · rw [assessed_invalidated htrust, Option.some_or] at hcurrent
      rw [Option.some.inj hcurrent] at hwindow
      exact absurd hwindow (by decide)
  | none =>
    rw [hlast, Option.bind_none, Option.none_or] at hcurrent
    have hnone := lastAssessed_eq_none.mp hlast
    have hleft : ¬ ∃ s ∈ itemSightings db itemId, s.key = n.key ∧ isAssessed s = true := by
      rintro ⟨s, hs, hskey, hassessed⟩
      rw [hnone s hs hskey] at hassessed
      cases hassessed
    rw [or_iff_right hleft, hshowed, ← hcurrent]
    constructor
    · rintro hback ⟨a, hwindow, ha⟩
      obtain ⟨v, hv, rfl⟩ := Option.map_eq_some_iff.mp ha
      obtain ⟨obs, hobs, hobsItem, hobsTrust, hdetected, -, row, hrow, hrowId, hrowItem, hrowKey⟩ :=
        hback v hv hwindow
      -- a trusted row would be a sighting that is assessed
      obtain ⟨s, hs, hskey, hstrust, -⟩ := (hbacked obs.occurredAt).mp ⟨obs, hobs,
        hobsItem.trans hoitem.symm, hobsTrust, hdetected, rfl, row, hrow, hrowId,
        hrowItem.trans hoitem.symm, hrowKey⟩
      exact hleft ⟨s, hs, hskey, isAssessed_iff.mpr (.inl hstrust)⟩
    · intro hno v hv hwindow
      exact absurd ⟨assessmentOf v, hwindow, by rw [hv]; rfl⟩ hno

/-! ## In the order of the class names -/

/-- Every current window of an open case is backed. -/
def WindowsBacked (db : Database) : Prop :=
  ∀ o ∈ db.defectOccurrences, o.status = .opened → ∀ n ∈ db.nonconformances, n.occurrenceId = o.id → Backed db n

/-- The observations of an item whose history lists a defect stay as they are. -/
structure KeepsReported (db db' : Database) : Prop where
  rawEvents : db.rawEvents <+: db'.rawEvents
  observations : ∀ itemId, ReportsDefect db itemId →
    ownedBy (·.itemId) itemId db'.observations = ownedBy (·.itemId) itemId db.observations
  defects : ∀ itemId, ReportsDefect db itemId →
    ownedBy (·.itemId) itemId db'.defectObservations = ownedBy (·.itemId) itemId db.defectObservations

theorem KeepsReported.trans {a b c : Database} (hab : KeepsReported a b) (hbc : KeepsReported b c) :
    KeepsReported a c :=
  ⟨hab.rawEvents.trans hbc.rawEvents,
    fun itemId h => (hbc.observations itemId (reportsDefect_mono hab.rawEvents h)).trans (hab.observations itemId h),
    fun itemId h => (hbc.defects itemId (reportsDefect_mono hab.rawEvents h)).trans (hab.defects itemId h)⟩

theorem keepsReported_of_same {db db' : Database} (hobservations : db'.observations = db.observations)
    (hdefects : db'.defectObservations = db.defectObservations) (hraws : db.rawEvents <+: db'.rawEvents) :
    KeepsReported db db' :=
  ⟨hraws, fun _ _ => by rw [hobservations], fun _ _ => by rw [hdefects]⟩

/-- A rebuild that completes is of an item whose history lists nothing. -/
theorem rebuildItem_keepsReported {db db' : Database} (hwf : WellFormed db) (horder : db.insertOrder = .byClassName)
    {target : String} (h : rebuildItem db target = .ok db') : KeepsReported db db' := by
  have hother : ∀ itemId, ReportsDefect db itemId → itemId ≠ target := by
    rintro itemId ⟨raw, hraw, hdefects⟩ rfl
    exact hdefects (rebuildItem_lists_nothing horder h raw hraw)
  refine ⟨rebuildItem_rawEvents hwf h ▸ List.prefix_rfl, fun itemId hreport => ?_, fun itemId hreport => ?_⟩
  · exact (rebuildItem_observations_other hwf h (hother itemId hreport)).1
  · exact (rebuildItem_observations_other hwf h (hother itemId hreport)).2

theorem exec_keepsReported {db : Database} (hs : Sound db) (horder : db.insertOrder = .byClassName) (call : Call) :
    KeepsReported db (exec db call).1 := by
  cases exec_frame hs call with
  | ingested event receivedAt result _ hingest =>
    have hraws := (ingest_quiet hingest).rawEvents
    rcases ingestEvent_cases hingest with ⟨_, -, -, heq, -⟩ | ⟨-, -, hout, -, -⟩
    · rw [heq]
      exact keepsReported_of_same rfl rfl List.prefix_rfl
    · exact keepsReported_of_same (congrArg Database.observations hout :)
        (congrArg Database.defectObservations hout :) hraws
  | rebuilt itemId _ h => exact rebuildItem_keepsReported hs.toWellFormed horder h
  | failed itemId error _ _ hmarked =>
    rw [hmarked]
    exact keepsReported_of_same rfl rfl List.prefix_rfl
  | invalidated body userId _ heq =>
    rw [heq]
    refine (rebuildAll_invariant
      (P := fun m => WellFormed m ∧ m.insertOrder = .byClassName ∧ KeepsReported db m) ?_ ?_ ?_ _).2.2
    · rintro m n itemId ⟨hm, hmorder, hkept⟩ hn
      exact ⟨rebuildItem_wellFormed hm hn, (insertOrder_of_outside (rebuildItem_outside hm hn)).trans hmorder,
        hkept.trans (rebuildItem_keepsReported hm hmorder hn)⟩
    · exact ⟨hs.toWellFormed, horder, keepsReported_of_same rfl rfl List.prefix_rfl⟩
    · exact ⟨wellFormed_congr hs.toWellFormed rfl rfl rfl le_rfl, horder,
        keepsReported_of_same rfl rfl List.prefix_rfl⟩
  | configured config _ heq =>
    rw [heq]
    exact keepsReported_of_same rfl rfl List.prefix_rfl
  | other h => exact keepsReported_of_same h.observations h.defectObservations (h.rawEvents ▸ List.prefix_rfl)

/-- What backs a window of an open case backs it as long as neither the case nor its rows change. -/
theorem WindowsBacked.keeps {db db' : Database} (hwf : WellFormed db) (hreported : Reported db)
    (hbacked : WindowsBacked db) (hcases : KeepsCases db db') (hrows : KeepsReported db db') : WindowsBacked db' := by
  intro o ho hopen n hn hid v hv hwindow
  have hold := hcases.stillOpen o ho hopen
  obtain ⟨old, holdMem, hsame⟩ := hcases.ncr_before hn
  simp only [identityOf, Prod.mk.injEq] at hsame
  obtain ⟨hncr, hocc, hitem, hkey, hversion⟩ := hsame
  have hreport : ReportsDefect db old.itemId := by
    obtain ⟨o', ho', hoid, hoitem, -⟩ := hwf.occurrence_of_ncr old holdMem
    obtain rfl := eq_of_nodup_map hwf.occurrence_ids ho' hold (hoid.trans (hocc.trans hid))
    exact hoitem ▸ hreported o' ho'
  have hcurrent : currentAnalysis db old = some v := by
    rw [← hv, currentAnalysis, currentAnalysis, versionsOf, versionsOf, hcases.versions, hncr, hversion]
  obtain ⟨obs, hobs, hobsItem, htrust, hdetected, hright, row, hrow, hrowId, hrowItem, htype, hcomponent⟩ :=
    hbacked o hold hopen old holdMem (hocc.trans hid) v hcurrent hwindow
  have hobs' := mem_ownedBy.mpr ⟨hobs, hobsItem⟩
  have hrow' := mem_ownedBy.mpr ⟨hrow, hrowItem⟩
  rw [← hrows.observations _ hreport] at hobs'
  rw [← hrows.defects _ hreport] at hrow'
  rw [Nonconformance.key, Nonconformance.key, DefectKey.mk.injEq] at hkey
  exact ⟨obs, (mem_ownedBy.mp hobs').1, hobsItem.trans hitem, htrust, hdetected, hright, row,
    (mem_ownedBy.mp hrow').1, hrowId, hrowItem.trans hitem, htype.trans hkey.1, hcomponent.trans hkey.2⟩

/-- In every run from tables whose windows are backed, every window of an open case stays backed. -/
theorem windows_stay_backed {db : Database} (hs : Sound db) (horder : db.insertOrder = .byClassName)
    (hreported : Reported db) (hbacked : WindowsBacked db) (calls : List Call) : WindowsBacked (run db calls) := by
  refine (Machine.run_invariant
    (P := fun m => Sound m ∧ m.insertOrder = .byClassName ∧ Reported m ∧ WindowsBacked m) ?_
    ⟨hs, horder, hreported, hbacked⟩ calls).2.2.2
  rintro m call ⟨hm, hmorder, hmreported, hmbacked⟩
  have hcases := exec_keepsCases hm hmorder call
  exact ⟨exec_sound hm call, hcases.insertOrder.trans hmorder, effect_reported hm hmreported (exec_cases hm call),
    hmbacked.keeps hm.toWellFormed hmreported hcases (exec_keepsReported hm hmorder call)⟩

/-- Empty tables have no window. -/
example (config : Configuration) : WindowsBacked { config := config } := by simp [WindowsBacked]

/-! ### A scratch that a later inspection contradicts -/

/-- The scratch is analysed. -/
def analysedScratch : List Call := oneScratch ++ [.rebuild "item-1"]

theorem analysedScratch_reachable : Reachable (run parentsFirst analysedScratch) :=
  ⟨_, analysedScratch, initial_parentsFirst, rfl⟩

/-- The nonconformance of the scratch. -/
def scratchNcr : Nonconformance where
  id := 1
  occurrenceId := 0
  itemId := "item-1"
  defectType := "scratch"
  componentInstanceId := none
  openedAt := 10

theorem analysedScratch_backed : WindowsBacked (run parentsFirst analysedScratch) := by
  intro o ho hopen n hn hid
  have hitem : ∀ o ∈ (run parentsFirst analysedScratch).defectOccurrences, o.itemId = "item-1" := by decide +kernel
  have hassessed : ∀ n ∈ (run parentsFirst analysedScratch).nonconformances,
      ∃ s ∈ itemSightings (run parentsFirst oneScratch) "item-1", s.key = n.key ∧ isAssessed s = true := by
    decide +kernel
  have hrebuild : rebuildItem (run parentsFirst oneScratch) "item-1" = .ok (run parentsFirst analysedScratch) :=
    rebuildItem_rebuildOrMark (by decide +kernel)
  exact (window_backed_iff (reachable_sound oneScratch_reachable).toWellFormed
    (reachable_reported oneScratch_reachable) hrebuild ho (hitem o ho) hopen hn hid).mpr (.inl (hassessed n hn))

/-- The inspection that contradicts the scratch within five minutes is stored, and the window is backed still. -/
theorem windows_stay_backed_contradicted : WindowsBacked (run (shipped (run parentsFirst analysedScratch))
    [.ingest (goodSeen "e-2" 20) 21, .rebuild "item-1"]) := by
  have hreported : Reported (run parentsFirst analysedScratch) := reachable_reported analysedScratch_reachable
  exact windows_stay_backed (sound_shipped (reachable_sound analysedScratch_reachable)) rfl hreported
    analysedScratch_backed _

/-- With the observations inserted first, the window of the contradicted scratch stays although no observation is
trusted any more. -/
example :
    ((run parentsFirst (analysedScratch ++ [.ingest (goodSeen "e-2" 20) 21, .rebuild "item-1"])).observations.map
      (·.trustStatus)) = [.conflicted, .conflicted] ∧
    (run parentsFirst (analysedScratch ++ [.ingest (goodSeen "e-2" 20) 21, .rebuild "item-1"])).analysisVersions.map
      assessmentOf = [⟨.leftOpen, none, some 10⟩] := by decide +kernel

end TraceQ.Properties
