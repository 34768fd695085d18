import TraceQ.Backend.Decisions
import TraceQ.Backend.Histories
import TraceQ.Projections.Assessments
import TraceQ.Properties.AnalysisBoundary
import TraceQ.Properties.DeviceInvalidation

/-! # Pointers to analysis versions

A nonconformance points at version 1 from its first day, whether or not that version is ever created. So
the pointers are valid as long as no rebuild opens a case for a defect none of whose sightings is assessed. In the
order of the class names no rebuild opens one at all.
-/
namespace TraceQ.Properties
open Projections Ingestion Api Quality Tables Results ChangeLog Backend
set_option autoImplicit false
set_option maxHeartbeats 250000

/-! ## Valid pointers -/

/-- The nonconformance has a version of that number. -/
def HasVersion (db : Database) (ncrId : Uuid) (version : ℕ) : Prop :=
  ∃ v ∈ versionsOf db ncrId, v.version = version

/-- Its current version exists and no version is larger. -/
def PointerValid (db : Database) (n : Nonconformance) : Prop :=
  HasVersion db n.id n.currentAnalysisVersion ∧
    ∀ v ∈ versionsOf db n.id, v.version ≤ n.currentAnalysisVersion

def PointersValid (db : Database) : Prop := ∀ n ∈ db.nonconformances, PointerValid db n

/-- The decisions of `db'` beyond those of `db` name versions that their nonconformances have in `db`. -/
def DecisionsBacked (db db' : Database) : Prop :=
  ∃ fresh, db'.controllerDecisions = db.controllerDecisions ++ fresh ∧
    ∀ decision ∈ fresh, HasVersion db decision.nonconformanceId decision.analysisVersion

theorem pointerValid_iff {db : Database} (h : WellFormed db) {n : Nonconformance}
    (hn : n ∈ db.nonconformances) : PointerValid db n ↔ versionsOf db n.id ≠ [] := by
  have hcurrent := h.current_version n hn
  constructor
  · rintro ⟨⟨v, hv, -⟩, -⟩
    exact List.ne_nil_of_mem hv
  · intro hne
    have hpos : 0 < (versionsOf db n.id).length := List.length_pos_iff.mpr hne
    have hnumber : ∀ number, (∃ v ∈ versionsOf db n.id, v.version = number) ↔
        number ∈ List.range' 1 (versionsOf db n.id).length := by
      intro number
      rw [← h.versions_numbered n.id, List.mem_map]
    refine ⟨(hnumber _).mpr ?_, fun v hv => ?_⟩
    · rw [List.mem_range'_1]
      omega
    · have hmem := (hnumber v.version).mp ⟨v, hv, rfl⟩
      rw [List.mem_range'_1] at hmem
      omega

theorem pointersValid_iff {db : Database} (h : WellFormed db) :
    PointersValid db ↔ ∀ n ∈ db.nonconformances, versionsOf db n.id ≠ [] :=
  forall₂_congr fun _ hn => pointerValid_iff h hn

/-- Nonconformances keep their ids and versions stay, so no pointer loses its version. -/
theorem pointersValid_keeps {db db' : Database} (h : WellFormed db) (h' : WellFormed db')
    (happends : Appends db db') (hids : db'.nonconformances.map (·.id) = db.nonconformances.map (·.id))
    (hvalid : PointersValid db) : PointersValid db' := by
  rw [pointersValid_iff h] at hvalid
  rw [pointersValid_iff h']
  intro n' hn'
  have hmem : n'.id ∈ db.nonconformances.map (·.id) := hids ▸ List.mem_map_of_mem hn'
  obtain ⟨n, hn, hid⟩ := List.mem_map.mp hmem
  exact hid ▸ (happends.versionsOf n.id).ne_nil (hvalid n hn)

/-! ## One rebuild -/

/-- Every case the rebuild opens is for a defect with a trusted or invalidated sighting. -/
def OpensAssessed (db : Database) (itemId : String) : Prop :=
  ∀ s ∈ itemSightings db itemId, findOpenOccurrence db itemId s.key = none →
    ∃ t ∈ itemSightings db itemId, t.key = s.key ∧ isAssessed t = true

theorem caseFiles_of_none {db : Database} {itemId : String} {key : DefectKey}
    (h : findOpenOccurrence db itemId key = none) : caseFiles db (itemId, key) = none := by
  simp [caseFiles, h]

section Rebuild
variable {db db' : Database} (hwf : WellFormed db) {itemId : String}
  (h : rebuildItem db itemId = .ok db')
include hwf h

/-- An occurrence a rebuild created is open, and its defect had no open case before. -/
theorem occurrence_created {o : DefectOccurrence} (ho : o ∈ db'.defectOccurrences)
    (hnew : db.nextId ≤ o.id) :
    o.status = .opened ∧ findOpenOccurrence db o.itemId o.key = none := by
  have hgrows := rebuildItem_grows hwf h
  obtain ⟨fresh, hrows, hfresh⟩ := hgrows.occurrences
  have hmem : fixedOccurrence o ∈ db.defectOccurrences.map fixedOccurrence ++ fresh :=
    hrows ▸ List.mem_map_of_mem ho
  have hopen : o.status = .opened := by
    rcases List.mem_append.mp hmem with hold | hadded
    · obtain ⟨old, hold, hfixed⟩ := List.mem_map.mp hold
      have hid : old.id = o.id := (congrArg DefectOccurrence.id hfixed :)
      exact absurd (hid ▸ hwf.occurrence_fresh old hold) hnew.not_gt
    · exact (hfresh _ hadded).1
  refine ⟨hopen, ?_⟩
  rw [findOpenOccurrence_none]
  rintro old hold ⟨hitem, hkey, hstatus⟩
  -- the open occurrence of that defect would still be there, beside the new one
  obtain ⟨kept, hkept, hfixed⟩ := hgrows.keepsOccurrence hold
  have hid : kept.id = old.id := (congrArg DefectOccurrence.id hfixed :)
  have hsame : SameOpenDefect kept o := by
    refine ⟨?_, hopen, ?_, ?_⟩
    · exact (congrArg DefectOccurrence.status hfixed :).trans hstatus
    · exact (congrArg DefectOccurrence.itemId hfixed :).trans hitem
    · exact (congrArg DefectOccurrence.key hfixed :).trans hkey
  obtain rfl := (rebuildItem_wellFormed hwf h).open_unique kept hkept o ho hsame
  exact absurd (hid ▸ hwf.occurrence_fresh old hold) hnew.not_gt

/-- The nonconformances of new cases have versions exactly when the rebuild opens only assessed cases. -/
theorem rebuildItem_pointers (hcondition : OpensAssessed db itemId) {n : Nonconformance}
    (hn : n ∈ db'.nonconformances) (hnew : db.nextId ≤ n.occurrenceId) : versionsOf db' n.id ≠ [] := by
  have hwf' := rebuildItem_wellFormed hwf h
  obtain ⟨o, ho, hid, -, -⟩ := hwf'.occurrence_of_ncr n hn
  obtain ⟨hopen, hnone⟩ := occurrence_created hwf h ho (hid ▸ hnew)
  have hfound : findOpenOccurrence db' o.itemId o.key = some o :=
    (findOpenOccurrence_iff hwf').mpr ⟨ho, rfl, rfl, hopen⟩
  have hncr : findNcr db' o.id = some n := (findNcr_iff hwf').mpr ⟨hn, hid.symm⟩
  have hfile : caseFiles db' (o.itemId, o.key) =
      some ⟨⟨o.firstObservationId, o.openedAt, n.verdict⟩, o.currentObservationId, logOf db' n.id⟩ := by
    simp only [caseFiles, hfound, Option.bind_some, fileOf, hncr, Option.map_some]
  have hitem : o.itemId = itemId := by
    by_contra hother
    obtain ⟨registered, linked, hsame, hlinked, hsame'⟩ := rebuildItem_links_after hwf h
    rw [hsame'.caseFiles, caseFile_after_other (hsame.wellFormed hwf) hlinked hother, hsame.caseFiles,
      caseFiles_of_none hnone] at hfile
    cases hfile
  rw [hitem] at hnone hfile
  obtain ⟨s, hs, hkey⟩ : ∃ s ∈ itemSightings db itemId, s.key = o.key := by
    have hopening := rebuildItem_opening hwf h o.key
    rw [hfile, caseFiles_of_none hnone] at hopening
    cases hhead : (ofKey o.key (itemSightings db itemId)).head? with
    | none => simp [hhead] at hopening
    | some s => exact ⟨s, mem_ofKey.mp (List.mem_of_head? hhead)⟩
  obtain ⟨t, ht, htkey, hassessed⟩ := hcondition s hs (hkey ▸ hnone)
  obtain ⟨a, ha⟩ := Option.isSome_iff_exists.mp
    ((assessed_isSome (rebuildItem_assess_ok hwf h t ht)).trans hassessed)
  have hlog := rebuildItem_log hwf h o.key
  rw [hfile, caseFiles_of_none hnone] at hlog
  have hmem : a ∈ assessments (itemContext db' itemId) o.key (itemSightings db itemId) :=
    List.mem_filterMap.mpr ⟨t, mem_ofKey.mpr ⟨ht, htkey.trans hkey⟩, ha⟩
  intro hnil
  have hempty : logOf db' n.id = [] := by rw [logOf, hnil]; rfl
  simp only [Option.map_some, Option.map_none, Option.getD_some, Option.getD_none, hempty] at hlog
  have hlast := getLast?_pushAll [] (assessments (itemContext db' itemId) o.key (itemSightings db itemId))
  rw [← hlog, List.getLast?_nil, Option.or_none] at hlast
  rw [List.getLast?_eq_none_iff.mp hlast.symm] at hmem
  cases hmem

theorem rebuildItem_pointersValid (hhistory : History db) (hvalid : PointersValid db)
    (hcondition : OpensAssessed db itemId) : PointersValid db' := by
  have happends := (rebuildItem_history hwf hhistory h).1
  rw [pointersValid_iff hwf] at hvalid
  rw [pointersValid_iff (rebuildItem_wellFormed hwf h)]
  intro n hn
  obtain ⟨fresh, hrows, hfresh⟩ := (rebuildItem_grows hwf h).nonconformances
  have hmem : fixedNcr n ∈ db.nonconformances.map fixedNcr ++ fresh := hrows ▸ List.mem_map_of_mem hn
  rcases List.mem_append.mp hmem with hold | hadded
  · obtain ⟨old, hold, hfixed⟩ := List.mem_map.mp hold
    have hid : old.id = n.id := (congrArg Nonconformance.id hfixed :)
    exact hid ▸ (happends.versionsOf old.id).ne_nil (hvalid old hold)
  · exact rebuildItem_pointers hwf h hcondition hn (hfresh _ hadded).2.1

/-- A rebuild keeps all pointers valid exactly when the cases it opens are assessed. -/
theorem rebuildItem_pointersValid_iff (hhistory : History db) (hvalid : PointersValid db) :
    PointersValid db' ↔ OpensAssessed db itemId := by
  refine ⟨fun hvalid' s hs hnone => ?_, rebuildItem_pointersValid hwf h hhistory hvalid⟩
  have hwf' := rebuildItem_wellFormed hwf h
  rw [pointersValid_iff hwf'] at hvalid'
  obtain ⟨o, ho, hitem, hkey, hopen⟩ := (caseFiles_isSome hwf').mp (rebuildItem_opens hwf h hs)
  obtain ⟨n, hncr⟩ := findNcr_of_occurrence hwf' ho
  have hfound : findOpenOccurrence db' itemId s.key = some o :=
    (findOpenOccurrence_iff hwf').mpr ⟨ho, hitem, hkey, hopen⟩
  have hfile : caseFiles db' (itemId, s.key) =
      some ⟨⟨o.firstObservationId, o.openedAt, n.verdict⟩, o.currentObservationId, logOf db' n.id⟩ := by
    simp only [caseFiles, hfound, Option.bind_some, fileOf, hncr, Option.map_some]
  have hlog := rebuildItem_log hwf h s.key
  rw [hfile, caseFiles_of_none hnone] at hlog
  have hne : logOf db' n.id ≠ [] := by
    rw [logOf, Ne, List.map_eq_nil_iff]
    exact hvalid' n ((findNcr_iff hwf').mp hncr).1
  have hassessments : assessments (itemContext db' itemId) s.key (itemSightings db itemId) ≠ [] := by
    intro hnil
    rw [hnil] at hlog
    exact hne hlog
  obtain ⟨a, ha⟩ := List.exists_mem_of_ne_nil _ hassessments
  obtain ⟨t, ht, hassess⟩ := List.mem_filterMap.mp ha
  obtain ⟨hmem, htkey⟩ := mem_ofKey.mp ht
  refine ⟨t, hmem, htkey, ?_⟩
  rw [← assessed_isSome (rebuildItem_assess_ok hwf h t hmem), hassess]
  rfl

end Rebuild

/-! ## One call -/

/-- The rebuilds of the loop of an invalidation open assessed cases only. -/
def LoopOpensAssessed : Database → List String → Prop
  | _, [] => True
  | session, itemId :: rest =>
      OpensAssessed session itemId ∧
        ∀ rebuilt, rebuildItem session itemId = .ok rebuilt → LoopOpensAssessed rebuilt rest

/-- The rebuilds of the call open assessed cases only. -/
def CallOpensAssessed (db : Database) : Call → Prop
  | .rebuild itemId => OpensAssessed db itemId
  | .invalidateDevice body userId => LoopOpensAssessed (recorded db body userId) (affectedOf db body)
  | _ => True

/-- What a run carries along. -/
structure Pointed (db : Database) : Prop where
  sound : Sound db
  history : History db
  pointers : PointersValid db

theorem rebuildAll_pointed {committed session : Database} (hcommitted : WellFormed committed ∧
      History committed ∧ PointersValid committed)
    (hsession : WellFormed session ∧ History session ∧ PointersValid session) {targets : List String}
    (h : LoopOpensAssessed session targets) : PointersValid (rebuildAll committed session targets).1 := by
  induction targets generalizing committed session with
  | nil => exact hsession.2.2
  | cons itemId rest ih =>
    obtain ⟨hwf, hhistory, hvalid⟩ := hsession
    rw [rebuildAll]
    cases hrebuild : rebuildItem session itemId with
    | error e => exact hcommitted.2.2
    | ok rebuilt =>
      have hnext : WellFormed rebuilt ∧ History rebuilt ∧ PointersValid rebuilt :=
        ⟨rebuildItem_wellFormed hwf hrebuild, (rebuildItem_history hwf hhistory hrebuild).2,
          rebuildItem_pointersValid hwf hrebuild hhistory hvalid h.1⟩
      exact ih hnext hnext (h.2 rebuilt hrebuild)

theorem exec_pointed {db : Database} (h : Pointed db) {call : Call} (hcall : CallOpensAssessed db call) :
    Pointed (exec db call).1 := by
  have hsound := exec_sound h.sound call
  obtain ⟨happends, hhistory⟩ := exec_history h.sound h.history call
  have hkeeps : (exec db call).1.nonconformances.map (·.id) = db.nonconformances.map (·.id) →
      PointersValid (exec db call).1 := fun hids =>
    pointersValid_keeps h.sound.toWellFormed hsound.toWellFormed happends hids h.pointers
  refine ⟨hsound, hhistory, ?_⟩
  cases exec_frame h.sound call with
  | ingested event receivedAt result _ hingest => exact hkeeps (by rw [(ingest_quiet hingest).nonconformances])
  | rebuilt itemId hcallIs hrebuild =>
    rw [hcallIs] at hcall
    exact rebuildItem_pointersValid h.sound.toWellFormed hrebuild h.history h.pointers hcall
  | failed itemId error _ _ hmarked => exact hkeeps (by rw [hmarked]; rfl)
  | invalidated body userId hcallIs heq =>
    rw [hcallIs] at hcall
    have hwf : WellFormed (recorded db body userId) :=
      wellFormed_congr h.sound.toWellFormed rfl rfl rfl le_rfl
    rw [heq]
    exact rebuildAll_pointed ⟨h.sound.toWellFormed, h.history, h.pointers⟩
      ⟨hwf, h.history.keeps rfl le_rfl, h.pointers⟩ hcall
  | configured config _ heq => exact hkeeps (by rw [heq])
  | other hother => exact hkeeps hother.ncrIds

/-- A decision copies a valid pointer. -/
theorem exec_backed {db : Database} (hs : Sound db) (hvalid : PointersValid db) (call : Call) :
    DecisionsBacked db (exec db call).1 := by
  rcases exec_decides hs call with hsame | ⟨ncr, decision, hdecides⟩
  · exact ⟨[], by simp [hsame], nofun⟩
  · refine ⟨[decision], hdecides.decisions, fun d hd => ?_⟩
    rw [List.mem_singleton.mp hd, hdecides.about, hdecides.version]
    exact (hvalid ncr hdecides.found).1

theorem pointed_initial {db : Database} (h : Initial db) : Pointed db := by
  obtain ⟨config, order, rfl⟩ := h
  exact ⟨sound_initial ⟨config, order, rfl⟩, history_initial config order, by simp [PointersValid]⟩

/-! ## Every run -/

/-- As long as the rebuilds open cases only for defects with a trusted or invalidated sighting, every
state has valid pointers and every decision is made on a version that exists. -/
theorem version_pointers {db : Database} (hdb : Initial db) {calls : List Call}
    (hmeets : Machine.Meets exec CallOpensAssessed db calls) :
    PointersValid (run db calls) ∧ ∀ front call rest, calls = front ++ call :: rest →
      PointersValid (run db front) ∧ DecisionsBacked (run db front) (run db (front ++ [call])) := by
  have hpointed : ∀ {front : List Call}, Machine.Meets exec CallOpensAssessed db front →
      Pointed (run db front) := fun hfront =>
    Machine.meets_invariant (C := CallOpensAssessed) (P := Pointed)
      (fun _ _ hp hc => exec_pointed hp hc) (pointed_initial hdb) hfront
  refine ⟨(hpointed hmeets).pointers, ?_⟩
  rintro front call rest rfl
  have hfront := hpointed (Machine.meets_append.mp hmeets).1
  refine ⟨hfront.pointers, ?_⟩
  have hrun : run db (front ++ [call]) = (exec (run db front) call).1 := Machine.run_append _ _ _
  exact hrun ▸ exec_backed hfront.sound hfront.pointers call

/-! ## In the order of the class names -/

theorem keepsCases_pointersValid {db db' : Database} (h : KeepsCases db db') (hvalid : PointersValid db) :
    PointersValid db' := by
  intro n' hn'
  obtain ⟨n, hn, hsame⟩ := h.ncr_before hn'
  simp only [identityOf, Prod.mk.injEq] at hsame
  obtain ⟨hid, -, -, -, hversion⟩ := hsame
  have hrows : versionsOf db' n'.id = versionsOf db n.id := by rw [versionsOf, versionsOf, h.versions, hid]
  rw [PointerValid, HasVersion, hrows, ← hversion]
  exact hvalid n hn

/-- In every run from tables with valid pointers, every state has valid pointers and every decision is made on a
version that exists. -/
theorem pointers_stay_valid {db : Database} (hs : Sound db) (horder : db.insertOrder = .byClassName)
    (hvalid : PointersValid db) (calls : List Call) :
    PointersValid (run db calls) ∧ ∀ front call rest, calls = front ++ call :: rest →
      PointersValid (run db front) ∧ DecisionsBacked (run db front) (run db (front ++ [call])) := by
  have hkept : ∀ front, PointersValid (run db front) := fun front =>
    keepsCases_pointersValid (run_keepsCases hs horder front) hvalid
  refine ⟨hkept calls, fun front call rest _ => ⟨hkept front, ?_⟩⟩
  have hrun : run db (front ++ [call]) = (exec (run db front) call).1 := Machine.run_append _ _ _
  exact hrun ▸ exec_backed (run_sound hs front) (hkept front) call

/-- Empty tables have valid pointers. -/
example (config : Configuration) : PointersValid { config := config } := by simp [PointersValid]

/-! ### A case without a version -/

theorem dent_listed : InspectionResult.defectDetected = .defectDetected ↔
    [({ defectType := "dent" } : Defect)] ≠ [] := by decide

/-- A blurred image of a dent, which no policy trusts. -/
def blurredDent : EventEnvelope :=
  { scratchSeen "e-2" 30 with
    payload := .inspectionResult
      { inspectionResult := .defectDetected
        observationQuality := .poor
        controlPointId := "CP-1"
        defects := [{ defectType := "dent" }]
        validate_defects := dent_listed } }

theorem analysedScratch_pointers : PointersValid (shipped (run parentsFirst analysedScratch)) := by
  unfold PointersValid PointerValid HasVersion
  decide +kernel

/-- The blurred dent opens no case, and the decision is about the scratch. -/
theorem pointers_stay_valid_scratch :
    PointersValid (run (shipped (run parentsFirst analysedScratch))
      [.ingest blurredDent 31, .rebuild "item-1", .decide 1 useAsIs 100 40]) :=
  (pointers_stay_valid (sound_shipped (reachable_sound analysedScratch_reachable)) rfl analysedScratch_pointers _).1

/-- With the observations inserted first, the untrusted dent opens a case that points at version 1, which no
analysis has. -/
example : ∃ n ∈ (run parentsFirst (analysedScratch ++ [.ingest blurredDent 31, .rebuild "item-1"])).nonconformances,
    n.currentAnalysisVersion = 1 ∧
      versionsOf (run parentsFirst (analysedScratch ++ [.ingest blurredDent 31, .rebuild "item-1"])) n.id = [] := by
  decide +kernel

end TraceQ.Properties
