import TraceQ.Projections.CaseTables
import TraceQ.Library.ChangeLog
import TraceQ.Library.Results

/-! # What the linking loop means

The abstract view of the case tables is one file per defect: how the open case began, its newest
observation, and the log of its assessments. One sighting opens or extends the file of its key, a
log records only changes, and the whole loop is the fold of that step.
-/
namespace TraceQ.Projections
open Quality Tables ChangeLog Results
set_option autoImplicit false
set_option maxHeartbeats 250000

/-! ## The assessment of one sighting -/

/-- What a sighting contributes to the log of its case, if anything. -/
def assess (context : AnalysisContext) (sighting : Sighting) :
    Except ReplayError (Option Assessment) :=
  match sighting.observation.trustStatus with
  | .trusted => (calculateBirthWindow sighting context).map fun result => some result.assessment
  | .invalidated => .ok (some invalidatedAssessment)
  | _ => .ok none

/-- The same where no scope raises. -/
def assessed (context : AnalysisContext) (sighting : Sighting) : Option Assessment :=
  (assess context sighting).toOption.join

theorem assessed_of_ok {context : AnalysisContext} {sighting : Sighting} {a : Option Assessment}
    (h : assess context sighting = .ok a) : assessed context sighting = a := by
  rw [assessed, h]
  rfl

/-- The assessments of a nonconformance in order. -/
def logOf (db : Database) (ncrId : Uuid) : List Assessment :=
  (versionsOf db ncrId).map assessmentOf

theorem latest_assessment {db : Database} {ncrId : Uuid}
    (h : (versionsOf db ncrId).map (·.version) = List.range' 1 (versionsOf db ncrId).length) :
    (latestAnalysis db ncrId).map assessmentOf = (logOf db ncrId).getLast? := by
  rw [latestAnalysis_of_numbered h, logOf, List.getLast?_map]

/-- What one assessment does to the database: nothing, or one new version. -/
def Records (db : Database) (n : Nonconformance) (a : Option Assessment) (db' : Database) : Prop :=
  (pushSome (logOf db n.id) a = logOf db n.id ∧ db' = db) ∨
    ∃ result reason evidence, a = some result ∧ (logOf db n.id).getLast? ≠ some result ∧
      (result.status = .evidenceInvalidated →
        result.leftBoundaryAt = none ∧ result.rightBoundaryAt = none) ∧
      db' = appendVersion db n result reason evidence

theorem window_status (left : Option Instant) (time : Instant) :
    (window left time).status ≠ .evidenceInvalidated := by
  cases left <;> simp [window]

/-- The assessment of a computed window. -/
theorem calculateBirthWindow_ok {sighting : Sighting} {context : AnalysisContext}
    {result : BirthWindowResult} (h : calculateBirthWindow sighting context = .ok result) :
    ∃ found, candidates sighting.key sighting.occurredAt context.observations = .ok found ∧
      result.assessment = window ((lastGood found).map (·.occurredAt)) sighting.occurredAt := by
  obtain ⟨found, hfound, hresult⟩ := bind_ok.mp h
  exact ⟨found, hfound, by rw [← pure_ok.mp hresult]⟩

theorem createAnalysis_records {db db' : Database} {n : Nonconformance}
    (h : (versionsOf db n.id).map (·.version) = List.range' 1 (versionsOf db n.id).length)
    {sighting : Sighting} {context : AnalysisContext} {result : BirthWindowResult}
    (hresult : calculateBirthWindow sighting context = .ok result)
    (hok : createAnalysis db n sighting context = .ok db') :
    Records db n (some result.assessment) db' := by
  unfold createAnalysis at hok
  obtain ⟨result', hresult', hok⟩ := bind_ok.mp hok
  obtain rfl : result = result' := Except.ok.inj (hresult.symm.trans hresult')
  have hdb := pure_ok.mp hok
  have hlast := latest_assessment h
  by_cases hchanged : (logOf db n.id).getLast? = some result.assessment
  · rw [hchanged, Option.map_eq_some_iff] at hlast
    obtain ⟨version, hversion, hsame⟩ := hlast
    rw [if_neg (by simp [analysisChanged, hversion, hsame])] at hdb
    exact .inl ⟨push_of_last hchanged, hdb.symm⟩
  · have hnew : analysisChanged (latestAnalysis db n.id) result.assessment = true := by
      cases hversion : latestAnalysis db n.id with
      | none => rfl
      | some version =>
        rw [hversion, Option.map_some] at hlast
        simp only [analysisChanged, Option.all_some, decide_eq_true_eq]
        exact fun hsame => hchanged (by rw [← hlast, hsame])
    rw [if_pos hnew] at hdb
    obtain ⟨found, -, hwindow⟩ := calculateBirthWindow_ok hresult
    refine .inr ⟨_, _, _, rfl, hchanged, fun hstatus => ?_, hdb.symm⟩
    rw [hwindow] at hstatus
    exact absurd hstatus (window_status _ _)

theorem createInvalidatedAnalysis_records {db : Database} {n : Nonconformance}
    (h : (versionsOf db n.id).map (·.version) = List.range' 1 (versionsOf db n.id).length)
    (hopen : ∀ v ∈ db.analysisVersions, v.status = .evidenceInvalidated →
      v.leftBoundaryAt = none ∧ v.rightBoundaryAt = none) (obs : ObservationValue) :
    Records db n (some invalidatedAssessment) (createInvalidatedAnalysis db n obs) := by
  have hlast := latest_assessment h
  by_cases hsame : (logOf db n.id).getLast? = some invalidatedAssessment
  · rw [hsame, Option.map_eq_some_iff] at hlast
    obtain ⟨version, hversion, hassess⟩ := hlast
    have hstatus : version.status = .evidenceInvalidated := congrArg Assessment.status hassess
    refine .inl ⟨push_of_last hsame, ?_⟩
    simp [createInvalidatedAnalysis, hversion, hstatus]
  · refine .inr ⟨invalidatedAssessment, .controlDeviceInvalidation, [invalidationEvidence obs], rfl,
      hsame, fun _ => ⟨rfl, rfl⟩, ?_⟩
    rw [createInvalidatedAnalysis, if_neg]
    intro hany
    obtain ⟨version, hversion, hstatus⟩ := (Option.any_eq_true _ _).mp hany
    rw [decide_eq_true_eq] at hstatus
    -- an `EVIDENCE_INVALIDATED` version has no boundaries, so its status is all of it
    have hmem : version ∈ versionsOf db n.id := latestBy_mem hversion
    obtain ⟨hleft, hright⟩ := hopen version (mem_versionsOf.mp hmem).1 hstatus
    rw [hversion, Option.map_some] at hlast
    exact hsame (by rw [← hlast, assessmentOf, hstatus, hleft, hright]; rfl)

theorem assessSighting_records {db db' : Database} (h : WellFormed db) {n : Nonconformance}
    (hn : n ∈ db.nonconformances) {sighting : Sighting} {context : AnalysisContext}
    (hok : assessSighting db n sighting context = .ok db') :
    Records db n (assessed context sighting) db' := by
  unfold assessSighting at hok
  have hversion : n.currentAnalysisVersion ≠ 0 := by
    rw [h.current_version n hn]; omega
  have hskip : pushSome (logOf db n.id) none = logOf db n.id := rfl
  cases htrust : sighting.observation.trustStatus with
  | trusted =>
    simp only [htrust] at hok
    cases hresult : calculateBirthWindow sighting context with
    | error e => simp [createAnalysis, hresult, bind, Except.bind] at hok
    | ok result =>
      have hassess : assess context sighting = .ok (some result.assessment) := by
        simp only [assess, htrust, hresult, Except.map]
      rw [assessed_of_ok hassess]
      exact createAnalysis_records (h.versions_numbered n.id) hresult hok
  | invalidated =>
    simp only [htrust, if_pos hversion] at hok
    have hassess : assess context sighting = .ok (some invalidatedAssessment) := by
      simp only [assess, htrust]
    rw [assessed_of_ok hassess, ← Except.ok.inj hok]
    exact createInvalidatedAnalysis_records (h.versions_numbered n.id) h.invalidated_open
      sighting.observation
  | untrusted | unassessable | conflicted =>
    simp only [htrust] at hok
    have hassess : assess context sighting = .ok none := by simp only [assess, htrust]
    rw [assessed_of_ok hassess, ← Except.ok.inj hok]
    exact .inl ⟨hskip, rfl⟩

/-- A sighting is linked unless the scope of some GOOD raises. -/
theorem linkSighting_ok_iff {db : Database} {itemId : String} {context : AnalysisContext}
    {sighting : Sighting} :
    (∃ db', linkSighting itemId context db sighting = .ok db') ↔
      ∃ a, assess context sighting = .ok a := by
  unfold linkSighting assessSighting assess
  cases sighting.observation.trustStatus with
  | trusted =>
    cases hresult : calculateBirthWindow sighting context with
    | error e => simp [createAnalysis, hresult, bind, Except.bind, Except.map]
    | ok result => simp [createAnalysis, hresult, bind, Except.bind, Except.map, pure, Except.pure]
  | invalidated | untrusted | unassessable | conflicted => simp

/-! ## The two ways to link -/

theorem link_open {db : Database} (h : WellFormed db) {itemId : String} {sighting : Sighting}
    {o : DefectOccurrence} (ho : findOpenOccurrence db itemId sighting.key = some o) :
    ∃ n, findNcr db o.id = some n ∧
      linkNcr (linkOccurrence db itemId sighting).1 (linkOccurrence db itemId sighting).2 itemId
        sighting = (touchOccurrence db o.id ⟨sighting.observation.eventId⟩, n) := by
  obtain ⟨n, hn⟩ := findNcr_of_occurrence h ((findOpenOccurrence_iff h).mp ho).1
  have hlinked : linkOccurrence db itemId sighting =
      (touchOccurrence db o.id ⟨sighting.observation.eventId⟩, o.id) := by
    rw [linkOccurrence, ho]
    rfl
  have hfound : findNcr (touchOccurrence db o.id ⟨sighting.observation.eventId⟩) o.id = some n := hn
  refine ⟨n, hn, ?_⟩
  rw [hlinked, linkNcr, hfound]

theorem link_new {db : Database} (h : WellFormed db) {itemId : String} {sighting : Sighting}
    (hnone : findOpenOccurrence db itemId sighting.key = none) :
    linkNcr (linkOccurrence db itemId sighting).1 (linkOccurrence db itemId sighting).2 itemId
      sighting =
      (openCase db itemId sighting, newNcr (db.nextId + 1) db.nextId itemId sighting) := by
  have hfresh : findNcr db db.nextId = none := by
    rw [findNcr, List.find?_eq_none]
    intro n hn
    obtain ⟨o, ho, hoid, -⟩ := h.occurrence_of_ncr n hn
    have hlt := h.occurrence_fresh o ho
    simp only [decide_eq_true_eq, ← hoid]
    exact hlt.ne
  have hlinked : linkOccurrence db itemId sighting =
      ({ db with
          defectOccurrences := db.defectOccurrences ++ [newOccurrence db.nextId itemId sighting]
          nextId := db.nextId + 1 }, db.nextId) := by
    rw [linkOccurrence, hnone]
  rw [hlinked, linkNcr]
  simp only [findNcr] at hfresh ⊢
  rw [hfresh]
  rfl

/-- Everything the linking of one sighting can do. -/
theorem linkSighting_cases {db db' : Database} (h : WellFormed db) {itemId : String}
    {context : AnalysisContext} {sighting : Sighting}
    (hok : linkSighting itemId context db sighting = .ok db') :
    (∃ o n, findOpenOccurrence db itemId sighting.key = some o ∧ findNcr db o.id = some n ∧
      Records (touchOccurrence db o.id ⟨sighting.observation.eventId⟩) n
        (assessed context sighting) db') ∨
    (findOpenOccurrence db itemId sighting.key = none ∧
      Records (openCase db itemId sighting) (newNcr (db.nextId + 1) db.nextId itemId sighting)
        (assessed context sighting) db') := by
  simp only [linkSighting] at hok
  cases hopen : findOpenOccurrence db itemId sighting.key with
  | some o =>
    obtain ⟨n, hn, hlink⟩ := link_open h hopen
    rw [hlink] at hok
    have hmem : n ∈ db.nonconformances := ((findNcr_iff h).mp hn).1
    exact .inl ⟨o, n, rfl, hn, assessSighting_records (wellFormed_touchOccurrence h _ _) hmem hok⟩
  | none =>
    rw [link_new h hopen] at hok
    exact .inr ⟨rfl, assessSighting_records (wellFormed_openCase h hopen)
      (List.mem_append_right _ (List.mem_singleton_self _)) hok⟩

theorem Records.wellFormed {db db' : Database} {n : Nonconformance} {a : Option Assessment}
    (hrec : Records db n a db') (h : WellFormed db) (hn : n ∈ db.nonconformances) :
    WellFormed db' := by
  rcases hrec with ⟨-, rfl⟩ | ⟨result, reason, evidence, -, -, hwindow, rfl⟩
  · exact h
  · exact wellFormed_appendVersion h hn hwindow

theorem linkSighting_wellFormed {db db' : Database} (h : WellFormed db) {itemId : String}
    {context : AnalysisContext} {sighting : Sighting}
    (hok : linkSighting itemId context db sighting = .ok db') : WellFormed db' := by
  rcases linkSighting_cases h hok with ⟨o, n, -, hn, hrec⟩ | ⟨hnone, hrec⟩
  · exact hrec.wellFormed (wellFormed_touchOccurrence h _ _) ((findNcr_iff h).mp hn).1
  · exact hrec.wellFormed (wellFormed_openCase h hnone)
      (List.mem_append_right _ (List.mem_singleton_self _))

/-! ## Case files -/

/-- How a case began. -/
structure Opening where
  firstObservationId : ObservationId
  openedAt : Instant
  verdict : Verdict
deriving DecidableEq, Repr

/-- The open case of one defect: its opening, its newest observation, its assessments. -/
structure CaseFile where
  opening : Opening
  currentObservationId : ObservationId
  log : List Assessment
deriving DecidableEq, Repr

/-- The file of an occurrence. -/
def fileOf (db : Database) (o : DefectOccurrence) : Option CaseFile :=
  (findNcr db o.id).map fun n =>
    ⟨⟨o.firstObservationId, o.openedAt, n.verdict⟩, o.currentObservationId, logOf db n.id⟩

/-- The file of the open case of a defect of an item. -/
def caseFiles (db : Database) (defect : String × DefectKey) : Option CaseFile :=
  (findOpenOccurrence db defect.1 defect.2).bind (fileOf db)

/-- How a case begins when this sighting opens it. -/
def openingOf (sighting : Sighting) : Opening :=
  ⟨⟨sighting.observation.eventId⟩, sighting.occurredAt,
    openingVerdict sighting.observation.trustStatus⟩

/-- The file after one more sighting of its defect. -/
def extendFile (context : AnalysisContext) (file : Option CaseFile) (sighting : Sighting) :
    Option CaseFile :=
  some
    { opening := (file.map (·.opening)).getD (openingOf sighting)
      currentObservationId := ⟨sighting.observation.eventId⟩
      log := pushSome ((file.map (·.log)).getD []) (assessed context sighting) }

theorem caseFiles_isSome {db : Database} (h : WellFormed db) {defect : String × DefectKey} :
    (caseFiles db defect).isSome = true ↔ ∃ o ∈ db.defectOccurrences,
      o.itemId = defect.1 ∧ o.key = defect.2 ∧ o.status = .opened := by
  constructor
  · intro hsome
    cases hopen : findOpenOccurrence db defect.1 defect.2 with
    | none => simp [caseFiles, hopen] at hsome
    | some o => exact ⟨o, (findOpenOccurrence_iff h).mp hopen⟩
  · rintro ⟨o, ho⟩
    have hopen := (findOpenOccurrence_iff h).mpr ho
    obtain ⟨n, hn⟩ := findNcr_of_occurrence h ho.1
    simp [caseFiles, hopen, fileOf, hn]

/-! ### What the writes do to the files -/

theorem caseFiles_touchOccurrence {db : Database} (h : WellFormed db) {o : DefectOccurrence}
    (defect : String × DefectKey) (observationId : ObservationId)
    (ho : findOpenOccurrence db defect.1 defect.2 = some o) :
    caseFiles (touchOccurrence db o.id observationId) = Function.update (caseFiles db) defect
      ((caseFiles db defect).map fun file => { file with currentObservationId := observationId }) := by
  have hfind : ∀ itemId key, findOpenOccurrence (touchOccurrence db o.id observationId) itemId key =
      (findOpenOccurrence db itemId key).map fun row =>
        if row.id = o.id then { row with currentObservationId := observationId } else row := by
    intro itemId key
    have hmap := find?_modifyWhere (p := fun row => decide (row.id = o.id))
      (f := fun row => { row with currentObservationId := observationId })
      (q := fun row : DefectOccurrence =>
        decide (row.itemId = itemId ∧ row.key = key ∧ row.status = .opened))
      (fun _ => rfl) db.defectOccurrences
    simpa [findOpenOccurrence, touchOccurrence] using hmap
  funext other
  by_cases hother : other = defect
  · subst hother
    rw [Function.update_self, caseFiles, caseFiles, hfind, ho]
    simp only [Option.map_some, if_true, Option.bind_some, fileOf, Option.map_map]
    rfl
  · rw [Function.update_of_ne hother, caseFiles, caseFiles, hfind]
    cases hopen : findOpenOccurrence db other.1 other.2 with
    | none => rfl
    | some row =>
      -- an occurrence open for another defect is another row
      have hne : row.id ≠ o.id := by
        intro hid
        obtain ⟨hrow, hri, hrk, -⟩ := (findOpenOccurrence_iff h).mp hopen
        obtain ⟨hmem, hoi, hok, -⟩ := (findOpenOccurrence_iff h).mp ho
        have hsame := eq_of_nodup_map h.occurrence_ids hrow hmem hid
        exact hother (Prod.ext (by rw [← hri, hsame, hoi]) (by rw [← hrk, hsame, hok]))
      simp only [Option.map_some, Option.bind_some, if_neg hne]
      rfl

theorem caseFiles_openCase {db : Database} (h : WellFormed db) {itemId : String}
    {sighting : Sighting} (hnone : findOpenOccurrence db itemId sighting.key = none) :
    caseFiles (openCase db itemId sighting) = Function.update (caseFiles db) (itemId, sighting.key)
      (some ⟨openingOf sighting, ⟨sighting.observation.eventId⟩, []⟩) := by
  have hwf := wellFormed_openCase h hnone
  funext other
  by_cases hother : other = (itemId, sighting.key)
  · subst hother
    have hopen : findOpenOccurrence (openCase db itemId sighting) itemId sighting.key =
        some (newOccurrence db.nextId itemId sighting) :=
      (findOpenOccurrence_iff hwf).mpr
        ⟨List.mem_append_right _ (List.mem_singleton_self _), rfl, rfl, rfl⟩
    have hncr : findNcr (openCase db itemId sighting) db.nextId =
        some (newNcr (db.nextId + 1) db.nextId itemId sighting) :=
      (findNcr_iff hwf).mpr ⟨List.mem_append_right _ (List.mem_singleton_self _), rfl⟩
    have hlog : logOf (openCase db itemId sighting) (db.nextId + 1) = [] := by
      rw [logOf, versionsOf_openCase, versionsOf_fresh h (Nat.le_succ _)]
      rfl
    rw [Function.update_self, caseFiles, hopen]
    simp only [Option.bind_some, fileOf, newOccurrence, hncr, Option.map_some, newNcr, hlog]
    rfl
  · rw [Function.update_of_ne hother, caseFiles, caseFiles]
    have hfind : findOpenOccurrence (openCase db itemId sighting) other.1 other.2 =
        findOpenOccurrence db other.1 other.2 := by
      have hmiss : ¬ (itemId = other.1 ∧ sighting.key = other.2) := by
        rintro ⟨hi, hk⟩
        exact hother (Prod.ext hi.symm hk.symm)
      have hkey : (newOccurrence db.nextId itemId sighting).key = sighting.key := rfl
      simp only [findOpenOccurrence, openCase, List.find?_append, List.find?_singleton, hkey]
      rw [if_neg]
      · exact Option.or_none
      · simp only [newOccurrence, decide_eq_true_eq]
        exact fun hall => hmiss ⟨hall.1, hall.2.1⟩
    rw [hfind]
    cases hopen : findOpenOccurrence db other.1 other.2 with
    | none => rfl
    | some row =>
      obtain ⟨n, hn⟩ := findNcr_of_occurrence h ((findOpenOccurrence_iff h).mp hopen).1
      have hn' : findNcr (openCase db itemId sighting) row.id = some n :=
        (findNcr_iff hwf).mpr
          ⟨List.mem_append_left _ ((findNcr_iff h).mp hn).1, ((findNcr_iff h).mp hn).2⟩
      simp only [Option.bind_some, fileOf, hn, hn', Option.map_some, logOf, versionsOf_openCase]

theorem logOf_records {db db' : Database} {n : Nonconformance} {a : Option Assessment}
    (hrec : Records db n a db') (ncrId : Uuid) :
    logOf db' ncrId = if ncrId = n.id then pushSome (logOf db n.id) a else logOf db ncrId := by
  rcases hrec with ⟨hlog, rfl⟩ | ⟨result, reason, evidence, rfl, hnew, -, rfl⟩
  · by_cases hid : ncrId = n.id
    · rw [if_pos hid, hlog, hid]
    · rw [if_neg hid]
  · by_cases hid : ncrId = n.id
    · rw [if_pos hid, hid, logOf, versionsOf_appendVersion_self, List.map_append]
      exact (push_of_new hnew).symm
    · rw [if_neg hid, logOf, versionsOf_appendVersion_other hid, logOf]

/-- Recording an assessment changes no column of a nonconformance but its current version. -/
theorem findNcr_records {db db' : Database} {n : Nonconformance} {a : Option Assessment}
    (hrec : Records db n a db') (occurrenceId : Uuid) :
    (findNcr db' occurrenceId).map (fun m => (m.id, m.verdict)) =
      (findNcr db occurrenceId).map fun m => (m.id, m.verdict) := by
  rcases hrec with ⟨-, rfl⟩ | ⟨result, reason, evidence, -, -, -, rfl⟩
  · rfl
  · have hmap := find?_modifyWhere (p := fun row : Nonconformance => decide (row.id = n.id))
      (f := fun row => { row with currentAnalysisVersion := (newVersion db n result reason).version })
      (q := fun row : Nonconformance => decide (row.occurrenceId = occurrenceId))
      (fun _ => rfl) db.nonconformances
    rw [findNcr, appendVersion, hmap, findNcr, Option.map_map]
    refine Option.map_congr fun m _ => ?_
    by_cases hid : m.id = n.id <;> simp [hid]

theorem caseFiles_records {db db' : Database} (h : WellFormed db) {n : Nonconformance}
    {a : Option Assessment} {o : DefectOccurrence} (defect : String × DefectKey)
    (ho : findOpenOccurrence db defect.1 defect.2 = some o) (hn : findNcr db o.id = some n)
    (hrec : Records db n a db') :
    caseFiles db' = Function.update (caseFiles db) defect
      ((caseFiles db defect).map fun file => { file with log := pushSome file.log a }) := by
  have hocc : ∀ itemId key, findOpenOccurrence db' itemId key = findOpenOccurrence db itemId key := by
    rcases hrec with ⟨-, rfl⟩ | ⟨result, reason, evidence, -, -, -, rfl⟩ <;> exact fun _ _ => rfl
  have hfile : ∀ row, fileOf db' row = ((findNcr db row.id).map fun m => (m.id, m.verdict)).map
      fun m => ⟨⟨row.firstObservationId, row.openedAt, m.2⟩, row.currentObservationId,
        if m.1 = n.id then pushSome (logOf db n.id) a else logOf db m.1⟩ := by
    intro row
    rw [← findNcr_records hrec row.id, fileOf, Option.map_map]
    refine Option.map_congr fun m _ => ?_
    simp only [Function.comp, logOf_records hrec m.id]
  funext other
  rw [caseFiles, hocc]
  by_cases hother : other = defect
  · subst hother
    rw [Function.update_self, caseFiles, ho, Option.bind_some, Option.bind_some, hfile, fileOf, hn]
    simp only [Option.map_some, if_true]
  · rw [Function.update_of_ne hother, caseFiles]
    cases hopen : findOpenOccurrence db other.1 other.2 with
    | none => rfl
    | some row =>
      obtain ⟨m, hm⟩ := findNcr_of_occurrence h ((findOpenOccurrence_iff h).mp hopen).1
      -- another defect has another occurrence, so another nonconformance
      have hne : m.id ≠ n.id := by
        intro hid
        obtain ⟨hrow, hri, hrk, -⟩ := (findOpenOccurrence_iff h).mp hopen
        obtain ⟨hmem, hoi, hok, -⟩ := (findOpenOccurrence_iff h).mp ho
        obtain ⟨hmm, hmo⟩ := (findNcr_iff h).mp hm
        obtain ⟨hnm, hno⟩ := (findNcr_iff h).mp hn
        have hsame := eq_of_nodup_map h.ncr_ids hmm hnm hid
        have hrowid : row.id = o.id := by rw [← hmo, hsame, hno]
        have hrow' := eq_of_nodup_map h.occurrence_ids hrow hmem hrowid
        exact hother (Prod.ext (by rw [← hri, hrow', hoi]) (by rw [← hrk, hrow', hok]))
      rw [Option.bind_some, Option.bind_some, hfile, fileOf, hm]
      simp only [Option.map_some, if_neg hne]

/-! ## One sighting, all sightings -/

/-- One sighting extends the file of its own defect and no other. -/
theorem linkSighting_caseFiles {db db' : Database} (h : WellFormed db) {itemId : String}
    {context : AnalysisContext} {sighting : Sighting}
    (hok : linkSighting itemId context db sighting = .ok db') :
    caseFiles db' =
      fileAt (fun s => (itemId, s.key)) (extendFile context) (caseFiles db) sighting := by
  rw [fileAt]
  rcases linkSighting_cases h hok with ⟨o, n, ho, hn, hrec⟩ | ⟨hnone, hrec⟩
  · have hfiles := caseFiles_touchOccurrence h (itemId, sighting.key)
      ⟨sighting.observation.eventId⟩ ho
    have hfile : caseFiles db (itemId, sighting.key) = fileOf db o := by
      rw [caseFiles, ho, Option.bind_some]
    have hopen : findOpenOccurrence (touchOccurrence db o.id ⟨sighting.observation.eventId⟩) itemId
        sighting.key = some { o with currentObservationId := ⟨sighting.observation.eventId⟩ } := by
      obtain ⟨hmem, hi, hk, hs⟩ := (findOpenOccurrence_iff h).mp ho
      refine (findOpenOccurrence_iff (wellFormed_touchOccurrence h _ _)).mpr ⟨?_, hi, hk, hs⟩
      exact mem_modifyWhere.mpr ⟨o, hmem, by simp⟩
    rw [caseFiles_records (wellFormed_touchOccurrence h _ _) (itemId, sighting.key)
      hopen hn hrec, hfiles, Function.update_self, Function.update_idem, hfile]
    simp only [fileOf, hn, Option.map_some, extendFile, Option.getD_some]
  · have hwf := wellFormed_openCase h hnone
    have hfile : caseFiles db (itemId, sighting.key) = none := by
      rw [caseFiles, hnone, Option.bind_none]
    have hopen : findOpenOccurrence (openCase db itemId sighting) itemId sighting.key =
        some (newOccurrence db.nextId itemId sighting) :=
      (findOpenOccurrence_iff hwf).mpr
        ⟨List.mem_append_right _ (List.mem_singleton_self _), rfl, rfl, rfl⟩
    have hncr : findNcr (openCase db itemId sighting) db.nextId =
        some (newNcr (db.nextId + 1) db.nextId itemId sighting) :=
      (findNcr_iff hwf).mpr ⟨List.mem_append_right _ (List.mem_singleton_self _), rfl⟩
    rw [caseFiles_records hwf (itemId, sighting.key) hopen hncr hrec,
      caseFiles_openCase h hnone, Function.update_self, Function.update_idem, hfile]
    rfl

theorem linkSightings_wellFormed {db db' : Database} (h : WellFormed db) {itemId : String}
    {context : AnalysisContext} {found : List Sighting}
    (hok : linkSightings itemId context db found = .ok db') : WellFormed db' :=
  foldlM_invariant (fun _ _ _ _ hgood hstep => linkSighting_wellFormed hgood hstep) hok h

/-- The loop computes the fold of the files. -/
theorem linkSightings_caseFiles {db db' : Database} (h : WellFormed db) {itemId : String}
    {context : AnalysisContext} {found : List Sighting}
    (hok : linkSightings itemId context db found = .ok db') :
    caseFiles db' =
      found.foldl (fileAt (fun s => (itemId, s.key)) (extendFile context)) (caseFiles db) :=
  foldlM_simulates (P := WellFormed)
    (fun _ _ _ _ hgood hstep =>
      ⟨linkSighting_wellFormed hgood hstep, linkSighting_caseFiles hgood hstep⟩) hok h

/-! ## The file of one defect after the loop -/

/-- The sightings of one defect, in order. -/
def ofKey (key : DefectKey) (found : List Sighting) : List Sighting :=
  found.filter fun s => decide (s.key = key)

theorem mem_ofKey {key : DefectKey} {found : List Sighting} {s : Sighting} :
    s ∈ ofKey key found ↔ s ∈ found ∧ s.key = key := by
  simp [ofKey]

/-- The assessments of the sightings of one defect, in order. -/
def assessments (context : AnalysisContext) (key : DefectKey) (found : List Sighting) :
    List Assessment := (ofKey key found).filterMap (assessed context)

theorem caseFile_after {db db' : Database} (h : WellFormed db) {itemId : String}
    {context : AnalysisContext} {found : List Sighting}
    (hok : linkSightings itemId context db found = .ok db') (key : DefectKey) :
    caseFiles db' (itemId, key) =
      (ofKey key found).foldl (extendFile context) (caseFiles db (itemId, key)) := by
  rw [linkSightings_caseFiles h hok, foldl_fileAt, ofKey]
  simp only [Prod.mk.injEq, true_and]

theorem caseFile_after_other {db db' : Database} (h : WellFormed db) {itemId other : String}
    {context : AnalysisContext} {found : List Sighting}
    (hok : linkSightings itemId context db found = .ok db') (hother : other ≠ itemId)
    (key : DefectKey) : caseFiles db' (other, key) = caseFiles db (other, key) := by
  rw [linkSightings_caseFiles h hok, foldl_fileAt, List.filter_eq_nil_iff.mpr]
  · rfl
  · intro s _
    simp [hother.symm]

/-- A case keeps its opening, points at the last sighting, and logs every assessment. -/
theorem foldl_extendFile (context : AnalysisContext) (file : Option CaseFile) (s : Sighting)
    (rest : List Sighting) :
    (s :: rest).foldl (extendFile context) file = some
      { opening := (file.map (·.opening)).getD (openingOf s)
        currentObservationId := ⟨((s :: rest).getLast (List.cons_ne_nil _ _)).observation.eventId⟩
        log := pushAll ((file.map (·.log)).getD [])
          ((s :: rest).filterMap (assessed context)) } := by
  induction rest generalizing file s with
  | nil => simp [extendFile, pushSome, List.filterMap_cons]; cases assessed context s <;> rfl
  | cons next rest ih =>
    rw [List.foldl_cons, ih, extendFile, List.getLast_cons (List.cons_ne_nil _ _),
      List.filterMap_cons (a := s)]
    cases assessed context s <;> rfl

/-- The log of a defect after the loop: its assessments recorded on top of the old log. -/
theorem log_after {db db' : Database} (h : WellFormed db) {itemId : String}
    {context : AnalysisContext} {found : List Sighting}
    (hok : linkSightings itemId context db found = .ok db') (key : DefectKey) :
    ((caseFiles db' (itemId, key)).map (·.log)).getD [] =
      pushAll (((caseFiles db (itemId, key)).map (·.log)).getD []) (assessments context key found) := by
  rw [caseFile_after h hok, assessments]
  cases ofKey key found with
  | nil => rfl
  | cons s rest => rw [foldl_extendFile]; rfl

/-- An open case keeps its opening; a new one opens with the first sighting of its defect. -/
theorem opening_after {db db' : Database} (h : WellFormed db) {itemId : String}
    {context : AnalysisContext} {found : List Sighting}
    (hok : linkSightings itemId context db found = .ok db') (key : DefectKey) :
    (caseFiles db' (itemId, key)).map (·.opening) =
      ((caseFiles db (itemId, key)).map (·.opening)).or
        ((ofKey key found).head?.map openingOf) := by
  rw [caseFile_after h hok]
  cases ofKey key found with
  | nil => simp
  | cons s rest =>
    rw [foldl_extendFile]
    cases caseFiles db (itemId, key) <;> rfl

/-! ## Sightings that raise nothing -/

theorem linkSightings_assess_ok {db db' : Database} {itemId : String} {context : AnalysisContext}
    {found : List Sighting} (hok : linkSightings itemId context db found = .ok db') :
    ∀ s ∈ found, ∃ a, assess context s = .ok a := by
  intro s hs
  obtain ⟨m, n, -, hstep⟩ := foldlM_body_ok (P := fun _ => True) (fun _ _ _ _ _ _ => trivial)
    hok trivial s hs
  exact linkSighting_ok_iff.mp ⟨n, hstep⟩

theorem linkSightings_total {itemId : String} {context : AnalysisContext} {found : List Sighting}
    (db : Database) (h : ∀ s ∈ found, ∃ a, assess context s = .ok a) :
    ∃ db', linkSightings itemId context db found = .ok db' := by
  obtain ⟨db', hok, -⟩ := foldlM_total (f := linkSighting itemId context)
    (P := fun _ => True) (s := db) (fun s hs m _ => by
      obtain ⟨n, hn⟩ := linkSighting_ok_iff.mpr (h s hs)
      exact ⟨n, hn, trivial⟩) trivial
  exact ⟨db', hok⟩

/-! ## What linking leaves alone -/

/-- The database without its case tables and generated keys. -/
def outsideCases (db : Database) : Database :=
  { db with
    defectOccurrences := []
    nonconformances := []
    analysisVersions := []
    analysisEvidence := []
    nextId := 0 }

theorem Records.outsideCases {db db' : Database} {n : Nonconformance} {a : Option Assessment}
    (hrec : Records db n a db') :
    Projections.outsideCases db' = Projections.outsideCases db := by
  rcases hrec with ⟨-, rfl⟩ | ⟨result, reason, evidence, -, -, -, rfl⟩ <;> rfl

theorem linkSightings_outsideCases {db db' : Database} (h : WellFormed db) {itemId : String}
    {context : AnalysisContext} {found : List Sighting}
    (hok : linkSightings itemId context db found = .ok db') :
    outsideCases db' = outsideCases db := by
  refine (foldlM_invariant (P := fun m => WellFormed m ∧ outsideCases m = outsideCases db) ?_ hok
    ⟨h, rfl⟩).2
  rintro s - m n ⟨hgood, hsame⟩ hstep
  refine ⟨linkSighting_wellFormed hgood hstep, ?_⟩
  rcases linkSighting_cases hgood hstep with ⟨o, ncr, -, -, hrec⟩ | ⟨-, hrec⟩
  · exact hrec.outsideCases.trans hsame
  · exact hrec.outsideCases.trans hsame

/-- An occurrence apart from its newest observation. -/
def fixedOccurrence (o : DefectOccurrence) : DefectOccurrence :=
  { o with currentObservationId := ⟨""⟩ }

/-- A nonconformance apart from its current version. -/
def fixedNcr (n : Nonconformance) : Nonconformance :=
  { n with currentAnalysisVersion := 0 }

/-- The loop appends open occurrences with their undecided nonconformances and changes nothing else
of the rows that were there. -/
structure Grows (db db' : Database) : Prop where
  occurrences : ∃ fresh, db'.defectOccurrences.map fixedOccurrence =
      db.defectOccurrences.map fixedOccurrence ++ fresh ∧
    ∀ o ∈ fresh, o.status = .opened ∧ o.closedAt = none ∧ db.nextId ≤ o.id
  nonconformances : ∃ fresh, db'.nonconformances.map fixedNcr =
      db.nonconformances.map fixedNcr ++ fresh ∧
    ∀ n ∈ fresh, db.nextId ≤ n.id ∧ db.nextId ≤ n.occurrenceId ∧
      n.disposition = .inProcess ∧ n.closedAt = none ∧ n.resolutionType = none
  nextId : db.nextId ≤ db'.nextId

theorem Grows.refl (db : Database) : Grows db db :=
  ⟨⟨[], by simp⟩, ⟨[], by simp⟩, le_rfl⟩

theorem Grows.trans {a b c : Database} (hab : Grows a b) (hbc : Grows b c) : Grows a c := by
  obtain ⟨⟨occ₁, hocc₁, hnew₁⟩, ⟨ncr₁, hncr₁, hfresh₁⟩, hid₁⟩ := hab
  obtain ⟨⟨occ₂, hocc₂, hnew₂⟩, ⟨ncr₂, hncr₂, hfresh₂⟩, hid₂⟩ := hbc
  refine ⟨⟨occ₁ ++ occ₂, by rw [hocc₂, hocc₁, List.append_assoc], ?_⟩,
    ⟨ncr₁ ++ ncr₂, by rw [hncr₂, hncr₁, List.append_assoc], ?_⟩, hid₁.trans hid₂⟩
  · intro o ho
    rcases List.mem_append.mp ho with ho | ho
    · exact hnew₁ o ho
    · obtain ⟨hs, hc, hlt⟩ := hnew₂ o ho
      exact ⟨hs, hc, hid₁.trans hlt⟩
  · intro n hn
    rcases List.mem_append.mp hn with hn | hn
    · exact hfresh₁ n hn
    · obtain ⟨hlt, hlt', hrest⟩ := hfresh₂ n hn
      exact ⟨hid₁.trans hlt, hid₁.trans hlt', hrest⟩

/-- Every occurrence remains, apart from its newest observation. -/
theorem Grows.keepsOccurrence {db db' : Database} (h : Grows db db') {o : DefectOccurrence}
    (ho : o ∈ db.defectOccurrences) :
    ∃ o' ∈ db'.defectOccurrences, fixedOccurrence o' = fixedOccurrence o := by
  obtain ⟨fresh, hrows, -⟩ := h.occurrences
  have hmem : fixedOccurrence o ∈ db'.defectOccurrences.map fixedOccurrence := by
    rw [hrows]
    exact List.mem_append_left _ (List.mem_map_of_mem ho)
  exact List.mem_map.mp hmem

/-- Every nonconformance remains, apart from its current version. -/
theorem Grows.keepsNcr {db db' : Database} (h : Grows db db') {n : Nonconformance}
    (hn : n ∈ db.nonconformances) : ∃ n' ∈ db'.nonconformances, fixedNcr n' = fixedNcr n := by
  obtain ⟨fresh, hrows, -⟩ := h.nonconformances
  have hmem : fixedNcr n ∈ db'.nonconformances.map fixedNcr := by
    rw [hrows]
    exact List.mem_append_left _ (List.mem_map_of_mem hn)
  exact List.mem_map.mp hmem

theorem grows_touchOccurrence (db : Database) (occurrenceId : Uuid)
    (observationId : ObservationId) :
    Grows db (touchOccurrence db occurrenceId observationId) := by
  refine ⟨⟨[], ?_, by simp⟩, ⟨[], by simp [touchOccurrence]⟩, le_rfl⟩
  rw [List.append_nil]
  refine map_modifyWhere ?_ db.defectOccurrences
  exact fun _ => rfl

theorem grows_openCase (itemId : String) (db : Database) (sighting : Sighting) :
    Grows db (openCase db itemId sighting) := by
  refine ⟨⟨[fixedOccurrence (newOccurrence db.nextId itemId sighting)], by simp [openCase], ?_⟩,
    ⟨[fixedNcr (newNcr (db.nextId + 1) db.nextId itemId sighting)], by simp [openCase], ?_⟩,
    by simp [openCase]⟩
  · intro o ho
    rw [List.mem_singleton.mp ho]
    exact ⟨rfl, rfl, le_rfl⟩
  · intro n hn
    rw [List.mem_singleton.mp hn]
    exact ⟨Nat.le_succ _, le_rfl, rfl, rfl, rfl⟩

theorem Records.grows {db db' : Database} {n : Nonconformance} {a : Option Assessment}
    (hrec : Records db n a db') : Grows db db' := by
  rcases hrec with ⟨-, rfl⟩ | ⟨result, reason, evidence, -, -, -, rfl⟩
  · exact Grows.refl _
  · refine ⟨⟨[], by simp [appendVersion]⟩, ⟨[], ?_, by simp⟩, Nat.le_succ _⟩
    rw [List.append_nil]
    refine map_modifyWhere ?_ db.nonconformances
    exact fun _ => rfl

theorem linkSighting_grows {db db' : Database} (h : WellFormed db) {itemId : String}
    {context : AnalysisContext} {sighting : Sighting}
    (hok : linkSighting itemId context db sighting = .ok db') : Grows db db' := by
  rcases linkSighting_cases h hok with ⟨o, n, -, -, hrec⟩ | ⟨-, hrec⟩
  · exact (grows_touchOccurrence db _ _).trans hrec.grows
  · exact (grows_openCase itemId db sighting).trans hrec.grows

theorem linkSightings_grows {db db' : Database} (h : WellFormed db) {itemId : String}
    {context : AnalysisContext} {found : List Sighting}
    (hok : linkSightings itemId context db found = .ok db') : Grows db db' := by
  refine (foldlM_invariant (P := fun m => WellFormed m ∧ Grows db m) ?_ hok
    ⟨h, Grows.refl db⟩).2
  rintro s - m n ⟨hgood, hgrows⟩ hstep
  exact ⟨linkSighting_wellFormed hgood hstep, hgrows.trans (linkSighting_grows hgood hstep)⟩

end TraceQ.Projections
