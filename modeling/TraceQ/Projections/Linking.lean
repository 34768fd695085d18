import TraceQ.Projections.Store

/-! # Linking sightings to occurrences, nonconformances and analyses

The loop of `rebuild_item` over the defects of the projected observations, one sighting at a time.
-/
namespace TraceQ.Projections
open Quality Tables
set_option autoImplicit false
set_option maxHeartbeats 250000

/-! ## Occurrence and nonconformance of a sighting -/

/-- The lookup of the loop; a `NULL` component matches only an absent one. -/
def findOpenOccurrence (db : Database) (itemId : String) (key : DefectKey) :
    Option DefectOccurrence :=
  db.defectOccurrences.find? fun occurrence =>
    decide (occurrence.itemId = itemId ∧ occurrence.key = key ∧ occurrence.status = .opened)

def newOccurrence (id : Uuid) (itemId : String) (sighting : Sighting) : DefectOccurrence where
  id := id
  itemId := itemId
  defectType := sighting.defect.defectType
  componentInstanceId := sighting.component
  firstObservationId := ⟨sighting.observation.eventId⟩
  currentObservationId := ⟨sighting.observation.eventId⟩
  openedAt := sighting.occurredAt

/-- The occurrence the sighting belongs to, created when none of its key is open. -/
def linkOccurrence (db : Database) (itemId : String) (sighting : Sighting) : Database × Uuid :=
  match findOpenOccurrence db itemId sighting.key with
  | none =>
      ({ db with
          defectOccurrences := db.defectOccurrences ++ [newOccurrence db.nextId itemId sighting]
          nextId := db.nextId + 1 }, db.nextId)
  | some occurrence =>
      ({ db with
          defectOccurrences := modifyWhere (fun row => decide (row.id = occurrence.id))
            (fun row => { row with currentObservationId := ⟨sighting.observation.eventId⟩ })
            db.defectOccurrences }, occurrence.id)

def findNcr (db : Database) (occurrenceId : Uuid) : Option Nonconformance :=
  db.nonconformances.find? fun ncr => decide (ncr.occurrenceId = occurrenceId)

/-- The verdict an NCR opens with. -/
def openingVerdict (trust : TrustStatus) : Verdict :=
  if trust = .trusted then .pendingReview else .needsExtraCheck

def newNcr (id occurrenceId : Uuid) (itemId : String) (sighting : Sighting) : Nonconformance where
  id := id
  occurrenceId := occurrenceId
  itemId := itemId
  defectType := sighting.defect.defectType
  componentInstanceId := sighting.component
  verdict := openingVerdict sighting.observation.trustStatus
  openedAt := sighting.occurredAt

def linkNcr (db : Database) (occurrenceId : Uuid) (itemId : String) (sighting : Sighting) :
    Database × Nonconformance :=
  match findNcr db occurrenceId with
  | some ncr => (db, ncr)
  | none =>
      let ncr := newNcr db.nextId occurrenceId itemId sighting
      ({ db with
          nonconformances := db.nonconformances ++ [ncr]
          nextId := db.nextId + 1 }, ncr)

/-! ## Analysis versions -/

def versionsOf (db : Database) (ncrId : Uuid) : List AnalysisVersion :=
  db.analysisVersions.filter fun version => decide (version.nonconformanceId = ncrId)

/-- `ORDER BY version DESC LIMIT 1`. -/
def latestAnalysis (db : Database) (ncrId : Uuid) : Option AnalysisVersion :=
  latestBy (·.version) (versionsOf db ncrId)

/-- The columns of a version that `_analysis_changed` compares. -/
def assessmentOf (version : AnalysisVersion) : Assessment :=
  ⟨version.status, version.leftBoundaryAt, version.rightBoundaryAt⟩

def analysisChanged (latest : Option AnalysisVersion) (result : Assessment) : Bool :=
  latest.all fun version => decide (assessmentOf version ≠ result)

def newVersion (db : Database) (ncr : Nonconformance) (result : Assessment) (reason : AnalysisReason) :
    AnalysisVersion where
  id := db.nextId
  nonconformanceId := ncr.id
  itemId := ncr.itemId
  version := ((latestAnalysis db ncr.id).map (·.version + 1)).getD 1
  status := result.status
  defectType := ncr.defectType
  componentInstanceId := ncr.componentInstanceId
  leftBoundaryAt := result.leftBoundaryAt
  rightBoundaryAt := result.rightBoundaryAt
  reason := reason

def evidenceRow (versionId : Uuid) (value : EvidenceValue) : AnalysisEvidence :=
  ⟨versionId, value.evidenceType, value.evidenceRole, value.sourceEventId, value.occurredAt,
    value.details⟩

/-- Insert the next version with its evidence and point the NCR at it. -/
def appendVersion (db : Database) (ncr : Nonconformance) (result : Assessment)
    (reason : AnalysisReason) (evidence : List EvidenceValue) : Database :=
  let version := newVersion db ncr result reason
  { db with
    analysisVersions := db.analysisVersions ++ [version]
    analysisEvidence := db.analysisEvidence ++ evidence.map (evidenceRow version.id)
    nonconformances := modifyWhere (fun row => decide (row.id = ncr.id))
      (fun row => { row with currentAnalysisVersion := version.version }) db.nonconformances
    nextId := db.nextId + 1 }

/-- `_create_analysis`. -/
def createAnalysis (db : Database) (ncr : Nonconformance) (sighting : Sighting)
    (context : AnalysisContext) : Except ReplayError Database := do
  let result ← calculateBirthWindow sighting context
  let latest := latestAnalysis db ncr.id
  return if analysisChanged latest result.assessment then
    appendVersion db ncr result.assessment
      (if latest.isSome then .lateEventRebuild else .initialDetection) result.evidence
  else db

/-- The columns of an `EVIDENCE_INVALIDATED` version. -/
def invalidatedAssessment : Assessment := ⟨.evidenceInvalidated, none, none⟩

def invalidationEvidence (obs : ObservationValue) : EvidenceValue :=
  ⟨.deviceValidity, .limitation, some obs.eventId, some obs.occurredAt,
    .deviceValidity obs.payload.controlDeviceId obs.trustReasons⟩

/-- `_create_invalidated_analysis`. -/
def createInvalidatedAnalysis (db : Database) (ncr : Nonconformance) (obs : ObservationValue) :
    Database :=
  if (latestAnalysis db ncr.id).any fun version => decide (version.status = .evidenceInvalidated) then db
  else appendVersion db ncr invalidatedAssessment .controlDeviceInvalidation [invalidationEvidence obs]

/-! ## One sighting -/

/-- The two analysis branches of the loop; any other trust status leaves the analysis alone. -/
def assessSighting (db : Database) (ncr : Nonconformance) (sighting : Sighting)
    (context : AnalysisContext) : Except ReplayError Database :=
  match sighting.observation.trustStatus with
  | .trusted => createAnalysis db ncr sighting context
  | .invalidated =>
      .ok (if ncr.currentAnalysisVersion ≠ 0
        then createInvalidatedAnalysis db ncr sighting.observation else db)
  | _ => .ok db

def linkSighting (itemId : String) (context : AnalysisContext) (db : Database) (sighting : Sighting) :
    Except ReplayError Database :=
  let linked := linkOccurrence db itemId sighting
  let found := linkNcr linked.1 linked.2 itemId sighting
  assessSighting found.1 found.2 sighting context

/-- The whole loop. -/
def linkSightings (itemId : String) (context : AnalysisContext) (db : Database)
    (found : List Sighting) : Except ReplayError Database :=
  found.foldlM (linkSighting itemId context) db

end TraceQ.Projections
