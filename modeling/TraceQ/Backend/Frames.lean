import TraceQ.Backend.Invariants

/-! # What one call leaves alone

The endpoints of the nonconformances and the integrity check write neither source records nor projected
rows nor analyses. So what is only about these tables has to be shown of an ingestion, a rebuild, a device
invalidation and a new configuration alone.
-/
namespace TraceQ.Backend
open Projections Ingestion Api Quality Tables Results
set_option autoImplicit false
set_option maxHeartbeats 250000

/-- An occurrence apart from its closing. -/
def whileOpen (o : DefectOccurrence) : DefectOccurrence := { o with status := .opened, closedAt := none }

/-- An item apart from the disposition a decision gives it. -/
def undecided (item : Item) : Item := { item with status := .inProcess }

/-- The tables no endpoint of a nonconformance writes, and the occurrences, which it closes at most; no
item and no nonconformance is added or removed. -/
structure SameEvidence (db db' : Database) : Prop extends SameRows db db' where
  insertOrder : db'.insertOrder = db.insertOrder
  rawEvents : db'.rawEvents = db.rawEvents
  invalidations : db'.controlDeviceInvalidations = db.controlDeviceInvalidations
  config : db'.config = db.config
  states : db'.projectionStates = db.projectionStates
  versions : db'.analysisVersions = db.analysisVersions
  evidence : db'.analysisEvidence = db.analysisEvidence
  occurrences : db'.defectOccurrences.map whileOpen = db.defectOccurrences.map whileOpen
  ncrIds : db'.nonconformances.map (·.id) = db.nonconformances.map (·.id)
  items : db'.items.map undecided = db.items.map undecided

theorem SameEvidence.refl (db : Database) : SameEvidence db db :=
  ⟨⟨rfl, rfl, rfl, rfl, rfl⟩, rfl, rfl, rfl, rfl, rfl, rfl, rfl, rfl, rfl, rfl⟩

theorem SameEvidence.trans {a b c : Database} (hab : SameEvidence a b) (hbc : SameEvidence b c) :
    SameEvidence a c :=
  ⟨hab.toSameRows.trans hbc.toSameRows, hbc.insertOrder.trans hab.insertOrder, hbc.rawEvents.trans hab.rawEvents,
    hbc.invalidations.trans hab.invalidations, hbc.config.trans hab.config, hbc.states.trans hab.states,
    hbc.versions.trans hab.versions, hbc.evidence.trans hab.evidence, hbc.occurrences.trans hab.occurrences,
    hbc.ncrIds.trans hab.ncrIds, hbc.items.trans hab.items⟩

/-! ## The writes of the endpoints -/

theorem saveNcr_ids (db : Database) (ncr : Nonconformance) :
    (saveNcr db ncr).nonconformances.map (·.id) = db.nonconformances.map (·.id) := by
  simp only [saveNcr, modifyWhere, List.map_map]
  refine List.map_congr_left fun row _ => ?_
  by_cases hid : row.id = ncr.id <;> simp [hid]

theorem sameEvidence_saveNcr (db : Database) (ncr : Nonconformance) : SameEvidence db (saveNcr db ncr) :=
  ⟨⟨rfl, rfl, rfl, rfl, rfl⟩, rfl, rfl, rfl, rfl, rfl, rfl, rfl, rfl, saveNcr_ids db ncr, rfl⟩

theorem sameEvidence_addDecision (db : Database) (decision : ControllerDecision) :
    SameEvidence db (addDecision db decision) :=
  ⟨⟨rfl, rfl, rfl, rfl, rfl⟩, rfl, rfl, rfl, rfl, rfl, rfl, rfl, rfl, rfl, rfl⟩

theorem sameEvidence_setItemStatus (db : Database) (itemId : String) (disposition : Disposition) :
    SameEvidence db (setItemStatus db itemId disposition) := by
  refine ⟨⟨rfl, rfl, rfl, rfl, rfl⟩, rfl, rfl, rfl, rfl, rfl, rfl, rfl, rfl, rfl, ?_⟩
  refine map_modifyWhere ?_ db.items
  exact fun _ => rfl

theorem sameEvidence_release (db : Database) (ncr : Nonconformance) (decision : ControllerDecision)
    (now : Instant) : SameEvidence db (release db ncr decision now) := by
  refine ⟨⟨rfl, rfl, rfl, rfl, rfl⟩, rfl, rfl, rfl, rfl, rfl, rfl, rfl, ?_, saveNcr_ids _ _,
    (sameEvidence_setItemStatus db ncr.itemId decision.disposition).items⟩
  refine map_modifyWhere ?_ db.defectOccurrences
  exact fun _ => rfl

/-! ## One call -/

/-- The committed database of a call, by what the call may write. -/
inductive CallFrame (db : Database) (call : Call) (db' : Database) : Prop where
  | ingested (event : EventEnvelope) (receivedAt : Instant) (result : IngestionResult)
      (isIngest : call = .ingest event receivedAt)
      (h : ingestEvent db event receivedAt = .ok (db', result))
  | rebuilt (itemId : String) (isRebuild : call = .rebuild itemId) (h : rebuildItem db itemId = .ok db')
  | failed (itemId : String) (error : ReplayError) (isRebuild : call = .rebuild itemId)
      (h : rebuildItem db itemId = .error error) (marked : db' = markProjectionFailed db itemId error)
  | invalidated (body : InvalidationInput) (userId : Uuid)
      (isInvalidation : call = .invalidateDevice body userId)
      (h : db' = (invalidateDevice db body userId).1)
  | configured (config : Configuration) (isConfigure : call = .configure config)
      (h : db' = { db with config := config })
  | other (h : SameEvidence db db')

theorem exec_frame {db : Database} (hs : Sound db) (call : Call) :
    CallFrame db call (exec db call).1 := by
  cases call with
  | ingest event receivedAt =>
    simp only [exec]
    cases h : ingestEvent db event receivedAt with
    | error e => exact .other (.refl db)
    | ok result => exact .ingested event receivedAt result.2 rfl h
  | rebuild itemId =>
    simp only [exec, rebuildOrMark]
    cases h : rebuildItem db itemId with
    | error e => exact .failed itemId e rfl h rfl
    | ok rebuilt => exact .rebuilt itemId rfl h
  | invalidateDevice body userId => exact .invalidated body userId rfl rfl
  | review ncrId body =>
    simp only [exec, withUnit]
    cases h : reviewNonconformance db ncrId body with
    | error e => exact .other (.refl db)
    | ok committed =>
      obtain ⟨ncr, -, -, rfl⟩ := reviewNonconformance_ok h
      exact .other (sameEvidence_saveNcr db _)
  | decide ncrId body userId now =>
    simp only [exec]
    cases h : decideNonconformance db ncrId body userId now with
    | error e => exact .other (.refl db)
    | ok result =>
      obtain ⟨committed, answer⟩ := result
      obtain ⟨ncr, -, -, -, ⟨-, rfl⟩ | ⟨-, -, rfl⟩⟩ := decideNonconformance_ok hs.results_fresh h
      · exact .other (((sameEvidence_addDecision db _).trans (sameEvidence_setItemStatus _ _ _)).trans
          (sameEvidence_saveNcr _ _))
      · exact .other (((sameEvidence_addDecision db _).trans (sameEvidence_setItemStatus _ _ _)).trans
          (sameEvidence_release _ _ _ _))
  | verifyRework ncrId body userId now =>
    simp only [exec]
    cases h : verifyRework db ncrId body userId now with
    | error e => exact .other (.refl db)
    | ok result =>
      obtain ⟨committed, answer⟩ := result
      obtain ⟨ncr, _, -, -, ⟨-, -, -, rfl⟩ | ⟨-, -, rfl⟩⟩ := verifyRework_ok hs.results_fresh h
      · exact .other ((sameEvidence_addDecision db _).trans (sameEvidence_release _ _ _ _))
      · exact .other ((sameEvidence_addDecision db _).trans (sameEvidence_saveNcr _ _))
  | requestInspection ncrId body userId now =>
    simp only [exec]
    cases h : requestInspection db ncrId body userId now with
    | error e => exact .other (.refl db)
    | ok result =>
      obtain ⟨committed, answer⟩ := result
      obtain ⟨ncr, -, -, rfl⟩ := requestInspection_ok h
      exact .other ((sameEvidence_addDecision db _).trans (sameEvidence_saveNcr _ _))
  | proposeContainment ncrId body userId =>
    simp only [exec]
    cases h : proposeContainment db ncrId body userId with
    | error e => exact .other (.refl db)
    | ok result =>
      obtain ⟨committed, answer⟩ := result
      obtain ⟨proposals, rfl⟩ := proposeContainment_ok h
      exact .other ⟨⟨rfl, rfl, rfl, rfl, rfl⟩, rfl, rfl, rfl, rfl, rfl, rfl, rfl, rfl, rfl, rfl⟩
  | reviewContainment proposalId body userId now =>
    simp only [exec, withUnit]
    cases h : reviewContainment db proposalId body userId now with
    | error e => exact .other (.refl db)
    | ok committed =>
      obtain ⟨proposals, rfl | ⟨ncr, -, containment, rfl⟩⟩ := reviewContainment_ok h
      · exact .other ⟨⟨rfl, rfl, rfl, rfl, rfl⟩, rfl, rfl, rfl, rfl, rfl, rfl, rfl, rfl, rfl, rfl⟩
      · exact .other ⟨⟨rfl, rfl, rfl, rfl, rfl⟩, rfl, rfl, rfl, rfl, rfl, rfl, rfl, rfl, saveNcr_ids _ _, rfl⟩
  | configure config => exact .configured config rfl rfl
  | verifyIntegrity failed => exact .other ⟨⟨rfl, rfl, rfl, rfl, rfl⟩, rfl, rfl, rfl, rfl, rfl, rfl, rfl, rfl, rfl, rfl⟩

end TraceQ.Backend
