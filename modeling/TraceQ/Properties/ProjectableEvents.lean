import TraceQ.Backend.Projectable
import TraceQ.Projections.Conflicts
import TraceQ.Projections.RunMeaning
import TraceQ.Properties.Lifecycle
import TraceQ.Quality.WindowMeaning

/-! # Projecting accepted events

Validation lets events through that a rebuild cannot project: an inspection that lists a defect, whose row is
inserted before that of its observation; a reference of a rework that is no UUID; a text or a JSON value that
PostgreSQL does not store; a route it cannot look up; and, were the observations inserted first, an inspection
scope that a later defect cannot be searched in. A rebuild fails for an item with such an event, and only then.
-/
namespace TraceQ.Properties
open Projections Ingestion Api Quality Tables Results Backend
set_option autoImplicit false
set_option maxHeartbeats 250000

/-! ## References of runs -/

/-- The payload of an event that starts the run. -/
def startOf (runId : String) (raw : RawEvent) : Option OperationStartedPayload :=
  match raw.payload with
  | .operationStarted payload => if raw.operationRunId = some runId then some payload else none
  | _ => none

/-- The last start of the run in business order. -/
def lastStart (raws : List RawEvent) (runId : String) : Option OperationStartedPayload :=
  (raws.filterMap (startOf runId)).getLast?

/-- The last start of every run refers to no nonconformance, or by a UUID. -/
def ReferencesReadable (db : Database) (itemId : String) : Prop :=
  ∀ runId payload, lastStart (history db itemId) runId = some payload →
    ∃ reference, reworkReference payload.reworkForNonconformanceId = .ok reference

theorem lastStart_eq (raws : List RawEvent) (runId : String) :
    lastStart raws runId = (lastStartEvent raws runId).map (·.2) := by
  have hstart : startOf runId = fun raw => (startedBy runId raw).map (·.2) := by
    funext raw
    unfold startOf startedBy
    cases raw.payload <;> simp
  rw [lastStart, lastStartEvent, ← List.getLast?_map, List.map_filterMap, hstart]

theorem referencesParse_iff {db : Database} {itemId : String} :
    ReferencesParse (replay db itemId).operations ↔ ReferencesReadable db itemId := by
  have hruns := runsRead_replay db itemId
  constructor
  · intro h runId payload hlast
    rw [lastStart_eq] at hlast
    obtain ⟨started, hstarted, rfl⟩ := Option.map_eq_some_iff.mp hlast
    obtain ⟨run, hrun, rfl⟩ := (hruns.named runId).mpr (.inl (by rw [hstarted]; rfl))
    obtain ⟨reference, hreference⟩ := h run hrun
    rw [(hruns.read run hrun).reworkForNonconformanceId, hstarted] at hreference
    exact ⟨reference, hreference⟩
  · intro h run hrun
    rw [(hruns.read run hrun).reworkForNonconformanceId]
    cases hlast : lastStartEvent (history db itemId) run.operationRunId with
    | none => exact ⟨none, rfl⟩
    | some started => exact h run.operationRunId started.2 (by rw [lastStart_eq, hlast]; rfl)

/-! ## What can be stored -/

/-- The payload of the last event that finishes the run, in business order. -/
def lastFinish (raws : List RawEvent) (runId : String) : Option OperationFinishedPayload :=
  (lastFinishEvent raws runId).map (·.2)

/-- What the row of the run takes from its last start and its last finish can be stored. -/
def runStorable (start : Option OperationStartedPayload) (finish : Option OperationFinishedPayload) : Bool :=
  storableTexts ((start.map (·.operationId)).toList ++ (start.map (·.operatorId)).toList ++
    (start.map (·.equipmentId)).toList ++ (start.map (·.stationId)).toList ++
    ((finish.bind (·.duration)).map (·.meaning)).toList ++ (start.bind (·.previousOperationRunId)).toList) &&
  (paramsOr (start.bind (·.parameters)) (finish.bind (·.parameters))).all Json.storableFields

/-- The row of an event that has one of its own can be stored. -/
def rowStorable : Payload → Bool
  | .inspectionResult payload => inspectionStorable payload
  | .machineState payload => machineStorable payload
  | .operatorAction payload => actionStorable payload
  | _ => true

/-- What the events of the item leave in the rows can be stored. -/
structure EventsStorable (db : Database) (itemId : String) : Prop where
  registration : ∀ value, ((history db itemId).filterMap registrationOf).getLast? = some value →
    registrationStorable value.payload = true
  runs : ∀ runId, runStorable (lastStart (history db itemId) runId) (lastFinish (history db itemId) runId) = true
  rows : ∀ raw ∈ storedEvents db itemId, rowStorable raw.payload = true

theorem operationStorable_eq {raws : List RawEvent} {run : OperationValue} (h : ReadFrom raws run) :
    operationStorable run =
      runStorable (lastStart raws run.operationRunId) (lastFinish raws run.operationRunId) := by
  rw [operationStorable, runStorable, lastStart_eq, lastFinish, h.operationId, h.operatorId, h.equipmentId,
    h.stationId, h.duration, h.previousOperationRunId, h.parameters, h.finishParameters]
  simp only [Option.map_map, Option.bind_map]
  rfl

theorem operationsStorable_iff {db : Database} {itemId : String} :
    (∀ run ∈ (replay db itemId).operations, operationStorable run = true) ↔
      ∀ runId, runStorable (lastStart (history db itemId) runId) (lastFinish (history db itemId) runId) = true := by
  have hruns := runsRead_replay db itemId
  constructor
  · intro h runId
    by_cases hnamed : NamesRun (history db itemId) runId
    · obtain ⟨run, hrun, rfl⟩ := (hruns.named runId).mpr hnamed
      rw [← operationStorable_eq (hruns.read run hrun)]
      exact h run hrun
    · -- a run that no event names has no row
      rw [NamesRun, not_or, Option.not_isSome_iff_eq_none, Option.not_isSome_iff_eq_none] at hnamed
      rw [lastStart_eq, lastFinish, hnamed.1, hnamed.2]
      rfl
  · intro h run hrun
    rw [operationStorable_eq (hruns.read run hrun)]
    exact h run.operationRunId

theorem inspectionsStorable_iff {db : Database} {itemId : String} :
    (∀ value ∈ (replay db itemId).observations, inspectionStorable value.payload = true) ↔
      ∀ raw ∈ storedEvents db itemId, ∀ payload, raw.payload = .inspectionResult payload →
        inspectionStorable payload = true := by
  rw [replay_observations, ← judged]
  constructor
  · intro h raw hraw payload hpayload
    obtain ⟨obs, hobs, hsame⟩ := markConflicts_mem (mem_judged.mpr ⟨raw, hraw, payload, hpayload, rfl⟩)
    have hstorable := h obs hobs
    rw [hsame] at hstorable
    exact hstorable
  · intro h value hvalue
    obtain ⟨old, hold, hsame, -⟩ := mem_markConflicts hvalue
    obtain ⟨raw, hraw, payload, hpayload, rfl⟩ := mem_judged.mp hold
    rw [hsame]
    exact h raw hraw payload hpayload

theorem machinesStorable_iff {db : Database} {itemId : String} :
    (∀ value ∈ (replay db itemId).machineEvents, machineStorable value.payload = true) ↔
      ∀ raw ∈ storedEvents db itemId, ∀ payload, raw.payload = .machineState payload →
        machineStorable payload = true := by
  rw [replay_machineEvents]
  constructor
  · intro h raw hraw payload hpayload
    have hmachine : machineOf raw = some ⟨payload, raw.operationRunId, raw.eventId, raw.occurredAt⟩ := by
      simp only [machineOf, hpayload]
    exact h ⟨payload, raw.operationRunId, raw.eventId, raw.occurredAt⟩
      (List.mem_filterMap.mpr ⟨raw, mem_history.mpr hraw, hmachine⟩)
  · intro h value hvalue
    obtain ⟨raw, hraw, hmachine⟩ := List.mem_filterMap.mp hvalue
    unfold machineOf at hmachine
    split at hmachine
    · rename_i payload hpayload
      cases hmachine
      exact h raw (mem_history.mp hraw) payload hpayload
    · cases hmachine

theorem actionsStorable_iff {db : Database} {itemId : String} :
    (∀ value ∈ (replay db itemId).operatorActions, actionStorable value.payload = true) ↔
      ∀ raw ∈ storedEvents db itemId, ∀ payload, raw.payload = .operatorAction payload →
        actionStorable payload = true := by
  rw [replay_operatorActions]
  constructor
  · intro h raw hraw payload hpayload
    have haction : actionOf raw = some ⟨payload, raw.operationRunId, raw.eventId, raw.occurredAt⟩ := by
      simp only [actionOf, hpayload]
    exact h ⟨payload, raw.operationRunId, raw.eventId, raw.occurredAt⟩
      (List.mem_filterMap.mpr ⟨raw, mem_history.mpr hraw, haction⟩)
  · intro h value hvalue
    obtain ⟨raw, hraw, haction⟩ := List.mem_filterMap.mp hvalue
    unfold actionOf at haction
    split at haction
    · rename_i payload hpayload
      cases haction
      exact h raw (mem_history.mp hraw) payload hpayload
    · cases haction

theorem rowsStorable_iff {db : Database} {itemId : String} :
    ((∀ value ∈ (replay db itemId).observations, inspectionStorable value.payload = true) ∧
      (∀ value ∈ (replay db itemId).machineEvents, machineStorable value.payload = true) ∧
      ∀ value ∈ (replay db itemId).operatorActions, actionStorable value.payload = true) ↔
    ∀ raw ∈ storedEvents db itemId, rowStorable raw.payload = true := by
  rw [inspectionsStorable_iff, machinesStorable_iff, actionsStorable_iff]
  constructor
  · rintro ⟨hinspections, hmachines, hactions⟩ raw hraw
    cases hpayload : raw.payload with
    | inspectionResult payload => exact hinspections raw hraw payload hpayload
    | machineState payload => exact hmachines raw hraw payload hpayload
    | operatorAction payload => exact hactions raw hraw payload hpayload
    | _ => rfl
  · intro h
    have hrow : ∀ raw ∈ storedEvents db itemId, ∀ payload, raw.payload = payload → rowStorable payload = true := by
      rintro raw hraw _ rfl
      exact h raw hraw
    exact ⟨fun raw hraw payload hpayload => hrow raw hraw _ hpayload,
      fun raw hraw payload hpayload => hrow raw hraw _ hpayload,
      fun raw hraw payload hpayload => hrow raw hraw _ hpayload⟩

theorem valuesStorable_iff {db : Database} {itemId : String} :
    valuesStorable (replay db itemId) = true ↔ EventsStorable db itemId := by
  have hitem : (replay db itemId).item.all (fun item => registrationStorable item.payload) = true ↔
      ∀ value, ((history db itemId).filterMap registrationOf).getLast? = some value →
        registrationStorable value.payload = true := by
    rw [replay_item_eq, Option.all_eq_true]
  rw [valuesStorable, Bool.and_eq_true, Bool.and_eq_true, Bool.and_eq_true, Bool.and_eq_true, hitem,
    List.all_eq_true, List.all_eq_true, List.all_eq_true, List.all_eq_true, operationsStorable_iff, rowsStorable_iff]
  exact ⟨fun ⟨hregistration, hruns, hrows⟩ => ⟨hregistration, hruns, hrows⟩,
    fun h => ⟨h.registration, h.runs, h.rows⟩⟩

/-! ## Scopes of inspections -/

/-- A stored inspection of the item that the policy of its control point trusts, whose device is valid, and
that no equivalent inspection contradicts. -/
structure TrustedInspection (db : Database) (itemId : String) (raw : RawEvent)
    (payload : InspectionResultPayload) : Prop where
  stored : raw ∈ storedEvents db itemId
  inspects : raw.payload = .inspectionResult payload
  trusted : (evaluateTrust payload (trustPolicy db.config payload.controlPointId) true
    (deviceInvalidated db.controlDeviceInvalidations payload.controlDeviceId raw.occurredAt)).status = .trusted
  unopposed : ∀ other ∈ storedEvents db itemId, ∀ otherPayload, other.payload = .inspectionResult otherPayload →
    conflictKey (observationValue db other otherPayload) = conflictKey (observationValue db raw payload) →
    otherPayload.inspectionResult = payload.inspectionResult

/-- Every scope of a trusted GOOD can be searched for the defects of the trusted inspections after it. -/
def ScopesReadable (db : Database) (itemId : String) : Prop :=
  ∀ raw payload, TrustedInspection db itemId raw payload → ∀ defect ∈ payload.defects,
    ∀ good goodPayload, TrustedInspection db itemId good goodPayload →
      goodPayload.inspectionResult = .noDefect → good.occurredAt < raw.occurredAt →
      ∃ covers, scopeCovers goodPayload.inspectionScope defect.defectType
        (pyOr defect.componentInstanceId payload.componentInstanceId) = .ok covers

theorem trusted_iff {db : Database} {itemId : String} {obs : ObservationValue} :
    obs ∈ (replay db itemId).observations ∧ obs.trustStatus = .trusted ↔
      ∃ raw payload, TrustedInspection db itemId raw payload ∧ obs = observationValue db raw payload := by
  rw [replay_observations, ← judged, mem_markConflicts_trusted, mem_judged]
  constructor
  · rintro ⟨⟨raw, hraw, payload, hpayload, rfl⟩, htrust, hagreed⟩
    refine ⟨raw, payload, ⟨hraw, hpayload, htrust, ?_⟩, rfl⟩
    intro other hother otherPayload hinspects hkey
    by_contra hresult
    exact hagreed ⟨_, mem_judged.mpr ⟨other, hother, otherPayload, hinspects, rfl⟩, hkey, hresult⟩
  · rintro ⟨raw, payload, h, rfl⟩
    refine ⟨⟨raw, h.stored, payload, h.inspects, rfl⟩, h.trusted, ?_⟩
    rintro ⟨_, hother, hkey, hresult⟩
    obtain ⟨otherRaw, hotherRaw, otherPayload, hinspects, rfl⟩ := mem_judged.mp hother
    exact hresult (h.unopposed otherRaw hotherRaw otherPayload hinspects hkey)

theorem scopesSearchable_iff {db : Database} {itemId : String} :
    ScopesSearchable (replay db itemId).observations ↔ ScopesReadable db itemId := by
  constructor
  · intro h raw payload htrusted defect hdefect good goodPayload hgood hresult hbefore
    obtain ⟨hobs, htrust⟩ := trusted_iff.mpr ⟨raw, payload, htrusted, rfl⟩
    obtain ⟨hgoodObs, hgoodTrust⟩ := trusted_iff.mpr ⟨good, goodPayload, hgood, rfl⟩
    have hsighting : (⟨observationValue db raw payload, defect⟩ : Sighting) ∈
        sightings (replay db itemId).observations :=
      mem_sightings.mpr ⟨hobs, payload.validate_defects.mpr (List.ne_nil_of_mem hdefect), hdefect⟩
    exact candidates_succeeds_iff.mp (h _ hsighting htrust) _ hgoodObs ⟨hbefore, hgoodTrust, hresult⟩
  · intro h s hs htrust
    obtain ⟨hobs, -, hdefect⟩ := mem_sightings.mp hs
    obtain ⟨raw, payload, htrusted, heq⟩ := trusted_iff.mp ⟨hobs, htrust⟩
    refine candidates_succeeds_iff.mpr fun obs hobsMem ⟨hbefore, hgoodTrust, hresult⟩ => ?_
    obtain ⟨good, goodPayload, hgood, rfl⟩ := trusted_iff.mp ⟨hobsMem, hgoodTrust⟩
    have hlisted : s.defect ∈ payload.defects := by
      rw [heq] at hdefect
      exact hdefect
    have htime : s.occurredAt = raw.occurredAt := by rw [Sighting.occurredAt, heq]; rfl
    have hcomponent : s.key = ⟨s.defect.defectType,
        pyOr s.defect.componentInstanceId payload.componentInstanceId⟩ := by
      rw [Sighting.key, Sighting.component, heq]
      rfl
    rw [hcomponent]
    exact h raw payload htrusted s.defect hlisted good goodPayload hgood hresult (htime ▸ hbefore)

/-! ## Every reachable state -/

/-- No event of another item has the run of an event of the item. -/
def OwnRuns (db : Database) (itemId : String) : Prop :=
  ∀ raw ∈ storedEvents db itemId, ∀ otherItem ≠ itemId, ∀ other ∈ storedEvents db otherItem,
    ∀ runId, raw.operationRunId = some runId → other.operationRunId ≠ some runId

theorem runsUnused_of_own {db : Database} (h : Reachable db) {itemId : String} (hown : OwnRuns db itemId) :
    RunsUnused db itemId (replay db itemId).operations := by
  intro row hrow howner run hrun hkey
  obtain ⟨other, hother, hotherRun, -⟩ := (reachable_rows h).operationRuns row hrow
  obtain ⟨raw, hraw, hrawRun, -⟩ := (fromEvents_replay db itemId).operations run hrun
  exact hown raw hraw row.itemId howner other hother run.operationRunId hrawRun (hkey ▸ hotherRun)

/-- What the events of an item leave for its rebuild to read and to store. -/
structure EventsProjectable (db : Database) (itemId : String) : Prop where
  route : lookupAnswers db itemId ((history db itemId).filterMap registrationOf).getLast? = true
  references : ReferencesReadable db itemId
  defects : DefectsInsertable db itemId
  storable : EventsStorable db itemId
  scopes : ScopesReadable db itemId

theorem rebuildAsking_iff {db : Database} (h : Reachable db) {itemId : String} :
    (∃ db', rebuildAsking db itemId = .ok db') ↔
      EventsProjectable db itemId ∧ RunsUnused db itemId (replay db itemId).operations := by
  simp only [rebuildAsking_ok, exists_and_left]
  rw [replay_item_eq, reachable_rebuild_iff h, referencesParse_iff, valuesStorable_iff, scopesSearchable_iff]
  constructor
  · rintro ⟨hroute, hreferences, hdefects, hstorable, hunused, hscopes⟩
    exact ⟨⟨hroute, hreferences, hdefects, hstorable, hscopes⟩, hunused⟩
  · rintro ⟨hevents, hunused⟩
    exact ⟨hevents.route, hevents.references, hevents.defects, hevents.storable, hunused, hevents.scopes⟩

/-- In every reachable state, an item that shares no run with another one is rebuilt exactly when no event
lists a defect (in the order of the INSERTs that the mapping has), the references of its runs and the scopes of
its inspections can be read, its values can be stored and its route can be looked up. -/
theorem accepted_events_projectable {db : Database} (h : Reachable db) {itemId : String}
    (hown : OwnRuns db itemId) :
    (∃ db', rebuildAsking db itemId = .ok db') ↔ EventsProjectable db itemId := by
  rw [rebuildAsking_iff h]
  exact and_iff_left (runsUnused_of_own h hown)

/-! ### A rework -/

/-- A rework that refers to its nonconformance. -/
def reworkFor (reference : String) : EventEnvelope where
  eventId := "e-1"
  occurredAt := 10
  source := { sourceId := "mes-1", sourceType := "mes" }
  itemId := some "item-1"
  operationRunId := some "run-1"
  payload := .operationStarted
    { operationId := "OP-10"
      operatorId := "operator-1"
      equipmentId := "lathe-1"
      stationId := "station-1"
      runReason := .rework
      reworkForNonconformanceId := some reference }
  item_required := fun _ => by decide
  run_required := fun _ => by decide

/-- The item is registered, reworked and inspected. -/
def reworkedGood : List Call :=
  [.rebuild "item-1", .ingest registered 2, .ingest (reworkFor "0b7ab1c2-9f1e-4d0e-8f43-6f2f6f0d8a11") 11,
    .ingest (goodSeen "e-2" 20) 21]

theorem ownRuns_of_single {db : Database} {itemId : String}
    (h : ∀ raw ∈ db.rawEvents, raw.itemId = some itemId) : OwnRuns db itemId := by
  intro _ _ otherItem hne other hother
  obtain ⟨hstored, hitem⟩ := List.mem_filter.mp hother
  rw [decide_eq_true_eq, h other hstored] at hitem
  exact absurd (Option.some.inj hitem).symm hne

theorem accepted_events_projectable_reworked : EventsProjectable (run {} reworkedGood) "item-1" := by
  have hanswers : lookupAnswers (run {} reworkedGood) "item-1" (replay (run {} reworkedGood) "item-1").item =
      true := by decide +kernel
  have hrebuild := rebuildItem_rebuildOrMark
    (show (rebuildItem (run {} reworkedGood) "item-1").isOk = true by decide +kernel)
  exact (accepted_events_projectable ⟨{}, _, ⟨{}, _, rfl⟩, rfl⟩ (ownRuns_of_single (by decide +kernel))).mp
    ⟨_, rebuildAsking_ok.mpr ⟨hanswers, hrebuild⟩⟩

/-! ### Events that cannot be projected -/

/-- The rework names its nonconformance by a number. -/
def numberedRework : List Call := [.rebuild "item-1", .ingest (reworkFor "NCR-7") 11]

/-- An action whose type is U+0000. -/
def nulAction : EventEnvelope where
  eventId := "e-1"
  occurredAt := 10
  source := { sourceId := "mes-1", sourceType := "mes" }
  itemId := some "item-1"
  payload := .operatorAction { operatorId := "operator-1", actionType := "\x00" }

/-- A GOOD whose scope names its defects by a number. -/
def unsearchableGood : EventEnvelope where
  eventId := "e-2"
  occurredAt := 9
  source := { sourceId := "camera-1", sourceType := "vision" }
  itemId := some "item-1"
  payload := .inspectionResult
    { inspectionResult := .noDefect
      observationQuality := .good
      controlPointId := "CP-2"
      inspectionScope := some (.mapping [("defect_types", .int 5)])
      validate_defects := nothing_listed }

/-- The calls leave accepted events of the item that cannot be projected, though no other item has its runs. -/
def Blocks (calls : List Call) (itemId : String) : Prop :=
  storedEvents (run {} calls) itemId ≠ [] ∧ OwnRuns (run {} calls) itemId ∧
    ¬ ∃ db', rebuildAsking (run {} calls) itemId = .ok db'

theorem blocks_of_single {calls : List Call} {itemId : String} (h : storedEvents (run {} calls) itemId ≠ [] ∧
    (∀ raw ∈ (run {} calls).rawEvents, raw.itemId = some itemId) ∧
      (rebuildItem (run {} calls) itemId).isOk = false) : Blocks calls itemId := by
  obtain ⟨hstored, hsingle, hfails⟩ := h
  refine ⟨hstored, ownRuns_of_single hsingle, ?_⟩
  rintro ⟨db', hok⟩
  rw [(rebuildAsking_ok.mp hok).2] at hfails
  cases hfails

/-- A scratch, a rework by number and an action that no column takes: each is accepted, and none can be
projected. -/
theorem accepted_events_unprojectable : Blocks acceptedScratch "item-1" ∧ Blocks numberedRework "item-1" ∧
    Blocks [.rebuild "item-1", .ingest nulAction 11] "item-1" :=
  ⟨blocks_of_single (by decide +kernel), blocks_of_single (by decide +kernel), blocks_of_single (by decide +kernel)⟩

/-- With the observations inserted first, the scratch is projected unless such a GOOD comes before it. -/
example : (rebuildItem (run parentsFirst acceptedScratch) "item-1").isOk = true ∧
    (rebuildItem (run parentsFirst [.rebuild "item-1", .ingest unsearchableGood 10,
      .ingest (scratchSeen "e-1" 10) 11]) "item-1").isOk = false := by decide +kernel

end TraceQ.Properties
