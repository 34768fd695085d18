import TraceQ.Projections.RebuildMeaning

/-! # What a replay collects

The observations of a replay are those of the stored inspections in business order; conflicts
change their trust and nothing else. The replay sees of a stored event only the event itself.
-/
namespace TraceQ.Projections
open Quality Tables
set_option autoImplicit false
set_option maxHeartbeats 250000

/-! ## Observations -/

/-- The observation an event projects to, if it is an inspection. -/
def inspected (db : Database) (raw : RawEvent) : Option ObservationValue :=
  match raw.payload with
  | .inspectionResult payload => some (observationValue db raw payload)
  | _ => none

theorem replayEvent_observations (db : Database) (values : ReplayValues) (raw : RawEvent) :
    (replayEvent db values raw).observations = values.observations ++ (inspected db raw).toList := by
  cases hpayload : raw.payload <;> simp [replayEvent, inspected, hpayload]

/-- A collection to which an event adds at most one value holds those of all events. -/
theorem foldl_collects {α : Type} {db : Database} {c : ReplayValues → List α} {g : RawEvent → Option α}
    (h : ∀ values raw, c (replayEvent db values raw) = c values ++ (g raw).toList) (raws : List RawEvent)
    (values : ReplayValues) : c (raws.foldl (replayEvent db) values) = c values ++ raws.filterMap g := by
  induction raws generalizing values with
  | nil => simp
  | cons raw rest ih =>
    rw [List.foldl_cons, ih, h, List.append_assoc, List.filterMap_cons]
    cases g raw <;> simp

theorem replay_observations (db : Database) (itemId : String) :
    (replay db itemId).observations =
      markConflicts ((history db itemId).filterMap (inspected db)) := by
  have hcollected := foldl_collects (c := ReplayValues.observations) (replayEvent_observations db)
    (history db itemId) {}
  simp only [replay, hcollected, List.nil_append]

/-- Conflicts keep every column but the trust. -/
theorem mem_markConflicts {observations : List ObservationValue} {obs : ObservationValue}
    (h : obs ∈ markConflicts observations) :
    ∃ old ∈ observations, obs.payload = old.payload ∧ obs.eventId = old.eventId ∧
      obs.occurredAt = old.occurredAt := by
  obtain ⟨old, hold, rfl⟩ := List.mem_map.mp h
  refine ⟨old, hold, ?_⟩
  split <;> exact ⟨rfl, rfl, rfl⟩

theorem markConflicts_mem {observations : List ObservationValue} {old : ObservationValue}
    (h : old ∈ observations) :
    ∃ obs ∈ markConflicts observations, obs.payload = old.payload := by
  refine ⟨_, List.mem_map_of_mem h, ?_⟩
  split <;> rfl

/-! ## Machine events, actions and the registration -/

def machineOf (raw : RawEvent) : Option MachineValue :=
  match raw.payload with
  | .machineState payload => some ⟨payload, raw.operationRunId, raw.eventId, raw.occurredAt⟩
  | _ => none

def actionOf (raw : RawEvent) : Option ActionValue :=
  match raw.payload with
  | .operatorAction payload => some ⟨payload, raw.operationRunId, raw.eventId, raw.occurredAt⟩
  | _ => none

theorem replay_machineEvents (db : Database) (itemId : String) :
    (replay db itemId).machineEvents = (history db itemId).filterMap machineOf := by
  refine foldl_collects (c := ReplayValues.machineEvents) ?_ (history db itemId) {}
  intro values raw
  cases hpayload : raw.payload <;> simp [replayEvent, machineOf, hpayload]

theorem replay_operatorActions (db : Database) (itemId : String) :
    (replay db itemId).operatorActions = (history db itemId).filterMap actionOf := by
  refine foldl_collects (c := ReplayValues.operatorActions) ?_ (history db itemId) {}
  intro values raw
  cases hpayload : raw.payload <;> simp [replayEvent, actionOf, hpayload]

/-- What a registration reports. -/
def registrationOf (raw : RawEvent) : Option ItemValue :=
  match raw.payload with
  | .itemRegistered payload => some ⟨payload, raw.occurredAt⟩
  | _ => none

theorem foldl_item (db : Database) (raws : List RawEvent) (values : ReplayValues) :
    (raws.foldl (replayEvent db) values).item = ((raws.filterMap registrationOf).getLast?).or values.item := by
  induction raws generalizing values with
  | nil => rfl
  | cons raw rest ih =>
    rw [List.foldl_cons, ih, List.filterMap_cons]
    cases hpayload : raw.payload with
    | itemRegistered payload =>
      simp only [registrationOf, replayEvent, hpayload, List.getLast?_cons]
      cases (rest.filterMap registrationOf).getLast? <;> rfl
    | _ => simp only [registrationOf, replayEvent, hpayload]

theorem replay_item_eq (db : Database) (itemId : String) :
    (replay db itemId).item = ((history db itemId).filterMap registrationOf).getLast? :=
  (foldl_item db (history db itemId) {}).trans (Option.or_none ..)

/-! ## Sightings -/

theorem mem_sightings {observations : List ObservationValue} {sighting : Sighting} :
    sighting ∈ sightings observations ↔
      sighting.observation ∈ observations ∧
        sighting.observation.payload.inspectionResult = .defectDetected ∧
        sighting.defect ∈ sighting.observation.payload.defects := by
  simp only [sightings, List.mem_flatMap, List.mem_filter, decide_eq_true_eq, List.mem_map]
  constructor
  · rintro ⟨obs, ⟨hmem, hresult⟩, defect, hdefect, rfl⟩
    exact ⟨hmem, hresult, hdefect⟩
  · rintro ⟨hmem, hresult, hdefect⟩
    exact ⟨sighting.observation, ⟨hmem, hresult⟩, sighting.defect, hdefect, rfl⟩

/-- The observation of a sighting is that of a stored inspection. -/
theorem raw_of_sighting {db : Database} {itemId : String} {sighting : Sighting}
    (h : sighting ∈ itemSightings db itemId) :
    ∃ raw ∈ storedEvents db itemId,
      raw.payload = .inspectionResult sighting.observation.payload ∧
        sighting.defect ∈ sighting.observation.payload.defects := by
  obtain ⟨hobs, -, hdefect⟩ := mem_sightings.mp h
  rw [replay_observations] at hobs
  obtain ⟨old, hold, hpayload, -⟩ := mem_markConflicts hobs
  obtain ⟨raw, hraw, hinspected⟩ := List.mem_filterMap.mp hold
  refine ⟨raw, mem_history.mp hraw, ?_, hdefect⟩
  cases hkind : raw.payload with
  | inspectionResult payload =>
    simp only [inspected, hkind, Option.some.injEq] at hinspected
    rw [hpayload, ← hinspected]
    rfl
  | _ => simp [inspected, hkind] at hinspected

/-- Every defect a stored inspection lists is sighted. -/
theorem sighting_of_raw {db : Database} {itemId : String} {raw : RawEvent}
    {payload : InspectionResultPayload} {defect : Defect} (hraw : raw ∈ storedEvents db itemId)
    (hkind : raw.payload = .inspectionResult payload) (hdefect : defect ∈ payload.defects) :
    ∃ sighting ∈ itemSightings db itemId,
      sighting.observation.payload = payload ∧ sighting.defect = defect := by
  have hold : observationValue db raw payload ∈ (history db itemId).filterMap (inspected db) :=
    List.mem_filterMap.mpr ⟨raw, mem_history.mpr hraw, by simp only [inspected, hkind]⟩
  obtain ⟨obs, hobs, hpayload⟩ := markConflicts_mem hold
  have hlisted : obs.payload = payload := hpayload
  -- the validator makes an inspection that lists defects a defect observation
  have hresult : payload.inspectionResult = .defectDetected :=
    payload.validate_defects.mpr (List.ne_nil_of_mem hdefect)
  refine ⟨⟨obs, defect⟩, mem_sightings.mpr ⟨replay_observations db itemId ▸ hobs, ?_, ?_⟩,
    hlisted, rfl⟩
  · rw [hlisted, hresult]
  · rw [hlisted]; exact hdefect

/-- The keys under which the defects of an event are looked up. -/
def reportedKeys : Payload → List DefectKey
  | .inspectionResult payload => payload.defects.map fun defect =>
      ⟨defect.defectType, pyOr defect.componentInstanceId payload.componentInstanceId⟩
  | _ => []

theorem reportedKeys_eq_nil {payload : Payload} :
    reportedKeys payload = [] ↔ payload.defects = [] := by
  cases payload <;> simp [reportedKeys, Payload.defects]

/-- The keys sighted in a replay are those its events report. -/
theorem sighted_iff {db : Database} {itemId : String} {key : DefectKey} :
    (∃ sighting ∈ itemSightings db itemId, sighting.key = key) ↔
      ∃ raw ∈ storedEvents db itemId, key ∈ reportedKeys raw.payload := by
  constructor
  · rintro ⟨sighting, hs, rfl⟩
    obtain ⟨raw, hraw, hpayload, hdefect⟩ := raw_of_sighting hs
    refine ⟨raw, hraw, ?_⟩
    rw [hpayload]
    exact List.mem_map_of_mem hdefect
  · rintro ⟨raw, hraw, hkey⟩
    cases hkind : raw.payload with
    | inspectionResult payload =>
      rw [hkind] at hkey
      obtain ⟨defect, hdefect, rfl⟩ := List.mem_map.mp hkey
      obtain ⟨sighting, hs, hpayload, rfl⟩ := sighting_of_raw hraw hkind hdefect
      exact ⟨sighting, hs, by rw [Sighting.key, Sighting.component, hpayload]⟩
    | _ => rw [hkind] at hkey; cases hkey

theorem itemSightings_eq_nil_iff {db : Database} {itemId : String} :
    itemSightings db itemId = [] ↔ ∀ raw ∈ storedEvents db itemId, raw.payload.defects = [] := by
  constructor
  · intro hnil raw hraw
    rw [← reportedKeys_eq_nil, List.eq_nil_iff_forall_not_mem]
    intro key hkey
    obtain ⟨sighting, hs, -⟩ := sighted_iff.mpr ⟨raw, hraw, hkey⟩
    rw [hnil] at hs
    cases hs
  · intro hnone
    rw [List.eq_nil_iff_forall_not_mem]
    intro sighting hs
    obtain ⟨raw, hraw, hkey⟩ := sighted_iff.mp ⟨sighting, hs, rfl⟩
    rw [reportedKeys_eq_nil.mpr (hnone raw hraw)] at hkey
    cases hkey

theorem defectObservationRows_eq_nil_iff {db : Database} {itemId : String} :
    (replay db itemId).observations.flatMap (defectObservationRows itemId) = [] ↔
      ∀ raw ∈ storedEvents db itemId, raw.payload.defects = [] := by
  rw [← itemSightings_eq_nil_iff, itemSightings, List.flatMap_eq_nil_iff, List.eq_nil_iff_forall_not_mem]
  constructor
  · intro hnone s hs
    obtain ⟨hobs, -, hdefect⟩ := mem_sightings.mp hs
    rw [List.map_eq_nil_iff.mp (hnone _ hobs)] at hdefect
    cases hdefect
  · intro hnone obs hobs
    rw [defectObservationRows, List.map_eq_nil_iff, List.eq_nil_iff_forall_not_mem]
    intro defect hdefect
    exact hnone ⟨obs, defect⟩ (mem_sightings.mpr
      ⟨hobs, obs.payload.validate_defects.mpr (List.ne_nil_of_mem hdefect), hdefect⟩)

/-! ## Only the event matters -/

theorem replayEvent_event {db : Database} {raw raw' : RawEvent} (h : raw.event = raw'.event) :
    (fun values => replayEvent db values raw) = fun values => replayEvent db values raw' := by
  obtain ⟨event, _, _, _, _⟩ := raw
  obtain ⟨event', _, _, _, _⟩ := raw'
  obtain rfl : event = event' := h
  rfl

theorem foldl_replayEvent_event {db : Database} {raws raws' : List RawEvent}
    (h : raws.map (·.event) = raws'.map (·.event)) (values : ReplayValues) :
    raws.foldl (replayEvent db) values = raws'.foldl (replayEvent db) values := by
  induction raws generalizing raws' values with
  | nil =>
    rw [List.map_nil] at h
    rw [List.map_eq_nil_iff.mp h.symm]
  | cons raw rest ih =>
    cases raws' with
    | nil => cases h
    | cons raw' rest' =>
      rw [List.map_cons, List.map_cons, List.cons.injEq] at h
      rw [List.foldl_cons, List.foldl_cons, ih h.2]
      exact congrArg (rest'.foldl (replayEvent db)) (congrFun (replayEvent_event h.1) values)

end TraceQ.Projections
