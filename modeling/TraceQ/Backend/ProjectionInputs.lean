import TraceQ.Backend.RowSources
import TraceQ.Projections.RebuildOutcome

/-! # What projections depend on

What a call stores and projects depends on the stored events, the invalidations, the trust policies, the
projected rows and the items that have a projection state. It depends neither on the routes nor on the cases,
the decisions or the analyses.
-/
namespace TraceQ.Backend
open Projections Ingestion Api Quality Tables Results
set_option autoImplicit false
set_option maxHeartbeats 250000

/-! ## Replays -/

/-- What replay reads of a stored event. -/
def bare (raw : RawEvent) : EventEnvelope × Instant := (raw.event, raw.receivedAt)

/-- Equal as far as ingestions and rebuilds look. -/
structure SameInputs (a b : Database) : Prop where
  insertOrder : a.insertOrder = b.insertOrder
  rawEvents : a.rawEvents.map bare = b.rawEvents.map bare
  invalidations : a.controlDeviceInvalidations = b.controlDeviceInvalidations
  trustPolicies : a.config.trustPolicies = b.config.trustPolicies
  operationRuns : a.operationRuns = b.operationRuns
  observations : a.observations = b.observations
  machineEvents : a.machineEvents = b.machineEvents
  operatorActions : a.operatorActions = b.operatorActions
  states : a.projectionStates.map (·.itemId) = b.projectionStates.map (·.itemId)

theorem SameInputs.refl (db : Database) : SameInputs db db :=
  ⟨rfl, rfl, rfl, rfl, rfl, rfl, rfl, rfl, rfl⟩

/-- The business order of the stored events. -/
def bareKey (entry : EventEnvelope × Instant) : Instant ×ₗ String ×ₗ WithTop ℕ ×ₗ Instant ×ₗ String :=
  toLex (entry.1.occurredAt, toLex (entry.1.source.sourceId,
    toLex ((entry.1.source.sequence : WithTop ℕ), toLex (entry.2, entry.1.eventId))))

theorem history_bare (db : Database) (itemId : String) :
    (history db itemId).map bare =
      ((db.rawEvents.map bare).filter fun entry => decide (entry.1.itemId = some itemId)).insertionSort
        fun x y => bareKey x ≤ bareKey y := by
  have hsort : ((storedEvents db itemId).insertionSort fun x y => businessKey x ≤ businessKey y).map bare =
      ((storedEvents db itemId).map bare).insertionSort fun x y => bareKey x ≤ bareKey y :=
    List.map_insertionSort _ _ _ _ fun _ _ _ _ => Iff.rfl
  rw [history, hsort, storedEvents, List.filter_map]
  rfl

theorem SameInputs.events {a b : Database} (h : SameInputs a b) (itemId : String) :
    (history a itemId).map (·.event) = (history b itemId).map (·.event) := by
  have hbare : (history a itemId).map bare = (history b itemId).map bare := by
    rw [history_bare, history_bare, h.rawEvents]
  have hevents := congrArg (List.map Prod.fst) hbare
  rw [List.map_map, List.map_map] at hevents
  exact hevents

theorem SameInputs.replay {a b : Database} (h : SameInputs a b) (itemId : String) :
    Projections.replay a itemId = Projections.replay b itemId := by
  have hstep : replayEvent a = replayEvent b := by
    funext values raw
    cases hpayload : raw.payload <;>
      simp only [replayEvent, hpayload, observationValue, trustPolicy, h.invalidations, h.trustPolicies]
  rw [Projections.replay, Projections.replay, foldl_replayEvent_event (h.events itemId), hstep]

/-! ## Rebuilds -/

theorem SameInputs.rebuild_iff {a b : Database} (h : SameInputs a b) (itemId : String) :
    (∃ a', rebuildItem a itemId = .ok a') ↔ ∃ b', rebuildItem b itemId = .ok b' := by
  have hstorable : ∀ runs, Storable a itemId (Projections.replay b itemId) runs ↔
      Storable b itemId (Projections.replay b itemId) runs := by
    intro runs
    constructor
    · rintro ⟨hreferences, hstorable, hruns, hobs, hmachines, hactions⟩
      exact ⟨h.insertOrder ▸ hreferences, hstorable, h.operationRuns ▸ hruns, h.observations ▸ hobs,
        h.machineEvents ▸ hmachines, h.operatorActions ▸ hactions⟩
    · rintro ⟨hreferences, hstorable, hruns, hobs, hmachines, hactions⟩
      exact ⟨h.insertOrder.symm ▸ hreferences, hstorable, h.operationRuns.symm ▸ hruns, h.observations.symm ▸ hobs, h.machineEvents.symm ▸ hmachines,
        h.operatorActions.symm ▸ hactions⟩
  rw [rebuildItem_succeeds_iff, rebuildItem_succeeds_iff, h.replay itemId]
  simp only [hstorable]

theorem updateState_keys (db : Database) (itemId : String) {f : ProjectionState → ProjectionState}
    (hf : ∀ state, (f state).itemId = state.itemId) :
    (updateState db itemId f).projectionStates.map (·.itemId) =
      if itemId ∈ db.projectionStates.map (·.itemId) then db.projectionStates.map (·.itemId)
      else db.projectionStates.map (·.itemId) ++ [itemId] := by
  have hblank : ({ itemId := itemId } : ProjectionState).itemId = itemId := rfl
  exact map_upsert hblank hf db.projectionStates

theorem projectItem_states (db : Database) (itemId : String) (value : Option ItemValue) :
    (projectItem db itemId value).projectionStates = db.projectionStates := by
  unfold projectItem
  cases value with
  | none => rfl
  | some value => cases findItem db itemId <;> rfl

/-- What a successful rebuild writes of what another one could read. -/
theorem rebuildItem_writes {db db' : Database} (hwf : WellFormed db) {itemId : String}
    (h : rebuildItem db itemId = .ok db') :
    ∃ runs, operationRunRows itemId (replay db itemId).operations = .ok runs ∧
      db'.projectionStates.map (·.itemId) =
        (if itemId ∈ db.projectionStates.map (·.itemId) then db.projectionStates.map (·.itemId)
        else db.projectionStates.map (·.itemId) ++ [itemId]) ∧
      (history db itemId = [] → SameRows db db') ∧
      (history db itemId ≠ [] →
        db'.operationRuns = replaceOwned (·.itemId) itemId db.operationRuns runs ∧
        db'.observations = replaceOwned (·.itemId) itemId db.observations
          ((replay db itemId).observations.map (observationRow itemId)) ∧
        db'.machineEvents = replaceOwned (·.itemId) itemId db.machineEvents
          ((replay db itemId).machineEvents.map (machineEventRow itemId)) ∧
        db'.operatorActions = replaceOwned (·.itemId) itemId db.operatorActions
          ((replay db itemId).operatorActions.map (operatorActionRow itemId))) := by
  rcases rebuildItem_cases h with ⟨hnil, rfl⟩ | ⟨hne, stored, registered, linked, hstored, rfl, hlinked, rfl⟩
  · have hruns : operationRunRows itemId (replay db itemId).operations = .ok [] := by
      rw [replay_of_no_history hnil]
      rfl
    refine ⟨[], hruns, updateState_keys db itemId fun _ => rfl,
      fun _ => ⟨rfl, rfl, rfl, rfl, rfl⟩, fun hne => absurd hnil hne⟩
  · obtain ⟨runs, hruns, hdb⟩ := storeProjection_ok hstored
    have hstoredWf : WellFormed stored := by
      rw [hdb]
      exact wellFormed_congr hwf rfl rfl rfl le_rfl
    have hregistered := (sameCases_projectItem stored itemId (replay db itemId).item).wellFormed hstoredWf
    have hcases := linkSightings_outsideCases hregistered hlinked
    have hrows := (sameRows_projectItem stored itemId _).trans (sameRows_of_outsideCases hcases)
    have hstates : linked.projectionStates = db.projectionStates := by
      have hlinkedStates := (congrArg Database.projectionStates hcases :)
      have hkept := projectItem_states stored itemId (replay db itemId).item
      rw [hdb] at hkept
      exact hlinkedStates.trans (hdb ▸ hkept)
    refine ⟨runs, hruns, ?_, fun hnil => absurd hnil hne, fun _ => ?_⟩
    · have hkeys := updateState_keys linked itemId (f := projected (history db itemId)) fun _ => rfl
      rwa [hstates] at hkeys
    · rw [hdb] at hrows
      exact ⟨hrows.operationRuns, hrows.observations, hrows.machineEvents, hrows.operatorActions⟩

theorem SameInputs.history_nil {a b : Database} (h : SameInputs a b) {itemId : String} (hnil : history a itemId = []) :
    history b itemId = [] := by
  have hevents := h.events itemId
  rw [hnil] at hevents
  exact List.map_eq_nil_iff.mp hevents.symm

theorem SameInputs.symm {a b : Database} (h : SameInputs a b) : SameInputs b a :=
  ⟨h.insertOrder.symm, h.rawEvents.symm, h.invalidations.symm, h.trustPolicies.symm, h.operationRuns.symm, h.observations.symm,
    h.machineEvents.symm, h.operatorActions.symm, h.states.symm⟩

theorem SameInputs.rebuild {a b a' b' : Database} (ha : WellFormed a) (hb : WellFormed b) (h : SameInputs a b)
    {itemId : String} (hra : rebuildItem a itemId = .ok a') (hrb : rebuildItem b itemId = .ok b') :
    SameInputs a' b' := by
  have houta := rebuildItem_outside ha hra
  have houtb := rebuildItem_outside hb hrb
  obtain ⟨runs, hruns, hkeys, hempty, hrows⟩ := rebuildItem_writes ha hra
  obtain ⟨runs', hruns', hkeys', hempty', hrows'⟩ := rebuildItem_writes hb hrb
  rw [← h.replay itemId] at hruns' hrows'
  obtain rfl : runs = runs' := Except.ok.inj (hruns.symm.trans hruns')
  have hstates : a'.projectionStates.map (·.itemId) = b'.projectionStates.map (·.itemId) := by
    rw [hkeys, hkeys', h.states]
  have horder : a'.insertOrder = b'.insertOrder := by
    rw [insertOrder_of_outside houta, insertOrder_of_outside houtb, h.insertOrder]
  have hraws : a'.rawEvents.map bare = b'.rawEvents.map bare := by
    rw [rawEvents_of_outside houta, rawEvents_of_outside houtb, h.rawEvents]
  have hinvalidations : a'.controlDeviceInvalidations = b'.controlDeviceInvalidations := by
    rw [invalidations_of_outside houta, invalidations_of_outside houtb, h.invalidations]
  have hpolicies : a'.config.trustPolicies = b'.config.trustPolicies := by
    rw [config_of_outside houta, config_of_outside houtb, h.trustPolicies]
  by_cases hnil : history a itemId = []
  · have hsame := hempty hnil
    have hsame' := hempty' (h.history_nil hnil)
    refine ⟨horder, hraws, hinvalidations, hpolicies, ?_, ?_, ?_, ?_, hstates⟩
    · rw [hsame.operationRuns, hsame'.operationRuns, h.operationRuns]
    · rw [hsame.observations, hsame'.observations, h.observations]
    · rw [hsame.machineEvents, hsame'.machineEvents, h.machineEvents]
    · rw [hsame.operatorActions, hsame'.operatorActions, h.operatorActions]
  · obtain ⟨hoperations, hobservations, hmachines, hactions⟩ := hrows hnil
    obtain ⟨hoperations', hobservations', hmachines', hactions'⟩ :=
      hrows' fun hnil' => hnil (h.symm.history_nil hnil')
    refine ⟨horder, hraws, hinvalidations, hpolicies, ?_, ?_, ?_, ?_, hstates⟩
    · rw [hoperations, hoperations', h.operationRuns]
    · rw [hobservations, hobservations', h.observations]
    · rw [hmachines, hmachines', h.machineEvents]
    · rw [hactions, hactions', h.operatorActions]

theorem SameInputs.rebuildOrMark {a b : Database} (ha : WellFormed a) (hb : WellFormed b) (h : SameInputs a b)
    (itemId : String) : SameInputs (Projections.rebuildOrMark a itemId) (Projections.rebuildOrMark b itemId) := by
  unfold Projections.rebuildOrMark
  cases hra : rebuildItem a itemId with
  | ok a' =>
    obtain ⟨b', hrb⟩ := (h.rebuild_iff itemId).mp ⟨a', hra⟩
    rw [hrb]
    exact h.rebuild ha hb hra hrb
  | error e =>
    cases hrb : rebuildItem b itemId with
    | ok b' =>
      obtain ⟨a', hok⟩ := (h.rebuild_iff itemId).mpr ⟨b', hrb⟩
      rw [hra] at hok
      cases hok
    | error e' =>
      refine ⟨h.insertOrder, h.rawEvents, h.invalidations, h.trustPolicies, h.operationRuns, h.observations,
        h.machineEvents, h.operatorActions, ?_⟩
      have hmarked : ∀ (db : Database) (error : ReplayError),
          (markProjectionFailed db itemId error).projectionStates.map (·.itemId) =
            if itemId ∈ db.projectionStates.map (·.itemId) then db.projectionStates.map (·.itemId)
            else db.projectionStates.map (·.itemId) ++ [itemId] :=
        fun db error => updateState_keys db itemId fun _ => rfl
      simp only [hmarked, h.states]

/-- The loop of a device invalidation fails at the same item. -/
theorem SameInputs.rebuildAll {a b a' b' : Database} (ha : WellFormed a') (hb : WellFormed b')
    (hcommitted : SameInputs a b) (hsession : SameInputs a' b') (targets : List String) :
    SameInputs (Api.rebuildAll a a' targets).1 (Api.rebuildAll b b' targets).1 := by
  induction targets generalizing a b a' b' with
  | nil => exact hsession
  | cons itemId rest ih =>
    rw [Api.rebuildAll, Api.rebuildAll]
    cases hra : rebuildItem a' itemId with
    | ok a'' =>
      obtain ⟨b'', hrb⟩ := (hsession.rebuild_iff itemId).mp ⟨a'', hra⟩
      rw [hrb]
      have hnext := hsession.rebuild ha hb hra hrb
      exact ih (rebuildItem_wellFormed ha hra) (rebuildItem_wellFormed hb hrb) hnext hnext
    | error e =>
      cases hrb : rebuildItem b' itemId with
      | ok b'' =>
        obtain ⟨a'', hok⟩ := (hsession.rebuild_iff itemId).mpr ⟨b'', hrb⟩
        rw [hra] at hok
        cases hok
      | error e' => exact hcommitted

/-! ## Ingestions -/

theorem foldl_markStale_keys (db : Database) (affected : List String) :
    (affected.foldl markStale db).projectionStates.map (·.itemId) = db.projectionStates.map (·.itemId) := by
  induction affected generalizing db with
  | nil => rfl
  | cons itemId rest ih =>
    rw [List.foldl_cons, ih]
    refine map_modifyWhere ?_ db.projectionStates
    exact fun _ => rfl

theorem mem_stateKeys {db : Database} {itemId : String} :
    itemId ∈ db.projectionStates.map (·.itemId) ↔ (findState db itemId).isSome = true := by
  simp [findState, List.find?_isSome]

theorem markIngested_keys {db db' : Database} {event : EventEnvelope} {ingestSeq : ℕ}
    (h : markIngested db event ingestSeq = .ok db') :
    db'.projectionStates.map (·.itemId) = db.projectionStates.map (·.itemId) := by
  unfold markIngested at h
  split at h
  · rw [← Except.ok.inj h]
  · rename_i itemId _
    split at h
    · rw [← Except.ok.inj h]
    · split at h
      · cases h
      · rename_i state hfound
        have hmem : itemId ∈ db.projectionStates.map (·.itemId) := by
          rw [mem_stateKeys, hfound]
          rfl
        have hkeys := updateState_keys db itemId (f := fun state => { state with
          latestRawIngestSeq := max state.latestRawIngestSeq ingestSeq
          status := .stale }) fun _ => rfl
        rwa [if_pos hmem, Except.ok.inj h] at hkeys

theorem recordInvalidation_keys (db : Database) (event : EventEnvelope) :
    (recordInvalidation db event).1.projectionStates.map (·.itemId) =
      db.projectionStates.map (·.itemId) := by
  unfold recordInvalidation
  split
  · exact foldl_markStale_keys _ _
  · rfl

theorem ingestEvent_keys {db db' : Database} {event : EventEnvelope} {receivedAt : Instant}
    {result : IngestionResult} (h : ingestEvent db event receivedAt = .ok (db', result)) :
    db'.projectionStates.map (·.itemId) = db.projectionStates.map (·.itemId) := by
  unfold ingestEvent at h
  split at h
  · split at h
    · have hsame := (Prod.ext_iff.mp (Except.ok.inj h)).1
      exact congrArg (fun m => m.projectionStates.map (·.itemId)) hsame.symm
    · cases h
  · obtain ⟨marked, hmarked, h⟩ := bind_ok.mp h
    rw [← (pair_ok.mp h).1, recordInvalidation_keys, markIngested_keys hmarked]
    rfl

/-- An event with a new id is accepted when its item has a projection state. -/
theorem ingestEvent_new_iff {db : Database} {event : EventEnvelope} {receivedAt : Instant}
    (hnew : findRawEvent db event.eventId = none) :
    (∃ result, ingestEvent db event receivedAt = .ok result) ↔
      ∀ itemId, event.itemId = some itemId → itemId ≠ "" → itemId ∈ db.projectionStates.map (·.itemId) := by
  have hmark : (∃ marked, markIngested (appendRaw db event receivedAt) event db.nextIngestSeq = .ok marked) ↔
      ∀ itemId, event.itemId = some itemId → itemId ≠ "" → (findState db itemId).isSome = true :=
    markIngested_isOk
  simp only [mem_stateKeys]
  rw [← hmark]
  unfold ingestEvent
  rw [hnew]
  constructor
  · rintro ⟨result, h⟩
    obtain ⟨marked, hmarked, -⟩ := bind_ok.mp h
    exact ⟨marked, hmarked⟩
  · rintro ⟨marked, hmarked⟩
    exact ⟨_, bind_ok.mpr ⟨marked, hmarked, rfl⟩⟩

theorem SameInputs.findRawEvent {a b : Database} (h : SameInputs a b) (eventId : String) :
    (Ingestion.findRawEvent a eventId).map (·.event) = (Ingestion.findRawEvent b eventId).map (·.event) := by
  have hfind : ∀ db : Database, (Ingestion.findRawEvent db eventId).map (·.event) =
      ((db.rawEvents.map bare).find? fun entry => decide (entry.1.eventId = eventId)).map Prod.fst := by
    intro db
    rw [List.find?_map, Option.map_map]
    rfl
  rw [hfind, hfind, h.rawEvents]

theorem exec_ingest_known {db : Database} {event : EventEnvelope} {receivedAt : Instant} {raw : RawEvent}
    (hknown : findRawEvent db event.eventId = some raw) : (exec db (.ingest event receivedAt)).1 = db := by
  simp only [exec, ingestEvent, hknown]
  by_cases hhash : raw.event.contentHash = event.contentHash
  · rw [if_pos hhash]
    rfl
  · rw [if_neg hhash]
    rfl

theorem SameInputs.ingest {a b : Database} (h : SameInputs a b) (event : EventEnvelope) (receivedAt : Instant) :
    SameInputs (exec a (.ingest event receivedAt)).1 (exec b (.ingest event receivedAt)).1 := by
  have hfound := h.findRawEvent event.eventId
  cases hfa : Ingestion.findRawEvent a event.eventId with
  | some raw =>
    cases hfb : Ingestion.findRawEvent b event.eventId with
    | some raw' => rwa [exec_ingest_known hfa, exec_ingest_known hfb]
    | none =>
      rw [hfa, hfb] at hfound
      cases hfound
  | none =>
    have hfb : Ingestion.findRawEvent b event.eventId = none := by
      rw [hfa] at hfound
      exact Option.map_eq_none_iff.mp hfound.symm
    have hiff : (∃ result, ingestEvent a event receivedAt = .ok result) ↔
        ∃ result, ingestEvent b event receivedAt = .ok result := by
      rw [ingestEvent_new_iff hfa, ingestEvent_new_iff hfb, h.states]
    simp only [exec]
    cases hia : ingestEvent a event receivedAt with
    | error e =>
      cases hib : ingestEvent b event receivedAt with
      | error e' => exact h
      | ok result =>
        obtain ⟨result', hok⟩ := hiff.mpr ⟨result, hib⟩
        rw [hia] at hok
        cases hok
    | ok result =>
      obtain ⟨result', hib⟩ := hiff.mp ⟨result, hia⟩
      rw [hib]
      obtain ⟨a', ra⟩ := result
      obtain ⟨b', rb⟩ := result'
      rcases ingestEvent_cases hia with ⟨raw, hknown, -⟩ | ⟨-, -, houta, ⟨raw, heva, hata, hraws⟩, hinv⟩
      · rw [hfa] at hknown
        cases hknown
      rcases ingestEvent_cases hib with ⟨raw', hknown, -⟩ | ⟨-, -, houtb, ⟨raw', hevb, hatb, hraws'⟩, hinv'⟩
      · rw [hfb] at hknown
        cases hknown
      have hbare : bare raw = bare raw' := by rw [bare, bare, heva, hata, hevb, hatb]
      show SameInputs a' b'
      refine ⟨?_, ?_, ?_, ?_, ?_, ?_, ?_, ?_, ?_⟩
      · exact ((congrArg Database.insertOrder houta :) : a'.insertOrder = a.insertOrder).trans
          (h.insertOrder.trans (congrArg Database.insertOrder houtb :).symm)
      · rw [hraws, hraws', List.map_append, List.map_append, h.rawEvents, List.map_singleton,
          List.map_singleton, hbare]
      · rw [hinv, hinv', h.invalidations]
      · have hconfig := (congrArg Database.config houta :)
        have hconfig' := (congrArg Database.config houtb :)
        exact (congrArg Configuration.trustPolicies hconfig).trans
          (h.trustPolicies.trans (congrArg Configuration.trustPolicies hconfig').symm)
      · exact ((congrArg Database.operationRuns houta :) : a'.operationRuns = a.operationRuns).trans
          (h.operationRuns.trans (congrArg Database.operationRuns houtb :).symm)
      · exact ((congrArg Database.observations houta :) : a'.observations = a.observations).trans
          (h.observations.trans (congrArg Database.observations houtb :).symm)
      · exact ((congrArg Database.machineEvents houta :) : a'.machineEvents = a.machineEvents).trans
          (h.machineEvents.trans (congrArg Database.machineEvents houtb :).symm)
      · exact ((congrArg Database.operatorActions houta :) : a'.operatorActions = a.operatorActions).trans
          (h.operatorActions.trans (congrArg Database.operatorActions houtb :).symm)
      · rw [ingestEvent_keys hia, ingestEvent_keys hib, h.states]

/-! ## Calls -/

theorem SameInputs.invalidateDevice {a b : Database} (ha : WellFormed a) (hb : WellFormed b)
    (h : SameInputs a b) (body : InvalidationInput) (userId : Uuid) :
    SameInputs (Api.invalidateDevice a body userId).1 (Api.invalidateDevice b body userId).1 := by
  have htargets : affectedItems a body.deviceId body.affectedFrom body.affectedTo =
      affectedItems b body.deviceId body.affectedFrom body.affectedTo := by
    rw [affectedItems, affectedItems, h.observations]
  have hloop : ∀ records : List ControlDeviceInvalidation, SameInputs
      (Api.rebuildAll a { a with controlDeviceInvalidations := a.controlDeviceInvalidations ++ records }
        (affectedItems a body.deviceId body.affectedFrom body.affectedTo)).1
      (Api.rebuildAll b { b with controlDeviceInvalidations := b.controlDeviceInvalidations ++ records }
        (affectedItems b body.deviceId body.affectedFrom body.affectedTo)).1 := by
    intro records
    rw [← htargets]
    refine SameInputs.rebuildAll ?_ ?_ h ?_ _
    · exact wellFormed_congr ha rfl rfl rfl le_rfl
    · exact wellFormed_congr hb rfl rfl rfl le_rfl
    exact ⟨h.insertOrder, h.rawEvents, congrArg (· ++ records) h.invalidations, h.trustPolicies, h.operationRuns,
      h.observations, h.machineEvents, h.operatorActions, h.states⟩
  exact hloop _

/-- The calls whose writes a projection depends on. -/
def writesInputs : Call → Bool
  | .ingest .. | .rebuild _ | .invalidateDevice .. | .configure _ => true
  | _ => false

theorem exec_sameEvidence {db : Database} (hs : Sound db) {call : Call} (h : writesInputs call = false) :
    SameEvidence db (exec db call).1 := by
  cases exec_frame hs call with
  | ingested event receivedAt result isIngest => rw [isIngest] at h; cases h
  | rebuilt itemId isRebuild => rw [isRebuild] at h; cases h
  | failed itemId error isRebuild => rw [isRebuild] at h; cases h
  | invalidated body userId isInvalidation => rw [isInvalidation] at h; cases h
  | configured config isConfigure => rw [isConfigure] at h; cases h
  | other hsame => exact hsame

theorem SameEvidence.sameInputs {a b a' b' : Database} (ha : SameEvidence a a') (hb : SameEvidence b b')
    (h : SameInputs a b) : SameInputs a' b' := by
  refine ⟨?_, ?_, ?_, ?_, ?_, ?_, ?_, ?_, ?_⟩
  · rw [ha.insertOrder, hb.insertOrder, h.insertOrder]
  · rw [ha.rawEvents, hb.rawEvents, h.rawEvents]
  · rw [ha.invalidations, hb.invalidations, h.invalidations]
  · rw [ha.config, hb.config, h.trustPolicies]
  · rw [ha.operationRuns, hb.operationRuns, h.operationRuns]
  · rw [ha.observations, hb.observations, h.observations]
  · rw [ha.machineEvents, hb.machineEvents, h.machineEvents]
  · rw [ha.operatorActions, hb.operatorActions, h.operatorActions]
  · rw [ha.states, hb.states, h.states]

theorem SameInputs.configure {a b : Database} (h : SameInputs a b) {config config' : Configuration}
    (hpolicies : config.trustPolicies = config'.trustPolicies) :
    SameInputs { a with config := config } { b with config := config' } :=
  ⟨h.insertOrder, h.rawEvents, h.invalidations, hpolicies, h.operationRuns, h.observations, h.machineEvents,
    h.operatorActions, h.states⟩

theorem SameInputs.exec {a b : Database} (ha : Sound a) (hb : Sound b) (h : SameInputs a b) (call : Call) :
    SameInputs (Backend.exec a call).1 (Backend.exec b call).1 := by
  cases hwrites : writesInputs call with
  | false => exact (exec_sameEvidence ha hwrites).sameInputs (exec_sameEvidence hb hwrites) h
  | true =>
    cases call with
    | ingest event receivedAt => exact h.ingest event receivedAt
    | rebuild itemId => exact h.rebuildOrMark ha.toWellFormed hb.toWellFormed itemId
    | invalidateDevice body userId =>
      exact h.invalidateDevice ha.toWellFormed hb.toWellFormed body userId
    | configure config => exact h.configure rfl
    | review | decide | verifyRework | requestInspection | proposeContainment | reviewContainment
      | verifyIntegrity => cases hwrites

end TraceQ.Backend
