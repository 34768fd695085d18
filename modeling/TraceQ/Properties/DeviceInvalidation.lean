import TraceQ.Backend.Frames
import TraceQ.Properties.DeliveryOrder
import TraceQ.Properties.ReleaseGate

/-! # An invalidation whose rebuilds fail

`invalidate_device` records the invalidation and rebuilds the affected items one after the other in
its own session, and every rebuild commits. A rebuild that raises ends the endpoint: the items from
there on keep the projection and the state they had.
-/
namespace TraceQ.Properties
open Projections Ingestion Api Quality Tables Results Backend
set_option autoImplicit false
set_option maxHeartbeats 250000

/-! ## The endpoint when a rebuild may raise anywhere -/

/-- A rebuild that may also raise for reasons outside the tables, such as a lost connection; when it
returns it has done what `rebuild_item` does. -/
def MayRaise (rebuild : Database → String → Except ReplayError Database) : Prop :=
  ∀ db itemId db', rebuild db itemId = .ok db' → rebuildItem db itemId = .ok db'

/-- The loop of the endpoint over such a rebuild. -/
def rebuildAllBy (rebuild : Database → String → Except ReplayError Database)
    (committed session : Database) : List String → Database × Option ReplayError
  | [] => (session, none)
  | itemId :: rest =>
      match rebuild session itemId with
      | .ok rebuilt => rebuildAllBy rebuild rebuilt rebuilt rest
      | .error error => (committed, some error)

/-- The row the endpoint adds. -/
def deviceRecord (body : InvalidationInput) (userId : Uuid) : ControlDeviceInvalidation where
  sourceEventId := none
  deviceId := body.deviceId
  affectedFrom := body.affectedFrom
  affectedTo := body.affectedTo
  reason := body.reason
  invalidationType := body.invalidationType
  supportingEvidenceRefs := body.supportingEvidenceRefs
  createdByUserId := some userId

/-- What the session sees when the rebuilds begin. -/
def recorded (db : Database) (body : InvalidationInput) (userId : Uuid) : Database :=
  { db with
    controlDeviceInvalidations := db.controlDeviceInvalidations ++ [deviceRecord body userId] }

/-- The items the endpoint rebuilds. -/
def affectedOf (db : Database) (body : InvalidationInput) : List String :=
  affectedItems db body.deviceId body.affectedFrom body.affectedTo

def invalidateDeviceBy (rebuild : Database → String → Except ReplayError Database) (db : Database)
    (body : InvalidationInput) (userId : Uuid) : Database × Option ReplayError :=
  rebuildAllBy rebuild db (recorded db body userId) (affectedOf db body)

theorem rebuildAllBy_rebuildItem (committed session : Database) (targets : List String) :
    rebuildAllBy rebuildItem committed session targets = rebuildAll committed session targets := by
  induction targets generalizing committed session with
  | nil => rfl
  | cons itemId rest ih =>
    simp only [rebuildAllBy, rebuildAll]
    cases rebuildItem session itemId with
    | ok rebuilt => exact ih rebuilt rebuilt
    | error e => rfl

/-- Without failures from outside it is the endpoint. -/
theorem invalidateDeviceBy_rebuildItem (db : Database) (body : InvalidationInput) (userId : Uuid) :
    invalidateDeviceBy rebuildItem db body userId = invalidateDevice db body userId :=
  rebuildAllBy_rebuildItem db (recorded db body userId) (affectedOf db body)

/-- The loop rebuilds everything, or stops at the first rebuild that raises. -/
theorem rebuildAllBy_cases (rebuild : Database → String → Except ReplayError Database)
    (committed session : Database) (targets : List String) :
    (∃ db', targets.foldlM rebuild session = .ok db' ∧
      rebuildAllBy rebuild committed session targets = (db', none)) ∨
    ∃ done failed rest m e, targets = done ++ failed :: rest ∧
      done.foldlM rebuild session = .ok m ∧ rebuild m failed = .error e ∧
      rebuildAllBy rebuild committed session targets =
        (if done = [] then committed else m, some e) := by
  induction targets generalizing committed session with
  | nil => exact .inl ⟨session, rfl, rfl⟩
  | cons itemId rest ih =>
    rw [rebuildAllBy]
    cases hrebuild : rebuild session itemId with
    | error e => exact .inr ⟨[], itemId, rest, session, e, rfl, rfl, hrebuild, by simp⟩
    | ok rebuilt =>
      rcases ih rebuilt rebuilt with ⟨db', hloop, hall⟩ | ⟨done, failed, tail, m, e, rfl, hdone, hfail, hall⟩
      · exact .inl ⟨db', foldlM_cons_ok.mpr ⟨rebuilt, hrebuild, hloop⟩, hall⟩
      · refine .inr ⟨itemId :: done, failed, tail, m, e, rfl,
          foldlM_cons_ok.mpr ⟨rebuilt, hrebuild, hdone⟩, hfail, ?_⟩
        simp only [hall, List.cons_ne_nil, if_false]
        by_cases hnil : done = []
        · subst hnil
          rw [if_pos rfl, ← Except.ok.inj hdone]
        · rw [if_neg hnil]

/-- The place where the loop stops is determined. -/
theorem rebuildAllBy_stops {rebuild : Database → String → Except ReplayError Database}
    {committed session m : Database} {done rest : List String} {failed : String} {e : ReplayError}
    (hdone : done.foldlM rebuild session = .ok m) (hfail : rebuild m failed = .error e) :
    (rebuildAllBy rebuild committed session (done ++ failed :: rest)).1 =
      if done = [] then committed else m := by
  induction done generalizing committed session with
  | nil =>
    rw [← Except.ok.inj hdone] at hfail
    simp only [List.nil_append, rebuildAllBy, hfail, if_true]
  | cons itemId done ih =>
    obtain ⟨rebuilt, hrebuild, hdone'⟩ := foldlM_cons_ok.mp hdone
    simp only [List.cons_append, rebuildAllBy, hrebuild, ih hdone', List.cons_ne_nil, if_false]
    by_cases hnil : done = []
    · subst hnil
      rw [if_pos rfl, Except.ok.inj hdone']
    · rw [if_neg hnil]

/-! ## Items the invalidation reached -/

/-- The state of the item says that its projection is to be repaired. -/
def Marked (db : Database) (itemId : String) : Prop :=
  ∃ state ∈ db.projectionStates, state.itemId = itemId ∧
    (state.status = .stale ∨ state.status = .failed ∨ state.status = .rebuilding)

/-- The projection of the item is up to date with the stored events and invalidations. -/
def Reflects (db : Database) (itemId : String) : Prop :=
  Synced db itemId ∧ ∃ state ∈ db.projectionStates, state.itemId = itemId ∧ state.status = .upToDate

/-- The startup recovery picks up every marked item. -/
theorem Marked.stale {db : Database} {itemId : String} (h : Marked db itemId) :
    itemId ∈ staleItems db := by
  obtain ⟨state, hstate, hid, hstatus⟩ := h
  refine List.mem_map.mpr ⟨state, List.mem_filter.mpr ⟨hstate, ?_⟩, hid⟩
  rcases hstatus with h | h | h <;> simp [h]

/-- The state before the call, or the recorded invalidation with every affected item brought up to
date or marked. -/
def Recoverable (db : Database) (body : InvalidationInput) (userId : Uuid) (db' : Database) : Prop :=
  db' = db ∨
    (db'.controlDeviceInvalidations = db.controlDeviceInvalidations ++ [deviceRecord body userId] ∧
      ∀ itemId ∈ affectedOf db body, Reflects db' itemId ∨ Marked db' itemId)

/-! ## What a rebuild leaves of the states -/

section Rebuild
variable {db db' : Database} {target : String} (h : rebuildItem db target = .ok db')
include h

theorem rebuildItem_states (hwf : WellFormed db) :
    ∃ f : ProjectionState → ProjectionState,
      (∀ state, (f state).itemId = state.itemId ∧ (f state).status = .upToDate) ∧
      db'.projectionStates = upsert (·.itemId) target { itemId := target } f db.projectionStates := by
  rcases rebuildItem_cases h with ⟨-, rfl⟩ | ⟨-, stored, registered, linked, hstored, rfl, hlinked, rfl⟩
  · exact ⟨fun state => { state with status := .upToDate }, fun _ => ⟨rfl, rfl⟩, rfl⟩
  · refine ⟨projected (history db target), fun _ => ⟨rfl, rfl⟩, ?_⟩
    obtain ⟨runs, -, hdb⟩ := storeProjection_ok hstored
    have hsame : SameCases db stored := by rw [hdb]; exact ⟨rfl, rfl, rfl, rfl, le_rfl⟩
    have hregistered := (sameCases_projectItem stored target (replay db target).item).wellFormed
      (hsame.wellFormed hwf)
    have hlinkedStates : linked.projectionStates = db.projectionStates := by
      refine (congrArg Database.projectionStates (linkSightings_outsideCases hregistered hlinked) :).trans ?_
      refine Eq.trans (b := stored.projectionStates) ?_ (by rw [hdb])
      simp only [outsideCases, projectItem]
      cases (replay db target).item with
      | none => rfl
      | some value => cases findItem stored target <;> rfl
    rw [updateState, hlinkedStates]

/-- The states of other items stay. -/
theorem rebuildItem_state_other (hwf : WellFormed db) {state : ProjectionState}
    (hother : state.itemId ≠ target) :
    state ∈ db'.projectionStates ↔ state ∈ db.projectionStates := by
  obtain ⟨f, hf, hstates⟩ := rebuildItem_states h hwf
  rw [hstates]
  apply mem_upsert_other
  · rfl
  · exact fun row => (hf row).1
  · exact hother

theorem rebuildItem_upToDate (hwf : WellFormed db) :
    ∃ state ∈ db'.projectionStates, state.itemId = target ∧ state.status = .upToDate := by
  obtain ⟨f, hf, hstates⟩ := rebuildItem_states h hwf
  have hwritten : ∃ old : ProjectionState, old.itemId = target ∧
      f old ∈ upsert (·.itemId) target { itemId := target } f db.projectionStates := by
    apply exists_mem_upsert
    rfl
  obtain ⟨old, hold, hmem⟩ := hwritten
  rw [hstates]
  exact ⟨f old, hmem, (hf old).1.trans hold, (hf old).2⟩

end Rebuild

/-! ## What the loop leaves of the items -/

section Loop
variable {rebuild : Database → String → Except ReplayError Database} (hrebuild : MayRaise rebuild)
  {db db' : Database} (hwf : WellFormed db) {targets : List String}
  (h : targets.foldlM rebuild db = .ok db')
include hrebuild hwf h

theorem loop_rebuilds : targets.foldlM rebuildItem db = .ok db' := by
  induction targets generalizing db with
  | nil => exact h
  | cons target rest ih =>
    obtain ⟨m, hm, hrest⟩ := foldlM_cons_ok.mp h
    have hm' := hrebuild db target m hm
    exact foldlM_cons_ok.mpr ⟨m, hm', ih (rebuildItem_wellFormed hwf hm') hrest⟩

theorem loop_outside : WellFormed db' ∧ outsideProjection db' = outsideProjection db :=
  rebuilds_outside hwf (loop_rebuilds hrebuild hwf h)

theorem loop_state_other {state : ProjectionState} (hother : state.itemId ∉ targets) :
    state ∈ db'.projectionStates ↔ state ∈ db.projectionStates := by
  refine (foldlM_invariant (P := fun m => WellFormed m ∧
    (state ∈ m.projectionStates ↔ state ∈ db.projectionStates)) ?_
    (loop_rebuilds hrebuild hwf h) ⟨hwf, Iff.rfl⟩).2
  rintro target htarget m n ⟨hm, hstate⟩ hn
  refine ⟨rebuildItem_wellFormed hm hn, (rebuildItem_state_other hn hm ?_).trans hstate⟩
  rintro rfl
  exact hother htarget

/-- An item outside the loop is marked as before. -/
theorem loop_marked_other {itemId : String} (hother : itemId ∉ targets) :
    Marked db' itemId ↔ Marked db itemId := by
  refine exists_congr fun state => ?_
  by_cases hid : state.itemId = itemId
  · rw [loop_state_other hrebuild hwf h (hid ▸ hother)]
  · simp [hid]

/-- An item outside the loop reflects what it reflected. -/
theorem loop_reflects_other {itemId : String} (hother : itemId ∉ targets) :
    Reflects db' itemId ↔ Reflects db itemId := by
  obtain ⟨-, hout⟩ := loop_outside hrebuild hwf h
  refine and_congr ?_ (exists_congr fun state => ?_)
  · rw [Synced, Synced, history_of_outside hout, replay_of_outside hout,
      rebuilds_rows_other hwf (loop_rebuilds hrebuild hwf h) hother]
  · by_cases hid : state.itemId = itemId
    · rw [loop_state_other hrebuild hwf h (hid ▸ hother)]
    · simp [hid]

/-- Every item of the loop is brought up to date. -/
theorem loop_reflects {itemId : String} (hmem : itemId ∈ targets) (hraws : history db itemId ≠ []) :
    Reflects db' itemId := by
  refine ⟨rebuilds_synced hwf (loop_rebuilds hrebuild hwf h) hmem hraws, ?_⟩
  -- the last rebuild of the item decides, the later ones leave its state
  induction targets generalizing db with
  | nil => cases hmem
  | cons target rest ih =>
    obtain ⟨m, hm, hrest⟩ := foldlM_cons_ok.mp h
    have hm' := hrebuild db target m hm
    have hwfm := rebuildItem_wellFormed hwf hm'
    by_cases hlater : itemId ∈ rest
    · refine ih hwfm hrest hlater ?_
      rw [history_of_outside (rebuildItem_outside hwf hm')]
      exact hraws
    · obtain rfl : itemId = target := (List.mem_cons.mp hmem).resolve_right hlater
      obtain ⟨state, hstate, hid, hstatus⟩ := rebuildItem_upToDate hm' hwf
      exact ⟨state, (loop_state_other hrebuild hwfm hrest (hid ▸ hlater)).mpr hstate, hid, hstatus⟩

end Loop

/-! ## Observations come from stored events -/

/-- Every item with an observation has stored events. -/
def Projected (db : Database) : Prop := ∀ obs ∈ db.observations, storedEvents db obs.itemId ≠ []

theorem projected_of_tables {db db' : Database} (h : Projected db)
    (hobs : db'.observations = db.observations) (hraws : db.rawEvents <+: db'.rawEvents) :
    Projected db' := by
  intro obs hmem hnil
  have hkept := storedEvents_prefix hraws obs.itemId
  rw [hnil, List.prefix_nil] at hkept
  exact h obs (hobs ▸ hmem) hkept

theorem rebuildItem_projected {db db' : Database} (hwf : WellFormed db) (hp : Projected db)
    {target : String} (h : rebuildItem db target = .ok db') : Projected db' := by
  intro obs hobs
  rw [storedEvents_congr (rebuildItem_rawEvents hwf h)]
  have hown : obs ∈ (projectedRows db' obs.itemId).observations := mem_ownedBy.mpr ⟨hobs, rfl⟩
  by_cases hempty : history db obs.itemId = []
  · rw [rebuildItem_rows_empty hwf h hempty] at hown
    exact hp obs (mem_ownedBy.mp hown).1
  · exact mt history_eq_nil.mpr hempty

/-- Only rebuilds write observations. -/
theorem exec_projected {db : Database} (hs : Sound db) (hp : Projected db) (call : Call) :
    Projected (exec db call).1 := by
  have hkept : ∀ db' : Database, db'.observations = db.observations →
      db'.rawEvents = db.rawEvents → Projected db' :=
    fun db' hobs hraws => projected_of_tables hp hobs (hraws ▸ List.prefix_rfl)
  cases exec_frame hs call with
  | ingested event receivedAt result isIngest h =>
    rcases ingestEvent_cases h with ⟨_, -, -, hsame, -⟩ | ⟨-, -, hout, ⟨raw, -, -, hraws⟩, -⟩
    · rw [hsame]
      exact hp
    · exact projected_of_tables hp (congrArg Database.observations hout :)
        (hraws ▸ List.prefix_append _ _)
  | rebuilt itemId isRebuild h => exact rebuildItem_projected hs.toWellFormed hp h
  | failed itemId error isRebuild h marked =>
    rw [marked]
    exact hkept _ rfl rfl
  | invalidated body userId isInvalidation h =>
    have hloop : WellFormed (invalidateDevice db body userId).1 ∧
        Projected (invalidateDevice db body userId).1 := by
      refine rebuildAll_invariant (P := fun m => WellFormed m ∧ Projected m) ?_ ?_ ?_ _
      · rintro m n itemId ⟨hm, hmp⟩ hn
        exact ⟨rebuildItem_wellFormed hm hn, rebuildItem_projected hm hmp hn⟩
      · exact ⟨hs.toWellFormed, hp⟩
      · exact ⟨wellFormed_congr hs.toWellFormed rfl rfl rfl le_rfl, hkept _ rfl rfl⟩
    rw [h]
    exact hloop.2
  | configured config isConfigure h =>
    rw [h]
    exact hkept _ rfl rfl
  | other h => exact hkept _ h.observations h.rawEvents

theorem reachable_projected {db : Database} (h : Reachable db) : Projected db := by
  refine (Machine.reachable_invariant (P := fun m => Sound m ∧ Projected m) ?_ ?_ h).2
  · rintro m ⟨config, order, rfl⟩
    exact ⟨sound_initial ⟨config, order, rfl⟩, by simp [Projected]⟩
  · rintro m call ⟨hs, hm⟩
    exact ⟨exec_sound hs call, exec_projected hs hm call⟩

theorem affectedOf_history {db : Database} (hdb : Reachable db) {body : InvalidationInput}
    {itemId : String} (h : itemId ∈ affectedOf db body) : history db itemId ≠ [] := by
  simp only [affectedOf, affectedItems, List.mem_insertionSort, List.mem_dedup, List.mem_map,
    List.mem_filter] at h
  obtain ⟨obs, ⟨hobs, -⟩, rfl⟩ := h
  exact mt history_eq_nil.mp (reachable_projected hdb obs hobs)

theorem affectedOf_nodup (db : Database) (body : InvalidationInput) : (affectedOf db body).Nodup := by
  rw [affectedOf, affectedItems]
  exact (List.perm_insertionSort _ _).nodup_iff.mpr (List.nodup_dedup _)

/-! ## Every position of the failure -/

/-- When a rebuild raises, it is the first one, or the items from there on were marked already or
have nothing to reflect. -/
theorem invalidation_recoverable_iff {rebuild : Database → String → Except ReplayError Database}
    (hrebuild : MayRaise rebuild) {db : Database} (hdb : Reachable db) (body : InvalidationInput)
    (userId : Uuid) :
    Recoverable db body userId (invalidateDeviceBy rebuild db body userId).1 ↔
      ∀ done failed rest m e, affectedOf db body = done ++ failed :: rest →
        done.foldlM rebuild (recorded db body userId) = .ok m → rebuild m failed = .error e →
        done = [] ∨ ∀ itemId ∈ failed :: rest,
          Reflects (recorded db body userId) itemId ∨ Marked db itemId := by
  have hwf : WellFormed (recorded db body userId) :=
    wellFormed_congr (reachable_sound hdb).toWellFormed rfl rfl rfl le_rfl
  have hrecord : ∀ {targets : List String} {m : Database}, targets.foldlM rebuild (recorded db body userId) = .ok m →
      m.controlDeviceInvalidations =
        db.controlDeviceInvalidations ++ [deviceRecord body userId] := fun h =>
    invalidations_of_outside (loop_outside hrebuild hwf h).2
  have hhistory : ∀ itemId ∈ affectedOf db body, history (recorded db body userId) itemId ≠ [] :=
    fun itemId h => affectedOf_history hdb h
  constructor
  · intro hrecoverable done failed rest m e hsplit hdone hfail
    by_cases hnil : done = []
    · exact .inl hnil
    rw [invalidateDeviceBy, hsplit, rebuildAllBy_stops hdone hfail, if_neg hnil] at hrecoverable
    rcases hrecoverable with rfl | ⟨-, hitems⟩
    · -- the committed rebuilds carried the record along
      have hlength := congrArg List.length (hrecord hdone)
      simp at hlength
    · refine .inr fun itemId hmem => ?_
      have hother : itemId ∉ done := by
        have hnodup := affectedOf_nodup db body
        rw [hsplit] at hnodup
        exact fun h => List.disjoint_of_nodup_append hnodup h hmem
      have hitem := hitems itemId (hsplit ▸ List.mem_append_right _ hmem)
      rwa [loop_reflects_other hrebuild hwf hdone hother,
        loop_marked_other hrebuild hwf hdone hother] at hitem
  · intro hfailures
    rcases rebuildAllBy_cases rebuild db (recorded db body userId) (affectedOf db body) with
      ⟨db', hloop, hall⟩ | ⟨done, failed, rest, m, e, hsplit, hdone, hfail, hall⟩
    · rw [invalidateDeviceBy, hall]
      exact .inr ⟨hrecord hloop, fun itemId hmem =>
        .inl (loop_reflects hrebuild hwf hloop hmem (hhistory itemId hmem))⟩
    · rw [invalidateDeviceBy, hall]
      by_cases hnil : done = []
      · rw [if_pos hnil]
        exact .inl rfl
      · rw [if_neg hnil]
        have hrest := (hfailures done failed rest m e hsplit hdone hfail).resolve_left hnil
        refine .inr ⟨hrecord hdone, fun itemId hmem => ?_⟩
        by_cases hdoneItem : itemId ∈ done
        · exact .inl (loop_reflects hrebuild hwf hdone hdoneItem (hhistory itemId hmem))
        · rw [loop_reflects_other hrebuild hwf hdone hdoneItem,
            loop_marked_other hrebuild hwf hdone hdoneItem]
          rw [hsplit] at hmem
          exact hrest itemId ((List.mem_append.mp hmem).resolve_left hdoneItem)

/-! ### Three items of one device -/

/-- The device finds nothing on the item. -/
def deviceGood (eventId itemId : String) (hitem : truthy (some itemId) = true) : EventEnvelope :=
  { deviceSees with
    eventId := eventId
    itemId := some itemId
    item_required := fun _ => hitem
    payload := .inspectionResult
      { inspectionResult := .noDefect
        observationQuality := .good
        controlPointId := "CP-1"
        controlDeviceId := some "device-1"
        validate_defects := nothing_listed } }

/-- A rework whose nonconformance is no UUID, so that the item cannot be rebuilt. -/
def strayRework : EventEnvelope :=
  { reworkStarted with
    itemId := some "item-2"
    item_required := fun _ => rfl
    payload := .operationStarted
      { operationId := "polish"
        operatorId := "operator-1"
        equipmentId := "polisher-1"
        stationId := "station-1"
        runReason := .rework
        reworkForNonconformanceId := some "unknown" } }

def inspectedThree : List Call :=
  [.rebuild "item-1", .ingest (deviceGood "e-1" "item-1" rfl) 11, .rebuild "item-1",
    .rebuild "item-2", .ingest (deviceGood "e-2" "item-2" rfl) 12, .rebuild "item-2",
    .rebuild "item-3", .ingest (deviceGood "e-4" "item-3" rfl) 13, .rebuild "item-3",
    .ingest strayRework 31, .rebuild "item-2"]

def deviceOff : InvalidationInput where
  deviceId := "device-1"
  affectedFrom := 0
  affectedTo := 15
  reason := "out of calibration"

theorem inspectedThree_reachable : Reachable (run {} inspectedThree) :=
  ⟨{}, inspectedThree, ⟨{}, _, rfl⟩, rfl⟩

/-- Without the stray rework every rebuild succeeds. -/
theorem invalidation_recoverable_iff_three_items :
    Recoverable (run {} (inspectedThree.take 9)) deviceOff 100
      (invalidateDeviceBy rebuildItem (run {} (inspectedThree.take 9)) deviceOff 100).1 := by
  have hreachable : Reachable (run {} (inspectedThree.take 9)) :=
    ⟨{}, inspectedThree.take 9, ⟨{}, _, rfl⟩, rfl⟩
  have hall : ((affectedOf (run {} (inspectedThree.take 9)) deviceOff).foldlM rebuildItem
      (recorded (run {} (inspectedThree.take 9)) deviceOff 100)).isOk = true := by decide +kernel
  refine (invalidation_recoverable_iff (fun _ _ _ h => h) hreachable deviceOff 100).mpr ?_
  intro done failed rest m e hsplit hdone hfail
  rw [hsplit, List.foldlM_append, hdone] at hall
  change ((failed :: rest).foldlM rebuildItem m).isOk = true at hall
  rw [List.foldlM_cons, hfail] at hall
  cases hall

/-- The second of three rebuilds raises: the invalidation is committed, and the third item keeps a
trusted observation of the device in a projection that nothing marks. -/
theorem invalidation_forgets_items : ¬ ∀ (db : Database) (body : InvalidationInput) (userId : Uuid),
    Reachable db → Recoverable db body userId (invalidateDevice db body userId).1 := by
  intro h
  rcases h (run {} inspectedThree) deviceOff 100 inspectedThree_reachable with heq | ⟨-, hitems⟩
  · have hcount : ((invalidateDevice (run {} inspectedThree) deviceOff 100).1
        ).controlDeviceInvalidations.length = 1 := by decide +kernel
    rw [heq] at hcount
    revert hcount
    decide +kernel
  · have haffected : "item-3" ∈ affectedOf (run {} inspectedThree) deviceOff := by decide +kernel
    rcases hitems "item-3" haffected with ⟨⟨-, hrows⟩, -⟩ | ⟨state, hstate, hid, hstatus⟩
    · obtain ⟨runs, -, hrows⟩ := map_ok.mp hrows
      have htrust := congrArg (fun rows => rows.observations.map (·.trustStatus)) hrows
      have hreplayed : ((replay (invalidateDevice (run {} inspectedThree) deviceOff 100).1
          "item-3").observations.map (observationRow "item-3")).map (·.trustStatus) =
            [.invalidated] := by decide +kernel
      have hprojected : (projectedRows (invalidateDevice (run {} inspectedThree) deviceOff 100).1
          "item-3").observations.map (·.trustStatus) = [.trusted] := by decide +kernel
      rw [hprojected] at htrust
      rw [hreplayed] at htrust
      revert htrust
      decide
    · have hup : ∀ state ∈ ((invalidateDevice (run {} inspectedThree) deviceOff 100).1
          ).projectionStates, state.itemId = "item-3" → state.status = .upToDate := by decide +kernel
      rw [hup state hstate hid] at hstatus
      revert hstatus
      decide

end TraceQ.Properties
