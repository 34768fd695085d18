import TraceQ.Projections.LinkingMeaning

/-! # What a rebuild means

A successful rebuild replaces the rows of its item by the projection of the stored events, extends
the case files by the sightings of the replay, and touches nothing of any other item.
-/
namespace TraceQ.Projections
open Quality Tables Results
set_option autoImplicit false
set_option maxHeartbeats 250000

/-! ## What the replay reads -/

/-- The sightings of the replay of an item. -/
def itemSightings (db : Database) (itemId : String) : List Sighting :=
  sightings (replay db itemId).observations

/-- What the analyses of the item look at. -/
def itemContext (db : Database) (itemId : String) : AnalysisContext :=
  analysisContext db itemId (replay db itemId)

theorem storedEvents_congr {db db' : Database} (h : db'.rawEvents = db.rawEvents) (itemId : String) :
    storedEvents db' itemId = storedEvents db itemId := by
  rw [storedEvents, storedEvents, h]

theorem history_congr {db db' : Database} (h : db'.rawEvents = db.rawEvents) (itemId : String) :
    history db' itemId = history db itemId := by
  rw [history, history, storedEvents_congr h]

theorem mem_history {db : Database} {itemId : String} {raw : RawEvent} :
    raw ∈ history db itemId ↔ raw ∈ storedEvents db itemId := by
  rw [history, List.mem_insertionSort]

/-- An event is replayed alike under the same policies and the same reach of the invalidations. -/
theorem replayEvent_congr {db db' : Database} (hconfig : db'.config = db.config)
    (hinv : ∀ deviceId time, deviceInvalidated db'.controlDeviceInvalidations deviceId time =
      deviceInvalidated db.controlDeviceInvalidations deviceId time) :
    replayEvent db' = replayEvent db := by
  funext values raw
  cases hpayload : raw.payload <;> simp only [replayEvent, hpayload, observationValue, hconfig, hinv]

/-- A replay reads the stored events, the trust policies and the invalidations, nothing else. -/
theorem replay_congr {db db' : Database} (hraw : db'.rawEvents = db.rawEvents)
    (hconfig : db'.config = db.config)
    (hinv : db'.controlDeviceInvalidations = db.controlDeviceInvalidations) (itemId : String) :
    replay db' itemId = replay db itemId := by
  rw [replay, replay, history_congr hraw, replayEvent_congr hconfig fun _ _ => by rw [hinv]]

/-! ## Owners of the projected rows -/

theorem operationRunRow_item {itemId : String} {run : OperationValue} {row : OperationRun}
    (h : operationRunRow itemId run = .ok row) : row.itemId = itemId := by
  unfold operationRunRow at h
  obtain ⟨rework, -, h⟩ := bind_ok.mp h
  rw [← pure_ok.mp h]

theorem operationRunRows_item {itemId : String} {runs : List OperationValue}
    {rows : List OperationRun} (h : operationRunRows itemId runs = .ok rows) :
    ∀ row ∈ rows, row.itemId = itemId := by
  induction runs generalizing rows with
  | nil =>
    simp only [operationRunRows, Except.ok.injEq] at h
    simp [← h]
  | cons run rest ih =>
    simp only [operationRunRows] at h
    obtain ⟨row, hrow, h⟩ := bind_ok.mp h
    obtain ⟨others, hothers, h⟩ := bind_ok.mp h
    rw [← pure_ok.mp h]
    intro row' hrow'
    rcases List.mem_cons.mp hrow' with rfl | hmem
    · exact operationRunRow_item hrow
    · exact ih hothers row' hmem

theorem map_row_item {α β : Type} {row : β → α} {ownerOf : α → String} {itemId : String}
    (h : ∀ value, ownerOf (row value) = itemId) {values : List β} :
    ∀ r ∈ values.map row, ownerOf r = itemId := by
  intro r hr
  obtain ⟨value, -, rfl⟩ := List.mem_map.mp hr
  exact h value

theorem observationRows_item (itemId : String) (values : List ObservationValue) :
    ∀ row ∈ values.map (observationRow itemId), row.itemId = itemId := by
  refine map_row_item ?_
  exact fun _ => rfl

theorem machineEventRows_item (itemId : String) (values : List MachineValue) :
    ∀ row ∈ values.map (machineEventRow itemId), row.itemId = itemId := by
  refine map_row_item ?_
  exact fun _ => rfl

theorem operatorActionRows_item (itemId : String) (values : List ActionValue) :
    ∀ row ∈ values.map (operatorActionRow itemId), row.itemId = itemId := by
  refine map_row_item ?_
  exact fun _ => rfl

theorem defectObservationRows_item (itemId : String) (values : List ObservationValue) :
    ∀ row ∈ values.flatMap (defectObservationRows itemId), row.itemId = itemId := by
  intro row hrow
  obtain ⟨value, -, hvalue⟩ := List.mem_flatMap.mp hrow
  obtain ⟨defect, -, rfl⟩ := List.mem_map.mp hvalue
  rfl

/-! ## Storing -/

/-- The keys of the rows that are inserted are unique, also among the rows of other items. -/
def Insertable {α κ : Type} (ownerOf : α → String) (key : α → κ) (itemId : String) (rows fresh : List α) :
    Prop :=
  (fresh.map key).Nodup ∧ ∀ row ∈ rows, ownerOf row ≠ itemId → ∀ new ∈ fresh, key row ≠ key new

theorem replaceRows_ok_iff {α κ : Type} [DecidableEq κ] {ownerOf : α → String} {key : α → κ}
    {itemId : String} {rows fresh out : List α} :
    replaceRows ownerOf key itemId rows fresh = .ok out ↔
      Insertable ownerOf key itemId rows fresh ∧ out = replaceOwned ownerOf itemId rows fresh := by
  unfold replaceRows
  split
  · rename_i hkeys
    exact ⟨fun h => ⟨hkeys, (Except.ok.inj h).symm⟩, fun h => by rw [h.2]⟩
  · rename_i hkeys
    exact ⟨nofun, fun h => absurd h.1 hkeys⟩

theorem referencesPresent_iff {order : InsertOrder} {rows : List DefectObservation} :
    referencesPresent order rows = true ↔ (order = .byClassName → rows = []) := by
  cases order <;> simp [referencesPresent]

/-- The new rows find what they refer to, every value can be stored and every key is unused. -/
structure Storable (db : Database) (itemId : String) (values : ReplayValues) (runs : List OperationRun) :
    Prop where
  references : referencesPresent db.insertOrder
    (values.observations.flatMap (defectObservationRows itemId)) = true
  storable : valuesStorable values = true
  operationRuns : Insertable (·.itemId) (·.operationRunId) itemId db.operationRuns runs
  observations : Insertable (·.itemId) (·.eventId) itemId db.observations
    (values.observations.map (observationRow itemId))
  machineEvents : Insertable (·.itemId) (·.eventId) itemId db.machineEvents
    (values.machineEvents.map (machineEventRow itemId))
  operatorActions : Insertable (·.itemId) (·.eventId) itemId db.operatorActions
    (values.operatorActions.map (operatorActionRow itemId))

/-- What a flush that succeeds did, and when it does. -/
theorem storeProjection_ok_iff {db stored : Database} {itemId : String} {values : ReplayValues} :
    storeProjection db itemId values = .ok stored ↔
      ∃ runs, operationRunRows itemId values.operations = .ok runs ∧ Storable db itemId values runs ∧
        stored =
          { db with
            operationRuns := replaceOwned (·.itemId) itemId db.operationRuns runs
            observations := replaceOwned (·.itemId) itemId db.observations
              (values.observations.map (observationRow itemId))
            defectObservations := replaceOwned (·.itemId) itemId db.defectObservations
              (values.observations.flatMap (defectObservationRows itemId))
            machineEvents := replaceOwned (·.itemId) itemId db.machineEvents
              (values.machineEvents.map (machineEventRow itemId))
            operatorActions := replaceOwned (·.itemId) itemId db.operatorActions
              (values.operatorActions.map (operatorActionRow itemId)) } := by
  constructor
  · intro h
    obtain ⟨runs, hruns, h⟩ := bind_ok.mp h
    obtain ⟨_, hreferences, h⟩ := bind_ok.mp h
    obtain ⟨_, hstorable, h⟩ := bind_ok.mp h
    obtain ⟨operationRuns, hoperation, h⟩ := bind_ok.mp h
    obtain ⟨observations, hobservation, h⟩ := bind_ok.mp h
    obtain ⟨machineEvents, hmachine, h⟩ := bind_ok.mp h
    obtain ⟨operatorActions, haction, h⟩ := bind_ok.mp h
    obtain ⟨hruns', rfl⟩ := replaceRows_ok_iff.mp hoperation
    obtain ⟨hobs', rfl⟩ := replaceRows_ok_iff.mp hobservation
    obtain ⟨hmachines', rfl⟩ := replaceRows_ok_iff.mp hmachine
    obtain ⟨hactions', rfl⟩ := replaceRows_ok_iff.mp haction
    exact ⟨runs, hruns, ⟨demand_ok.mp hreferences, demand_ok.mp hstorable, hruns', hobs', hmachines', hactions'⟩,
      (pure_ok.mp h).symm⟩
  · rintro ⟨runs, hruns, h, rfl⟩
    exact bind_ok.mpr ⟨runs, hruns, bind_ok.mpr ⟨(), demand_ok.mpr h.references, bind_ok.mpr ⟨(),
      demand_ok.mpr h.storable, bind_ok.mpr ⟨_, replaceRows_ok_iff.mpr ⟨h.operationRuns, rfl⟩,
        bind_ok.mpr ⟨_, replaceRows_ok_iff.mpr ⟨h.observations, rfl⟩,
          bind_ok.mpr ⟨_, replaceRows_ok_iff.mpr ⟨h.machineEvents, rfl⟩,
            bind_ok.mpr ⟨_, replaceRows_ok_iff.mpr ⟨h.operatorActions, rfl⟩, rfl⟩⟩⟩⟩⟩⟩⟩

theorem storeProjection_succeeds_iff {db : Database} {itemId : String} {values : ReplayValues} :
    (∃ stored, storeProjection db itemId values = .ok stored) ↔
      ∃ runs, operationRunRows itemId values.operations = .ok runs ∧ Storable db itemId values runs := by
  simp only [storeProjection_ok_iff]
  exact ⟨fun ⟨_, runs, hruns, h, _⟩ => ⟨runs, hruns, h⟩, fun ⟨runs, hruns, h⟩ => ⟨_, runs, hruns, h, rfl⟩⟩

/-! ## The steps of a rebuild -/

theorem storeProjection_nodup {db stored : Database} {itemId : String} {values : ReplayValues}
    (h : storeProjection db itemId values = .ok stored) :
    (values.observations.map (·.eventId)).Nodup := by
  obtain ⟨runs, -, hstorable, -⟩ := storeProjection_ok_iff.mp h
  have hnodup := hstorable.observations.1
  rw [List.map_map] at hnodup
  exact hnodup

theorem storeProjection_ok {db stored : Database} {itemId : String} {values : ReplayValues}
    (h : storeProjection db itemId values = .ok stored) :
    ∃ runs, operationRunRows itemId values.operations = .ok runs ∧
      stored =
        { db with
          operationRuns := replaceOwned (·.itemId) itemId db.operationRuns runs
          observations := replaceOwned (·.itemId) itemId db.observations
            (values.observations.map (observationRow itemId))
          defectObservations := replaceOwned (·.itemId) itemId db.defectObservations
            (values.observations.flatMap (defectObservationRows itemId))
          machineEvents := replaceOwned (·.itemId) itemId db.machineEvents
            (values.machineEvents.map (machineEventRow itemId))
          operatorActions := replaceOwned (·.itemId) itemId db.operatorActions
            (values.operatorActions.map (operatorActionRow itemId)) } := by
  obtain ⟨runs, hruns, -, hstored⟩ := storeProjection_ok_iff.mp h
  exact ⟨runs, hruns, hstored⟩

/-- Everything a successful rebuild can do. -/
theorem rebuildItem_cases {db db' : Database} {itemId : String}
    (h : rebuildItem db itemId = .ok db') :
    (history db itemId = [] ∧
      db' = updateState db itemId fun state => { state with status := .upToDate }) ∨
    (history db itemId ≠ [] ∧ ∃ stored registered linked,
      storeProjection db itemId (replay db itemId) = .ok stored ∧
      registered = projectItem stored itemId (replay db itemId).item ∧
      linkSightings itemId (analysisContext registered itemId (replay db itemId)) registered
        (itemSightings db itemId) = .ok linked ∧
      db' = updateState linked itemId (projected (history db itemId))) := by
  unfold rebuildItem at h
  cases hraws : history db itemId with
  | nil =>
    rw [hraws] at h
    exact .inl ⟨rfl, (Except.ok.inj h).symm⟩
  | cons raw rest =>
    rw [hraws] at h
    obtain ⟨stored, hstored, h⟩ := bind_ok.mp h
    obtain ⟨linked, hlinked, h⟩ := bind_ok.mp h
    exact .inr ⟨List.cons_ne_nil _ _, stored, _, linked, hstored, rfl, hlinked, (pure_ok.mp h).symm⟩

/-- Without events there is nothing to replay. -/
theorem replay_of_no_history {db : Database} {itemId : String} (h : history db itemId = []) :
    replay db itemId = {} := by
  rw [replay, h]
  rfl

theorem itemSightings_of_no_history {db : Database} {itemId : String}
    (h : history db itemId = []) : itemSightings db itemId = [] := by
  rw [itemSightings, replay_of_no_history h]
  rfl

/-! ## Tables of other concerns -/

/-- What no rebuild ever writes. -/
def outsideProjection (db : Database) : Database :=
  { outsideCases db with
    projectionStates := []
    items := []
    operationRuns := []
    observations := []
    defectObservations := []
    machineEvents := []
    operatorActions := [] }

theorem outsideProjection_projectItem (db : Database) (itemId : String) (value : Option ItemValue) :
    outsideProjection (projectItem db itemId value) = outsideProjection db := by
  unfold projectItem
  cases value with
  | none => rfl
  | some value => cases findItem db itemId <;> rfl

theorem outsideProjection_of_outsideCases {db db' : Database}
    (h : outsideCases db' = outsideCases db) : outsideProjection db' = outsideProjection db := by
  rw [outsideProjection, outsideProjection, h]

/-- A write outside the case tables, which may draw new keys. -/
structure SameCases (db db' : Database) : Prop where
  occurrences : db'.defectOccurrences = db.defectOccurrences
  nonconformances : db'.nonconformances = db.nonconformances
  versions : db'.analysisVersions = db.analysisVersions
  evidence : db'.analysisEvidence = db.analysisEvidence
  nextId : db.nextId ≤ db'.nextId

theorem sameCases_projectItem (db : Database) (itemId : String) (value : Option ItemValue) :
    SameCases db (projectItem db itemId value) := by
  unfold projectItem
  cases value with
  | none => exact ⟨rfl, rfl, rfl, rfl, le_rfl⟩
  | some value => cases findItem db itemId <;> exact ⟨rfl, rfl, rfl, rfl, le_rfl⟩

theorem SameCases.wellFormed {db db' : Database} (hsame : SameCases db db') (h : WellFormed db) :
    WellFormed db' :=
  wellFormed_congr h hsame.occurrences hsame.nonconformances hsame.versions hsame.nextId

theorem SameCases.caseFiles {db db' : Database} (hsame : SameCases db db') :
    Projections.caseFiles db' = Projections.caseFiles db := by
  have hfile : fileOf db' = fileOf db := by
    funext o
    simp only [fileOf, findNcr, logOf, versionsOf, hsame.nonconformances, hsame.versions]
  funext defect
  rw [Projections.caseFiles, Projections.caseFiles, hfile, findOpenOccurrence, findOpenOccurrence,
    hsame.occurrences]

theorem SameCases.grows {db db' : Database} (hsame : SameCases db db') : Grows db db' :=
  ⟨⟨[], by simp [hsame.occurrences]⟩, ⟨[], by simp [hsame.nonconformances]⟩, hsame.nextId⟩

/-- The projected tables without those the linking loop or the registration writes. -/
structure SameRows (db db' : Database) : Prop where
  operationRuns : db'.operationRuns = db.operationRuns
  observations : db'.observations = db.observations
  defectObservations : db'.defectObservations = db.defectObservations
  machineEvents : db'.machineEvents = db.machineEvents
  operatorActions : db'.operatorActions = db.operatorActions

theorem sameRows_projectItem (db : Database) (itemId : String) (value : Option ItemValue) :
    SameRows db (projectItem db itemId value) := by
  unfold projectItem
  cases value with
  | none => exact ⟨rfl, rfl, rfl, rfl, rfl⟩
  | some value => cases findItem db itemId <;> exact ⟨rfl, rfl, rfl, rfl, rfl⟩

theorem sameRows_of_outsideCases {db db' : Database} (h : outsideCases db' = outsideCases db) :
    SameRows db db' :=
  ⟨(congrArg Database.operationRuns h :), (congrArg Database.observations h :),
    (congrArg Database.defectObservations h :), (congrArg Database.machineEvents h :),
    (congrArg Database.operatorActions h :)⟩

theorem SameRows.trans {a b c : Database} (hab : SameRows a b) (hbc : SameRows b c) :
    SameRows a c :=
  ⟨hbc.operationRuns.trans hab.operationRuns, hbc.observations.trans hab.observations,
    hbc.defectObservations.trans hab.defectObservations,
    hbc.machineEvents.trans hab.machineEvents, hbc.operatorActions.trans hab.operatorActions⟩

/-- A rebuild with events stores the projection, and nothing after that but the registration of the
item writes its rows. -/
theorem rebuildItem_stores {db db' : Database} (hwf : WellFormed db) {itemId : String}
    (h : rebuildItem db itemId = .ok db') (hraws : history db itemId ≠ []) :
    ∃ stored, storeProjection db itemId (replay db itemId) = .ok stored ∧ SameRows stored db' ∧
      db'.items = (projectItem stored itemId (replay db itemId).item).items := by
  rcases rebuildItem_cases h with ⟨hnil, -⟩ | ⟨-, stored, _, linked, hstored, rfl, hlinked, rfl⟩
  · exact absurd hnil hraws
  · obtain ⟨runs, -, hdb⟩ := storeProjection_ok hstored
    have hregistered : WellFormed (projectItem stored itemId (replay db itemId).item) := by
      refine (sameCases_projectItem stored itemId _).wellFormed ?_
      rw [hdb]
      exact wellFormed_congr hwf rfl rfl rfl le_rfl
    have hcases := linkSightings_outsideCases hregistered hlinked
    have hlinkedRows := (sameRows_projectItem stored itemId _).trans (sameRows_of_outsideCases hcases)
    exact ⟨stored, hstored, hlinkedRows.trans ⟨rfl, rfl, rfl, rfl, rfl⟩,
      (congrArg Database.items hcases :)⟩

/-- A rebuild is a write of the projection tables followed by the linking loop. -/
theorem rebuildItem_links {db db' : Database} {itemId : String}
    (h : rebuildItem db itemId = .ok db') :
    ∃ registered linked, SameCases db registered ∧
      outsideProjection registered = outsideProjection db ∧
      linkSightings itemId (analysisContext registered itemId (replay db itemId)) registered
        (itemSightings db itemId) = .ok linked ∧
      SameCases linked db' ∧ outsideProjection db' = outsideProjection linked ∧
      db'.items = linked.items := by
  rcases rebuildItem_cases h with ⟨hraws, rfl⟩ | ⟨-, stored, registered, linked, hstored, rfl,
    hlinked, rfl⟩
  · refine ⟨db, db, ⟨rfl, rfl, rfl, rfl, le_rfl⟩, rfl, ?_, ⟨rfl, rfl, rfl, rfl, le_rfl⟩, rfl, rfl⟩
    rw [itemSightings_of_no_history hraws]
    rfl
  · obtain ⟨runs, -, hdb⟩ := storeProjection_ok hstored
    have hsame : SameCases db stored := by rw [hdb]; exact ⟨rfl, rfl, rfl, rfl, le_rfl⟩
    have houtside : outsideProjection stored = outsideProjection db := by rw [hdb]; rfl
    have hitem := sameCases_projectItem stored itemId (replay db itemId).item
    refine ⟨_, linked, ?_, ?_, hlinked, ⟨rfl, rfl, rfl, rfl, le_rfl⟩, rfl, rfl⟩
    · exact ⟨hitem.occurrences.trans hsame.occurrences,
        hitem.nonconformances.trans hsame.nonconformances, hitem.versions.trans hsame.versions,
        hitem.evidence.trans hsame.evidence, hsame.nextId.trans hitem.nextId⟩
    · rw [outsideProjection_projectItem, houtside]

theorem rebuildItem_outside {db db' : Database} (hwf : WellFormed db) {itemId : String}
    (h : rebuildItem db itemId = .ok db') : outsideProjection db' = outsideProjection db := by
  obtain ⟨registered, linked, hsame, hout, hlinked, -, hout', -⟩ := rebuildItem_links h
  have hcases := linkSightings_outsideCases (hsame.wellFormed hwf) hlinked
  rw [hout', outsideProjection_of_outsideCases hcases, hout]

section Frame
variable {db db' : Database} (h : outsideProjection db' = outsideProjection db)
include h

theorem rawEvents_of_outside : db'.rawEvents = db.rawEvents :=
  (congrArg Database.rawEvents h :)

theorem insertOrder_of_outside : db'.insertOrder = db.insertOrder := (congrArg Database.insertOrder h :)

theorem config_of_outside : db'.config = db.config := (congrArg Database.config h :)

theorem invalidations_of_outside :
    db'.controlDeviceInvalidations = db.controlDeviceInvalidations :=
  (congrArg Database.controlDeviceInvalidations h :)

theorem history_of_outside (itemId : String) : history db' itemId = history db itemId :=
  history_congr (rawEvents_of_outside h) itemId

theorem replay_of_outside (itemId : String) : replay db' itemId = replay db itemId :=
  replay_congr (rawEvents_of_outside h) (config_of_outside h) (invalidations_of_outside h) itemId

theorem itemSightings_of_outside (itemId : String) :
    itemSightings db' itemId = itemSightings db itemId := by
  rw [itemSightings, itemSightings, replay_of_outside h]

end Frame

/-! ## The case tables after a rebuild -/

theorem rebuildItem_wellFormed {db db' : Database} (hwf : WellFormed db) {itemId : String}
    (h : rebuildItem db itemId = .ok db') : WellFormed db' := by
  obtain ⟨registered, linked, hsame, -, hlinked, hsame', -, -⟩ := rebuildItem_links h
  exact hsame'.wellFormed (linkSightings_wellFormed (hsame.wellFormed hwf) hlinked)

theorem rebuildItem_grows {db db' : Database} (hwf : WellFormed db) {itemId : String}
    (h : rebuildItem db itemId = .ok db') : Grows db db' := by
  obtain ⟨registered, linked, hsame, -, hlinked, hsame', -, -⟩ := rebuildItem_links h
  exact (hsame.grows.trans (linkSightings_grows (hsame.wellFormed hwf) hlinked)).trans hsame'.grows

/-- The linking loop of a rebuild works in the context the item has afterwards. -/
theorem rebuildItem_links_after {db db' : Database} (hwf : WellFormed db) {itemId : String}
    (h : rebuildItem db itemId = .ok db') :
    ∃ registered linked, SameCases db registered ∧
      linkSightings itemId (itemContext db' itemId) registered (itemSightings db itemId) =
        .ok linked ∧ SameCases linked db' := by
  have hout := rebuildItem_outside hwf h
  obtain ⟨registered, linked, hsame, hreg, hlinked, hsame', -, hitems⟩ := rebuildItem_links h
  have hcases := linkSightings_outsideCases (hsame.wellFormed hwf) hlinked
  have hlinkedItems : linked.items = registered.items := (congrArg Database.items hcases :)
  have hconfig : registered.config = db'.config :=
    (config_of_outside hreg).trans (config_of_outside hout).symm
  have hcontext : analysisContext registered itemId (replay db itemId) = itemContext db' itemId := by
    rw [itemContext, replay_of_outside hout, analysisContext, analysisContext, findItem, findItem,
      hitems, hlinkedItems, hconfig]
  rw [hcontext] at hlinked
  exact ⟨registered, linked, hsame, hlinked, hsame'⟩

section AfterRebuild
variable {db db' : Database} (hwf : WellFormed db) {itemId : String}
  (h : rebuildItem db itemId = .ok db')
include hwf h

/-- The log of a defect after a rebuild. -/
theorem rebuildItem_log (key : DefectKey) :
    ((caseFiles db' (itemId, key)).map (·.log)).getD [] =
      ChangeLog.pushAll (((caseFiles db (itemId, key)).map (·.log)).getD [])
        (assessments (itemContext db' itemId) key (itemSightings db itemId)) := by
  obtain ⟨registered, linked, hsame, hlinked, hsame'⟩ := rebuildItem_links_after hwf h
  rw [hsame'.caseFiles, log_after (hsame.wellFormed hwf) hlinked, hsame.caseFiles]

/-- The opening of a defect after a rebuild. -/
theorem rebuildItem_opening (key : DefectKey) :
    (caseFiles db' (itemId, key)).map (·.opening) =
      ((caseFiles db (itemId, key)).map (·.opening)).or
        ((ofKey key (itemSightings db itemId)).head?.map openingOf) := by
  obtain ⟨registered, linked, hsame, hlinked, hsame'⟩ := rebuildItem_links_after hwf h
  rw [hsame'.caseFiles, opening_after (hsame.wellFormed hwf) hlinked, hsame.caseFiles]

/-- After a rebuild every defect the replay reports has an open case. -/
theorem rebuildItem_opens {sighting : Sighting} (hs : sighting ∈ itemSightings db itemId) :
    (caseFiles db' (itemId, sighting.key)).isSome = true := by
  have hopening := rebuildItem_opening hwf h sighting.key
  have hhead : (ofKey sighting.key (itemSightings db itemId)).head?.isSome = true := by
    rw [List.isSome_head?, ← List.length_pos_iff]
    exact List.length_pos_of_mem (mem_ofKey.mpr ⟨hs, rfl⟩)
  rw [← Option.isSome_map, hopening, Option.isSome_or, Option.isSome_map, Option.isSome_map, hhead,
    Bool.or_true]

theorem rebuildItem_assess_ok :
    ∀ s ∈ itemSightings db itemId, ∃ a, assess (itemContext db' itemId) s = .ok a := by
  obtain ⟨registered, linked, -, hlinked, -⟩ := rebuildItem_links_after hwf h
  exact linkSightings_assess_ok hlinked

end AfterRebuild

end TraceQ.Projections
