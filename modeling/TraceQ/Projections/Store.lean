import TraceQ.Projections.Replay

/-! # Writing the projection tables

The middle part of `rebuild_item`: the rows of the item are deleted and written anew, and the
`Item` row is created or updated from the last registration.
-/
namespace TraceQ.Projections
open Quality Tables
set_option autoImplicit false
set_option maxHeartbeats 250000

/-! ## `uuid.UUID` -/

/-- `text.replace(pattern, "")`; the counter skips the rest of a match. -/
def removeAll (pattern : List Char) : ℕ → List Char → List Char
  | _, [] => []
  | skip + 1, _ :: rest => removeAll pattern skip rest
  | 0, c :: rest =>
      if pattern.isPrefixOf (c :: rest) then removeAll pattern (pattern.length - 1) rest
      else c :: removeAll pattern 0 rest

/-- `text.strip("{}")`. -/
def stripBraces (text : List Char) : List Char :=
  let brace := fun c => c == '{' || c == '}'
  ((text.dropWhile brace).reverse.dropWhile brace).reverse

def hexDigit (c : Char) : Option ℕ :=
  if '0' ≤ c ∧ c ≤ '9' then some (c.toNat - 48)
  else if 'a' ≤ c ∧ c ≤ 'f' then some (c.toNat - 87)
  else if 'A' ≤ c ∧ c ≤ 'F' then some (c.toNat - 55)
  else none

/-- The decimal digits zero of Unicode 15 outside ASCII; the digits one to nine follow each of them. -/
def decimalZeros : List ℕ :=
  [0x660, 0x6f0, 0x7c0, 0x966, 0x9e6, 0xa66, 0xae6, 0xb66, 0xbe6, 0xc66, 0xce6, 0xd66, 0xde6, 0xe50, 0xed0,
    0xf20, 0x1040, 0x1090, 0x17e0, 0x1810, 0x1946, 0x19d0, 0x1a80, 0x1a90, 0x1b50, 0x1bb0, 0x1c40, 0x1c50,
    0xa620, 0xa8d0, 0xa900, 0xa9d0, 0xa9f0, 0xaa50, 0xabf0, 0xff10, 0x104a0, 0x10d30, 0x11066, 0x110f0,
    0x11136, 0x111d0, 0x112f0, 0x11450, 0x114d0, 0x11650, 0x116c0, 0x11730, 0x118e0, 0x11950, 0x11c50,
    0x11d50, 0x11da0, 0x11f50, 0x16a60, 0x16ac0, 0x16b50, 0x1d7ce, 0x1d7d8, 0x1d7e2, 0x1d7ec, 0x1d7f6,
    0x1e140, 0x1e2f0, 0x1e4f0, 0x1e950, 0x1fbf0]

/-- The white space outside ASCII. -/
def unicodeSpaces : List ℕ :=
  [0x85, 0xa0, 0x1680, 0x2000, 0x2001, 0x2002, 0x2003, 0x2004, 0x2005, 0x2006, 0x2007, 0x2008, 0x2009, 0x200a,
    0x2028, 0x2029, 0x202f, 0x205f, 0x3000]

/-- `int` reads a decimal digit of any script as that of ASCII, and any white space as a space. -/
def toAscii (c : Char) : Char :=
  if c.toNat < 127 then c
  else if unicodeSpaces.contains c.toNat then ' '
  else
    match decimalZeros.find? fun first => decide (first ≤ c.toNat ∧ c.toNat < first + 10) with
    | some first => Char.ofNat (48 + (c.toNat - first))
    | none => c

def asciiSpace (c : Char) : Bool := c == ' ' || (decide (9 ≤ c.toNat) && decide (c.toNat ≤ 13))

/-- `text.strip()` over the white space of ASCII. -/
def stripSpaces (text : List Char) : List Char :=
  ((text.dropWhile asciiSpace).reverse.dropWhile asciiSpace).reverse

/-- `0x` may stand before the digits, and one underscore after it. -/
def dropHexMark (text : List Char) : List Char :=
  match text with
  | first :: mark :: rest =>
      if first = '0' ∧ (mark = 'x' ∨ mark = 'X') then
        match rest with
        | c :: digits => if c = '_' then digits else rest
        | [] => rest
      else text
  | _ => text

/-- The value of hexadecimal digits with single underscores between them; `digit` tells whether one is just
before. -/
def hexValue : Bool → ℕ → List Char → Option ℕ
  | digit, value, [] => if digit then some value else none
  | digit, value, c :: rest =>
      if c = '_' then if digit then hexValue false value rest else none
      else
        match hexDigit c with
        | some d => hexValue true (16 * value + d) rest
        | none => none

/-- `int(text, 16)` of a text without `-`. -/
def intOfHex (text : List Char) : Option ℕ :=
  let trimmed := stripSpaces (text.map toAscii)
  let unsigned := match trimmed with
    | c :: rest => if c = '+' then rest else trimmed
    | [] => trimmed
  hexValue false 0 (dropHexMark unsigned)

/-- `uuid.UUID(text)`: what is left without `urn:`, `uuid:`, braces and hyphens has to be of 32 characters that
`int(_, 16)` reads. -/
def parseUuid (text : String) : Except ReplayError Uuid :=
  let hex := (stripBraces (removeAll "uuid:".toList 0 (removeAll "urn:".toList 0 text.toList))).filter
    fun c => c != '-'
  if hex.length = 32 then
    match intOfHex hex with
    | some value => .ok value
    | none => .error .badUuid
  else .error .badUuid

example : parseUuid "urn:uuid:\x7b00000000-0000-0000-0000-00000000002a\x7d" = .ok 42 := by decide +kernel
example : parseUuid " 0X_0000_0000000000000000000002a" = .ok 42 := by decide +kernel
example : parseUuid "000000000000000000000000000000_\x09" = .error .badUuid := by decide +kernel

/-! ## Rows -/

/-- `a or b` on optional dicts: the empty dict is falsy. -/
def paramsOr (a b : Option Params) : Option Params :=
  match a with
  | some (_ :: _) => a
  | _ => b

/-- `uuid.UUID(text) if text else None`. -/
def reworkReference (text : Option String) : Except ReplayError (Option Uuid) :=
  match text with
  | none => .ok none
  | some text => if text.isEmpty then .ok none else (parseUuid text).map some

def operationRunRow (itemId : String) (run : OperationValue) : Except ReplayError OperationRun := do
  let rework ← reworkReference run.reworkForNonconformanceId
  return {
    operationRunId := run.operationRunId
    itemId := itemId
    operationId := run.operationId
    operatorId := run.operatorId
    equipmentId := run.equipmentId
    stationId := run.stationId
    startedAt := run.startedAt
    finishedAt := run.finishedAt
    completionStatus := run.completionStatus
    durationValue := run.duration.map (·.value)
    durationUnit := run.duration.map (·.unit)
    durationMeaning := run.duration.map (·.meaning)
    previousOperationRunId := run.previousOperationRunId
    runReason := run.runReason
    reworkForNonconformanceId := rework
    parameters := paramsOr run.parameters run.finishParameters }

/-- The rows of all runs; one malformed reference aborts them all. -/
def operationRunRows (itemId : String) : List OperationValue → Except ReplayError (List OperationRun)
  | [] => .ok []
  | run :: rest => do
      let row ← operationRunRow itemId run
      let rows ← operationRunRows itemId rest
      return row :: rows

def observationRow (itemId : String) (value : ObservationValue) : Observation where
  id := ⟨value.eventId⟩
  eventId := value.eventId
  itemId := itemId
  operationRunId := value.operationRunId
  occurredAt := value.occurredAt
  inspectionResult := value.payload.inspectionResult
  observationQuality := value.payload.observationQuality
  controlPointId := value.payload.controlPointId
  confidence := value.payload.confidence
  inspectionScope := value.payload.inspectionScope
  componentInstanceId := value.payload.componentInstanceId
  controlDeviceId := value.payload.controlDeviceId
  captureSessionId := value.payload.captureSessionId
  evidenceRefs := value.payload.evidenceRefs
  trustStatus := value.trustStatus
  trustReasons := value.trustReasons

/-- One row per listed defect, whatever the inspection result says. -/
def defectObservationRows (itemId : String) (value : ObservationValue) : List DefectObservation :=
  value.payload.defects.map fun defect =>
    { observationId := ⟨value.eventId⟩
      itemId := itemId
      defectType := defect.defectType
      componentInstanceId := pyOr defect.componentInstanceId value.payload.componentInstanceId
      description := defect.description
      severity := defect.severity }

def machineEventRow (itemId : String) (value : MachineValue) : MachineEvent where
  eventId := value.eventId
  itemId := itemId
  operationRunId := value.operationRunId
  equipmentId := value.payload.equipmentId
  state := value.payload.state
  code := value.payload.code
  occurredAt := value.occurredAt
  parameters := value.payload.parameters

def operatorActionRow (itemId : String) (value : ActionValue) : OperatorAction where
  eventId := value.eventId
  itemId := itemId
  operationRunId := value.operationRunId
  operatorId := value.payload.operatorId
  actionType := value.payload.actionType
  occurredAt := value.occurredAt
  parameters := value.payload.parameters

/-! ## What PostgreSQL takes

The ids of an event, its item and its run are columns of `raw_events` already.
-/

def registrationStorable (payload : ItemRegisteredPayload) : Bool :=
  storableTexts ([payload.productDefinitionId, payload.revision] ++ payload.lineId.toList)

def operationStorable (run : OperationValue) : Bool :=
  storableTexts (run.operationId.toList ++ run.operatorId.toList ++ run.equipmentId.toList ++
    run.stationId.toList ++ (run.duration.map (·.meaning)).toList ++ run.previousOperationRunId.toList) &&
  (paramsOr run.parameters run.finishParameters).all Json.storableFields

def scopeStorable : InspectionScope → Bool
  | .listing values => Json.storableList values
  | .mapping fields => Json.storableFields fields

def defectStorable (defect : Defect) : Bool :=
  storableTexts (defect.defectType :: (defect.componentInstanceId.toList ++ defect.description.toList))

def inspectionStorable (payload : InspectionResultPayload) : Bool :=
  storableTexts (payload.controlPointId :: (payload.componentInstanceId.toList ++
    payload.controlDeviceId.toList ++ payload.captureSessionId.toList ++ payload.evidenceRefs)) &&
  (payload.inspectionScope.all scopeStorable && payload.defects.all defectStorable)

def machineStorable (payload : MachineStatePayload) : Bool :=
  storableTexts (payload.equipmentId :: payload.state :: payload.code.toList) &&
  payload.parameters.all Json.storableFields

def actionStorable (payload : OperatorActionPayload) : Bool :=
  storableTexts [payload.operatorId, payload.actionType] && payload.parameters.all Json.storableFields

/-- Every text and JSON value of the new rows can be stored. -/
def valuesStorable (values : ReplayValues) : Bool :=
  values.item.all (fun item => registrationStorable item.payload) &&
  (values.operations.all operationStorable &&
  (values.observations.all (fun value => inspectionStorable value.payload) &&
  (values.machineEvents.all (fun value => machineStorable value.payload) &&
    values.operatorActions.all fun value => actionStorable value.payload)))

/-! ## Replacing the rows of the item -/

section Replace
variable {α κ : Type} [DecidableEq κ]

/-- Delete the rows of `itemId` and insert `fresh`, whose `key` column is unique in the table. -/
def replaceRows (ownerOf : α → String) (key : α → κ) (itemId : String) (rows fresh : List α) :
    Except ReplayError (List α) :=
  if (fresh.map key).Nodup ∧
      ∀ row ∈ rows, ownerOf row ≠ itemId → ∀ new ∈ fresh, key row ≠ key new then
    .ok (replaceOwned ownerOf itemId rows fresh)
  else .error .uniqueViolation

end Replace

/-! ## The flush -/

/-- Raise unless the condition holds. -/
def demand (condition : Bool) (error : ReplayError) : Except ReplayError Unit :=
  if condition then .ok () else .error error

theorem demand_ok {condition : Bool} {error : ReplayError} {u : Unit} :
    demand condition error = .ok u ↔ condition = true := by
  cases condition <;> simp [demand]

/-- The foreign key `defect_observations.observation_id` at the INSERT of the new rows. The observations of the
item have just been deleted, so no row finds its own unless the observations are inserted before it. (The id of
an observation of another item is that of another event.) -/
def referencesPresent (order : InsertOrder) (rows : List DefectObservation) : Bool :=
  match order with
  | .byClassName => rows.isEmpty
  | .parentsFirst => true

/-- The rows of the item are deleted, and the new ones inserted in one flush. -/
def storeProjection (db : Database) (itemId : String) (values : ReplayValues) :
    Except ReplayError Database := do
  let runs ← operationRunRows itemId values.operations
  let defectObservations := values.observations.flatMap (defectObservationRows itemId)
  demand (referencesPresent db.insertOrder defectObservations) .foreignKeyViolation
  demand (valuesStorable values) .unstorableValue
  let operationRuns ← replaceRows (·.itemId) (·.operationRunId) itemId db.operationRuns runs
  let observations ← replaceRows (·.itemId) (·.eventId) itemId db.observations
    (values.observations.map (observationRow itemId))
  let machineEvents ← replaceRows (·.itemId) (·.eventId) itemId db.machineEvents
    (values.machineEvents.map (machineEventRow itemId))
  let operatorActions ← replaceRows (·.itemId) (·.eventId) itemId db.operatorActions
    (values.operatorActions.map (operatorActionRow itemId))
  return { db with
    operationRuns := operationRuns
    observations := observations
    defectObservations := replaceOwned (·.itemId) itemId db.defectObservations defectObservations
    machineEvents := machineEvents
    operatorActions := operatorActions }

/-! ## The item -/

def findItem (db : Database) (itemId : String) : Option Item :=
  db.items.find? fun item => decide (item.itemId = itemId)

/-- The revision a first registration pins: the requested one, or else the active one. -/
def resolveRoute (config : Configuration) (value : ItemRegisteredPayload) : Option Uuid := do
  let code := (pyOr value.routeId (some "ROUTE-DEFAULT")).getD "ROUTE-DEFAULT"
  let route ← config.routeDefinitions.find? fun route => decide (route.code = code)
  match value.routeRevision with
  | some (number + 1) =>
      (config.routeRevisions.find? fun revision =>
        decide (revision.routeId = route.id ∧ revision.revision = number + 1)).map (·.id)
  | _ => route.activeRevisionId

def newItem (config : Configuration) (itemId : String) (value : ItemValue) : Item where
  itemId := itemId
  productDefinitionId := value.payload.productDefinitionId
  revision := value.payload.revision
  lineId := value.payload.lineId
  routeRevisionId := resolveRoute config value.payload
  structureStatus :=
    if config.productStructureSnapshots.any fun snapshot =>
        decide (snapshot.assemblyId = value.payload.productDefinitionId ∧
          snapshot.revision = value.payload.revision)
    then .available else .degraded
  registeredAt := value.registeredAt

/-- An existing row keeps its route, status and registration time. -/
def registerItem (value : ItemValue) (item : Item) : Item :=
  { item with
    productDefinitionId := value.payload.productDefinitionId
    revision := value.payload.revision
    lineId := value.payload.lineId }

def projectItem (db : Database) (itemId : String) (value : Option ItemValue) : Database :=
  match value with
  | none => db
  | some value =>
      match findItem db itemId with
      | none => { db with items := db.items ++ [newItem db.config itemId value] }
      | some _ =>
          { db with
            items := modifyWhere (fun item => decide (item.itemId = itemId)) (registerItem value) db.items }

end TraceQ.Projections
