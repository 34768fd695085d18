import TraceQ.Domain.Contract
import TraceQ.Domain.Validation

/-! # The rules of the validator and of the contract

Both grammars of an event read the same keys. What both ask of a value, what only the models ask and what
only the schema asks are kept apart, field by field.
-/
namespace TraceQ
open JsonSchema
set_option autoImplicit false
set_option maxHeartbeats 250000

/-! ## Comparing two grammars of one value -/

/-- What both grammars ask of a value, and what only one of them does. -/
structure Comparison where
  shared : Json → Prop
  validator : Json → Prop := fun _ => True
  schema : Json → Prop := fun _ => True

/-- `read` and `s` are the two grammars that `c` compares. -/
structure Compares {α : Type} (c : Comparison) (read : Json → Option α) (s : Schema) : Prop where
  reads : ∀ value, (read value).isSome = true ↔ c.shared value ∧ c.validator value
  valid : ∀ value, s value = true ↔ c.shared value ∧ c.schema value

/-- `null` or a value. -/
def Comparison.orNull (c : Comparison) : Comparison where
  shared value := value = .null ∨ c.shared value
  validator value := value = .null ∨ c.validator value
  schema value := value = .null ∨ c.schema value

/-- A list of values. -/
def Comparison.listed (c : Comparison) : Comparison where
  shared value := ∃ values, value = .arr values ∧ ∀ element ∈ values, c.shared element
  validator value := ∀ values, value = .arr values → ∀ element ∈ values, c.validator element
  schema value := ∀ values, value = .arr values → ∀ element ∈ values, c.schema element

/-! ## Records -/

/-- A key with the comparison of its values. -/
structure FieldRule extends Comparison where
  key : String
  required : Bool := false

/-- The value of a key that may be missing. -/
def Given (required : Bool) (value : Option Json) (p : Json → Prop) : Prop :=
  match value with
  | none => required = false
  | some value => p value

def SharedFields (rules : List FieldRule) (fields : Params) : Prop :=
  onlyKeys (rules.map (·.key)) fields = true ∧
    ∀ rule ∈ rules, Given rule.required (fields.lookup rule.key) rule.shared

def ValidatorFields (rules : List FieldRule) (fields : Params) : Prop :=
  ∀ rule ∈ rules, ∀ value, fields.lookup rule.key = some value → rule.validator value

def SchemaFields (rules : List FieldRule) (fields : Params) : Prop :=
  ∀ rule ∈ rules, ∀ value, fields.lookup rule.key = some value → rule.schema value

/-- An object with these keys. -/
def Comparison.record (rules : List FieldRule) : Comparison where
  shared value := ∃ fields, value = .obj fields ∧ SharedFields rules fields
  validator value := ∀ fields, value = .obj fields → ValidatorFields rules fields
  schema value := ∀ fields, value = .obj fields → SchemaFields rules fields

/-! ## Values -/

/-- A text of at least `least` and at most `most` characters, in both grammars. -/
def boundedText (least most : ℕ) : Comparison where
  shared value := ∃ text, value = .str text ∧ least ≤ text.length ∧ text.length ≤ most

/-- A text of at least `least` characters, which only the models bound from above, and from below by
`modelLeast`. -/
def modelText (least modelLeast most : ℕ) : Comparison where
  shared value := ∃ text, value = .str text ∧ least ≤ text.length
  validator value := ∀ text, value = .str text → modelLeast ≤ text.length ∧ text.length ≤ most

def someText : Comparison where
  shared value := ∃ text, value = .str text

def oneOfTexts (values : List String) : Comparison where
  shared value := ∃ text ∈ values, value = .str text

def someMapping : Comparison where
  shared value := ∃ fields, value = .obj fields

/-- A mapping or a list. -/
def someScope : Comparison where
  shared value := (∃ fields, value = .obj fields) ∨ ∃ values, value = .arr values

/-- A text of at most 128 characters, which the schema wants not to be empty. -/
def optionalId : Comparison where
  shared value := ∃ text, value = .str text ∧ text.length ≤ 128
  schema value := ∀ text, value = .str text → 1 ≤ text.length

section Scalars
variable (r : Reading) (d : Dialect)

/-- An integer of at least `least`, by what pydantic reads and by what JSON Schema counts as one. -/
def wholeNumber (least : ℤ) : Comparison where
  shared _ := True
  validator value := ∃ n, r.readInt value = some n ∧ least ≤ n
  schema value := hasType d .integer value = true ∧ ∃ x, number d value = some x ∧ (least : ℚ) ≤ x

/-- A number in these bounds, likewise. -/
def decimalNumber (inBounds : ℚ → Prop) : Comparison where
  shared _ := True
  validator value := ∃ x, r.readFloat value = some x ∧ inBounds x
  schema value := ∃ x, number d value = some x ∧ inBounds x

/-- A timestamp, likewise. -/
def timestamp : Comparison where
  shared _ := True
  validator value := (r.readDatetime value).isSome = true
  schema value := ∃ text, value = .str text ∧ d.dateTime text = true

end Scalars

/-- A list of texts, which only the models bound. -/
def boundedReferences (most : ℕ) : Comparison where
  shared := someText.listed.shared
  validator value := ∀ values, value = .arr values → values.length ≤ most

/-- A list of at most `most` texts, in both grammars. -/
def references100 : Comparison where
  shared value := someText.listed.shared value ∧ ∀ values, value = .arr values → values.length ≤ 100

/-! ## The rules of each record -/

section Rules
variable (r : Reading) (d : Dialect)

def sourceRules : List FieldRule :=
  [{ boundedText 1 128 with key := "source_id", required := true },
    { boundedText 1 64 with key := "source_type", required := true },
    { (wholeNumber r d 0).orNull with key := "sequence" }]

def durationRules : List FieldRule :=
  [{ decimalNumber r d (0 ≤ ·) with key := "value", required := true },
    { oneOfTexts ["ms", "s", "min", "h"] with key := "unit", required := true },
    { boundedText 1 64 with key := "meaning", required := true }]

def defectRules : List FieldRule :=
  [{ boundedText 1 128 with key := "defect_type", required := true },
    { (boundedText 0 2000).orNull with key := "description" },
    { (oneOfTexts ["minor", "major", "critical"]).orNull with key := "severity" },
    { (boundedText 0 128).orNull with key := "component_instance_id" }]

def itemRegisteredRules : List FieldRule :=
  [{ modelText 1 1 128 with key := "product_definition_id", required := true },
    { modelText 1 1 64 with key := "revision", required := true },
    { (modelText 0 0 128).orNull with key := "line_id" },
    { (modelText 0 0 128).orNull with key := "route_id" },
    { (wholeNumber r d 1).orNull with key := "route_revision" }]

def operationStartedRules : List FieldRule :=
  [{ modelText 0 1 128 with key := "operation_id", required := true },
    { modelText 0 1 128 with key := "operator_id", required := true },
    { modelText 0 1 128 with key := "equipment_id", required := true },
    { modelText 0 1 128 with key := "station_id", required := true },
    { someMapping.orNull with key := "parameters" },
    { (modelText 0 0 128).orNull with key := "previous_operation_run_id" },
    { oneOfTexts ["production", "rework"] with key := "run_reason" },
    { someText.orNull with key := "rework_for_nonconformance_id" }]

def operationFinishedRules : List FieldRule :=
  [{ oneOfTexts ["completed", "failed", "aborted", "interrupted"] with
      key := "completion_status", required := true },
    { (Comparison.record (durationRules r d)).orNull with key := "duration" },
    { (modelText 0 0 1000).orNull with key := "stop_reason" },
    { someMapping.orNull with key := "parameters" }]

def inspectionResultRules : List FieldRule :=
  [{ oneOfTexts ["no_defect", "defect_detected", "impossible_to_assess"] with
      key := "inspection_result", required := true },
    { oneOfTexts ["good", "poor", "unknown"] with key := "observation_quality", required := true },
    { modelText 0 1 128 with key := "control_point_id", required := true },
    { (decimalNumber r d fun x => 0 ≤ x ∧ x ≤ 1).orNull with key := "confidence" },
    { someScope.orNull with key := "inspection_scope" },
    { (Comparison.record defectRules).listed with key := "defects" },
    { boundedReferences 100 with key := "evidence_refs" },
    { (modelText 0 0 128).orNull with key := "component_instance_id" },
    { (modelText 0 0 128).orNull with key := "control_device_id" },
    { (modelText 0 0 128).orNull with key := "capture_session_id" }]

def machineStateRules : List FieldRule :=
  [{ modelText 0 1 128 with key := "equipment_id", required := true },
    { modelText 0 1 64 with key := "state", required := true },
    { (modelText 0 0 64).orNull with key := "code" },
    { someMapping.orNull with key := "parameters" }]

def operatorActionRules : List FieldRule :=
  [{ modelText 0 1 128 with key := "operator_id", required := true },
    { modelText 0 1 64 with key := "action_type", required := true },
    { someMapping.orNull with key := "parameters" }]

def controlDeviceInvalidatedRules : List FieldRule :=
  [{ boundedText 1 128 with key := "device_id", required := true },
    { timestamp r d with key := "affected_from", required := true },
    { timestamp r d with key := "affected_to", required := true },
    { boundedText 3 2000 with key := "reason", required := true },
    { (boundedText 0 64).orNull with key := "invalidation_type" },
    { references100 with key := "supporting_evidence_refs" }]

end Rules

/-! ## The rules of each payload -/

/-- The rules of the payload of one event type; `cross` is what the models ask of its fields together. -/
structure PayloadRules where
  fields : List FieldRule
  cross : Params → Prop := fun _ => True
  needsItem : Bool := false
  needsRun : Bool := false

/-- Defects are listed exactly when the inspection reports some. -/
def defectsListed (fields : Params) : Prop :=
  fields.lookup "inspection_result" = some (.str "defect_detected") ↔
    ∃ first rest, fields.lookup "defects" = some (.arr (first :: rest))

/-- The period does not end before it begins, and both ends have an offset or none has. -/
def periodOrdered (r : Reading) (fields : Params) : Prop :=
  ∀ start finish, required fields "affected_from" r.readDatetime = some start →
    required fields "affected_to" r.readDatetime = some finish →
    start.offset.isSome = finish.offset.isSome ∧ start.instant ≤ finish.instant

section PayloadRules
variable (r : Reading) (d : Dialect)

def itemRegisteredPayload : PayloadRules where
  fields := itemRegisteredRules r d
  needsItem := true

def operationStartedPayload : PayloadRules where
  fields := operationStartedRules
  needsItem := true
  needsRun := true

def operationFinishedPayload : PayloadRules where
  fields := operationFinishedRules r d
  needsItem := true
  needsRun := true

def inspectionResultPayload : PayloadRules where
  fields := inspectionResultRules r d
  cross := defectsListed
  needsItem := true

def machineStatePayload : PayloadRules where
  fields := machineStateRules

def operatorActionPayload : PayloadRules where
  fields := operatorActionRules

def controlDeviceInvalidatedPayload : PayloadRules where
  fields := controlDeviceInvalidatedRules r d
  cross := periodOrdered r

/-- The rules of the payload of each event type. -/
def payloadRules : List (String × PayloadRules) :=
  [("item.registered", itemRegisteredPayload r d),
    ("operation.started", operationStartedPayload),
    ("operation.finished", operationFinishedPayload r d),
    ("inspection.result", inspectionResultPayload r d),
    ("machine.state", machineStatePayload),
    ("operator.action", operatorActionPayload),
    ("control_device.invalidated", controlDeviceInvalidatedPayload r d)]

end PayloadRules

/-! ## The rules of the envelope -/

def eventTypes : List String :=
  ["item.registered", "operation.started", "operation.finished", "inspection.result", "machine.state",
    "operator.action", "control_device.invalidated"]

/-- The payload is an object. -/
def objectPayload : Comparison where
  shared _ := True
  schema value := ∃ payload, value = .obj payload

def envelopeRules (r : Reading) (d : Dialect) : List FieldRule :=
  [{ boundedText 1 128 with key := "event_id", required := true },
    { oneOfTexts eventTypes with key := "event_type", required := true },
    { oneOfTexts ["1.0"] with key := "schema_version", required := true },
    { timestamp r d with key := "occurred_at", required := true },
    { Comparison.record (sourceRules r d) with key := "source", required := true },
    { optionalId.orNull with key := "item_id" },
    { optionalId.orNull with key := "operation_run_id" },
    { objectPayload with key := "payload", required := true }]

/-- The envelope names an item or an operation run. -/
def NamesKey (fields : Params) (key : String) : Prop :=
  ∃ text, fields.lookup key = some (.str text) ∧ 1 ≤ text.length

end TraceQ
