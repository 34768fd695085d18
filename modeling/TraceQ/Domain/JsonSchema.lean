import TraceQ.Domain.Events

/-! # JSON Schema

The keywords of Draft 2020-12 that a contract is written with, as predicates on JSON values. A keyword
says nothing about values of another type than its own.
-/
namespace TraceQ.JsonSchema
set_option autoImplicit false
set_option maxHeartbeats 250000

abbrev Schema := Json → Bool

inductive JsonType where
  | null | boolean | object | array | number | string | integer
deriving DecidableEq, Repr

/-- What a decimal literal denotes, and which texts the format `date-time` asserts. -/
structure Dialect where
  decimal : String → ℚ
  dateTime : String → Bool

/-! ## Keywords -/

section Keywords
variable (d : Dialect)

def number : Json → Option ℚ
  | .int value => some value
  | .decimal token => some (d.decimal token)
  | _ => none

/-- Any number with a zero fractional part is an integer. -/
def hasType : JsonType → Json → Bool
  | .null, .null => true
  | .boolean, .bool _ => true
  | .object, .obj _ => true
  | .array, .arr _ => true
  | .number, .int _ => true
  | .number, .decimal _ => true
  | .string, .str _ => true
  | .integer, .int _ => true
  | .integer, .decimal token => (d.decimal token).isInt
  | _, _ => false

def types (allowed : List JsonType) : Schema := fun value => allowed.any fun type => hasType d type value

def minimum (least : ℚ) : Schema := fun value => (number d value).all fun x => decide (least ≤ x)

def maximum (most : ℚ) : Schema := fun value => (number d value).all fun x => decide (x ≤ most)

/-- `format: date-time`, asserted. -/
def dateTimeFormat : Schema
  | .str text => d.dateTime text
  | _ => true

end Keywords

def enum (values : List Json) : Schema := fun value => decide (value ∈ values)

def const (expected : Json) : Schema := fun value => decide (value = expected)

def minLength (least : ℕ) : Schema
  | .str text => decide (least ≤ text.length)
  | _ => true

def maxLength (most : ℕ) : Schema
  | .str text => decide (text.length ≤ most)
  | _ => true

def items (element : Schema) : Schema
  | .arr values => values.all element
  | _ => true

def maxItems (most : ℕ) : Schema
  | .arr values => decide (values.length ≤ most)
  | _ => true

def requiredKeys (keys : List String) : Schema
  | .obj fields => keys.all fun key => (fields.lookup key).isSome
  | _ => true

def properties (schemas : List (String × Schema)) : Schema
  | .obj fields => schemas.all fun property => (fields.lookup property.1).all property.2
  | _ => true

/-- `additionalProperties: false` beside these properties. -/
def noOthers (schemas : List (String × Schema)) : Schema
  | .obj fields => fields.all fun field => (schemas.map (·.1)).contains field.1
  | _ => true

def allOf (schemas : List Schema) : Schema := fun value => schemas.all fun schema => schema value

def oneOf (schemas : List Schema) : Schema := fun value => (schemas.countP fun schema => schema value) == 1

def ifThen (condition consequence : Schema) : Schema := fun value => !condition value || consequence value

/-- An object with these properties and no others. -/
def closedObject (d : Dialect) (keys : List String) (schemas : List (String × Schema)) : Schema :=
  allOf [types d [.object], noOthers schemas, requiredKeys keys, properties schemas]

/-! ## Objects -/

@[simp] theorem allOf_iff {schemas : List Schema} {value : Json} :
    allOf schemas value = true ↔ ∀ schema ∈ schemas, schema value = true := List.all_eq_true

theorem properties_iff {schemas : List (String × Schema)} {fields : Params} :
    properties schemas (.obj fields) = true ↔
      ∀ property ∈ schemas, ∀ value, fields.lookup property.1 = some value → property.2 value = true := by
  rw [properties, List.all_eq_true]
  refine forall₂_congr fun property _ => ?_
  rw [Option.all_eq_true]

theorem closedObject_iff {d : Dialect} {keys : List String} {schemas : List (String × Schema)}
    {value : Json} : closedObject d keys schemas value = true ↔ ∃ fields, value = .obj fields ∧
      (∀ field ∈ fields, field.1 ∈ schemas.map (·.1)) ∧
      (∀ key ∈ keys, (fields.lookup key).isSome = true) ∧
      ∀ property ∈ schemas, ∀ value, fields.lookup property.1 = some value →
        property.2 value = true := by
  cases value with
  | obj fields =>
    have htype : types d [.object] (.obj fields) = true := rfl
    simp [closedObject, htype, noOthers, requiredKeys, properties_iff]
  | _ => simp [closedObject, types, hasType]

end TraceQ.JsonSchema
