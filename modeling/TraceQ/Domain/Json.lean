import Mathlib

/-! # JSON values and the Python operations the replay applies to them

The free-form parts of an event (`parameters`, `inspection_scope`) stay JSON after validation.
Numbers are never inspected, so decimals are opaque tokens. Objects keep the order of their keys.
-/
namespace TraceQ
set_option autoImplicit false
set_option maxHeartbeats 250000

inductive Json where
  | null
  | bool (value : Bool)
  | int (value : ℤ)
  | decimal (token : String)
  | str (text : String)
  | arr (values : List Json)
  | obj (fields : List (String × Json))

namespace Json

/-! ## Equality -/

mutual
/-- Structural comparison; the nested lists are compared by the two companions. -/
def beq : Json → Json → Bool
  | .null, .null => true
  | .bool a, .bool b => a == b
  | .int a, .int b => a == b
  | .decimal a, .decimal b => a == b
  | .str a, .str b => a == b
  | .arr xs, .arr ys => beqList xs ys
  | .obj xs, .obj ys => beqFields xs ys
  | _, _ => false
def beqList : List Json → List Json → Bool
  | [], [] => true
  | x :: xs, y :: ys => beq x y && beqList xs ys
  | _, _ => false
def beqFields : List (String × Json) → List (String × Json) → Bool
  | [], [] => true
  | (k, v) :: xs, (l, w) :: ys => k == l && beq v w && beqFields xs ys
  | _, _ => false
end

mutual
theorem beq_iff : ∀ a b : Json, beq a b = true ↔ a = b
  | .arr xs, b => by
      cases b with
      | arr ys => simp [beq, beqList_iff xs ys]
      | _ => simp [beq]
  | .obj xs, b => by
      cases b with
      | obj ys => simp [beq, beqFields_iff xs ys]
      | _ => simp [beq]
  | .null, b => by cases b <;> simp [beq]
  | .bool a, b => by cases b <;> simp [beq]
  | .int a, b => by cases b <;> simp [beq]
  | .decimal a, b => by cases b <;> simp [beq]
  | .str a, b => by cases b <;> simp [beq]
theorem beqList_iff : ∀ xs ys : List Json, beqList xs ys = true ↔ xs = ys
  | [], ys => by cases ys <;> simp [beqList]
  | x :: xs, [] => by simp [beqList]
  | x :: xs, y :: ys => by simp [beqList, beq_iff x y, beqList_iff xs ys]
theorem beqFields_iff : ∀ xs ys : List (String × Json), beqFields xs ys = true ↔ xs = ys
  | [], ys => by cases ys <;> simp [beqFields]
  | x :: xs, [] => by simp [beqFields]
  | (k, v) :: xs, (l, w) :: ys => by
      simp [beqFields, beq_iff v w, beqFields_iff xs ys, and_assoc]
end

instance : DecidableEq Json := fun a b => decidable_of_iff _ (beq_iff a b)

/-- `value == text` for a string on the right. -/
def isText (text : String) (value : Json) : Bool := decide (value = .str text)

end Json

/-! ## What PostgreSQL takes -/

/-- A text column takes no U+0000, and neither does a text inside JSONB. -/
def storableText (text : String) : Bool := !text.toList.contains (Char.ofNat 0)

def storableTexts (texts : List String) : Bool := texts.all storableText

mutual
/-- JSONB takes no U+0000 and no number that is not finite. -/
def Json.storable : Json → Bool
  | .decimal token => !(["NaN", "Infinity", "-Infinity"].contains token)
  | .str text => storableText text
  | .arr values => Json.storableList values
  | .obj fields => Json.storableFields fields
  | _ => true
def Json.storableList : List Json → Bool
  | [] => true
  | value :: rest => value.storable && Json.storableList rest
def Json.storableFields : List (String × Json) → Bool
  | [] => true
  | (key, value) :: rest => storableText key && (value.storable && Json.storableFields rest)
end

/-! ## Python operations -/

/-- The exceptions the replay itself can raise. -/
inductive ReplayError where
  /-- `TypeError`: `in` on a value that is no container. -/
  | notAContainer
  /-- `ValueError` of `uuid.UUID`. -/
  | badUuid
  /-- `IntegrityError`: a primary key or unique column is already taken. -/
  | uniqueViolation
  /-- `IntegrityError`: a row refers to one that is not there. -/
  | foreignKeyViolation
  /-- `DataError`: a text or a JSON value that no column takes. -/
  | unstorableValue
deriving DecidableEq, Repr

/-- `needle in container`: membership in a list, substring of a string, key of a dict;
`TypeError` for everything else. -/
def pyContains (needle : String) : Json → Except ReplayError Bool
  | .arr values => .ok (values.any (Json.isText needle))
  | .obj fields => .ok (fields.any fun field => field.1 == needle)
  | .str text => .ok (decide (needle.toList <:+: text.toList))
  | .null => .error .notAContainer
  | .bool _ => .error .notAContainer
  | .int _ => .error .notAContainer
  | .decimal _ => .error .notAContainer

/-- The truth value of an optional string. -/
def truthy : Option String → Bool
  | none => false
  | some text => !text.isEmpty

/-- `a or b` on optional strings: the empty string is falsy. -/
def pyOr (a b : Option String) : Option String := if truthy a then a else b

end TraceQ
