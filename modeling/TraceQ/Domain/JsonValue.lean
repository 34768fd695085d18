import TraceQ.Domain.Events
import TraceQ.Library.Tables

/-! # JSON values without an order of keys

What a JSON value says: an object is a finite map from keys to values. Sorting the keys says the same, and
values that say the same are sorted alike.
-/
namespace TraceQ
open Tables
set_option autoImplicit false
set_option maxHeartbeats 250000

/-! ## Values -/

/-- A JSON value; objects are functions from their keys. -/
inductive JsonValue where
  | null
  | bool (value : Bool)
  | int (value : ℤ)
  | decimal (token : String)
  | str (text : String)
  | arr (values : List JsonValue)
  | obj (fields : String → Option JsonValue)

namespace Json

mutual
/-- The value a JSON tree stands for. -/
def value : Json → JsonValue
  | .null => .null
  | .bool b => .bool b
  | .int n => .int n
  | .decimal token => .decimal token
  | .str text => .str text
  | .arr values => .arr (valueList values)
  | .obj fields => .obj (valueAt fields)
def valueList : List Json → List JsonValue
  | [] => []
  | first :: rest => first.value :: valueList rest
def valueAt : List (String × Json) → String → Option JsonValue
  | [], _ => none
  | (key, field) :: rest, name => if key = name then some field.value else valueAt rest name
end

/-! ## Number tokens -/

def IsDigits (text : List Char) : Prop := text ≠ [] ∧ ∀ c ∈ text, c.isDigit = true

/-- Digits without a leading zero, unless it is alone. -/
def IsWhole (text : List Char) : Prop := text = ['0'] ∨ (IsDigits text ∧ text.head? ≠ some '0')

def IsFraction (text : List Char) : Prop := text = [] ∨ ∃ digits, text = '.' :: digits ∧ IsDigits digits

def IsExponent (text : List Char) : Prop :=
  text = [] ∨ ∃ mark sign digits, text = mark :: (sign ++ digits) ∧ (mark = 'e' ∨ mark = 'E') ∧
    (sign = [] ∨ sign = ['+'] ∨ sign = ['-']) ∧ IsDigits digits

/-- A number with a fraction or an exponent, as `repr` writes a float and `json` reads one. -/
def IsDecimal (token : String) : Prop :=
  ∃ sign whole fraction exponent, token.toList = sign ++ (whole ++ (fraction ++ exponent)) ∧
    (sign = [] ∨ sign = ['-']) ∧ IsWhole whole ∧ IsFraction fraction ∧ IsExponent exponent ∧
    (fraction ≠ [] ∨ exponent ≠ [])

/-! ## Well-formed trees -/

mutual
/-- Decimals are decimals, and no object has a key twice. -/
def WellFormed : Json → Prop
  | .decimal token => IsDecimal token
  | .arr values => WellFormedList values
  | .obj fields => (fields.map (·.1)).Nodup ∧ WellFormedFields fields
  | _ => True
def WellFormedList : List Json → Prop
  | [] => True
  | first :: rest => first.WellFormed ∧ WellFormedList rest
def WellFormedFields : List (String × Json) → Prop
  | [] => True
  | (_, field) :: rest => field.WellFormed ∧ WellFormedFields rest
end

theorem wellFormedList_iff {values : List Json} :
    WellFormedList values ↔ ∀ field ∈ values, field.WellFormed := by
  induction values with
  | nil => exact ⟨fun _ field h => (by cases h), fun _ => trivial⟩
  | cons first rest ih => rw [List.forall_mem_cons, WellFormedList, ih]

theorem wellFormedFields_iff {fields : List (String × Json)} :
    WellFormedFields fields ↔ ∀ field ∈ fields, field.2.WellFormed := by
  induction fields with
  | nil => exact ⟨fun _ field h => (by cases h), fun _ => trivial⟩
  | cons first rest ih => rw [List.forall_mem_cons, WellFormedFields, ih]

/-! ## Sorted keys -/

theorem canonicalFields_eq_map (fields : List (String × Json)) :
    canonicalFields fields = fields.map fun field => (field.1, field.2.canonical) := by
  induction fields with
  | nil => rfl
  | cons field rest ih => rw [canonicalFields, ih, List.map_cons]

theorem canonicalList_eq_map (values : List Json) : canonicalList values = values.map canonical := by
  induction values with
  | nil => rfl
  | cons first rest ih => rw [canonicalList, ih, List.map_cons]

theorem valueList_eq_map (values : List Json) : valueList values = values.map value := by
  induction values with
  | nil => rfl
  | cons first rest ih => rw [valueList, ih, List.map_cons]

theorem canonicalFields_keys (fields : List (String × Json)) :
    (canonicalFields fields).map (·.1) = fields.map (·.1) := by
  rw [canonicalFields_eq_map, List.map_map]
  rfl

theorem canonicalParams_keys (fields : Params) : ((canonicalParams fields).map (·.1)).Perm (fields.map (·.1)) := by
  have hsorted : ((canonicalParams fields).map (·.1)).Perm ((canonicalFields fields).map (·.1)) :=
    (List.perm_insertionSort (fun a b : String × Json => a.1 ≤ b.1) _).map _
  rwa [canonicalFields_keys] at hsorted

theorem mem_canonicalParams {fields : Params} {entry : String × Json} :
    entry ∈ canonicalParams fields ↔ ∃ field, (entry.1, field) ∈ fields ∧ entry.2 = field.canonical := by
  rw [canonicalParams, List.mem_insertionSort, canonicalFields_eq_map, List.mem_map]
  constructor
  · rintro ⟨field, hfield, rfl⟩
    exact ⟨field.2, hfield, rfl⟩
  · rintro ⟨field, hfield, hvalue⟩
    exact ⟨_, hfield, Prod.ext rfl hvalue.symm⟩

mutual
/-- Sorting the keys again changes nothing. -/
theorem canonical_canonical : ∀ json : Json, json.canonical.canonical = json.canonical
  | .arr values => by
      rw [canonical, canonical, canonicalList_eq_map, canonicalList_eq_map, List.map_map]
      exact congrArg Json.arr (List.map_congr_left (canonicalList_canonical values))
  | .obj fields => congrArg Json.obj (by
      have hfixed : canonicalFields (canonicalParams fields) = canonicalParams fields := by
        rw [canonicalFields_eq_map]
        refine (List.map_congr_left fun entry hentry => ?_).trans (List.map_id _)
        obtain ⟨field, hfield, hvalue⟩ := mem_canonicalParams.mp hentry
        rw [hvalue, canonicalFields_canonical fields entry.1 field hfield, ← hvalue]
        rfl
      show (canonicalFields (canonicalParams fields)).insertionSort _ = canonicalParams fields
      rw [hfixed]
      exact (List.pairwise_insertionSort _ _).insertionSort_eq)
  | .null => rfl
  | .bool _ => rfl
  | .int _ => rfl
  | .decimal _ => rfl
  | .str _ => rfl
theorem canonicalList_canonical : ∀ values : List Json, ∀ field ∈ values,
    field.canonical.canonical = field.canonical
  | [], field, hfield => by cases hfield
  | first :: rest, field, hfield => by
      rcases List.mem_cons.mp hfield with heq | hrest
      · rw [heq]
        exact canonical_canonical first
      · exact canonicalList_canonical rest field hrest
theorem canonicalFields_canonical : ∀ fields : List (String × Json), ∀ key field, (key, field) ∈ fields →
    field.canonical.canonical = field.canonical
  | [], key, field, hfield => by cases hfield
  | (name, first) :: rest, key, field, hfield => by
      rcases List.mem_cons.mp hfield with heq | hrest
      · rw [(Prod.mk.inj heq).2]
        exact canonical_canonical first
      · exact canonicalFields_canonical rest key field hrest
end

/-- The value under a key, where no key stands twice. -/
theorem valueAt_eq_some_iff {fields : List (String × Json)} (h : (fields.map (·.1)).Nodup) {key : String}
    {found : JsonValue} : valueAt fields key = some found ↔ ∃ field, (key, field) ∈ fields ∧ field.value = found := by
  induction fields with
  | nil => exact ⟨fun h => (by cases h), fun ⟨_, h, _⟩ => (by cases h)⟩
  | cons first rest ih =>
    obtain ⟨name, field⟩ := first
    rw [List.map_cons, List.nodup_cons] at h
    rw [valueAt]
    split
    · rename_i hkey
      subst hkey
      constructor
      · intro heq
        exact ⟨field, List.mem_cons_self, Option.some.inj heq⟩
      · rintro ⟨other, hother, rfl⟩
        rcases List.mem_cons.mp hother with heq | hrest
        · rw [(Prod.mk.inj heq).2]
        · exact absurd (List.mem_map_of_mem hrest) h.1
    · rename_i hkey
      rw [ih h.2]
      refine exists_congr fun other => and_congr_left fun _ => ?_
      rw [List.mem_cons]
      exact ⟨.inr, fun hin => hin.resolve_left fun heq => hkey (Prod.mk.inj heq).1.symm⟩

theorem valueAt_ext {fields others : List (String × Json)} (hfields : (fields.map (·.1)).Nodup)
    (hothers : (others.map (·.1)).Nodup) (h : ∀ key found, (∃ field, (key, field) ∈ fields ∧ field.value = found) ↔
      ∃ field, (key, field) ∈ others ∧ field.value = found) : valueAt fields = valueAt others := by
  funext key
  refine Option.ext fun found => ?_
  rw [valueAt_eq_some_iff hfields, valueAt_eq_some_iff hothers, h]

mutual
theorem canonical_wellFormed : ∀ json : Json, json.WellFormed → json.canonical.WellFormed
  | .arr values, h => by
      rw [canonical, WellFormed, wellFormedList_iff, canonicalList_eq_map]
      intro entry hentry
      obtain ⟨field, hfield, rfl⟩ := List.mem_map.mp hentry
      exact canonicalList_wellFormed values h field hfield
  | .obj fields, h => by
      refine ⟨(canonicalParams_keys fields).nodup_iff.mpr h.1, wellFormedFields_iff.mpr ?_⟩
      intro entry hentry
      obtain ⟨field, hfield, hvalue⟩ := mem_canonicalParams.mp hentry
      rw [hvalue]
      exact canonicalFields_wellFormed fields h.2 entry.1 field hfield
  | .null, _ => trivial
  | .bool _, _ => trivial
  | .int _, _ => trivial
  | .decimal _, h => h
  | .str _, _ => trivial
theorem canonicalList_wellFormed : ∀ values : List Json, WellFormedList values →
    ∀ field ∈ values, field.canonical.WellFormed
  | [], _, field, hfield => by cases hfield
  | first :: rest, h, field, hfield => by
      rcases List.mem_cons.mp hfield with heq | hrest
      · rw [heq]
        exact canonical_wellFormed first h.1
      · exact canonicalList_wellFormed rest h.2 field hrest
theorem canonicalFields_wellFormed : ∀ fields : List (String × Json), WellFormedFields fields →
    ∀ key field, (key, field) ∈ fields → field.canonical.WellFormed
  | [], _, key, field, hfield => by cases hfield
  | (name, first) :: rest, h, key, field, hfield => by
      rcases List.mem_cons.mp hfield with heq | hrest
      · rw [(Prod.mk.inj heq).2]
        exact canonical_wellFormed first h.1
      · exact canonicalFields_wellFormed rest h.2 key field hrest
end

mutual
/-- Sorting the keys does not change the value. -/
theorem value_canonical : ∀ json : Json, json.WellFormed → json.canonical.value = json.value
  | .arr values, h => by
      rw [canonical, value, value, canonicalList_eq_map, valueList_eq_map, valueList_eq_map, List.map_map]
      exact congrArg JsonValue.arr (List.map_congr_left (valueList_canonical values h))
  | .obj fields, h => by
      refine congrArg JsonValue.obj (valueAt_ext ((canonicalParams_keys fields).nodup_iff.mpr h.1) h.1 ?_)
      intro key found
      constructor
      · rintro ⟨entry, hentry, rfl⟩
        obtain ⟨field, hfield, hvalue⟩ := mem_canonicalParams.mp hentry
        simp only at hvalue
        rw [hvalue]
        exact ⟨field, hfield, (valueFields_canonical fields h.2 key field hfield).symm⟩
      · rintro ⟨field, hfield, rfl⟩
        exact ⟨field.canonical, mem_canonicalParams.mpr ⟨field, hfield, rfl⟩,
          valueFields_canonical fields h.2 key field hfield⟩
  | .null, _ => rfl
  | .bool _, _ => rfl
  | .int _, _ => rfl
  | .decimal _, _ => rfl
  | .str _, _ => rfl
theorem valueList_canonical : ∀ values : List Json, WellFormedList values →
    ∀ field ∈ values, field.canonical.value = field.value
  | [], _, field, hfield => by cases hfield
  | first :: rest, h, field, hfield => by
      rcases List.mem_cons.mp hfield with heq | hrest
      · rw [heq]
        exact value_canonical first h.1
      · exact valueList_canonical rest h.2 field hrest
theorem valueFields_canonical : ∀ fields : List (String × Json), WellFormedFields fields →
    ∀ key field, (key, field) ∈ fields → field.canonical.value = field.value
  | [], _, key, field, hfield => by cases hfield
  | (name, first) :: rest, h, key, field, hfield => by
      rcases List.mem_cons.mp hfield with heq | hrest
      · rw [(Prod.mk.inj heq).2]
        exact value_canonical first h.1
      · exact valueFields_canonical rest h.2 key field hrest
end

/-- Objects with the same fields are sorted alike. -/
theorem canonicalParams_congr {fields others : Params} (hfields : (fields.map (·.1)).Nodup)
    (hothers : (others.map (·.1)).Nodup)
    (h : ∀ entry, entry ∈ canonicalParams fields ↔ entry ∈ canonicalParams others) :
    canonicalParams fields = canonicalParams others := by
  have hnodup : ∀ list : Params, (list.map (·.1)).Nodup → (canonicalParams list).Nodup := fun list hlist =>
    ((canonicalParams_keys list).nodup_iff.mpr hlist).of_map
  refine List.Perm.eq_of_pairwise ?_ (List.pairwise_insertionSort _ _) (List.pairwise_insertionSort _ _)
    ((List.perm_ext_iff_of_nodup (hnodup fields hfields) (hnodup others hothers)).mpr h)
  intro a b ha hb hle hge
  exact eq_of_nodup_map ((canonicalParams_keys others).nodup_iff.mpr hothers) ((h a).mp ha) hb
    (le_antisymm hle hge)

mutual
/-- Trees of one value are sorted to one tree. -/
theorem canonical_of_value : ∀ a b : Json, a.WellFormed → b.WellFormed → a.value = b.value →
    a.canonical = b.canonical
  | .arr values, b, ha, hb, h => by
      cases b with
      | arr others =>
        have hvalues : valueList values = valueList others := JsonValue.arr.inj h
        exact congrArg Json.arr (canonicalList_of_value values others ha hb hvalues)
      | _ => cases h
  | .obj fields, b, ha, hb, h => by
      cases b with
      | obj others =>
        have hvalues : valueAt fields = valueAt others := JsonValue.obj.inj h
        have hothers := wellFormedFields_iff.mp hb.2
        have hmem : ∀ key field, (key, field) ∈ fields →
            ∃ other, (key, other) ∈ others ∧ field.canonical = other.canonical := by
          intro key field hfield
          have hfound : valueAt others key = some field.value :=
            hvalues ▸ (valueAt_eq_some_iff ha.1).mpr ⟨field, hfield, rfl⟩
          obtain ⟨other, hother, hsame⟩ := (valueAt_eq_some_iff hb.1).mp hfound
          exact ⟨other, hother, canonicalFields_of_value fields ha.2 key field hfield other
            (hothers _ hother) hsame.symm⟩
        have hback : ∀ key other, (key, other) ∈ others →
            ∃ field, (key, field) ∈ fields ∧ field.canonical = other.canonical := by
          intro key other hother
          have hfound : valueAt fields key = some other.value :=
            hvalues ▸ (valueAt_eq_some_iff hb.1).mpr ⟨other, hother, rfl⟩
          obtain ⟨field, hfield, hsame⟩ := (valueAt_eq_some_iff ha.1).mp hfound
          exact ⟨field, hfield, canonicalFields_of_value fields ha.2 key field hfield other
            (hothers _ hother) hsame⟩
        refine congrArg Json.obj (canonicalParams_congr ha.1 hb.1 fun entry => ?_)
        rw [mem_canonicalParams, mem_canonicalParams]
        constructor
        · rintro ⟨field, hfield, hentry⟩
          obtain ⟨other, hother, hsame⟩ := hmem entry.1 field hfield
          exact ⟨other, hother, hentry.trans hsame⟩
        · rintro ⟨other, hother, hentry⟩
          obtain ⟨field, hfield, hsame⟩ := hback entry.1 other hother
          exact ⟨field, hfield, hentry.trans hsame.symm⟩
      | _ => cases h
  | .null, b, _, _, h => by
      cases b <;> cases h
      rfl
  | .bool _, b, _, _, h => by
      cases b <;> cases h
      rfl
  | .int _, b, _, _, h => by
      cases b <;> cases h
      rfl
  | .decimal _, b, _, _, h => by
      cases b <;> cases h
      rfl
  | .str _, b, _, _, h => by
      cases b <;> cases h
      rfl
theorem canonicalList_of_value : ∀ values others : List Json, WellFormedList values → WellFormedList others →
    valueList values = valueList others → canonicalList values = canonicalList others
  | [], others, _, _, h => by
      cases others with
      | nil => rfl
      | cons other more => cases h
  | first :: rest, others, ha, hb, h => by
      cases others with
      | nil => cases h
      | cons other more =>
        obtain ⟨hfirst, hrest⟩ := List.cons.inj h
        rw [canonicalList, canonicalList, canonical_of_value first other ha.1 hb.1 hfirst,
          canonicalList_of_value rest more ha.2 hb.2 hrest]
theorem canonicalFields_of_value : ∀ fields : List (String × Json), WellFormedFields fields →
    ∀ key field, (key, field) ∈ fields → ∀ other : Json, other.WellFormed → field.value = other.value →
      field.canonical = other.canonical
  | [], _, key, field, hfield, _, _, _ => by cases hfield
  | (name, first) :: rest, h, key, field, hfield, other, hother, hvalue => by
      rcases List.mem_cons.mp hfield with heq | hrest
      · rw [(Prod.mk.inj heq).2] at hvalue ⊢
        exact canonical_of_value first other h.1 hother hvalue
      · exact canonicalFields_of_value rest h.2 key field hrest other hother hvalue
end

end Json

end TraceQ
