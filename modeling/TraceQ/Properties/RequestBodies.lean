import TraceQ.Security.JsonText

/-! # Request bodies

Whatever `json.loads` reads from a body has one field for a key, and floats as `repr` writes them. So where no float is
`NaN` or infinite, the canonical bytes of a body say the same as the body, and two bodies are signed and hashed alike
exactly when they say the same.
-/
namespace TraceQ.Properties
open Security Tables
set_option autoImplicit false
set_option maxHeartbeats 250000

/-! ## Numbers -/

theorem scanSign_cases (text : List Char) : (scanSign text).1 = [] ∨ (scanSign text).1 = ['-'] := by
  unfold scanSign
  split
  · exact .inr rfl
  · exact .inl rfl

theorem scanDigits_digits {text : List Char} {c : Char} (h : c ∈ (scanDigits text).1) : c.isDigit = true :=
  List.mem_takeWhile_imp h

theorem isDigits_scanDigits {text : List Char} (h : (scanDigits text).1 ≠ []) :
    Json.IsDigits (scanDigits text).1 := ⟨h, fun _ => scanDigits_digits⟩

theorem isWhole_scanWhole {text : List Char} (h : (scanWhole text).1 ≠ []) : Json.IsWhole (scanWhole text).1 := by
  by_cases hzero : ∃ rest, text = '0' :: rest
  · obtain ⟨rest, rfl⟩ := hzero
    exact .inl rfl
  · have hscan : scanWhole text = scanDigits text := by
      unfold scanWhole
      split
      · exact absurd ⟨_, rfl⟩ hzero
      · rfl
    rw [hscan] at h ⊢
    refine .inr ⟨isDigits_scanDigits h, fun hhead => ?_⟩
    cases text with
    | nil => cases hhead
    | cons c rest =>
      rw [scanDigits, List.takeWhile_cons] at hhead
      split at hhead
      · exact hzero ⟨rest, by rw [Option.some.inj hhead]⟩
      · cases hhead

theorem isFraction_scanFraction (text : List Char) : Json.IsFraction (scanFraction text).1 := by
  unfold scanFraction
  split
  · rename_i rest
    dsimp only
    split
    · exact .inl rfl
    · rename_i hdigits
      exact .inr ⟨_, rfl, isDigits_scanDigits (by simpa using hdigits)⟩
  · exact .inl rfl

theorem scanExponentSign_cases (text : List Char) : (scanExponentSign text).1 = [] ∨
    (scanExponentSign text).1 = ['+'] ∨ (scanExponentSign text).1 = ['-'] := by
  unfold scanExponentSign
  split
  · exact .inr (.inl rfl)
  · exact .inr (.inr rfl)
  · exact .inl rfl

theorem isExponent_scanExponent (text : List Char) : Json.IsExponent (scanExponent text).1 := by
  cases text with
  | nil => exact .inl rfl
  | cons mark rest =>
    rw [scanExponent]
    split
    · rename_i hmark
      dsimp only
      split
      · exact .inl rfl
      · rename_i hdigits
        exact .inr ⟨mark, _, _, rfl, hmark, scanExponentSign_cases rest,
          isDigits_scanDigits (by simpa using hdigits)⟩
    · exact .inl rfl

/-- A tree as it stands in a document. -/
inductive Written : Json → Prop where
  | null : Written .null
  | bool (value : Bool) : Written (.bool value)
  | int (value : ℤ) : Written (.int value)
  | decimal {literal : String} (h : Json.IsDecimal literal) : Written (.decimal literal)
  | constant {name : String} (h : name ∈ constants) : Written (.decimal name)
  | str (text : String) : Written (.str text)
  | arr {values : List Json} (h : ∀ value ∈ values, Written value) : Written (.arr values)
  | obj {fields : List (String × Json)} (hkeys : (fields.map (·.1)).Nodup)
      (h : ∀ field ∈ fields, Written field.2) : Written (.obj fields)

theorem scanNumber_written {text rest : List Char} {json : Json} (h : scanNumber text = some (json, rest)) :
    Written json := by
  unfold scanNumber at h
  dsimp only at h
  split at h
  · cases h
  · rename_i hwhole
    split at h
    · cases h
      exact .int _
    · rename_i hparts
      cases h
      have hsome : (scanFraction (scanWhole (scanSign text).2).2).1 ≠ [] ∨
          (scanExponent (scanFraction (scanWhole (scanSign text).2).2).2).1 ≠ [] := by
        by_contra hnone
        rw [not_or, not_not, not_not] at hnone
        exact hparts (by rw [hnone.1, hnone.2]; rfl)
      exact .decimal ⟨_, _, _, _, String.toList_ofList, scanSign_cases text,
        isWhole_scanWhole (by simpa using hwhole), isFraction_scanFraction _, isExponent_scanExponent _, hsome⟩

theorem scanConstant_written {text rest : List Char} {json : Json} (h : scanConstant text = some (json, rest)) :
    Written json := by
  obtain ⟨name, hname, hjson⟩ := Option.map_eq_some_iff.mp h
  cases hjson
  exact .constant (List.mem_of_find?_eq_some hname)

/-! ## Objects -/

theorem nodup_setField {fields : Params} (h : (fields.map (·.1)).Nodup) (key : String) (value : Json) :
    ((setField fields key value).map (·.1)).Nodup := by
  have hkeys : (setField fields key value).map (·.1) =
      if key ∈ fields.map (·.1) then fields.map (·.1) else fields.map (·.1) ++ [key] := by
    clear h
    induction fields with
    | nil => rfl
    | cons field rest ih =>
      by_cases hname : field.1 = key
      · simp [setField, upsert, hname]
      · have hkept : setField (field :: rest) key value = field :: setField rest key value := by
          simp [setField, upsert, hname]
        have hmem : key ∈ (field :: rest).map (·.1) ↔ key ∈ rest.map (·.1) := by
          rw [List.map_cons, List.mem_cons]
          exact ⟨fun hin => hin.resolve_left fun heq => hname heq.symm, .inr⟩
        rw [hkept, List.map_cons, ih]
        by_cases hlater : key ∈ rest.map (·.1)
        · rw [if_pos hlater, if_pos (hmem.mpr hlater), List.map_cons]
        · rw [if_neg hlater, if_neg (mt hmem.mp hlater), List.map_cons, List.cons_append]
  rw [hkeys]
  split
  · exact h
  · rename_i hkey
    exact List.nodup_append.mpr ⟨h, List.nodup_singleton key, fun a ha b hb hab =>
      hkey (List.mem_singleton.mp hb ▸ hab ▸ ha)⟩

theorem mem_setField {fields : Params} {key : String} {value : Json} {field : String × Json}
    (h : field ∈ setField fields key value) : field ∈ fields ∨ field.2 = value := by
  induction fields with
  | nil => exact .inr (congrArg Prod.snd (List.mem_singleton.mp h))
  | cons first rest ih =>
    rw [setField, upsert] at h
    split at h
    · rcases List.mem_cons.mp h with rfl | hrest
      · exact .inr rfl
      · exact .inl (List.mem_cons_of_mem _ hrest)
    · rcases List.mem_cons.mp h with rfl | hrest
      · exact .inl List.mem_cons_self
      · exact (ih hrest).imp_left (List.mem_cons_of_mem _)

/-- `dict(pairs)` has every key once. -/
theorem dictOfPairs_written {pairs : List (String × Json)} (h : ∀ pair ∈ pairs, Written pair.2) :
    Written (.obj (dictOfPairs pairs)) := by
  have hfold : ∀ fields : Params, (fields.map (·.1)).Nodup → (∀ field ∈ fields, Written field.2) →
      Written (.obj (pairs.foldl (fun fields pair => setField fields pair.1 pair.2) fields)) := by
    induction pairs with
    | nil => exact fun fields hkeys hfields => .obj hkeys hfields
    | cons pair rest ih =>
      intro fields hkeys hfields
      refine ih (fun other hother => h other (List.mem_cons_of_mem _ hother)) _ (nodup_setField hkeys _ _) ?_
      intro field hfield
      rcases mem_setField hfield with hold | hnew
      · exact hfields field hold
      · rw [hnew]
        exact h pair List.mem_cons_self
  exact hfold [] List.nodup_nil (fun _ hfield => absurd hfield List.not_mem_nil)

/-! ## Values -/

mutual
theorem scanValue_written : ∀ (fuel : ℕ) (text : List Char) {json : Json} {rest : List Char},
    scanValue fuel text = some (json, rest) → Written json
  | 0, _, _, _, h => by cases h
  | _ + 1, [], _, _, h => by cases h
  | fuel + 1, c :: text, json, rest, h => by
      rw [scanValue] at h
      split at h
      · obtain ⟨found, -, hjson⟩ := Option.bind_eq_some_iff.mp h
        cases hjson
        exact .str _
      split at h
      · split at h
        · cases h
          exact .arr fun _ hvalue => absurd hvalue List.not_mem_nil
        · obtain ⟨found, hfound, hjson⟩ := Option.bind_eq_some_iff.mp h
          cases hjson
          exact .arr (scanItems_written fuel _ hfound)
      split at h
      · split at h
        · cases h
          exact .obj List.nodup_nil fun _ hfield => absurd hfield List.not_mem_nil
        · obtain ⟨found, hfound, hjson⟩ := Option.bind_eq_some_iff.mp h
          cases hjson
          exact dictOfPairs_written (scanMembers_written fuel _ hfound)
      split at h
      · cases h
        exact .null
      split at h
      · cases h
        exact .bool true
      split at h
      · cases h
        exact .bool false
      · rcases Option.or_eq_some_iff.mp h with hnumber | ⟨-, hconstant⟩
        · exact scanNumber_written hnumber
        · exact scanConstant_written hconstant
theorem scanItems_written : ∀ (fuel : ℕ) (text : List Char) {values : List Json} {rest : List Char},
    scanItems fuel text = some (values, rest) → ∀ value ∈ values, Written value
  | 0, _, _, _, h => by cases h
  | fuel + 1, text, values, rest, h => by
      rw [scanItems] at h
      obtain ⟨first, hfirst, h⟩ := Option.bind_eq_some_iff.mp h
      have hvalue : Written first.1 := scanValue_written fuel text hfirst
      dsimp only at h
      split at h
      · cases h
        simpa using hvalue
      · obtain ⟨found, hfound, hvalues⟩ := Option.bind_eq_some_iff.mp h
        cases hvalues
        exact List.forall_mem_cons.mpr ⟨hvalue, scanItems_written fuel _ hfound⟩
      · cases h
theorem scanMembers_written : ∀ (fuel : ℕ) (text : List Char) {pairs : List (String × Json)} {rest : List Char},
    scanMembers fuel text = some (pairs, rest) → ∀ pair ∈ pairs, Written pair.2
  | 0, _, _, _, h => by cases h
  | fuel + 1, text, pairs, rest, h => by
      unfold scanMembers at h
      split at h
      · obtain ⟨key, -, h⟩ := Option.bind_eq_some_iff.mp h
        dsimp only at h
        split at h
        · obtain ⟨first, hfirst, h⟩ := Option.bind_eq_some_iff.mp h
          have hvalue : Written first.1 := scanValue_written fuel _ hfirst
          split at h
          · cases h
            simpa using hvalue
          · obtain ⟨found, hfound, hpairs⟩ := Option.bind_eq_some_iff.mp h
            cases hpairs
            exact List.forall_mem_cons.mpr ⟨hvalue, scanMembers_written fuel _ hfound⟩
          · cases h
        · cases h
      · cases h
end

theorem scanDocument_written {bytes : Bytes} {json : Json} (h : scanDocument bytes = some json) :
    Written json := by
  rw [scanDocument] at h
  obtain ⟨text, -, h⟩ := Option.bind_eq_some_iff.mp h
  obtain ⟨found, hfound, h⟩ := Option.bind_eq_some_iff.mp h
  dsimp only at h
  split at h
  · cases h
    exact scanValue_written _ _ hfound
  · cases h

/-! ## Floats -/

mutual
/-- The floats of a value, as they are written. -/
def floatsOf : Json → List String
  | .decimal token => [token]
  | .arr values => floatsOfList values
  | .obj fields => floatsOfFields fields
  | _ => []
def floatsOfList : List Json → List String
  | [] => []
  | value :: rest => floatsOf value ++ floatsOfList rest
def floatsOfFields : List (String × Json) → List String
  | [] => []
  | (_, value) :: rest => floatsOf value ++ floatsOfFields rest
end

/-- No float of the value is `NaN` or infinite. -/
def Finite (json : Json) : Prop := ∀ token ∈ floatsOf json, token ∉ constants

instance (json : Json) : Decidable (Finite json) := inferInstanceAs (Decidable (∀ token ∈ floatsOf json, _))

theorem mem_floatsOfList {values : List Json} {token : String} :
    token ∈ floatsOfList values ↔ ∃ value ∈ values, token ∈ floatsOf value := by
  induction values with
  | nil => exact ⟨nofun, nofun⟩
  | cons value rest ih => rw [floatsOfList, List.mem_append, ih, List.exists_mem_cons_iff]

theorem mem_floatsOfFields {fields : List (String × Json)} {token : String} :
    token ∈ floatsOfFields fields ↔ ∃ field ∈ fields, token ∈ floatsOf field.2 := by
  induction fields with
  | nil => exact ⟨nofun, nofun⟩
  | cons field rest ih => rw [floatsOfFields, List.mem_append, ih, List.exists_mem_cons_iff]

/-- `repr(float(literal))`: an infinity where the literal is too large, and else a decimal that is read as the
same float. -/
structure ReprReads (floats : String → String) : Prop where
  decimal : ∀ literal, Json.IsDecimal literal → floats literal ∈ constants ∨
    (Json.IsDecimal (floats literal) ∧ floats (floats literal) = floats literal)
  constant : ∀ name ∈ constants, floats name = name

section Floats
variable {floats : String → String}

theorem withFloatsList_eq (values : List Json) : withFloatsList floats values = values.map (withFloats floats) := by
  induction values with
  | nil => rfl
  | cons value rest ih => rw [withFloatsList, ih, List.map_cons]

theorem withFloatsFields_eq (fields : List (String × Json)) :
    withFloatsFields floats fields = fields.map fun field => (field.1, withFloats floats field.2) := by
  induction fields with
  | nil => rfl
  | cons field rest ih => rw [withFloatsFields, ih, List.map_cons]

theorem finite_arr {values : List Json} (h : Finite (.arr values)) : ∀ value ∈ values, Finite value :=
  fun value hvalue token htoken => h token (mem_floatsOfList.mpr ⟨value, hvalue, htoken⟩)

theorem finite_obj {fields : List (String × Json)} (h : Finite (.obj fields)) :
    ∀ field ∈ fields, Finite field.2 :=
  fun field hfield token htoken => h token (mem_floatsOfFields.mpr ⟨field, hfield, htoken⟩)

/-- A value that has been read is well formed and has floats that are read as they stand, if all are finite. -/
theorem written_wellFormed (hfloats : ReprReads floats) {json : Json} (h : Written json)
    (hfinite : Finite (withFloats floats json)) : (withFloats floats json).WellFormed ∧
      ∀ token ∈ floatsOf (withFloats floats json), floats token = token := by
  induction h with
  | null => exact ⟨trivial, nofun⟩
  | bool value => exact ⟨trivial, nofun⟩
  | int value => exact ⟨trivial, nofun⟩
  | str text => exact ⟨trivial, nofun⟩
  | @decimal literal hdecimal =>
    rcases hfloats.decimal literal hdecimal with hconstant | ⟨hformed, hread⟩
    · exact absurd hconstant (hfinite _ List.mem_cons_self)
    · exact ⟨hformed, fun token htoken => (List.mem_singleton.mp htoken) ▸ hread⟩
  | @constant name hname =>
    refine absurd ?_ (hfinite _ List.mem_cons_self)
    rwa [hfloats.constant name hname]
  | @arr values _ ih =>
    rw [withFloats, withFloatsList_eq] at hfinite ⊢
    have hvalues : ∀ value ∈ values, (withFloats floats value).WellFormed ∧
        ∀ token ∈ floatsOf (withFloats floats value), floats token = token :=
      fun value hvalue => ih value hvalue (finite_arr hfinite _ (List.mem_map_of_mem hvalue))
    constructor
    · refine Json.wellFormedList_iff.mpr fun value hvalue => ?_
      obtain ⟨old, hold, rfl⟩ := List.mem_map.mp hvalue
      exact (hvalues old hold).1
    · intro token htoken
      obtain ⟨value, hvalue, hin⟩ := mem_floatsOfList.mp htoken
      obtain ⟨old, hold, rfl⟩ := List.mem_map.mp hvalue
      exact (hvalues old hold).2 token hin
  | @obj fields hkeys _ ih =>
    rw [withFloats, withFloatsFields_eq] at hfinite ⊢
    have hfields : ∀ field ∈ fields, (withFloats floats field.2).WellFormed ∧
        ∀ token ∈ floatsOf (withFloats floats field.2), floats token = token := by
      intro field hfield
      exact ih field hfield (finite_obj hfinite _ (List.mem_map_of_mem hfield))
    constructor
    · refine ⟨by rwa [List.map_map], Json.wellFormedFields_iff.mpr fun field hfield => ?_⟩
      obtain ⟨old, hold, rfl⟩ := List.mem_map.mp hfield
      exact (hfields old hold).1
    · intro token htoken
      obtain ⟨field, hfield, hin⟩ := mem_floatsOfFields.mp htoken
      obtain ⟨old, hold, rfl⟩ := List.mem_map.mp hfield
      exact (hfields old hold).2 token hin

mutual
/-- Floats that are read as they stand leave the value as it is. -/
theorem withFloats_fixed : ∀ json : Json, (∀ token ∈ floatsOf json, floats token = token) →
    withFloats floats json = json
  | .null, _ => rfl
  | .bool _, _ => rfl
  | .int _, _ => rfl
  | .str _, _ => rfl
  | .decimal token, h => congrArg Json.decimal (h token List.mem_cons_self)
  | .arr values, h => congrArg Json.arr (withFloatsList_fixed values h)
  | .obj fields, h => congrArg Json.obj (withFloatsFields_fixed fields h)
theorem withFloatsList_fixed : ∀ values : List Json, (∀ token ∈ floatsOfList values, floats token = token) →
    withFloatsList floats values = values
  | [], _ => rfl
  | value :: rest, h => by
      rw [floatsOfList, List.forall_mem_append] at h
      rw [withFloatsList, withFloats_fixed value h.1, withFloatsList_fixed rest h.2]
theorem withFloatsFields_fixed : ∀ fields : List (String × Json),
    (∀ token ∈ floatsOfFields fields, floats token = token) → withFloatsFields floats fields = fields
  | [], _ => rfl
  | (key, value) :: rest, h => by
      rw [floatsOfFields, List.forall_mem_append] at h
      rw [withFloatsFields, withFloats_fixed value h.1, withFloatsFields_fixed rest h.2]
end

end Floats

mutual
/-- Sorting the keys adds no float. -/
theorem floatsOf_canonical : ∀ json : Json, ∀ token ∈ floatsOf json.canonical, token ∈ floatsOf json
  | .null, _, h => h
  | .bool _, _, h => h
  | .int _, _, h => h
  | .str _, _, h => h
  | .decimal _, _, h => h
  | .arr values, token, h => by
      rw [Json.canonical, Json.canonicalList_eq_map] at h
      obtain ⟨value, hvalue, hin⟩ := mem_floatsOfList.mp h
      obtain ⟨old, hold, rfl⟩ := List.mem_map.mp hvalue
      exact mem_floatsOfList.mpr ⟨old, hold, floatsOfList_canonical values old hold token hin⟩
  | .obj fields, token, h => by
      obtain ⟨entry, hentry, hin⟩ := mem_floatsOfFields.mp h
      obtain ⟨field, hfield, hvalue⟩ := Json.mem_canonicalParams.mp hentry
      rw [hvalue] at hin
      exact mem_floatsOfFields.mpr ⟨_, hfield, floatsOfFields_canonical fields entry.1 field hfield token hin⟩
theorem floatsOfList_canonical : ∀ values : List Json, ∀ value ∈ values, ∀ token ∈ floatsOf value.canonical,
    token ∈ floatsOf value
  | [], _, h => by cases h
  | first :: rest, value, h => by
      rcases List.mem_cons.mp h with heq | hrest
      · rw [heq]
        exact floatsOf_canonical first
      · exact floatsOfList_canonical rest value hrest
theorem floatsOfFields_canonical : ∀ fields : List (String × Json), ∀ key value, (key, value) ∈ fields →
    ∀ token ∈ floatsOf value.canonical, token ∈ floatsOf value
  | [], _, _, h => by cases h
  | (name, first) :: rest, key, value, h => by
      rcases List.mem_cons.mp h with heq | hrest
      · rw [(Prod.mk.inj heq).2]
        exact floatsOf_canonical first
      · exact floatsOfFields_canonical rest key value hrest
end

/-! ## Bodies -/

section Bodies
variable {floats : String → String} (hfloats : ReprReads floats)
include hfloats

theorem loads_wellFormed {bytes : Bytes} {json : Json} (h : loads floats bytes = some json) (hfinite : Finite json) :
    json.WellFormed ∧ ∀ token ∈ floatsOf json, floats token = token := by
  obtain ⟨literal, hliteral, rfl⟩ := Option.map_eq_some_iff.mp h
  exact written_wellFormed hfloats (scanDocument_written hliteral) hfinite

/-- Where no float of a body is `NaN` or infinite, the body is well formed, its canonical bytes are read as what it
says, and they do not change when they are canonicalised again. Two such bodies have the same canonical bytes exactly
when they say the same. -/
theorem bodies_canonicalise :
    (∀ (body : Bytes) (json : Json), loads floats body = some json → Finite json → json.WellFormed ∧
      ∃ again, loads floats (canonicalJsonBytes json) = some again ∧ again.value = json.value ∧
        canonicalJsonBytes again = canonicalJsonBytes json) ∧
      ∀ (body other : Bytes) (a b : Json), loads floats body = some a → loads floats other = some b →
        Finite a → Finite b → (canonicalJsonBytes a = canonicalJsonBytes b ↔ a.value = b.value) := by
  refine ⟨fun body json h hfinite => ?_, fun body other a b ha hb hfinitea hfiniteb => ?_⟩
  · obtain ⟨hformed, hread⟩ := loads_wellFormed hfloats h hfinite
    have hfixed : withFloats floats json.canonical = json.canonical :=
      withFloats_fixed _ fun token htoken => hread token (floatsOf_canonical json token htoken)
    refine ⟨hformed, json.canonical, ?_, json.value_canonical hformed, ?_⟩
    · rw [loads, canonicalJsonBytes, scanDocument_dumps (json.canonical_wellFormed hformed), Option.map_some, hfixed]
    · rw [canonicalJsonBytes, Json.canonical_canonical]
      rfl
  · exact canonicalJsonBytes_eq_iff (loads_wellFormed hfloats ha hfinitea).1 (loads_wellFormed hfloats hb hfiniteb).1

end Bodies

/-- Writes one and a half as `repr` does. -/
def shortestHalf (literal : String) : String := if literal = "1.50" then "1.5" else literal

theorem shortestHalf_reads : ReprReads shortestHalf where
  decimal := by
    intro literal h
    by_cases hhalf : literal = "1.50"
    · rw [shortestHalf, if_pos hhalf]
      exact .inr ⟨⟨[], ['1'], ['.', '5'], [], rfl, .inl rfl, .inr ⟨⟨by simp, by simp [Char.isDigit]⟩, by simp⟩,
        .inr ⟨['5'], rfl, by simp, by simp [Char.isDigit]⟩, .inl rfl, .inl (by simp)⟩, rfl⟩
    · rw [shortestHalf, if_neg hhalf]
      exact .inr ⟨h, if_neg hhalf⟩
  constant := by decide

/-- Two spellings of one body, with the keys in another order. -/
theorem bodies_canonicalise_reordered : ∃ a b,
    loads shortestHalf (utf8 "\x7b\"a\": -1, \"b\": [1.50, \"\\u006e\"]\x7d") = some a ∧
      loads shortestHalf (utf8 "\x7b \"b\":[1.5,\"n\"], \"a\":-1 \x7d") = some b ∧
        a ≠ b ∧ canonicalJsonBytes a = canonicalJsonBytes b := by
  have hfirst : loads shortestHalf (utf8 "\x7b\"a\": -1, \"b\": [1.50, \"\\u006e\"]\x7d") =
      some (.obj [("a", .int (-1)), ("b", .arr [.decimal "1.5", .str "n"])]) := by decide +kernel
  have hsecond : loads shortestHalf (utf8 "\x7b \"b\":[1.5,\"n\"], \"a\":-1 \x7d") =
      some (.obj [("b", .arr [.decimal "1.5", .str "n"]), ("a", .int (-1))]) := by decide +kernel
  refine ⟨_, _, hfirst, hsecond, by decide,
    ((bodies_canonicalise shortestHalf_reads).2 _ _ _ _ hfirst hsecond (by decide) (by decide)).mpr ?_⟩
  refine congrArg JsonValue.obj (funext fun key => ?_)
  simp only [Json.valueAt]
  by_cases hb : "b" = key
  · subst hb
    simp
  · rw [if_neg hb, if_neg hb]

end TraceQ.Properties
