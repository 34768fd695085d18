import TraceQ.Domain.ContractRules

/-! # What the rules describe

The models read what is shared and what only they ask; a definition of the contract holds of what is
shared and what only it asks. Shown value by value, record by record and payload by payload.
-/
namespace TraceQ
open JsonSchema
set_option autoImplicit false
set_option maxHeartbeats 250000

/-! ## Both grammars of a value -/

theorem isSome_nullable {α : Type} {read : Json → Option α} {value : Json} :
    (nullable read value).isSome = true ↔ value = .null ∨ (read value).isSome = true := by
  cases value <;> simp [nullable]

theorem isSome_mapM {α : Type} {read : Json → Option α} {values : List Json} :
    (values.mapM read).isSome = true ↔ ∀ element ∈ values, (read element).isSome = true := by
  induction values with
  | nil => simp
  | cons value rest ih =>
    rw [List.mapM_cons, List.forall_mem_cons, ← ih]
    cases read value <;> cases rest.mapM read <;> simp

theorem isSome_listOf {α : Type} {read : Json → Option α} {value : Json} :
    (listOf read value).isSome = true ↔
      ∃ values, value = .arr values ∧ ∀ element ∈ values, (read element).isSome = true := by
  cases value with
  | arr values => simp [listOf, isSome_mapM]
  | _ => simp [listOf]

theorem Compares.orNull {α : Type} {c : Comparison} {read : Json → Option α} {s s' : Schema}
    (h : Compares c read s) (hs : ∀ value, s' value = true ↔ value = .null ∨ s value = true) :
    Compares c.orNull (nullable read) s' where
  reads value := by rw [isSome_nullable, h.reads, Comparison.orNull, or_and_left]
  valid value := by rw [hs, h.valid, Comparison.orNull, or_and_left]

theorem compares_boundedText (d : Dialect) (least most : ℕ) :
    Compares (boundedText least most) (text least most) (Contract.string d least most) := by
  constructor
  · intro value
    cases value <;> simp [boundedText, text]
  · intro value
    cases value <;> simp [boundedText, Contract.string, types, hasType, minLength, maxLength]

theorem compares_modelText (d : Dialect) (modelLeast most : ℕ) :
    Compares (modelText 0 modelLeast most) (text modelLeast most) (types d [.string]) := by
  constructor
  · intro value
    cases value <;> simp [modelText, text]
  · intro value
    cases value <;> simp [modelText, types, hasType]

theorem compares_modelText_one (d : Dialect) (most : ℕ) :
    Compares (modelText 1 1 most) (text 1 most) (allOf [types d [.string], minLength 1]) := by
  constructor
  · intro value
    cases value <;> simp [modelText, text]
  · intro value
    cases value <;> simp [modelText, types, hasType, minLength]

theorem compares_someText (d : Dialect) : Compares someText anyText (types d [.string]) := by
  constructor
  · intro value
    cases value <;> simp [someText, anyText]
  · intro value
    cases value <;> simp [someText, types, hasType]

theorem compares_someMapping (d : Dialect) : Compares someMapping anyMapping (types d [.object]) := by
  constructor
  · intro value
    cases value <;> simp [someMapping, anyMapping]
  · intro value
    cases value <;> simp [someMapping, types, hasType]

theorem compares_someScope (d : Dialect) :
    Compares someScope inspectionScope (types d [.object, .array]) := by
  constructor
  · intro value
    cases value <;> simp [someScope, inspectionScope]
  · intro value
    cases value <;> simp [someScope, types, hasType]

theorem isSome_literal {α : Type} {values : List (String × α)} {value : Json} :
    (literal values value).isSome = true ↔ ∃ text ∈ values.map (·.1), value = .str text := by
  cases value with
  | str text =>
    rw [literal, Option.isSome_iff_ne_none, Ne, List.lookup_eq_none_iff]
    simp only [Json.str.injEq, exists_eq_right', List.mem_map, not_forall, bne_iff_ne, ne_eq, not_not,
      exists_prop]
    exact exists_congr fun entry => and_congr_right fun _ => eq_comm
  | _ => simp [literal]

/-- A literal and the enumeration of its values. -/
theorem compares_oneOfTexts {α : Type} (values : List (String × α)) {names : List String}
    (h : values.map (·.1) = names) :
    Compares (oneOfTexts names) (literal values) (enum (Contract.texts names)) := by
  constructor
  · intro value
    rw [isSome_literal, h]
    simp [oneOfTexts]
  · intro value
    rw [enum, Contract.texts, decide_eq_true_eq, List.mem_map, oneOfTexts, and_true]
    exact exists_congr fun text => and_congr_right fun _ => eq_comm

theorem compares_wholeNumber (r : Reading) (d : Dialect) (least : ℤ) :
    Compares (wholeNumber r d least) (fun value => r.readInt value >>= atLeast least)
      (fun value => types d [.integer] value && minimum d least value) := by
  constructor
  · intro value
    cases hread : r.readInt value <;> simp [wholeNumber, hread, atLeast]
  · intro value
    cases value <;> simp [wholeNumber, types, hasType, minimum, number]

theorem compares_timestamp (r : Reading) (d : Dialect) :
    Compares (timestamp r d) r.readDatetime (Contract.dateTime d) := by
  constructor
  · intro value
    simp [timestamp]
  · intro value
    cases value <;> simp [timestamp, Contract.dateTime, types, hasType, dateTimeFormat]

theorem compares_decimalNumber (r : Reading) (d : Dialect) :
    Compares (decimalNumber r d fun x => 0 ≤ x ∧ x ≤ 1) (confidence r)
      (allOf [types d [.number], minimum d 0, maximum d 1]) := by
  constructor
  · intro value
    cases hread : r.readFloat value with
    | none => simp [decimalNumber, confidence, hread]
    | some x =>
      by_cases hbounds : 0 ≤ x ∧ x ≤ 1 <;> simp [decimalNumber, confidence, hread, hbounds]
  · intro value
    cases value <;> simp [decimalNumber, types, hasType, minimum, maximum, number]

/-- The list of one value and the array of its schema. -/
theorem Compares.listed {α : Type} {c : Comparison} {read : Json → Option α} {s : Schema}
    (h : Compares c read s) (d : Dialect) :
    Compares c.listed (listOf read) (allOf [types d [.array], items s]) := by
  constructor
  · intro value
    rw [isSome_listOf]
    cases value with
    | arr values =>
      simp only [Comparison.listed, Json.arr.injEq, exists_eq_left', forall_eq', h.reads, forall₂_and]
    | _ => simp [Comparison.listed]
  · intro value
    cases value with
    | arr values =>
      have htype : types d [.array] (.arr values) = true := rfl
      simp only [Comparison.listed, allOf_iff, List.mem_cons, List.not_mem_nil, or_false, forall_eq_or_imp,
        forall_eq, htype, true_and, items, List.all_eq_true, Json.arr.injEq, exists_eq_left',
        forall_eq', h.valid, forall₂_and]
    | _ => simp [Comparison.listed, types, hasType]

theorem length_mapM {α : Type} {read : Json → Option α} :
    ∀ {values : List Json} {results : List α}, values.mapM read = some results →
      results.length = values.length
  | [], results, h => by cases h; rfl
  | value :: rest, results, h => by
    rw [List.mapM_cons] at h
    cases hvalue : read value with
    | none => simp [hvalue] at h
    | some result =>
      cases hrest : rest.mapM read with
      | none => simp [hvalue, hrest] at h
      | some others =>
        simp only [hvalue, hrest, Option.bind_eq_bind, Option.bind_some, Option.pure_def,
          Option.some.injEq] at h
        rw [← h, List.length_cons, List.length_cons, length_mapM hrest]

theorem isSome_references {value : Json} : (references value).isSome = true ↔
    (listOf anyText value).isSome = true ∧ ∀ values, value = .arr values → values.length ≤ 100 := by
  cases value with
  | arr values =>
    rw [references]
    cases hread : listOf anyText (.arr values) with
    | none => simp
    | some texts =>
      have hlength : texts.length = values.length := length_mapM hread
      by_cases hmost : values.length ≤ 100 <;> simp [hlength, hmost]
  | _ => simp [references, listOf]

theorem compares_boundedReferences (d : Dialect) : Compares (boundedReferences 100) references
    (allOf [types d [.array], items (types d [.string])]) := by
  have hlist := (compares_someText d).listed d
  constructor
  · intro value
    rw [isSome_references, hlist.reads, boundedReferences]
    have hany : someText.listed.validator value := fun _ _ _ _ => trivial
    rw [and_iff_left hany]
  · intro value
    rw [hlist.valid, boundedReferences]
    have hany : someText.listed.schema value := fun _ _ _ _ => trivial
    rw [and_iff_left hany, and_true]

theorem compares_references100 (d : Dialect) : Compares references100 references
    (allOf [types d [.array], items (types d [.string]), maxItems 100]) := by
  constructor
  · intro value
    rw [(compares_boundedReferences d).reads, references100, boundedReferences, and_true]
  · intro value
    have hmost : maxItems 100 value = true ↔ ∀ values, value = .arr values → values.length ≤ 100 := by
      cases value <;> simp [maxItems]
    have hall : allOf [types d [.array], items (types d [.string]), maxItems 100] value = true ↔
        allOf [types d [.array], items (types d [.string])] value = true ∧ maxItems 100 value = true := by
      simp [and_assoc]
    rw [hall, hmost, (compares_boundedReferences d).valid, references100, boundedReferences, and_true,
      and_true]

/-! ### Values that may be null -/

theorem types_orNull (d : Dialect) (allowed : List JsonType) (value : Json) :
    types d (allowed ++ [.null]) value = true ↔ value = .null ∨ types d allowed value = true := by
  have hnull : hasType d .null value = true ↔ value = .null := by cases value <;> simp [hasType]
  rw [types, types, List.any_append, Bool.or_eq_true, or_comm]
  simp [hnull]

theorem compares_boundedText_orNull (d : Dialect) (most : ℕ) : Compares (boundedText 0 most).orNull
    (nullable (text 0 most)) (Contract.nullableString d most) := by
  refine (compares_boundedText d 0 most).orNull fun value => ?_
  cases value <;> simp [Contract.nullableString, Contract.string, types, hasType, minLength, maxLength]

theorem compares_modelText_orNull (d : Dialect) (most : ℕ) : Compares (modelText 0 0 most).orNull
    (nullable (text 0 most)) (types d [.string, .null]) :=
  (compares_modelText d 0 most).orNull (types_orNull d [.string])

theorem compares_someText_orNull (d : Dialect) :
    Compares someText.orNull (nullable anyText) (types d [.string, .null]) :=
  (compares_someText d).orNull (types_orNull d [.string])

theorem compares_someMapping_orNull (d : Dialect) :
    Compares someMapping.orNull (nullable anyMapping) (types d [.object, .null]) :=
  (compares_someMapping d).orNull (types_orNull d [.object])

theorem compares_someScope_orNull (d : Dialect) :
    Compares someScope.orNull (nullable inspectionScope) (types d [.object, .array, .null]) :=
  (compares_someScope d).orNull (types_orNull d [.object, .array])

theorem compares_wholeNumber_orNull (r : Reading) (d : Dialect) {least : ℤ} {bound : ℚ}
    (h : bound = least) : Compares (wholeNumber r d least).orNull
    (nullable fun value => r.readInt value >>= atLeast least)
    (allOf [types d [.integer, .null], minimum d bound]) := by
  refine (compares_wholeNumber r d least).orNull fun value => ?_
  subst h
  cases value <;> simp [types, hasType, minimum, number]

theorem compares_decimalNumber_orNull (r : Reading) (d : Dialect) :
    Compares (decimalNumber r d fun x => 0 ≤ x ∧ x ≤ 1).orNull (nullable (confidence r))
      (allOf [types d [.number, .null], minimum d 0, maximum d 1]) := by
  refine (compares_decimalNumber r d).orNull fun value => ?_
  cases value <;> simp [types, hasType, minimum, maximum, number]

/-- An enumeration that lists `null` last. -/
theorem compares_oneOfTexts_orNull {α : Type} (values : List (String × α)) {names : List String}
    (h : values.map (·.1) = names) : Compares (oneOfTexts names).orNull (nullable (literal values))
    (enum (Contract.texts names ++ [.null])) := by
  refine (compares_oneOfTexts values h).orNull fun value => ?_
  rw [enum, enum, decide_eq_true_eq, decide_eq_true_eq, List.mem_append, List.mem_singleton, or_comm]

theorem compares_optionalId_orNull (d : Dialect) (value : Json) :
    Contract.envelopeId d value = true ↔ optionalId.orNull.shared value ∧ optionalId.orNull.schema value := by
  cases value <;> simp [optionalId, Comparison.orNull, Contract.envelopeId, types, hasType, minLength,
    maxLength, and_comm]

/-! ## Both grammars of a record -/

/-- What a model reads of its fields. -/
def Reads (rules : List FieldRule) (fields : Params) : Prop :=
  ∀ rule ∈ rules, Given rule.required (fields.lookup rule.key) fun value =>
    rule.shared value ∧ rule.validator value

theorem given_iff {required : Bool} {value : Option Json} {p : Json → Prop} : Given required value p ↔
    (required = true → value.isSome = true) ∧ ∀ given, value = some given → p given := by
  cases value <;> simp [Given]

theorem sharedFields_and {rules : List FieldRule} {fields : Params} {q : FieldRule → Json → Prop} :
    (SharedFields rules fields ∧
      ∀ rule ∈ rules, ∀ value, fields.lookup rule.key = some value → q rule value) ↔
    onlyKeys (rules.map (·.key)) fields = true ∧ ∀ rule ∈ rules,
      Given rule.required (fields.lookup rule.key) fun value => rule.shared value ∧ q rule value := by
  simp only [SharedFields, given_iff, and_assoc]
  refine and_congr_right fun _ => ?_
  rw [← forall₂_and]
  refine forall₂_congr fun rule _ => ?_
  rw [and_assoc, ← forall₂_and]

theorem forall_mem_iff_of_forall₂ {α β : Type} {p : α → Prop} {q : β → Prop} {as : List α}
    {bs : List β} (h : List.Forall₂ (fun a b => p a ↔ q b) as bs) :
    (∀ a ∈ as, p a) ↔ ∀ b ∈ bs, q b := by
  induction h with
  | nil => simp
  | cons hab _ ih => rw [List.forall_mem_cons, List.forall_mem_cons, hab, ih]

/-- The rule is about the key and the schema of the property. -/
def RuleOf (rule : FieldRule) (property : String × Schema) : Prop :=
  rule.key = property.1 ∧ ∀ value, property.2 value = true ↔ rule.shared value ∧ rule.schema value

/-- The schema of a record, given the schemas of its fields. -/
theorem valid_record {d : Dialect} {rules : List FieldRule} {keys : List String}
    {schemas : List (String × Schema)} (hkeys : keys = (rules.filter (·.required)).map (·.key))
    (hschemas : List.Forall₂ RuleOf rules schemas) {value : Json} :
    closedObject d keys schemas value = true ↔
      ∃ fields, value = .obj fields ∧ SharedFields rules fields ∧ SchemaFields rules fields := by
  have hnames : rules.map (·.key) = schemas.map (·.1) := by
    rw [← List.forall₂_eq_eq_eq, List.forall₂_map_left_iff, List.forall₂_map_right_iff]
    exact hschemas.imp fun _ _ h => h.1
  rw [closedObject_iff]
  refine exists_congr fun fields => and_congr_right fun _ => ?_
  have honly : (∀ field ∈ fields, field.1 ∈ schemas.map (·.1)) ↔
      onlyKeys (rules.map (·.key)) fields = true := by
    rw [onlyKeys, List.all_eq_true, hnames]
    simp only [List.contains_iff_mem]
  have hvalues : (∀ rule ∈ rules, ∀ value, fields.lookup rule.key = some value →
      rule.shared value ∧ rule.schema value) ↔ ∀ property ∈ schemas, ∀ value,
        fields.lookup property.1 = some value → property.2 value = true := by
    refine forall_mem_iff_of_forall₂ (hschemas.imp fun rule property h => ?_)
    rw [h.1]
    exact forall₂_congr fun value _ => (h.2 value).symm
  have hgiven : (∀ key ∈ keys, (fields.lookup key).isSome = true) ↔
      ∀ rule ∈ rules, rule.required = true → (fields.lookup rule.key).isSome = true := by
    rw [hkeys]
    simp only [List.forall_mem_map, List.mem_filter, and_imp]
  rw [SchemaFields, sharedFields_and, honly, ← hvalues, hgiven]
  refine and_congr_right fun _ => ?_
  rw [← forall₂_and]
  exact forall₂_congr fun rule _ => given_iff.symm

/-- A nested record in both grammars. -/
theorem compares_record {α : Type} {d : Dialect} {rules : List FieldRule} {allowed keys : List String}
    {read : Params → Option α} {schemas : List (String × Schema)}
    (hallowed : allowed = rules.map (·.key))
    (hread : ∀ fields, (read fields).isSome = true ↔ Reads rules fields)
    (hkeys : keys = (rules.filter (·.required)).map (·.key))
    (hschemas : List.Forall₂ RuleOf rules schemas) :
    Compares (Comparison.record rules) (model allowed read) (closedObject d keys schemas) := by
  have hiff : ∀ {value : Json} {p q : Params → Prop}, ((∃ fields, value = .obj fields ∧ p fields) ∧
      ∀ fields, value = .obj fields → q fields) ↔ ∃ fields, value = .obj fields ∧ p fields ∧ q fields := by
    rintro value p q
    constructor
    · rintro ⟨⟨fields, rfl, hp⟩, hq⟩
      exact ⟨fields, rfl, hp, hq fields rfl⟩
    · rintro ⟨fields, rfl, hp, hq⟩
      refine ⟨⟨fields, rfl, hp⟩, fun other hsame => ?_⟩
      rwa [← Json.obj.inj hsame]
  constructor
  · intro value
    rw [Comparison.record, hiff]
    cases value with
    | obj fields =>
      simp only [Json.obj.injEq, exists_eq_left']
      rw [ValidatorFields, sharedFields_and, model, ← hallowed]
      by_cases honly : onlyKeys allowed fields = true
      · rw [if_pos honly, hread, Reads]
        exact (and_iff_right honly).symm
      · simp [honly]
    | _ => simp [model]
  · intro value
    rw [Comparison.record, hiff]
    exact valid_record hkeys hschemas

/-! ### What the models read -/

section Reading

theorem isSome_required {α : Type} {fields : Params} {key : String} {read : Json → Option α} :
    (required fields key read).isSome = true ↔
      Given true (fields.lookup key) fun value => (read value).isSome = true := by
  cases h : fields.lookup key <;> simp [required, Given, h]

theorem isSome_optional {α : Type} {fields : Params} {key : String} {default : α}
    {read : Json → Option α} : (optional fields key default read).isSome = true ↔
      Given false (fields.lookup key) fun value => (read value).isSome = true := by
  cases h : fields.lookup key <;> simp [optional, Given, h]

/-- A read whose success does not depend on the first value. -/
theorem isSome_bind_then {α β : Type} {x : Option α} {f : α → Option β} {p : Prop}
    (h : ∀ a, (f a).isSome = true ↔ p) : (x.bind f).isSome = true ↔ x.isSome = true ∧ p := by
  cases x with
  | none => simp
  | some a => simp [h a]

theorem isSome_then {α β : Type} {x : Option α} {f : α → Option β} {p : Prop}
    (h : ∀ a, (f a).isSome = true ↔ p) : (x >>= f).isSome = true ↔ x.isSome = true ∧ p :=
  isSome_bind_then h

theorem isSome_last {α β : Type} {x : Option α} {f : α → β} :
    (x >>= fun a => pure (f a)).isSome = true ↔ x.isSome = true := by
  cases x <;> simp

end Reading

theorem sourceRef_compares (r : Reading) (d : Dialect) : Compares (Comparison.record (sourceRules r d))
    (model ["source_id", "source_type", "sequence"] (sourceRef r)) (Contract.source d) := by
  have hzero : (0 : ℚ) = ((0 : ℤ) : ℚ) := Int.cast_zero.symm
  refine compares_record rfl (fun fields => ?_) rfl
    (.cons ⟨rfl, (compares_boundedText d 1 128).valid⟩ (.cons ⟨rfl, (compares_boundedText d 1 64).valid⟩
      (.cons ⟨rfl, (compares_wholeNumber_orNull r d hzero).valid⟩ .nil)))
  unfold sourceRef
  rw [isSome_then fun _ => isSome_then fun _ => isSome_last]
  simp only [isSome_required, isSome_optional, (compares_boundedText d _ _).reads,
    (compares_wholeNumber_orNull r d hzero).reads, Reads, sourceRules, List.forall_mem_cons,
    List.not_mem_nil, false_imp_iff, implies_true, and_true]

theorem isSome_guarded {α β : Type} {fields : Params} {key : String} {read : Json → Option α}
    {q : α → Prop} [DecidablePred q] {f : α → Option β} {p : Prop} (h : ∀ a, (f a).isSome = true ↔ p) :
    (required fields key read >>= fun a => guard (q a) >>= fun _ => f a).isSome = true ↔
      (Given true (fields.lookup key) fun value => ∃ a, read value = some a ∧ q a) ∧ p := by
  cases hkey : fields.lookup key with
  | none => simp [required, hkey, Given]
  | some value =>
    cases hread : read value with
    | none => simp [required, hkey, hread, Given]
    | some a =>
      by_cases hq : q a
      · simp [required, hkey, hread, Given, hq, h a]
      · simp [required, hkey, hread, Given, hq]

theorem duration_compares (r : Reading) (d : Dialect) : Compares (Comparison.record (durationRules r d))
    (model ["value", "unit", "meaning"] (duration r)) (Contract.duration d) := by
  have hunit := compares_oneOfTexts [("ms", DurationUnit.ms), ("s", .s), ("min", .min),
    ("h", .h)] rfl
  refine compares_record rfl (fun fields => ?_) rfl (.cons ⟨rfl, fun value => ?_⟩
    (.cons ⟨rfl, hunit.valid⟩ (.cons ⟨rfl, (compares_boundedText d 1 64).valid⟩ .nil)))
  · unfold duration
    rw [isSome_guarded fun _ => isSome_then fun _ => isSome_last]
    simp only [isSome_required, (compares_boundedText d _ _).reads, hunit.reads, Reads, durationRules,
      decimalNumber, true_and, List.forall_mem_cons, List.not_mem_nil, false_imp_iff, implies_true,
      and_true, List.map_cons, List.map_nil]
  · cases value <;> simp [decimalNumber, types, hasType, minimum, number]

theorem compares_duration_orNull (r : Reading) (d : Dialect) :
    Compares (Comparison.record (durationRules r d)).orNull
      (nullable (model ["value", "unit", "meaning"] (duration r)))
      (oneOf [Contract.duration d, types d [.null]]) := by
  refine (duration_compares r d).orNull fun value => ?_
  cases value with
  | obj fields =>
    have hnull : types d [.null] (.obj fields) = false := rfl
    cases hvalid : Contract.duration d (.obj fields) <;> simp [oneOf, hnull, hvalid]
  | _ => simp [oneOf, types, hasType, Contract.duration, closedObject, allOf]

theorem defect_compares (d : Dialect) : Compares (Comparison.record defectRules)
    (model ["defect_type", "description", "severity", "component_instance_id"] defect)
    (Contract.defect d) := by
  have hseverity := compares_oneOfTexts_orNull [("minor", Severity.minor), ("major", .major),
    ("critical", .critical)] rfl
  refine compares_record rfl (fun fields => ?_) rfl
    (.cons ⟨rfl, (compares_boundedText d 1 128).valid⟩
      (.cons ⟨rfl, (compares_boundedText_orNull d 2000).valid⟩ (.cons ⟨rfl, hseverity.valid⟩
        (.cons ⟨rfl, (compares_boundedText_orNull d 128).valid⟩ .nil))))
  unfold defect
  rw [isSome_then fun _ => isSome_then fun _ => isSome_then fun _ => isSome_last]
  simp only [isSome_required, isSome_optional, (compares_boundedText d _ _).reads,
    (compares_boundedText_orNull d _).reads, hseverity.reads, Reads, defectRules, List.forall_mem_cons,
    List.not_mem_nil, false_imp_iff, implies_true, and_true, List.map_cons, List.map_nil]

/-! ## Both grammars of a payload -/

structure Describes (r : Reading) (rules : PayloadRules) (payload : PayloadModel) (s : Schema) :
    Prop where
  keys : payload.keys = rules.fields.map (·.key)
  reads : ∀ fields, (∃ value, payload.read r fields = .ok value) ↔
    Reads rules.fields fields ∧ rules.cross fields
  needs : ∀ fields value, payload.read r fields = .ok value →
    value.needsItem = rules.needsItem ∧ value.needsRun = rules.needsRun
  valid : ∀ value, s value = true ↔
    ∃ fields, value = .obj fields ∧ SharedFields rules.fields fields ∧ SchemaFields rules.fields fields

/-- A payload model without rules across fields. -/
theorem describes_checked {α : Type} {r : Reading} {d : Dialect} {rules : PayloadRules}
    {allowed keys : List String} (read : Reading → Params → Option α) {make : α → Payload}
    {schemas : List (String × Schema)} (hallowed : allowed = rules.fields.map (·.key))
    (hreads : ∀ fields, (read r fields).isSome = true ↔ Reads rules.fields fields ∧ rules.cross fields)
    (hneeds : ∀ a, (make a).needsItem = rules.needsItem ∧ (make a).needsRun = rules.needsRun)
    (hkeys : keys = (rules.fields.filter (·.required)).map (·.key))
    (hschemas : List.Forall₂ RuleOf rules.fields schemas) :
    Describes r rules ⟨allowed, fun r fields => make <$> checked (read r fields)⟩
      (closedObject d keys schemas) where
  keys := hallowed
  reads fields := by
    rw [← hreads]
    cases hread : read r fields <;> simp [checked, hread]
  needs fields value h := by
    cases hread : read r fields with
    | none => simp [checked, hread] at h
    | some a =>
      simp only [checked, hread, Except.map, Functor.map, Except.ok.injEq] at h
      exact h ▸ hneeds a
  valid value := valid_record hkeys hschemas

section Describe
variable (r : Reading) (d : Dialect)

theorem itemRegistered_describes : Describes r (itemRegisteredPayload r d)
    ⟨["product_definition_id", "revision", "line_id", "route_id", "route_revision"],
      fun r fields => .itemRegistered <$> checked (itemRegistered r fields)⟩
    (Contract.itemRegistered d) := by
  have hone : (1 : ℚ) = ((1 : ℤ) : ℚ) := Int.cast_one.symm
  refine describes_checked itemRegistered rfl (fun fields => ?_) (fun _ => ⟨rfl, rfl⟩) rfl
    (.cons ⟨rfl, (compares_modelText_one d 128).valid⟩ (.cons ⟨rfl, (compares_modelText_one d 64).valid⟩
      (.cons ⟨rfl, (compares_modelText_orNull d 128).valid⟩
        (.cons ⟨rfl, (compares_modelText_orNull d 128).valid⟩
          (.cons ⟨rfl, (compares_wholeNumber_orNull r d hone).valid⟩ .nil)))))
  unfold itemRegistered
  rw [isSome_then fun _ => isSome_then fun _ => isSome_then fun _ => isSome_then fun _ => isSome_last]
  simp only [isSome_required, isSome_optional, (compares_modelText_one d _).reads,
    (compares_modelText_orNull d _).reads, (compares_wholeNumber_orNull r d hone).reads, Reads,
    itemRegisteredPayload, itemRegisteredRules, List.forall_mem_cons, List.not_mem_nil, false_imp_iff,
    implies_true, and_true]

theorem operationStarted_describes : Describes r operationStartedPayload
    ⟨["operation_id", "operator_id", "equipment_id", "station_id", "parameters",
        "previous_operation_run_id", "run_reason", "rework_for_nonconformance_id"],
      fun _ fields => .operationStarted <$> checked (operationStarted fields)⟩
    (Contract.operationStarted d) := by
  have hreason := compares_oneOfTexts
    [("production", RunReason.production), ("rework", .rework)] rfl
  have htext := (compares_modelText d 1 128).valid
  refine describes_checked (fun _ => operationStarted) rfl (fun fields => ?_)
    (fun _ => ⟨rfl, rfl⟩) rfl
    (.cons ⟨rfl, htext⟩ (.cons ⟨rfl, htext⟩ (.cons ⟨rfl, htext⟩ (.cons ⟨rfl, htext⟩
      (.cons ⟨rfl, (compares_someMapping_orNull d).valid⟩
        (.cons ⟨rfl, (compares_modelText_orNull d 128).valid⟩ (.cons ⟨rfl, hreason.valid⟩
          (.cons ⟨rfl, (compares_someText_orNull d).valid⟩ .nil))))))))
  unfold operationStarted
  rw [isSome_then fun _ => isSome_then fun _ => isSome_then fun _ => isSome_then fun _ =>
    isSome_then fun _ => isSome_then fun _ => isSome_then fun _ => isSome_last]
  simp only [isSome_required, isSome_optional, (compares_modelText d _ _).reads,
    (compares_modelText_orNull d _).reads, (compares_someText_orNull d).reads,
    (compares_someMapping_orNull d).reads, hreason.reads, Reads, operationStartedPayload,
    operationStartedRules, List.forall_mem_cons, List.not_mem_nil, false_imp_iff, implies_true, and_true,
    List.map_cons, List.map_nil]

theorem operationFinished_describes : Describes r (operationFinishedPayload r d)
    ⟨["completion_status", "duration", "stop_reason", "parameters"],
      fun r fields => .operationFinished <$> checked (operationFinished r fields)⟩
    (Contract.operationFinished d) := by
  have hstatus := compares_oneOfTexts [("completed", CompletionStatus.completed),
    ("failed", .failed), ("aborted", .aborted), ("interrupted", .interrupted)] rfl
  refine describes_checked operationFinished rfl (fun fields => ?_) (fun _ => ⟨rfl, rfl⟩) rfl
    (.cons ⟨rfl, hstatus.valid⟩ (.cons ⟨rfl, (compares_duration_orNull r d).valid⟩
      (.cons ⟨rfl, (compares_modelText_orNull d 1000).valid⟩
        (.cons ⟨rfl, (compares_someMapping_orNull d).valid⟩ .nil))))
  unfold operationFinished
  rw [isSome_then fun _ => isSome_then fun _ => isSome_then fun _ => isSome_last]
  simp only [isSome_required, isSome_optional, (compares_modelText_orNull d _).reads,
    (compares_someMapping_orNull d).reads, hstatus.reads, (compares_duration_orNull r d).reads, Reads,
    operationFinishedPayload, operationFinishedRules, List.forall_mem_cons, List.not_mem_nil,
    false_imp_iff, implies_true, and_true, List.map_cons, List.map_nil]

theorem machineState_describes : Describes r machineStatePayload
    ⟨["equipment_id", "state", "code", "parameters"],
      fun _ fields => .machineState <$> checked (machineState fields)⟩ (Contract.machineState d) := by
  refine describes_checked (fun _ => machineState) rfl (fun fields => ?_) (fun _ => ⟨rfl, rfl⟩) rfl
    (.cons ⟨rfl, (compares_modelText d 1 128).valid⟩ (.cons ⟨rfl, (compares_modelText d 1 64).valid⟩
      (.cons ⟨rfl, (compares_modelText_orNull d 64).valid⟩
        (.cons ⟨rfl, (compares_someMapping_orNull d).valid⟩ .nil))))
  unfold machineState
  rw [isSome_then fun _ => isSome_then fun _ => isSome_then fun _ => isSome_last]
  simp only [isSome_required, isSome_optional, (compares_modelText d _ _).reads,
    (compares_modelText_orNull d _).reads, (compares_someMapping_orNull d).reads, Reads,
    machineStatePayload, machineStateRules, List.forall_mem_cons, List.not_mem_nil, false_imp_iff,
    implies_true, and_true]

theorem operatorAction_describes : Describes r operatorActionPayload
    ⟨["operator_id", "action_type", "parameters"],
      fun _ fields => .operatorAction <$> checked (operatorAction fields)⟩
    (Contract.operatorAction d) := by
  refine describes_checked (fun _ => operatorAction) rfl (fun fields => ?_)
    (fun _ => ⟨rfl, rfl⟩) rfl
    (.cons ⟨rfl, (compares_modelText d 1 128).valid⟩ (.cons ⟨rfl, (compares_modelText d 1 64).valid⟩
      (.cons ⟨rfl, (compares_someMapping_orNull d).valid⟩ .nil)))
  unfold operatorAction
  rw [isSome_then fun _ => isSome_then fun _ => isSome_last]
  simp only [isSome_required, isSome_optional, (compares_modelText d _ _).reads,
    (compares_someMapping_orNull d).reads, Reads, operatorActionPayload, operatorActionRules,
    List.forall_mem_cons, List.not_mem_nil, false_imp_iff, implies_true, and_true]

theorem read_defects {α : Type} {fields : Params} {read : Json → Option α} {defects : List α}
    (h : optional fields "defects" [] (listOf read) = some defects) :
    defects ≠ [] ↔ ∃ first rest, fields.lookup "defects" = some (.arr (first :: rest)) := by
  rw [optional] at h
  cases hlookup : fields.lookup "defects" with
  | none =>
    rw [hlookup] at h
    obtain rfl := Option.some.inj h
    simp
  | some value =>
    rw [hlookup] at h
    cases value with
    | arr values =>
      have hlength := length_mapM (h : values.mapM read = some defects)
      cases values with
      | nil => simp [List.length_eq_zero_iff.mp hlength]
      | cons first rest =>
        have hne : defects ≠ [] := by
          rintro rfl
          simp at hlength
        simp [hne]
    | _ => simp [listOf] at h

theorem read_result {fields : Params} {result : InspectionResult}
    (h : required fields "inspection_result" (literal [("no_defect", .noDefect),
      ("defect_detected", .defectDetected), ("impossible_to_assess", .impossibleToAssess)]) =
      some result) :
    result = .defectDetected ↔ fields.lookup "inspection_result" = some (.str "defect_detected") := by
  obtain ⟨value, hlookup, hvalue⟩ := Option.bind_eq_some_iff.mp h
  rw [hlookup, Option.some.injEq]
  cases value with
  | str text =>
    obtain ⟨front, back, hentries, -⟩ := List.lookup_eq_some_iff.mp hvalue
    have hmem : (text, result) ∈ [("no_defect", InspectionResult.noDefect),
        ("defect_detected", .defectDetected), ("impossible_to_assess", .impossibleToAssess)] := by
      rw [hentries]
      exact List.mem_append_right _ List.mem_cons_self
    simp only [List.mem_cons, Prod.mk.injEq, List.not_mem_nil, or_false] at hmem
    rcases hmem with ⟨rfl, rfl⟩ | ⟨rfl, rfl⟩ | ⟨rfl, rfl⟩ <;> simp
  | _ => simp [literal] at hvalue

theorem isSome_dite {α : Type} {p : Prop} [Decidable p] {f : p → α} :
    (if h : p then some (f h) else none).isSome = true ↔ p := by
  by_cases h : p <;> simp [h]

theorem compares_results : Compares (oneOfTexts ["no_defect", "defect_detected", "impossible_to_assess"])
    (literal [("no_defect", InspectionResult.noDefect), ("defect_detected", .defectDetected),
      ("impossible_to_assess", .impossibleToAssess)])
    (enum (Contract.texts ["no_defect", "defect_detected", "impossible_to_assess"])) :=
  compares_oneOfTexts _ rfl

theorem compares_qualities : Compares (oneOfTexts ["good", "poor", "unknown"])
    (literal [("good", ObservationQuality.good), ("poor", .poor), ("unknown", .unknown)])
    (enum (Contract.texts ["good", "poor", "unknown"])) :=
  compares_oneOfTexts _ rfl

theorem inspectionResult_reads (fields : Params) : (inspectionResult r fields).isSome = true ↔
    Reads (inspectionResultRules r d) fields ∧ defectsListed fields := by
  have hreads : Reads (inspectionResultRules r d) fields ↔
      (required fields "inspection_result" (literal [("no_defect", InspectionResult.noDefect),
        ("defect_detected", .defectDetected),
        ("impossible_to_assess", .impossibleToAssess)])).isSome = true ∧
      (required fields "observation_quality" (literal [("good", ObservationQuality.good),
        ("poor", .poor), ("unknown", .unknown)])).isSome = true ∧
      (required fields "control_point_id" (text 1 128)).isSome = true ∧
      (optional fields "confidence" none (nullable (confidence r))).isSome = true ∧
      (optional fields "inspection_scope" none (nullable inspectionScope)).isSome = true ∧
      (optional fields "defects" [] (listOf (model ["defect_type", "description", "severity",
        "component_instance_id"] defect))).isSome = true ∧
      (optional fields "evidence_refs" [] references).isSome = true ∧
      (optional fields "component_instance_id" none (nullable (text 0 128))).isSome = true ∧
      (optional fields "control_device_id" none (nullable (text 0 128))).isSome = true ∧
      (optional fields "capture_session_id" none (nullable (text 0 128))).isSome = true := by
    simp only [isSome_required, isSome_optional, (compares_modelText d _ _).reads,
      (compares_modelText_orNull d _).reads, (compares_decimalNumber_orNull r d).reads,
      (compares_someScope_orNull d).reads, ((defect_compares d).listed d).reads,
      (compares_boundedReferences d).reads, compares_results.reads, compares_qualities.reads, Reads,
      inspectionResultRules, List.forall_mem_cons, List.not_mem_nil, false_imp_iff, implies_true,
      and_true]
  rw [hreads, inspectionResult]
  cases hresult : required fields "inspection_result" (literal [("no_defect", InspectionResult.noDefect),
    ("defect_detected", .defectDetected), ("impossible_to_assess", .impossibleToAssess)]) with
  | none => simp
  | some result =>
    cases hdefects : optional fields "defects" [] (listOf (model ["defect_type", "description",
      "severity", "component_instance_id"] defect)) with
    | none => simp
    | some defects =>
      have hlisted : defectsListed fields ↔ (result = .defectDetected ↔ defects ≠ []) := by
        rw [defectsListed, read_result hresult, read_defects hdefects]
      rw [hlisted]
      simp only [Option.bind_eq_bind, Option.bind_some, Option.isSome_some, true_and]
      rw [isSome_bind_then fun _ => isSome_bind_then fun _ => isSome_bind_then fun _ =>
        isSome_bind_then fun _ => isSome_bind_then fun _ => isSome_bind_then fun _ =>
        isSome_bind_then fun _ => isSome_bind_then fun _ => isSome_dite]
      simp only [and_assoc]

theorem inspectionResult_describes : Describes r (inspectionResultPayload r d)
    ⟨["inspection_result", "observation_quality", "control_point_id", "confidence",
        "inspection_scope", "defects", "evidence_refs", "component_instance_id",
        "control_device_id", "capture_session_id"],
      fun r fields => .inspectionResult <$> checked (inspectionResult r fields)⟩
    (Contract.inspectionResult d) := by
  have htext := (compares_modelText_orNull d 128).valid
  exact describes_checked inspectionResult rfl (inspectionResult_reads r d) (fun _ => ⟨rfl, rfl⟩) rfl
    (.cons ⟨rfl, compares_results.valid⟩ (.cons ⟨rfl, compares_qualities.valid⟩
      (.cons ⟨rfl, (compares_modelText d 1 128).valid⟩
        (.cons ⟨rfl, (compares_decimalNumber_orNull r d).valid⟩
          (.cons ⟨rfl, (compares_someScope_orNull d).valid⟩
            (.cons ⟨rfl, ((defect_compares d).listed d).valid⟩
              (.cons ⟨rfl, (compares_boundedReferences d).valid⟩
                (.cons ⟨rfl, htext⟩ (.cons ⟨rfl, htext⟩ (.cons ⟨rfl, htext⟩ .nil))))))))))

theorem invalidationFields_reads (fields : Params) : (invalidationFields r fields).isSome = true ↔
    Reads (controlDeviceInvalidatedRules r d) fields := by
  unfold invalidationFields
  rw [isSome_then fun _ => isSome_then fun _ => isSome_then fun _ => isSome_then fun _ =>
    isSome_then fun _ => isSome_last]
  simp only [isSome_required, isSome_optional, (compares_boundedText d _ _).reads,
    (compares_boundedText_orNull d _).reads, (compares_timestamp r d).reads,
    (compares_references100 d).reads, Reads, controlDeviceInvalidatedRules, List.forall_mem_cons,
    List.not_mem_nil, false_imp_iff, implies_true, and_true]

theorem invalidationFields_period {r : Reading} {fields : Params} {p : InvalidationFields}
    (h : invalidationFields r fields = some p) :
    required fields "affected_from" r.readDatetime = some p.affectedFrom ∧
      required fields "affected_to" r.readDatetime = some p.affectedTo := by
  simp only [invalidationFields, Option.bind_eq_bind, Option.bind_eq_some_iff, Option.pure_def,
    Option.some.injEq] at h
  obtain ⟨_, -, start, hstart, finish, hfinish, _, -, _, -, _, -, rfl⟩ := h
  exact ⟨hstart, hfinish⟩

theorem validatePeriod_ok (p : InvalidationFields) : (∃ payload, validatePeriod p = .ok payload) ↔
    p.affectedFrom.offset.isSome = p.affectedTo.offset.isSome ∧
      p.affectedFrom.instant ≤ p.affectedTo.instant := by
  rw [validatePeriod, InvalidationFields.mixed]
  by_cases hmixed : p.affectedFrom.offset.isSome = p.affectedTo.offset.isSome
  · by_cases hordered : p.affectedFrom.instant ≤ p.affectedTo.instant <;> simp [hmixed, hordered]
  · simp [hmixed]

theorem controlDeviceInvalidated_describes : Describes r (controlDeviceInvalidatedPayload r d)
    ⟨["device_id", "affected_from", "affected_to", "reason", "invalidation_type",
        "supporting_evidence_refs"],
      fun r fields => do
        let payload ← checked (invalidationFields r fields)
        .controlDeviceInvalidated <$> validatePeriod payload⟩
    (Contract.controlDeviceInvalidated d) where
  keys := rfl
  reads fields := by
    have hreads := invalidationFields_reads r d fields
    cases hread : invalidationFields r fields with
    | none =>
      refine iff_of_false (by simp [checked, hread, bind, Except.bind]) fun h => ?_
      rw [controlDeviceInvalidatedPayload, ← hreads, hread] at h
      exact absurd h.1 (by simp)
    | some p =>
      obtain ⟨hstart, hfinish⟩ := invalidationFields_period hread
      rw [hread, Option.isSome_some, eq_self_iff_true, true_iff] at hreads
      have hperiod : periodOrdered r fields ↔ ∃ payload, validatePeriod p = .ok payload := by
        rw [validatePeriod_ok, periodOrdered, hstart, hfinish]
        simp
      change _ ↔ Reads (controlDeviceInvalidatedRules r d) fields ∧ periodOrdered r fields
      rw [and_iff_right hreads, hperiod]
      cases hvalid : validatePeriod p <;> simp [checked, hread, bind, Except.bind, hvalid]
  needs fields value h := by
    cases hread : invalidationFields r fields with
    | none => simp [checked, hread, bind, Except.bind] at h
    | some p =>
      cases hvalid : validatePeriod p with
      | error e => simp [checked, hread, bind, Except.bind, hvalid] at h
      | ok payload =>
        simp only [checked, hread, bind, Except.bind, hvalid, Functor.map, Except.map,
          Except.ok.injEq] at h
        exact h ▸ ⟨rfl, rfl⟩
  valid value := by
    have htext := (compares_boundedText d 1 128).valid
    have htime := (compares_timestamp r d).valid
    rw [Contract.controlDeviceInvalidated]
    refine valid_record ?_ ?_
    · rfl
    exact .cons ⟨rfl, htext⟩ (.cons ⟨rfl, htime⟩ (.cons ⟨rfl, htime⟩
      (.cons ⟨rfl, (compares_boundedText d 3 2000).valid⟩
        (.cons ⟨rfl, (compares_boundedText_orNull d 64).valid⟩
          (.cons ⟨rfl, (compares_references100 d).valid⟩ .nil)))))

end Describe

end TraceQ
