import TraceQ.Domain.ContractMeaning
import TraceQ.Properties.Rejection

/-! # Validator and contract

`validate_event` and `canonical-event.schema.json` accept the same objects as long as neither breaks a rule
that only the other has.
-/
namespace TraceQ.Properties
open JsonSchema Tables
set_option autoImplicit false
set_option maxHeartbeats 250000

/-! ## The two grammars of an event -/

def Validated (r : Reading) (value : Json) : Prop := ∃ event, validateEvent r value = .ok event

/-- The payload contains no key that only old payloads carry. -/
def NoLegacyKeys (r : Reading) (fields : Params) : Prop :=
  ∀ payload, payloadDict r fields = .ok payload →
    ∀ key ∈ ["item_id", "operation_run_id", "duration_seconds"], payload.fields.lookup key = none

/-- The event type is known, and the payload is read as these fields. -/
structure Recognised (r : Reading) (d : Dialect) (fields : Params) (rules : PayloadRules)
    (payload : Params) : Prop where
  eventType : ∃ name, fields.lookup "event_type" = some (.str name) ∧
    (payloadRules r d).lookup name = some rules
  payload : payloadDict r fields = .ok { fields := payload }

/-- What both grammars ask of an event. -/
def SharedRules (r : Reading) (d : Dialect) (fields : Params) : Prop :=
  ∃ rules payload, Recognised r d fields rules payload ∧ SharedFields (envelopeRules r d) fields ∧
    SharedFields rules.fields payload

/-- What only `validate_event` asks. -/
def ValidatorRules (r : Reading) (d : Dialect) (fields : Params) : Prop :=
  ∀ rules payload, Recognised r d fields rules payload →
    ValidatorFields (envelopeRules r d) fields ∧
    (rules.needsItem = true → NamesKey fields "item_id") ∧
    (rules.needsRun = true → NamesKey fields "operation_run_id") ∧
    ValidatorFields rules.fields payload ∧ rules.cross payload

/-- What only the contract asks. -/
def SchemaRules (r : Reading) (d : Dialect) (fields : Params) : Prop :=
  ∀ rules payload, Recognised r d fields rules payload →
    SchemaFields (envelopeRules r d) fields ∧ SchemaFields rules.fields payload

theorem Recognised.unique {r : Reading} {d : Dialect} {fields : Params} {rules rules' : PayloadRules}
    {payload payload' : Params} (h : Recognised r d fields rules payload)
    (h' : Recognised r d fields rules' payload') : rules' = rules ∧ payload' = payload := by
  obtain ⟨⟨name, hname, hrules⟩, hpayload⟩ := h
  obtain ⟨⟨name', hname', hrules'⟩, hpayload'⟩ := h'
  obtain rfl : name = name' := Json.str.inj (Option.some.inj (hname.symm.trans hname'))
  exact ⟨Option.some.inj (hrules'.symm.trans hrules),
    congrArg LegacyPayload.fields (Except.ok.inj (hpayload'.symm.trans hpayload))⟩

/-- Shared rules beside rules of one side, about the one reading of the event. -/
theorem shared_and {r : Reading} {d : Dialect} {fields : Params} {q : PayloadRules → Params → Prop} :
    (SharedRules r d fields ∧ ∀ rules payload, Recognised r d fields rules payload → q rules payload) ↔
    ∃ rules payload, Recognised r d fields rules payload ∧ SharedFields (envelopeRules r d) fields ∧
      SharedFields rules.fields payload ∧ q rules payload := by
  constructor
  · rintro ⟨⟨rules, payload, hread, henvelope, hpayload⟩, hall⟩
    exact ⟨rules, payload, hread, henvelope, hpayload, hall rules payload hread⟩
  · rintro ⟨rules, payload, hread, henvelope, hpayload, hq⟩
    refine ⟨⟨rules, payload, hread, henvelope, hpayload⟩, fun rules' payload' hread' => ?_⟩
    obtain ⟨rfl, rfl⟩ := hread.unique hread'
    exact hq

/-! ## Known event types -/

/-- What is known of a registered event type. -/
theorem describes_of_lookup {r : Reading} {d : Dialect} {name : String} {rules : PayloadRules}
    (h : (payloadRules r d).lookup name = some rules) : ∃ payloadModel s,
      payloadModels.lookup name = some payloadModel ∧ Describes r rules payloadModel s ∧
      (∀ p : Schema → Prop, (∀ entry ∈ Contract.payloads d, entry.1 = name → p entry.2) ↔ p s) ∧
      (∃ rule ∈ rules.fields, rule.required = true) ∧
      (∀ version, schemaRegistry.contains (name, version) = true ↔ version = "1.0") ∧
      (text 1 64 (.str name)).isSome = true ∧
      name ∈ eventTypes := by
  have hmem := mem_of_lookup h
  simp only [payloadRules, List.mem_cons, Prod.mk.injEq, List.not_mem_nil, or_false] at hmem
  rcases hmem with ⟨rfl, rfl⟩ | ⟨rfl, rfl⟩ | ⟨rfl, rfl⟩ | ⟨rfl, rfl⟩ | ⟨rfl, rfl⟩ | ⟨rfl, rfl⟩ | ⟨rfl, rfl⟩
  · exact ⟨_, _, rfl, itemRegistered_describes r d, by simp [Contract.payloads],
      ⟨_, List.mem_cons_self, rfl⟩, by simp [schemaRegistry], by decide, by simp [eventTypes]⟩
  · exact ⟨_, _, rfl, operationStarted_describes r d, by simp [Contract.payloads],
      ⟨_, List.mem_cons_self, rfl⟩, by simp [schemaRegistry], by decide, by simp [eventTypes]⟩
  · exact ⟨_, _, rfl, operationFinished_describes r d, by simp [Contract.payloads],
      ⟨_, List.mem_cons_self, rfl⟩, by simp [schemaRegistry], by decide, by simp [eventTypes]⟩
  · exact ⟨_, _, rfl, inspectionResult_describes r d, by simp [Contract.payloads],
      ⟨_, List.mem_cons_self, rfl⟩, by simp [schemaRegistry], by decide, by simp [eventTypes]⟩
  · exact ⟨_, _, rfl, machineState_describes r d, by simp [Contract.payloads],
      ⟨_, List.mem_cons_self, rfl⟩, by simp [schemaRegistry], by decide, by simp [eventTypes]⟩
  · exact ⟨_, _, rfl, operatorAction_describes r d, by simp [Contract.payloads],
      ⟨_, List.mem_cons_self, rfl⟩, by simp [schemaRegistry], by decide, by simp [eventTypes]⟩
  · exact ⟨_, _, rfl, controlDeviceInvalidated_describes r d, by simp [Contract.payloads],
      ⟨_, List.mem_cons_self, rfl⟩, by simp [schemaRegistry], by decide, by simp [eventTypes]⟩

theorem model_known {name : String} {payloadModel : PayloadModel}
    (h : payloadModels.lookup name = some payloadModel) : name ∈ eventTypes := by
  have hnames : payloadModels.map (·.1) = eventTypes := rfl
  exact hnames ▸ List.mem_map_of_mem (mem_of_lookup h)

theorem rules_of_known (r : Reading) (d : Dialect) {name : String} (h : name ∈ eventTypes) :
    ∃ rules, (payloadRules r d).lookup name = some rules := by
  simp only [eventTypes, List.mem_cons, List.not_mem_nil, or_false] at h
  rcases h with rfl | rfl | rfl | rfl | rfl | rfl | rfl <;> exact ⟨_, rfl⟩

/-! ## What `validate_event` accepts -/

theorem popField_absent {fields : Params} {key : String} (h : fields.lookup key = none) :
    popField fields key = fields := by
  rw [popField, List.filter_eq_self]
  intro field hfield
  have hne := List.lookup_eq_none_iff.mp h field hfield
  simpa using Ne.symm (by simpa using hne)

/-- Without legacy keys nothing is normalised. -/
theorem normalizeLegacy_of_none {r : Reading} {fields : Params} {payload : LegacyPayload}
    (hlegacy : NoLegacyKeys r fields) (hpayload : payloadDict r fields = .ok payload) :
    normalizeLegacy r fields = .ok (fields, payload) := by
  have hnone := hlegacy payload hpayload
  have hkey : ∀ key ∈ ["item_id", "operation_run_id", "duration_seconds"],
      normalizeKey r (fields, payload) key = .ok (fields, payload) := by
    intro key hkey
    have hnull : getField payload.fields key = .null := by rw [getField, hnone key hkey]; rfl
    simp only [normalizeKey, hnull, if_true, popField_absent (hnone key hkey)]
  have hduration : normalizeDuration payload = payload := by
    rw [normalizeDuration, hnone "duration_seconds" (by simp)]
  rw [normalizeLegacy_eq, hpayload]
  simp only [bind, Except.bind, List.foldlM_cons, List.foldlM_nil, hkey "item_id" (by simp),
    hkey "operation_run_id" (by simp), pure, Except.pure, hduration]

theorem validatePayload_ok {r : Reading} {name : String} {payloadModel : PayloadModel}
    {payload : LegacyPayload} {value : Payload} :
    validatePayload r name payloadModel payload = .ok value ↔ payload.otherKeys = false ∧
      onlyKeys payloadModel.keys payload.fields = true ∧ payloadModel.read r payload.fields = .ok value := by
  unfold validatePayload
  cases hother : payload.otherKeys with
  | true => simp
  | false =>
    cases honly : onlyKeys payloadModel.keys payload.fields with
    | false => simp
    | true =>
      cases hread : payloadModel.read r payload.fields with
      | ok value' => simp
      | error failure => cases failure <;> simp

theorem validateEnvelope_ok {r : Reading} {fields : Params} {value : Payload} :
    (∃ event, validateEnvelope r fields value = .ok event) ↔
      (envelope r (setField fields "payload" .null) value).isSome = true := by
  unfold validateEnvelope
  cases envelope r (setField fields "payload" .null) value <;> simp

theorem validateFields_ok {r : Reading} {name : String} {payloadModel : PayloadModel} {fields : Params}
    (hlegacy : NoLegacyKeys r fields) :
    (∃ event, validateFields r name payloadModel fields = .ok event) ↔
      ∃ payload value, payloadDict r fields = .ok { fields := payload } ∧
        onlyKeys payloadModel.keys payload = true ∧ payloadModel.read r payload = .ok value ∧
        (envelope r (setField fields "payload" .null) value).isSome = true := by
  rw [validateFields]
  cases hdict : payloadDict r fields with
  | error e =>
    rw [normalizeLegacy_eq, hdict]
    simp [bind, Except.bind]
  | ok dict =>
    rw [normalizeLegacy_of_none hlegacy hdict]
    simp only [bind, Except.bind]
    constructor
    · rintro ⟨event, hevent⟩
      cases hvalue : validatePayload r name payloadModel dict with
      | error e => simp [hvalue] at hevent
      | ok value =>
        rw [hvalue] at hevent
        obtain ⟨hother, honly, hread⟩ := validatePayload_ok.mp hvalue
        obtain ⟨payload, other⟩ := dict
        obtain rfl : other = false := hother
        exact ⟨payload, value, rfl, honly, hread, validateEnvelope_ok.mp ⟨event, hevent⟩⟩
    · rintro ⟨payload, value, hpayload, honly, hread, henvelope⟩
      obtain rfl := Except.ok.inj hpayload
      obtain ⟨event, hevent⟩ := validateEnvelope_ok.mpr henvelope
      have hvalue : validatePayload r name payloadModel { fields := payload } = .ok value :=
        validatePayload_ok.mpr ⟨rfl, honly, hread⟩
      exact ⟨event, by rw [hvalue]; exact hevent⟩

theorem getField_text {fields : Params} {key text : String} :
    getField fields key = .str text ↔ fields.lookup key = some (.str text) := by
  rw [getField]
  cases fields.lookup key <;> simp

/-- A known type is registered. -/
theorem type_registered {name : String} (h : name ∈ eventTypes) : (name, "1.0") ∈ schemaRegistry := by
  simp only [eventTypes, List.mem_cons, List.not_mem_nil, or_false] at h
  rcases h with rfl | rfl | rfl | rfl | rfl | rfl | rfl <;> simp [schemaRegistry]

theorem registeredType_ok {value : Json} {name : String} {payloadModel : PayloadModel} :
    registeredType value = .ok (name, payloadModel) ↔
      value = .str name ∧ payloadModels.lookup name = some payloadModel := by
  cases value with
  | str text =>
    rw [registeredType]
    cases hmodel : payloadModels.lookup text with
    | none =>
      refine iff_of_false (by simp) ?_
      rintro ⟨heq, hname⟩
      rw [← Json.str.inj heq, hmodel] at hname
      cases hname
    | some found =>
      have hregistered : (schemaRegistry.any fun entry => entry.1 == text) = true :=
        List.any_eq_true.mpr ⟨_, type_registered (model_known hmodel), beq_self_eq_true text⟩
      simp only [hregistered, if_true, Except.ok.injEq, Prod.mk.injEq, Json.str.injEq]
      constructor
      · rintro ⟨rfl, rfl⟩
        exact ⟨rfl, hmodel⟩
      · rintro ⟨rfl, hname⟩
        exact ⟨rfl, Option.some.inj (hmodel.symm.trans hname)⟩
  | _ => simp [registeredType, Json.hashable]

theorem registeredVersion_ok {name : String} {value : Json} :
    registeredVersion name value = .ok () ↔
      ∃ version, value = .str version ∧ schemaRegistry.contains (name, version) = true := by
  cases value with
  | str version => simp [registeredVersion]
  | _ => simp [registeredVersion, Json.hashable]

theorem validateEvent_ok {r : Reading} (d : Dialect) {fields : Params} :
    Validated r (.obj fields) ↔ ∃ name rules payloadModel,
      fields.lookup "event_type" = some (.str name) ∧
      (payloadRules r d).lookup name = some rules ∧ payloadModels.lookup name = some payloadModel ∧
      fields.lookup "schema_version" = some (.str "1.0") ∧
      ∃ event, validateFields r name payloadModel fields = .ok event := by
  rw [Validated, validateEvent]
  constructor
  · rintro ⟨event, hevent⟩
    cases htype : registeredType (getField fields "event_type") with
    | error e => simp [htype, bind, Except.bind] at hevent
    | ok found =>
      obtain ⟨name, payloadModel⟩ := found
      obtain ⟨hname, hmodel⟩ := registeredType_ok.mp htype
      cases hversion : registeredVersion name (getField fields "schema_version") with
      | error e => simp [htype, hversion, bind, Except.bind] at hevent
      | ok _ =>
        obtain ⟨version, hvalue, hcontains⟩ := registeredVersion_ok.mp hversion
        obtain ⟨rules, hrules⟩ := rules_of_known r d (model_known hmodel)
        obtain ⟨_, _, -, -, -, -, hone, -⟩ := describes_of_lookup hrules
        obtain rfl := (hone version).mp hcontains
        simp only [htype, hversion, bind, Except.bind] at hevent
        exact ⟨name, rules, payloadModel, getField_text.mp hname, hrules, hmodel,
          getField_text.mp hvalue, event, hevent⟩
  · rintro ⟨name, rules, payloadModel, hname, hrules, hmodel, hversion, event, hevent⟩
    obtain ⟨_, _, -, -, -, -, hone, -⟩ := describes_of_lookup hrules
    have htype := registeredType_ok.mpr ⟨getField_text.mpr hname, hmodel⟩
    have hregistered := registeredVersion_ok.mpr
      ⟨"1.0", getField_text.mpr hversion, (hone "1.0").mpr rfl⟩
    refine ⟨event, ?_⟩
    simp only [htype, hregistered, bind, Except.bind, hevent]

/-! ### The envelope -/

/-- The reading of an id names something exactly when the envelope does. -/
theorem truthy_iff_names {fields : Params} {key : String} {most : ℕ} {value : Option String}
    (h : optional fields key none (nullable (text 0 most)) = some value) :
    truthy value = true ↔ NamesKey fields key := by
  rw [optional] at h
  rw [NamesKey]
  cases hlookup : fields.lookup key with
  | none =>
    rw [hlookup] at h
    obtain rfl := Option.some.inj h
    simp [truthy]
  | some given =>
    rw [hlookup] at h
    cases given with
    | null =>
      obtain rfl := Option.some.inj h
      simp [truthy]
    | str text =>
      simp only [nullable, TraceQ.text, Nat.zero_le, true_and, Option.map_eq_some_iff,
        Option.ite_none_right_eq_some, Option.some.injEq] at h
      obtain ⟨_, ⟨-, rfl⟩, rfl⟩ := h
      have hempty : text.isEmpty = false ↔ 1 ≤ text.length := by
        rw [Nat.one_le_iff_ne_zero, Ne, String.length_eq_zero_iff, ← Bool.not_eq_true,
          String.isEmpty_iff]
      simp [truthy, hempty]
    | _ => simp [nullable, TraceQ.text] at h

theorem envelope_isSome {r : Reading} {fields : Params} {value : Payload} :
    (envelope r fields value).isSome = true ↔
      onlyKeys ["event_id", "event_type", "schema_version", "occurred_at", "source", "item_id",
        "operation_run_id", "payload"] fields = true ∧
      (required fields "event_id" (text 1 128)).isSome = true ∧
      (required fields "event_type" (text 1 64)).isSome = true ∧
      (required fields "schema_version" (text 1 16)).isSome = true ∧
      (required fields "occurred_at" r.readDatetime).isSome = true ∧
      (required fields "source"
        (model ["source_id", "source_type", "sequence"] (sourceRef r))).isSome = true ∧
      (optional fields "item_id" none (nullable (text 0 128))).isSome = true ∧
      (optional fields "operation_run_id" none (nullable (text 0 128))).isSome = true ∧
      (value.needsItem = true → NamesKey fields "item_id") ∧
      (value.needsRun = true → NamesKey fields "operation_run_id") := by
  rw [envelope]
  by_cases honly : onlyKeys ["event_id", "event_type", "schema_version", "occurred_at", "source",
      "item_id", "operation_run_id", "payload"] fields = true
  · cases hitem : optional fields "item_id" none (nullable (text 0 128)) with
    | none => simp
    | some itemId =>
      cases hrun : optional fields "operation_run_id" none (nullable (text 0 128)) with
      | none => simp
      | some runId =>
        rw [← truthy_iff_names hitem, ← truthy_iff_names hrun]
        simp only [honly, guard, if_true, Option.bind_eq_bind, Option.bind_some, Option.pure_def,
          Option.isSome_some, true_and]
        have hlast : ∀ {α : Type} {p q : Prop} [Decidable p] [Decidable q] {f : p → q → α},
            (if h : p then if h' : q then some (f h h') else none else none).isSome = true ↔ p ∧ q := by
          intro α p q _ _ f
          by_cases hp : p <;> by_cases hq : q <;> simp [hp, hq]
        rw [isSome_bind_then fun _ => isSome_bind_then fun _ => isSome_bind_then fun _ =>
          isSome_bind_then fun _ => isSome_bind_then fun _ => hlast]
  · simp [honly]

/-- A known key that is set leaves the object as closed as it was. -/
theorem onlyKeys_setField {allowed : List String} {fields : Params} {key : String} {value : Json}
    (h : key ∈ allowed) : onlyKeys allowed (setField fields key value) = onlyKeys allowed fields := by
  have hkey : allowed.contains key = true := List.contains_iff_mem.mpr h
  induction fields with
  | nil => simp [onlyKeys, setField, upsert, h]
  | cons field rest ih =>
    obtain ⟨name, old⟩ := field
    by_cases hname : name = key
    · subst hname
      simp [onlyKeys, setField, upsert, h]
    · have hkept : setField ((name, old) :: rest) key value = (name, old) :: setField rest key value := by
        simp [setField, upsert, hname]
      rw [hkept, onlyKeys, onlyKeys, List.all_cons, List.all_cons, ← onlyKeys, ih, ← onlyKeys]

/-- The envelope is read by its rules, once type and version are known and there is a payload. -/
theorem envelope_rules {r : Reading} {d : Dialect} {fields : Params} {name : String}
    {rules : PayloadRules} {value : Payload} (hname : fields.lookup "event_type" = some (.str name))
    (hrules : (payloadRules r d).lookup name = some rules)
    (hversion : fields.lookup "schema_version" = some (.str "1.0"))
    (hpayload : (fields.lookup "payload").isSome = true) :
    (envelope r (setField fields "payload" .null) value).isSome = true ↔
      SharedFields (envelopeRules r d) fields ∧ ValidatorFields (envelopeRules r d) fields ∧
        (value.needsItem = true → NamesKey fields "item_id") ∧
        (value.needsRun = true → NamesKey fields "operation_run_id") := by
  obtain ⟨_, _, -, -, -, -, -, htext, hknown⟩ := describes_of_lookup hrules
  have hlookup : ∀ key, key ≠ "payload" →
      (setField fields "payload" .null).lookup key = fields.lookup key := fun _ h => lookup_setField h
  have hsource := sourceRef_compares r d
  have hid : ∀ value, (nullable (text 0 128) value).isSome = true ↔
      optionalId.orNull.shared value ∧ optionalId.orNull.validator value := by
    intro value
    cases value <;> simp [nullable, text, optionalId, Comparison.orNull]
  obtain ⟨payload, hgiven⟩ := Option.isSome_iff_exists.mp hpayload
  -- the texts that are known pass both their rules and the bounds of the model
  have htype : Given true (some (.str name)) fun value =>
      (boundedText 1 64).shared value ∧ (boundedText 1 64).validator value :=
    ((compares_boundedText d 1 64).reads _).mp htext
  have htype' : Given true (some (.str name)) fun value =>
      (oneOfTexts eventTypes).shared value ∧ (oneOfTexts eventTypes).validator value :=
    ⟨⟨name, hknown, rfl⟩, trivial⟩
  have hone : Given true (some (.str "1.0")) fun value =>
      (boundedText 1 16).shared value ∧ (boundedText 1 16).validator value :=
    ⟨⟨"1.0", rfl, by decide, by decide⟩, trivial⟩
  have hone' : Given true (some (.str "1.0")) fun value =>
      (oneOfTexts ["1.0"]).shared value ∧ (oneOfTexts ["1.0"]).validator value :=
    ⟨⟨"1.0", List.mem_singleton_self _, rfl⟩, trivial⟩
  have hany : Given true (some payload) fun value =>
      objectPayload.shared value ∧ objectPayload.validator value := ⟨trivial, trivial⟩
  rw [envelope_isSome, onlyKeys_setField (by simp), ← and_assoc (a := SharedFields _ _), ValidatorFields,
    sharedFields_and]
  simp only [isSome_required, isSome_optional, NamesKey, hlookup "event_id" (by decide),
    hlookup "event_type" (by decide), hlookup "schema_version" (by decide),
    hlookup "occurred_at" (by decide), hlookup "source" (by decide), hlookup "item_id" (by decide),
    hlookup "operation_run_id" (by decide), envelopeRules, List.forall_mem_cons, List.map_cons,
    List.map_nil, (compares_boundedText d _ _).reads, (compares_timestamp r d).reads, hsource.reads, hid]
  simp only [hname, hversion, hgiven, htype, htype', hone, hone', hany, true_and, List.not_mem_nil,
    false_imp_iff, implies_true, and_true, and_assoc]

/-- A payload that a model reads is there. -/
theorem payload_given {r : Reading} {fields payload : Params} {rules : PayloadRules}
    (hpayload : payloadDict r fields = .ok { fields := payload })
    (hrequired : ∃ rule ∈ rules.fields, rule.required = true)
    (hshared : SharedFields rules.fields payload) : (fields.lookup "payload").isSome = true := by
  cases hgiven : fields.lookup "payload" with
  | some value => rfl
  | none =>
    have hnull : getField fields "payload" = .null := by rw [getField, hgiven]; rfl
    rw [payloadDict, hnull] at hpayload
    obtain rfl : ([] : Params) = payload := congrArg LegacyPayload.fields (Except.ok.inj hpayload)
    obtain ⟨rule, hrule, hmust⟩ := hrequired
    have hmissing := hshared.2 rule hrule
    rw [hmust] at hmissing
    exact absurd hmissing (by simp [Given])

theorem version_of_shared {r : Reading} {d : Dialect} {fields : Params}
    (h : SharedFields (envelopeRules r d) fields) :
    fields.lookup "schema_version" = some (.str "1.0") := by
  have hmem : (⟨oneOfTexts ["1.0"], "schema_version", true⟩ : FieldRule) ∈ envelopeRules r d :=
    List.mem_cons_of_mem _ (List.mem_cons_of_mem _ List.mem_cons_self)
  have hgiven : Given true (fields.lookup "schema_version") (oneOfTexts ["1.0"]).shared := h.2 _ hmem
  cases hlookup : fields.lookup "schema_version" with
  | none => simp [hlookup, Given] at hgiven
  | some value =>
    rw [hlookup] at hgiven
    obtain ⟨text, htext, rfl⟩ := hgiven
    rw [List.mem_singleton.mp htext]

/-- `validate_event` accepts exactly what breaks no shared rule and none of its own. -/
theorem validated_iff {r : Reading} (d : Dialect) {fields : Params} (hlegacy : NoLegacyKeys r fields) :
    Validated r (.obj fields) ↔ SharedRules r d fields ∧ ValidatorRules r d fields := by
  rw [ValidatorRules, shared_and, validateEvent_ok d]
  constructor
  · rintro ⟨name, rules, payloadModel, hname, hrules, hmodel, hversion, hvalid⟩
    obtain ⟨payload, value, hpayload, honly, hread, henvelope⟩ := (validateFields_ok hlegacy).mp hvalid
    obtain ⟨found, s, hfound, hdescribes, -, hrequired, -⟩ := describes_of_lookup hrules
    obtain rfl := Option.some.inj (hfound.symm.trans hmodel)
    obtain ⟨hreads, hcross⟩ := (hdescribes.reads payload).mp ⟨value, hread⟩
    obtain ⟨hitem, hrun⟩ := hdescribes.needs payload value hread
    obtain ⟨hshared, hown⟩ := sharedFields_and.mpr ⟨hdescribes.keys ▸ honly, hreads⟩
    obtain ⟨hsharedEnvelope, hownEnvelope, hnamesItem, hnamesRun⟩ := (envelope_rules (d := d) hname hrules
      hversion (payload_given hpayload hrequired hshared)).mp henvelope
    exact ⟨rules, payload, ⟨⟨name, hname, hrules⟩, hpayload⟩, hsharedEnvelope, hshared, hownEnvelope,
      hitem ▸ hnamesItem, hrun ▸ hnamesRun, hown, hcross⟩
  · rintro ⟨rules, payload, ⟨⟨name, hname, hrules⟩, hpayload⟩, hsharedEnvelope, hshared, hownEnvelope,
      hnamesItem, hnamesRun, hown, hcross⟩
    obtain ⟨payloadModel, s, hmodel, hdescribes, -, hrequired, -⟩ := describes_of_lookup hrules
    obtain ⟨honly, hreads⟩ := sharedFields_and.mp ⟨hshared, hown⟩
    obtain ⟨value, hread⟩ := (hdescribes.reads payload).mpr ⟨hreads, hcross⟩
    obtain ⟨hitem, hrun⟩ := hdescribes.needs payload value hread
    have hversion := version_of_shared hsharedEnvelope
    have henvelope := (envelope_rules (d := d) hname hrules hversion
      (payload_given hpayload hrequired hshared)).mpr
      ⟨hsharedEnvelope, hownEnvelope, hitem ▸ hnamesItem, hrun ▸ hnamesRun⟩
    exact ⟨name, rules, payloadModel, hname, hrules, hmodel, hversion, (validateFields_ok hlegacy).mpr
      ⟨payload, value, hpayload, hdescribes.keys ▸ honly, hread, henvelope⟩⟩

/-! ## What the contract holds of -/

/-- The rules of the envelope beside its properties. -/
theorem envelope_rulesOf (r : Reading) (d : Dialect) :
    List.Forall₂ RuleOf (envelopeRules r d) (Contract.envelopeProperties d) := by
  have htypes := compares_oneOfTexts [("item.registered", ()), ("operation.started", ()),
    ("operation.finished", ()), ("inspection.result", ()), ("machine.state", ()), ("operator.action", ()),
    ("control_device.invalidated", ())] rfl
  have hversion : ∀ value, const (.str "1.0") value = true ↔
      (oneOfTexts ["1.0"]).shared value ∧ (oneOfTexts ["1.0"]).schema value := by
    simp [const, oneOfTexts]
  have hpayload : ∀ value, types d [.object] value = true ↔
      objectPayload.shared value ∧ objectPayload.schema value := by
    intro value
    cases value <;> simp [objectPayload, types, hasType]
  have hid := compares_optionalId_orNull d
  exact .cons ⟨rfl, (compares_boundedText d 1 128).valid⟩ (.cons ⟨rfl, htypes.valid⟩
    (.cons ⟨rfl, hversion⟩ (.cons ⟨rfl, (compares_timestamp r d).valid⟩
      (.cons ⟨rfl, (sourceRef_compares r d).valid⟩ (.cons ⟨rfl, hid⟩ (.cons ⟨rfl, hid⟩
        (.cons ⟨rfl, hpayload⟩ .nil)))))))

/-- One `if`/`then` where the event type is a text. -/
theorem payloadWhen_iff {fields : Params} {name eventType : String} {s : Schema}
    (hname : fields.lookup "event_type" = some (.str name)) :
    Contract.payloadWhen eventType s (.obj fields) = true ↔
      (eventType = name → ∀ value, fields.lookup "payload" = some value → s value = true) := by
  have hcondition : properties [("event_type", const (.str eventType))] (.obj fields) = true ↔
      eventType = name := by
    rw [properties_iff]
    simp only [List.mem_singleton, forall_eq, hname, Option.some.injEq, forall_eq', const,
      decide_eq_true_eq, Json.str.injEq]
    exact eq_comm
  rw [Contract.payloadWhen, ifThen, Bool.or_eq_true, Bool.not_eq_true', ← Bool.not_eq_true, hcondition,
    ← imp_iff_not_or, properties_iff]
  simp

theorem known_of_shared {r : Reading} {d : Dialect} {fields : Params}
    (h : SharedFields (envelopeRules r d) fields) : ∃ name rules,
      fields.lookup "event_type" = some (.str name) ∧ (payloadRules r d).lookup name = some rules := by
  have hmem : (⟨oneOfTexts eventTypes, "event_type", true⟩ : FieldRule) ∈ envelopeRules r d :=
    List.mem_cons_of_mem _ List.mem_cons_self
  have hgiven : Given true (fields.lookup "event_type") (oneOfTexts eventTypes).shared := h.2 _ hmem
  cases hlookup : fields.lookup "event_type" with
  | none => simp [hlookup, Given] at hgiven
  | some value =>
    rw [hlookup] at hgiven
    obtain ⟨name, hname, rfl⟩ := hgiven
    obtain ⟨rules, hrules⟩ := rules_of_known r d hname
    exact ⟨name, rules, rfl, hrules⟩

/-- The payload of the envelope is an object. -/
theorem payload_object {r : Reading} {d : Dialect} {fields : Params}
    (hshared : SharedFields (envelopeRules r d) fields)
    (hschema : SchemaFields (envelopeRules r d) fields) :
    ∃ payload, fields.lookup "payload" = some (.obj payload) := by
  have hmem : (⟨objectPayload, "payload", true⟩ : FieldRule) ∈ envelopeRules r d := by
    simp [envelopeRules]
  have hgiven : Given true (fields.lookup "payload") objectPayload.shared := hshared.2 _ hmem
  cases hlookup : fields.lookup "payload" with
  | none => simp [hlookup, Given] at hgiven
  | some value =>
    obtain ⟨payload, rfl⟩ := hschema _ hmem value hlookup
    exact ⟨payload, rfl⟩

theorem payloadDict_object {r : Reading} {fields payload : Params}
    (h : fields.lookup "payload" = some (.obj payload)) :
    payloadDict r fields = .ok { fields := payload } := by
  have hfield : getField fields "payload" = .obj payload := by rw [getField, h]; rfl
  rw [payloadDict, hfield]
  cases payload <;> simp [Json.truthy, dictOf]

/-- The contract holds of exactly what breaks no shared rule and none of its own. -/
theorem valid_iff (r : Reading) {d : Dialect} {fields : Params} :
    Contract.canonicalEvent d (.obj fields) = true ↔ SharedRules r d fields ∧ SchemaRules r d fields := by
  have hclosed : closedObject d ["event_id", "event_type", "schema_version", "occurred_at", "source",
      "payload"] (Contract.envelopeProperties d) (.obj fields) = true ↔
      SharedFields (envelopeRules r d) fields ∧ SchemaFields (envelopeRules r d) fields := by
    refine (valid_record ?_ (envelope_rulesOf r d)).trans ?_
    · rfl
    · simp
  have hevent : Contract.canonicalEvent d (.obj fields) = true ↔
      (SharedFields (envelopeRules r d) fields ∧ SchemaFields (envelopeRules r d) fields) ∧
      ∀ entry ∈ Contract.payloads d, Contract.payloadWhen entry.1 entry.2 (.obj fields) = true := by
    rw [Contract.canonicalEvent, allOf_iff, List.forall_mem_cons, hclosed, List.forall_mem_singleton,
      allOf_iff, List.forall_mem_map]
  rw [SchemaRules, shared_and, hevent]
  constructor
  · rintro ⟨⟨hshared, hschema⟩, hwhen⟩
    obtain ⟨name, rules, hname, hrules⟩ := known_of_shared hshared
    obtain ⟨payload, hpayload⟩ := payload_object hshared hschema
    obtain ⟨_, s, -, hdescribes, hentries, -⟩ := describes_of_lookup hrules
    have hvalid := (hentries fun s => s (.obj payload) = true).mp fun entry hentry heq =>
      (payloadWhen_iff hname).mp (hwhen entry hentry) heq _ hpayload
    obtain ⟨_, hobj, hsharedPayload, hschemaPayload⟩ := (hdescribes.valid _).mp hvalid
    obtain rfl := Json.obj.inj hobj
    exact ⟨rules, payload, ⟨⟨name, hname, hrules⟩, payloadDict_object hpayload⟩, hshared,
      hsharedPayload, hschema, hschemaPayload⟩
  · rintro ⟨rules, payload, ⟨⟨name, hname, hrules⟩, hdict⟩, hshared, hsharedPayload, hschema,
      hschemaPayload⟩
    obtain ⟨object, hobject⟩ := payload_object hshared hschema
    obtain rfl : object = payload :=
      congrArg LegacyPayload.fields (Except.ok.inj ((payloadDict_object hobject).symm.trans hdict))
    obtain ⟨_, s, -, hdescribes, hentries, -⟩ := describes_of_lookup hrules
    have hvalid := (hdescribes.valid (.obj object)).mpr ⟨object, rfl, hsharedPayload, hschemaPayload⟩
    refine ⟨⟨hshared, hschema⟩, fun entry hentry => (payloadWhen_iff hname).mpr fun heq value hvalue => ?_⟩
    rw [hobject] at hvalue
    obtain rfl := Option.some.inj hvalue
    exact (hentries fun s => s (.obj object) = true).mpr hvalid entry hentry heq

/-! ## Agreement -/

/-- Validator and contract agree on an object exactly when the shared rules, if they hold, leave the rules
of both sides met or rules of both sides broken. -/
theorem contract_agreement_iff (r : Reading) (d : Dialect) {fields : Params}
    (hlegacy : NoLegacyKeys r fields) :
    (Validated r (.obj fields) ↔ Contract.canonicalEvent d (.obj fields) = true) ↔
      (SharedRules r d fields → (ValidatorRules r d fields ↔ SchemaRules r d fields)) := by
  rw [validated_iff d hlegacy, valid_iff r, and_congr_right_iff]

/-! ### Two machine states -/

/-- The reading of this timestamp. -/
def isoReading : Reading where
  decimal _ := 0
  readInt _ := none
  readFloat _ := none
  readDatetime value := if value = .str "2026-05-04T10:00:00Z" then some ⟨1777888800000000, some 0⟩ else none
  payloadDetails _ _ := "equipment_id: String should have at least 1 character"
  envelopeDetails _ := ""

def isoDialect : Dialect where
  decimal _ := 0
  dateTime text := text == "2026-05-04T10:00:00Z"

/-- A machine state that names this equipment. -/
def stateOf (equipmentId : String) : Params :=
  [("event_id", .str "e-1"), ("event_type", .str "machine.state"), ("schema_version", .str "1.0"),
    ("occurred_at", .str "2026-05-04T10:00:00Z"),
    ("source", .obj [("source_id", .str "plc-1"), ("source_type", .str "plc")]),
    ("payload", .obj [("equipment_id", .str equipmentId), ("state", .str "running")])]

theorem stateOf_noLegacyKeys (equipmentId : String) : NoLegacyKeys isoReading (stateOf equipmentId) := by
  intro payload hpayload
  have hdict : payloadDict isoReading (stateOf equipmentId) =
      .ok { fields := [("equipment_id", .str equipmentId), ("state", .str "running")] } := rfl
  obtain rfl := Except.ok.inj (hdict.symm.trans hpayload)
  simp

theorem contract_agreement_iff_press :
    Validated isoReading (.obj (stateOf "press-1")) ↔
      Contract.canonicalEvent isoDialect (.obj (stateOf "press-1")) = true := by
  refine (contract_agreement_iff isoReading isoDialect (stateOf_noLegacyKeys "press-1")).mpr fun _ => ?_
  have hread : Recognised isoReading isoDialect (stateOf "press-1") machineStatePayload
      [("equipment_id", .str "press-1"), ("state", .str "running")] := ⟨⟨"machine.state", rfl, rfl⟩, rfl⟩
  refine iff_of_true (fun rules payload h => ?_) fun rules payload h => ?_
  · obtain ⟨rfl, rfl⟩ := hread.unique h
    refine ⟨?_, nofun, nofun, ?_, trivial⟩
    · simp [ValidatorFields, envelopeRules, stateOf, List.lookup, boundedText, oneOfTexts, timestamp,
        isoReading, Comparison.record, sourceRules, objectPayload]
    · simp [ValidatorFields, machineStatePayload, machineStateRules, List.lookup, modelText]
      decide
  · obtain ⟨rfl, rfl⟩ := hread.unique h
    refine ⟨?_, ?_⟩
    · simp [SchemaFields, envelopeRules, stateOf, List.lookup, boundedText, oneOfTexts, timestamp,
        isoDialect, Comparison.record, sourceRules, objectPayload]
    · simp [SchemaFields, machineStatePayload, machineStateRules, List.lookup, modelText]

/-- An empty equipment id is valid and refused. -/
theorem empty_equipment_refused : ¬ ∀ (r : Reading) (d : Dialect) (fields : Params),
    NoLegacyKeys r fields →
      (Validated r (.obj fields) ↔ Contract.canonicalEvent d (.obj fields) = true) := by
  intro h
  have hvalid : Contract.canonicalEvent isoDialect (.obj (stateOf "")) = true := by decide +kernel
  obtain ⟨event, hevent⟩ := (h isoReading isoDialect _ (stateOf_noLegacyKeys "")).mpr hvalid
  have hrefused : (validateEvent isoReading (.obj (stateOf ""))).toOption.isNone = true := by
    decide +kernel
  rw [hevent] at hrefused
  cases hrefused

end TraceQ.Properties
