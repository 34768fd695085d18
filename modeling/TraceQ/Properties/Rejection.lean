import TraceQ.Properties.Acceptance

/-! # Bodies that are neither accepted nor rejected

`validate_event` looks at the body with Python operations that do not take every JSON value. Where they
raise, and where the recorded texts do not fit their columns, a rejection becomes a server error.
-/
namespace TraceQ.Properties
open Ingestion Security Tables Results
set_option autoImplicit false
set_option maxHeartbeats 250000

/-! ## Bodies without such a hole -/

/-- One element `dict` takes: a pair, of which the first is hashable. -/
def entryLike : Json → Bool
  | .arr [key, _] => key.hashable
  | .str text => decide (text.length = 2)
  | .obj [_, _] => true
  | _ => false

/-- `dict` takes the value. -/
def dictLike : Json → Bool
  | .obj _ => true
  | .arr entries => entries.all entryLike
  | _ => false

/-- The envelope and the payload carry different values under the key. -/
def legacyConflict (r : Reading) (fields payload : Params) (key : String) : Bool :=
  decide (getField payload key ≠ .null) && decide (getField fields key ≠ .null) &&
    !pyEq r (getField fields key) (getField payload key)

/-- The keys of `ControlDeviceInvalidatedPayload`. -/
def invalidationKeys : List String :=
  ["device_id", "affected_from", "affected_to", "reason", "invalidation_type",
    "supporting_evidence_refs"]

/-- A payload that breaks no rule of an invalidation but the period, whose timestamps Python does not
compare. -/
structure MixedPeriod (r : Reading) (fields : Params) (payload : LegacyPayload) : Prop where
  keys : payload.otherKeys = false ∧
    onlyKeys (invalidationKeys ++ ["item_id", "operation_run_id"]) payload.fields = true
  agrees : ∀ key ∈ ["item_id", "operation_run_id"], legacyConflict r fields payload.fields key = false
  mixed : ∃ p, invalidationFields r payload.fields = some p ∧ p.mixed = true

/-- The payload as a dict. -/
def payloadDict (r : Reading) (fields : Params) : Except Raised LegacyPayload :=
  if (getField fields "payload").truthy r then dictOf (getField fields "payload") else .ok {}

/-- The event type is hashable; under a known type the version is; and under a known version the
payload is empty or a value `dict` takes, and is no invalidation with a mixed period. -/
def Clean (r : Reading) : Json → Prop
  | .obj fields =>
      (getField fields "event_type").hashable = true ∧
      ∀ eventType, getField fields "event_type" = .str eventType →
        (payloadModels.lookup eventType).isSome = true →
        (getField fields "schema_version").hashable = true ∧
        (getField fields "schema_version" = .str "1.0" →
          ((getField fields "payload").truthy r = true → dictLike (getField fields "payload") = true) ∧
          (eventType = "control_device.invalidated" → ∀ payload,
            payloadDict r fields = .ok payload → ¬ MixedPeriod r fields payload))
  | _ => True

/-- Not an exception that nothing handles. -/
def Handled {α : Type} : Except Raised α → Prop
  | .error (.crashed _) => False
  | _ => True

theorem handled_bind {α β : Type} {x : Except Raised α} {f : α → Except Raised β} :
    Handled (x >>= f) ↔ Handled x ∧ ∀ a, x = .ok a → Handled (f a) := by
  cases x with
  | ok a =>
    have hbind : (Except.ok a >>= f) = f a := rfl
    simp [hbind, Handled]
  | error raised =>
    have hbind : (Except.error raised >>= f) = .error raised := rfl
    cases raised with
    | refused error => simp [hbind, Handled]
    | crashed exception => simp [hbind, Handled]

/-! ## `dict` -/

theorem dictInsert_cases (dict : LegacyPayload) (value : Json) :
    (entryLike value = true ∧ ∃ dict', dictInsert dict value = .ok dict') ∨
      entryLike value = false ∧ ∃ exception, dictInsert dict value = .error (.crashed exception) := by
  have hkey : ∀ key other, dictEntry value = .ok (key, other) → key.hashable = entryLike value →
      (entryLike value = true ∧ ∃ dict', dictInsert dict value = .ok dict') ∨
        entryLike value = false ∧ ∃ exception, dictInsert dict value = .error (.crashed exception) := by
    intro key other hentry hlike
    rw [← hlike]
    cases key with
    | arr values => exact .inr ⟨rfl, .typeError, by simp [dictInsert, hentry, Json.hashable]; rfl⟩
    | obj fields => exact .inr ⟨rfl, .typeError, by simp [dictInsert, hentry, Json.hashable]; rfl⟩
    | str text => exact .inl ⟨rfl, _, by simp [dictInsert, hentry]; rfl⟩
    | null => exact .inl ⟨rfl, _, by simp [dictInsert, hentry, Json.hashable]; rfl⟩
    | bool b => exact .inl ⟨rfl, _, by simp [dictInsert, hentry, Json.hashable]; rfl⟩
    | int n => exact .inl ⟨rfl, _, by simp [dictInsert, hentry, Json.hashable]; rfl⟩
    | decimal token => exact .inl ⟨rfl, _, by simp [dictInsert, hentry, Json.hashable]; rfl⟩
  have hcrash : ∀ exception, dictEntry value = .error (.crashed exception) → entryLike value = false →
      entryLike value = false ∧ ∃ exception, dictInsert dict value = .error (.crashed exception) := by
    intro exception hentry hlike
    exact ⟨hlike, exception, by simp [dictInsert, hentry]; rfl⟩
  cases value with
  | arr values =>
    cases values with
    | nil => exact .inr (hcrash _ rfl rfl)
    | cons key rest =>
      cases rest with
      | nil => exact .inr (hcrash _ rfl rfl)
      | cons other more =>
        cases more with
        | nil => exact hkey key other rfl rfl
        | cons _ _ => exact .inr (hcrash _ rfl rfl)
  | obj fields =>
    cases fields with
    | nil => exact .inr (hcrash _ rfl rfl)
    | cons key rest =>
      cases rest with
      | nil => exact .inr (hcrash _ rfl rfl)
      | cons other more =>
        cases more with
        | nil => exact hkey (.str key.1) (.str other.1) rfl rfl
        | cons _ _ => exact .inr (hcrash _ rfl rfl)
  | str text =>
    have hlength : text.length = text.toList.length := (String.length_toList).symm
    cases htext : text.toList with
    | nil => exact .inr (hcrash .valueError (by simp [dictEntry, htext]) (by simp [entryLike, hlength, htext]))
    | cons first rest =>
      cases rest with
      | nil =>
        exact .inr (hcrash .valueError (by simp [dictEntry, htext]) (by simp [entryLike, hlength, htext]))
      | cons second rest =>
        cases rest with
        | nil =>
          refine hkey (.str (String.singleton first)) (.str (String.singleton second)) ?_ ?_
          · simp [dictEntry, htext]
          · simp [entryLike, hlength, htext, Json.hashable]
        | cons third rest =>
          exact .inr (hcrash .valueError (by simp [dictEntry, htext]) (by simp [entryLike, hlength, htext]))
  | null => exact .inr (hcrash _ rfl rfl)
  | bool b => exact .inr (hcrash _ rfl rfl)
  | int n => exact .inr (hcrash _ rfl rfl)
  | decimal token => exact .inr (hcrash _ rfl rfl)

/-- `dict` takes a sequence when it takes every element. -/
theorem foldlM_dictInsert_cases (entries : List Json) (dict : LegacyPayload) :
    (entries.all entryLike = true ∧ ∃ dict', entries.foldlM dictInsert dict = .ok dict') ∨
      entries.all entryLike = false ∧
        ∃ exception, entries.foldlM dictInsert dict = .error (.crashed exception) := by
  induction entries generalizing dict with
  | nil => exact .inl ⟨rfl, dict, rfl⟩
  | cons entry rest ih =>
    rw [List.foldlM_cons, List.all_cons]
    rcases dictInsert_cases dict entry with ⟨hlike, dict', hinsert⟩ | ⟨hlike, exception, hinsert⟩
    · rw [hlike, hinsert, Bool.true_and]
      exact ih dict'
    · rw [hlike, hinsert, Bool.false_and]
      exact .inr ⟨rfl, exception, rfl⟩

theorem dictOf_cases (value : Json) :
    (dictLike value = true ∧ ∃ dict, dictOf value = .ok dict) ∨
      dictLike value = false ∧ ∃ exception, dictOf value = .error (.crashed exception) := by
  cases value with
  | arr entries => exact foldlM_dictInsert_cases entries {}
  | obj fields => exact .inl ⟨rfl, _, rfl⟩
  | _ => exact .inr ⟨rfl, _, rfl⟩

theorem payloadDict_cases (r : Reading) (fields : Params) :
    (((getField fields "payload").truthy r = true → dictLike (getField fields "payload") = true) ∧
      ∃ dict, payloadDict r fields = .ok dict) ∨
    ¬ ((getField fields "payload").truthy r = true → dictLike (getField fields "payload") = true) ∧
      ∃ exception, payloadDict r fields = .error (.crashed exception) := by
  unfold payloadDict
  cases htruthy : (getField fields "payload").truthy r with
  | false => exact .inl ⟨by simp, _, rfl⟩
  | true =>
    rcases dictOf_cases (getField fields "payload") with ⟨hlike, dict, hdict⟩ | ⟨hlike, exception, hdict⟩
    · exact .inl ⟨fun _ => hlike, dict, hdict⟩
    · exact .inr ⟨by simp [hlike], exception, hdict⟩

/-! ## Legacy keys -/

theorem lookup_popField {fields : Params} {key other : String} (h : other ≠ key) :
    (popField fields key).lookup other = fields.lookup other := by
  induction fields with
  | nil => rfl
  | cons field rest ih =>
    obtain ⟨name, value⟩ := field
    by_cases hname : name = key
    · subst hname
      have hne : (other == name) = false := by simpa using h
      simpa [popField, List.lookup_cons, hne] using ih
    · have hkept : popField ((name, value) :: rest) key = (name, value) :: popField rest key := by
        simp [popField, hname]
      rw [hkept, List.lookup_cons, List.lookup_cons, ih]

theorem lookup_setField {fields : Params} {key other : String} {value : Json} (h : other ≠ key) :
    (setField fields key value).lookup other = fields.lookup other := by
  have hne : (other == key) = false := by simpa using h
  induction fields with
  | nil => simp [setField, upsert, List.lookup_cons, hne]
  | cons field rest ih =>
    obtain ⟨name, old⟩ := field
    by_cases hname : name = key
    · subst hname
      simp [setField, upsert, List.lookup_cons, hne]
    · have hkept : setField ((name, old) :: rest) key value = (name, old) :: setField rest key value := by
        simp [setField, upsert, hname]
      rw [hkept, List.lookup_cons, List.lookup_cons, ih]

theorem lookup_setField_self (fields : Params) (key : String) (value : Json) :
    (setField fields key value).lookup key = some value := by
  induction fields with
  | nil => simp [setField, upsert]
  | cons field rest ih =>
    obtain ⟨name, old⟩ := field
    by_cases hname : name = key
    · subst hname
      simp [setField, upsert]
    · have hkept : setField ((name, old) :: rest) key value = (name, old) :: setField rest key value := by
        simp [setField, upsert, hname]
      have hne : (key == name) = false := by simpa using Ne.symm hname
      rw [hkept, List.lookup_cons, hne, ih]

theorem getField_popField {fields : Params} {key other : String} (h : other ≠ key) :
    getField (popField fields key) other = getField fields other := by
  rw [getField, lookup_popField h, getField]

theorem getField_setField {fields : Params} {key other : String} {value : Json} (h : other ≠ key) :
    getField (setField fields key value) other = getField fields other := by
  rw [getField, lookup_setField h, getField]

/-- A legacy key that conflicts is refused; one that does not leaves the payload. -/
theorem normalizeKey_cases (r : Reading) (fields : Params) (payload : LegacyPayload) (key : String) :
    (legacyConflict r fields payload.fields key = true ∧
      ∃ error, normalizeKey r (fields, payload) key = .error (.refused error)) ∨
    legacyConflict r fields payload.fields key = false ∧
      ∃ candidate, normalizeKey r (fields, payload) key =
        .ok (candidate, { payload with fields := popField payload.fields key }) ∧
        ∀ other, other ≠ key → getField candidate other = getField fields other := by
  unfold normalizeKey legacyConflict
  by_cases hlegacy : getField payload.fields key = .null
  · exact .inr ⟨by simp [hlegacy], fields, by simp [hlegacy], fun _ _ => rfl⟩
  · by_cases henvelope : getField fields key = .null
    · refine .inr ⟨by simp [henvelope], setField fields key (getField payload.fields key), ?_,
        fun other hother => getField_setField hother⟩
      simp [hlegacy, henvelope]
    · cases heq : pyEq r (getField fields key) (getField payload.fields key) with
      | true => exact .inr ⟨by simp, fields, by simp [hlegacy, henvelope, heq], fun _ _ => rfl⟩
      | false =>
        refine .inl ⟨by simp [hlegacy, henvelope],
          schemaError (key ++ " differs between envelope and legacy payload"), ?_⟩
        simp [hlegacy, henvelope, heq]

/-- The payload without the legacy keys. -/
def withoutLegacy (payload : LegacyPayload) : LegacyPayload :=
  { payload with fields := popField (popField payload.fields "item_id") "operation_run_id" }

/-- The normalisation begins with the dict of the payload. -/
theorem normalizeLegacy_eq (r : Reading) (fields : Params) :
    normalizeLegacy r fields = (payloadDict r fields >>= fun payload => do
      let (candidate, payload) ←
        ["item_id", "operation_run_id"].foldlM (normalizeKey r) (fields, payload)
      return (candidate, normalizeDuration payload)) := by
  unfold normalizeLegacy payloadDict
  split <;> rfl

/-- Given the dict of the payload, the normalisation refuses a conflict or removes the legacy keys. -/
theorem normalizeLegacy_cases {r : Reading} {fields : Params} {payload : LegacyPayload}
    (hdict : payloadDict r fields = .ok payload) :
    (¬ (∀ key ∈ ["item_id", "operation_run_id"], legacyConflict r fields payload.fields key = false) ∧
      ∃ error, normalizeLegacy r fields = .error (.refused error)) ∨
    (∀ key ∈ ["item_id", "operation_run_id"], legacyConflict r fields payload.fields key = false) ∧
      ∃ candidate, normalizeLegacy r fields =
        .ok (candidate, normalizeDuration (withoutLegacy payload)) := by
  have hlegacy : normalizeLegacy r fields = (do
      let (candidate, payload) ←
        ["item_id", "operation_run_id"].foldlM (normalizeKey r) (fields, payload)
      return (candidate, normalizeDuration payload)) := by
    rw [normalizeLegacy_eq, hdict]
    rfl
  rw [hlegacy, List.foldlM_cons]
  rcases normalizeKey_cases r fields payload "item_id" with
    ⟨hconflict, error, hkey⟩ | ⟨hconflict, candidate, hkey, hother⟩
  · rw [hkey]
    exact .inl ⟨by simp [hconflict], error, rfl⟩
  · have hsame : legacyConflict r candidate (popField payload.fields "item_id") "operation_run_id" =
        legacyConflict r fields payload.fields "operation_run_id" := by
      rw [legacyConflict, legacyConflict, getField_popField (by decide), hother _ (by decide)]
    rw [hkey]
    rcases normalizeKey_cases r candidate { payload with fields := popField payload.fields "item_id" }
      "operation_run_id" with ⟨hconflict', error, hkey'⟩ | ⟨hconflict', candidate', hkey', -⟩
    · refine .inl ⟨by simp [hconflict, ← hsame, hconflict'], error, ?_⟩
      simp only [bind, Except.bind, List.foldlM_cons, hkey']
    · refine .inr ⟨by simp [hconflict, ← hsame, hconflict'], candidate', ?_⟩
      simp only [bind, Except.bind, List.foldlM_cons, List.foldlM_nil, hkey']
      rfl

/-! ## The models -/

/-- A known key is an allowed one. -/
theorem onlyKeys_lookup {allowed : List String} {fields : Params} {key : String} {value : Json}
    (h : onlyKeys allowed fields = true) (hkey : fields.lookup key = some value) :
    allowed.contains key = true :=
  List.all_eq_true.mp h _ (mem_of_lookup hkey)

theorem checked_typeError {α : Type} (f : α → Payload) (read : Option α) :
    f <$> checked read ≠ .error .typeError := by
  cases read with
  | none => simp [checked]
  | some value => simp [checked]

theorem validatePeriod_typeError {p : InvalidationFields} :
    validatePeriod p = .error .typeError ↔ p.mixed = true := by
  unfold validatePeriod
  cases p.mixed with
  | true => simp
  | false =>
    simp only [Bool.false_eq_true, if_false, iff_false]
    split
    · simp
    · simp

/-- Only an invalidation is read with a comparison that may raise. -/
theorem read_typeError {r : Reading} {eventType : String} {model : PayloadModel} {fields : Params}
    (h : payloadModels.lookup eventType = some model) : model.read r fields = .error .typeError ↔
      eventType = "control_device.invalidated" ∧
        ∃ p, invalidationFields r fields = some p ∧ p.mixed = true := by
  have hmem := mem_of_lookup h
  simp only [payloadModels, List.mem_cons, Prod.mk.injEq, List.not_mem_nil, or_false] at hmem
  rcases hmem with ⟨rfl, rfl⟩ | ⟨rfl, rfl⟩ | ⟨rfl, rfl⟩ | ⟨rfl, rfl⟩ | ⟨rfl, rfl⟩ | ⟨rfl, rfl⟩ | ⟨rfl, rfl⟩
  · simp [checked_typeError]
  · simp [checked_typeError]
  · simp [checked_typeError]
  · simp [checked_typeError]
  · simp [checked_typeError]
  · simp [checked_typeError]
  · cases hfields : invalidationFields r fields with
    | none => simp [checked, bind, Except.bind, hfields]
    | some p =>
      have hread : (Payload.controlDeviceInvalidated <$> validatePeriod p : Except Failure Payload) =
          .error .typeError ↔ validatePeriod p = .error .typeError := by
        cases validatePeriod p with
        | ok payload => simp
        | error failure => simp
      simp only [checked, bind, Except.bind, hfields, true_and, Option.some.injEq, exists_eq_left']
      exact hread.trans validatePeriod_typeError

theorem invalidation_keys {model : PayloadModel}
    (h : payloadModels.lookup "control_device.invalidated" = some model) :
    model.keys = invalidationKeys := by
  have hmem := mem_of_lookup h
  simp [payloadModels] at hmem
  rw [hmem]
  rfl

theorem invalidationFields_withoutLegacy (r : Reading) (payload : LegacyPayload) :
    invalidationFields r (withoutLegacy payload).fields = invalidationFields r payload.fields := by
  simp only [invalidationFields, withoutLegacy, required, optional]
  simp (disch := decide) only [lookup_popField]

theorem onlyKeys_withoutLegacy (allowed : List String) (payload : LegacyPayload) :
    onlyKeys allowed (withoutLegacy payload).fields =
      onlyKeys (allowed ++ ["item_id", "operation_run_id"]) payload.fields := by
  rw [Bool.eq_iff_iff]
  simp only [onlyKeys, withoutLegacy, popField, List.all_eq_true, List.mem_filter, decide_eq_true_eq,
    List.contains_iff_mem, List.mem_append, List.mem_cons, List.not_mem_nil, or_false, and_imp]
  constructor
  · intro h field hfield
    by_cases hitem : field.1 = "item_id"
    · exact .inr (.inl hitem)
    · by_cases hrun : field.1 = "operation_run_id"
      · exact .inr (.inr hrun)
      · exact .inl (h field hfield hitem hrun)
  · intro h field hfield hitem hrun
    rcases h field hfield with hallowed | heq | heq
    · exact hallowed
    · exact absurd heq hitem
    · exact absurd heq hrun

/-- An invalidation has no duration, so its keys and fields are those of the dict. -/
theorem normalized_invalidation (r : Reading) (payload : LegacyPayload) :
    (onlyKeys invalidationKeys (normalizeDuration (withoutLegacy payload)).fields = true ∧
        ∃ p, invalidationFields r (normalizeDuration (withoutLegacy payload)).fields = some p ∧
          p.mixed = true) ↔
      onlyKeys (invalidationKeys ++ ["item_id", "operation_run_id"]) payload.fields = true ∧
        ∃ p, invalidationFields r payload.fields = some p ∧ p.mixed = true := by
  rw [← onlyKeys_withoutLegacy]
  by_cases hduration : normalizeDuration (withoutLegacy payload) = withoutLegacy payload
  · rw [hduration, invalidationFields_withoutLegacy]
  · unfold normalizeDuration at hduration ⊢
    cases hseconds : (withoutLegacy payload).fields.lookup "duration_seconds" with
    | none => simp [hseconds] at hduration
    | some value =>
      cases hnone : (withoutLegacy payload).fields.lookup "duration" with
      | some other => simp [hseconds, hnone] at hduration
      | none =>
        constructor
        · rintro ⟨hkeys, -⟩
          dsimp only at hkeys
          exact absurd (onlyKeys_lookup hkeys (lookup_setField_self _ _ _)) (by decide)
        · rintro ⟨hkeys, -⟩
          exact absurd (onlyKeys_lookup hkeys hseconds) (by decide)

/-! ## `validate_event` -/

theorem validatePayload_handled {r : Reading} {eventType : String} {model : PayloadModel}
    {payload : LegacyPayload} : Handled (validatePayload r eventType model payload) ↔
      ¬ (payload.otherKeys = false ∧ onlyKeys model.keys payload.fields = true ∧
        model.read r payload.fields = .error .typeError) := by
  unfold validatePayload
  cases hother : payload.otherKeys with
  | true => simp [Handled, validationError]
  | false =>
    cases hkeys : onlyKeys model.keys payload.fields with
    | false => simp [Handled, validationError]
    | true =>
      cases hread : model.read r payload.fields with
      | ok value => simp [Handled]
      | error failure =>
        cases failure with
        | validation => simp [Handled, validationError]
        | typeError => simp [Handled]

theorem validateEnvelope_handled (r : Reading) (candidate : Params) (payload : Payload) :
    Handled (validateEnvelope r candidate payload) := by
  unfold validateEnvelope
  split
  · trivial
  · trivial

theorem validateFields_normalized {r : Reading} {eventType : String} {model : PayloadModel}
    {fields candidate : Params} {payload : LegacyPayload}
    (h : normalizeLegacy r fields = .ok (candidate, payload)) :
    Handled (validateFields r eventType model fields) ↔
      Handled (validatePayload r eventType model payload) := by
  have hfields : validateFields r eventType model fields =
      (validatePayload r eventType model payload >>= validateEnvelope r candidate) := by
    rw [validateFields, h]
    rfl
  rw [hfields, handled_bind]
  exact ⟨fun h => h.1, fun h => ⟨h, fun _ _ => validateEnvelope_handled r candidate _⟩⟩

theorem validateFields_refused {r : Reading} {eventType : String} {model : PayloadModel}
    {fields : Params} {raised : Raised} (h : normalizeLegacy r fields = .error raised) :
    validateFields r eventType model fields = .error raised := by
  rw [validateFields, h]
  rfl

theorem normalizeLegacy_crashed {r : Reading} {fields : Params} {raised : Raised}
    (h : payloadDict r fields = .error raised) : normalizeLegacy r fields = .error raised := by
  unfold payloadDict at h
  unfold normalizeLegacy
  split at h
  · rename_i htruthy
    rw [if_pos htruthy, h]
    rfl
  · cases h

/-- Under a registered type and version. -/
theorem validateFields_handled {r : Reading} {eventType : String} {model : PayloadModel}
    {fields : Params} (hmodel : payloadModels.lookup eventType = some model) :
    Handled (validateFields r eventType model fields) ↔
      ((getField fields "payload").truthy r = true → dictLike (getField fields "payload") = true) ∧
        (eventType = "control_device.invalidated" → ∀ payload, payloadDict r fields = .ok payload →
          ¬ MixedPeriod r fields payload) := by
  rcases payloadDict_cases r fields with ⟨hlike, payload, hdict⟩ | ⟨hunlike, exception, hdict⟩
  · have hpayload : ∀ other, payloadDict r fields = .ok other ↔ payload = other := by
      intro other
      rw [hdict, Except.ok.injEq]
    rcases normalizeLegacy_cases hdict with ⟨hconflict, error, hlegacy⟩ | ⟨hagrees, candidate, hlegacy⟩
    · rw [validateFields_refused hlegacy]
      refine iff_of_true trivial ⟨hlike, fun _ other hother hmixed => hconflict ?_⟩
      obtain rfl := (hpayload other).mp hother
      exact hmixed.agrees
    · rw [validateFields_normalized hlegacy, validatePayload_handled, read_typeError hmodel]
      have hothers : (normalizeDuration (withoutLegacy payload)).otherKeys = payload.otherKeys := by
        unfold normalizeDuration
        split
        · rfl
        · rfl
      constructor
      · intro hnone
        refine ⟨hlike, fun htype other hother hmixed => hnone ?_⟩
        obtain rfl := (hpayload other).mp hother
        subst htype
        rw [invalidation_keys hmodel, hothers]
        obtain ⟨hkeys, hperiod⟩ :=
          (normalized_invalidation r payload).mpr ⟨hmixed.keys.2, hmixed.mixed⟩
        exact ⟨hmixed.keys.1, hkeys, rfl, hperiod⟩
      · rintro ⟨-, hnone⟩ ⟨hother, hkeys, htype, hperiod⟩
        subst htype
        rw [invalidation_keys hmodel] at hkeys
        obtain ⟨hkeys', hperiod'⟩ := (normalized_invalidation r payload).mp ⟨hkeys, hperiod⟩
        exact hnone rfl payload hdict ⟨⟨hothers ▸ hother, hkeys'⟩, hagrees, hperiod'⟩
  · rw [validateFields_refused (normalizeLegacy_crashed hdict)]
    exact iff_of_false (fun h => h) fun h => hunlike h.1

theorem registeredType_cases (value : Json) :
    (∃ eventType model, value = .str eventType ∧ payloadModels.lookup eventType = some model ∧
        registeredType value = .ok (eventType, model)) ∨
      (value.hashable = true ∧ (∀ eventType, value = .str eventType →
        payloadModels.lookup eventType = none) ∧ ∃ error, registeredType value = .error (.refused error)) ∨
      value.hashable = false ∧ ∃ exception, registeredType value = .error (.crashed exception) := by
  cases value with
  | str eventType =>
    cases hmodel : payloadModels.lookup eventType with
    | none =>
      refine .inr (.inl ⟨rfl, ?_, unsupportedType, by simp [registeredType, hmodel]⟩)
      intro other hother
      rw [← Json.str.inj hother]
      exact hmodel
    | some model =>
      refine .inl ⟨eventType, model, rfl, hmodel, ?_⟩
      have hmem := mem_of_lookup hmodel
      have hknown : (schemaRegistry.any fun entry => entry.1 == eventType) = true := by
        simp only [payloadModels, List.mem_cons, Prod.mk.injEq, List.not_mem_nil, or_false] at hmem
        rcases hmem with ⟨rfl, -⟩ | ⟨rfl, -⟩ | ⟨rfl, -⟩ | ⟨rfl, -⟩ | ⟨rfl, -⟩ | ⟨rfl, -⟩ | ⟨rfl, -⟩
        all_goals rfl
      simp [registeredType, hmodel, hknown]
  | arr values => exact .inr (.inr ⟨rfl, _, rfl⟩)
  | obj fields => exact .inr (.inr ⟨rfl, _, rfl⟩)
  | _ => exact .inr (.inl ⟨rfl, by simp, _, rfl⟩)

theorem registeredVersion_cases {eventType : String} {model : PayloadModel}
    (hmodel : payloadModels.lookup eventType = some model) (value : Json) :
    (value = .str "1.0" ∧ registeredVersion eventType value = .ok ()) ∨
      (value.hashable = true ∧ value ≠ .str "1.0" ∧
        ∃ error, registeredVersion eventType value = .error (.refused error)) ∨
      value.hashable = false ∧ ∃ exception, registeredVersion eventType value = .error (.crashed exception) := by
  have hmem := mem_of_lookup hmodel
  cases value with
  | str version =>
    by_cases hversion : version = "1.0"
    · subst hversion
      refine .inl ⟨rfl, ?_⟩
      simp only [payloadModels, List.mem_cons, Prod.mk.injEq, List.not_mem_nil, or_false] at hmem
      rcases hmem with ⟨rfl, -⟩ | ⟨rfl, -⟩ | ⟨rfl, -⟩ | ⟨rfl, -⟩ | ⟨rfl, -⟩ | ⟨rfl, -⟩ | ⟨rfl, -⟩
      all_goals rfl
    · refine .inr (.inl ⟨rfl, by simpa using hversion, unsupportedVersion, ?_⟩)
      simp [registeredVersion, schemaRegistry, hversion]
  | arr values => exact .inr (.inr ⟨rfl, _, rfl⟩)
  | obj fields => exact .inr (.inr ⟨rfl, _, rfl⟩)
  | _ => exact .inr (.inl ⟨rfl, by simp, _, rfl⟩)

/-- `validate_event` returns an event or raises `TraceQError` exactly on clean bodies. -/
theorem validateEvent_handled (r : Reading) (value : Json) :
    Handled (validateEvent r value) ↔ Clean r value := by
  cases value with
  | obj fields =>
    rcases registeredType_cases (getField fields "event_type") with
      ⟨eventType, model, htype, hmodel, hregistered⟩ | ⟨hhash, hunknown, error, hregistered⟩ |
      ⟨hunhash, exception, hregistered⟩
    · have hevent : validateEvent r (.obj fields) =
          (registeredVersion eventType (getField fields "schema_version") >>= fun _ =>
            validateFields r eventType model fields) := by
        rw [validateEvent, hregistered]
        rfl
      have hclean : Clean r (.obj fields) ↔ (getField fields "schema_version").hashable = true ∧
          (getField fields "schema_version" = .str "1.0" →
            Handled (validateFields r eventType model fields)) := by
        rw [validateFields_handled hmodel]
        constructor
        · exact fun h => h.2 eventType htype (by simp [hmodel])
        · intro h
          refine ⟨by rw [htype]; rfl, fun other hother _ => ?_⟩
          obtain rfl := Json.str.inj (htype.symm.trans hother)
          exact h
      rw [hevent, hclean, handled_bind]
      rcases registeredVersion_cases hmodel (getField fields "schema_version") with
        ⟨hversion, hok⟩ | ⟨hhash, hother, error, herror⟩ | ⟨hunhash, exception, hcrash⟩
      · rw [hok, hversion]
        exact ⟨fun h => ⟨rfl, fun _ => h.2 () rfl⟩, fun h => ⟨trivial, fun _ _ => h.2 rfl⟩⟩
      · rw [herror]
        exact iff_of_true ⟨trivial, fun _ h => by cases h⟩ ⟨hhash, fun h => absurd h hother⟩
      · rw [hcrash, hunhash]
        exact iff_of_false (fun h => h.1) (fun h => by cases h.1)
    · have hevent : validateEvent r (.obj fields) = .error (.refused error) := by
        rw [validateEvent, hregistered]
        rfl
      rw [hevent]
      refine iff_of_true trivial ⟨hhash, fun eventType htype hknown => ?_⟩
      rw [hunknown eventType htype] at hknown
      cases hknown
    · have hevent : validateEvent r (.obj fields) = .error (.crashed exception) := by
        rw [validateEvent, hregistered]
        rfl
      rw [hevent]
      refine iff_of_false (fun h => h) fun h => ?_
      have hhash : (getField fields "event_type").hashable = true := h.1
      rw [hunhash] at hhash
      cases hhash
  | _ => exact iff_of_true trivial trivial

/-! ## The recorded attempt -/

/-- One rejected attempt is committed, and nothing else changes but nonces and alerts. -/
def RecordsRejection (s s' : Store) : Prop :=
  (∃ attempt, attempt.status = .rejected ∧ s'.attempts = s.attempts ++ [attempt]) ∧
    s'.db = s.db ∧ s'.sealed = s.sealed ∧ s'.lastMac = s.lastMac ∧ s'.sources = s.sources

/-- `validate_event` handles the body, and if it refuses it the call commits one rejected attempt. -/
def RejectsTotally (g : Gateway) (s : Store) (call : IngestCall) : Prop :=
  Handled (validateEvent g.reading call.value) ∧
    ((∀ incoming, validateEvent g.reading call.value ≠ .ok incoming) →
      RecordsRejection s (ingestCall g s call).1)

/-- The texts of a refused body can be recorded. -/
def Recordable (g : Gateway) (call : IngestCall) : Prop :=
  ∀ error, validateEvent g.reading call.value = .error (.refused error) →
    recordable call.headerSourceId (claimedEventId g call.value) error = true

/-- For every call of an authenticated source: the rejection is total exactly on clean bodies whose
event id and error texts the columns take. -/
theorem rejection_total_iff {g : Gateway} {s : Store} {call : IngestCall} {source : EventSource}
    (hauth : (authenticateSource g s call).2 = .ok source) :
    RejectsTotally g s call ↔ Clean g.reading call.value ∧ Recordable g call := by
  have hstore := (authenticateSource_congr (g := g) (Alike.refl s) (nonceAlike_refl s call)).1.left
  rw [RejectsTotally, validateEvent_handled]
  refine and_congr_right fun hclean => ?_
  cases hvalid : validateEvent g.reading call.value with
  | ok incoming =>
    refine iff_of_true (fun h => absurd rfl (h incoming)) ?_
    intro error herror
    rw [hvalid] at herror
    cases herror
  | error raised =>
    cases raised with
    | crashed exception =>
      have hhandled := (validateEvent_handled g.reading call.value).mpr hclean
      rw [hvalid] at hhandled
      exact absurd hhandled fun h => h
    | refused error =>
      have hcall : (ingestCall g s call).1 = (recordRejectedAttempt (authenticateSource g s call).1
          call.headerSourceId (claimedEventId g call.value) error).1 := by
        have hadmission : admission g source call.value = .error (.refused error) := by
          simp only [admission, hvalid]
          rfl
        simp only [ingestCall, hauth, hadmission, refuse]
      have hrecordable : Recordable g call ↔
          recordable call.headerSourceId (claimedEventId g call.value) error = true := by
        simp [Recordable, hvalid]
      rw [hcall, hrecordable]
      generalize (authenticateSource g s call).1 = s' at hstore
      constructor
      · intro h
        obtain ⟨⟨attempt, -, hattempts⟩, -⟩ := h (by simp)
        by_contra hunfit
        simp only [recordRejectedAttempt, hunfit, if_false] at hattempts
        rw [hstore] at hattempts
        simp at hattempts
      · intro hfit _
        rw [hstore]
        simp only [recordRejectedAttempt, hfit, if_true]
        exact ⟨⟨rejectedAttempt call.headerSourceId (claimedEventId g call.value) error, rfl, rfl⟩,
          rfl, rfl, rfl, rfl⟩

/-! ### Two payloads -/

/-- A body with some payload from the source with a token. -/
def bodyCall (payload : Json) : IngestCall where
  value := .obj
    [("event_id", .str "e-1"), ("event_type", .str "machine.state"), ("schema_version", .str "1.0"),
      ("payload", payload)]
  headerSourceId := some "plc-1"
  sourceToken := some "secret"
  now := 21000000
  aesNonce := [1, 2, 3]

theorem rejection_total_iff_empty_payload :
    RejectsTotally plainGateway { sources := [tokenSource] } (bodyCall (.obj [])) := by
  have hrefused : validateEvent plainReading (bodyCall (.obj [])).value = .error (.refused (schemaError
      "Event validation failed: equipment_id: Field required; state: Field required")) := by rfl
  have hauth : (authenticateSource plainGateway { sources := [tokenSource] } (bodyCall (.obj []))).2 =
      .ok tokenSource := by rfl
  refine (rejection_total_iff hauth).mpr ⟨⟨rfl, fun eventType htype _ => ⟨rfl, fun _ => ⟨?_, ?_⟩⟩⟩, ?_⟩
  · intro htruthy
    cases htruthy
  · intro hinvalidation
    subst hinvalidation
    exact absurd htype (by decide +kernel)
  · intro error herror
    obtain rfl := Raised.refused.inj (Except.error.inj (hrefused.symm.trans herror))
    decide +kernel

/-- `dict` of a number raises a `TypeError`: no attempt is recorded. -/
theorem number_payload_crashes : ¬ ∀ (g : Gateway) (s : Store) (call : IngestCall)
    (source : EventSource), (authenticateSource g s call).2 = .ok source → RejectsTotally g s call := by
  intro h
  have hauth : (authenticateSource plainGateway { sources := [tokenSource] } (bodyCall (.int 5))).2 =
      .ok tokenSource := by rfl
  have hcrash : validateEvent plainReading (bodyCall (.int 5)).value = .error (.crashed .typeError) := by
    rfl
  have hhandled := (h plainGateway { sources := [tokenSource] } (bodyCall (.int 5)) tokenSource hauth).1
  have hhandled' : Handled (validateEvent plainReading (bodyCall (.int 5)).value) := hhandled
  rw [hcrash] at hhandled'
  exact hhandled'

end TraceQ.Properties
