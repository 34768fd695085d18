import TraceQ.Properties.CanonicalForm

/-! # Two spellings of an event

An event in the old spelling, with values in its payload that have moved since, is parsed as the event with the
values in their places.
-/
namespace TraceQ.Properties
open Projections Security Tables
set_option autoImplicit false
set_option maxHeartbeats 250000

/-! ## Spellings -/

/-- A duration in seconds, as the boundary adapter writes it. -/
def activeSeconds (value : Json) : Json :=
  .obj [("value", value), ("unit", .str "s"), ("meaning", .str "active_processing")]

/-- The fields of an event, and the values that old events have in their payload; `none` for a value that has
not moved. -/
structure Spelling where
  fields : Params
  payload : Params
  itemId : Option Json := none
  operationRunId : Option Json := none
  seconds : Option Json := none

def placed (key : String) (value : Option Json) : Params := value.toList.map fun value => (key, value)

/-- The value is an object with these fields and this payload, in any order. -/
def Spells (value : Json) (fields payload : Params) : Prop :=
  ∃ top inner, value = .obj top ∧ inner.Perm payload ∧ top.Perm (("payload", .obj inner) :: fields)

def Spelling.Legacy (s : Spelling) (value : Json) : Prop :=
  Spells value s.fields (s.payload ++ (placed "item_id" s.itemId ++
    (placed "operation_run_id" s.operationRunId ++ placed "duration_seconds" s.seconds)))

def Spelling.Envelope (s : Spelling) (value : Json) : Prop :=
  Spells value (s.fields ++ (placed "item_id" s.itemId ++ placed "operation_run_id" s.operationRunId))
    (s.payload ++ placed "duration" (s.seconds.map activeSeconds))

/-! ### Reading by lookups -/

section Lookups
variable {r : Reading} {fields others : Params}

theorem onlyKeys_iff {allowed : List String} :
    onlyKeys allowed fields = true ↔ ∀ key, (fields.lookup key).isSome = true → key ∈ allowed := by
  constructor
  · intro h key hkey
    obtain ⟨value, hvalue⟩ := Option.isSome_iff_exists.mp hkey
    exact List.contains_iff_mem.mp (onlyKeys_lookup h hvalue)
  · intro h
    refine List.all_eq_true.mpr fun field hfield => List.contains_iff_mem.mpr (h field.1 ?_)
    cases hlookup : fields.lookup field.1 with
    | none => simpa using List.lookup_eq_none_iff.mp hlookup field hfield
    | some value => rfl

theorem onlyKeys_congr {allowed : List String}
    (h : ∀ key, key ∉ allowed → fields.lookup key = others.lookup key) :
    onlyKeys allowed fields = onlyKeys allowed others := by
  rw [Bool.eq_iff_iff, onlyKeys_iff, onlyKeys_iff]
  refine forall_congr' fun key => ?_
  by_cases hkey : key ∈ allowed
  · exact iff_of_true (fun _ => hkey) fun _ => hkey
  · rw [h key hkey]

theorem read_congr {name : String} {payloadModel : PayloadModel}
    (hmodel : payloadModels.lookup name = some payloadModel)
    (h : ∀ key, fields.lookup key = others.lookup key) :
    payloadModel.read r fields = payloadModel.read r others := by
  have hmem := mem_of_lookup hmodel
  simp only [payloadModels, List.mem_cons, Prod.mk.injEq, List.not_mem_nil, or_false] at hmem
  rcases hmem with ⟨-, rfl⟩ | ⟨-, rfl⟩ | ⟨-, rfl⟩ | ⟨-, rfl⟩ | ⟨-, rfl⟩ | ⟨-, rfl⟩ | ⟨-, rfl⟩
  · simp only [itemRegistered, required, optional, h]
  · simp only [operationStarted, required, optional, h]
  · simp only [operationFinished, required, optional, h]
  · simp only [inspectionResult, required, optional, h]
  · simp only [machineState, required, optional, h]
  · simp only [operatorAction, required, optional, h]
  · simp only [invalidationFields, required, optional, h]

theorem periodOf_congr (payload : Payload) (h : ∀ key, fields.lookup key = others.lookup key) :
    periodOf r payload fields = periodOf r payload others := by
  cases payload <;> simp only [periodOf, invalidationFields, required, optional, h]

theorem optional_nullable {α : Type} {key : String} {read : Json → Option α} :
    optional fields key none (nullable read) = nullable read (getField fields key) := by
  rw [optional, getField]
  cases fields.lookup key <;> rfl

/-- What the envelope reads of its fields. -/
structure SameEnvelope (fields others : Params) : Prop where
  kept : ∀ key, key ≠ "item_id" → key ≠ "operation_run_id" → key ≠ "payload" →
    fields.lookup key = others.lookup key
  item : getField fields "item_id" = getField others "item_id"
  run : getField fields "operation_run_id" = getField others "operation_run_id"

theorem envelope_congr (payload : Payload) (h : SameEnvelope fields others) :
    envelope r (setField fields "payload" .null) payload = envelope r (setField others "payload" .null) payload := by
  have hclosed : onlyKeys envelopeKeys (setField fields "payload" .null) =
      onlyKeys envelopeKeys (setField others "payload" .null) := by
    rw [onlyKeys_setField (by decide), onlyKeys_setField (by decide)]
    refine onlyKeys_congr fun key hkey => h.kept key ?_ ?_ ?_
    · exact fun heq => hkey (heq ▸ by decide)
    · exact fun heq => hkey (heq ▸ by decide)
    · exact fun heq => hkey (heq ▸ by decide)
  have hlookup : ∀ key, key ≠ "item_id" → key ≠ "operation_run_id" → key ≠ "payload" →
      (setField fields "payload" .null).lookup key = (setField others "payload" .null).lookup key := by
    intro key hitem hrun hpayload
    rw [lookup_setField hpayload, lookup_setField hpayload, h.kept key hitem hrun hpayload]
  rw [envelope, ← envelopeKeys, envelope, ← envelopeKeys, hclosed]
  simp only [optional_nullable, required, getField_setField (show "item_id" ≠ "payload" by decide),
    getField_setField (show "operation_run_id" ≠ "payload" by decide), h.item, h.run,
    hlookup "event_id" (by decide) (by decide) (by decide),
    hlookup "event_type" (by decide) (by decide) (by decide),
    hlookup "schema_version" (by decide) (by decide) (by decide),
    hlookup "occurred_at" (by decide) (by decide) (by decide),
    hlookup "source" (by decide) (by decide) (by decide)]

/-- An event that is normalised alike is read alike. -/
theorem Parses.congr {event : ParsedEvent} {name : String} {payloadModel : PayloadModel}
    {candidate candidate' : Params} {payload payload' : LegacyPayload}
    (h : Parses r fields event name payloadModel candidate payload)
    (htype : getField others "event_type" = getField fields "event_type")
    (hversion : getField others "schema_version" = getField fields "schema_version")
    (hnormal : normalizeLegacy r others = .ok (candidate', payload'))
    (henvelope : SameEnvelope candidate' candidate) (hkeys : payload'.otherKeys = payload.otherKeys)
    (hpayload : ∀ key, payload'.fields.lookup key = payload.fields.lookup key) :
    Parses r others event name payloadModel candidate' payload' where
  eventType := htype.trans h.eventType
  modelled := h.modelled
  version := hversion.trans h.version
  normalized := hnormal
  texts := hkeys.trans h.texts
  closed := (onlyKeys_congr fun key _ => hpayload key).trans h.closed
  read := (read_congr h.modelled hpayload).trans h.read
  envelope := (envelope_congr _ henvelope).trans h.envelope
  period := h.period.trans (periodOf_congr _ hpayload).symm

end Lookups

/-! ### Moved values -/

section Moved
variable {r : Reading}

theorem lookup_perm {fields others : Params} (h : fields.Perm others) (hnodup : (fields.map (·.1)).Nodup)
    (key : String) : fields.lookup key = others.lookup key := by
  have hothers : (others.map (·.1)).Nodup := (h.map _).nodup_iff.mp hnodup
  cases hlookup : others.lookup key with
  | some value => exact lookup_of_mem hnodup (h.mem_iff.mpr (mem_of_lookup hlookup))
  | none =>
    refine List.lookup_eq_none_iff.mpr fun field hfield => ?_
    exact List.lookup_eq_none_iff.mp hlookup field (h.mem_iff.mp hfield)

theorem lookup_placed_self (key : String) (value : Option Json) : (placed key value).lookup key = value := by
  cases value <;> simp [placed]

theorem lookup_placed {key other : String} (h : other ≠ key) (value : Option Json) :
    (placed key value).lookup other = none := by
  cases value with
  | none => rfl
  | some value =>
    have hne : (other == key) = false := by simpa using h
    simp [placed, List.lookup_cons, hne]

/-- A value that was moved to a place has that place to itself. -/
theorem lookup_before_placed {fields rest : Params} {key : String} (value : Json)
    (h : ((fields ++ rest).map (·.1)).Nodup) (hrest : rest.lookup key = some value) : fields.lookup key = none := by
  refine List.lookup_eq_none_iff.mpr fun field hfield => ?_
  rw [List.map_append, List.nodup_append] at h
  have hne := h.2.2 field.1 (List.mem_map_of_mem hfield) key (List.mem_map_of_mem (mem_of_lookup hrest))
  simpa using Ne.symm hne

theorem lookup_popField_self (fields : Params) (key : String) : (popField fields key).lookup key = none := by
  refine List.lookup_eq_none_iff.mpr fun field hfield => ?_
  have hne : field.1 ≠ key := by simpa using (List.mem_filter.mp hfield).2
  simpa using Ne.symm hne

theorem lookup_withoutLegacy (payload : LegacyPayload) (key : String) : (withoutLegacy payload).fields.lookup key =
    if key = "item_id" ∨ key = "operation_run_id" then none else payload.fields.lookup key := by
  rw [withoutLegacy]
  dsimp only
  by_cases hrun : key = "operation_run_id"
  · rw [if_pos (.inr hrun), hrun, lookup_popField_self]
  · rw [lookup_popField hrun]
    by_cases hitem : key = "item_id"
    · rw [if_pos (.inl hitem), hitem, lookup_popField_self]
    · rw [lookup_popField hitem, if_neg (not_or.mpr ⟨hitem, hrun⟩)]

/-- A duration in seconds is moved under its new key, unless there is one already. -/
theorem lookup_normalizeDuration (payload : LegacyPayload) (key : String) :
    (normalizeDuration payload).fields.lookup key =
      match payload.fields.lookup "duration_seconds", payload.fields.lookup "duration" with
      | some value, none =>
          if key = "duration" then some (activeSeconds value) else if key = "duration_seconds" then none
          else payload.fields.lookup key
      | _, _ => payload.fields.lookup key := by
  rw [normalizeDuration]
  cases hseconds : payload.fields.lookup "duration_seconds" with
  | none => rfl
  | some value =>
    cases hduration : payload.fields.lookup "duration" with
    | some other => rfl
    | none =>
      dsimp only
      by_cases hkey : key = "duration"
      · rw [if_pos hkey, hkey, lookup_setField_self, activeSeconds]
      · rw [lookup_setField hkey, if_neg hkey]
        by_cases hold : key = "duration_seconds"
        · rw [if_pos hold, hold, lookup_popField_self]
        · rw [if_neg hold, lookup_popField hold]

/-- An id, in the payload or in the envelope. -/
structure IdAgrees (r : Reading) (fields payload fields' payload' : Params) (key : String) : Prop where
  conflict : legacyConflict r fields payload key = legacyConflict r fields' payload' key
  merged : mergedId fields payload key = mergedId fields' payload' key

/-- A value beside the payload in one spelling and beside the fields in the other. -/
theorem idAgrees {fields top inner top' inner' : Params} (payload : Params) {key : String} (value : Option Json)
    (hfree : ∀ id, value = some id → fields.lookup key = none ∧ payload.lookup key = none)
    (htop : top.lookup key = fields.lookup key) (hinner : inner.lookup key = (payload.lookup key).or value)
    (htop' : top'.lookup key = (fields.lookup key).or value) (hinner' : inner'.lookup key = payload.lookup key) :
    IdAgrees r top inner top' inner' key := by
  cases value with
  | none =>
    rw [Option.or_none] at hinner htop'
    have hfields : getField top key = getField top' key := by rw [getField, htop, getField, htop']
    have hpayload : getField inner key = getField inner' key := by rw [getField, hinner, getField, hinner']
    exact ⟨by rw [legacyConflict, legacyConflict, hfields, hpayload],
      by rw [mergedId, mergedId, hfields, hpayload]⟩
  | some id =>
    obtain ⟨hfields, hpayload⟩ := hfree id rfl
    rw [hfields] at htop htop'
    rw [hpayload] at hinner hinner'
    have hnone : getField top key = .null := by rw [getField, htop, Option.getD_none]
    have hnone' : getField inner' key = .null := by rw [getField, hinner', Option.getD_none]
    have hid : getField inner key = id := by rw [getField, hinner, Option.none_or, Option.getD_some]
    have hid' : getField top' key = id := by rw [getField, htop', Option.none_or, Option.getD_some]
    constructor
    · simp [legacyConflict, hnone, hnone']
    · rw [mergedId, mergedId, if_pos hnone, hid, hid', hnone']
      split
      · assumption
      · rfl

/-- Two objects with the same ids, and with payloads that are normalised alike, are parsed alike. -/
theorem parseEvent_respelled {fields fields' payload payload' : Params} {event : ParsedEvent}
    (hpayload : getField fields "payload" = .obj payload) (hpayload' : getField fields' "payload" = .obj payload')
    (hkept : ∀ key, key ≠ "item_id" → key ≠ "operation_run_id" → key ≠ "payload" →
      fields'.lookup key = fields.lookup key)
    (hitem : IdAgrees r fields payload fields' payload' "item_id")
    (hrun : IdAgrees r fields payload fields' payload' "operation_run_id")
    (hnormal : ∀ key, (normalizeDuration (withoutLegacy { fields := payload' })).fields.lookup key =
      (normalizeDuration (withoutLegacy { fields := payload })).fields.lookup key)
    (h : parseEvent r (.obj fields) = .ok event) : parseEvent r (.obj fields') = .ok event := by
  have hdict := payloadDict_obj (r := r) hpayload
  have hdict' := payloadDict_obj (r := r) hpayload'
  obtain ⟨name, payloadModel, candidate, normalized, hparse⟩ := parseEvent_ok.mp h
  obtain ⟨hsame, hfields, hid, hrunId⟩ := normalizeLegacy_ok hdict hparse.normalized
  have hagrees : ∀ key ∈ ["item_id", "operation_run_id"], legacyConflict r fields' payload' key = false := by
    rcases normalizeLegacy_cases hdict with ⟨-, error, herror⟩ | ⟨hnone, -⟩
    · rw [hparse.normalized] at herror
      cases herror
    · intro key hkey
      have hfree := hnone key hkey
      rcases List.mem_pair.mp hkey with rfl | rfl
      · exact hitem.conflict ▸ hfree
      · exact hrun.conflict ▸ hfree
  rcases normalizeLegacy_cases hdict' with ⟨hconflict, -⟩ | ⟨-, candidate', hlegacy⟩
  · exact absurd hagrees hconflict
  · obtain ⟨-, hfields', hid', hrunId'⟩ := normalizeLegacy_ok hdict' hlegacy
    have hothers : ∀ given : Params,
        (normalizeDuration (withoutLegacy { fields := given })).otherKeys = false := by
      intro given
      unfold normalizeDuration
      split <;> rfl
    have hget : ∀ key, key ≠ "item_id" → key ≠ "operation_run_id" → key ≠ "payload" →
        getField fields' key = getField fields key := by
      intro key hitem hrun hpayload
      rw [getField, hkept key hitem hrun hpayload, getField]
    refine parseEvent_ok.mpr ⟨name, payloadModel, candidate', _, hparse.congr
      (hget _ (by decide) (by decide) (by decide)) (hget _ (by decide) (by decide) (by decide)) hlegacy ⟨?_, ?_, ?_⟩
      ((hothers payload').trans (hsame ▸ (hothers payload)).symm) ?_⟩
    · intro key hitem hrun hpayload
      rw [hfields' key hitem hrun, hfields key hitem hrun, hkept key hitem hrun hpayload]
    · rw [hid', hid, hitem.merged]
    · rw [hrunId', hrunId, hrun.merged]
    · rw [hsame]
      exact hnormal

/-! ### The two spellings of an event -/

/-- What the fields of a spelled value are. -/
structure SpelledAs (top inner fields payload : Params) : Prop where
  ofPayload : getField top "payload" = .obj inner
  ofTop : ∀ key, key ≠ "payload" → top.lookup key = fields.lookup key
  ofInner : ∀ key, inner.lookup key = payload.lookup key
  fieldsNodup : (fields.map (·.1)).Nodup
  payloadNodup : (payload.map (·.1)).Nodup

theorem spelledAs {value : Json} {fields payload : Params} (h : Spells value fields payload)
    (hvalue : value.WellFormed) : ∃ top inner, value = .obj top ∧ SpelledAs top inner fields payload := by
  obtain ⟨top, inner, rfl, hinner, htop⟩ := h
  have htopNodup : (top.map (·.1)).Nodup := hvalue.1
  have hkeys : ((("payload", Json.obj inner) :: fields).map (·.1)).Nodup := (htop.map _).nodup_iff.mp htopNodup
  have hpayload : top.lookup "payload" = some (.obj inner) := by
    rw [lookup_perm htop htopNodup]
    rfl
  have hinnerNodup : (inner.map (·.1)).Nodup := (wellFormed_of_lookup hvalue.2 hpayload).1
  refine ⟨top, inner, rfl, ?_, ?_, lookup_perm hinner hinnerNodup, (List.nodup_cons.mp hkeys).2,
    (hinner.map _).nodup_iff.mp hinnerNodup⟩
  · rw [getField, hpayload]
    rfl
  · intro key hkey
    have hne : (key == "payload") = false := by simpa using hkey
    rw [lookup_perm htop htopNodup, List.lookup_cons, hne]

theorem spellings_normalize {s : Spelling} {inner inner' : Params}
    (hold : ∀ key, inner.lookup key = (s.payload ++ (placed "item_id" s.itemId ++
      (placed "operation_run_id" s.operationRunId ++ placed "duration_seconds" s.seconds))).lookup key)
    (hnew : ∀ key, inner'.lookup key = (s.payload ++ placed "duration" (s.seconds.map activeSeconds)).lookup key)
    (hfree : ∀ value, s.seconds = some value →
      s.payload.lookup "duration_seconds" = none ∧ s.payload.lookup "duration" = none) (key : String) :
    (normalizeDuration (withoutLegacy { fields := inner' })).fields.lookup key =
      (normalizeDuration (withoutLegacy { fields := inner })).fields.lookup key := by
  have hkept : ∀ key, key ≠ "item_id" → key ≠ "operation_run_id" → key ≠ "duration_seconds" →
      inner.lookup key = s.payload.lookup key := by
    intro key hitem hrun hseconds
    rw [hold, List.lookup_append, List.lookup_append, List.lookup_append, lookup_placed hitem, lookup_placed hrun,
      lookup_placed hseconds]
    simp
  have hseconds : inner.lookup "duration_seconds" = (s.payload.lookup "duration_seconds").or s.seconds := by
    rw [hold, List.lookup_append, List.lookup_append, List.lookup_append, lookup_placed (by decide),
      lookup_placed (by decide), lookup_placed_self]
    simp
  have hkept' : ∀ key, key ≠ "duration" → inner'.lookup key = s.payload.lookup key := by
    intro key hduration
    rw [hnew, List.lookup_append, lookup_placed hduration]
    simp
  have hduration : inner'.lookup "duration" =
      (s.payload.lookup "duration").or (s.seconds.map activeSeconds) := by
    rw [hnew, List.lookup_append, lookup_placed_self]
  simp only [lookup_normalizeDuration, lookup_withoutLegacy, String.reduceEq, or_self, if_false]
  rw [hseconds, hduration, hkept "duration" (by decide) (by decide) (by decide),
    hkept' "duration_seconds" (by decide)]
  cases hvalue : s.seconds with
  | none =>
    have hall : ∀ key, key ≠ "item_id" → key ≠ "operation_run_id" → inner'.lookup key = inner.lookup key := by
      intro key hitem hrun
      by_cases hkey : key = "duration_seconds"
      · rw [hkey, hseconds, hkept' _ (by decide), hvalue, Option.or_none]
      · rw [hkept key hitem hrun hkey]
        by_cases hkey' : key = "duration"
        · rw [hkey', hduration, hvalue, Option.map_none, Option.or_none]
        · rw [hkept' key hkey']
    have hids : (if key = "item_id" ∨ key = "operation_run_id" then none else inner'.lookup key) =
        if key = "item_id" ∨ key = "operation_run_id" then none else inner.lookup key := by
      split
      · rfl
      · rename_i hkey
        exact hall key (fun h => hkey (.inl h)) fun h => hkey (.inr h)
    rw [Option.map_none, Option.or_none, Option.or_none, hids]
  | some value =>
    obtain ⟨hnoSeconds, hnoDuration⟩ := hfree value hvalue
    rw [hnoSeconds, hnoDuration]
    simp only [Option.none_or]
    by_cases hkey : key = "duration"
    · rw [if_pos hkey, hkey, if_neg (by decide), hduration, hnoDuration, hvalue]
      rfl
    · rw [if_neg hkey, hkept' key hkey]
      by_cases hkey' : key = "duration_seconds"
      · rw [if_pos hkey', hkey', if_neg (by decide), hnoSeconds]
      · rw [if_neg hkey']
        split
        · rfl
        · rename_i hids
          rw [hkept key (fun h => hids (.inl h)) (fun h => hids (.inr h)) hkey']

/-- Both spellings are accepted as the same event, or neither is accepted. -/
theorem spellings_parse_alike {s : Spelling} {legacy envelope : Json} (hlegacy : s.Legacy legacy)
    (henvelope : s.Envelope envelope) (hformed : legacy.WellFormed) (hformed' : envelope.WellFormed)
    (event : ParsedEvent) : parseEvent r legacy = .ok event ↔ parseEvent r envelope = .ok event := by
  obtain ⟨top, inner, rfl, hold⟩ := spelledAs hlegacy hformed
  obtain ⟨top', inner', rfl, hnew⟩ := spelledAs henvelope hformed'
  have hseconds : ∀ value, s.seconds = some value →
      s.payload.lookup "duration_seconds" = none ∧ s.payload.lookup "duration" = none := by
    intro value hvalue
    constructor
    · refine lookup_before_placed value hold.payloadNodup ?_
      rw [List.lookup_append, List.lookup_append, lookup_placed (by decide), lookup_placed (by decide),
        lookup_placed_self, hvalue]
      rfl
    · refine lookup_before_placed (activeSeconds value) hnew.payloadNodup ?_
      rw [lookup_placed_self, hvalue]
      rfl
  have hnormal := spellings_normalize hold.ofInner hnew.ofInner hseconds
  have hkept : ∀ key, key ≠ "item_id" → key ≠ "operation_run_id" → key ≠ "payload" →
      top'.lookup key = top.lookup key := by
    intro key hitem hrun hpayload
    rw [hnew.ofTop key hpayload, hold.ofTop key hpayload, List.lookup_append, List.lookup_append, lookup_placed hitem,
      lookup_placed hrun]
    simp
  have hitem : IdAgrees r top inner top' inner' "item_id" := by
    refine idAgrees s.payload s.itemId (fun id hid => ⟨?_, ?_⟩) (hold.ofTop _ (by decide)) ?_ ?_ ?_
    · refine lookup_before_placed id hnew.fieldsNodup ?_
      rw [List.lookup_append, lookup_placed_self, hid, Option.some_or]
    · refine lookup_before_placed id hold.payloadNodup ?_
      rw [List.lookup_append, lookup_placed_self, hid, Option.some_or]
    · rw [hold.ofInner, List.lookup_append, List.lookup_append, List.lookup_append, lookup_placed_self,
        lookup_placed (by decide), lookup_placed (by decide), Option.or_none, Option.or_none]
    · rw [hnew.ofTop _ (by decide), List.lookup_append, List.lookup_append, lookup_placed_self,
        lookup_placed (by decide), Option.or_none]
    · rw [hnew.ofInner, List.lookup_append, lookup_placed (by decide), Option.or_none]
  have hrun : IdAgrees r top inner top' inner' "operation_run_id" := by
    refine idAgrees s.payload s.operationRunId (fun id hid => ⟨?_, ?_⟩) (hold.ofTop _ (by decide)) ?_ ?_ ?_
    · refine lookup_before_placed id hnew.fieldsNodup ?_
      rw [List.lookup_append, lookup_placed (by decide), lookup_placed_self, hid, Option.none_or]
    · refine lookup_before_placed id hold.payloadNodup ?_
      rw [List.lookup_append, List.lookup_append, lookup_placed (by decide), lookup_placed_self, hid,
        Option.some_or, Option.none_or]
    · rw [hold.ofInner, List.lookup_append, List.lookup_append, List.lookup_append, lookup_placed (by decide),
        lookup_placed_self, lookup_placed (by decide), Option.or_none, Option.none_or]
    · rw [hnew.ofTop _ (by decide), List.lookup_append, List.lookup_append, lookup_placed (by decide),
        lookup_placed_self, Option.none_or]
    · rw [hnew.ofInner, List.lookup_append, lookup_placed (by decide), Option.or_none]
  constructor
  · exact parseEvent_respelled hold.ofPayload hnew.ofPayload hkept hitem hrun hnormal
  · exact parseEvent_respelled hnew.ofPayload hold.ofPayload
      (fun key hi hr hp => (hkept key hi hr hp).symm) ⟨hitem.conflict.symm, hitem.merged.symm⟩
      ⟨hrun.conflict.symm, hrun.merged.symm⟩ fun key => (hnormal key).symm

end Moved

end TraceQ.Properties
