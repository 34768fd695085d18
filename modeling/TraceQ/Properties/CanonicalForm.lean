import TraceQ.Domain.CanonicalMeaning
import TraceQ.Projections.StoredRows
import TraceQ.Properties.ContractAgreement
import TraceQ.Security.JsonText

/-! # The canonical form as an event

The canonical form of an accepted event is accepted as the event with sorted free-form parts, which has the same
canonical form.
-/
namespace TraceQ.Properties
open Projections Security Tables
set_option autoImplicit false
set_option maxHeartbeats 250000

/-! ## Events with sorted free-form parts -/

def sortedIncoming (incoming : IncomingEvent) : IncomingEvent :=
  { incoming with
    event :=
      { incoming.event with
        payload := incoming.event.payload.canonical
        item_required := by
          rw [needsItem_canonical]
          exact incoming.event.item_required
        run_required := by
          rw [needsRun_canonical]
          exact incoming.event.run_required } }

/-- The event that the canonical form is read as. -/
def sortedEvent (event : ParsedEvent) : ParsedEvent := { event with incoming := sortedIncoming event.incoming }

theorem canonicalEventDict_sorted (w : Writing) (event : ParsedEvent) :
    (canonicalEventDict w (sortedEvent event)).canonical = (canonicalEventDict w event).canonical := by
  have hpayload : (Json.obj (event.incoming.event.payload.canonical.dump w event.period)).canonical =
      (Json.obj (event.incoming.event.payload.dump w event.period)).canonical := by
    rw [Json.canonical, Json.canonical, dump_sorted]
  have hfields : Json.canonicalFields (canonicalFieldsOf w (sortedEvent event)) =
      Json.canonicalFields (canonicalFieldsOf w event) := by
    simp only [canonicalFieldsOf, sortedEvent, sortedIncoming, Json.canonicalFields, eventTypeOf_canonical,
      hpayload]
  rw [canonicalEventDict, canonicalEventDict, Json.canonical, Json.canonical, hfields]

/-! ## What `validate_event` reads -/

/-- The keys of the envelope. -/
def envelopeKeys : List String :=
  ["event_id", "event_type", "schema_version", "occurred_at", "source", "item_id", "operation_run_id", "payload"]

/-- The steps of an accepted validation. -/
structure Parses (r : Reading) (fields : Params) (event : ParsedEvent) (name : String)
    (payloadModel : PayloadModel) (candidate : Params) (payload : LegacyPayload) : Prop where
  eventType : getField fields "event_type" = .str name
  modelled : payloadModels.lookup name = some payloadModel
  version : getField fields "schema_version" = .str "1.0"
  normalized : normalizeLegacy r fields = .ok (candidate, payload)
  texts : payload.otherKeys = false
  closed : onlyKeys payloadModel.keys payload.fields = true
  read : payloadModel.read r payload.fields = .ok event.incoming.event.payload
  envelope : envelope r (setField candidate "payload" .null) event.incoming.event.payload = some event.incoming
  period : event.period = periodOf r event.incoming.event.payload payload.fields

theorem envelope_payload {r : Reading} {fields : Params} {value : Payload} {incoming : IncomingEvent}
    (h : envelope r fields value = some incoming) : incoming.event.payload = value := by
  simp only [envelope, Option.bind_eq_bind, Option.bind_eq_some_iff] at h
  obtain ⟨_, -, _, -, _, -, _, -, _, -, _, -, _, -, _, -, h⟩ := h
  split at h
  · split at h
    · rw [← Option.some.inj h]
    · cases h
  · cases h

theorem parseEvent_ok {r : Reading} {fields : Params} {event : ParsedEvent} :
    parseEvent r (.obj fields) = .ok event ↔
      ∃ name payloadModel candidate payload, Parses r fields event name payloadModel candidate payload := by
  constructor
  · intro h
    cases htype : registeredType (getField fields "event_type") with
    | error e => simp [parseEvent, validateEvent, htype, bind, Except.bind] at h
    | ok found =>
      obtain ⟨name, payloadModel⟩ := found
      obtain ⟨hname, hmodel⟩ := registeredType_ok.mp htype
      rcases registeredVersion_cases hmodel (getField fields "schema_version") with
        ⟨hversion, hok⟩ | ⟨-, -, error, herror⟩ | ⟨-, exception, herror⟩
      · cases hlegacy : normalizeLegacy r fields with
        | error e => simp [parseEvent, validateEvent, validateFields, htype, hok, hlegacy, bind, Except.bind] at h
        | ok normalized =>
          obtain ⟨candidate, payload⟩ := normalized
          cases hvalue : validatePayload r name payloadModel payload with
          | error e =>
            simp [parseEvent, validateEvent, validateFields, htype, hok, hlegacy, hvalue, bind, Except.bind] at h
          | ok value =>
            cases henvelope : TraceQ.envelope r (setField candidate "payload" .null) value with
            | none =>
              simp [parseEvent, validateEvent, validateFields, validateEnvelope, htype, hok, hlegacy, hvalue,
                henvelope, bind, Except.bind] at h
            | some incoming =>
              simp only [parseEvent, validateEvent, validateFields, validateEnvelope, htype, hok, hlegacy, hvalue,
                henvelope, bind, Except.bind, pure, Except.pure, Except.ok.injEq] at h
              obtain ⟨hother, hclosed, hread⟩ := validatePayload_ok.mp hvalue
              have hsame := envelope_payload henvelope
              subst h
              refine ⟨name, payloadModel, candidate, payload, hname, hmodel, hversion, hlegacy, hother, hclosed,
                ?_, ?_, rfl⟩
              · rw [hsame]
                exact hread
              · rw [hsame]
                exact henvelope
      · simp [parseEvent, validateEvent, htype, herror, bind, Except.bind] at h
      · simp [parseEvent, validateEvent, htype, herror, bind, Except.bind] at h
  · rintro ⟨name, payloadModel, candidate, payload, h⟩
    have htype := registeredType_ok.mpr ⟨h.eventType, h.modelled⟩
    have hversion : registeredVersion name (getField fields "schema_version") = .ok () := by
      rcases registeredVersion_cases h.modelled (getField fields "schema_version") with
        ⟨-, hok⟩ | ⟨-, hne, -⟩ | ⟨hhash, -⟩
      · exact hok
      · exact absurd h.version hne
      · rw [h.version] at hhash
        cases hhash
    have hvalue : validatePayload r name payloadModel payload = .ok event.incoming.event.payload :=
      validatePayload_ok.mpr ⟨h.texts, h.closed, h.read⟩
    obtain ⟨incoming, period⟩ := event
    simp only [parseEvent, validateEvent, validateFields, validateEnvelope, htype, hversion, h.normalized, hvalue,
      h.envelope, bind, Except.bind, pure, Except.pure, ← h.period]

/-! ## The canonical form as an event -/

section Canonical
variable {r : Reading} {w : Writing} (hback : ReadsBack r w)

theorem text_eventTypeOf (payload : Payload) :
    text 1 64 (.str (eventTypeOf payload)) = some (eventTypeOf payload) := by
  have hlength : 1 ≤ (eventTypeOf payload).length ∧ (eventTypeOf payload).length ≤ 64 := by
    cases payload <;>
    · simp only [eventTypeOf]
      decide
  exact if_pos hlength

include hback in
/-- The envelope is read from the sorted dump as it was, with the sorted payload. -/
theorem envelope_restores {candidate others : Params} {event : ParsedEvent}
    (h : envelope r candidate event.incoming.event.payload = some event.incoming)
    (hclosed : onlyKeys envelopeKeys others = true)
    (hothers : ∀ key, key ≠ "payload" →
      others.lookup key = ((canonicalFieldsOf w event).lookup key).map Json.canonical) :
    envelope r others event.incoming.event.payload.canonical = some (sortedIncoming event.incoming) := by
  obtain ⟨incoming, period⟩ := event
  simp only [envelope, Option.bind_eq_bind, Option.bind_eq_some_iff] at h
  obtain ⟨_, -, eventId, hid, _, -, version, hversion, occurredAt, htime, source, hsource, itemId, hitem, runId,
    hrun, h⟩ := h
  split at h
  · rename_i hneeds
    split at h
    · rename_i hneedsRun
      have hsame := Option.some.inj h
      obtain ⟨event, time, hinstant⟩ := incoming
      obtain ⟨eventId', version', occurredAt', source', itemId', runId', payload, hitem', hrun'⟩ := event
      simp only [IncomingEvent.mk.injEq, EventEnvelope.mk.injEq, and_true] at hsame
      obtain ⟨⟨rfl, rfl, rfl, rfl, rfl, rfl⟩, rfl⟩ := hsame
      replace hid := required_restores (text_restores 1 128) hid (hothers _ (by decide))
      replace hversion := required_restores (text_restores 1 16) hversion (hothers _ (by decide))
      replace htime := required_restores (readDatetime_restores hback) htime (hothers _ (by decide))
      replace hsource := required_restores
        (model_restores (sourceRef_restores hback) (fun _ => rfl) (by decide)) hsource (hothers _ (by decide))
      replace hitem := optional_restores (nullableText_restores 128) hitem (hothers _ (by decide)) ⟨rfl, trivial⟩
      replace hrun := optional_restores (nullableText_restores 128) hrun (hothers _ (by decide)) ⟨rfl, trivial⟩
      have htype : required others "event_type" (text 1 64) = some (eventTypeOf payload) := by
        have hlookup : others.lookup "event_type" = some (.str (eventTypeOf payload)) := hothers _ (by decide)
        rw [required, hlookup]
        exact text_eventTypeOf payload
      have hguard : guard (onlyKeys envelopeKeys others = true) = some () := by
        rw [hclosed]
        rfl
      rw [envelope, ← envelopeKeys, hguard, hid.1, htype, hversion.1, htime.1, hsource.1, hitem.1, hrun.1]
      simp only [Option.bind_eq_bind, Option.bind_some, id, needsItem_canonical, needsRun_canonical, dif_pos hneeds,
        dif_pos hneedsRun]
      rfl
    · cases h
  · cases h

/-! ### Legacy keys -/

theorem wellFormed_popField {fields : Params} (h : Json.WellFormedFields fields) (key : String) :
    Json.WellFormedFields (popField fields key) :=
  Json.wellFormedFields_iff.mpr fun _ hfield => Json.wellFormedFields_iff.mp h _ (List.mem_of_mem_filter hfield)

theorem wellFormed_setField {fields : Params} (h : Json.WellFormedFields fields) (key : String) {value : Json}
    (hvalue : value.WellFormed) : Json.WellFormedFields (setField fields key value) := by
  induction fields with
  | nil => exact ⟨hvalue, trivial⟩
  | cons field rest ih =>
    by_cases hname : field.1 = key
    · have hkept : setField (field :: rest) key value = (key, value) :: rest := by
        simp [setField, upsert, hname]
      rw [hkept]
      exact ⟨hvalue, h.2⟩
    · have hkept : setField (field :: rest) key value = field :: setField rest key value := by
        simp [setField, upsert, hname]
      rw [hkept]
      exact ⟨h.1, ih h.2⟩

theorem wellFormed_dictInsert {dict dict' : LegacyPayload} {entry : Json} (hentry : entry.WellFormed)
    (h : dictInsert dict entry = .ok dict') (hdict : Json.WellFormedFields dict.fields) :
    Json.WellFormedFields dict'.fields := by
  cases hread : dictEntry entry with
  | error e => simp [dictInsert, hread, bind, Except.bind] at h
  | ok pair =>
    obtain ⟨key, value⟩ := pair
    have hvalue : value.WellFormed := by
      unfold dictEntry at hread
      split at hread
      · obtain ⟨-, rfl⟩ := Prod.mk.inj (Except.ok.inj hread)
        exact hentry.2.1
      · cases hread
      · split at hread
        · obtain ⟨-, rfl⟩ := Prod.mk.inj (Except.ok.inj hread)
          trivial
        · cases hread
      · obtain ⟨-, rfl⟩ := Prod.mk.inj (Except.ok.inj hread)
        trivial
      · cases hread
      · cases hread
    simp only [dictInsert, hread, bind, Except.bind] at h
    split at h
    · obtain rfl := Except.ok.inj h
      exact wellFormed_setField hdict _ hvalue
    · split at h
      · obtain rfl := Except.ok.inj h
        exact hdict
      · cases h

theorem wellFormed_payloadDict {fields : Params} {payload : LegacyPayload}
    (h : payloadDict r fields = .ok payload) (hfields : Json.WellFormedFields fields) :
    Json.WellFormedFields payload.fields := by
  have hvalue : (getField fields "payload").WellFormed := by
    rw [getField]
    cases hlookup : fields.lookup "payload" with
    | none => trivial
    | some value => exact wellFormed_of_lookup hfields hlookup
  rw [payloadDict] at h
  split at h
  · generalize getField fields "payload" = value at h hvalue
    cases value with
    | obj inner =>
      obtain rfl := Except.ok.inj h
      exact hvalue.2
    | arr entries =>
      have hall : ∀ (entries : List Json) (start : LegacyPayload), Json.WellFormedList entries →
          Json.WellFormedFields start.fields → entries.foldlM dictInsert start = .ok payload →
          Json.WellFormedFields payload.fields := by
        intro entries
        induction entries with
        | nil =>
          intro start _ hstart hfold
          rw [← Except.ok.inj hfold]
          exact hstart
        | cons first rest ih =>
          intro start hentries hstart hfold
          rw [List.foldlM_cons] at hfold
          cases hinsert : dictInsert start first with
          | error e => simp [hinsert, bind, Except.bind] at hfold
          | ok next =>
            rw [hinsert] at hfold
            exact ih next hentries.2 (wellFormed_dictInsert hentries.1 hinsert hstart) hfold
      exact hall entries {} hvalue trivial h
    | _ => cases h
  · obtain rfl := Except.ok.inj h
    trivial

/-- The id that counts: that of the envelope, or else that of the payload. -/
def mergedId (fields payload : Params) (key : String) : Json :=
  if getField fields key = .null then getField payload key else getField fields key

theorem normalizeKey_ok {fields candidate : Params} {payload payload' : LegacyPayload} {key : String}
    (h : normalizeKey r (fields, payload) key = .ok (candidate, payload')) :
    payload' = { payload with fields := popField payload.fields key } ∧
      (∀ other, other ≠ key → candidate.lookup other = fields.lookup other) ∧
      getField candidate key = mergedId fields payload.fields key := by
  rw [normalizeKey] at h
  dsimp only at h
  rw [mergedId]
  split at h
  · rename_i hnull
    obtain ⟨rfl, rfl⟩ := Prod.mk.inj (Except.ok.inj h)
    refine ⟨rfl, fun _ _ => rfl, ?_⟩
    split
    · rename_i henvelope
      rw [henvelope, hnull]
    · rfl
  split at h
  · rename_i hlegacy henvelope
    obtain ⟨rfl, rfl⟩ := Prod.mk.inj (Except.ok.inj h)
    refine ⟨rfl, fun other hother => lookup_setField hother, ?_⟩
    rw [if_pos henvelope, getField, lookup_setField_self]
    rfl
  split at h
  · rename_i hlegacy henvelope hsame
    obtain ⟨rfl, rfl⟩ := Prod.mk.inj (Except.ok.inj h)
    exact ⟨rfl, fun _ _ => rfl, (if_neg henvelope).symm⟩
  · cases h

/-- The normalised event: ids are merged, and every other field of the envelope is kept. -/
theorem normalizeLegacy_ok {fields candidate : Params} {payload result : LegacyPayload}
    (hdict : payloadDict r fields = .ok payload) (h : normalizeLegacy r fields = .ok (candidate, result)) :
    result = normalizeDuration (withoutLegacy payload) ∧
      (∀ key, key ≠ "item_id" → key ≠ "operation_run_id" → candidate.lookup key = fields.lookup key) ∧
      getField candidate "item_id" = mergedId fields payload.fields "item_id" ∧
      getField candidate "operation_run_id" = mergedId fields payload.fields "operation_run_id" := by
  rw [normalizeLegacy_eq, hdict] at h
  simp only [bind, Except.bind, List.foldlM_cons, List.foldlM_nil] at h
  cases hitem : normalizeKey r (fields, payload) "item_id" with
  | error e => simp [hitem] at h
  | ok first =>
    obtain ⟨fields', payload'⟩ := first
    rw [hitem] at h
    dsimp only at h
    obtain ⟨rfl, hkept, hmerged⟩ := normalizeKey_ok hitem
    cases hrun : normalizeKey r (fields', { payload with fields := popField payload.fields "item_id" })
      "operation_run_id" with
    | error e => simp [hrun] at h
    | ok second =>
      obtain ⟨fields'', payload''⟩ := second
      rw [hrun] at h
      obtain ⟨rfl, rfl⟩ := Prod.mk.inj (Except.ok.inj h)
      obtain ⟨rfl, hkept', hmerged'⟩ := normalizeKey_ok hrun
      refine ⟨rfl, fun key hitem hrun => (hkept' key hrun).trans (hkept key hitem), ?_, ?_⟩
      · rw [getField, hkept' "item_id" (by decide)]
        exact hmerged
      · have hsame : getField fields' "operation_run_id" = getField fields "operation_run_id" := by
          rw [getField, hkept "operation_run_id" (by decide), getField]
        rw [hmerged', mergedId, mergedId, getField_popField (by decide), hsame]

/-- What the normalisation leaves of the payload is well formed. -/
theorem wellFormed_normalizeLegacy {fields candidate : Params} {payload : LegacyPayload}
    (h : normalizeLegacy r fields = .ok (candidate, payload)) (hfields : Json.WellFormedFields fields) :
    Json.WellFormedFields payload.fields := by
  rcases payloadDict_cases r fields with ⟨-, dict, hdict⟩ | ⟨-, exception, hdict⟩
  · have hpopped : Json.WellFormedFields (withoutLegacy dict).fields :=
      wellFormed_popField (wellFormed_popField (wellFormed_payloadDict hdict hfields) _) _
    rw [(normalizeLegacy_ok hdict h).1, normalizeDuration]
    split
    · rename_i value _ hseconds _
      have hkeys : ["value", "unit", "meaning"].Nodup := by decide
      exact wellFormed_setField (wellFormed_popField hpopped _) _
        ⟨hkeys, wellFormed_of_lookup hpopped hseconds, trivial, trivial, trivial⟩
    · exact hpopped
  · rw [normalizeLegacy_crashed hdict] at h
    cases h

/-- An accepted event has the registered version. -/
theorem parses_version {fields candidate : Params} {event : ParsedEvent} {name : String}
    {payloadModel : PayloadModel} {payload : LegacyPayload}
    (h : Parses r fields event name payloadModel candidate payload) :
    event.incoming.event.schemaVersion = "1.0" := by
  have hlookup : candidate.lookup "schema_version" = some (.str "1.0") := by
    rcases payloadDict_cases r fields with ⟨-, dict, hdict⟩ | ⟨-, exception, hdict⟩
    · rw [(normalizeLegacy_ok hdict h.normalized).2.1 _ (by decide) (by decide)]
      exact getField_text.mp h.version
    · have hnormalized := h.normalized
      rw [normalizeLegacy_crashed hdict] at hnormalized
      cases hnormalized
  have henvelope := h.envelope
  simp only [TraceQ.envelope, Option.bind_eq_bind, Option.bind_eq_some_iff] at henvelope
  obtain ⟨_, -, _, -, _, -, version, hversion, _, -, _, -, _, -, _, -, hlast⟩ := henvelope
  have hone : version = "1.0" := by
    rw [required, lookup_setField (by decide), hlookup] at hversion
    exact (Option.some.inj hversion).symm
  split at hlast
  · split at hlast
    · rw [← Option.some.inj hlast]
      exact hone
    · cases hlast
  · cases hlast

/-! ### The canonical form again -/

theorem canonicalFieldsOf_keys (event : ParsedEvent) : (canonicalFieldsOf w event).map (·.1) = envelopeKeys := rfl

theorem canonicalFieldsOf_nodup (event : ParsedEvent) : ((canonicalFieldsOf w event).map (·.1)).Nodup := by
  rw [canonicalFieldsOf_keys]
  decide

theorem source_dump_wellFormed (source : SourceRef) : (Json.obj source.dump).WellFormed := by
  have hkeys : ["source_id", "source_type", "sequence"].Nodup := by decide
  obtain ⟨sourceId, sourceType, sequence⟩ := source
  cases sequence with
  | none => exact ⟨hkeys, trivial, trivial, trivial, trivial⟩
  | some n => exact ⟨hkeys, trivial, trivial, trivial, trivial⟩

theorem dumpText_wellFormed (text : Option String) : (dumpOption .str text).WellFormed := by
  cases text with
  | none => trivial
  | some text => trivial

theorem keys_nodup {name : String} {payloadModel : PayloadModel}
    (h : payloadModels.lookup name = some payloadModel) : payloadModel.keys.Nodup := by
  have hmem := mem_of_lookup h
  simp only [payloadModels, List.mem_cons, Prod.mk.injEq, List.not_mem_nil, or_false] at hmem
  rcases hmem with ⟨-, rfl⟩ | ⟨-, rfl⟩ | ⟨-, rfl⟩ | ⟨-, rfl⟩ | ⟨-, rfl⟩ | ⟨-, rfl⟩ | ⟨-, rfl⟩
  all_goals
    dsimp only
    decide

theorem keys_not_legacy {name : String} {payloadModel : PayloadModel}
    (h : payloadModels.lookup name = some payloadModel) :
    ∀ key ∈ ["item_id", "operation_run_id", "duration_seconds"], key ∉ payloadModel.keys := by
  have hmem := mem_of_lookup h
  simp only [payloadModels, List.mem_cons, Prod.mk.injEq, List.not_mem_nil, or_false] at hmem
  rcases hmem with ⟨-, rfl⟩ | ⟨-, rfl⟩ | ⟨-, rfl⟩ | ⟨-, rfl⟩ | ⟨-, rfl⟩ | ⟨-, rfl⟩ | ⟨-, rfl⟩
  all_goals
    dsimp only
    decide

theorem payloadDict_obj {fields inner : Params} (h : getField fields "payload" = .obj inner) :
    payloadDict r fields = .ok { fields := inner } := by
  rw [payloadDict, h]
  cases inner with
  | nil => rfl
  | cons field rest => rfl

include hback in
/-- The canonical form of an accepted event is accepted as the event with sorted free-form parts. -/
theorem parseEvent_canonical {fields : Params} {event : ParsedEvent} (h : parseEvent r (.obj fields) = .ok event) :
    parseEvent r (canonicalEventDict w event).canonical = .ok (sortedEvent event) ∧
      (Json.WellFormedFields fields → (canonicalEventDict w event).WellFormed) := by
  obtain ⟨name, payloadModel, candidate, payload, hparse⟩ := parseEvent_ok.mp h
  obtain ⟨htype, hkeys⟩ := dump_keys hparse.modelled hparse.read (w := w) event.period
  have hnodup : ((event.incoming.event.payload.dump w event.period).map (·.1)).Nodup := by
    rw [hkeys]
    exact keys_nodup hparse.modelled
  have hlookup := lookup_canonicalParams hnodup
  have hsame : ∀ key, (canonicalParams (event.incoming.event.payload.dump w event.period)).lookup key =
      ((event.incoming.event.payload.dump w (periodOf r event.incoming.event.payload payload.fields)).lookup
        key).map Json.canonical := by
    intro key
    rw [hlookup key, hparse.period]
  obtain ⟨hread, hperiod, hformed⟩ := read_restores hback hparse.modelled hparse.read hsame
  have henvelope := lookup_canonicalParams (canonicalFieldsOf_nodup (w := w) event)
  have hgiven : ∀ key value, (canonicalFieldsOf w event).lookup key = some value →
      getField (canonicalParams (canonicalFieldsOf w event)) key = value.canonical := by
    intro key value hvalue
    rw [getField, henvelope, hvalue]
    rfl
  have hpayload : getField (canonicalParams (canonicalFieldsOf w event)) "payload" =
      .obj (canonicalParams (event.incoming.event.payload.dump w event.period)) :=
    hgiven "payload" (.obj (event.incoming.event.payload.dump w event.period)) rfl
  have hdict := payloadDict_obj (r := r) hpayload
  have hlegacy : NoLegacyKeys r (canonicalParams (canonicalFieldsOf w event)) := by
    intro payload' hpayload' key hkey
    obtain rfl := Except.ok.inj (hdict.symm.trans hpayload')
    rw [hlookup key, Option.map_eq_none_iff, List.lookup_eq_none_iff]
    intro field hfield
    have hne : key ≠ field.1 := by
      rintro rfl
      exact keys_not_legacy hparse.modelled _ hkey (hkeys ▸ List.mem_map_of_mem hfield)
    simpa using hne
  have hsorted : (canonicalEventDict w event).canonical = .obj (canonicalParams (canonicalFieldsOf w event)) := rfl
  constructor
  · rw [hsorted]
    refine parseEvent_ok.mpr ⟨name, payloadModel, _, _, ?_, hparse.modelled, ?_,
      normalizeLegacy_of_none hlegacy hdict, rfl, ?_, hread, ?_, hparse.period.trans hperiod.symm⟩
    · rw [hgiven "event_type" _ rfl, ← htype]
      rfl
    · rw [hgiven "schema_version" _ rfl, parses_version hparse]
      rfl
    · rw [← hkeys]
      exact onlyKeys_canonicalParams (onlyKeys_self _)
    · refine envelope_restores hback hparse.envelope ?_ ?_
      · rw [onlyKeys_setField (by decide)]
        exact onlyKeys_canonicalParams (canonicalFieldsOf_keys (w := w) event ▸ onlyKeys_self _)
      · intro key hkey
        rw [lookup_setField hkey]
        exact henvelope key
  · intro hfields
    have hdump := hformed (wellFormed_normalizeLegacy hparse.normalized hfields)
    rw [← hparse.period] at hdump
    exact ⟨canonicalFieldsOf_nodup event, trivial, trivial, trivial, trivial,
      source_dump_wellFormed event.incoming.event.source, dumpText_wellFormed _, dumpText_wellFormed _,
      ⟨hnodup, hdump⟩, trivial⟩

end Canonical

end TraceQ.Properties
