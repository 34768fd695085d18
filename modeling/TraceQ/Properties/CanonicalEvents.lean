import TraceQ.Properties.CanonicalForm
import TraceQ.Properties.Spellings

/-! # The canonical form is a fixed point

The canonical form of an event is accepted again and has the same canonical bytes, and an event in the old
spelling has those of the event with its ids in the envelope.
-/
namespace TraceQ.Properties
open Projections Security Tables
set_option autoImplicit false
set_option maxHeartbeats 250000

/-! ## Hashes -/

theorem parseEvent_fields {r : Reading} {value : Json} {event : ParsedEvent} (h : parseEvent r value = .ok event) :
    ∃ fields, value = .obj fields := by
  cases value with
  | obj fields => exact ⟨fields, rfl⟩
  | _ => cases h

theorem contentHashOf_ok {r : Reading} {w : Writing} {sha256Hex : Bytes → String} {value : Json} {hash : String} :
    contentHashOf w r sha256Hex value = .ok hash ↔
      ∃ event, parseEvent r value = .ok event ∧ sha256Hex (plaintextOf w event) = hash := by
  rw [contentHashOf]
  cases parseEvent r value with
  | error raised => exact ⟨nofun, fun ⟨_, h, _⟩ => nomatch h⟩
  | ok event =>
    constructor
    · intro h
      exact ⟨event, rfl, Except.ok.inj h⟩
    · rintro ⟨_, hsame, rfl⟩
      rw [← Except.ok.inj hsame]
      rfl

/-- The canonical form of every accepted value is accepted again with the same canonical bytes and hash, and
the old spelling of an event has the hash of its envelope spelling. -/
theorem canonicalisation_retracts {r : Reading} {w : Writing} (hback : ReadsBack r w) (sha256Hex : Bytes → String) :
    (∀ (value : Json) (event : ParsedEvent), value.WellFormed → parseEvent r value = .ok event →
      ∃ loaded again, loads id (plaintextOf w event) = some loaded ∧ parseEvent r loaded = .ok again ∧
        plaintextOf w again = plaintextOf w event ∧
        contentHashOf w r sha256Hex loaded = contentHashOf w r sha256Hex value) ∧
    ∀ (s : Spelling) (legacy envelope : Json), s.Legacy legacy → s.Envelope envelope → legacy.WellFormed →
      envelope.WellFormed → ∀ hash, contentHashOf w r sha256Hex legacy = .ok hash ↔
        contentHashOf w r sha256Hex envelope = .ok hash := by
  constructor
  · intro value event hvalue h
    obtain ⟨fields, rfl⟩ := parseEvent_fields h
    obtain ⟨hagain, hformed⟩ := parseEvent_canonical hback h
    have hwritten := (canonicalEventDict w event).canonical_wellFormed (hformed hvalue.2)
    have hbytes : plaintextOf w (sortedEvent event) = plaintextOf w event := by
      rw [plaintextOf, plaintextOf, canonicalJsonBytes, canonicalJsonBytes, canonicalEventDict_sorted]
    refine ⟨_, _, loads_dumps hwritten, hagain, hbytes, ?_⟩
    have hhash : contentHashOf w r sha256Hex (.obj fields) = .ok (sha256Hex (plaintextOf w event)) :=
      contentHashOf_ok.mpr ⟨event, h, rfl⟩
    exact (contentHashOf_ok.mpr ⟨_, hagain, congrArg sha256Hex hbytes⟩).trans hhash.symm
  · intro s legacy envelope hlegacy henvelope hformed hformed' hash
    rw [contentHashOf_ok, contentHashOf_ok]
    exact exists_congr fun event =>
      and_congr_left fun _ => spellings_parse_alike hlegacy henvelope hformed hformed' event

/-! ### A finished operation -/

/-- Reads one timestamp with an offset, and ninety seconds. -/
def offsetReading : Reading where
  decimal _ := 90
  readInt
    | .int value => some value
    | _ => none
  readFloat value := if value = .int 90 ∨ value = .decimal "90.0" then some 90 else none
  readDatetime value := if value = .str "2026-05-04T13:00:00+03:00"
    then some ⟨1777899600000000, some 10800000000⟩ else none
  payloadDetails _ _ := ""
  envelopeDetails _ := ""

def offsetWriting : Writing where
  float _ := "90.0"
  datetime _ := "2026-05-04T13:00:00+03:00"

theorem isDecimal_ninety : Json.IsDecimal "90.0" :=
  ⟨[], ['9', '0'], ['.', '0'], [], rfl, .inl rfl, .inr ⟨⟨by simp, by simp [Char.isDigit]⟩, by simp⟩,
    .inr ⟨['0'], rfl, by simp, by simp [Char.isDigit]⟩, .inl rfl, .inl (by simp)⟩

theorem offset_readsBack : ReadsBack offsetReading offsetWriting where
  int := by
    intro value n h
    cases value <;> cases h
    rfl
  float := by
    intro value x h
    simp only [offsetReading] at h ⊢
    split at h
    · rw [if_pos (.inr rfl)]
      exact h
    · cases h
  datetime := by
    intro value d h
    simp only [offsetReading] at h ⊢
    split at h
    · exact (if_pos rfl).trans h
    · cases h
  decimal _ := isDecimal_ninety

def finishedSpelling : Spelling where
  fields :=
    [("event_id", .str "e-1"), ("event_type", .str "operation.finished"), ("schema_version", .str "1.0"),
      ("occurred_at", .str "2026-05-04T13:00:00+03:00"),
      ("source", .obj [("source_id", .str "mes-1"), ("source_type", .str "mes")])]
  payload := [("completion_status", .str "completed")]
  itemId := some (.str "item-1")
  operationRunId := some (.str "run-1")
  seconds := some (.int 90)

def finishedLegacy : Json := .obj (("payload", .obj
  [("completion_status", .str "completed"), ("item_id", .str "item-1"), ("operation_run_id", .str "run-1"),
    ("duration_seconds", .int 90)]) :: finishedSpelling.fields)

def finishedEnvelope : Json := .obj (("payload", .obj
  [("completion_status", .str "completed"), ("duration", activeSeconds (.int 90))]) ::
    (finishedSpelling.fields ++ [("item_id", .str "item-1"), ("operation_run_id", .str "run-1")]))

/-- The canonical form of the event. -/
def finishedText : String :=
  "\x7b\"event_id\":\"e-1\",\"event_type\":\"operation.finished\",\"item_id\":\"item-1\"," ++
    "\"occurred_at\":\"2026-05-04T13:00:00+03:00\",\"operation_run_id\":\"run-1\"," ++
    "\"payload\":\x7b\"completion_status\":\"completed\"," ++
    "\"duration\":\x7b\"meaning\":\"active_processing\",\"unit\":\"s\",\"value\":90.0\x7d," ++
    "\"parameters\":null,\"stop_reason\":null\x7d,\"schema_version\":\"1.0\"," ++
    "\"source\":\x7b\"sequence\":null,\"source_id\":\"mes-1\",\"source_type\":\"mes\"\x7d\x7d"

/-- SHA-256 of this text. -/
def finishedSha (bytes : Bytes) : String := if bytes = utf8 finishedText
  then "eab6aa6871455de63d595ccbf5a34d3f40d74ea4650bbc50d2307bd817d44ef8" else ""

theorem finished_parses : ∃ event, parseEvent offsetReading finishedLegacy = .ok event ∧
    plaintextOf offsetWriting event = utf8 finishedText := by
  have hparsed : (parseEvent offsetReading finishedLegacy).toOption.map (plaintextOf offsetWriting) =
      some (utf8 finishedText) := by decide +kernel
  obtain ⟨event, hevent, hbytes⟩ := Option.map_eq_some_iff.mp hparsed
  refine ⟨event, ?_, hbytes⟩
  cases hresult : parseEvent offsetReading finishedLegacy with
  | error raised =>
    rw [hresult] at hevent
    cases hevent
  | ok found =>
    rw [hresult] at hevent
    rw [Option.some.inj hevent]

theorem canonicalisation_retracts_finished : ∃ event loaded,
    parseEvent offsetReading finishedLegacy = .ok event ∧
    loads id (plaintextOf offsetWriting event) = some loaded ∧
    contentHashOf offsetWriting offsetReading finishedSha loaded =
      .ok "eab6aa6871455de63d595ccbf5a34d3f40d74ea4650bbc50d2307bd817d44ef8" ∧
    contentHashOf offsetWriting offsetReading finishedSha finishedEnvelope =
      .ok "eab6aa6871455de63d595ccbf5a34d3f40d74ea4650bbc50d2307bd817d44ef8" := by
  obtain ⟨event, hevent, hbytes⟩ := finished_parses
  have hhash : contentHashOf offsetWriting offsetReading finishedSha finishedLegacy =
      .ok "eab6aa6871455de63d595ccbf5a34d3f40d74ea4650bbc50d2307bd817d44ef8" :=
    contentHashOf_ok.mpr ⟨event, hevent, by rw [hbytes, finishedSha, if_pos rfl]⟩
  have hlegacy : finishedLegacy.WellFormed :=
    ⟨by decide, ⟨by decide, trivial, trivial, trivial, trivial, trivial⟩, trivial, trivial, trivial, trivial,
      ⟨by decide, trivial, trivial, trivial⟩, trivial⟩
  have henvelope : finishedEnvelope.WellFormed :=
    ⟨by decide, ⟨by decide, trivial, ⟨by decide, trivial, trivial, trivial, trivial⟩, trivial⟩, trivial, trivial,
      trivial, trivial, ⟨by decide, trivial, trivial, trivial⟩, trivial, trivial, trivial⟩
  obtain ⟨hfixed, hspelled⟩ := canonicalisation_retracts offset_readsBack finishedSha
  obtain ⟨loaded, again, hloaded, -, -, hsame⟩ := hfixed finishedLegacy event hlegacy hevent
  exact ⟨event, loaded, hevent, hloaded, hsame.trans hhash,
    (hspelled finishedSpelling finishedLegacy finishedEnvelope ⟨_, _, rfl, List.Perm.refl _, List.Perm.refl _⟩
      ⟨_, _, rfl, List.Perm.refl _, List.Perm.refl _⟩ hlegacy henvelope _).mp hhash⟩

end TraceQ.Properties
