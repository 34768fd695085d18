import TraceQ.Properties.RepeatedDeliveries

/-! # When a valid event is accepted

An authenticated, valid and new event of the right scope is stored with its attempt, its place in the
chain and the mark on its item. The exception is an item without a `ProjectionState` row: the row the
call creates has no `latest_raw_ingest_seq` to compare with before it is flushed.
-/
namespace TraceQ.Properties
open Projections Ingestion Security Tables
set_option autoImplicit false
set_option maxHeartbeats 250000

/-- What the commit of an accepted event leaves. -/
structure CommitsEvent (s s' : Store) (source : EventSource) (event : EventEnvelope) : Prop where
  raw : ∃ raw, raw.event = event ∧ s'.db.rawEvents = s.db.rawEvents ++ [raw] ∧
    s'.db.rawEvents.filter (fun raw => decide (raw.eventId = event.eventId)) = [raw]
  attempt : s'.attempts = s.attempts ++ [eventAttempt source event .accepted]
  chain : ∃ row, row.raw.event = event ∧ s'.sealed = s.sealed ++ [row] ∧
    (∃ stream ∈ s'.db.integrityStreamStates, stream.streamId = streamIdOf event) ∧
    (streamHead s' (streamIdOf event)).lastSeq = (streamHead s (streamIdOf event)).lastSeq + 1 ∧
    (streamHead s' (streamIdOf event)).lastMac = row.integrityMac
  item : ∀ itemId, event.itemId = some itemId → itemId ≠ "" →
    ∃ state ∈ s'.db.projectionStates, state.itemId = itemId ∧ state.status = .stale ∧
      s.db.nextIngestSeq ≤ state.latestRawIngestSeq

/-- The call answers `accepted` and commits the event. -/
def Accepts (g : Gateway) (s : Store) (call : IngestCall) (source : EventSource)
    (event : EventEnvelope) : Prop :=
  (∃ answer, (ingestCall g s call).2 = .ok answer ∧ answer.result.ingestionStatus = .accepted) ∧
    CommitsEvent s (ingestCall g s call).1 source event

/-! ## The rows of the database -/

/-- A row that is stale stays as it is when items are marked stale. -/
theorem stale_markStale {db : Database} {state : ProjectionState} (affected : List String)
    (hstate : state ∈ db.projectionStates) (hstale : state.status = .stale) :
    state ∈ (affected.foldl markStale db).projectionStates := by
  induction affected generalizing db with
  | nil => exact hstate
  | cons itemId rest ih =>
    refine ih (mem_modifyWhere.mpr ⟨state, hstate, ?_⟩)
    split
    · rw [← hstale]
    · rfl

theorem stale_recordInvalidation {db : Database} {state : ProjectionState} (event : EventEnvelope)
    (hstate : state ∈ db.projectionStates) (hstale : state.status = .stale) :
    state ∈ (recordInvalidation db event).1.projectionStates := by
  cases hpayload : event.payload with
  | controlDeviceInvalidated payload =>
    simp only [recordInvalidation, hpayload]
    apply stale_markStale
    · exact hstate
    · exact hstale
  | _ =>
    simp only [recordInvalidation, hpayload]
    exact hstate

/-- The row `markIngested` writes. -/
def markedState (ingestSeq : ℕ) (state : ProjectionState) : ProjectionState :=
  { state with latestRawIngestSeq := max state.latestRawIngestSeq ingestSeq, status := .stale }

/-- A marked item has a stale row that is as new as the event. -/
theorem markIngested_item {db marked : Database} {event : EventEnvelope} {ingestSeq : ℕ}
    (h : markIngested db event ingestSeq = .ok marked) {itemId : String}
    (hitem : event.itemId = some itemId) (hne : itemId ≠ "") :
    ∃ state ∈ marked.projectionStates, state.itemId = itemId ∧ state.status = .stale ∧
      ingestSeq ≤ state.latestRawIngestSeq := by
  simp only [markIngested, hitem, String.isEmpty_iff, hne, if_false] at h
  split at h
  · cases h
  · obtain rfl := Except.ok.inj h
    have hwritten : ∃ old : ProjectionState, old.itemId = itemId ∧
        markedState ingestSeq old ∈
          upsert (·.itemId) itemId { itemId := itemId } (markedState ingestSeq) db.projectionStates := by
      apply exists_mem_upsert
      rfl
    obtain ⟨old, hold, hmem⟩ := hwritten
    exact ⟨_, hmem, hold, rfl, le_max_right _ _⟩

/-! ## The accepted event -/

section Accepted
variable {g : Gateway} {s : Store} {call : IngestCall} {source : EventSource} {incoming : IncomingEvent}

/-- The recorded event in the tables of events and streams. -/
theorem recorded_tables {db marked : Database} {event : EventEnvelope} {receivedAt : Instant}
    {ingestSeq : ℕ} (h : markIngested (appendRaw db event receivedAt) event ingestSeq = .ok marked) :
    (recordInvalidation marked event).1.rawEvents = (appendRaw db event receivedAt).rawEvents ∧
      (recordInvalidation marked event).1.integrityStreamStates =
        (appendRaw db event receivedAt).integrityStreamStates := by
  obtain ⟨states, rfl⟩ := markIngested_ok h
  obtain ⟨states', hrecorded⟩ := recordInvalidation_eq
    { appendRaw db event receivedAt with projectionStates := states } event
  rw [hrecorded]
  exact ⟨rfl, rfl⟩

/-- The stored row of a new event is the only one with its id. -/
theorem filter_eventId {db : Database} {event : EventEnvelope} {raw : RawEvent} (hraw : raw.event = event)
    (hnew : findRawEvent db event.eventId = none) :
    (db.rawEvents ++ [raw]).filter (fun raw => decide (raw.eventId = event.eventId)) = [raw] := by
  have hold : db.rawEvents.filter (fun raw => decide (raw.eventId = event.eventId)) = [] := by
    rw [List.filter_eq_nil_iff]
    exact List.find?_eq_none.mp hnew
  have hid : raw.eventId = event.eventId := by rw [← hraw]
  rw [List.filter_append, hold, List.nil_append]
  simp [hid]

/-- The row of the event's stream before the call, or a new one. -/
def oldStream (s : Store) (event : EventEnvelope) : IntegrityStreamState :=
  (s.db.integrityStreamStates.find? fun stream => decide (stream.streamId = streamIdOf event)).getD
    { streamId := streamIdOf event }

theorem streamHead_old (s : Store) (event : EventEnvelope) :
    (streamHead s (streamIdOf event)).lastSeq = (oldStream s event).lastSeq := by
  rw [streamHead, oldStream]
  cases s.db.integrityStreamStates.find? fun stream => decide (stream.streamId = streamIdOf event) with
  | none => rfl
  | some stream => rfl

theorem acceptedStore_commits (hnew : findRawEvent s.db incoming.event.eventId = none)
    {marked : Database} (hmarked : markIngested (appendRaw s.db incoming.event call.now) incoming.event
      s.db.nextIngestSeq = .ok marked) :
    CommitsEvent s (acceptedStore g s source incoming call
      (recordInvalidation marked incoming.event).1) source incoming.event := by
  obtain ⟨hraws, hstreams⟩ := recorded_tables hmarked
  have hfound : (recordInvalidation marked incoming.event).1.integrityStreamStates.find?
      (fun stream => decide (stream.streamId = streamIdOf incoming.event)) = some
        { oldStream s incoming.event with lastSeq := (oldStream s incoming.event).lastSeq + 1 } := by
    have hupsert : (upsert (·.streamId) (streamIdOf incoming.event)
        ({ streamId := streamIdOf incoming.event } : IntegrityStreamState)
        (fun stream => { stream with lastSeq := stream.lastSeq + 1 }) s.db.integrityStreamStates).find?
          (fun stream => decide (stream.streamId = streamIdOf incoming.event)) =
        some { oldStream s incoming.event with lastSeq := (oldStream s incoming.event).lastSeq + 1 } := by
      apply find?_upsert_self
      · rfl
      · exact fun _ => rfl
    rw [hstreams]
    exact hupsert
  refine ⟨⟨_, rfl, hraws, ?_⟩, rfl, ⟨_, rfl, rfl, ?_, ?_, ?_⟩, ?_⟩
  · show (recordInvalidation marked incoming.event).1.rawEvents.filter _ = _
    rw [hraws]
    exact filter_eventId rfl hnew
  · exact ⟨_, List.mem_of_find?_eq_some hfound, by simpa using List.find?_some hfound⟩
  · rw [streamHead_old s]
    simp only [streamHead, acceptedStore, hfound]
  · have hid : (oldStream s incoming.event).streamId = streamIdOf incoming.event := by
      simpa using List.find?_some hfound
    simp only [streamHead, acceptedStore, hfound, hid, Function.update_self]
  · intro itemId hitem hne
    obtain ⟨state, hstate, hid, hstale, hseq⟩ := markIngested_item hmarked hitem hne
    exact ⟨state, stale_recordInvalidation incoming.event hstate hstale, hid, hstale, hseq⟩

/-- The commit, seen from before the authentication. -/
theorem CommitsEvent.before {s' s'' : Store} {event : EventEnvelope} {nonces : List TransportNonce}
    {alerts : List SecurityAlert} (hs : s' = { s with nonces := nonces, alerts := alerts })
    (h : CommitsEvent s' s'' source event) : CommitsEvent s s'' source event := by
  subst hs
  exact ⟨h.raw, h.attempt, h.chain, h.item⟩

/-! ## Every call -/

/-- An authenticated, valid and new event inside the scope of its source is accepted and stored exactly
when its place in the stream is free and its item, if it has one, has a `ProjectionState` row. -/
theorem acceptance_iff (hauth : (authenticateSource g s call).2 = .ok source)
    (hvalid : validateEvent g.reading call.value = .ok incoming)
    (hscope : checkScope source incoming.event = .ok ()) (hnames : namesFit incoming.event = true)
    (hrow : rowFits incoming.event = true) (hnew : findRawEvent s.db incoming.event.eventId = none) :
    Accepts g s call source incoming.event ↔ placeTaken s incoming.event = false ∧
      ∀ itemId, incoming.event.itemId = some itemId → itemId ≠ "" →
        (findState s.db itemId).isSome = true := by
  have hstore := (authenticateSource_congr (g := g) (Alike.refl s) (nonceAlike_refl s call)).1.left
  have halike := authenticateSource_alike g s call
  have hadmission : admission g source call.value = .ok incoming := by
    have hchecked : admission g source call.value =
        (do checkScope source incoming.event; return incoming) := by
      simp only [admission, hvalid]
      rfl
    rw [hchecked, hscope]
    rfl
  generalize hs' : (authenticateSource g s call).1 = s' at hstore halike
  have hcall : ingestCall g s call = appendEvent g s' source incoming call := by
    have hnew' : findRawEvent s'.db incoming.event.eventId = none := by rw [halike.db, hnew]
    simp only [ingestCall, hauth, hadmission, hs', ingestAdmitted, hnames, hnew']
    rfl
  have htaken : placeTaken s' incoming.event = placeTaken s incoming.event := by
    rw [placeTaken, placeTaken, streamHead_congr halike, halike.db]
  have hmark : (∃ marked, markIngested (appendRaw s'.db incoming.event call.now) incoming.event
      s'.db.nextIngestSeq = .ok marked) ↔ ∀ itemId, incoming.event.itemId = some itemId →
        itemId ≠ "" → (findState s.db itemId).isSome = true := by
    rw [halike.db, markIngested_isOk]
    rfl
  rw [Accepts, hcall]
  rcases appendEvent_cases g s' source incoming call with
    ⟨exception, hcrash, -, hcause⟩ | ⟨marked, -, hfree, hmarked, happended⟩
  · constructor
    · rintro ⟨⟨answer, hanswer, -⟩, -⟩
      rw [hcrash] at hanswer
      cases hanswer
    · rintro ⟨hfree, hitem⟩
      obtain ⟨marked, hmarked⟩ := hmark.mpr hitem
      rcases hcause with hfits | hplace | ⟨e, he⟩
      · rw [hrow] at hfits
        cases hfits
      · rw [htaken, hfree] at hplace
        cases hplace
      · rw [hmarked] at he
        cases he
  · constructor
    · intro _
      exact ⟨htaken.symm.trans hfree, hmark.mp ⟨marked, hmarked⟩⟩
    · intro _
      rw [happended]
      have hnew' : findRawEvent s'.db incoming.event.eventId = none := by rw [halike.db, hnew]
      exact ⟨⟨_, rfl, rfl⟩, (acceptedStore_commits hnew' hmarked).before hstore⟩

end Accepted

/-! ### An item with a row and one without -/

def tokenSource : EventSource where
  sourceId := "plc-1"
  sourceType := "plc"
  tokenHash := some "2bb80d537b1da3e38bd30361aa855686bde0eacd7162fef6a25fe97bf527a25b"
  allowedEventTypes := ["machine.state"]

def tokenCall (itemId : Json) : IngestCall where
  value := .obj
    [("event_id", .str "e-1"), ("event_type", .str "machine.state"), ("schema_version", .str "1.0"),
      ("occurred_at", .int 10),
      ("source", .obj [("source_id", .str "plc-1"), ("source_type", .str "plc")]), ("item_id", itemId),
      ("payload", .obj [("equipment_id", .str "press-1"), ("state", .str "running")])]
  headerSourceId := some "plc-1"
  sourceToken := some "secret"
  now := 21000000
  aesNonce := [1, 2, 3]

theorem press_run : (Payload.machineState { equipmentId := "press-1", state := "running" }).needsRun = true →
    truthy none = true := by simp [Payload.needsRun]

def readEvent (itemId : Option String) : IncomingEvent where
  event :=
    { eventId := "e-1"
      occurredAt := 10000000
      source := { sourceId := "plc-1", sourceType := "plc" }
      itemId := itemId
      payload := .machineState { equipmentId := "press-1", state := "running" }
      item_required := by simp [Payload.needsItem]
      run_required := press_run }
  occurredAt := ⟨10000000, some 0⟩
  same_instant := rfl

/-- The item was rebuilt before its first event. -/
def rebuiltStore : Store := { db := rebuildOrMark {} "item-1", sources := [tokenSource] }

theorem acceptance_iff_rebuilt_item : Accepts plainGateway rebuiltStore (tokenCall (.str "item-1")) tokenSource
    (readEvent (some "item-1")).event := by
  have hvalid : validateEvent plainGateway.reading (tokenCall (.str "item-1")).value =
      .ok (readEvent (some "item-1")) := by rfl
  refine (acceptance_iff (by rfl) hvalid (by rfl) (by decide +kernel) (by decide +kernel)
    (by decide +kernel)).mpr ⟨by decide +kernel, ?_⟩
  intro itemId hitem _
  obtain rfl : "item-1" = itemId := Option.some.inj hitem
  decide +kernel

/-- The first event of an item that no rebuild has seen crashes and is not stored. -/
theorem first_event_crashes : ¬ ∀ (g : Gateway) (s : Store) (call : IngestCall) (source : EventSource)
    (incoming : IncomingEvent), (authenticateSource g s call).2 = .ok source →
    validateEvent g.reading call.value = .ok incoming → checkScope source incoming.event = .ok () →
    namesFit incoming.event = true → rowFits incoming.event = true →
    findRawEvent s.db incoming.event.eventId = none → Accepts g s call source incoming.event := by
  intro h
  obtain ⟨⟨answer, hanswer, -⟩, -⟩ := h plainGateway { sources := [tokenSource] }
    (tokenCall (.str "item-1")) tokenSource (readEvent (some "item-1")) (by rfl) (by rfl) (by rfl)
    (by decide +kernel) (by decide +kernel) (by decide +kernel)
  have hcrash : (ingestCall plainGateway { sources := [tokenSource] } (tokenCall (.str "item-1"))).2 =
      .error (.crashed .typeError) := by rfl
  rw [hcrash] at hanswer
  cases hanswer

end TraceQ.Properties
