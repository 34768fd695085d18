import TraceQ.Api.StoredEvents
import TraceQ.Backend.Sources
import TraceQ.Properties.Acceptance
import TraceQ.Properties.CanonicalEvents
import TraceQ.Properties.Tampering

/-! # Stored events can be read

Replay and `get_event` rebuild the associated data that `ingest_event` encrypted under, and return the canonical
form of the event, whatever the backend has done since.
-/
namespace TraceQ.Properties
open Api Projections Ingestion Security Tables Machine
set_option autoImplicit false
set_option maxHeartbeats 250000

/-! ## What a call does to the log -/

/-- The call leaves the log alone. -/
def KeepsLog (s s' : Store) : Prop :=
  s'.sealed = s.sealed ∧ s'.db.rawEvents = s.db.rawEvents

/-- The call stores a new event behind some head. -/
def StoresEvent (g : Gateway) (s : Store) (call : IngestCall) (s' : Store) : Prop :=
  ∃ incoming head ingestSeq raw, validateEvent g.reading call.value = .ok incoming ∧
    findRawEvent s.db incoming.event.eventId = none ∧
    s'.sealed = s.sealed ++ [sealEvent g.crypto head incoming call.now ingestSeq call.aesNonce] ∧
    raw.event = incoming.event ∧ s'.db.rawEvents = s.db.rawEvents ++ [raw]

theorem keepsLog_of_alike {s s' : Store} (h : Alike s' s) : KeepsLog s s' :=
  ⟨h.sealed, congrArg Database.rawEvents h.db⟩

def isAccepted : Except Raised IngestAnswer → Bool
  | .ok answer => decide (answer.result.ingestionStatus = .accepted)
  | .error _ => false

theorem refuse_not_accepted (g : Gateway) (s : Store) (call : IngestCall) (raised : Raised) :
    isAccepted (refuse g s call raised).2 = false := by
  cases raised <;> rfl

theorem repeatEvent_not_accepted (s : Store) (source : EventSource) (event : EventEnvelope) (existing : RawEvent) :
    isAccepted (repeatEvent s source event existing).2 = false := by
  unfold repeatEvent
  dsimp only
  split <;> rfl

/-- A call stores its event if it accepts it, and otherwise leaves the log alone. -/
theorem ingestCall_log (g : Gateway) (s : Store) (call : IngestCall) :
    (isAccepted (ingestCall g s call).2 = false ∧ KeepsLog s (ingestCall g s call).1) ∨
      StoresEvent g s call (ingestCall g s call).1 := by
  obtain ⟨s', -, halike, hcases⟩ := ingestCall_cases g s call
  rcases hcases with ⟨raised, hrefused⟩ | ⟨source, incoming, -, hadmission, hcall⟩
  · rw [hrefused]
    exact .inl ⟨refuse_not_accepted g s' call raised, keepsLog_of_alike ((refuse_alike g s' call raised).trans halike)⟩
  · have hvalid : validateEvent g.reading call.value = .ok incoming := by
      cases hvalid : validateEvent g.reading call.value with
      | error raised => simp [admission, hvalid, bind, Except.bind] at hadmission
      | ok found =>
        cases hscope : checkScope source found.event with
        | error raised => simp [admission, hvalid, hscope, bind, Except.bind] at hadmission
        | ok _ =>
          simp only [admission, hvalid, hscope, bind, Except.bind, pure, Except.pure] at hadmission
          exact hadmission
    rw [hcall]
    cases hnames : namesFit incoming.event with
    | false => exact .inl (by simpa [ingestAdmitted, hnames, isAccepted] using keepsLog_of_alike halike)
    | true =>
      cases hfind : findRawEvent s'.db incoming.event.eventId with
      | some existing =>
        have hrepeat : ingestAdmitted g s' source incoming call = repeatEvent s' source incoming.event existing := by
          simp [ingestAdmitted, hnames, hfind]
        rw [hrepeat]
        exact .inl ⟨repeatEvent_not_accepted s' source incoming.event existing,
          keepsLog_of_alike ((repeatEvent_alike s' source incoming.event existing).trans halike)⟩
      | none =>
        have happend : ingestAdmitted g s' source incoming call = appendEvent g s' source incoming call := by
          simp [ingestAdmitted, hnames, hfind]
        rw [happend]
        rcases appendEvent_cases g s' source incoming call with
          ⟨exception, hcrash, hstore, -⟩ | ⟨marked, -, -, hmarked, hstored⟩
        · refine .inl ⟨by rw [hcrash]; rfl, ?_⟩
          rcases hstore with hsame | hdrawn
          · rw [hsame]
            exact keepsLog_of_alike halike
          · rw [hdrawn]
            have hraws : s'.db.rawEvents = s.db.rawEvents := congrArg Database.rawEvents halike.db
            exact ⟨halike.sealed, hraws⟩
        · obtain ⟨hraws, -⟩ := recorded_tables hmarked
          rw [hstored]
          have hsealed : s.sealed = s'.sealed := halike.sealed.symm
          have hdb : s.db = s'.db := halike.db.symm
          refine .inr ⟨incoming, streamHead s' (streamIdOf incoming.event), s'.db.nextIngestSeq,
            ⟨incoming.event, call.now, s'.db.nextIngestSeq, streamIdOf incoming.event,
              lastSeq s'.db (streamIdOf incoming.event) + 1⟩, hvalid, ?_, ?_, rfl, ?_⟩
          · rw [hdb]
            exact hfind
          · rw [hsealed]
            rfl
          · rw [hdb]
            exact hraws

/-! ## The log of every reachable store -/

/-- The sealed rows are those of the raw events, and no id stands twice. -/
structure LogMatches (s : Store) : Prop where
  ids : s.sealed.map (fun row => row.raw.eventId) = s.db.rawEvents.map fun raw => raw.eventId
  distinct : (s.sealed.map fun row => row.raw.eventId).Nodup

theorem LogMatches.keep {s s' : Store} (h : LogMatches s) (hkeep : KeepsLog s s') : LogMatches s' := by
  obtain ⟨hsealed, hraws⟩ := hkeep
  exact ⟨by rw [hsealed, hraws, h.ids], by rw [hsealed]; exact h.distinct⟩

theorem LogMatches.store {g : Gateway} {s s' : Store} {call : IngestCall} (h : LogMatches s)
    (hstores : StoresEvent g s call s') : LogMatches s' := by
  obtain ⟨incoming, head, ingestSeq, raw, -, hnew, hsealed, hraw, hraws⟩ := hstores
  have hid : raw.eventId = incoming.event.eventId := congrArg EventEnvelope.eventId hraw
  have hfresh : incoming.event.eventId ∉ s.sealed.map fun row => row.raw.eventId := by
    rw [h.ids, List.mem_map]
    rintro ⟨old, hold, hsame⟩
    have hne := List.find?_eq_none.mp hnew old hold
    simp [hsame] at hne
  constructor
  · rw [hsealed, hraws, List.map_append, List.map_append, h.ids, List.map_singleton, List.map_singleton, hid]
    rfl
  · rw [hsealed, List.map_append, List.map_singleton]
    refine List.Nodup.append h.distinct (List.nodup_singleton _) ?_
    intro id hold hsingle
    have hsame : id = incoming.event.eventId := List.mem_singleton.mp hsingle
    exact hfresh (hsame ▸ hold)

section Run
variable {aes : AesGcm} {w : Writing} {g : Gateway}

theorem logMatches_step (s : Store) (call : LogCall) (h : LogMatches s) :
    LogMatches (execLog aes w g s call).1 := by
  cases call with
  | ingest call =>
    rcases ingestCall_log (encrypting aes w g call.value) s call with ⟨-, hkeep⟩ | hstores
    · exact h.keep hkeep
    · exact h.store hstores
  | other after => exact h.keep ⟨rfl, rfl⟩

/-- What leaves the raw events alone is among the calls. -/
theorem execLog_other {s after : Store} (h : KeepsLog s after) : (execLog aes w g s (.other after)).1 = after := by
  show { after with sealed := s.sealed, db := { after.db with rawEvents := s.db.rawEvents } } = after
  rw [← h.1, ← h.2]

/-- So is every call of the backend that is not a delivery. -/
theorem execLog_backend {s : Store} (hs : Backend.Sound s.db) {call : Backend.Call}
    (hcall : ∀ event receivedAt, call ≠ .ingest event receivedAt) :
    (execLog aes w g s (.other { s with db := (Backend.exec s.db call).1 })).1 =
      { s with db := (Backend.exec s.db call).1 } :=
  execLog_other ⟨rfl, Backend.exec_rawEvents hs hcall⟩

/-- A row in the log stays there. -/
theorem sealed_kept (s : Store) (calls : List LogCall) :
    s.sealed <+: (run (execLog aes w g) s calls).sealed := by
  induction calls generalizing s with
  | nil => exact List.prefix_rfl
  | cons call rest ih =>
    refine List.IsPrefix.trans ?_ (ih _)
    cases call with
    | ingest call =>
      rcases ingestCall_log (encrypting aes w g call.value) s call with
        ⟨-, hsealed, -⟩ | ⟨incoming, head, ingestSeq, raw, -, -, hsealed, -, -⟩
      · show s.sealed <+: (ingestCall (encrypting aes w g call.value) s call).1.sealed
        rw [hsealed]
      · show s.sealed <+: (ingestCall (encrypting aes w g call.value) s call).1.sealed
        rw [hsealed]
        exact List.prefix_append _ _
    | other after => exact List.prefix_rfl

end Run

/-! ## Reading a row -/

theorem parseEvent_of_valid {r : Reading} {value : Json} {incoming : IncomingEvent}
    (h : validateEvent r value = .ok incoming) :
    ∃ event, parseEvent r value = .ok event ∧ event.incoming = incoming := by
  cases value with
  | obj fields =>
    cases hlegacy : normalizeLegacy r fields with
    | ok normalized =>
      simp only [parseEvent, h, hlegacy, bind, Except.bind, pure, Except.pure]
      exact ⟨_, rfl, rfl⟩
    | error raised =>
      exfalso
      cases htype : registeredType (getField fields "event_type") with
      | error e => simp [validateEvent, htype, bind, Except.bind] at h
      | ok found =>
        cases hversion : registeredVersion found.1 (getField fields "schema_version") with
        | error e => simp [validateEvent, htype, hversion, bind, Except.bind] at h
        | ok _ => simp [validateEvent, htype, hversion, validateFields_refused hlegacy, bind, Except.bind] at h
  | _ => cases h

section Row
variable {aes : AesGcm} {v : Vault} {w : Writing} {g : Gateway}

theorem encrypting_of_parsed {value : Json} {event : ParsedEvent} (h : parseEvent g.reading value = .ok event) :
    encrypting aes w g value =
      { g with
        crypto := { g.crypto with aesGcm := fun nonce _ aad => aes.encrypt nonce (plaintextOf w event) aad } } := by
  rw [encrypting, h]

theorem encrypting_reading (value : Json) : (encrypting aes w g value).reading = g.reading := by
  rw [encrypting]
  split <;> rfl

/-- The associated data is rebuilt from the columns, whatever offset the event had. -/
theorem storedAad_rebuilt (hupper : v.upper "CLASSIC_V2" = "CLASSIC_V2") (settings : CryptoSettings)
    (head : StreamHead) (incoming : IncomingEvent) (receivedAt : Instant) (ingestSeq : ℕ) (nonce : Bytes) :
    storedAad v (columnsOf (sealEvent settings head incoming receivedAt ingestSeq nonce)) =
      buildAad incoming.event incoming.occurredAt (fromColumn receivedAt) settings.aesKeyId :=
  storedAad_sealEvent (v := { v with crypto := settings }) hupper head incoming receivedAt ingestSeq nonce

/-- The row of an event decrypts to its canonical bytes. -/
theorem decrypt_sealed (hinverts : aes.Inverts) (hupper : v.upper "CLASSIC_V2" = "CLASSIC_V2") {value : Json}
    {event : ParsedEvent} (h : parseEvent g.reading value = .ok event) (head : StreamHead) (receivedAt : Instant)
    (ingestSeq : ℕ) (nonce : Bytes) :
    let row := sealEvent (encrypting aes w g value).crypto head event.incoming receivedAt ingestSeq nonce
    aes.decrypt row.nonce row.payloadCiphertext (storedAad v (columnsOf row)) = some (plaintextOf w event) := by
  intro row
  have haad := storedAad_rebuilt hupper (encrypting aes w g value).crypto head event.incoming receivedAt ingestSeq
    nonce
  rw [haad]
  simp only [row, encrypting_of_parsed h]
  exact hinverts nonce _ _

/-- The canonical bytes are read as the canonical form. -/
theorem loads_plaintext (hback : ReadsBack g.reading w) {value : Json} {event : ParsedEvent}
    (hvalue : value.WellFormed) (h : parseEvent g.reading value = .ok event) :
    ∃ loaded, loads id (plaintextOf w event) = some loaded ∧ loaded.value = (canonicalEventDict w event).value := by
  obtain ⟨fields, rfl⟩ := parseEvent_fields h
  have hformed := (parseEvent_canonical hback h).2 hvalue.2
  exact ⟨_, loads_dumps (Json.canonical_wellFormed _ hformed), Json.value_canonical _ hformed⟩

end Row

/-! ## Every accepted event -/

/-- A store without raw events. -/
def EmptyLog (s : Store) : Prop := s.sealed = [] ∧ s.db.rawEvents = []

theorem logMatches_empty {s : Store} (h : EmptyLog s) : LogMatches s :=
  ⟨by rw [h.1, h.2]; rfl, by rw [h.1]; exact List.nodup_nil⟩

/-- After any further run, replay and `get_event` read every accepted event as its canonical form. -/
theorem stored_events_read_back {aes : AesGcm} {v : Vault} {w : Writing} {g : Gateway} (hinverts : aes.Inverts)
    (hback : ReadsBack g.reading w) (hupper : v.upper "CLASSIC_V2" = "CLASSIC_V2") {s : Store}
    (hs : Reachable (execLog aes w g) EmptyLog s) {call : IngestCall} (hvalue : call.value.WellFormed)
    (haccepted : isAccepted (ingestCall (encrypting aes w g call.value) s call).2 = true) (later : List LogCall) :
    ∃ event row, parseEvent g.reading call.value = .ok event ∧
      row ∈ (run (execLog aes w g) s (.ingest call :: later)).sealed ∧ row.raw.event = event.incoming.event ∧
      storedAad v (columnsOf row) = buildAad event.incoming.event event.incoming.occurredAt (fromColumn call.now)
        g.crypto.aesKeyId ∧
      (∃ loaded, decryptStored aes v (columnsOf row) = .ok loaded ∧
        loaded.value = (canonicalEventDict w event).value) ∧
      ∃ view, getEvent aes v (run (execLog aes w g) s (.ingest call :: later)).sealed
          event.incoming.event.eventId = .ok view ∧ view.event.value = (canonicalEventDict w event).value := by
  have hmatches : LogMatches (run (execLog aes w g) s (.ingest call :: later)) :=
    run_invariant logMatches_step
      (reachable_invariant (fun _ => logMatches_empty) logMatches_step hs) _
  rcases ingestCall_log (encrypting aes w g call.value) s call with
    ⟨hrefused, -⟩ | ⟨incoming, head, ingestSeq, raw, hvalid, -, hsealed, -, -⟩
  · rw [haccepted] at hrefused
    cases hrefused
  · rw [encrypting_reading] at hvalid
    obtain ⟨event, hparse, rfl⟩ := parseEvent_of_valid hvalid
    have hdecrypt := decrypt_sealed (v := v) hinverts hupper (w := w) hparse head call.now ingestSeq call.aesNonce
    obtain ⟨loaded, hloaded, hcontent⟩ := loads_plaintext hback hvalue hparse
    generalize hrow : sealEvent (encrypting aes w g call.value).crypto head event.incoming call.now ingestSeq
      call.aesNonce = row at hsealed hdecrypt
    have hraw : row.raw.event = event.incoming.event := by rw [← hrow]; rfl
    have hmem : row ∈ (run (execLog aes w g) s (.ingest call :: later)).sealed := by
      refine (sealed_kept _ later).subset ?_
      show row ∈ (ingestCall (encrypting aes w g call.value) s call).1.sealed
      rw [hsealed]
      exact List.mem_append_right _ List.mem_cons_self
    have hfind : (run (execLog aes w g) s (.ingest call :: later)).sealed.find?
        (fun row => decide (row.raw.eventId = event.incoming.event.eventId)) = some row :=
      (find?_key_eq_some_iff hmatches.distinct).mpr ⟨hmem, congrArg EventEnvelope.eventId hraw⟩
    refine ⟨event, row, hparse, hmem, hraw, ?_, ⟨loaded, ?_, hcontent⟩, ?_⟩
    · rw [← hrow, storedAad_rebuilt hupper, encrypting_of_parsed hparse]
    · show decryptStored aes v (columnsOf row) = .ok loaded
      have hread : aes.decrypt (columnsOf row).nonce (columnsOf row).payloadCiphertext
          (storedAad v (columnsOf row)) = some _ := hdecrypt
      rw [decryptStored, hread]
      dsimp only
      rw [hloaded]
    · rw [getEvent, hfind]
      dsimp only
      rw [hdecrypt]
      dsimp only
      rw [hloaded]
      exact ⟨_, rfl, hcontent⟩

/-! ### A machine state with an offset -/

/-- Writes the associated data before the plaintext. -/
def prefixAes : AesGcm where
  encrypt _ plaintext aad := aad ++ plaintext
  decrypt _ ciphertext aad := if aad <+: ciphertext then some (ciphertext.drop aad.length) else none

theorem prefixAes_inverts : prefixAes.Inverts := by
  intro nonce plaintext aad
  simp [prefixAes]

def upperVault : Vault where
  crypto := plainGateway.crypto
  aesGcmOpen _ _ _ := none
  upper text := if text = "CLASSIC_V2" then "CLASSIC_V2" else text

def offsetGateway : Gateway := { plainGateway with reading := offsetReading }

def offsetCall : IngestCall where
  value := .obj
    [("event_id", .str "e-1"), ("event_type", .str "machine.state"), ("schema_version", .str "1.0"),
      ("occurred_at", .str "2026-05-04T13:00:00+03:00"),
      ("source", .obj [("source_id", .str "plc-1"), ("source_type", .str "plc")]),
      ("payload", .obj [("equipment_id", .str "press-1"), ("state", .str "running")])]
  headerSourceId := some "plc-1"
  sourceToken := some "secret"
  now := 1777888801000000
  aesNonce := [1, 2, 3]

/-- The item is rebuilt behind the delivery. -/
def offsetRebuilt : Store :=
  let ingested := (execLog prefixAes offsetWriting offsetGateway { sources := [tokenSource] } (.ingest offsetCall)).1
  { ingested with db := (Backend.exec ingested.db (.rebuild "item-1")).1 }

theorem stored_events_read_back_offset : ∃ event view,
    parseEvent offsetReading offsetCall.value = .ok event ∧
    getEvent prefixAes upperVault (run (execLog prefixAes offsetWriting offsetGateway) { sources := [tokenSource] }
      [.ingest offsetCall, .other offsetRebuilt]).sealed event.incoming.event.eventId = .ok view ∧
    view.event.value = (canonicalEventDict offsetWriting event).value := by
  have hvalue : offsetCall.value.WellFormed :=
    ⟨by decide, trivial, trivial, trivial, trivial, ⟨by decide, trivial, trivial, trivial⟩,
      ⟨by decide, trivial, trivial, trivial⟩, trivial⟩
  obtain ⟨event, row, hparse, -, -, -, -, view, hview, hcontent⟩ :=
    stored_events_read_back prefixAes_inverts (v := upperVault) (g := offsetGateway) offset_readsBack
      (by decide) (s := { sources := [tokenSource] }) ⟨_, [], ⟨rfl, rfl⟩, rfl⟩ hvalue (by decide +kernel)
      [.other offsetRebuilt]
  exact ⟨event, view, hparse, hview, hcontent⟩

end TraceQ.Properties
