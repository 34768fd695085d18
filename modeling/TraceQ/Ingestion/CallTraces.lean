import TraceQ.Backend.Effects
import TraceQ.Ingestion.CallMeaning

/-! # What a delivery writes down

The rows of `ingest_attempts`, `security_alerts` and `raw_events` that one call adds, and what it leaves of
the sources, by how the call ends.
-/
namespace TraceQ.Ingestion
open Projections Security Tables
set_option autoImplicit false
set_option maxHeartbeats 250000

/-! ## Statement -/

/-- What a call appends, apart from the alerts of replayed nonces, and the sources it leaves. -/
structure Adds (s s' : Store) (new : List IngestAttempt) (raised : List SecurityAlert) (stored : List RawEvent)
    (left : List EventSource) : Prop where
  attempts : s'.attempts = s.attempts ++ new
  alerts : ∃ replays, s'.alerts = s.alerts ++ replays ++ raised ∧
    ∀ alert ∈ replays, alert.alertType = .replayAttempt
  raws : s'.db.rawEvents = s.db.rawEvents ++ stored
  sources : s'.sources = left
  cases : SameCases s.db s'.db

/-- The source and the event of a call that is admitted and answered. -/
def deliveredEvent (g : Gateway) (s : Store) (call : IngestCall) : Option (EventSource × EventEnvelope) :=
  match (authenticateSource g s call).2 with
  | .error _ => none
  | .ok source =>
      match admission g source call.value with
      | .error _ => none
      | .ok incoming =>
          match (ingestCall g s call).2 with
          | .error (.crashed _) => none
          | _ => some (source, incoming.event)

/-- The call delivers the event for the source it names. -/
structure Delivers (g : Gateway) (s : Store) (call : IngestCall) (source : EventSource)
    (event : EventEnvelope) : Prop where
  header : call.headerSourceId = some source.sourceId
  found : findSource s source.sourceId = some source
  delivered : deliveredEvent g s call = some (source, event)

def repeatStatus (event : EventEnvelope) (existing : RawEvent) : AttemptStatus :=
  if existing.event.contentHash = event.contentHash then .duplicate else .conflict

def conflictAlerts (source : EventSource) (event : EventEnvelope) (existing : RawEvent) : List SecurityAlert :=
  if existing.event.contentHash = event.contentHash then []
  else [{ alertType := .eventIdConflict
          sourceId := some source.sourceId
          targetId := some event.eventId }]

def repeatAnswer (event : EventEnvelope) (existing : RawEvent) : Except Raised IngestAnswer :=
  if existing.event.contentHash = event.contentHash then
    .ok ⟨event.eventId, ⟨.duplicate, []⟩, .unchanged, event.contentHash, []⟩
  else .error (.refused eventIdConflict)

/-- How a call ends, with what it writes down. -/
inductive Delivery (g : Gateway) (s : Store) (call : IngestCall) (s' : Store) :
    Except Raised IngestAnswer → Prop where
  | crashed (exception : PyException) (hnone : deliveredEvent g s call = none)
      (hadds : Adds s s' [] [] [] s.sources) : Delivery g s call s' (.error (.crashed exception))
  | rejected (error : TraceQError) (hnone : deliveredEvent g s call = none)
      (hadds : Adds s s'
        [rejectedAttempt call.headerSourceId (claimedEventId g call.value) error]
        (rejectedAlerts call.headerSourceId (claimedEventId g call.value) error) [] s.sources) :
      Delivery g s call s' (.error (.refused error))
  | repeated (source : EventSource) (event : EventEnvelope) (existing : RawEvent)
      (hdelivers : Delivers g s call source event) (hfound : findRawEvent s.db event.eventId = some existing)
      (hadds : Adds s s' [eventAttempt source event (repeatStatus event existing)]
        (sequenceAlerts source event ++ conflictAlerts source event existing) []
        (trackSequence source event s.sources)) :
      Delivery g s call s' (repeatAnswer event existing)
  | accepted (source : EventSource) (event : EventEnvelope) (raw : RawEvent) (affected : List String)
      (hdelivers : Delivers g s call source event) (hnew : findRawEvent s.db event.eventId = none)
      (hraw : raw.event = event)
      (hadds : Adds s s' [eventAttempt source event .accepted] (sequenceAlerts source event) [raw]
        (trackSequence source event s.sources)) :
      Delivery g s call s' (.ok (acceptedAnswer event affected))

variable {g : Gateway} {s : Store} {call : IngestCall}

/-! ## Authentication -/

theorem authenticateHmac_adds (g : Gateway) (s : Store) (call : IngestCall) (source : EventSource) :
    ∃ nonces replays, (authenticateHmac g s call source).1 =
        { s with nonces := nonces, alerts := s.alerts ++ replays } ∧
      (∀ alert ∈ replays, alert.alertType = .replayAttempt) ∧
      ∀ found, (authenticateHmac g s call source).2 = .ok found → found = source := by
  have hquiet : ∃ nonces replays, s = { s with nonces := nonces, alerts := s.alerts ++ replays } ∧
      ∀ alert ∈ replays, alert.alertType = .replayAttempt := ⟨s.nonces, [], by simp, by simp⟩
  obtain ⟨nonces, replays, hs, hreplays⟩ := hquiet
  unfold authenticateHmac
  split
  · split
    · exact ⟨nonces, replays, hs, hreplays, by simp⟩
    · split
      · exact ⟨nonces, replays, hs, hreplays, by simp⟩
      · split
        · exact ⟨s.nonces, [_], rfl, by simp, by simp⟩
        · split
          · exact ⟨nonces, replays, hs, hreplays, by simp⟩
          · split
            · exact ⟨nonces, replays, hs, hreplays, by simp⟩
            · split
              · exact ⟨nonces, replays, hs, hreplays, by simp⟩
              · split
                · exact ⟨nonces, replays, hs, hreplays, by simp⟩
                · exact ⟨_, [], by rw [List.append_nil], by simp, fun found h => (Except.ok.inj h).symm⟩
  · exact ⟨nonces, replays, hs, hreplays, by simp⟩

/-- Authentication adds a nonce or the alert of a replay, and finds the source the call names. -/
theorem authenticateSource_adds (g : Gateway) (s : Store) (call : IngestCall) :
    ∃ nonces replays, (authenticateSource g s call).1 =
        { s with nonces := nonces, alerts := s.alerts ++ replays } ∧
      (∀ alert ∈ replays, alert.alertType = .replayAttempt) ∧
      ∀ source, (authenticateSource g s call).2 = .ok source →
        call.headerSourceId = some source.sourceId ∧ findSource s source.sourceId = some source := by
  have hs : s = { s with nonces := s.nonces, alerts := s.alerts ++ [] } := by simp
  unfold authenticateSource
  cases hheader : pyOr call.headerSourceId none with
  | none => exact ⟨_, [], hs, by simp, by simp⟩
  | some sourceId =>
    dsimp only
    cases hfind : findSource s sourceId with
    | none => exact ⟨_, [], hs, by simp, by simp⟩
    | some source =>
      have hid : source.sourceId = sourceId := by simpa using List.find?_some hfind
      have hnamed : call.headerSourceId = some source.sourceId ∧
          findSource s source.sourceId = some source := by
        rw [hid]
        exact ⟨pyOr_none hheader, hfind⟩
      dsimp only
      split
      · exact ⟨_, [], hs, by simp, by simp⟩
      · cases hmethod : source.authMethod with
        | hmacV1 =>
          obtain ⟨nonces, replays, hstore, hreplays, hfound⟩ := authenticateHmac_adds g s call source
          refine ⟨nonces, replays, hstore, hreplays, fun found h => ?_⟩
          rw [hfound found h]
          exact hnamed
        | sharedSecretLegacy =>
          dsimp only
          split
          · split
            · exact ⟨_, [], hs, by simp, fun found h => Except.ok.inj h ▸ hnamed⟩
            · exact ⟨_, [], hs, by simp, by simp⟩
          · exact ⟨_, [], hs, by simp, by simp⟩

/-! ## The rest of a call -/

theorem repeatEvent_answer (s : Store) (source : EventSource) (event : EventEnvelope) (existing : RawEvent) :
    (repeatEvent s source event existing).2 = repeatAnswer event existing := by
  by_cases hhash : existing.event.contentHash = event.contentHash <;> simp [repeatEvent, repeatAnswer, hhash]

section Rest
variable {nonces : List TransportNonce} {replays : List SecurityAlert} {s' : Store}
  (hs : s' = { s with nonces := nonces, alerts := s.alerts ++ replays })
  (hreplays : ∀ alert ∈ replays, alert.alertType = .replayAttempt)
include hs hreplays

theorem refuse_delivery (hnone : deliveredEvent g s call = none) (raised : Raised) :
    Delivery g s call (refuse g s' call raised).1 (refuse g s' call raised).2 := by
  subst hs
  cases raised with
  | crashed exception =>
    apply Delivery.crashed exception hnone
    exact ⟨by simp [refuse], ⟨replays, by simp [refuse], hreplays⟩, by simp [refuse], rfl,
      ⟨rfl, rfl, rfl, rfl, le_rfl⟩⟩
  | refused error =>
    simp only [refuse, recordRejectedAttempt]
    split
    · apply Delivery.rejected error hnone
      exact ⟨rfl, ⟨replays, rfl, hreplays⟩, by simp, rfl, ⟨rfl, rfl, rfl, rfl, le_rfl⟩⟩
    · apply Delivery.crashed .dataError hnone
      exact ⟨by simp, ⟨replays, by simp, hreplays⟩, by simp, rfl, ⟨rfl, rfl, rfl, rfl, le_rfl⟩⟩

theorem repeatEvent_adds (source : EventSource) (event : EventEnvelope) (existing : RawEvent) :
    Adds s (repeatEvent s' source event existing).1 [eventAttempt source event (repeatStatus event existing)]
      (sequenceAlerts source event ++ conflictAlerts source event existing) []
      (trackSequence source event s.sources) := by
  subst hs
  by_cases hhash : existing.event.contentHash = event.contentHash
  · simp only [repeatEvent, repeatStatus, conflictAlerts, hhash, if_true]
    exact ⟨rfl, ⟨replays, by simp [tracked], hreplays⟩, by simp [tracked], rfl, ⟨rfl, rfl, rfl, rfl, le_rfl⟩⟩
  · simp only [repeatEvent, repeatStatus, conflictAlerts, hhash, if_false]
    exact ⟨rfl, ⟨replays, by simp [tracked], hreplays⟩, by simp [tracked], rfl, ⟨rfl, rfl, rfl, rfl, le_rfl⟩⟩

theorem acceptedStore_adds (source : EventSource) (incoming : IncomingEvent) {marked : Database}
    (hmarked : markIngested (appendRaw s'.db incoming.event call.now) incoming.event s'.db.nextIngestSeq =
      .ok marked) :
    ∃ raw : RawEvent, raw.event = incoming.event ∧
      Adds s (acceptedStore g s' source incoming call (recordInvalidation marked incoming.event).1)
        [eventAttempt source incoming.event .accepted] (sequenceAlerts source incoming.event) [raw]
        (trackSequence source incoming.event s.sources) := by
  subst hs
  obtain ⟨states, rfl⟩ := markIngested_ok hmarked
  obtain ⟨states', hrecorded⟩ := recordInvalidation_eq
    { appendRaw s.db incoming.event call.now with projectionStates := states } incoming.event
  rw [hrecorded]
  refine ⟨_, ?_, rfl, ⟨replays, rfl, hreplays⟩, rfl, rfl, ⟨rfl, rfl, rfl, rfl, le_rfl⟩⟩
  rfl

theorem crashed_adds {s'' : Store} (hs'' : s'' = s' ∨ s'' = drawnSequence s') : Adds s s'' [] [] [] s.sources := by
  subst hs
  rcases hs'' with rfl | rfl
  · exact ⟨by simp, ⟨replays, by simp, hreplays⟩, by simp, rfl, ⟨rfl, rfl, rfl, rfl, le_rfl⟩⟩
  · exact ⟨by simp [drawnSequence], ⟨replays, by simp [drawnSequence], hreplays⟩, by simp [drawnSequence], rfl,
      ⟨rfl, rfl, rfl, rfl, le_rfl⟩⟩

theorem ingestAdmitted_delivery {source : EventSource} {incoming : IncomingEvent}
    (hcall : ingestCall g s call = ingestAdmitted g s' source incoming call)
    (hdelivers : (∀ exception, (ingestCall g s call).2 ≠ .error (.crashed exception)) →
      Delivers g s call source incoming.event)
    (hcrashed : ∀ exception, (ingestCall g s call).2 = .error (.crashed exception) →
      deliveredEvent g s call = none) :
    Delivery g s call (ingestCall g s call).1 (ingestCall g s call).2 := by
  have hdb : s'.db = s.db := by rw [hs]
  have hcrash : ∀ exception s'', ingestCall g s call = (s'', .error (.crashed exception)) →
      (s'' = s' ∨ s'' = drawnSequence s') →
      Delivery g s call (ingestCall g s call).1 (ingestCall g s call).2 := by
    intro exception s'' h hs''
    rw [h]
    exact .crashed exception (hcrashed exception (by rw [h])) (crashed_adds hs hreplays hs'')
  cases hfits : namesFit incoming.event with
  | false => exact hcrash .dataError s' (by rw [hcall]; simp [ingestAdmitted, hfits]) (.inl rfl)
  | true =>
    cases hfind : findRawEvent s.db incoming.event.eventId with
    | some existing =>
      have hrepeat : ingestCall g s call = repeatEvent s' source incoming.event existing := by
        rw [hcall]
        simp [ingestAdmitted, hfits, hdb, hfind]
      have hanswer := repeatEvent_answer s' source incoming.event existing
      rw [hrepeat] at hdelivers ⊢
      rw [hanswer] at hdelivers ⊢
      apply Delivery.repeated source incoming.event existing (hdelivers ?_) hfind
      · exact repeatEvent_adds hs hreplays source incoming.event existing
      · intro exception
        unfold repeatAnswer
        split <;> simp
    | none =>
      have happend : ingestCall g s call = appendEvent g s' source incoming call := by
        rw [hcall]
        simp [ingestAdmitted, hfits, hdb, hfind]
      rcases appendEvent_cases g s' source incoming call with
        ⟨exception, hanswer, hstore, -⟩ | ⟨marked, -, -, hmarked, haccepted⟩
      · exact hcrash exception _ (by rw [happend, ← hanswer]) hstore
      · obtain ⟨raw, hraw, hadds⟩ := acceptedStore_adds (g := g) hs hreplays source incoming hmarked
        rw [happend, haccepted] at hdelivers ⊢
        exact .accepted source incoming.event raw _ (hdelivers (by simp)) hfind hraw hadds

end Rest

theorem deliveredEvent_eq {source : EventSource} {incoming : IncomingEvent}
    (hauth : (authenticateSource g s call).2 = .ok source)
    (hadmission : admission g source call.value = .ok incoming)
    (hanswered : ∀ exception, (ingestCall g s call).2 ≠ .error (.crashed exception)) :
    deliveredEvent g s call = some (source, incoming.event) := by
  cases hanswer : (ingestCall g s call).2 with
  | ok answer => simp only [deliveredEvent, hauth, hadmission, hanswer]
  | error raised =>
    cases raised with
    | refused error => simp only [deliveredEvent, hauth, hadmission, hanswer]
    | crashed exception => exact absurd hanswer (hanswered exception)

/-- Every call ends in one of the four ways. -/
theorem ingestCall_delivery (g : Gateway) (s : Store) (call : IngestCall) :
    Delivery g s call (ingestCall g s call).1 (ingestCall g s call).2 := by
  obtain ⟨nonces, replays, hstore, hreplays, hnamed⟩ := authenticateSource_adds g s call
  cases hauth : (authenticateSource g s call).2 with
  | error raised =>
    have hcall : ingestCall g s call = refuse g (authenticateSource g s call).1 call raised := by
      simp only [ingestCall, hauth]
    rw [hcall]
    exact refuse_delivery hstore hreplays (by simp only [deliveredEvent, hauth]) raised
  | ok source =>
    obtain ⟨hheader, hfound⟩ := hnamed source hauth
    cases hadmission : admission g source call.value with
    | error raised =>
      have hcall : ingestCall g s call = refuse g (authenticateSource g s call).1 call raised := by
        simp only [ingestCall, hauth, hadmission]
      rw [hcall]
      exact refuse_delivery hstore hreplays (by simp only [deliveredEvent, hauth, hadmission]) raised
    | ok incoming =>
      have hcall : ingestCall g s call =
          ingestAdmitted g (authenticateSource g s call).1 source incoming call := by
        simp only [ingestCall, hauth, hadmission]
      have hdelivers : (∀ exception, (ingestCall g s call).2 ≠ .error (.crashed exception)) →
          Delivers g s call source incoming.event := fun hanswered =>
        ⟨hheader, hfound, deliveredEvent_eq hauth hadmission hanswered⟩
      have hcrashed : ∀ exception, (ingestCall g s call).2 = .error (.crashed exception) →
          deliveredEvent g s call = none := by
        intro exception h
        simp only [deliveredEvent, hauth, hadmission, h]
      exact ingestAdmitted_delivery hstore hreplays hcall hdelivers hcrashed

/-! ## The rebuilds behind it -/

theorem foldl_rebuildStep_keeps {db : Database} (hwf : WellFormed db) (failed targets : List String) :
    WellFormed (targets.foldl Api.rebuildStep (db, failed)).1 ∧
      (targets.foldl Api.rebuildStep (db, failed)).1.rawEvents = db.rawEvents := by
  induction targets generalizing db failed with
  | nil => exact ⟨hwf, rfl⟩
  | cons itemId rest ih =>
    rw [List.foldl_cons, Api.rebuildStep]
    cases hrebuild : rebuildItem db itemId with
    | ok rebuilt =>
      obtain ⟨hrest, hraws⟩ := ih (rebuildItem_wellFormed hwf hrebuild) failed
      exact ⟨hrest, hraws.trans (Backend.rebuildItem_rawEvents hwf hrebuild)⟩
    | error error =>
      have hmarked : SameCases db (markProjectionFailed db itemId error) := ⟨rfl, rfl, rfl, rfl, le_rfl⟩
      exact ih (hmarked.wellFormed hwf) (failed ++ [itemId])

/-- The rebuilds of the endpoint write neither attempts nor alerts nor sources, nor events unless the cases are
broken. -/
theorem receiveCall_rebuilds (g : Gateway) (s : Store) (call : IngestCall) :
    ∃ db, (receiveCall g s call).1 = { (ingestCall g s call).1 with db := db } ∧
      (WellFormed (ingestCall g s call).1.db →
        WellFormed db ∧ db.rawEvents = (ingestCall g s call).1.db.rawEvents) := by
  cases hanswer : (ingestCall g s call).2 with
  | error raised => exact ⟨_, by simp only [receiveCall, hanswer], fun hwf => ⟨hwf, rfl⟩⟩
  | ok answer =>
    cases hbody : bodyItemId g.reading call.value with
    | error raised => exact ⟨_, by simp only [receiveCall, hanswer, hbody], fun hwf => ⟨hwf, rfl⟩⟩
    | ok itemId =>
      exact ⟨_, by simp only [receiveCall, hanswer, hbody], fun hwf =>
        foldl_rebuildStep_keeps hwf [] (ownTarget answer itemId ++ answer.result.affectedItems)⟩

end TraceQ.Ingestion
