import TraceQ.Ingestion.Calls
import TraceQ.Ingestion.ServiceMeaning

/-! # What a call depends on

The answer of a call and what it does to the events, the streams and the projections depend on the
sequence tracking, the attempts and the alerts of earlier calls in nothing, and on the used nonces
only through its own.
-/
namespace TraceQ.Ingestion
open Projections Security Tables Results
set_option autoImplicit false
set_option maxHeartbeats 250000

/-! ## Stores alike -/

/-- A source without its sequence tracking. -/
def EventSource.identity (source : EventSource) : EventSource :=
  { source with lastSourceSequence := none }

/-- The source with another value of the tracking. -/
def EventSource.tracking (source : EventSource) (sequence : Option ℕ) : EventSource :=
  { source with lastSourceSequence := sequence }

@[simp] theorem tracking_usable (source : EventSource) (sequence : Option ℕ) (now : Instant) :
    (source.tracking sequence).usable now = source.usable now := rfl

@[simp] theorem tracking_authMethod (source : EventSource) (sequence : Option ℕ) :
    (source.tracking sequence).authMethod = source.authMethod := rfl

@[simp] theorem tracking_tokenHash (source : EventSource) (sequence : Option ℕ) :
    (source.tracking sequence).tokenHash = source.tokenHash := rfl

@[simp] theorem tracking_sourceId (source : EventSource) (sequence : Option ℕ) :
    (source.tracking sequence).sourceId = source.sourceId := rfl

def identities (s : Store) : List EventSource := s.sources.map EventSource.identity

/-- Alike but for attempts, alerts, nonces and sequence tracking. -/
structure Alike (s t : Store) : Prop where
  db : s.db = t.db
  sealed : s.sealed = t.sealed
  lastMac : s.lastMac = t.lastMac
  sources : identities s = identities t

theorem Alike.refl (s : Store) : Alike s s := ⟨rfl, rfl, rfl, rfl⟩

theorem Alike.symm {s t : Store} (h : Alike s t) : Alike t s :=
  ⟨h.db.symm, h.sealed.symm, h.lastMac.symm, h.sources.symm⟩

theorem Alike.trans {s t u : Store} (h : Alike s t) (h' : Alike t u) : Alike s u :=
  ⟨h.db.trans h'.db, h.sealed.trans h'.sealed, h.lastMac.trans h'.lastMac, h.sources.trans h'.sources⟩

/-- Sources that differ in nothing but the tracking. -/
theorem eq_of_identity {a b : EventSource} (h : a.identity = b.identity) :
    b = a.tracking b.lastSourceSequence := by
  obtain ⟨_, _, _, _, _, _, _, _, _, _, _, _, _⟩ := a
  obtain ⟨_, _, _, _, _, _, _, _, _, _, _, _, _⟩ := b
  simp only [EventSource.identity, EventSource.tracking, EventSource.mk.injEq] at h ⊢
  simp [h]

theorem find_identities (s : Store) (sourceId : String) :
    (identities s).find? (fun source => decide (source.sourceId = sourceId)) =
      (findSource s sourceId).map EventSource.identity := by
  rw [identities, findSource, List.find?_map]
  rfl

/-- A source is found in both stores or in none. -/
theorem findSource_congr {s t : Store} (h : identities s = identities t) (sourceId : String) :
    (findSource s sourceId).map EventSource.identity =
      (findSource t sourceId).map EventSource.identity := by
  rw [← find_identities, ← find_identities, h]

theorem identities_trackSequence (source : EventSource) (event : EventEnvelope)
    (sources : List EventSource) :
    (trackSequence source event sources).map EventSource.identity =
      sources.map EventSource.identity := by
  unfold trackSequence
  split
  · rfl
  · rw [modifyWhere, List.map_map]
    refine List.map_congr_left fun row _ => ?_
    simp only [Function.comp_apply]
    split <;> rfl

theorem tracked_alike (s : Store) (source : EventSource) (event : EventEnvelope) :
    Alike (tracked s source event) s :=
  ⟨rfl, rfl, rfl, identities_trackSequence source event s.sources⟩

/-! ## Nonces -/

/-- The source of the id signs its requests. -/
def SignsRequests (s : Store) (sourceId : String) : Prop :=
  ∃ source, findSource s sourceId = some source ∧ source.authMethod = .hmacV1

theorem signsRequests_congr {s t : Store} (h : identities s = identities t) {sourceId : String}
    (hs : SignsRequests s sourceId) : SignsRequests t sourceId := by
  obtain ⟨a, ha, hmethod⟩ := hs
  have hfound := findSource_congr h sourceId
  rw [ha, Option.map_some] at hfound
  obtain ⟨b, hb, hid⟩ := Option.map_eq_some_iff.mp hfound.symm
  refine ⟨b, hb, ?_⟩
  rw [eq_of_identity hid.symm]
  exact hmethod

/-- The nonce of a call that is to be signed is used in both stores or in none. -/
def NonceAlike (s t : Store) (call : IngestCall) : Prop :=
  ∀ sourceId nonce, call.headerSourceId = some sourceId → SignsRequests s sourceId →
    call.sourceNonce = some nonce → usedNonce s sourceId nonce = usedNonce t sourceId nonce

/-- A nonce the call itself has used. -/
def Spent (call : IngestCall) (used : TransportNonce) : Prop :=
  call.headerSourceId = some used.sourceId ∧ call.sourceNonce = some used.nonce

theorem pyOr_none {a : Option String} {value : String} (h : pyOr a none = some value) :
    a = some value := by
  unfold pyOr at h
  split at h
  · exact h
  · cases h

/-! ## Authentication -/

section Authenticate
variable {g : Gateway} {s t : Store} {call : IngestCall}

/-- What authentication may change: a nonce of the call, and alerts. -/
structure Authenticated (call : IngestCall) (s s' t t' : Store) : Prop where
  left : s' = { s with nonces := s'.nonces, alerts := s'.alerts }
  right : t' = { t with nonces := t'.nonces, alerts := t'.alerts }
  spent : ∃ new, s'.nonces = s.nonces ++ new ∧ t'.nonces = t.nonces ++ new ∧
    ∀ used ∈ new, Spent call used

theorem authenticated_refl : Authenticated call s s t t :=
  ⟨rfl, rfl, [], by simp, by simp, by simp⟩

theorem authenticateHmac_congr {source : EventSource} (sequence : Option ℕ)
    (hsource : call.headerSourceId = some source.sourceId)
    (hused : ∀ nonce, call.sourceNonce = some nonce →
      usedNonce s source.sourceId nonce = usedNonce t source.sourceId nonce) :
    Authenticated call s (authenticateHmac g s call source).1 t
      (authenticateHmac g t call (source.tracking sequence)).1 ∧
    ((authenticateHmac g s call source).2 = .ok source ∧
        (authenticateHmac g t call (source.tracking sequence)).2 =
          .ok (source.tracking sequence) ∨
      ∃ raised, (authenticateHmac g s call source).2 = .error raised ∧
        (authenticateHmac g t call (source.tracking sequence)).2 =
          .error raised) := by
  unfold authenticateHmac
  cases htimestamp : pyOr call.sourceTimestamp none with
  | none => exact ⟨authenticated_refl, .inr ⟨_, rfl, rfl⟩⟩
  | some timestamp =>
    cases hnonce : pyOr call.sourceNonce none with
    | none => exact ⟨authenticated_refl, .inr ⟨_, rfl, rfl⟩⟩
    | some nonce =>
      cases hsignature : pyOr call.sourceSignature none with
      | none => exact ⟨authenticated_refl, .inr ⟨_, rfl, rfl⟩⟩
      | some signature =>
        have hnonce' := pyOr_none hnonce
        simp only [tracking_sourceId, ← hused nonce hnonce']
        cases htime : parseTransportTime g timestamp with
        | none => exact ⟨authenticated_refl, .inr ⟨_, rfl, rfl⟩⟩
        | some transportTime =>
          dsimp only
          by_cases hwindow : g.timestampTolerance < |call.now - transportTime|
          · simp only [hwindow, if_true]
            exact ⟨authenticated_refl, .inr ⟨_, rfl, rfl⟩⟩
          · simp only [hwindow, if_false]
            by_cases hreplay : usedNonce s source.sourceId nonce = true
            · simp only [hreplay, if_true]
              exact ⟨⟨rfl, rfl, [], by simp, by simp, by simp⟩, .inr ⟨_, rfl, rfl⟩⟩
            · simp only [hreplay, Bool.false_eq_true, if_false]
              cases hsecret : pyOr (g.hmacSecret source.sourceId) none with
              | none => exact ⟨authenticated_refl, .inr ⟨_, rfl, rfl⟩⟩
              | some secret =>
                dsimp only
                split
                · exact ⟨authenticated_refl, .inr ⟨_, rfl, rfl⟩⟩
                · split
                  · exact ⟨authenticated_refl, .inr ⟨_, rfl, rfl⟩⟩
                  · split
                    · exact ⟨authenticated_refl, .inr ⟨_, rfl, rfl⟩⟩
                    · refine ⟨⟨rfl, rfl, [_], rfl, rfl, ?_⟩, .inl ⟨rfl, rfl⟩⟩
                      intro used hmem
                      rw [List.mem_singleton.mp hmem]
                      exact ⟨hsource, hnonce'⟩

/-- Both authentications find the same source, or raise the same. -/
theorem authenticateSource_congr (h : Alike s t) (hnonce : NonceAlike s t call) :
    Authenticated call s (authenticateSource g s call).1 t (authenticateSource g t call).1 ∧
    ((∃ source sequence, (authenticateSource g s call).2 = .ok source ∧
        (authenticateSource g t call).2 = .ok (source.tracking sequence)) ∨
      ∃ raised, (authenticateSource g s call).2 = .error raised ∧
        (authenticateSource g t call).2 = .error raised) := by
  unfold authenticateSource
  cases hheader : pyOr call.headerSourceId none with
  | none => exact ⟨authenticated_refl, .inr ⟨_, rfl, rfl⟩⟩
  | some sourceId =>
    have hheader' := pyOr_none hheader
    have hfound := findSource_congr h.sources sourceId
    dsimp only
    cases hs : findSource s sourceId with
    | none =>
      rw [hs] at hfound
      rw [Option.map_eq_none_iff.mp hfound.symm]
      exact ⟨authenticated_refl, .inr ⟨_, rfl, rfl⟩⟩
    | some source =>
      rw [hs, Option.map_some] at hfound
      obtain ⟨other, ht, hid⟩ := Option.map_eq_some_iff.mp hfound.symm
      have hother := eq_of_identity hid.symm
      rw [ht, hother]
      dsimp only
      rw [tracking_usable, tracking_authMethod, tracking_tokenHash]
      cases hactive : source.usable call.now with
      | false => exact ⟨authenticated_refl, .inr ⟨_, rfl, rfl⟩⟩
      | true =>
        have hkey : source.sourceId = sourceId := by simpa using List.find?_some hs
        simp only [Bool.true_eq_false, if_false]
        cases hmethod : source.authMethod with
        | hmacV1 =>
          have hsigns : SignsRequests s sourceId := ⟨source, hs, hmethod⟩
          obtain ⟨hstores, hresult⟩ := authenticateHmac_congr (g := g)
            other.lastSourceSequence (hkey ▸ hheader')
            fun nonce hused => hkey ▸ hnonce sourceId nonce hheader' hsigns hused
          refine ⟨hstores, ?_⟩
          rcases hresult with ⟨hleft, hright⟩ | hraised
          · exact .inl ⟨source, _, hleft, hright⟩
          · exact .inr hraised
        | sharedSecretLegacy =>
          dsimp only
          split
          · split
            · exact ⟨authenticated_refl, .inl ⟨source, _, rfl, rfl⟩⟩
            · exact ⟨authenticated_refl, .inr ⟨_, rfl, rfl⟩⟩
          · exact ⟨authenticated_refl, .inr ⟨_, rfl, rfl⟩⟩

/-- Authentication leaves an alike store. -/
theorem Authenticated.alike {s' t' : Store} (h : Authenticated call s s' t t') :
    Alike s' s ∧ Alike t' t := by
  refine ⟨?_, ?_⟩
  · rw [h.left]
    exact ⟨rfl, rfl, rfl, rfl⟩
  · rw [h.right]
    exact ⟨rfl, rfl, rfl, rfl⟩

end Authenticate

/-! ## The rest of a call -/

/-- Two outcomes: alike stores, the nonces of before, the same answer. -/
structure SameOutcome (s t : Store) (a b : Store × Except Raised IngestAnswer) : Prop where
  alike : Alike a.1 b.1
  left : a.1.nonces = s.nonces
  right : b.1.nonces = t.nonces
  answer : a.2 = b.2

section Outcome
variable {g : Gateway} {s t : Store} {call : IngestCall} {source : EventSource} {sequence : Option ℕ}

theorem refuse_congr (h : Alike s t) (raised : Raised) :
    SameOutcome s t (refuse g s call raised) (refuse g t call raised) := by
  cases raised with
  | crashed exception => exact ⟨h, rfl, rfl, rfl⟩
  | refused error =>
    simp only [refuse, recordRejectedAttempt]
    split
    · exact ⟨⟨h.db, h.sealed, h.lastMac, h.sources⟩, rfl, rfl, rfl⟩
    · exact ⟨h, rfl, rfl, rfl⟩

theorem admission_tracking (value : Json) :
    admission g (source.tracking sequence) value = admission g source value := rfl

theorem repeatEvent_congr (h : Alike s t) (event : EventEnvelope) (existing : RawEvent) :
    SameOutcome s t (repeatEvent s source event existing)
      (repeatEvent t (source.tracking sequence) event existing) := by
  have hs := tracked_alike s source event
  have ht := tracked_alike t (source.tracking sequence) event
  have hst := (hs.trans h).trans ht.symm
  unfold repeatEvent
  split
  · exact ⟨⟨hst.db, hst.sealed, hst.lastMac, hst.sources⟩, rfl, rfl, rfl⟩
  · exact ⟨⟨hst.db, hst.sealed, hst.lastMac, hst.sources⟩, rfl, rfl, rfl⟩

theorem streamHead_congr (h : Alike s t) (streamId : String) :
    streamHead s streamId = streamHead t streamId := by
  rw [streamHead, streamHead, h.db, h.lastMac]

theorem appendEvent_congr (h : Alike s t) (incoming : IncomingEvent) :
    SameOutcome s t (appendEvent g s source incoming call)
      (appendEvent g t (source.tracking sequence) incoming call) := by
  have htaken : placeTaken s incoming.event = placeTaken t incoming.event := by
    rw [placeTaken, placeTaken, streamHead_congr h, h.db]
  unfold appendEvent
  simp only [htaken, streamHead_congr h, h.db]
  split
  · exact ⟨h, rfl, rfl, rfl⟩
  · split
    · refine ⟨⟨?_, h.sealed, h.lastMac, h.sources⟩, rfl, rfl, rfl⟩
      simp only [drawnSequence, h.db]
    · cases hmarked : markIngested (appendRaw t.db incoming.event call.now) incoming.event
        t.db.nextIngestSeq with
      | error e =>
        refine ⟨⟨?_, h.sealed, h.lastMac, h.sources⟩, rfl, rfl, rfl⟩
        simp only [drawnSequence, h.db]
      | ok marked =>
        have hs := tracked_alike s source incoming.event
        have ht := tracked_alike t (source.tracking sequence) incoming.event
        have hst := (hs.trans h).trans ht.symm
        refine ⟨⟨rfl, ?_, ?_, hst.sources⟩, rfl, rfl, rfl⟩
        · simp only [hst.sealed]
        · simp only [hst.lastMac]

theorem ingestAdmitted_congr (h : Alike s t) (incoming : IncomingEvent) :
    SameOutcome s t (ingestAdmitted g s source incoming call)
      (ingestAdmitted g t (source.tracking sequence) incoming call) := by
  unfold ingestAdmitted
  rw [h.db]
  split
  · exact ⟨h, rfl, rfl, rfl⟩
  · split
    · exact repeatEvent_congr h _ _
    · exact appendEvent_congr h incoming

end Outcome

/-! ## Whole calls -/

/-- Two outcomes of a call: the new nonces are the call's own, and the same in both. -/
structure SameCall (call : IngestCall) (s t : Store) (a b : Store × Except Raised IngestAnswer) :
    Prop where
  alike : Alike a.1 b.1
  spent : ∃ new, a.1.nonces = s.nonces ++ new ∧ b.1.nonces = t.nonces ++ new ∧
    ∀ used ∈ new, Spent call used
  answer : a.2 = b.2

section Calls
variable {g : Gateway} {s t : Store} {call : IngestCall}

theorem SameOutcome.after {s' t' : Store} {a b : Store × Except Raised IngestAnswer}
    (hauth : Authenticated call s s' t t') (h : SameOutcome s' t' a b) : SameCall call s t a b := by
  obtain ⟨new, hs, ht, hspent⟩ := hauth.spent
  exact ⟨h.alike, ⟨new, h.left.trans hs, h.right.trans ht, hspent⟩, h.answer⟩

theorem ingestCall_congr (h : Alike s t) (hnonce : NonceAlike s t call) :
    SameCall call s t (ingestCall g s call) (ingestCall g t call) := by
  obtain ⟨hauth, hresult⟩ := authenticateSource_congr (g := g) h hnonce
  obtain ⟨hs, ht⟩ := hauth.alike
  have halike := (hs.trans h).trans ht.symm
  unfold ingestCall
  rcases hresult with ⟨source, sequence, hleft, hright⟩ | ⟨raised, hleft, hright⟩
  · simp only [hleft, hright, admission_tracking]
    cases hadmission : admission g source call.value with
    | error raised => exact (refuse_congr halike raised).after hauth
    | ok incoming => exact (ingestAdmitted_congr halike incoming).after hauth
  · simp only [hleft, hright]
    exact (refuse_congr halike raised).after hauth

/-- The answer of a delivery and what it does to events, streams and projections depend on alike
stores alike. -/
theorem receiveCall_congr (h : Alike s t) (hnonce : NonceAlike s t call) :
    SameCall call s t (receiveCall g s call) (receiveCall g t call) := by
  obtain ⟨halike, hspent, hanswer⟩ := ingestCall_congr (g := g) h hnonce
  simp only [receiveCall, ← hanswer]
  cases hingested : (ingestCall g s call).2 with
  | error raised => exact ⟨halike, hspent, rfl⟩
  | ok answer =>
    cases hbody : bodyItemId g.reading call.value with
    | error raised => exact ⟨halike, hspent, rfl⟩
    | ok itemId =>
      refine ⟨⟨?_, halike.sealed, halike.lastMac, halike.sources⟩, hspent, ?_⟩
      · simp only [halike.db]
      · simp only [halike.db]

end Calls

/-! ## What a call leaves -/

/-- A repeated event: answered `duplicate` or `EVENT_ID_CONFLICT`. -/
def isRepeat : Except Raised IngestAnswer → Bool
  | .ok answer => decide (answer.result.ingestionStatus = .duplicate)
  | .error (.refused error) => decide (error.code = "EVENT_ID_CONFLICT")
  | .error (.crashed _) => false

section Leaves
variable {g : Gateway} {s : Store} {call : IngestCall}

theorem nonceAlike_refl (s : Store) (call : IngestCall) : NonceAlike s s call :=
  fun _ _ _ _ _ => rfl

/-- A call uses up no nonce but its own. -/
theorem receiveCall_nonces (g : Gateway) (s : Store) (call : IngestCall) :
    ∃ new, (receiveCall g s call).1.nonces = s.nonces ++ new ∧ ∀ used ∈ new, Spent call used := by
  obtain ⟨new, hleft, -, hspent⟩ :=
    (receiveCall_congr (g := g) (Alike.refl s) (nonceAlike_refl s call)).spent
  exact ⟨new, hleft, hspent⟩

theorem authenticateSource_alike (g : Gateway) (s : Store) (call : IngestCall) :
    Alike (authenticateSource g s call).1 s :=
  (authenticateSource_congr (g := g) (Alike.refl s) (nonceAlike_refl s call)).1.alike.1

theorem refuse_alike (g : Gateway) (s : Store) (call : IngestCall) (raised : Raised) :
    Alike (refuse g s call raised).1 s := by
  cases raised with
  | crashed exception => exact Alike.refl s
  | refused error =>
    simp only [refuse, recordRejectedAttempt]
    split
    · exact ⟨rfl, rfl, rfl, rfl⟩
    · exact Alike.refl s

theorem repeatEvent_alike (s : Store) (source : EventSource) (event : EventEnvelope)
    (existing : RawEvent) : Alike (repeatEvent s source event existing).1 s := by
  have hs := tracked_alike s source event
  unfold repeatEvent
  split
  · exact ⟨rfl, rfl, rfl, hs.sources⟩
  · exact ⟨rfl, rfl, rfl, hs.sources⟩

/-- The accepted event in the store. -/
def acceptedStore (g : Gateway) (s : Store) (source : EventSource) (incoming : IncomingEvent)
    (call : IngestCall) (recorded : Database) : Store :=
  let event := incoming.event
  let row := sealEvent g.crypto (streamHead s (streamIdOf event)) incoming call.now s.db.nextIngestSeq
    call.aesNonce
  { tracked s source event with
    db := recorded
    sealed := s.sealed ++ [row]
    lastMac := Function.update s.lastMac (streamIdOf event) row.integrityMac
    attempts := s.attempts ++ [eventAttempt source event .accepted] }

def acceptedAnswer (event : EventEnvelope) (affected : List String) : IngestAnswer :=
  ⟨event.eventId, ⟨.accepted, affected⟩, if truthy event.itemId then .stale else .notApplicable,
    event.contentHash, dataQualityWarnings event⟩

/-- A new event crashes the call and leaves no row, or it is accepted. -/
theorem appendEvent_cases (g : Gateway) (s : Store) (source : EventSource) (incoming : IncomingEvent)
    (call : IngestCall) :
    (∃ exception, (appendEvent g s source incoming call).2 = .error (.crashed exception) ∧
      ((appendEvent g s source incoming call).1 = s ∨
        (appendEvent g s source incoming call).1 = drawnSequence s) ∧
      (rowFits incoming.event = false ∨ placeTaken s incoming.event = true ∨
        ∃ e, markIngested (appendRaw s.db incoming.event call.now) incoming.event
          s.db.nextIngestSeq = .error e)) ∨
    ∃ marked, rowFits incoming.event = true ∧ placeTaken s incoming.event = false ∧
      markIngested (appendRaw s.db incoming.event call.now) incoming.event s.db.nextIngestSeq =
        .ok marked ∧
      appendEvent g s source incoming call =
        (acceptedStore g s source incoming call (recordInvalidation marked incoming.event).1,
          .ok (acceptedAnswer incoming.event (recordInvalidation marked incoming.event).2)) := by
  cases hfits : rowFits incoming.event with
  | false => exact .inl ⟨.dataError, by simp [appendEvent, hfits], by simp [appendEvent, hfits], .inl rfl⟩
  | true =>
    cases htaken : placeTaken s incoming.event with
    | true =>
      exact .inl ⟨.integrityError, by simp [appendEvent, hfits, htaken],
        by simp [appendEvent, hfits, htaken], .inr (.inl rfl)⟩
    | false =>
      cases hmarked : markIngested (appendRaw s.db incoming.event call.now) incoming.event
        s.db.nextIngestSeq with
      | error e =>
        exact .inl ⟨.typeError, by simp [appendEvent, hfits, htaken, hmarked],
          by simp [appendEvent, hfits, htaken, hmarked], .inr (.inr ⟨e, rfl⟩)⟩
      | ok marked =>
        refine .inr ⟨marked, rfl, rfl, rfl, ?_⟩
        simp only [appendEvent, hfits, htaken, hmarked, acceptedStore, acceptedAnswer]
        rfl

/-- A call is refused, or its event gets as far as the lookup of its id; the stores differ in the
nonce and the alerts of the authentication. -/
theorem ingestCall_cases (g : Gateway) (s : Store) (call : IngestCall) :
    ∃ s', s' = (authenticateSource g s call).1 ∧ Alike s' s ∧
      ((∃ raised, ingestCall g s call = refuse g s' call raised) ∨
        ∃ source incoming, (authenticateSource g s call).2 = .ok source ∧
          admission g source call.value = .ok incoming ∧
          ingestCall g s call = ingestAdmitted g s' source incoming call) := by
  refine ⟨_, rfl, authenticateSource_alike g s call, ?_⟩
  cases hresult : (authenticateSource g s call).2 with
  | error raised => exact .inl ⟨raised, by simp only [ingestCall, hresult]⟩
  | ok source =>
    cases hadmission : admission g source call.value with
    | error raised => exact .inl ⟨raised, by simp only [ingestCall, hresult, hadmission]⟩
    | ok incoming =>
      exact .inr ⟨source, incoming, rfl, hadmission, by simp only [ingestCall, hresult, hadmission]⟩

/-- An admitted event crashes the call without a trace, is a repeated one, or is appended. -/
theorem ingestAdmitted_cases (g : Gateway) (s : Store) (source : EventSource) (incoming : IncomingEvent)
    (call : IngestCall) :
    ingestAdmitted g s source incoming call = (s, .error (.crashed .dataError)) ∨
    (∃ existing, findRawEvent s.db incoming.event.eventId = some existing ∧
      ingestAdmitted g s source incoming call = repeatEvent s source incoming.event existing) ∨
    ingestAdmitted g s source incoming call = appendEvent g s source incoming call := by
  cases hfits : namesFit incoming.event with
  | false => exact .inl (by simp [ingestAdmitted, hfits])
  | true =>
    cases hfind : findRawEvent s.db incoming.event.eventId with
    | some existing => exact .inr (.inl ⟨existing, rfl, by simp [ingestAdmitted, hfits, hfind]⟩)
    | none => exact .inr (.inr (by simp [ingestAdmitted, hfits, hfind]))

theorem appendEvent_not_repeat (g : Gateway) (s : Store) (source : EventSource)
    (incoming : IncomingEvent) (call : IngestCall) :
    isRepeat (appendEvent g s source incoming call).2 = false := by
  rcases appendEvent_cases g s source incoming call with ⟨exception, hcrash, -⟩ | ⟨marked, -, -, -, heq⟩
  · rw [hcrash]
    rfl
  · rw [heq]
    rfl

/-- A repeated delivery leaves the tables but those of the traffic, and affects no item. -/
theorem ingestCall_repeat (h : isRepeat (ingestCall g s call).2 = true) :
    Alike (ingestCall g s call).1 s ∧
      ∀ answer, (ingestCall g s call).2 = .ok answer → answer.result = ⟨.duplicate, []⟩ := by
  obtain ⟨s', -, hauth, ⟨raised, heq⟩ | ⟨source, incoming, -, -, heq⟩⟩ := ingestCall_cases g s call
  · rw [heq] at h ⊢
    refine ⟨(refuse_alike g s' call raised).trans hauth, fun answer hanswer => ?_⟩
    cases raised with
    | crashed exception => cases hanswer
    | refused error => cases hanswer
  · rw [heq] at h ⊢
    rcases ingestAdmitted_cases g s' source incoming call with hcrash | ⟨existing, -, hrepeat⟩ | hnew
    · rw [hcrash] at h
      cases h
    · rw [hrepeat]
      refine ⟨(repeatEvent_alike s' source incoming.event existing).trans hauth, fun answer hanswer => ?_⟩
      unfold repeatEvent at hanswer
      split at hanswer
      · obtain rfl := Except.ok.inj hanswer
        rfl
      · cases hanswer
    · rw [hnew, appendEvent_not_repeat] at h
      cases h

theorem bodyItemId_error {r : Reading} {value : Json} {raised : Raised}
    (h : bodyItemId r value = .error raised) : raised = .crashed .attributeError := by
  unfold bodyItemId at h
  split at h
  · dsimp only at h
    split at h
    · cases h
    · split at h
      · cases h
      · split at h
        · cases h
        · exact (Except.error.inj h).symm
  · exact (Except.error.inj h).symm

theorem receiveCall_repeat (h : isRepeat (receiveCall g s call).2 = true) :
    Alike (receiveCall g s call).1 s := by
  cases hingested : (ingestCall g s call).2 with
  | error raised =>
    simp only [receiveCall, hingested] at h ⊢
    exact (ingestCall_repeat (by rwa [hingested])).1
  | ok answer =>
    cases hbody : bodyItemId g.reading call.value with
    | error raised =>
      simp only [receiveCall, hingested, hbody, bodyItemId_error hbody] at h
      cases h
    | ok itemId =>
      simp only [receiveCall, hingested, hbody] at h ⊢
      have hstatus : answer.result.ingestionStatus = .duplicate := by simpa [isRepeat] using h
      have hrepeat : isRepeat (ingestCall g s call).2 = true := by
        rw [hingested]
        simpa [isRepeat] using hstatus
      obtain ⟨halike, hresult⟩ := ingestCall_repeat hrepeat
      have hown : ownTarget answer itemId = [] := by
        cases itemId with
        | str value => simp [ownTarget, hstatus]
        | _ => rfl
      rw [hown, hresult answer hingested]
      exact halike

theorem ingestAdmitted_identities (g : Gateway) (s : Store) (source : EventSource) (incoming : IncomingEvent)
    (call : IngestCall) : identities (ingestAdmitted g s source incoming call).1 = identities s := by
  rcases ingestAdmitted_cases g s source incoming call with hcrash | ⟨existing, -, hrepeat⟩ | hnew
  · rw [hcrash]
  · rw [hrepeat]
    exact (repeatEvent_alike s source incoming.event existing).sources
  · rw [hnew]
    rcases appendEvent_cases g s source incoming call with ⟨_, -, hs | hs, -⟩ | ⟨marked, -, -, -, heq⟩
    · rw [hs]
    · rw [hs]
      rfl
    · rw [heq]
      exact (tracked_alike s source incoming.event).sources

/-- The registered sources stay. -/
theorem receiveCall_identities (g : Gateway) (s : Store) (call : IngestCall) :
    identities (receiveCall g s call).1 = identities s := by
  have hingested : identities (ingestCall g s call).1 = identities s := by
    obtain ⟨s', -, hauth, ⟨raised, heq⟩ | ⟨source, incoming, -, -, heq⟩⟩ := ingestCall_cases g s call
    · rw [heq]
      exact (refuse_alike g s' call raised).sources.trans hauth.sources
    · rw [heq, ← hauth.sources]
      exact ingestAdmitted_identities g s' source incoming call
  cases hresult : (ingestCall g s call).2 with
  | error raised =>
    simp only [receiveCall, hresult]
    exact hingested
  | ok answer =>
    cases hbody : bodyItemId g.reading call.value with
    | error raised =>
      simp only [receiveCall, hresult, hbody]
      exact hingested
    | ok itemId =>
      simp only [receiveCall, hresult, hbody]
      exact hingested

end Leaves

end TraceQ.Ingestion
