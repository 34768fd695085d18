import TraceQ.Ingestion.CallMeaning

/-! # Deliveries of an event that is already stored

A delivery answered `duplicate` or `EVENT_ID_CONFLICT` writes attempts, alerts, a nonce and the sequence
tracking of its source. No later answer but an alert looks at these, so a run without such deliveries
goes the same way.
-/
namespace TraceQ.Properties
open Ingestion Security
set_option autoImplicit false
set_option maxHeartbeats 250000

/-! ## Runs -/

section Runs
variable (g : Gateway)

/-- The store after deliveries processed one at a time. -/
def storeAfter (s : Store) (calls : List IngestCall) : Store :=
  calls.foldl (fun s call => (receiveCall g s call).1) s

def answersOf : Store → List IngestCall → List (Except Raised IngestAnswer)
  | _, [] => []
  | s, call :: rest => (receiveCall g s call).2 :: answersOf (receiveCall g s call).1 rest

/-- The deliveries that were not answered as repeated. -/
def withoutRepeats : Store → List IngestCall → List IngestCall
  | _, [] => []
  | s, call :: rest =>
      if isRepeat (receiveCall g s call).2 then withoutRepeats (receiveCall g s call).1 rest
      else call :: withoutRepeats (receiveCall g s call).1 rest

end Runs

/-- Two deliveries of one signing source have different nonces. -/
def DistinctNonces (s : Store) (a b : IngestCall) : Prop :=
  ∀ sourceId nonce, SignsRequests s sourceId → a.headerSourceId = some sourceId →
    b.headerSourceId = some sourceId → a.sourceNonce = some nonce → b.sourceNonce ≠ some nonce

theorem DistinctNonces.congr {s t : Store} (h : identities t = identities s) {a b : IngestCall}
    (hdistinct : DistinctNonces s a b) : DistinctNonces t a b :=
  fun sourceId nonce hsigns => hdistinct sourceId nonce (signsRequests_congr h hsigns)

/-! ## One delivery -/

/-- The two stores answer the deliveries still to come alike. -/
structure Ready (s t : Store) (calls : List IngestCall) : Prop where
  alike : Alike s t
  nonces : ∀ call ∈ calls, NonceAlike s t call

variable {g : Gateway} {s t : Store} {call : IngestCall} {rest : List IngestCall}

theorem usedNonce_append {s s' : Store} {new : List TransportNonce} (h : s'.nonces = s.nonces ++ new)
    (sourceId nonce : String) : usedNonce s' sourceId nonce =
      (usedNonce s sourceId nonce ||
        new.any fun used => decide (used.sourceId = sourceId ∧ used.nonce = nonce)) := by
  rw [usedNonce, h, List.any_append, usedNonce]

/-- Both runs take the delivery. -/
theorem Ready.both (h : Ready s t (call :: rest)) :
    Ready (receiveCall g s call).1 (receiveCall g t call).1 rest ∧
      (receiveCall g s call).2 = (receiveCall g t call).2 := by
  obtain ⟨halike, ⟨new, hs, ht, -⟩, hanswer⟩ :=
    receiveCall_congr (g := g) h.alike (h.nonces call List.mem_cons_self)
  refine ⟨⟨halike, fun later hlater sourceId nonce hheader hsigns hnonce => ?_⟩, hanswer⟩
  have hbefore := h.nonces later (List.mem_cons_of_mem _ hlater) sourceId nonce hheader
    (signsRequests_congr (receiveCall_identities g s call) hsigns) hnonce
  rw [usedNonce_append hs, usedNonce_append ht, hbefore]

/-- The first run takes a repeated delivery and the second does not. -/
theorem Ready.first (h : Ready s t (call :: rest)) (hrepeat : isRepeat (receiveCall g s call).2 = true)
    (hdistinct : ∀ later ∈ rest, DistinctNonces s call later) :
    Ready (receiveCall g s call).1 t rest := by
  obtain ⟨new, hs, hspent⟩ := receiveCall_nonces g s call
  refine ⟨(receiveCall_repeat hrepeat).trans h.alike,
    fun later hlater sourceId nonce hheader hsigns hnonce => ?_⟩
  have hsigns' := signsRequests_congr (receiveCall_identities g s call) hsigns
  have hbefore := h.nonces later (List.mem_cons_of_mem _ hlater) sourceId nonce hheader hsigns' hnonce
  have hnone : (new.any fun used => decide (used.sourceId = sourceId ∧ used.nonce = nonce)) = false := by
    rw [List.any_eq_false]
    intro used hused
    rw [decide_eq_true_eq]
    rintro ⟨rfl, rfl⟩
    obtain ⟨hcallHeader, hcallNonce⟩ := hspent used hused
    exact hdistinct later hlater used.sourceId used.nonce hsigns' hcallHeader hheader hcallNonce hnonce
  rw [usedNonce_append hs, hnone, Bool.or_false, hbefore]

/-! ## Every run -/

theorem runs_alike {calls : List IngestCall} (h : Ready s t calls)
    (hdistinct : calls.Pairwise (DistinctNonces s)) :
    Alike (storeAfter g s calls) (storeAfter g t (withoutRepeats g s calls)) ∧
      answersOf g t (withoutRepeats g s calls) =
        (answersOf g s calls).filter fun answer => !isRepeat answer := by
  induction calls generalizing s t with
  | nil => exact ⟨h.alike, rfl⟩
  | cons call rest ih =>
    obtain ⟨hcall, hrest⟩ := List.pairwise_cons.mp hdistinct
    have hlater : rest.Pairwise (DistinctNonces (receiveCall g s call).1) :=
      hrest.imp fun hd => hd.congr (receiveCall_identities g s call)
    cases hrepeat : isRepeat (receiveCall g s call).2 with
    | true =>
      have hstep := ih (h.first hrepeat hcall) hlater
      simp only [withoutRepeats, answersOf, storeAfter, List.foldl_cons, hrepeat, if_true] at hstep ⊢
      simpa [List.filter_cons, hrepeat] using hstep
    | false =>
      obtain ⟨hready, hanswer⟩ := h.both (g := g)
      have hstep := ih hready hlater
      have hkept : withoutRepeats g s (call :: rest) =
          call :: withoutRepeats g (receiveCall g s call).1 rest := by
        simp [withoutRepeats, hrepeat]
      refine ⟨?_, ?_⟩
      · rw [hkept]
        exact hstep.1
      · rw [hkept, answersOf, answersOf, List.filter_cons, hrepeat, hstep.2, ← hanswer]
        rfl

/-- Without the repeated deliveries a run ends with the same events, streams, projections and cases,
and the other deliveries are answered the same. -/
theorem repeats_without_effect (g : Gateway) (s : Store) (calls : List IngestCall)
    (hdistinct : calls.Pairwise (DistinctNonces s)) :
    (storeAfter g s (withoutRepeats g s calls)).db = (storeAfter g s calls).db ∧
      (storeAfter g s (withoutRepeats g s calls)).sealed = (storeAfter g s calls).sealed ∧
      (storeAfter g s (withoutRepeats g s calls)).lastMac = (storeAfter g s calls).lastMac ∧
      answersOf g s (withoutRepeats g s calls) =
        (answersOf g s calls).filter fun answer => !isRepeat answer := by
  have hready : Ready s s calls := ⟨Alike.refl s, fun call _ => nonceAlike_refl s call⟩
  obtain ⟨halike, hanswers⟩ := runs_alike (g := g) hready hdistinct
  exact ⟨halike.db.symm, halike.sealed.symm, halike.lastMac.symm, hanswers⟩

/-! ### One event twice -/

def stateBody : Json := .obj
  [("event_id", .str "e-1"), ("event_type", .str "machine.state"), ("schema_version", .str "1.0"),
    ("occurred_at", .int 10), ("source", .obj [("source_id", .str "plc-1"), ("source_type", .str "plc")]),
    ("payload", .obj [("equipment_id", .str "press-1"), ("state", .str "running")])]

/-- Integers are read as they stand and as seconds since the epoch. -/
def plainReading : Reading where
  decimal _ := 0
  readInt
    | .int value => some value
    | _ => none
  readFloat
    | .int value => some value
    | _ => none
  readDatetime
    | .int seconds => some ⟨seconds * 1000000, some 0⟩
    | _ => none
  payloadDetails _ _ := "equipment_id: Field required; state: Field required"
  envelopeDetails _ := "occurred_at: Field required; source: Field required"

def plainGateway : Gateway where
  reading := plainReading
  crypto :=
    { aesGcm := fun nonce _ aad => nonce ++ aad, hmacSha256 := fun framed => framed, aesKeyId := "key-1" }
  tokenHash token := if token = "secret"
    then "2bb80d537b1da3e38bd30361aa855686bde0eacd7162fef6a25fe97bf527a25b" else ""
  fromTimestamp value := if value = "20" then some ⟨20000000, some 0⟩ else none
  fromIsoformat _ := none
  timestampTolerance := 300000000
  hmacSecret _ := some "secret"
  hexdigest _ signed := if signed = signedBytes "20" "n-1" stateBody
    then "b993c26f01531ff66d0e3488f016a8663096e363a6fce5d3d04444ae7a7dee56"
    else "fe87c970629eed415776b77b8932fd7d771a83db7098e56306c27fc9f9b04231"
  str _ := ""

def signingSource : EventSource where
  sourceId := "plc-1"
  sourceType := "plc"
  authMethod := .hmacV1
  allowedEventTypes := ["machine.state"]

def signedCall (nonce signature : String) : IngestCall where
  value := stateBody
  headerSourceId := some "plc-1"
  sourceTimestamp := some "20"
  sourceNonce := some nonce
  sourceSignature := some signature
  now := 21000000
  aesNonce := [1, 2, 3]

def twiceDelivered : List IngestCall :=
  [signedCall "n-1" "b993c26f01531ff66d0e3488f016a8663096e363a6fce5d3d04444ae7a7dee56",
    signedCall "n-2" "fe87c970629eed415776b77b8932fd7d771a83db7098e56306c27fc9f9b04231"]

example : (answersOf plainGateway { sources := [signingSource] } twiceDelivered).map isRepeat =
    [false, true] := by decide +kernel

theorem repeats_without_effect_twice :
    (storeAfter plainGateway { sources := [signingSource] } (withoutRepeats plainGateway
        { sources := [signingSource] } twiceDelivered)).db =
      (storeAfter plainGateway { sources := [signingSource] } twiceDelivered).db := by
  refine (repeats_without_effect plainGateway { sources := [signingSource] } twiceDelivered ?_).1
  refine List.pairwise_cons.mpr ⟨fun later hlater => ?_, List.pairwise_singleton _ _⟩
  obtain rfl := List.mem_singleton.mp hlater
  intro sourceId nonce _ _ _ hfirst hsecond
  rw [← hfirst] at hsecond
  revert hsecond
  decide

end TraceQ.Properties
