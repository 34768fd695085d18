import TraceQ.Ingestion.CallMeaning
import TraceQ.Library.Transactions
import TraceQ.Security.Framing

/-! # Requests side by side

The transactions of `_authenticate_source` under READ COMMITTED, taking their steps in any order. The
source row stays locked from its first read to the commit of the nonce, or to the end of the call where
no nonce is committed. What a request commits after that, and what every other endpoint commits, leaves
`transport_nonces` as it is.
-/
namespace TraceQ.Ingestion
open Security Tables Transactions Protocol
set_option autoImplicit false
set_option maxHeartbeats 250000

/-! ## States -/

/-- A request that `_authenticate_source` let pass under `HMAC_V1`. -/
structure SignedRequest where
  sourceId : String
  timestamp : String
  nonce : String
  signature : String
  body : Json

/-- The headers of the request are those its source signs it with. -/
def SignedRequest.Valid (g : Gateway) (r : SignedRequest) : Prop :=
  ∃ secret, pyOr (g.hmacSecret r.sourceId) none = some secret ∧
    g.hexdigest secret (signedBytes r.timestamp r.nonce r.body) = r.signature.toLower

def SignedRequest.LineFree (r : SignedRequest) : Prop :=
  Security.LineFree r.timestamp ∧ Security.LineFree r.nonce

/-- The committed rows, and the requests that have passed. -/
structure Passed where
  store : Store
  passed : List SignedRequest := []

inductive RequestTransaction where
  | asked (call : IngestCall)
  /-- The source is read and its row locked. -/
  | loaded (call : IngestCall) (source : EventSource)
  /-- The nonce was unused and the signature is valid; the nonce is to be committed. -/
  | signed (call : IngestCall) (source : EventSource) (nonce : TransportNonce)
  /-- The refusal is to be recorded. -/
  | refused (call : IngestCall) (error : TraceQError)
  /-- `_authenticate_source` has returned. -/
  | authenticated (call : IngestCall) (source : EventSource)
  /-- A call of another endpoint. -/
  | elsewhere

/-- The source row it has locked. -/
def RequestTransaction.locksSource : RequestTransaction → Option String
  | .loaded _ source | .signed _ source _ => some source.sourceId
  | .authenticated _ source =>
      if source.authMethod = .sharedSecretLegacy then some source.sourceId else none
  | .asked _ | .refused _ _ | .elsewhere => none

/-- The header values have no line feed. -/
def IngestCall.LineFree (call : IngestCall) : Prop :=
  (∀ timestamp ∈ call.sourceTimestamp, Security.LineFree timestamp) ∧
    ∀ nonce ∈ call.sourceNonce, Security.LineFree nonce

inductive RequestTransaction.Begins : RequestTransaction → Prop where
  | asked (call : IngestCall) (hlines : call.LineFree) : Begins (.asked call)
  | elsewhere : Begins .elsewhere

abbrev RequestWorld := World Passed RequestTransaction

/-! ## What a signature says -/

/-- Requests with one signature are signed for the same timestamp, nonce and body. -/
theorem signature_determines {g : Gateway} (hcollisions : ∀ secret, Function.Injective (g.hexdigest secret))
    {a b : SignedRequest} (halines : a.LineFree) (hblines : b.LineFree)
    (ha : a.Valid g) (hb : b.Valid g) (hsource : a.sourceId = b.sourceId)
    (hsignature : a.signature.toLower = b.signature.toLower) : a.timestamp = b.timestamp ∧
      a.nonce = b.nonce ∧ canonicalJsonBytes a.body = canonicalJsonBytes b.body := by
  obtain ⟨secret, hsecret, hdigest⟩ := ha
  obtain ⟨secret', hsecret', hdigest'⟩ := hb
  rw [hsource, hsecret'] at hsecret
  obtain rfl := Option.some.inj hsecret
  have hbytes : signedBytes a.timestamp a.nonce a.body = signedBytes b.timestamp b.nonce b.body :=
    hcollisions secret' (hdigest.trans (hsignature.trans hdigest'.symm))
  simp only [signedBytes, List.append_assoc, List.singleton_append] at hbytes
  obtain ⟨htimestamp, hrest⟩ :=
    split_at_separator (lineFree_utf8 halines.1) (lineFree_utf8 hblines.1) hbytes
  obtain ⟨hnonce, hbody⟩ :=
    split_at_separator (lineFree_utf8 halines.2) (lineFree_utf8 hblines.2) hrest
  exact ⟨utf8_injective htimestamp, utf8_injective hnonce, hbody⟩

/-- What `HMAC_V1` has checked of a request it lets pass. -/
theorem authenticateHmac_ok {g : Gateway} {s s' : Store} {call : IngestCall} {source : EventSource}
    (h : authenticateHmac g s call source = (s', .ok source)) :
    ∃ timestamp nonce signature transportTime secret, call.sourceTimestamp = some timestamp ∧
      call.sourceNonce = some nonce ∧ call.sourceSignature = some signature ∧
      usedNonce s source.sourceId nonce = false ∧
      pyOr (g.hmacSecret source.sourceId) none = some secret ∧
      g.hexdigest secret (signedBytes timestamp nonce call.value) = signature.toLower ∧
      s'.nonces = s.nonces ++ [⟨source.sourceId, nonce, transportTime⟩] := by
  unfold authenticateHmac at h
  split at h
  · rename_i timestamp nonce signature htimestamp hnonce hsignature
    split at h
    · cases h
    · rename_i transportTime htime
      split at h
      · cases h
      · split at h
        · cases h
        · rename_i hunused
          split at h
          · cases h
          · rename_i secret hsecret
            split at h
            · cases h
            · split at h
              · cases h
              · rename_i hdigest
                split at h
                · cases h
                · refine ⟨timestamp, nonce, signature, transportTime, secret, pyOr_none htimestamp,
                    pyOr_none hnonce, pyOr_none hsignature, by simpa using hunused, hsecret,
                    not_not.mp hdigest, ?_⟩
                  rw [← (Prod.mk.inj h).1]
  · cases h

/-- How `HMAC_V1` ends: without a trace, with the alert of a replay, or with a new nonce. -/
theorem authenticateHmac_cases (g : Gateway) (s : Store) (call : IngestCall) (source : EventSource) :
    (∃ raised, authenticateHmac g s call source = (s, .error raised)) ∨
    (∃ alerts, authenticateHmac g s call source =
      ({ s with alerts := alerts }, .error (.refused replayAttempt))) ∨
    ∃ nonce, authenticateHmac g s call source =
      ({ s with nonces := s.nonces ++ [nonce] }, .ok source) := by
  unfold authenticateHmac
  split
  · split
    · exact .inl ⟨_, rfl⟩
    · split
      · exact .inl ⟨_, rfl⟩
      · split
        · exact .inr (.inl ⟨_, rfl⟩)
        · split
          · exact .inl ⟨_, rfl⟩
          · split
            · exact .inl ⟨_, rfl⟩
            · split
              · exact .inl ⟨_, rfl⟩
              · split
                · exact .inl ⟨_, rfl⟩
                · exact .inr (.inr ⟨_, rfl⟩)
  · exact .inl ⟨_, rfl⟩

/-! ## Steps -/

section Protocol
variable (g : Gateway)

inductive RequestMoves (w : RequestWorld) (i : ℕ) : RequestTransaction → RequestTransaction → Prop where
  /-- `SELECT ... FOR UPDATE` waits for the lock. -/
  | loads (call : IngestCall) (sourceId : String) (source : EventSource)
      (hheader : pyOr call.headerSourceId none = some sourceId)
      (hfound : findSource w.committed.store sourceId = some source)
      (hfree : w.Others i fun m => m.locksSource ≠ some sourceId)
      (husable : source.usable call.now = true) : RequestMoves w i (.asked call) (.loaded call source)
  /-- Without a source that is in use. -/
  | rejects (call : IngestCall) (error : TraceQError)
      (hrefused : (authenticateSource g w.committed.store call).2 = .error (.refused error))
      (hsource : ∀ sourceId source, pyOr call.headerSourceId none = some sourceId →
        findSource w.committed.store sourceId = some source → source.usable call.now = false) :
      RequestMoves w i (.asked call) (.refused call error)
  | signs (call : IngestCall) (source : EventSource) (nonce : TransportNonce)
      (hmethod : source.authMethod = .hmacV1)
      (hsigned : authenticateHmac g w.committed.store call source =
        ({ w.committed.store with nonces := w.committed.store.nonces ++ [nonce] }, .ok source)) :
      RequestMoves w i (.loaded call source) (.signed call source nonce)
  /-- A refusal of `HMAC_V1` without a commit. -/
  | fails (call : IngestCall) (source : EventSource) (error : TraceQError)
      (hmethod : source.authMethod = .hmacV1)
      (hrefused : authenticateHmac g w.committed.store call source =
        (w.committed.store, .error (.refused error))) :
      RequestMoves w i (.loaded call source) (.refused call error)
  /-- A shared secret needs no nonce. -/
  | trusts (call : IngestCall) (source : EventSource) (token hash : String)
      (hmethod : source.authMethod = .sharedSecretLegacy)
      (htoken : pyOr call.sourceToken none = some token) (hhash : pyOr source.tokenHash none = some hash)
      (hsame : hash = g.tokenHash token) : RequestMoves w i (.loaded call source) (.authenticated call source)
  | distrusts (call : IngestCall) (source : EventSource)
      (hmethod : source.authMethod = .sharedSecretLegacy)
      (hother : ∀ token hash, pyOr call.sourceToken none = some token →
        pyOr source.tokenHash none = some hash → hash ≠ g.tokenHash token) :
      RequestMoves w i (.loaded call source) (.refused call invalidCredentials)
  /-- A refusal after the authentication rolls back what came after the nonce. -/
  | turnsDown (call : IngestCall) (source : EventSource) (error : TraceQError)
      (hrefused : admission g source call.value = .error (.refused error)) :
      RequestMoves w i (.authenticated call source) (.refused call error)

/-- The request as it was signed. -/
def signedRequest (call : IngestCall) (nonce : TransportNonce) : SignedRequest where
  sourceId := nonce.sourceId
  timestamp := call.sourceTimestamp.getD ""
  nonce := nonce.nonce
  signature := call.sourceSignature.getD ""
  body := call.value

inductive RequestCommits (w : RequestWorld) (i : ℕ) :
    RequestTransaction → Passed → Option RequestTransaction → Prop where
  /-- The alert of a replay. -/
  | alerts (call : IngestCall) (source : EventSource) (alerts : List SecurityAlert)
      (hmethod : source.authMethod = .hmacV1)
      (hreplay : authenticateHmac g w.committed.store call source =
        ({ w.committed.store with alerts := alerts }, .error (.refused replayAttempt))) :
      RequestCommits w i (.loaded call source)
        { w.committed with store := { w.committed.store with alerts := alerts } }
        (some (.refused call replayAttempt))
  /-- The insert meets no row with its key; another one raises `IntegrityError`. -/
  | passes (call : IngestCall) (source : EventSource) (nonce : TransportNonce)
      (hkey : usedNonce w.committed.store nonce.sourceId nonce.nonce = false) :
      RequestCommits w i (.signed call source nonce)
        { store := { w.committed.store with nonces := w.committed.store.nonces ++ [nonce] }
          passed := w.committed.passed ++ [signedRequest call nonce] }
        (some (.authenticated call source))
  | records (call : IngestCall) (error : TraceQError) :
      RequestCommits w i (.refused call error)
        { w.committed with
          store := (recordRejectedAttempt w.committed.store call.headerSourceId
            (claimedEventId g call.value) error).1 } none
  /-- The rest of `ingest_event`. -/
  | ingests (call : IngestCall) (source : EventSource) (store : Store)
      (hnonces : store.nonces = w.committed.store.nonces) :
      RequestCommits w i (.authenticated call source) { w.committed with store := store } none
  | edits (store : Store) (hnonces : store.nonces = w.committed.store.nonces) :
      RequestCommits w i .elsewhere { w.committed with store := store } none

/-- Exceptions and lost connections roll a request back anywhere. -/
def requestProtocol : Protocol Passed RequestTransaction where
  begins := RequestTransaction.Begins
  moves := RequestMoves g
  commits := RequestCommits g
  rollsBack _ := True

end Protocol

/-! ## A call alone -/

section Alone
variable {g : Gateway} {start : RequestWorld} {c : Passed} {call : IngestCall}

theorem refused_alone {error : TraceQError}
    (h : (requestProtocol g).Reachable start (alone c (.refused call error))) :
    (requestProtocol g).Reachable start
      (World.quiet { c with store := (refuse g c.store call (.refused error)).1 }) :=
  alone_commits h (.records call error)

theorem crashed_alone {l : RequestTransaction}
    (h : (requestProtocol g).Reachable start (alone c l)) :
    (requestProtocol g).Reachable start (World.quiet c) := by
  have hstep := h.tail (.rollsBack 0 l (alone_running c l) trivial)
  have hset : (alone c l).set 0 none = World.quiet c := by simp [alone, World.set, World.quiet]
  rwa [hset] at hstep

theorem ingestAdmitted_nonces (g : Gateway) (s : Store) (source : EventSource)
    (incoming : IncomingEvent) (call : IngestCall) :
    (ingestAdmitted g s source incoming call).1.nonces = s.nonces := by
  unfold ingestAdmitted
  split
  · rfl
  · split
    · unfold repeatEvent
      split <;> rfl
    · unfold appendEvent
      dsimp only
      split
      · rfl
      · split
        · rfl
        · split <;> rfl

/-- After the authentication the call ends as `ingest_event` does. -/
theorem authenticated_alone {source : EventSource}
    (h : (requestProtocol g).Reachable start (alone c (.authenticated call source))) :
    (requestProtocol g).Reachable start (World.quiet { c with
      store := (match admission g source call.value with
        | .error raised => refuse g c.store call raised
        | .ok incoming => ingestAdmitted g c.store source incoming call).1 }) := by
  split
  · rename_i raised hraised
    cases raised with
    | refused error => exact refused_alone (alone_moves h (.turnsDown call source error hraised))
    | crashed exception => exact crashed_alone h
  · rename_i incoming hincoming
    exact alone_commits h (.ingests call source _ (ingestAdmitted_nonces g c.store source incoming call))

/-- What a call leaves when nothing runs beside it is what `ingest_event` leaves. -/
theorem ingestCall_alone (g : Gateway) (c : Passed) (call : IngestCall) (hlines : call.LineFree) :
    ∃ passed, (requestProtocol g).Reachable (World.quiet c)
      (World.quiet { store := (ingestCall g c.store call).1, passed := passed }) := by
  have hasked := alone_begins (p := requestProtocol g) c (.asked call hlines)
  cases hheader : pyOr call.headerSourceId none with
  | none =>
    have hauth : authenticateSource g c.store call =
        (c.store, .error (.refused (authRequired "Source credentials are required"))) := by
      rw [authenticateSource, hheader]
    refine ⟨c.passed, ?_⟩
    rw [ingestCall, hauth]
    exact refused_alone (alone_moves hasked (.rejects call _ (congrArg Prod.snd hauth)
      fun sourceId source hsome => by rw [hheader] at hsome; cases hsome))
  | some sourceId =>
    cases hfound : findSource c.store sourceId with
    | none =>
      have hauth : authenticateSource g c.store call = (c.store, .error (.refused invalidCredentials)) := by
        simp only [authenticateSource, hheader, hfound]
      refine ⟨c.passed, ?_⟩
      rw [ingestCall, hauth]
      refine refused_alone (alone_moves hasked (.rejects call _ (congrArg Prod.snd hauth) ?_))
      intro id source hsome hsource
      obtain rfl := Option.some.inj (hheader.symm.trans hsome)
      rw [alone_committed, hfound] at hsource
      cases hsource
    | some source =>
      by_cases husable : source.usable call.now = true
      · have hloaded := alone_moves hasked
          (.loads call sourceId source hheader hfound (others_alone _ _ _) husable)
        cases hmethod : source.authMethod with
        | hmacV1 =>
          have hauth : authenticateSource g c.store call = authenticateHmac g c.store call source := by
            simp [authenticateSource, hheader, hfound, husable, hmethod]
          rcases authenticateHmac_cases g c.store call source with ⟨raised, hends⟩ | ⟨alerts, hends⟩ |
            ⟨nonce, hends⟩
          · refine ⟨c.passed, ?_⟩
            rw [ingestCall, hauth, hends]
            cases raised with
            | refused error => exact refused_alone (alone_moves hloaded (.fails call source error hmethod hends))
            | crashed exception => exact crashed_alone hloaded
          · refine ⟨c.passed, ?_⟩
            rw [ingestCall, hauth, hends]
            exact refused_alone (alone_advances hloaded (.alerts call source alerts hmethod hends))
          · refine ⟨c.passed ++ [signedRequest call nonce], ?_⟩
            rw [ingestCall, hauth, hends]
            obtain ⟨timestamp, text, signature, transportTime, secret, -, -, -, hunused, -, -, hnonces⟩ :=
              authenticateHmac_ok hends
            obtain rfl : nonce = ⟨source.sourceId, text, transportTime⟩ :=
              (List.cons.inj (List.append_cancel_left hnonces)).1
            have hsigned := alone_moves hloaded (.signs call source _ hmethod hends)
            exact authenticated_alone (alone_advances hsigned (.passes call source _ hunused))
        | sharedSecretLegacy =>
          refine ⟨c.passed, ?_⟩
          by_cases htrusts : ∃ token hash, pyOr call.sourceToken none = some token ∧
              pyOr source.tokenHash none = some hash ∧ hash = g.tokenHash token
          · obtain ⟨token, hash, htoken, hhash, hsame⟩ := htrusts
            have hauth : authenticateSource g c.store call = (c.store, .ok source) := by
              simp [authenticateSource, hheader, hfound, husable, hmethod, htoken, hhash, hsame]
            rw [ingestCall, hauth]
            exact authenticated_alone
              (alone_moves hloaded (.trusts call source token hash hmethod htoken hhash hsame))
          · have hother : ∀ token hash, pyOr call.sourceToken none = some token →
                pyOr source.tokenHash none = some hash → hash ≠ g.tokenHash token :=
              fun token hash htoken hhash hsame => htrusts ⟨token, hash, htoken, hhash, hsame⟩
            have hauth : authenticateSource g c.store call =
                (c.store, .error (.refused invalidCredentials)) := by
              simp only [authenticateSource, hheader, hfound, husable, hmethod, Bool.true_eq_false,
                if_false]
              split
              · rename_i token hash htoken hhash
                exact if_neg (hother token hash htoken hhash)
              · rfl
            rw [ingestCall, hauth]
            exact refused_alone (alone_moves hloaded (.distrusts call source hmethod hother))
      · have hauth : authenticateSource g c.store call = (c.store, .error (.refused invalidCredentials)) := by
          simp only [authenticateSource, hheader, hfound, Bool.not_eq_true] at husable ⊢
          rw [if_pos husable]
        refine ⟨c.passed, ?_⟩
        rw [ingestCall, hauth]
        refine refused_alone (alone_moves hasked (.rejects call _ (congrArg Prod.snd hauth) ?_))
        intro id found hsome hsource
        obtain rfl := Option.some.inj (hheader.symm.trans hsome)
        rw [alone_committed, hfound] at hsource
        obtain rfl := Option.some.inj hsource
        simpa using husable

end Alone

end TraceQ.Ingestion
