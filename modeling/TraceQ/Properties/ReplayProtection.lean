import TraceQ.Ingestion.Requests
import TraceQ.Properties.RepeatedDeliveries

/-! # A signature passes once

The lock of the source row makes looking a nonce up and committing it one step for the requests of the
source, and a signature says which nonce it was made for. So no signature passes twice, however requests
interleave and whatever becomes of them afterwards.
-/
namespace TraceQ.Properties
open Ingestion Security Tables Transactions Relation Protocol
set_option autoImplicit false
set_option maxHeartbeats 250000

/-! ## Statement -/

structure ReplayProtected (w : RequestWorld) : Prop where
  /-- No two requests that passed carry one signature of a source, whatever its case. -/
  once : w.committed.passed.Pairwise fun a b =>
    a.sourceId = b.sourceId → a.signature.toLower ≠ b.signature.toLower
  /-- A nonce stays used, whatever becomes of the request that passed with it. -/
  consumed : ∀ r ∈ w.committed.passed, usedNonce w.committed.store r.sourceId r.nonce = true
  /-- The nonce of a request is still unused when it is inserted. -/
  unused : ∀ i call source nonce, w.flight i = some (.signed call source nonce) →
    usedNonce w.committed.store nonce.sourceId nonce.nonce = false

/-! ## Steps -/

/-- Every request that passed was signed, and no two used one nonce. -/
structure PassedSound (g : Gateway) (c : Passed) : Prop where
  valid : ∀ r ∈ c.passed, r.Valid g ∧ r.LineFree
  nonces : c.passed.Pairwise fun a b => a.sourceId = b.sourceId → a.nonce ≠ b.nonce
  consumed : ∀ r ∈ c.passed, usedNonce c.store r.sourceId r.nonce = true

/-- What a transaction knows of its request. -/
def KnowsRequest (g : Gateway) (c : Passed) : RequestTransaction → Prop
  | .asked call | .loaded call _ => call.LineFree
  | .signed call source nonce =>
      ((signedRequest call nonce).Valid g ∧ (signedRequest call nonce).LineFree) ∧
      nonce.sourceId = source.sourceId ∧ usedNonce c.store nonce.sourceId nonce.nonce = false
  | .refused _ _ | .authenticated _ _ | .elsewhere => True

/-- Two transactions have locked different sources. -/
def SourcesApart (l m : RequestTransaction) : Prop :=
  ∀ sourceId, l.locksSource = some sourceId → m.locksSource ≠ some sourceId

theorem sourcesApart_symm (l m : RequestTransaction) (h : SourcesApart l m) : SourcesApart m l :=
  fun sourceId hm hl => h sourceId hl hm

theorem sourcesApart_of_none {l : RequestTransaction} (h : l.locksSource = none)
    (m : RequestTransaction) : SourcesApart l m := by
  intro sourceId hl
  rw [h] at hl
  cases hl

section Steps
variable {g : Gateway} {w : RequestWorld} {i : ℕ} {l l' : RequestTransaction} {c : Passed}
  {next : Option RequestTransaction}

theorem knows_congr (hnonces : c.store.nonces = w.committed.store.nonces)
    (h : KnowsRequest g w.committed l) : KnowsRequest g c l := by
  cases l with
  | signed call source nonce =>
    obtain ⟨hvalid, hsource, hunused⟩ := h
    refine ⟨hvalid, hsource, ?_⟩
    rw [usedNonce, hnonces]
    exact hunused
  | _ => exact h

theorem PassedSound.congr (h : PassedSound g w.committed) (hpassed : c.passed = w.committed.passed)
    (hnonces : c.store.nonces = w.committed.store.nonces) : PassedSound g c := by
  constructor
  · rw [hpassed]
    exact h.valid
  · rw [hpassed]
    exact h.nonces
  · rw [hpassed]
    intro r hr
    rw [usedNonce, hnonces]
    exact h.consumed r hr

theorem recordRejectedAttempt_nonces (s : Store) (sourceId claimed : Option String)
    (error : TraceQError) : (recordRejectedAttempt s sourceId claimed error).1.nonces = s.nonces := by
  unfold recordRejectedAttempt
  split <;> rfl

theorem knows_begins (h : l.Begins) : KnowsRequest g c l ∧ ∀ m, SourcesApart l m := by
  cases h with
  | asked call hlines => exact ⟨hlines, sourcesApart_of_none rfl⟩
  | elsewhere => exact ⟨trivial, sourcesApart_of_none rfl⟩

theorem knows_moves (h : KnowsRequest g w.committed l) (hmove : RequestMoves g w i l l') :
    KnowsRequest g w.committed l' := by
  cases hmove with
  | loads => exact h
  | signs call source nonce hmethod hsigned =>
    obtain ⟨timestamp, text, signature, transportTime, secret, htimestamp, htext, hsignature, hunused,
      hsecret, hdigest, hnonces⟩ := authenticateHmac_ok hsigned
    obtain rfl : nonce = ⟨source.sourceId, text, transportTime⟩ :=
      (List.cons.inj (List.append_cancel_left hnonces)).1
    have hlines : call.LineFree := h
    refine ⟨⟨⟨secret, hsecret, ?_⟩, ?_, hlines.2 text htext⟩, rfl, hunused⟩
    · simpa only [signedRequest, htimestamp, hsignature, Option.getD_some] using hdigest
    · simp only [signedRequest, htimestamp, Option.getD_some]
      exact hlines.1 timestamp htimestamp
  | _ => trivial

theorem sourcesApart_moves (h : w.Others i (SourcesApart l)) (hmove : RequestMoves g w i l l') :
    w.Others i (SourcesApart l') := by
  cases hmove with
  | loads call sourceId source hheader hfound hfree husable =>
    have hid : source.sourceId = sourceId := by simpa using List.find?_some hfound
    intro j m hj hm id hlock
    obtain rfl : sourceId = id := hid.symm.trans (Option.some.inj hlock)
    exact hfree j m hj hm
  | signs => exact h
  | trusts call source token hash hmethod =>
    intro j m hj hm id hlock
    rw [RequestTransaction.locksSource, if_pos hmethod] at hlock
    exact h j m hj hm id hlock
  | _ => exact fun j m _ _ => sourcesApart_of_none rfl m

/-- The request that commits its nonce is sound beside those that have passed. -/
theorem PassedSound.passes (h : PassedSound g w.committed) {call : IngestCall} {source : EventSource}
    {nonce : TransportNonce} (hknows : KnowsRequest g w.committed (.signed call source nonce)) :
    PassedSound g
      { store := { w.committed.store with nonces := w.committed.store.nonces ++ [nonce] }
        passed := w.committed.passed ++ [signedRequest call nonce] } := by
  obtain ⟨hvalid, -, hunused⟩ := hknows
  constructor
  · intro r hr
    rcases List.mem_append.mp hr with hold | hlast
    · exact h.valid r hold
    · rw [List.mem_singleton.mp hlast]
      exact hvalid
  · refine List.pairwise_append.mpr ⟨h.nonces, List.pairwise_singleton _ _, fun a ha b hb => ?_⟩
    obtain rfl := List.mem_singleton.mp hb
    intro hsource hnonce
    have hused := h.consumed a ha
    rw [hsource, hnonce] at hused
    exact Bool.false_ne_true (hunused.symm.trans hused)
  · intro r hr
    rw [usedNonce_append rfl]
    rcases List.mem_append.mp hr with hold | hlast
    · rw [h.consumed r hold, Bool.true_or]
    · rw [List.mem_singleton.mp hlast]
      simp [signedRequest]

theorem passedSound_commits (h : PassedSound g w.committed) (hknows : KnowsRequest g w.committed l)
    (hcommit : RequestCommits g w i l c next) : PassedSound g c := by
  cases hcommit with
  | alerts => exact h.congr rfl rfl
  | passes call source nonce hkey => exact h.passes hknows
  | records call error => exact h.congr rfl (recordRejectedAttempt_nonces _ _ _ _)
  | ingests call source store hnonces => exact h.congr rfl hnonces
  | edits store hnonces => exact h.congr rfl hnonces

/-- The nonce that a commit uses belongs to the source it has locked. -/
theorem others_commits (hpairs : w.Others i (SourcesApart l))
    (heach : ∀ j m, w.flight j = some m → KnowsRequest g w.committed m)
    (hknows : KnowsRequest g w.committed l) (hcommit : RequestCommits g w i l c next) :
    w.Others i (KnowsRequest g c) := by
  intro j m hj hm
  have hother := heach j m hm
  cases hcommit with
  | passes call source nonce hkey =>
    cases m with
    | signed call' source' nonce' =>
      obtain ⟨hvalid, hsource, hunused⟩ := hother
      obtain ⟨-, hown, -⟩ := hknows
      refine ⟨hvalid, hsource, ?_⟩
      have hne : nonce.sourceId ≠ nonce'.sourceId := by
        intro heq
        exact hpairs j _ hj hm source.sourceId rfl (by rw [← hown, heq, hsource]; rfl)
      rw [usedNonce_append rfl, hunused]
      simp [hne]
    | _ => exact hother
  | alerts => exact knows_congr rfl hother
  | records call error => exact knows_congr (recordRejectedAttempt_nonces _ _ _ _) hother
  | ingests call source store hnonces => exact knows_congr hnonces hother
  | edits store hnonces => exact knows_congr hnonces hother

theorem next_commits (hpairs : w.Others i (SourcesApart l)) (hcommit : RequestCommits g w i l c next) :
    ∀ m, next = some m → KnowsRequest g c m ∧ w.Others i (SourcesApart m) := by
  intro m hm
  cases hcommit with
  | alerts =>
    cases hm
    exact ⟨trivial, fun j n _ _ => sourcesApart_of_none rfl n⟩
  | passes call source nonce hkey =>
    cases hm
    refine ⟨trivial, fun j n hj hn id hlock => hpairs j n hj hn id ?_⟩
    rw [RequestTransaction.locksSource] at hlock
    split at hlock
    · exact hlock
    · cases hlock
  | _ => cases hm

end Steps

abbrev RequestsHeld (g : Gateway) : RequestWorld → Prop :=
  Held (PassedSound g) (KnowsRequest g) SourcesApart

theorem requestsHeld_step {g : Gateway} {w w' : RequestWorld} (h : RequestsHeld g w)
    (hstep : (requestProtocol g).Step w w') : RequestsHeld g w' := by
  refine held_step sourcesApart_symm (fun c l _ hl => knows_begins hl) ?_ ?_ h hstep
  · intro w i l l' hw running hmove
    have hmoves : RequestMoves g w i l l' := hmove
    exact ⟨knows_moves (hw.each i l running) hmoves, sourcesApart_moves (hw.pairs i l running) hmoves⟩
  · intro w i l c next hw running hcommit
    have hcommits : RequestCommits g w i l c next := hcommit
    have hknows := hw.each i l running
    have hpairs := hw.pairs i l running
    exact ⟨passedSound_commits hw.shared hknows hcommits, others_commits hpairs hw.each hknows hcommits,
      next_commits hpairs hcommits⟩

/-- In every interleaving of requests and other calls a signature of a source passes at most once, and
a signature says which timestamp, nonce and body it was made for. -/
theorem replays_refused (g : Gateway) (hcollisions : ∀ secret, Function.Injective (g.hexdigest secret)) :
    (∀ (start : Store) (w : RequestWorld),
      (requestProtocol g).Reachable (World.quiet { store := start }) w → ReplayProtected w) ∧
    ∀ a b : SignedRequest, a.LineFree → b.LineFree →
      a.Valid g → b.Valid g → a.sourceId = b.sourceId →
      a.signature.toLower = b.signature.toLower → a.timestamp = b.timestamp ∧ a.nonce = b.nonce ∧
        canonicalJsonBytes a.body = canonicalJsonBytes b.body := by
  refine ⟨fun start w h => ?_, fun a b => signature_determines hcollisions⟩
  have hstart : PassedSound g { store := start } := ⟨nofun, .nil, nofun⟩
  have hheld := invariant (P := RequestsHeld g) (fun _ _ hw hstep => requestsHeld_step hw hstep)
    (held_quiet hstart) h
  refine ⟨?_, hheld.shared.consumed, fun i call source nonce hsigned => ?_⟩
  · refine hheld.shared.nonces.imp_of_mem fun {a b} ha hb hnonces hsource hsignature => ?_
    obtain ⟨havalid, halines⟩ := hheld.shared.valid a ha
    obtain ⟨hbvalid, hblines⟩ := hheld.shared.valid b hb
    exact hnonces hsource
      (signature_determines hcollisions halines hblines havalid hbvalid hsource hsignature).2.1
  · exact (hheld.each i _ hsigned).2.2

/-! ### A replay between two requests -/

def firstDigest : String := "b993c26f01531ff66d0e3488f016a8663096e363a6fce5d3d04444ae7a7dee56"

def secondDigest : String := "fe87c970629eed415776b77b8932fd7d771a83db7098e56306c27fc9f9b04231"

/-- The digests of two requests, and for other bytes a text that begins otherwise. -/
def freeDigest (signed : Bytes) : String :=
  if signed = signedBytes "20" "n-1" stateBody then firstDigest
  else if signed = signedBytes "20" "n-2" stateBody then secondDigest
  else String.ofList ('-' :: signed.map fun byte => Char.ofNat byte.toNat)

def freeGateway : Gateway := { plainGateway with hexdigest := fun _ signed => freeDigest signed }

theorem freeDigest_cases (signed : Bytes) :
    (signed = signedBytes "20" "n-1" stateBody ∧ freeDigest signed = firstDigest) ∨
      (signed = signedBytes "20" "n-2" stateBody ∧ freeDigest signed = secondDigest) ∨
      freeDigest signed = String.ofList ('-' :: signed.map fun byte => Char.ofNat byte.toNat) := by
  by_cases hfirst : signed = signedBytes "20" "n-1" stateBody
  · exact .inl ⟨hfirst, if_pos hfirst⟩
  · by_cases hsecond : signed = signedBytes "20" "n-2" stateBody
    · exact .inr (.inl ⟨hsecond, (if_neg hfirst).trans (if_pos hsecond)⟩)
    · exact .inr (.inr ((if_neg hfirst).trans (if_neg hsecond)))

theorem freeDigest_injective : Function.Injective freeDigest := by
  have hchar : Function.Injective fun byte : UInt8 => Char.ofNat byte.toNat := by
    intro a b h
    have hvalid : ∀ byte : UInt8, byte.toNat.isValidChar := fun byte => .inl (by
      have := byte.toNat_lt
      omega)
    have hnat := congrArg Char.toNat h
    rw [Char.toNat_ofNat, Char.toNat_ofNat, if_pos (hvalid a), if_pos (hvalid b)] at hnat
    exact UInt8.toNat_inj.mp hnat
  have hother : ∀ digest ∈ [firstDigest, secondDigest], ∀ signed : Bytes,
      digest ≠ String.ofList ('-' :: signed.map fun byte => Char.ofNat byte.toNat) := by
    intro digest hdigest signed h
    have hdash : ∀ digest ∈ [firstDigest, secondDigest], digest.toList.head? ≠ some '-' := by decide +kernel
    exact hdash digest hdigest (by rw [h, String.toList_ofList]; rfl)
  have hapart : firstDigest ≠ secondDigest := by decide
  intro a b h
  rcases freeDigest_cases a with ⟨ha, hdigest⟩ | ⟨ha, hdigest⟩ | hdigest <;>
    rcases freeDigest_cases b with ⟨hb, hdigest'⟩ | ⟨hb, hdigest'⟩ | hdigest' <;>
      rw [hdigest, hdigest'] at h
  · exact ha.trans hb.symm
  · exact absurd h hapart
  · exact absurd h (hother _ (by simp) _)
  · exact absurd h.symm hapart
  · exact ha.trans hb.symm
  · exact absurd h (hother _ (by simp) _)
  · exact absurd h.symm (hother _ (by simp) _)
  · exact absurd h.symm (hother _ (by simp) _)
  · exact hchar.list_map (List.cons.inj (String.ofList_inj.mp h)).2

section Signed
variable {nonce digest : String} (hnonce : pyOr (some nonce) none = some nonce)
  (hsignature : pyOr (some digest) none = some digest)
include hnonce hsignature

/-- A request that is signed under a new nonce passes. -/
theorem signedCall_passes (hascii : (digest.toList.any fun c => 127 < c.toNat) = false)
    (hdigest : freeDigest (signedBytes "20" nonce stateBody) = digest.toLower) (hlength : ¬ 128 < nonce.length)
    {s : Store} (hfresh : usedNonce s "plc-1" nonce = false) :
    authenticateHmac freeGateway s (signedCall nonce digest) signingSource =
      ({ s with nonces := s.nonces ++ [⟨"plc-1", nonce, 20000000⟩] }, .ok signingSource) := by
  have htime : parseTransportTime freeGateway "20" = some 20000000 := by decide +kernel
  have hunused : usedNonce s signingSource.sourceId nonce = false := hfresh
  have hsecret : pyOr (freeGateway.hmacSecret signingSource.sourceId) none = some "secret" := by decide
  have htimestamp : pyOr (some "20") none = some "20" := by decide
  have hwindow : ¬ freeGateway.timestampTolerance < |(21000000 : Instant) - 20000000| := by decide
  have hbytes : freeGateway.hexdigest "secret" (signedBytes "20" nonce stateBody) = digest.toLower := hdigest
  simp only [authenticateHmac, signedCall, htimestamp, hnonce, hsignature, htime, if_neg hwindow, hunused,
    hsecret, hascii, hbytes, hlength, Bool.false_eq_true, if_false, ne_eq, not_true_eq_false]
  rfl

/-- A request under a nonce that was used is a replay. -/
theorem signedCall_replays {s : Store} (hused : usedNonce s "plc-1" nonce = true) :
    authenticateHmac freeGateway s (signedCall nonce digest) signingSource =
      ({ s with alerts := s.alerts ++ [{ alertType := .replayAttempt, sourceId := some "plc-1" }] },
        .error (.refused replayAttempt)) := by
  have htime : parseTransportTime freeGateway "20" = some 20000000 := by decide +kernel
  have hseen : usedNonce s signingSource.sourceId nonce = true := hused
  have htimestamp : pyOr (some "20") none = some "20" := by decide
  have hwindow : ¬ freeGateway.timestampTolerance < |(21000000 : Instant) - 20000000| := by decide
  simp only [authenticateHmac, signedCall, htimestamp, hnonce, hsignature, htime, if_neg hwindow, hseen, if_true]
  rfl

end Signed

def firstCall : IngestCall := signedCall "n-1" firstDigest

def secondCall : IngestCall := signedCall "n-2" secondDigest

theorem signedCall_lineFree (nonce digest : String) (h : LineFree nonce) : (signedCall nonce digest).LineFree := by
  simp [IngestCall.LineFree, LineFree, signedCall] at h ⊢
  exact h

/-- Both requests have passed, and a replay of the first has raised its alert. -/
def passedTwice : Passed where
  store :=
    { sources := [signingSource]
      nonces := [⟨"plc-1", "n-1", 20000000⟩, ⟨"plc-1", "n-2", 20000000⟩]
      alerts := [{ alertType := .replayAttempt, sourceId := some "plc-1" }] }
  passed := [signedRequest firstCall ⟨"plc-1", "n-1", 20000000⟩, signedRequest secondCall ⟨"plc-1", "n-2", 20000000⟩]

theorem replays_refused_replayed : ReplayProtected
    (both passedTwice (.authenticated secondCall signingSource) (.refused firstCall replayAttempt)) := by
  refine (replays_refused freeGateway fun _ => freeDigest_injective).1 { sources := [signingSource] } _ ?_
  have hasked := alone_begins (p := requestProtocol freeGateway) { store := { sources := [signingSource] } }
    (.asked firstCall (signedCall_lineFree _ _ (by simp [LineFree])))
  have hloaded := alone_moves hasked (.loads _ "plc-1" signingSource rfl rfl (others_alone _ _ _) rfl)
  have hsigned := alone_moves hloaded (.signs _ _ _ rfl
    (signedCall_passes rfl rfl (by decide +kernel) (by decide +kernel) (by decide) rfl))
  have hpassed := alone_advances hsigned (.passes _ _ _ rfl)
  have hstored := alone_commits hpassed (.ingests firstCall signingSource _ rfl)
  have hasked' := hstored.trans (alone_begins _ (.asked secondCall (signedCall_lineFree _ _ (by simp [LineFree]))))
  have hloaded' := alone_moves hasked' (.loads _ "plc-1" signingSource rfl rfl (others_alone _ _ _) rfl)
  have hsigned' := alone_moves hloaded' (.signs _ _ _ rfl
    (signedCall_passes rfl rfl (by decide +kernel) (by decide +kernel) (by decide) (by decide)))
  have hpassed' := alone_advances hsigned' (.passes _ _ _ (by decide))
  -- the replay runs beside the rest of the second request
  have hreplay := both_begins hpassed' (.asked firstCall (signedCall_lineFree _ _ (by simp [LineFree])))
  have hreloaded := both_moves hreplay (.loads _ "plc-1" signingSource rfl rfl (others_both nofun) rfl)
  exact both_advances hreloaded (.alerts _ _ _ rfl (signedCall_replays rfl rfl (by decide)))

end TraceQ.Properties
