import TraceQ.Api.Demo

/-! # What the verification makes of a tampered log

A flipped bit breaks the MAC of its own row and nothing else, and flipping it again repairs it. However
events arrive, are tampered with and verified, `verify_integrity` reports the rows whose bit has been
flipped an odd number of times, and raises one alert for each.
-/
namespace TraceQ.Properties
open Api Security Ingestion HashChain Tables
set_option autoImplicit false
set_option maxHeartbeats 250000

variable {settings : CryptoSettings} {url : Option String}

/-! ## Statement -/

/-- The step flips the bit of this event. -/
def flips (url : Option String) (ledger : Ledger) (eventId : String) : DemoStep → Bool
  | .tamper target | .demoTamper target => truthy url && decide (target = eventId) &&
      ledger.rows.any fun row => decide (row.raw.eventId = eventId)
  | _ => false

/-- An odd number of the steps flips it. -/
def oddlyFlipped (url : Option String) (settings : CryptoSettings) (eventId : String) :
    Ledger → List DemoStep → Bool
  | _, [] => false
  | ledger, step :: rest =>
      flips url ledger eventId step ^^ oddlyFlipped url settings eventId (demoStep url settings ledger step) rest

/-- A flipped bit is seen in the MAC. -/
def FlipSensitive (settings : CryptoSettings) : Prop :=
  ∀ (before after : Bytes) (byte : UInt8), settings.hmacSha256 (before ++ (byte ^^^ 1) :: after) ≠
    settings.hmacSha256 (before ++ byte :: after)

/-- AES-GCM appends its tag. -/
def TagAppended (settings : CryptoSettings) : Prop :=
  ∀ nonce content aad, settings.aesGcm nonce content aad ≠ []

def macFailure (row : SealedEvent) : IntegrityFailure :=
  ⟨row.raw.integrityStreamId, row.raw.eventId, row.raw.integritySeq, .macMismatch⟩

/-! ## One flipped row -/

def flippedRow (row : SealedEvent) : SealedEvent :=
  { row with payloadCiphertext := (flipLowestBit row.payloadCiphertext).getD [] }

/-- The row as it stands in a log whose events in `odd` are flipped. -/
def shown (odd : String → Bool) (row : SealedEvent) : SealedEvent :=
  if odd row.raw.eventId then flippedRow row else row

@[simp] theorem shown_raw (odd : String → Bool) (row : SealedEvent) : (shown odd row).raw = row.raw := by
  unfold shown
  split <;> rfl

@[simp] theorem shown_mac (odd : String → Bool) (row : SealedEvent) :
    (shown odd row).integrityMac = row.integrityMac := by
  unfold shown
  split <;> rfl

@[simp] theorem shown_prev (odd : String → Bool) (row : SealedEvent) :
    (shown odd row).prevIntegrityMac = row.prevIntegrityMac := by
  unfold shown
  split <;> rfl

theorem flippedRow_flippedRow {row : SealedEvent} (h : row.payloadCiphertext ≠ []) :
    flippedRow (flippedRow row) = row := by
  obtain ⟨raw, ciphertext, nonce, prev, mac, keyId⟩ := row
  cases ciphertext with
  | nil => exact absurd rfl h
  | cons first rest =>
    simp [flippedRow, flipLowestBit]

theorem flipRow_shown {odd : String → Bool} {row : SealedEvent} (h : row.payloadCiphertext ≠ [])
    (eventId : String) : flipRow eventId (shown odd row) =
      some (shown (fun id => odd id ^^ decide (eventId = id)) row) := by
  have hflip : ∀ other : SealedEvent, other.payloadCiphertext ≠ [] →
      flipRow other.raw.eventId other = some (flippedRow other) := by
    intro other hother
    rw [flipRow, if_pos rfl, flippedRow]
    cases hbytes : other.payloadCiphertext with
    | nil => exact absurd hbytes hother
    | cons first rest => rfl
  by_cases hid : eventId = row.raw.eventId
  · subst hid
    cases hodd : odd row.raw.eventId with
    | false =>
      have hrow : shown odd row = row := by rw [shown, hodd]; rfl
      rw [hrow, hflip row h, shown]
      simp [hodd]
    | true =>
      have hrow : shown odd row = flippedRow row := by rw [shown, hodd]; rfl
      have hne : (flippedRow row).payloadCiphertext ≠ [] := by
        cases hbytes : row.payloadCiphertext with
        | nil => exact absurd hbytes h
        | cons first rest => simp [flippedRow, hbytes, flipLowestBit]
      have hagain : flipRow row.raw.eventId (flippedRow row) = some row :=
        (hflip _ hne).trans (congrArg some (flippedRow_flippedRow h))
      rw [hrow, hagain, shown]
      simp [hodd]
  · rw [flipRow, if_neg (by rw [shown_raw]; exact Ne.symm hid), shown, shown]
    simp [hid]

theorem calculatedMac_flippedRow (hsensitive : FlipSensitive settings) {row : SealedEvent}
    (h : row.payloadCiphertext ≠ []) : calculatedMac settings (flippedRow row) ≠ calculatedMac settings row := by
  obtain ⟨raw, ciphertext, nonce, prev, mac, keyId⟩ := row
  cases ciphertext with
  | nil => exact absurd rfl h
  | cons first rest =>
    have hbit := hsensitive (framed 4 prev ++ framed 4 (integrityMetadata raw.event
      (fromColumn raw.occurredAt) (fromColumn raw.receivedAt) raw.integrityStreamId raw.integritySeq) ++
        bigEndian 8 (rest.length + 1)) (rest ++ framed 4 nonce ++ utf8 keyId) first
    simpa [calculatedMac, flippedRow, flipLowestBit, computeIntegrityMac, framed] using hbit

/-! ## What every step keeps -/

/-- The log is an honest one in which the events in `odd` are flipped. -/
structure Shown (settings : CryptoSettings) (honest : List SealedEvent) (odd : String → Bool)
    (ledger : Ledger) : Prop where
  chained : Chained settings { rows := honest, heads := ledger.heads }
  rows : ledger.rows = honest.map (shown odd)
  nonempty : ∀ row ∈ honest, row.payloadCiphertext ≠ []
  distinct : (honest.map (·.raw.eventId)).Nodup
  stored : ∀ eventId, odd eventId = true → ∃ row ∈ honest, row.raw.eventId = eventId

theorem clash_shown {row old : SealedEvent} {odd : String → Bool} : Clash row (shown odd old) ↔ Clash row old := by
  rw [Clash, Clash, shown_raw]

theorem ingest_shown (htag : TagAppended settings) {honest : List SealedEvent} {odd : String → Bool}
    {ledger : Ledger} (h : Shown settings honest odd ledger) (call : AppendCall) (ingestSeq : ℕ) :
    ∃ more, Shown settings (honest ++ more) odd (ingestStep settings ledger call ingestSeq) := by
  unfold ingestStep
  dsimp only
  generalize hrow : sealEvent settings (headFor ledger call) call.incoming call.receivedAt ingestSeq
    call.nonce = row
  split
  · exact ⟨[], by rwa [List.append_nil]⟩
  · rename_i hany
    have hfree : ∀ old ∈ honest, ¬ Clash row old := by
      intro old hold hclash
      refine hany (List.any_eq_true.mpr ⟨shown odd old, ?_, ?_⟩)
      · rw [h.rows]
        exact List.mem_map_of_mem hold
      · rw [decide_eq_true_iff]
        exact clash_shown.mpr hclash
    have hid : row.raw.integrityStreamId = (headFor ledger call).streamId := by rw [← hrow]; rfl
    have hseq : row.raw.integritySeq = (headFor ledger call).lastSeq + 1 := by rw [← hrow]; rfl
    have hread : ReadHead settings (headFor ledger call) { rows := honest, heads := ledger.heads } := by
      cases hhead : headOf ledger.heads call.streamId with
      | none =>
        rw [headFor, hhead]
        exact ⟨[], List.nil_prefix, rfl, rfl⟩
      | some head =>
        rw [headFor, hhead]
        exact ⟨_, List.prefix_rfl, h.chained.heads head (mem_of_headOf hhead).1⟩
    have hhead := headOf_rows h.chained hread fun old hold hnumber => by
      obtain ⟨hmem, hstream⟩ := List.mem_filter.mp hold
      exact hfree old hmem (.inr ⟨hid.trans (of_decide_eq_true hstream).symm, hseq.trans hnumber.symm⟩)
    refine ⟨[row], h.chained.append hrow.symm hhead, ?_, fun other hother => ?_, ?_, fun eventId hodd => ?_⟩
    · have hnew : odd row.raw.eventId ≠ true := fun hodd => by
        obtain ⟨old, hold, hsame⟩ := h.stored _ hodd
        exact hfree old hold (.inl hsame.symm)
      show ledger.rows ++ [row] = _
      rw [List.map_append, h.rows, List.map_singleton, shown, if_neg hnew]
    · rcases List.mem_append.mp hother with hold | hlast
      · exact h.nonempty other hold
      · rw [List.mem_singleton.mp hlast, ← hrow]
        exact htag _ _ _
    · rw [List.map_append, List.map_singleton]
      refine h.distinct.append (List.nodup_singleton _) (List.disjoint_singleton.mpr fun hmem => ?_)
      obtain ⟨old, hold, hsame⟩ := List.mem_map.mp hmem
      exact hfree old hold (.inl hsame.symm)
    · obtain ⟨old, hold, hsame⟩ := h.stored eventId hodd
      exact ⟨old, List.mem_append_left _ hold, hsame⟩

theorem mapM_flipRow {odd : String → Bool} {rows : List SealedEvent}
    (h : ∀ row ∈ rows, row.payloadCiphertext ≠ []) (eventId : String) :
    (rows.map (shown odd)).mapM (flipRow eventId) =
      some (rows.map (shown fun id => odd id ^^ decide (eventId = id))) := by
  induction rows with
  | nil => rfl
  | cons row rest ih =>
    rw [List.map_cons, List.mapM_cons, flipRow_shown (h row List.mem_cons_self),
      ih fun later hlater => h later (List.mem_cons_of_mem _ hlater)]
    rfl

/-- Flipping an event that is stored. -/
theorem flipStored_shown {honest : List SealedEvent} {odd : String → Bool} {ledger : Ledger}
    (h : Shown settings honest odd ledger) (target : String) : ∃ next,
      flipStored ledger target = .ok next ∧ Shown settings honest (fun id => odd id ^^ (decide (target = id) &&
        ledger.rows.any fun row => decide (row.raw.eventId = id))) next := by
  have hstored : ∀ id, (ledger.rows.any fun row => decide (row.raw.eventId = id)) = true ↔
      ∃ row ∈ honest, row.raw.eventId = id := by
    intro id
    rw [h.rows]
    simp
  refine ⟨{ ledger with rows := honest.map (shown fun id => odd id ^^ decide (target = id)) }, ?_, ?_⟩
  · rw [flipStored, h.rows, mapM_flipRow h.nonempty]
  · refine ⟨h.chained, List.map_congr_left fun row hrow => ?_, h.nonempty, h.distinct, fun eventId hodd => ?_⟩
    · have hin := (hstored row.raw.eventId).mpr ⟨row, hrow, rfl⟩
      rw [shown, shown, hin, Bool.and_true]
    · cases hold : odd eventId with
      | true => exact h.stored eventId hold
      | false =>
        rw [hold, Bool.false_xor, Bool.and_eq_true] at hodd
        exact (hstored eventId).mp hodd.2

theorem verify_shown {honest : List SealedEvent} {odd : String → Bool} {ledger : Ledger}
    (h : Shown settings honest odd ledger) : Shown settings honest odd (verifyIntegrity settings ledger).1 := by
  refine ⟨⟨h.chained.linked, ?_, ?_, ?_⟩, h.rows, h.nonempty, h.distinct, h.stored⟩
  · intro head hhead
    obtain ⟨old, hold, rfl⟩ := List.mem_map.mp hhead
    exact h.chained.heads old hold
  · intro row hrow
    simpa [verifyIntegrity] using h.chained.covered row hrow
  · simpa [verifyIntegrity, Function.comp_def] using h.chained.stream_ids

variable (url) in
theorem step_shown (htag : TagAppended settings) {honest : List SealedEvent} {odd : String → Bool}
    {ledger : Ledger} (h : Shown settings honest odd ledger) (step : DemoStep) :
    ∃ more, Shown settings (honest ++ more) (fun id => odd id ^^ flips url ledger id step)
      (demoStep url settings ledger step) := by
  cases step with
  | ingest call ingestSeq =>
    simp only [flips, Bool.xor_false]
    exact ingest_shown htag h call ingestSeq
  | verify =>
    simp only [flips, Bool.xor_false]
    exact ⟨[], by rw [List.append_nil]; exact verify_shown h⟩
  | tamper target =>
    refine ⟨[], ?_⟩
    rw [List.append_nil]
    simp only [flips, Bool.and_assoc, demoStep, tamper]
    cases htruthy : truthy url with
    | false =>
      simp only [Bool.false_and, Bool.xor_false]
      exact h
    | true =>
      obtain ⟨next, hnext, hshown⟩ := flipStored_shown h target
      simpa [hnext, Except.toOption] using hshown
  | demoTamper target =>
    refine ⟨[], ?_⟩
    rw [List.append_nil]
    simp only [flips, Bool.and_assoc, demoStep, demoTamper]
    cases htruthy : truthy url with
    | false =>
      simp only [Bool.false_and, Bool.xor_false]
      exact h
    | true =>
      cases hany : ledger.rows.any fun row => decide (row.raw.eventId = target) with
      | true =>
        obtain ⟨next, hnext, hshown⟩ := flipStored_shown h target
        simpa [hnext, Except.toOption] using hshown
      | false =>
        have hsame : (fun id => odd id ^^ (true && (decide (target = id) &&
            ledger.rows.any fun row => decide (row.raw.eventId = id)))) = odd := by
          funext id
          by_cases hid : target = id
          · rw [← hid, hany, Bool.and_false, Bool.and_false, Bool.xor_false]
          · simp [hid]
        rw [hsame]
        exact h

variable (url) in
theorem run_shown (htag : TagAppended settings) {honest : List SealedEvent} {odd : String → Bool}
    {ledger : Ledger} (h : Shown settings honest odd ledger) (steps : List DemoStep) :
    ∃ more, Shown settings (honest ++ more) (fun id => odd id ^^ oddlyFlipped url settings id ledger steps)
      (demoRun url settings ledger steps) := by
  induction steps generalizing honest odd ledger with
  | nil =>
    simp only [oddlyFlipped, Bool.xor_false]
    exact ⟨[], by rwa [List.append_nil]⟩
  | cons step rest ih =>
    obtain ⟨more, hstep⟩ := step_shown url htag h step
    obtain ⟨others, hrun⟩ := ih hstep
    refine ⟨more ++ others, ?_⟩
    rw [← List.append_assoc]
    simpa [oddlyFlipped, demoRun] using hrun

theorem shown_empty : Shown settings [] (fun _ => false) {} :=
  ⟨chained_empty, rfl, by simp, List.nodup_nil, by simp⟩

/-! ## What is reported -/

theorem streamRows_shown (odd : String → Bool) (rows : List SealedEvent) (streamId : String) :
    streamRows (rows.map (shown odd)) streamId = (streamRows rows streamId).map (shown odd) := by
  rw [streamRows, List.filter_map, streamRows]
  simp only [Function.comp_def, shown_raw]

theorem streamEvents_shown {honest : List SealedEvent} {odd : String → Bool} {ledger : Ledger}
    (h : Shown settings honest odd ledger) (streamId : String) :
    streamEvents ledger.rows streamId = (streamRows honest streamId).map (shown odd) := by
  have hsorted := sorted_of_linked (h.chained.linked streamId)
  have hshown : ((streamRows honest streamId).map (shown odd)).Pairwise
      fun a b => a.raw.integritySeq ≤ b.raw.integritySeq := by
    rw [List.pairwise_map]
    simp only [shown_raw]
    exact hsorted.imp fun hlt => hlt.le
  rw [streamEvents, h.rows]
  have hrows := streamRows_shown odd honest streamId
  rw [streamRows] at hrows
  rw [hrows]
  exact hshown.insertionSort_eq

/-- The failures of a log in which the events in `odd` are flipped. -/
theorem failures_shown (hsensitive : FlipSensitive settings) {honest : List SealedEvent}
    {odd : String → Bool} {ledger : Ledger} (h : Shown settings honest odd ledger) (streamId : String) :
    streamFailures settings ledger.rows streamId =
      ((streamRows ledger.rows streamId).filter fun row => odd row.raw.eventId).map macFailure := by
  have haudit : streamFailures settings ledger.rows streamId = (streamRows honest streamId).flatMap
      fun row => if odd row.raw.eventId then [macFailure row] else [] := by
    rw [streamFailures, streamEvents_shown h]
    apply audit_of_linked (h.chained.linked streamId)
    · exact shown_mac odd
    · intro row hrow hintact
      obtain ⟨hmem, hid⟩ := List.mem_filter.mp hrow
      have hstream : streamId = row.raw.integrityStreamId := (of_decide_eq_true hid).symm
      have hmac : calculatedMac settings row = row.integrityMac := hintact
      have hbroken : calculatedMac settings (flippedRow row) ≠ row.integrityMac :=
        fun heq => calculatedMac_flippedRow hsensitive (h.nonempty row hmem) (heq.trans hmac.symm)
      simp only [eventFailures, chainColumns, shown_raw, shown_prev, shown_mac, if_true, List.nil_append]
      cases hodd : odd row.raw.eventId with
      | true =>
        rw [shown, hodd, if_pos rfl, if_neg hbroken, if_pos rfl, hstream]
        rfl
      | false =>
        rw [shown, hodd, if_neg Bool.false_ne_true, if_pos hmac, if_neg Bool.false_ne_true]
  rw [haudit, h.rows, streamRows_shown]
  induction streamRows honest streamId with
  | nil => rfl
  | cons row rest ih =>
    rw [List.flatMap_cons, ih, List.map_cons, List.filter_cons, shown_raw]
    split
    · rw [List.map_cons, macFailure, macFailure, shown_raw]
      rfl
    · rfl

/-- What is reported are the flipped rows. -/
theorem mem_failures_shown (hsensitive : FlipSensitive settings) {honest : List SealedEvent}
    {odd : String → Bool} {ledger : Ledger} (h : Shown settings honest odd ledger) {failure : IntegrityFailure} :
    failure ∈ integrityFailures settings ledger ↔
      ∃ row ∈ honest, odd row.raw.eventId = true ∧ failure = macFailure row := by
  rw [mem_integrityFailures, failures_shown hsensitive h, h.rows, streamRows_shown]
  simp only [List.mem_map, List.mem_filter, streamRows, decide_eq_true_eq]
  constructor
  · rintro ⟨-, _, ⟨⟨row, ⟨hrow, -⟩, rfl⟩, hodd⟩, rfl⟩
    rw [shown_raw] at hodd
    exact ⟨row, hrow, hodd, by rw [macFailure, macFailure, shown_raw]⟩
  · rintro ⟨row, hrow, hodd, rfl⟩
    obtain ⟨head, hhead, hid⟩ := List.mem_map.mp (h.chained.covered row hrow)
    refine ⟨⟨head, hhead, hid⟩, shown odd row, ⟨⟨row, ⟨hrow, rfl⟩, rfl⟩, ?_⟩, ?_⟩
    · rw [shown_raw]
      exact hodd
    · rw [macFailure, macFailure, shown_raw]

/-- No event is reported twice. -/
theorem nodup_failures_shown (hsensitive : FlipSensitive settings) {honest : List SealedEvent}
    {odd : String → Bool} {ledger : Ledger} (h : Shown settings honest odd ledger) :
    ((integrityFailures settings ledger).map (·.eventId)).Nodup := by
  have hids : (ledger.rows.map (·.raw.eventId)).Nodup := by
    rw [h.rows, List.map_map]
    simpa [Function.comp_def] using h.distinct
  have hstreams : ((ledger.heads.map (·.streamId)).insertionSort fun a b => a ≤ b).Nodup :=
    (List.perm_insertionSort _ _).nodup_iff.mpr h.chained.stream_ids
  rw [integrityFailures, List.map_flatMap]
  refine List.nodup_flatMap.mpr ⟨fun streamId _ => ?_, hstreams.imp fun {streamId other} hne => ?_⟩
  · rw [failures_shown hsensitive h, List.map_map]
    exact hids.sublist ((List.filter_sublist.trans List.filter_sublist).map _)
  · rw [Function.onFun, failures_shown hsensitive h, failures_shown hsensitive h, List.map_map, List.map_map]
    intro eventId hin hin'
    obtain ⟨row, hrow, rfl⟩ := List.mem_map.mp hin
    obtain ⟨row', hrow', hsame⟩ := List.mem_map.mp hin'
    obtain ⟨hmem, hid⟩ := List.mem_filter.mp (List.mem_filter.mp hrow).1
    obtain ⟨hmem', hid'⟩ := List.mem_filter.mp (List.mem_filter.mp hrow').1
    have heq : row' = row := List.inj_on_of_nodup_map hids hmem' hmem hsame
    rw [heq] at hid'
    exact hne ((of_decide_eq_true hid).symm.trans (of_decide_eq_true hid'))

/-- However events arrive, are tampered with and verified: `verify_integrity` reports the stored events
whose bit is flipped, each once, as a MAC mismatch, and fails the streams that have one. -/
theorem flipped_events_reported (hsensitive : FlipSensitive settings) (htag : TagAppended settings)
    (steps : List DemoStep) :
    (∀ failure, failure ∈ (verifyIntegrity settings (demoRun url settings {} steps)).2 ↔
      ∃ row ∈ (demoRun url settings {} steps).rows,
        oddlyFlipped url settings row.raw.eventId {} steps = true ∧ failure = macFailure row) ∧
      ((verifyIntegrity settings (demoRun url settings {} steps)).2.map (·.eventId)).Nodup ∧
      ∀ head ∈ (verifyIntegrity settings (demoRun url settings {} steps)).1.heads,
        head.status = .integrityFailed ↔ ∃ row ∈ (demoRun url settings {} steps).rows,
          oddlyFlipped url settings row.raw.eventId {} steps = true ∧
            row.raw.integrityStreamId = head.streamId := by
  obtain ⟨honest, hshown⟩ := run_shown url htag shown_empty steps
  simp only [Bool.false_xor, List.nil_append] at hshown
  have hreported : ∀ failure, failure ∈ (verifyIntegrity settings (demoRun url settings {} steps)).2 ↔
      ∃ row ∈ (demoRun url settings {} steps).rows,
        oddlyFlipped url settings row.raw.eventId {} steps = true ∧ failure = macFailure row := by
    intro failure
    rw [verifyIntegrity, mem_failures_shown hsensitive hshown, hshown.rows]
    simp [macFailure]
  refine ⟨hreported, nodup_failures_shown hsensitive hshown, fun head hhead => ?_⟩
  rw [verified_status hhead]
  constructor
  · rintro ⟨failure, hfailure, hid⟩
    obtain ⟨row, hrow, hodd, rfl⟩ := (hreported failure).mp hfailure
    exact ⟨row, hrow, hodd, hid⟩
  · rintro ⟨row, hrow, hodd, hid⟩
    exact ⟨macFailure row, (hreported _).mpr ⟨row, hrow, hodd, rfl⟩, hid⟩

/-! ### Two events, one flipped twice -/

/-- The authenticated bytes are the MAC, and a ciphertext has a tag. -/
def taggedSettings : CryptoSettings where
  aesGcm nonce _ aad := nonce ++ aad ++ [0]
  hmacSha256 framed := framed
  aesKeyId := "key-1"

theorem taggedSettings_sensitive : FlipSensitive taggedSettings := by
  intro before after byte h
  have hbyte : byte ^^^ 1 = byte ^^^ 0 := by
    rw [UInt8.xor_zero]
    exact (List.cons.inj (List.append_cancel_left h)).1
  exact absurd ((UInt8.xor_right_inj byte).mp hbyte) (by decide)

theorem taggedSettings_tag : TagAppended taggedSettings := by
  intro nonce content aad h
  simp [taggedSettings] at h

def reading (eventId : String) : AppendCall where
  incoming :=
    { event :=
        { eventId := eventId
          occurredAt := 10
          source := { sourceId := "plc-1", sourceType := "plc" }
          payload := .machineState { equipmentId := "press-2", state := "running" } }
      occurredAt := ⟨10, some 0⟩
      same_instant := rfl }
  receivedAt := 20
  nonce := [1, 2, 3]

def tamperedRun : List DemoStep :=
  [.ingest (reading "e-1") 1, .tamper "e-1", .ingest (reading "e-2") 2, .demoTamper "e-1", .tamper "e-2", .verify]

theorem flipped_events_reported_second_event :
    (∀ failure, failure ∈ (verifyIntegrity taggedSettings
        (demoRun (some "postgresql://demo") taggedSettings {} tamperedRun)).2 ↔
      ∃ row ∈ (demoRun (some "postgresql://demo") taggedSettings {} tamperedRun).rows,
        oddlyFlipped (some "postgresql://demo") taggedSettings row.raw.eventId {} tamperedRun = true ∧
          failure = macFailure row) ∧
      ((verifyIntegrity taggedSettings
        (demoRun (some "postgresql://demo") taggedSettings {} tamperedRun)).2.map (·.eventId)).Nodup := by
  obtain ⟨hreported, honce, -⟩ :=
    flipped_events_reported taggedSettings_sensitive taggedSettings_tag tamperedRun
  exact ⟨hreported, honce⟩

/-! ## Alerts -/

/-- The step is a verification that reports the event. -/
def reports (settings : CryptoSettings) (ledger : Ledger) (eventId : String) : DemoStep → Bool
  | .verify => (verifyIntegrity settings ledger).2.any fun failure => decide (failure.eventId = eventId)
  | _ => false

/-- A verification of the run has reported it. -/
def reportedIn (url : Option String) (settings : CryptoSettings) (eventId : String) :
    Ledger → List DemoStep → Bool
  | _, [] => false
  | ledger, step :: rest => reports settings ledger eventId step ||
      reportedIn url settings eventId (demoStep url settings ledger step) rest

def alertOf (row : SealedEvent) : SecurityAlert where
  alertType := .rawLogIntegrityFailed
  targetId := some row.raw.eventId
  details := .integrity row.raw.integrityStreamId row.raw.integritySeq .macMismatch

/-- The alerts are those of the reported events, one for each. -/
structure Alerted (honest : List SealedEvent) (reported : String → Bool) (alerts : List SecurityAlert) : Prop where
  each : ∀ alert, alert ∈ alerts ↔ ∃ row ∈ honest, alert = alertOf row ∧ reported row.raw.eventId = true
  once : alerts.Nodup
  known : ∀ eventId, reported eventId = true → ∃ row ∈ honest, row.raw.eventId = eventId

/-- New rows are not reported yet. -/
theorem Alerted.more {honest more : List SealedEvent} {reported : String → Bool} {alerts : List SecurityAlert}
    (h : Alerted honest reported alerts) (hdistinct : ((honest ++ more).map (·.raw.eventId)).Nodup) :
    Alerted (honest ++ more) reported alerts := by
  refine ⟨fun alert => ?_, h.once, fun eventId hin => ?_⟩
  · rw [h.each]
    constructor
    · rintro ⟨row, hrow, halert⟩
      exact ⟨row, List.mem_append_left _ hrow, halert⟩
    · rintro ⟨row, hrow, halert, hin⟩
      obtain ⟨old, hold, hid⟩ := h.known _ hin
      have heq : old = row := List.inj_on_of_nodup_map hdistinct (List.mem_append_left _ hold) hrow hid
      exact ⟨row, heq ▸ hold, halert, hin⟩
  · obtain ⟨row, hrow, hid⟩ := h.known eventId hin
    exact ⟨row, List.mem_append_left _ hrow, hid⟩

/-- The query finds an alert of the event exactly if it was reported before. -/
theorem integrityAlert_macFailure {honest : List SealedEvent} {reported : String → Bool}
    {alerts : List SecurityAlert} (h : Alerted honest reported alerts) {row : SealedEvent} (hrow : row ∈ honest) :
    integrityAlert alerts (macFailure row) =
      if reported row.raw.eventId then none else some (alertOf row) := by
  have hfound : (alerts.any fun alert => decide (alert.alertType = .rawLogIntegrityFailed ∧
      alert.targetId = some (macFailure row).eventId)) = reported row.raw.eventId := by
    rw [Bool.eq_iff_iff, List.any_eq_true]
    constructor
    · rintro ⟨alert, halert, hmatch⟩
      obtain ⟨other, -, rfl, hin⟩ := (h.each alert).mp halert
      have hid : other.raw.eventId = row.raw.eventId := Option.some.inj (of_decide_eq_true hmatch).2
      rwa [hid] at hin
    · intro hin
      exact ⟨alertOf row, (h.each _).mpr ⟨row, hrow, rfl, hin⟩, decide_eq_true ⟨rfl, rfl⟩⟩
  rw [integrityAlert, hfound]
  rfl

theorem integrityAlert_injective (alerts : List SecurityAlert) (a b : IntegrityFailure) (alert : SecurityAlert)
    (ha : alert ∈ integrityAlert alerts a) (hb : alert ∈ integrityAlert alerts b) : a = b := by
  unfold integrityAlert at ha hb
  split at ha
  · cases ha
  · split at hb
    · cases hb
    · have hsame := (Option.some.inj ha).trans (Option.some.inj hb).symm
      simp only [SecurityAlert.mk.injEq, Option.some.injEq, AlertDetails.integrity.injEq, true_and] at hsame
      obtain ⟨hevent, hstream, hsequence, hreason⟩ := hsame
      cases a
      cases b
      simp only [IntegrityFailure.mk.injEq]
      exact ⟨hstream, hevent, hsequence, hreason⟩

theorem verify_alerted (hsensitive : FlipSensitive settings) {honest : List SealedEvent}
    {odd reported : String → Bool} {ledger : Ledger} (h : Shown settings honest odd ledger)
    (halerted : Alerted honest reported ledger.alerts) :
    Alerted honest (fun eventId => reported eventId || reports settings ledger eventId .verify)
      (verifyIntegrity settings ledger).1.alerts := by
  have hfailed : ∀ eventId, reports settings ledger eventId .verify = true ↔
      ∃ row ∈ honest, odd row.raw.eventId = true ∧ row.raw.eventId = eventId := by
    intro eventId
    simp only [reports, verifyIntegrity, List.any_eq_true, mem_failures_shown hsensitive h, decide_eq_true_eq]
    constructor
    · rintro ⟨_, ⟨row, hrow, hodd, rfl⟩, hid⟩
      exact ⟨row, hrow, hodd, hid⟩
    · rintro ⟨row, hrow, hodd, hid⟩
      exact ⟨macFailure row, ⟨row, hrow, hodd, rfl⟩, hid⟩
  have hnew : ∀ alert, alert ∈ (integrityFailures settings ledger).filterMap (integrityAlert ledger.alerts) ↔
      ∃ row ∈ honest, odd row.raw.eventId = true ∧ reported row.raw.eventId = false ∧ alert = alertOf row := by
    intro alert
    rw [List.mem_filterMap]
    constructor
    · rintro ⟨failure, hfailure, halert⟩
      obtain ⟨row, hrow, hodd, rfl⟩ := (mem_failures_shown hsensitive h).mp hfailure
      rw [integrityAlert_macFailure halerted hrow, Option.ite_none_left_eq_some] at halert
      exact ⟨row, hrow, hodd, by simpa using halert.1, (Option.some.inj halert.2).symm⟩
    · rintro ⟨row, hrow, hodd, hfresh, rfl⟩
      refine ⟨macFailure row, (mem_failures_shown hsensitive h).mpr ⟨row, hrow, hodd, rfl⟩, ?_⟩
      rw [integrityAlert_macFailure halerted hrow, hfresh, if_neg Bool.false_ne_true]
  refine ⟨fun alert => ?_, ?_, fun eventId hin => ?_⟩
  · simp only [verifyIntegrity, List.mem_append, hnew, halerted.each, Bool.or_eq_true]
    constructor
    · rintro (⟨row, hrow, halert, hin⟩ | ⟨row, hrow, hodd, -, halert⟩)
      · exact ⟨row, hrow, halert, .inl hin⟩
      · exact ⟨row, hrow, halert, .inr ((hfailed _).mpr ⟨row, hrow, hodd, rfl⟩)⟩
    · rintro ⟨row, hrow, halert, hin | hin⟩
      · exact .inl ⟨row, hrow, halert, hin⟩
      · obtain ⟨other, hother, hodd, hid⟩ := (hfailed _).mp hin
        have heq : other = row := List.inj_on_of_nodup_map h.distinct hother hrow hid
        rw [heq] at hodd
        cases hold : reported row.raw.eventId with
        | true => exact .inl ⟨row, hrow, halert, hold⟩
        | false => exact .inr ⟨row, hrow, hodd, hold, halert⟩
  · refine halerted.once.append ?_ fun alert hold hin => ?_
    · exact (nodup_failures_shown hsensitive h).of_map.filterMap (integrityAlert_injective ledger.alerts)
    · obtain ⟨row, -, halert, hknown⟩ := (halerted.each alert).mp hold
      obtain ⟨other, -, -, hfresh, halert'⟩ := (hnew alert).mp hin
      have hid : row.raw.eventId = other.raw.eventId :=
        Option.some.inj (congrArg SecurityAlert.targetId (halert.symm.trans halert'))
      rw [hid, hfresh] at hknown
      cases hknown
  · rcases Bool.or_eq_true .. ▸ hin with hold | hfresh
    · exact halerted.known eventId hold
    · obtain ⟨row, hrow, -, hid⟩ := (hfailed eventId).mp hfresh
      exact ⟨row, hrow, hid⟩

/-- Nothing else writes alerts. -/
theorem demoStep_alerts {ledger : Ledger} {step : DemoStep} (h : step ≠ .verify) :
    (demoStep url settings ledger step).alerts = ledger.alerts := by
  have hflip : ∀ target, (flipStored ledger target).toOption.getD ledger = ledger ∨
      ∃ rows, (flipStored ledger target).toOption.getD ledger = { ledger with rows := rows } := by
    intro target
    unfold flipStored
    split
    · exact .inl rfl
    · exact .inr ⟨_, rfl⟩
  cases step with
  | ingest call ingestSeq =>
    simp only [demoStep, ingestStep]
    split <;> rfl
  | tamper target =>
    simp only [demoStep, tamper]
    split
    · rcases hflip target with hkept | ⟨rows, hkept⟩ <;> rw [hkept]
    · rfl
  | demoTamper target =>
    simp only [demoStep, demoTamper]
    split
    · split
      · rcases hflip target with hkept | ⟨rows, hkept⟩ <;> rw [hkept]
      · rfl
    · rfl
  | verify => exact absurd rfl h

theorem step_alerted (hsensitive : FlipSensitive settings) {honest more : List SealedEvent}
    {odd reported odd' : String → Bool} {ledger : Ledger} {step : DemoStep} (h : Shown settings honest odd ledger)
    (halerted : Alerted honest reported ledger.alerts)
    (hstep : Shown settings (honest ++ more) odd' (demoStep url settings ledger step)) :
    Alerted (honest ++ more) (fun id => reported id || reports settings ledger id step)
      (demoStep url settings ledger step).alerts := by
  by_cases hverify : step = .verify
  · subst hverify
    exact (verify_alerted hsensitive h halerted).more hstep.distinct
  · have hnone : ∀ id, reports settings ledger id step = false := by
      intro id
      cases step with
      | verify => exact absurd rfl hverify
      | _ => rfl
    simp only [hnone, Bool.or_false, demoStep_alerts hverify]
    exact halerted.more hstep.distinct

variable (url) in
theorem run_alerted (hsensitive : FlipSensitive settings) (htag : TagAppended settings)
    {honest : List SealedEvent} {odd reported : String → Bool} {ledger : Ledger}
    (h : Shown settings honest odd ledger) (halerted : Alerted honest reported ledger.alerts)
    (steps : List DemoStep) : ∃ more odd',
      Shown settings (honest ++ more) odd' (demoRun url settings ledger steps) ∧
        Alerted (honest ++ more) (fun id => reported id || reportedIn url settings id ledger steps)
          (demoRun url settings ledger steps).alerts := by
  induction steps generalizing honest odd reported ledger with
  | nil =>
    simp only [reportedIn, Bool.or_false]
    exact ⟨[], odd, by rwa [List.append_nil], by rwa [List.append_nil]⟩
  | cons step rest ih =>
    obtain ⟨more, hstep⟩ := step_shown url htag h step
    obtain ⟨others, odd', hrun, hend⟩ := ih hstep (step_alerted hsensitive h halerted hstep)
    refine ⟨more ++ others, odd', ?_, ?_⟩
    · rw [← List.append_assoc]
      exact hrun
    · rw [← List.append_assoc]
      simpa [reportedIn, demoRun, Bool.or_assoc] using hend

/-- The alerts of every run are those of the events some verification has reported, one for each, and say
where the event stands; later verifications add none for it, whatever becomes of it. -/
theorem one_alert_per_reported_event (hsensitive : FlipSensitive settings) (htag : TagAppended settings)
    (steps : List DemoStep) :
    (∀ alert, alert ∈ (demoRun url settings {} steps).alerts ↔
      ∃ row ∈ (demoRun url settings {} steps).rows,
        alert = alertOf row ∧ reportedIn url settings row.raw.eventId {} steps = true) ∧
      ((demoRun url settings {} steps).alerts.map (·.targetId)).Nodup := by
  have hstart : Alerted [] (fun _ => false) [] := ⟨by simp, List.nodup_nil, by simp⟩
  obtain ⟨honest, odd, hshown, halerted⟩ :=
    run_alerted url hsensitive htag shown_empty hstart steps
  simp only [Bool.false_or, List.nil_append] at hshown halerted
  refine ⟨fun alert => ?_, ?_⟩
  · rw [halerted.each, hshown.rows]
    simp [alertOf]
  · refine halerted.once.map_on fun a ha b hb hsame => ?_
    obtain ⟨row, hrow, rfl, -⟩ := (halerted.each a).mp ha
    obtain ⟨other, hother, rfl, -⟩ := (halerted.each b).mp hb
    rw [List.inj_on_of_nodup_map hshown.distinct hrow hother (Option.some.inj hsame)]

theorem one_alert_per_reported_event_flipped_back :
    ((demoRun (some "postgresql://demo") taggedSettings {}
      (tamperedRun ++ [.tamper "e-2", .verify, .tamper "e-2", .verify])).alerts.map (·.targetId)).Nodup :=
  (one_alert_per_reported_event taggedSettings_sensitive taggedSettings_tag _).2

end TraceQ.Properties
