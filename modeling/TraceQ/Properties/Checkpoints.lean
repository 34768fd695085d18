import TraceQ.Properties.MacFraming
import TraceQ.Properties.Tampering
import TraceQ.Security.Checkpoints

/-! # What a checkpoint holds fast

However checkpoints and calls of `ingest_event` interleave, a committed checkpoint is that of the first
events of its stream. Whoever keeps one finds every later change of these events: rows that verify and
still have its MAC at its number are the rows that were signed, in every column the MACs bind.
-/
namespace TraceQ.Properties
open Projections Security Tables HashChain Ingestion Transactions
set_option autoImplicit false
set_option maxHeartbeats 250000

variable {settings : CryptoSettings} {keys : CheckpointKeys}

/-! ## Runs -/

/-- The checkpoint is that of the first events of its stream. -/
structure Marks (settings : CryptoSettings) (ledger : Ledger) (k : IntegrityCheckpoint) : Prop where
  positive : 0 < k.sequence
  present : k.sequence ≤ (streamRows ledger.rows k.streamId).length
  root : k.rootMac =
    endMac (chainColumns settings) [] ((streamRows ledger.rows k.streamId).take k.sequence)

/-- The configured key has signed what the checkpoint says. -/
def Issued (keys : CheckpointKeys) (k : IntegrityCheckpoint) : Prop :=
  ∃ sign random, keys.loadPrivateKey (keys.checkpointPrivateKeyPemB64.getD "") = some (.p256 sign) ∧
    k.classicSignature = sign random (checkpointPayload k.streamId k.sequence k.rootMac)

theorem Marks.mono {ledger ledger' : Ledger} {k : IntegrityCheckpoint} (h : Marks settings ledger k)
    (hrows : ledger.rows <+: ledger'.rows) : Marks settings ledger' k := by
  obtain ⟨more, hmore⟩ : streamRows ledger.rows k.streamId <+: streamRows ledger'.rows k.streamId :=
    hrows.filter _
  refine ⟨h.positive, ?_, ?_⟩
  · rw [← hmore, List.length_append]
    exact h.present.trans (Nat.le_add_right _ _)
  · rw [← hmore, List.take_append_of_le_length h.present]
    exact h.root

/-! ### The appends inside -/

theorem checking_step_view {w w' : World CheckedLedger Checking} (h : (checking settings keys).Step w w') :
    (appending settings).Step (appendsOf w) (appendsOf w') ∨ appendsOf w' = appendsOf w := by
  cases h with
  | begins i l idle hl =>
    have hidle : (appendsOf w).flight i = none := by
      simp only [appendsOf, Protocol.view, idle, Option.bind_none]
    rcases hl with ⟨call, rfl⟩ | ⟨streamId, rfl⟩
    · left
      have hbegins : (appending settings).begins (.begun call) := ⟨call, rfl⟩
      rw [appendsOf_set]
      exact .begins i (.begun call) hidle hbegins
    · right
      apply Protocol.view_set_same
      rw [idle]
      rfl
  | moves i l l' running hl =>
    have hshown := Protocol.view_running (f := CheckedLedger.ledger) (g := Checking.append?) running
    cases (show CheckingMoves settings keys w i l l' from hl) with
    | append call call' hmove =>
      left
      rw [appendsOf_set]
      exact .moves i call call' hshown hmove
    | signs streamId random checkpoint hsigned =>
      right
      apply Protocol.view_set_same
      rw [running]
      rfl
  | commits i l s l' running hl =>
    have hshown := Protocol.view_running (f := CheckedLedger.ledger) (g := Checking.append?) running
    cases (show CheckingCommits w l s l' from hl) with
    | append call ledger next hcommit =>
      left
      have hnext : (next.map Checking.append).bind Checking.append? = next := by cases next <;> rfl
      rw [appendsOf_set, hnext]
      exact .commits i call ledger next hshown hcommit
    | checkpoint checkpoint =>
      right
      have hsame := Protocol.view_set_same (w := w) (i := i) (l := none) (f := CheckedLedger.ledger)
        (g := Checking.append?) (by rw [running]; rfl)
      exact hsame
  | rollsBack i l running hl =>
    have hshown := Protocol.view_running (f := CheckedLedger.ledger) (g := Checking.append?) running
    cases l with
    | append call =>
      left
      rw [appendsOf_set]
      exact .rollsBack i call hshown trivial
    | _ =>
      right
      apply Protocol.view_set_same
      rw [running]
      rfl

/-- Checkpoints do not show in the appends. -/
theorem checking_appends {w : World CheckedLedger Checking}
    (h : (checking settings keys).Reachable (World.quiet {}) w) :
    (appending settings).Reachable (World.quiet {}) (appendsOf w) :=
  Protocol.reachable_view (fun _ _ => checking_step_view) h

/-- A head is committed with a row of its stream. -/
theorem heads_have_rows {w : World Ledger Append}
    (h : (appending settings).Reachable (World.quiet {}) w) :
    ∀ head ∈ w.committed.heads, streamRows w.committed.rows head.streamId ≠ [] := by
  have hheld := Protocol.invariant (P := Protocol.Held
    (fun ledger => (ledger.heads.map (·.streamId)).Nodup ∧
      ∀ head ∈ ledger.heads, streamRows ledger.rows head.streamId ≠ [])
    (fun _ _ => True) fun _ _ => True) ?_ (Protocol.held_quiet (by simp)) h
  · exact hheld.shared.2
  · intro w w' hw hstep
    refine hw.step (fun _ _ _ => trivial) (fun _ _ => ⟨trivial, fun _ => trivial⟩)
      (fun _ _ _ _ _ => ⟨trivial, fun _ _ _ _ => trivial⟩) ?_ hstep
    intro i l ledger l' hl hcommit
    cases (show AppendCommits w l ledger l' from hcommit) with
    | commit row isNew =>
      refine ⟨⟨?_, fun head hhead => ?_⟩, fun _ _ _ _ => trivial, fun _ hm => by cases hm⟩
      · apply nodup_upsert
        · rfl
        · exact fun _ => rfl
        · exact hw.shared.1
      · by_cases hid : head.streamId = row.raw.integrityStreamId
        · show streamRows (w.committed.rows ++ [row]) _ ≠ []
          rw [hid, streamRows_concat_self]
          simp
        · have hold : head ∈ w.committed.heads := by
            refine (mem_upsert_other ?_ ?_ ?_).mp hhead
            · rfl
            · exact fun _ => rfl
            · exact hid
          show streamRows (w.committed.rows ++ [row]) _ ≠ []
          rw [streamRows_concat_other (Ne.symm hid)]
          exact hw.shared.2 head hold

/-! ### The checkpoints -/

/-- What is known of a checkpoint that is added or committed. -/
def Fast (settings : CryptoSettings) (keys : CheckpointKeys) (ledger : Ledger) (k : IntegrityCheckpoint) :
    Prop :=
  Marks settings ledger k ∧ Issued keys k

theorem created_fast {ledger : Ledger} (hchained : Chained settings ledger)
    (hrows : ∀ head ∈ ledger.heads, streamRows ledger.rows head.streamId ≠ []) {streamId : String}
    {random : Bytes} {k : IntegrityCheckpoint}
    (h : createClassicCheckpoint keys ledger.heads streamId random = .ok k) : Fast settings keys ledger k := by
  obtain ⟨state, sign, hstate, -, hkey, rfl⟩ := createClassicCheckpoint_ok.mp h
  obtain ⟨hmem, rfl⟩ := mem_of_headOf hstate
  obtain ⟨hseq, hmac⟩ := hchained.heads state hmem
  refine ⟨⟨?_, hseq.le, ?_⟩, sign, random, hkey, rfl⟩
  · show 0 < state.lastSeq
    rw [hseq]
    exact List.length_pos_of_ne_nil (hrows state hmem)
  · show state.lastMac = endMac _ _ (List.take state.lastSeq _)
    rw [hseq, List.take_length, hmac]

/-- Committed checkpoints, and those that wait for their commit. -/
abbrev FastWorld (settings : CryptoSettings) (keys : CheckpointKeys) (w : World CheckedLedger Checking) :
    Prop :=
  Protocol.Held (fun checked => ∀ k ∈ checked.checkpoints, Fast settings keys checked.ledger k)
    (fun checked l => ∀ k, l = .added k → Fast settings keys checked.ledger k) (fun _ _ => True) w

theorem fast_step {w w' : World CheckedLedger Checking} (hchained : Chained settings w.committed.ledger)
    (hrows : ∀ head ∈ w.committed.ledger.heads, streamRows w.committed.ledger.rows head.streamId ≠ [])
    (h : FastWorld settings keys w) (hstep : (checking settings keys).Step w w') :
    FastWorld settings keys w' := by
  refine h.step (fun _ _ _ => trivial) ?_ ?_ ?_ hstep
  · rintro l (⟨call, rfl⟩ | ⟨streamId, rfl⟩)
    · exact ⟨fun k hk => (by cases hk), fun _ => trivial⟩
    · exact ⟨fun k hk => (by cases hk), fun _ => trivial⟩
  · intro i l l' hl hmove
    refine ⟨?_, fun _ _ _ _ => trivial⟩
    cases (show CheckingMoves settings keys w i l l' from hmove) with
    | append call call' hcall => exact fun k hk => by cases hk
    | signs streamId random checkpoint hsigned =>
      rintro k hk
      cases hk
      exact created_fast hchained hrows hsigned
  · intro i l checked l' hl hcommit
    cases (show CheckingCommits w l checked l' from hcommit) with
    | append call ledger next hcall =>
      have hmore : w.committed.ledger.rows <+: ledger.rows := by
        cases hcall with
        | commit row isNew => exact List.prefix_append _ _
      refine ⟨fun k hk => ?_, fun j m _ hm k hk => ?_, fun m hm => ⟨fun k hk => ?_, fun _ _ _ _ => trivial⟩⟩
      · exact ⟨(h.shared k hk).1.mono hmore, (h.shared k hk).2⟩
      · exact ⟨(h.each j m hm k hk).1.mono hmore, (h.each j m hm k hk).2⟩
      · subst hk
        cases next <;> cases hm
    | checkpoint checkpoint =>
      refine ⟨fun k hk => ?_, fun j m _ hm => h.each j m hm, fun m hm => by cases hm⟩
      rcases List.mem_append.mp hk with hold | hlast
      · exact h.shared k hold
      · rw [List.mem_singleton.mp hlast]
        exact h.each i _ hl checkpoint rfl

theorem fast_of_reachable {w : World CheckedLedger Checking}
    (h : (checking settings keys).Reachable (World.quiet {}) w) : FastWorld settings keys w := by
  induction h with
  | refl => exact Protocol.held_quiet (by simp)
  | tail hbefore hstep ih =>
    have happends := checking_appends hbefore
    exact fast_step (appends_chained happends) (heads_have_rows happends) ih hstep

/-- In every run each committed checkpoint is signed and is that of the first events of its stream, which
has them still; its signed bytes are those of no other stream, number or MAC. -/
theorem checkpoints_mark_prefixes {w : World CheckedLedger Checking}
    (h : (checking settings keys).Reachable (World.quiet {}) w) :
    (∀ k ∈ w.committed.checkpoints, Marks settings w.committed.ledger k ∧ Issued keys k) ∧
      (∀ k ∈ w.committed.checkpoints, ∀ head ∈ w.committed.ledger.heads, head.streamId = k.streamId →
        k.sequence ≤ head.lastSeq ∧ (k.sequence = head.lastSeq → k.rootMac = head.lastMac)) ∧
      ∀ k ∈ w.committed.checkpoints, ∀ k' ∈ w.committed.checkpoints,
        checkpointPayload k.streamId k.sequence k.rootMac =
            checkpointPayload k'.streamId k'.sequence k'.rootMac ↔
          k.streamId = k'.streamId ∧ k.sequence = k'.sequence := by
  have hfast := (fast_of_reachable h).shared
  have hchained : Chained settings w.committed.ledger := appends_chained (checking_appends h)
  refine ⟨hfast, fun k hk head hhead hid => ?_, fun k hk k' hk' => ⟨fun hpayload => ?_, ?_⟩⟩
  · obtain ⟨hseq, hmac⟩ := hchained.heads head hhead
    have hmarks := (hfast k hk).1
    rw [hid] at hseq hmac
    refine ⟨hseq ▸ hmarks.present, fun heq => ?_⟩
    rw [hmarks.root, heq, hseq, List.take_length, hmac]
  · obtain ⟨hstream, hsequence, -⟩ := checkpointPayload_determines hpayload
    exact ⟨hstream, hsequence⟩
  · rintro ⟨hstream, hsequence⟩
    rw [(hfast k hk).1.root, (hfast k' hk').1.root, hstream, hsequence]

/-! ### Two checkpoints -/

/-- An appending run with these checkpoints beside it. -/
def beside (checkpoints : List IntegrityCheckpoint) (w : World Ledger Append) :
    World CheckedLedger Checking :=
  ⟨⟨w.committed, checkpoints⟩, fun i => (w.flight i).map .append⟩

theorem appendsOf_beside (checkpoints : List IntegrityCheckpoint) (w : World Ledger Append) :
    appendsOf (beside checkpoints w) = w := by
  simp only [appendsOf, beside, Protocol.view]
  congr 1
  funext i
  cases w.flight i <;> rfl

theorem beside_running {checkpoints : List IntegrityCheckpoint} {w : World Ledger Append} {i : ℕ}
    {l : Option Append} (h : w.flight i = l) : (beside checkpoints w).flight i = l.map .append := by
  rw [← h]
  rfl

theorem beside_set (checkpoints : List IntegrityCheckpoint) (w : World Ledger Append) (i : ℕ)
    (l : Option Append) : beside checkpoints (w.set i l) = (beside checkpoints w).set i (l.map .append) := by
  simp only [beside, World.set, World.mk.injEq, true_and]
  funext j
  by_cases hj : j = i
  · simp [hj]
  · simp [hj]

theorem checking_step_beside (checkpoints : List IntegrityCheckpoint) {a b : World Ledger Append}
    (h : (appending settings).Step a b) :
    (checking settings keys).Step (beside checkpoints a) (beside checkpoints b) := by
  cases h with
  | begins i l idle hl =>
    obtain ⟨call, rfl⟩ := hl
    have hbegins : (checking settings keys).begins (.append (.begun call)) := .inl ⟨call, rfl⟩
    rw [beside_set]
    exact .begins i _ (beside_running idle) hbegins
  | moves i l l' running hl =>
    have hmove : CheckingMoves settings keys (beside checkpoints a) i (.append l) (.append l') :=
      .append l l' (by rw [appendsOf_beside]; exact hl)
    rw [beside_set]
    exact .moves i _ _ (beside_running running) hmove
  | commits i l s l' running hl =>
    have hcommit : CheckingCommits (beside checkpoints a) (.append l) ⟨s, checkpoints⟩ (l'.map .append) :=
      .append l s l' (by rw [appendsOf_beside]; exact hl)
    rw [beside_set]
    exact .commits i _ _ _ (beside_running running) hcommit
  | rollsBack i l running hl =>
    rw [beside_set]
    exact .rollsBack i _ (beside_running running) trivial

/-- The calls of `ingest_event` run as they did without checkpoints. -/
theorem checking_of_appending (checkpoints : List IntegrityCheckpoint) {w w' : World Ledger Append}
    (h : (appending settings).Reachable w w') :
    (checking settings keys).Reachable (beside checkpoints w) (beside checkpoints w') :=
  Relation.ReflTransGen.lift (beside checkpoints) (fun _ _ => checking_step_beside checkpoints) w w' h

def plainKeys : CheckpointKeys where
  checkpointPrivateKeyPemB64 := some "a2V5"
  loadPrivateKey _ := some (.p256 fun random payload => random ++ payload)

/-- A request that nothing runs beside commits its checkpoint. -/
theorem checkpoint_alone {ledger : Ledger} {checkpoints : List IntegrityCheckpoint} {streamId : String}
    {random : Bytes} {checkpoint : IntegrityCheckpoint}
    (hcreated : createClassicCheckpoint keys ledger.heads streamId random = .ok checkpoint) :
    (checking settings keys).Reachable (World.quiet ⟨ledger, checkpoints⟩)
      (World.quiet ⟨ledger, checkpoints ++ [checkpoint]⟩) := by
  have hrequested := Protocol.alone_begins (p := checking settings keys)
    (⟨ledger, checkpoints⟩ : CheckedLedger) (l := .requested streamId) (.inr ⟨_, rfl⟩)
  have hadded := Protocol.alone_moves hrequested (.signs _ _ _ hcreated)
  exact Protocol.alone_commits hadded (.checkpoint checkpoint)

def stateCheckpoint : IntegrityCheckpoint where
  streamId := "source:plc-1"
  sequence := 1
  rootMac := stateRow.integrityMac
  classicSignature := [7] ++ checkpointPayload "source:plc-1" 1 stateRow.integrityMac

theorem stateCheckpoint_reachable : (checking plainSettings plainKeys).Reachable (World.quiet {})
    (World.quiet ⟨appendRow {} stateRow, [stateCheckpoint]⟩) := by
  have happended : (checking plainSettings plainKeys).Reachable (World.quiet {})
      (World.quiet ⟨appendRow {} stateRow, []⟩) := checking_of_appending [] stateRow_reachable
  have hcreated : createClassicCheckpoint plainKeys (appendRow {} stateRow).heads "source:plc-1" [7] =
      .ok stateCheckpoint := rfl
  exact happended.trans (checkpoint_alone hcreated)

def secondCheckpoint : IntegrityCheckpoint where
  streamId := "source:plc-1"
  sequence := 2
  rootMac := secondRow.integrityMac
  classicSignature := [8] ++ checkpointPayload "source:plc-1" 2 secondRow.integrityMac

/-- Each event is followed by a checkpoint. -/
theorem secondCheckpoint_reachable : (checking plainSettings plainKeys).Reachable (World.quiet {})
    (World.quiet ⟨twoRows, [stateCheckpoint, secondCheckpoint]⟩) := by
  have happended : (checking plainSettings plainKeys).Reachable
      (World.quiet ⟨appendRow {} stateRow, [stateCheckpoint]⟩) (World.quiet ⟨twoRows, [stateCheckpoint]⟩) :=
    checking_of_appending [stateCheckpoint] secondRow_appended
  have hcreated : createClassicCheckpoint plainKeys twoRows.heads "source:plc-1" [8] = .ok secondCheckpoint := rfl
  exact (stateCheckpoint_reachable.trans happended).trans (checkpoint_alone hcreated)

theorem checkpoints_mark_prefixes_two_events :
    (∀ k ∈ [stateCheckpoint, secondCheckpoint], Marks plainSettings twoRows k ∧ Issued plainKeys k) ∧
      checkpointPayload "source:plc-1" 1 stateRow.integrityMac ≠
        checkpointPayload "source:plc-1" 2 secondRow.integrityMac := by
  obtain ⟨hmarks, -, hpayloads⟩ := checkpoints_mark_prefixes secondCheckpoint_reachable
  refine ⟨hmarks, fun hsame => ?_⟩
  have hnumbers := (hpayloads stateCheckpoint List.mem_cons_self secondCheckpoint
    (List.mem_cons_of_mem _ List.mem_cons_self)).mp hsame
  exact absurd hnumbers.2 (by decide)

/-! ## What is pinned -/

/-- The columns of a row that its MAC binds; the others are blank. -/
def macColumns (row : StoredRow) : StoredRow :=
  { row with
    sourceType := "", sourceSequence := none, itemId := none, operationRunId := none, ingestSeq := 0
    cryptoProfileId := "" }

/-- What `verify_integrity` frames of a row. -/
def macInputOf (row : StoredRow) : MacInput where
  prevMac := row.prevIntegrityMac
  immutableMetadata := storedMetadata row
  ciphertext := row.payloadCiphertext
  nonce := row.nonce
  keyId := row.cryptoKeyId

/-- What Python can read into `datetime`s and frame with `to_bytes`. -/
structure Framable (row : StoredRow) : Prop where
  occurredAt : firstInstant ≤ row.occurredAt
  receivedAt : firstInstant ≤ row.receivedAt
  inRange : (macInputOf row).InRange

/-- No row has the MAC of another one that it was not computed for. -/
def CollisionFree (v : Vault) (rows others : List StoredRow) : Prop :=
  ∀ a ∈ rows, ∀ b ∈ others, storedMac v a = storedMac v b → (macInputOf a).frame = (macInputOf b).frame

theorem storedMetadata_determines {a b : StoredRow} (ha : Framable a) (hb : Framable b)
    (h : storedMetadata a = storedMetadata b) :
    a.eventId = b.eventId ∧ a.eventType = b.eventType ∧ a.integritySeq = b.integritySeq ∧
      a.integrityStreamId = b.integrityStreamId ∧ a.occurredAt = b.occurredAt ∧
      a.receivedAt = b.receivedAt ∧ a.schemaVersion = b.schemaVersion ∧ a.sourceId = b.sourceId := by
  have hvalue := (canonicalJsonBytes_eq_iff ?_ ?_).mp h
  · simp only [Json.value, JsonValue.obj.injEq] at hvalue
    have hfield := fun name => congrFun hvalue name
    have heventId := hfield "event_id"
    have heventType := hfield "event_type"
    have hseq := hfield "integrity_seq"
    have hstream := hfield "integrity_stream_id"
    have hoccurred := hfield "occurred_at"
    have hreceived := hfield "received_at"
    have hschema := hfield "schema_version"
    have hsource := hfield "source_id"
    simp [Json.valueAt, Json.value] at heventId heventType hseq hstream hoccurred hreceived hschema hsource
    refine ⟨heventId, heventType, hseq, hstream, ?_, ?_, hschema, hsource⟩
    · simpa using isoformatUtc_injective (by simpa using ha.occurredAt) (by simpa using hb.occurredAt) hoccurred
    · simpa using isoformatUtc_injective (by simpa using ha.receivedAt) (by simpa using hb.receivedAt) hreceived
  all_goals exact ⟨by simp, trivial, trivial, trivial, trivial, trivial, trivial, trivial, trivial, trivial⟩

/-- Intact rows with one MAC have the same columns. -/
theorem macColumns_of_mac {a b : StoredRow} (ha : Framable a) (hb : Framable b)
    (hframe : (macInputOf a).frame = (macInputOf b).frame) (hmac : a.integrityMac = b.integrityMac) :
    a.prevIntegrityMac = b.prevIntegrityMac ∧ macColumns a = macColumns b := by
  have hbytes := MacInput.frame_eq_some.mpr ⟨ha.inRange, rfl⟩
  have hinput : macInputOf a = macInputOf b := frame_injective hbytes (hframe ▸ hbytes)
  have hprev : a.prevIntegrityMac = b.prevIntegrityMac := congrArg MacInput.prevMac hinput
  obtain ⟨heventId, heventType, hseq, hstream, hoccurred, hreceived, hschema, hsource⟩ :=
    storedMetadata_determines ha hb (congrArg MacInput.immutableMetadata hinput)
  exact ⟨hprev, StoredRow.ext heventId heventType hschema hsource rfl rfl rfl rfl hoccurred hreceived rfl
    (congrArg MacInput.ciphertext hinput) (congrArg MacInput.nonce hinput) hstream hseq hprev hmac
    (congrArg MacInput.keyId hinput) rfl⟩

theorem endMac_columnsOf (v : Vault) (p : Bytes) (rows : List SealedEvent) :
    endMac (storedColumns v) p (rows.map columnsOf) = endMac (chainColumns v.crypto) p rows := by
  rw [endMac, List.foldl_map]
  rfl

/-- The rows of a stream that verify are a chain. -/
theorem linked_of_verified {v : Vault} {streamIds : List String} {rows : List StoredRow}
    (h : storedFailures v streamIds rows = []) {streamId : String} (hstream : streamId ∈ streamIds) :
    Linked (storedColumns v) [] 1 (storedStream rows streamId) := by
  rw [← audit_eq_nil_iff fun _ _ _ => rowFailures_eq_nil]
  exact List.flatMap_eq_nil_iff.mp h streamId ((List.mem_insertionSort _).mpr hstream)

theorem mem_storedStream {rows : List StoredRow} {streamId : String} {row : StoredRow} :
    row ∈ storedStream rows streamId ↔ row ∈ rows ∧ row.integrityStreamId = streamId := by
  rw [storedStream, List.mem_insertionSort, List.mem_filter, decide_eq_true_iff]

/-- Whatever somebody has made of `raw_events`: if the stream of a checkpoint verifies and still has a row
with its number and its MAC, then up to this row it is as it was when the checkpoint was created, in all
columns the MACs bind. -/
theorem checkpoint_pins_history {v : Vault} {w : World CheckedLedger Checking}
    (h : (checking v.crypto keys).Reachable (World.quiet {}) w) {k : IntegrityCheckpoint}
    (hk : k ∈ w.committed.checkpoints) {streamIds : List String} (hstream : k.streamId ∈ streamIds)
    {rows : List StoredRow} (hframable : ∀ row ∈ rows, Framable row)
    (hhonest : ∀ row ∈ w.committed.ledger.rows, Framable (columnsOf row))
    (hcollisions : CollisionFree v rows (w.committed.ledger.rows.map columnsOf))
    (hverified : storedFailures v streamIds rows = []) {row : StoredRow} (hrow : row ∈ rows)
    (hown : row.integrityStreamId = k.streamId) (hsequence : row.integritySeq = k.sequence)
    (hroot : row.integrityMac = k.rootMac) :
    ((storedStream rows k.streamId).take k.sequence).map macColumns =
      (((streamRows w.committed.ledger.rows k.streamId).take k.sequence).map columnsOf).map macColumns := by
  have hchained : Chained v.crypto w.committed.ledger := appends_chained (checking_appends h)
  have hmarks := ((fast_of_reachable h).shared k hk).1
  have hlinked := linked_of_verified hverified hstream
  obtain ⟨hlength, hend⟩ := endMac_take_of_seq hlinked (mem_storedStream.mpr ⟨hrow, hown⟩) (k := k.sequence)
    (by show row.integritySeq + 1 = 1 + k.sequence; omega)
  have hbefore := linked_columnsOf.mpr (linked_take (hchained.linked k.streamId) k.sequence)
  refine map_eq_of_endMac (linked_take hlinked _) hbefore ?_ ?_ ?_
  · intro a ha b hb hmac
    have hintact : storedMac v a = a.integrityMac := intact_of_linked (linked_take hlinked _) ha
    have hintact' : storedMac v b = b.integrityMac := intact_of_linked hbefore hb
    obtain ⟨ha, -⟩ := mem_storedStream.mp (List.mem_of_mem_take ha)
    obtain ⟨old, hold, rfl⟩ := List.mem_map.mp hb
    have hmem := (List.mem_filter.mp (List.mem_of_mem_take hold)).1
    refine macColumns_of_mac (hframable a ha) (hhonest old hmem) ?_ hmac
    refine hcollisions a ha _ (List.mem_map_of_mem hmem) ?_
    rw [hintact, hintact']
    exact hmac
  · rw [hlength, List.length_map, List.length_take, Nat.min_eq_left hmarks.present]
  · rw [hend, endMac_columnsOf, ← hmarks.root]
    exact hroot

/-- The stored event now stands under another item. -/
def movedRow : StoredRow := { columnsOf stateRow with itemId := some "item-2" }

/-- It opens nothing: the verification decrypts nothing. -/
def plainVault : Vault where
  crypto := plainSettings
  aesGcmOpen _ _ _ := none
  upper text := text

theorem stateRow_framable : Framable (columnsOf stateRow) :=
  ⟨by decide, by decide, ⟨by decide +kernel, by decide +kernel, by decide +kernel, by decide +kernel⟩⟩

theorem checkpoint_pins_history_moved_item :
    ((storedStream [movedRow] "source:plc-1").take 1).map macColumns =
      (((streamRows (appendRow {} stateRow).rows "source:plc-1").take 1).map columnsOf).map macColumns := by
  have hmoved : Framable movedRow :=
    ⟨stateRow_framable.occurredAt, stateRow_framable.receivedAt, stateRow_framable.inRange⟩
  have hsame : [movedRow].map boundPart = ((appendRow {} stateRow).rows.map columnsOf).map boundPart := rfl
  have hhonest := storedFailures_of_chained (v := plainVault) (appends_chained stateRow_reachable)
    ["source:plc-1"]
  have hverified : storedFailures plainVault ["source:plc-1"] [movedRow] = [] :=
    (storedFailures_congr hsame _ _).trans hhonest
  refine checkpoint_pins_history (v := plainVault) stateCheckpoint_reachable (List.mem_singleton.mpr rfl)
    (List.mem_singleton.mpr rfl) ?_ ?_ ?_ hverified (List.mem_singleton.mpr rfl) rfl rfl rfl
  · intro row hrow
    rw [List.mem_singleton.mp hrow]
    exact hmoved
  · intro row hrow
    rw [List.mem_singleton.mp hrow]
    exact stateRow_framable
  · intro a ha b hb _
    rw [List.mem_singleton.mp ha, List.mem_singleton.mp hb]
    rfl

end TraceQ.Properties
