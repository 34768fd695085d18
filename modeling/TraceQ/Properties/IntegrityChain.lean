import TraceQ.Ingestion.Appends

/-! # What the integrity verification can tell

However the calls of `ingest_event` interleave, the chains they leave verify. The verifier reads the
rows of a stream and never its head, so of the deletions it finds those that leave a gap and misses
those that cut the chain off at its end.
-/
namespace TraceQ.Properties
open Security Ingestion Tables HashChain Transactions
set_option autoImplicit false
set_option maxHeartbeats 250000

variable {settings : CryptoSettings}

/-! ## Honest histories -/

/-- The stored events of a stream and its row fit together. -/
structure HonestStream (ledger : Ledger) (streamId : String) (n : ℕ) : Prop where
  numbers : (streamEvents ledger.rows streamId).map (·.raw.integritySeq) = List.range' 1 n
  links : (streamEvents ledger.rows streamId).map (·.prevIntegrityMac) =
    ([] :: (streamEvents ledger.rows streamId).map (·.integrityMac)).take n
  head : ∀ head ∈ ledger.heads, head.streamId = streamId → head.lastSeq = n ∧
    head.lastMac = ((streamEvents ledger.rows streamId).map (·.integrityMac)).getLast?.getD []
  known : 0 < n → ∃ head ∈ ledger.heads, head.streamId = streamId

theorem chained_honest {ledger : Ledger} (h : Chained settings ledger) (streamId : String) :
    HonestStream ledger streamId (streamRows ledger.rows streamId).length := by
  have hlinked := h.linked streamId
  refine ⟨?_, ?_, fun head hhead hid => ?_, fun hpos => ?_⟩
  · rw [h.streamEvents]
    exact linked_seqs hlinked
  · rw [h.streamEvents]
    exact linked_prevs hlinked
  · obtain ⟨hseq, hmac⟩ := h.heads head hhead
    rw [hid] at hseq hmac
    rw [h.streamEvents]
    exact ⟨hseq, hmac.trans (endMac_eq _ _ _)⟩
  · obtain ⟨row, hrow⟩ := List.exists_mem_of_length_pos hpos
    obtain ⟨hmem, hid⟩ := List.mem_filter.mp hrow
    obtain ⟨head, hhead, hstream⟩ := List.mem_map.mp (h.covered row hmem)
    exact ⟨head, hhead, hstream.trans (of_decide_eq_true hid)⟩

/-- Nothing is reported of a chained ledger. -/
theorem chained_verifies {ledger : Ledger} (h : Chained settings ledger) :
    (verifyIntegrity settings ledger).2 = [] := by
  rw [List.eq_nil_iff_forall_not_mem]
  intro failure hfailure
  obtain ⟨⟨head, hhead, hid⟩, -⟩ := mem_integrityFailures.mp hfailure
  refine (reported_iff hhead).mp ⟨failure, hfailure, hid.symm⟩ ?_
  rw [h.streamEvents]
  exact h.linked head.streamId

/-- Every interleaving of calls leaves chains that verify. -/
theorem honest_histories_verify {w : World Ledger Append}
    (h : (appending settings).Reachable (World.quiet {}) w) :
    (∀ streamId, ∃ n, HonestStream w.committed streamId n) ∧
      (verifyIntegrity settings w.committed).2 = [] ∧
      ∀ head ∈ (verifyIntegrity settings w.committed).1.heads, head.status = .ok := by
  have hchained := appends_chained h
  refine ⟨fun streamId => ⟨_, chained_honest hchained streamId⟩, chained_verifies hchained, fun head hhead => ?_⟩
  cases hstatus : head.status with
  | ok => rfl
  | integrityFailed =>
    obtain ⟨failure, hfailure, -⟩ := (verified_status hhead).mp hstatus
    rw [chained_verifies hchained] at hfailure
    cases hfailure

/-! ### Two events -/

/-- Primitives that keep everything apart: the authenticated bytes are the MAC. -/
def plainSettings : CryptoSettings where
  aesGcm nonce _ aad := nonce ++ aad
  hmacSha256 framed := framed
  aesKeyId := "key-1"

def stateEvent (eventId : String) : EventEnvelope where
  eventId := eventId
  occurredAt := 10
  source := { sourceId := "plc-1", sourceType := "plc" }
  payload := .machineState { equipmentId := "press-1", state := "running" }

/-- The event as the source sent it, with a clock three hours ahead of UTC. -/
def stateCall (eventId : String) : AppendCall where
  incoming := ⟨stateEvent eventId, ⟨10800000010, some 10800000000⟩, rfl⟩
  receivedAt := 20
  nonce := [1, 2, 3]

def stateRow : SealedEvent :=
  sealEvent plainSettings (headFor {} (stateCall "e-1")) (stateCall "e-1").incoming 20 1 [1, 2, 3]

theorem stateRow_reachable : (appending plainSettings).Reachable (World.quiet {})
    (World.quiet (appendRow {} stateRow)) :=
  append_alone plainSettings {} (stateCall "e-1") 1 rfl (by simp)

def secondRow : SealedEvent :=
  sealEvent plainSettings (headFor (appendRow {} stateRow) (stateCall "e-2"))
    (stateCall "e-2").incoming 20 2 [1, 2, 3]

def twoRows : Ledger := appendRow (appendRow {} stateRow) secondRow

theorem secondRow_appended :
    (appending plainSettings).Reachable (World.quiet (appendRow {} stateRow)) (World.quiet twoRows) :=
  append_alone plainSettings _ (stateCall "e-2") 2 rfl (by decide +kernel)

theorem twoRows_reachable :
    (appending plainSettings).Reachable (World.quiet {}) (World.quiet twoRows) :=
  stateRow_reachable.trans secondRow_appended

theorem honest_histories_verify_two_events :
    (∀ streamId, ∃ n, HonestStream twoRows streamId n) ∧
      (verifyIntegrity plainSettings twoRows).2 = [] ∧
      ∀ head ∈ (verifyIntegrity plainSettings twoRows).1.heads, head.status = .ok :=
  honest_histories_verify twoRows_reachable

/-! ## Deleted events -/

/-- The ledger after someone deleted the rows not kept; the heads are untouched. -/
def keepRows (ledger : Ledger) (keep : SealedEvent → Bool) : Ledger :=
  { ledger with rows := ledger.rows.filter keep }

/-- A failure of the stream is reported and the stream is marked. -/
def Detected (settings : CryptoSettings) (ledger : Ledger) (streamId : String) : Prop :=
  (∃ failure ∈ (verifyIntegrity settings ledger).2, failure.streamId = streamId) ∧
    ∀ head ∈ (verifyIntegrity settings ledger).1.heads, head.streamId = streamId →
      head.status = .integrityFailed

theorem detected_iff {ledger : Ledger} {head : StreamHead} (hhead : head ∈ ledger.heads) :
    Detected settings ledger head.streamId ↔
      ¬ Linked (chainColumns settings) [] 1 (streamEvents ledger.rows head.streamId) := by
  rw [← reported_iff hhead]
  refine ⟨fun h => h.1, fun h => ⟨h, fun judged hjudged hid => ?_⟩⟩
  rw [verified_status hjudged, hid]
  exact h

theorem streamRows_keepRows (ledger : Ledger) (keep : SealedEvent → Bool) (streamId : String) :
    streamRows (keepRows ledger keep).rows streamId = (streamRows ledger.rows streamId).filter keep := by
  simp only [streamRows, keepRows, List.filter_filter, Bool.and_comm]

/-- The rows left of a chain are still in the order of their numbers. -/
theorem streamEvents_keepRows {ledger : Ledger} (h : Chained settings ledger)
    (keep : SealedEvent → Bool) (streamId : String) :
    streamEvents (keepRows ledger keep).rows streamId =
      (streamRows ledger.rows streamId).filter keep := by
  have hsorted := (sorted_of_linked (h.linked streamId)).sublist
    (List.filter_sublist (p := keep) (l := streamRows ledger.rows streamId))
  rw [← streamRows_keepRows] at hsorted ⊢
  exact (hsorted.imp fun hlt => hlt.le).insertionSort_eq

/-- Whatever is deleted after whatever history, the verification notices exactly when what is left of
the stream is not its beginning. -/
theorem deletion_detected_iff {w : World Ledger Append}
    (h : (appending settings).Reachable (World.quiet {}) w) {head : StreamHead}
    (hhead : head ∈ w.committed.heads) (keep : SealedEvent → Bool) :
    Detected settings (keepRows w.committed keep) head.streamId ↔
      ¬ streamRows (keepRows w.committed keep).rows head.streamId <+:
        streamRows w.committed.rows head.streamId := by
  have hchained := appends_chained h
  have hkept : head ∈ (keepRows w.committed keep).heads := hhead
  rw [detected_iff hkept, streamEvents_keepRows hchained, streamRows_keepRows,
    linked_sublist_iff (hchained.linked head.streamId) List.filter_sublist]

/-! ### The first of two events -/

theorem deletion_detected_iff_first_event :
    Detected plainSettings (keepRows twoRows fun row => decide (row.raw.eventId = "e-2"))
      "source:plc-1" := by
  have hhead : ({ streamId := "source:plc-1", lastSeq := 2, lastMac := secondRow.integrityMac } :
      StreamHead) ∈ twoRows.heads := List.mem_singleton.mpr rfl
  refine (deletion_detected_iff twoRows_reachable hhead _).mpr ?_
  decide +kernel

/-- All events of a stream are deleted and nothing is reported, although no two MACs can be alike. -/
theorem deleted_end_undetected : ¬ ∀ (settings : CryptoSettings) (w : World Ledger Append)
    (head : StreamHead) (keep : SealedEvent → Bool), Function.Injective settings.hmacSha256 →
    (appending settings).Reachable (World.quiet {}) w → head ∈ w.committed.heads →
    (w.committed.rows.map (·.integrityMac)).Nodup →
    streamRows (keepRows w.committed keep).rows head.streamId ≠
      streamRows w.committed.rows head.streamId →
    Detected settings (keepRows w.committed keep) head.streamId := by
  intro h
  have hhead : ({ streamId := "source:plc-1", lastSeq := 1, lastMac := stateRow.integrityMac } :
      StreamHead) ∈ (appendRow {} stateRow).heads := List.mem_singleton.mpr rfl
  have hdetected := h plainSettings _ _ (fun _ => false) Function.injective_id stateRow_reachable hhead
    (List.nodup_singleton _) (by decide +kernel)
  obtain ⟨⟨failure, hfailure, -⟩, -⟩ := hdetected
  have hnone : (verifyIntegrity plainSettings (keepRows (appendRow {} stateRow) fun _ => false)).2 =
      [] := by decide +kernel
  rw [show (World.quiet (appendRow {} stateRow) : World Ledger Append).committed =
    appendRow {} stateRow from rfl, hnone] at hfailure
  cases hfailure

end TraceQ.Properties
