import TraceQ.Ingestion.CallTraces
import TraceQ.Library.HighWater
import TraceQ.Properties.Acceptance

/-! # Sequence numbers of a source

`last_source_sequence` is the highest number among the deliveries of the source that were admitted and answered,
repeated ones included. A delivery that is not above it raises SOURCE_SEQUENCE_ANOMALY and is taken all the same.
-/
namespace TraceQ.Properties
open HighWater Ingestion Security Tables
set_option autoImplicit false
set_option maxHeartbeats 250000

/-! ## Statement -/

/-- The events a run delivers, each with its source. -/
def deliveries (g : Gateway) : Store → List IngestCall → List (String × EventEnvelope)
  | _, [] => []
  | s, call :: rest =>
      ((deliveredEvent g s call).toList.map fun delivered => (delivered.1.sourceId, delivered.2)) ++
        deliveries g (receiveCall g s call).1 rest

def sourceOf (delivery : String × EventEnvelope) : String := delivery.1

def sequenceOf (delivery : String × EventEnvelope) : Option ℕ := delivery.2.source.sequence

/-- The alert about a delivery that is not above the number. -/
def anomalyOf (entry : (String × EventEnvelope) × ℕ) : SecurityAlert where
  alertType := .sourceSequenceAnomaly
  sourceId := some (sourceOf entry.1)
  targetId := some entry.1.2.eventId
  details := .sequences entry.2 ((sequenceOf entry.1).getD 0)

def anomalies (alerts : List SecurityAlert) : List SecurityAlert :=
  alerts.filter fun alert => decide (alert.alertType = .sourceSequenceAnomaly)

/-- The sources and alerts are those after the deliveries of the log. -/
structure Sequenced (log : List (String × EventEnvelope)) (s : Store) : Prop where
  marks : ∀ sourceId source, findSource s sourceId = some source →
    source.lastSourceSequence = mark sourceOf sequenceOf log sourceId
  alerts : anomalies s.alerts = (late sourceOf sequenceOf log).map anomalyOf

variable {g : Gateway} {s s' : Store} {call : IngestCall} {answer : Except Raised IngestAnswer}
  {log : List (String × EventEnvelope)}

/-! ## Alerts -/

theorem anomalies_append (front back : List SecurityAlert) :
    anomalies (front ++ back) = anomalies front ++ anomalies back := by
  simp [anomalies]

theorem anomalies_replays {replays : List SecurityAlert}
    (h : ∀ alert ∈ replays, alert.alertType = .replayAttempt) : anomalies replays = [] := by
  rw [anomalies, List.filter_eq_nil_iff]
  intro alert halert
  simp [h alert halert]

theorem anomalies_rejected (sourceId claimed : Option String) (error : TraceQError) :
    anomalies (rejectedAlerts sourceId claimed error) = [] := by
  have hmap : ∀ entry ∈ alertMap, entry.2 ≠ .sourceSequenceAnomaly := by decide
  cases hlookup : alertMap.lookup error.code with
  | none => simp [rejectedAlerts, anomalies, hlookup]
  | some alertType =>
    have hother := hmap _ (mem_of_lookup hlookup)
    simpa [rejectedAlerts, anomalies, hlookup] using hother

theorem anomalies_conflict (source : EventSource) (event : EventEnvelope) (existing : RawEvent) :
    anomalies (conflictAlerts source event existing) = [] := by
  unfold conflictAlerts
  split <;> simp [anomalies]

/-- The alert of the code is the one the log calls for. -/
theorem sequenceAlerts_eq {source : EventSource} (event : EventEnvelope)
    (hmark : source.lastSourceSequence = mark sourceOf sequenceOf log source.sourceId) :
    sequenceAlerts source event =
      ((lateAfter sourceOf sequenceOf log (source.sourceId, event)).map ((source.sourceId, event), ·)).toList.map
        anomalyOf := by
  rw [lateAfter, sourceOf, ← hmark]
  cases hsequence : event.source.sequence with
  | none => simp [sequenceAlerts, sequenceOf, hsequence]
  | some sequence =>
    cases hlast : source.lastSourceSequence with
    | none => simp [sequenceAlerts, hsequence, hlast]
    | some previous =>
      by_cases hle : sequence ≤ previous
      · simp [sequenceAlerts, sequenceOf, hsequence, hlast, hle, anomalyOf, sourceOf, Option.filter]
      · simp [sequenceAlerts, sequenceOf, hsequence, hlast, hle, Option.filter]

theorem anomalies_sequence (source : EventSource) (event : EventEnvelope) :
    anomalies (sequenceAlerts source event) = sequenceAlerts source event := by
  rw [anomalies, List.filter_eq_self]
  intro alert halert
  unfold sequenceAlerts at halert
  split at halert
  · split at halert
    · rw [List.mem_singleton.mp halert]
      rfl
    · cases halert
  · cases halert

/-! ## Marks -/

theorem track_sequence (h : Sequenced log s) {source : EventSource} (event : EventEnvelope)
    (hfound : findSource s source.sourceId = some source) {sourceId : String} {row : EventSource}
    (hrow : (trackSequence source event s.sources).find? (fun row => decide (row.sourceId = sourceId)) = some row) :
    row.lastSourceSequence = mark sourceOf sequenceOf (log ++ [(source.sourceId, event)]) sourceId := by
  have hmark := h.marks source.sourceId source hfound
  rw [mark_concat]
  unfold trackSequence at hrow
  cases hsequence : event.source.sequence with
  | none =>
    rw [hsequence] at hrow
    simpa [sequenceOf, hsequence] using h.marks sourceId row hrow
  | some sequence =>
    rw [hsequence] at hrow
    dsimp only at hrow
    rw [find?_modifyWhere (by exact fun _ => rfl)] at hrow
    obtain ⟨old, hold, rfl⟩ := Option.map_eq_some_iff.mp hrow
    have holdId : old.sourceId = sourceId := by simpa using List.find?_some hold
    by_cases hid : source.sourceId = sourceId
    · rw [← hid] at holdId ⊢
      simp only [sourceOf, sequenceOf, hsequence, holdId, decide_true, if_true, Option.elim_some, ← hmark]
      cases hlast : source.lastSourceSequence <;> simp [trackedSequence, hlast]
    · have hother : old.sourceId ≠ source.sourceId := fun heq => hid (heq.symm.trans holdId)
      simp only [sourceOf, hid, if_false, hother, decide_false, Bool.false_eq_true]
      exact h.marks sourceId old hold

/-! ## One call -/

/-- A delivered event is the next of the log. -/
theorem sequenced_delivered (h : Sequenced log s) {new : List IngestAttempt} {stored : List RawEvent}
    {raised : List SecurityAlert} {source : EventSource} {event : EventEnvelope}
    (hdelivers : Delivers g s call source event) (hraised : anomalies raised = [])
    (hadds : Adds s s' new (sequenceAlerts source event ++ raised) stored (trackSequence source event s.sources)) :
    Sequenced (log ++ [(source.sourceId, event)]) s' := by
  refine ⟨fun sourceId row hrow => ?_, ?_⟩
  · rw [findSource, hadds.sources] at hrow
    exact track_sequence h event hdelivers.found hrow
  · obtain ⟨replays, halerts, hreplays⟩ := hadds.alerts
    rw [halerts, anomalies_append, anomalies_append, anomalies_append, anomalies_replays hreplays, h.alerts,
      hraised, anomalies_sequence, sequenceAlerts_eq event (h.marks _ _ hdelivers.found), late_concat,
      List.map_append, List.append_nil, List.append_nil]

theorem sequenced_quiet (h : Sequenced log s) {new : List IngestAttempt} {stored : List RawEvent}
    {raised : List SecurityAlert} (hraised : anomalies raised = []) (hadds : Adds s s' new raised stored s.sources) :
    Sequenced log s' := by
  refine ⟨fun sourceId row hrow => ?_, ?_⟩
  · rw [findSource, hadds.sources] at hrow
    exact h.marks sourceId row hrow
  · obtain ⟨replays, halerts, hreplays⟩ := hadds.alerts
    rw [halerts, anomalies_append, anomalies_append, anomalies_replays hreplays, h.alerts, hraised,
      List.append_nil, List.append_nil]

theorem sequenced_delivery (h : Sequenced log s) (hdelivery : Delivery g s call s' answer) :
    Sequenced (log ++ (deliveredEvent g s call).toList.map fun delivered => (delivered.1.sourceId, delivered.2))
      s' := by
  cases hdelivery with
  | crashed exception hnone hadds =>
    rw [hnone, Option.toList_none, List.map_nil, List.append_nil]
    exact sequenced_quiet h rfl hadds
  | rejected error hnone hadds =>
    rw [hnone, Option.toList_none, List.map_nil, List.append_nil]
    exact sequenced_quiet h (anomalies_rejected _ _ error) hadds
  | repeated source event existing hdelivers hfound hadds =>
    rw [hdelivers.delivered]
    exact sequenced_delivered h hdelivers (anomalies_conflict source event existing) hadds
  | accepted source event raw affected hdelivers hnew hraw hadds =>
    rw [hdelivers.delivered]
    exact sequenced_delivered h hdelivers rfl (by rwa [List.append_nil])

/-! ## Every run -/

theorem run_sequenced (h : Sequenced log s) (calls : List IngestCall) :
    Sequenced (log ++ deliveries g s calls) (storeAfter g s calls) := by
  induction calls generalizing s log with
  | nil =>
    rw [deliveries, List.append_nil]
    exact h
  | cons call rest ih =>
    have hingested := sequenced_delivery h (ingestCall_delivery g s call)
    obtain ⟨db, hstore, -⟩ := receiveCall_rebuilds g s call
    have hreceived : Sequenced (log ++ (deliveredEvent g s call).toList.map
        fun delivered => (delivered.1.sourceId, delivered.2)) (receiveCall g s call).1 := by
      rw [hstore]
      exact ⟨hingested.marks, hingested.alerts⟩
    rw [deliveries, ← List.append_assoc, storeAfter, List.foldl_cons]
    exact ih hreceived

/-- In every run from unnumbered sources the number kept of a source is the highest it delivered, the anomalies
are the deliveries that are not above all earlier ones of their source, and a source has none exactly when its
numbers increase. -/
theorem sequence_anomalies (hsources : ∀ source ∈ s.sources, source.lastSourceSequence = none)
    (halerts : s.alerts = []) (calls : List IngestCall) :
    (∀ sourceId source, findSource (storeAfter g s calls) sourceId = some source →
      source.lastSourceSequence = mark sourceOf sequenceOf (deliveries g s calls) sourceId) ∧
      anomalies (storeAfter g s calls).alerts =
        (late sourceOf sequenceOf (deliveries g s calls)).map anomalyOf ∧
      ∀ sourceId, (∀ alert ∈ anomalies (storeAfter g s calls).alerts, alert.sourceId ≠ some sourceId) ↔
        (numbersOf sourceOf sequenceOf (deliveries g s calls) sourceId).Pairwise (· < ·) := by
  have hstart : Sequenced [] s := by
    refine ⟨fun sourceId source hfind => ?_, by rw [halerts]; rfl⟩
    rw [hsources source (List.mem_of_find?_eq_some hfind)]
    rfl
  have hrun := run_sequenced (g := g) hstart calls
  rw [List.nil_append] at hrun
  refine ⟨hrun.marks, hrun.alerts, fun sourceId => ?_⟩
  rw [hrun.alerts, ← none_late_iff, List.forall_mem_map]
  simp [anomalyOf]

/-! ### Two numbered deliveries -/

def numberedCall (eventId : String) (sequence : ℤ) : IngestCall where
  value := .obj
    [("event_id", .str eventId), ("event_type", .str "machine.state"), ("schema_version", .str "1.0"),
      ("occurred_at", .int 10),
      ("source", .obj [("source_id", .str "plc-1"), ("source_type", .str "plc"), ("sequence", .int sequence)]),
      ("payload", .obj [("equipment_id", .str "press-1"), ("state", .str "running")])]
  headerSourceId := some "plc-1"
  sourceToken := some "secret"
  now := 21000000
  aesNonce := [1, 2, 3]

example : (anomalies (storeAfter plainGateway { sources := [tokenSource] }
    [numberedCall "e-1" 7, numberedCall "e-2" 5]).alerts).map (·.targetId) = [some "e-2"] := by decide +kernel

theorem sequence_anomalies_overtaken :
    anomalies (storeAfter plainGateway { sources := [tokenSource] }
        [numberedCall "e-1" 7, numberedCall "e-2" 5]).alerts =
      (late sourceOf sequenceOf (deliveries plainGateway { sources := [tokenSource] }
        [numberedCall "e-1" 7, numberedCall "e-2" 5])).map anomalyOf :=
  (sequence_anomalies (by decide) rfl _).2.1

end TraceQ.Properties
