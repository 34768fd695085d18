import TraceQ.Api.DataHealth
import TraceQ.Ingestion.CallTraces
import TraceQ.Library.ChangeLog
import TraceQ.Properties.Acceptance

/-! # The attempts tell the log

Every delivery that is answered leaves one row of `ingest_attempts`. The rows of the accepted deliveries are the
stored events in their order, and a repeated delivery stands behind the accepted one that it repeats.
-/
namespace TraceQ.Properties
open Api Backend ChangeLog Ingestion Projections Security
set_option autoImplicit false
set_option maxHeartbeats 250000

/-! ## Statement -/

/-- A call with its answer, unless it crashed. -/
def answeredBy (call : IngestCall) : Except Raised IngestAnswer → List (IngestCall × Except Raised IngestAnswer)
  | .error (.crashed _) => []
  | answer => [(call, answer)]

/-- The calls of a run that `ingest_event` answered, with the answers. -/
def answered (g : Gateway) : Store → List IngestCall → List (IngestCall × Except Raised IngestAnswer)
  | _, [] => []
  | s, call :: rest => answeredBy call (ingestCall g s call).2 ++ answered g (receiveCall g s call).1 rest

/-- The error code of an answer. -/
def codeOf : Except Raised IngestAnswer → Option String
  | .error (.refused error) => some error.code
  | _ => none

/-- The row says who called and how the call was answered. -/
def Tells (g : Gateway) (entry : IngestCall × Except Raised IngestAnswer) (attempt : IngestAttempt) : Prop :=
  attempt.sourceId = entry.1.headerSourceId ∧ attempt.errorCode = codeOf entry.2 ∧
    match entry.2 with
    | .ok answer => attempt.claimedEventId = some answer.eventId ∧ attempt.rawEventId = some answer.eventId ∧
        attempt.payloadHash = some answer.contentHash ∧
        attempt.status = match answer.result.ingestionStatus with
          | .accepted => .accepted
          | .duplicate => .duplicate
    | .error (.refused error) =>
        attempt = rejectedAttempt entry.1.headerSourceId (claimedEventId g entry.1.value) error ∨
          attempt.status = .conflict ∧ error = eventIdConflict
    | .error (.crashed _) => False

/-- What an attempt says of its event fits the attempts before it. -/
def Explained (before : List IngestAttempt) (attempt : IngestAttempt) : Prop :=
  match attempt.status with
  | .accepted => ∀ a ∈ before, a.status = .accepted → a.rawEventId ≠ attempt.rawEventId
  | .duplicate => ∃ a ∈ before, a.status = .accepted ∧ a.rawEventId = attempt.rawEventId ∧
      a.payloadHash = attempt.payloadHash
  | .conflict => ∃ a ∈ before, a.status = .accepted ∧ a.rawEventId = attempt.rawEventId ∧
      a.payloadHash ≠ attempt.payloadHash
  | .rejected => attempt.rawEventId = none

/-- The events of the accepted attempts, with the hashes of their contents. -/
def acceptedRows (attempts : List IngestAttempt) : List (Option String × Option ContentHash) :=
  (attempts.filter fun attempt => decide (attempt.status = .accepted)).map fun attempt =>
    (attempt.rawEventId, attempt.payloadHash)

/-- The stored events, with the hashes of their contents. -/
def loggedRows (raws : List RawEvent) : List (Option String × Option ContentHash) :=
  raws.map fun raw => (some raw.eventId, some raw.event.contentHash)

/-! ## One call -/

variable {g : Gateway} {s s' : Store} {call : IngestCall} {answer : Except Raised IngestAnswer}

theorem delivery_tells (h : Delivery g s call s' answer) :
    ∃ new, s'.attempts = s.attempts ++ new ∧ List.Forall₂ (Tells g) (answeredBy call answer) new := by
  cases h with
  | crashed exception hnone hadds => exact ⟨[], hadds.attempts, .nil⟩
  | rejected error hnone hadds => exact ⟨_, hadds.attempts, .cons ⟨rfl, rfl, .inl rfl⟩ .nil⟩
  | repeated source event existing hdelivers hfound hadds =>
    refine ⟨_, hadds.attempts, ?_⟩
    by_cases hhash : existing.event.contentHash = event.contentHash
    · simp only [repeatAnswer, repeatStatus, hhash, if_true]
      exact .cons ⟨hdelivers.header.symm, rfl, rfl, rfl, rfl, rfl⟩ .nil
    · simp only [repeatAnswer, repeatStatus, hhash, if_false]
      exact .cons ⟨hdelivers.header.symm, rfl, .inr ⟨rfl, rfl⟩⟩ .nil
  | accepted source event raw affected hdelivers hnew hraw hadds =>
    exact ⟨_, hadds.attempts, .cons ⟨hdelivers.header.symm, rfl, rfl, rfl, rfl, rfl⟩ .nil⟩

/-- The invariant of the run. -/
structure LogTold (s : Store) : Prop where
  wellFormed : WellFormed s.db
  rows : acceptedRows s.attempts = loggedRows s.db.rawEvents
  explained : Along Explained s.attempts

theorem acceptedRows_concat (attempts : List IngestAttempt) (attempt : IngestAttempt) :
    acceptedRows (attempts ++ [attempt]) = acceptedRows attempts ++
      if attempt.status = .accepted then [(attempt.rawEventId, attempt.payloadHash)] else [] := by
  by_cases h : attempt.status = .accepted <;> simp [acceptedRows, h]

/-- A stored event has its accepted attempt, and an accepted attempt its stored event. -/
theorem LogTold.accepted_iff (h : LogTold s) (row : Option String × Option ContentHash) :
    (∃ a ∈ s.attempts, a.status = .accepted ∧ (a.rawEventId, a.payloadHash) = row) ↔
      ∃ raw ∈ s.db.rawEvents, (some raw.eventId, some raw.event.contentHash) = row := by
  have hmem : row ∈ acceptedRows s.attempts ↔ row ∈ loggedRows s.db.rawEvents := by rw [h.rows]
  simpa [acceptedRows, loggedRows, and_assoc] using hmem

theorem explained_repeated (h : LogTold s) (source : EventSource) {event : EventEnvelope} {existing : RawEvent}
    (hfound : findRawEvent s.db event.eventId = some existing) :
    Explained s.attempts (eventAttempt source event (repeatStatus event existing)) := by
  have hmem : existing ∈ s.db.rawEvents := List.mem_of_find?_eq_some hfound
  have hid : existing.eventId = event.eventId := by simpa using List.find?_some hfound
  obtain ⟨a, ha, haccepted, hrow⟩ := (h.accepted_iff _).mpr ⟨existing, hmem, rfl⟩
  obtain ⟨hraw, hhash⟩ := Prod.mk.inj hrow
  by_cases hsame : existing.event.contentHash = event.contentHash
  · simp only [repeatStatus, hsame, if_true]
    exact ⟨a, ha, haccepted, by rw [hraw, hid]; rfl, by rw [hhash, hsame]; rfl⟩
  · simp only [repeatStatus, hsame, if_false]
    refine ⟨a, ha, haccepted, by rw [hraw, hid]; rfl, ?_⟩
    rw [hhash]
    exact fun heq => hsame (Option.some.inj heq)

theorem explained_accepted (h : LogTold s) (source : EventSource) {event : EventEnvelope}
    (hnew : findRawEvent s.db event.eventId = none) :
    Explained s.attempts (eventAttempt source event .accepted) := by
  intro a ha haccepted heq
  obtain ⟨raw, hraw, hrow⟩ := (h.accepted_iff _).mp ⟨a, ha, haccepted, rfl⟩
  have hid : raw.eventId = event.eventId := Option.some.inj ((Prod.mk.inj hrow).1.trans heq)
  have hother := List.find?_eq_none.mp hnew raw hraw
  simp [hid] at hother

theorem told_delivery (h : LogTold s) (hdelivery : Delivery g s call s' answer) : LogTold s' := by
  cases hdelivery with
  | crashed exception hnone hadds =>
    have hattempts : s'.attempts = s.attempts := by rw [hadds.attempts, List.append_nil]
    have hraws : s'.db.rawEvents = s.db.rawEvents := by rw [hadds.raws, List.append_nil]
    exact ⟨hadds.cases.wellFormed h.wellFormed, by rw [hattempts, hraws, h.rows], hattempts ▸ h.explained⟩
  | rejected error hnone hadds =>
    refine ⟨hadds.cases.wellFormed h.wellFormed, ?_, ?_⟩
    · rw [hadds.attempts, hadds.raws, acceptedRows_concat, h.rows]
      simp [rejectedAttempt]
    · rw [hadds.attempts, along_concat]
      exact ⟨h.explained, rfl⟩
  | repeated source event existing hdelivers hfound hadds =>
    refine ⟨hadds.cases.wellFormed h.wellFormed, ?_, ?_⟩
    · have hstatus : repeatStatus event existing ≠ .accepted := by
        unfold repeatStatus
        split <;> simp
      rw [hadds.attempts, hadds.raws, acceptedRows_concat, h.rows]
      simp [eventAttempt, hstatus]
    · rw [hadds.attempts, along_concat]
      exact ⟨h.explained, explained_repeated h source hfound⟩
  | accepted source event raw affected hdelivers hnew hraw hadds =>
    refine ⟨hadds.cases.wellFormed h.wellFormed, ?_, ?_⟩
    · rw [hadds.attempts, hadds.raws, acceptedRows_concat, h.rows]
      simp [eventAttempt, loggedRows, RawEvent.eventId, hraw]
    · rw [hadds.attempts, along_concat]
      exact ⟨h.explained, explained_accepted h source hnew⟩

/-! ## Every run -/

theorem told_receive (h : LogTold s) (call : IngestCall) : LogTold (receiveCall g s call).1 := by
  have hingested := told_delivery h (ingestCall_delivery g s call)
  obtain ⟨db, hstore, hkeeps⟩ := receiveCall_rebuilds g s call
  obtain ⟨hwf, hraws⟩ := hkeeps hingested.wellFormed
  rw [hstore]
  exact ⟨hwf, by rw [hraws]; exact hingested.rows, hingested.explained⟩

theorem run_told (h : LogTold s) (calls : List IngestCall) :
    LogTold (storeAfter g s calls) ∧ ∃ new, (storeAfter g s calls).attempts = s.attempts ++ new ∧
      List.Forall₂ (Tells g) (answered g s calls) new := by
  induction calls generalizing s with
  | nil => exact ⟨h, [], (List.append_nil _).symm, .nil⟩
  | cons call rest ih =>
    obtain ⟨first, hfirst, htells⟩ := delivery_tells (ingestCall_delivery g s call)
    have hreceive := told_receive (g := g) h call
    obtain ⟨db, hstore, -⟩ := receiveCall_rebuilds g s call
    obtain ⟨hend, later, hlater, hrest⟩ := ih hreceive
    refine ⟨hend, first ++ later, ?_, List.rel_append htells hrest⟩
    rw [storeAfter, List.foldl_cons]
    exact hlater.trans (by rw [hstore, ← List.append_assoc, ← hfirst])

theorem told_start (hdb : Initial s.db) (hattempts : s.attempts = []) : LogTold s := by
  obtain ⟨config, order, hconfig⟩ := hdb
  refine ⟨hconfig ▸ wellFormed_initial config order, ?_, ?_⟩
  · rw [hattempts, hconfig]
    rfl
  · rw [hattempts]
    exact along_nil Explained

/-- From empty tables on, every answered delivery has its attempt, the accepted attempts are the stored events in
their order, and every other attempt fits the accepted one before it. -/
theorem attempts_tell_log (hdb : Initial s.db) (hattempts : s.attempts = []) (calls : List IngestCall) :
    List.Forall₂ (Tells g) (answered g s calls) (storeAfter g s calls).attempts ∧
      acceptedRows (storeAfter g s calls).attempts = loggedRows (storeAfter g s calls).db.rawEvents ∧
      Along Explained (storeAfter g s calls).attempts := by
  obtain ⟨htold, new, hnew, htells⟩ := run_told (g := g) (told_start hdb hattempts) calls
  rw [hattempts, List.nil_append] at hnew
  exact ⟨hnew ▸ htells, htold.rows, htold.explained⟩

/-! ### One event twice -/

theorem attempts_tell_log_twice :
    acceptedRows (storeAfter plainGateway { sources := [tokenSource] } [tokenCall .null, tokenCall .null]).attempts =
      loggedRows (storeAfter plainGateway { sources := [tokenSource] }
        [tokenCall .null, tokenCall .null]).db.rawEvents :=
  (attempts_tell_log ⟨{}, _, rfl⟩ rfl [tokenCall .null, tokenCall .null]).2.1

/-! ## The health figures -/

theorem tells_codes {entries : List (IngestCall × Except Raised IngestAnswer)} {attempts : List IngestAttempt}
    (h : List.Forall₂ (Tells g) entries attempts) :
    attempts.map (·.errorCode) = entries.map fun entry => codeOf entry.2 := by
  induction h with
  | nil => rfl
  | cons htells hrest ih => rw [List.map_cons, List.map_cons, htells.2.1, ih]

/-- The groups of `data_health` count the answered deliveries: in all they are as many, the accepted ones are the
stored events, and the errors of a code are the deliveries refused with it. -/
theorem health_counts_deliveries (hdb : Initial s.db) (hattempts : s.attempts = []) (calls : List IngestCall)
    (tables : Worker.WorkerTables) (now : Instant) :
    ((dataHealth (storeAfter g s calls) tables now).ingestion.map (·.2)).sum = (answered g s calls).length ∧
      ((dataHealth (storeAfter g s calls) tables now).ingestion.lookup .accepted).getD 0 =
        (storeAfter g s calls).db.rawEvents.length ∧
      ∀ code, ((dataHealth (storeAfter g s calls) tables now).errors.lookup code).getD 0 =
        (answered g s calls).countP fun entry => decide (codeOf entry.2 = some code) := by
  obtain ⟨htold, new, hnew, htells⟩ := run_told (g := g) (told_start hdb hattempts) calls
  rw [hattempts, List.nil_append] at hnew
  refine ⟨?_, ?_, fun code => ?_⟩
  · rw [dataHealth, sum_groupCounts, List.length_map, hnew, htells.length_eq]
  · have hlength := congrArg List.length htold.rows
    rw [acceptedRows, loggedRows, List.length_map, List.length_map, ← List.countP_eq_length_filter] at hlength
    rw [dataHealth, lookup_groupCounts, List.count, List.countP_map, ← hlength]
    apply List.countP_congr
    simp
  · have hcodes := congrArg (List.countP fun found => decide (found = some code)) (tells_codes htells)
    rw [List.countP_map, List.countP_map] at hcodes
    rw [dataHealth, lookup_groupCounts, List.count_filterMap, hnew]
    refine Eq.trans ?_ hcodes
    apply List.countP_congr
    simp

theorem health_counts_deliveries_twice :
    ((dataHealth (storeAfter plainGateway { sources := [tokenSource] } [tokenCall .null, tokenCall .null]) {} 0)
        |>.ingestion.map (·.2)).sum =
      (answered plainGateway { sources := [tokenSource] } [tokenCall .null, tokenCall .null]).length :=
  (health_counts_deliveries ⟨{}, _, rfl⟩ rfl [tokenCall .null, tokenCall .null] {} 0).1

end TraceQ.Properties
