import TraceQ.Worker.Outbox

/-! # What handling a message does

Every reaction is either handled, and then the attempt is committed with a state that allows another
one only below the limit, or it reaches the outer handler and nothing is committed.
-/
namespace TraceQ.Worker
open Tables
set_option autoImplicit false
set_option maxHeartbeats 250000

/-! ## Reactions -/

/-- The reaction reaches one of the inner handlers, and what they write can be stored. -/
def Handled (settings : WorkerSettings) (row : OutboxRow) : Reaction → Prop
  | .responds status body => 200 ≤ status ∧ status < 300 →
      match body with
      | .error _ => True
      | .ok (.obj ack) =>
          if acknowledges row ack then settings.jsonb (.obj ack) = true
          else (ack.lookup "message_id").all settings.jsonb = true
      | .ok _ => False
  | .timeout _ => True
  | .networkError _ => True
  | .raises _ => False

/-- The row after the handled message: tried again below the limit, delivered or failed. -/
structure Settles (settings : WorkerSettings) (row row' : OutboxRow) : Prop where
  messageId : row'.messageId = row.messageId
  payload : row'.payload = row.payload
  createdAt : row'.createdAt = row.createdAt
  attempts : row'.attempts = row.attempts
  state : row'.state = .delivered ∨ row'.state = .failed ∨
    row'.state = .retrying ∧ row.attempts < settings.outboxMaxAttempts

section Handlers
variable {settings : WorkerSettings} {row : OutboxRow} {now : Instant}

theorem retryState_cases (settings : WorkerSettings) (row : OutboxRow) (retryable : Bool) :
    retryState (retryable && decide (row.attempts < settings.outboxMaxAttempts)) = .failed ∨
      retryState (retryable && decide (row.attempts < settings.outboxMaxAttempts)) = .retrying ∧
        row.attempts < settings.outboxMaxAttempts := by
  cases hagain : retryable && decide (row.attempts < settings.outboxMaxAttempts) with
  | false => exact .inl rfl
  | true =>
    simp only [Bool.and_eq_true, decide_eq_true_eq] at hagain
    exact .inr ⟨rfl, hagain.2⟩

variable (settings row now) in
theorem httpStatusError_settles (status : ℕ) : ∃ row' entry,
    httpStatusError settings row status now = .commits row' entry none false ∧
      Settles settings row row' ∧ row'.state ≠ .delivered := by
  have hstate := retryState_cases settings row
    (decide (status = 408) || decide (status = 429) || decide (status ≥ 500))
  refine ⟨_, _, rfl, ?_, ?_⟩
  · split
    · exact ⟨rfl, rfl, rfl, rfl, .inr hstate⟩
    · exact ⟨rfl, rfl, rfl, rfl, .inr hstate⟩
  · intro hdelivered
    have hsame : retryState ((decide (status = 408) || decide (status = 429) || decide (status ≥ 500)) &&
        decide (row.attempts < settings.outboxMaxAttempts)) = .delivered := by
      split at hdelivered <;> exact hdelivered
    rcases hstate with hfailed | ⟨hretrying, -⟩
    · rw [hfailed] at hsame
      cases hsame
    · rw [hretrying] at hsame
      cases hsame

variable (settings row now) in
theorem transportError_settles (name : String) : ∃ row' entry,
    transportError settings row name now = .commits row' entry none false ∧
      Settles settings row row' ∧ row'.state ≠ .delivered := by
  have hstate := retryState_cases settings row true
  rw [Bool.true_and] at hstate
  refine ⟨_, _, rfl, ⟨rfl, rfl, rfl, rfl, .inr hstate⟩, ?_⟩
  intro hdelivered
  have hsame : retryState (decide (row.attempts < settings.outboxMaxAttempts)) = .delivered := hdelivered
  rcases hstate with hfailed | ⟨hretrying, -⟩
  · rw [hfailed] at hsame
    cases hsame
  · rw [hretrying] at hsame
    cases hsame

/-- A handled reaction commits the row, and one that is not rolls it back. A message is delivered only
by an acknowledgement that names it. -/
theorem handle_cases (settings : WorkerSettings) (row : OutboxRow) (now : Instant)
    (reaction : Reaction) :
    (Handled settings row reaction ∧ ∃ row' entry alert healthy,
      handle settings row now reaction = .commits row' entry alert healthy ∧
      Settles settings row row' ∧ (row'.state = .delivered → ∃ status ack,
        reaction = .responds status (.ok (.obj ack)) ∧ (200 ≤ status ∧ status < 300) ∧
        acknowledges row ack = true)) ∨
    (¬ Handled settings row reaction ∧ handle settings row now reaction = .rollsBack) := by
  cases reaction with
  | raises name => exact .inr ⟨id, rfl⟩
  | timeout name =>
    obtain ⟨row', entry, heq, hsettles, hopen⟩ :=
      transportError_settles settings row now name
    exact .inl ⟨trivial, row', entry, none, false, heq, hsettles, fun h => absurd h hopen⟩
  | networkError name =>
    obtain ⟨row', entry, heq, hsettles, hopen⟩ :=
      transportError_settles settings row now name
    exact .inl ⟨trivial, row', entry, none, false, heq, hsettles, fun h => absurd h hopen⟩
  | responds status body =>
    by_cases hsuccess : 200 ≤ status ∧ status < 300
    · have hvalue : ∀ message alert, Settles settings row { row with
          state := .failed, lastError := some message } ∧
          valueError row message alert = .commits { row with
            state := .failed, lastError := some message } ⟨row.messageId, row.destination, .failed,
              .invalidAck⟩ alert false :=
        fun message alert => ⟨⟨rfl, rfl, rfl, rfl, .inr (.inl rfl)⟩, rfl⟩
      simp only [handle, Handled, hsuccess, and_self, forall_const]
      cases body with
      | error message =>
        exact .inl ⟨trivial, _, _, _, _, (hvalue _ _).2, (hvalue message none).1,
          fun hdelivered => by cases hdelivered⟩
      | ok body =>
        cases body with
        | obj ack =>
          simp only [acknowledged]
          by_cases hack : acknowledges row ack = true
          · simp only [hack, if_true]
            by_cases hstored : settings.jsonb (.obj ack) = true
            · refine .inl ⟨hstored, _, _, _, _, if_pos hstored, ?_, fun _ => ⟨status, ack, rfl, hsuccess, hack⟩⟩
              exact ⟨rfl, rfl, rfl, rfl, .inl rfl⟩
            · exact .inr ⟨hstored, if_neg hstored⟩
          · simp only [hack, Bool.false_eq_true, if_false]
            by_cases hstored : (ack.lookup "message_id").all settings.jsonb = true
            · refine .inl ⟨hstored, _, _, _, _, if_pos hstored, (hvalue _ none).1, fun hdelivered => ?_⟩
              cases hdelivered
            · exact .inr ⟨hstored, if_neg hstored⟩
        | _ => exact .inr ⟨id, rfl⟩
    · obtain ⟨row', entry, heq, hsettles, hopen⟩ :=
        httpStatusError_settles settings row now status
      have hhandle : handle settings row now (.responds status body) =
        httpStatusError settings row status now := if_neg hsuccess
      exact .inl ⟨fun h => absurd h hsuccess, row', entry, none, false, hhandle.trans heq, hsettles,
        fun h => absurd h hopen⟩

/-- What a committed row says of the reaction. -/
theorem settles_of_handle {row' : OutboxRow} {reaction : Reaction} {entry : IntegrationMessage}
    {alert : Option InvalidAck} {healthy : Bool}
    (h : handle settings row now reaction = .commits row' entry alert healthy) :
    Settles settings row row' ∧ (row'.state = .delivered → ∃ status ack,
      reaction = .responds status (.ok (.obj ack)) ∧ (200 ≤ status ∧ status < 300) ∧
      acknowledges row ack = true) := by
  rcases handle_cases settings row now reaction with ⟨-, found, _, _, _, heq, hsettles, hack⟩ | ⟨-, heq⟩
  · rw [h] at heq
    cases heq
    exact ⟨hsettles, hack⟩
  · rw [h] at heq
    cases heq

end Handlers

/-! ## The rows of the outbox -/

theorem saveRow_eq {row row' : OutboxRow} (h : row'.messageId = row.messageId) (rows : List OutboxRow) :
    saveRow row' rows =
      modifyWhere (fun old => decide (old.messageId = row.messageId)) (fun _ => row') rows := by
  rw [saveRow, h]

theorem mem_saveRow_self {row row' : OutboxRow} {rows : List OutboxRow} (hmem : row ∈ rows)
    (h : row'.messageId = row.messageId) : row' ∈ saveRow row' rows := by
  rw [saveRow_eq h]
  exact mem_modifyWhere.mpr ⟨row, hmem, by simp⟩

theorem mem_saveRow {row' old : OutboxRow} {rows : List OutboxRow} (h : old ∈ saveRow row' rows) :
    old = row' ∨ old ∈ rows ∧ old.messageId ≠ row'.messageId := by
  obtain ⟨before, hbefore, rfl⟩ := mem_modifyWhere.mp h
  by_cases hsame : before.messageId = row'.messageId
  · exact .inl (by simp [hsame])
  · simp only [hsame, decide_false, Bool.false_eq_true, if_false]
    exact .inr ⟨hbefore, hsame⟩

theorem mem_saveRow_other {row' old : OutboxRow} {rows : List OutboxRow} (hmem : old ∈ rows)
    (hne : old.messageId ≠ row'.messageId) : old ∈ saveRow row' rows :=
  mem_modifyWhere.mpr ⟨old, hmem, by simp [hne]⟩

theorem map_id_saveRow (row' : OutboxRow) (rows : List OutboxRow) :
    (saveRow row' rows).map (·.messageId) = rows.map (·.messageId) := by
  rw [saveRow, modifyWhere, List.map_map]
  refine List.map_congr_left fun old _ => ?_
  by_cases hsame : old.messageId = row'.messageId
  · simp [hsame]
  · simp [hsame]

/-! ## The message that is picked -/

theorem mem_of_pick {rows : List OutboxRow} {now : Instant} {row : OutboxRow}
    (h : pick rows now = some row) : row ∈ rows ∧ row.due now = true := by
  have hmem := List.mem_of_mem_head? (Option.mem_def.mpr h)
  simpa [List.mem_insertionSort] using hmem

/-- No due message is older. -/
theorem pick_oldest {rows : List OutboxRow} {now : Instant} {row other : OutboxRow}
    (h : pick rows now = some row) (hmem : other ∈ rows) (hdue : other.due now = true) :
    row.createdAt ≤ other.createdAt := by
  have hin : other ∈ (rows.filter fun row => row.due now).insertionSort
      fun a b => a.createdAt ≤ b.createdAt := by simp [List.mem_insertionSort, hmem, hdue]
  have hsorted := List.pairwise_insertionSort (fun a b : OutboxRow => a.createdAt ≤ b.createdAt)
    (rows.filter fun row => row.due now)
  unfold pick at h
  cases hlist : (rows.filter fun row => row.due now).insertionSort
      fun a b => a.createdAt ≤ b.createdAt with
  | nil =>
    rw [hlist] at h
    cases h
  | cons head rest =>
    rw [hlist] at h hin hsorted
    obtain rfl : head = row := by simpa using h
    rcases List.mem_cons.mp hin with rfl | hrest
    · exact le_rfl
    · exact (List.pairwise_cons.mp hsorted).1 other hrest

/-- A due message is not overlooked. -/
theorem pick_of_due {rows : List OutboxRow} {now : Instant} {other : OutboxRow} (hmem : other ∈ rows)
    (hdue : other.due now = true) : ∃ row, pick rows now = some row := by
  cases hpick : pick rows now with
  | some row => exact ⟨row, rfl⟩
  | none =>
    have hin : other ∈ (rows.filter fun row => row.due now).insertionSort
        fun a b => a.createdAt ≤ b.createdAt := by simp [List.mem_insertionSort, hmem, hdue]
    rw [pick, List.head?_eq_none_iff] at hpick
    rw [hpick] at hin
    cases hin

end TraceQ.Worker
