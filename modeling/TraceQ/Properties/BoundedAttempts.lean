import TraceQ.Library.Machine
import TraceQ.Worker.OutboxMeaning

/-! # How often a message is sent

A run of the worker that picks a message counts the attempt if and only if the reaction is handled. As
long as every reaction is, a message is sent no more often than the settings allow, and the messages
before it can delay a due message only for a bounded number of runs.
-/
namespace TraceQ.Properties
open Worker Tables
set_option autoImplicit false
set_option maxHeartbeats 250000

/-! ## Runs of the worker -/

/-- One `process_one`: when it picks, what it meets and when. -/
structure WorkerRun where
  now : Instant
  later : Instant
  reaction : Reaction

section Runs
variable (settings : WorkerSettings)

def execWorker (t : WorkerTables) (call : WorkerRun) : WorkerTables × Bool :=
  processOne settings t call.now call.later call.reaction

/-- The runs that send the message. -/
def sends (messageId : String) (t : WorkerTables) : List WorkerRun → ℕ
  | [] => 0
  | call :: rest =>
      (if (pick t.outbox call.now).any (fun row => decide (row.messageId = messageId)) then 1 else 0) +
        sends messageId (execWorker settings t call).1 rest

/-- The run counts the attempt on the message it picked. -/
def Counts (t : WorkerTables) (call : WorkerRun) : Prop :=
  ∀ row, pick t.outbox call.now = some row →
    ∃ row' ∈ (execWorker settings t call).1.outbox,
      row'.messageId = row.messageId ∧ row'.attempts = row.attempts + 1

/-- The reaction to the message that is picked, if there is one, is handled. -/
def HandledRun (t : WorkerTables) (call : WorkerRun) : Prop :=
  ∀ row, pick t.outbox call.now = some row → Worker.Handled settings row.attempt call.reaction

/-- What holds of every run of the list where it happens. -/
def Along (P : WorkerTables → WorkerRun → Prop) (t : WorkerTables) : List WorkerRun → Prop
  | [] => True
  | call :: rest => P t call ∧ Along P (execWorker settings t call).1 rest

def OutboxRow.active (row : OutboxRow) : Bool :=
  decide (row.state = .pending) || decide (row.state = .retrying)

/-- The attempts a message has left. -/
def attemptsLeft (row : OutboxRow) : ℕ :=
  if OutboxRow.active row then settings.outboxMaxAttempts - row.attempts else 0

/-- The attempts that the messages before this one have left. -/
def waitingFor (row : OutboxRow) (rows : List OutboxRow) : ℕ :=
  (rows.map fun other => if other.createdAt ≤ row.createdAt ∧ other.messageId ≠ row.messageId then
    attemptsLeft settings other else 0).sum

/-- The message identifiers are unique, and an active message has attempts left. -/
structure Unretried (t : WorkerTables) : Prop where
  ids : (t.outbox.map (·.messageId)).Nodup
  within : ∀ row ∈ t.outbox, OutboxRow.active row = true → row.attempts < settings.outboxMaxAttempts

structure AttemptsBounded (t : WorkerTables) (calls : List WorkerRun) : Prop where
  increases : Along settings (Counts settings) t calls
  sends : ∀ row ∈ t.outbox, sends settings row.messageId t calls ≤ attemptsLeft settings row
  /-- A message that is due at all times is picked. -/
  served : ∀ row ∈ t.outbox, OutboxRow.active row = true →
    (∀ call ∈ calls, row.nextAttemptAt ≤ call.now) →
    waitingFor settings row t.outbox < calls.length → 0 < Properties.sends settings row.messageId t calls

end Runs

/-! ## One run -/

section Step
variable {settings : WorkerSettings} {t : WorkerTables} {call : WorkerRun} {row : OutboxRow}

theorem active_of_due {now : Instant} (h : row.due now = true) : OutboxRow.active row = true := by
  unfold OutboxRow.due at h
  exact (Bool.and_eq_true _ _ ▸ h).1

theorem exec_of_none (h : pick t.outbox call.now = none) : (execWorker settings t call).1 = t := by
  simp only [execWorker, processOne, h]

/-- A handled run replaces the row it picked by the settled one. -/
theorem exec_of_handled (hpick : pick t.outbox call.now = some row)
    (hhandled : Worker.Handled settings row.attempt call.reaction) :
    ∃ row', Settles settings row.attempt row' ∧
      (execWorker settings t call).1.outbox = saveRow row' t.outbox := by
  rcases handle_cases settings row.attempt call.later call.reaction with
    ⟨-, row', entry, alert, healthy, heq, hsettles, -⟩ | ⟨hnot, -⟩
  · refine ⟨row', hsettles, ?_⟩
    simp only [execWorker, processOne, hpick, heq, saveOutcome]
  · exact absurd hhandled hnot

theorem exec_of_not_handled (hpick : pick t.outbox call.now = some row)
    (hnot : ¬ Worker.Handled settings row.attempt call.reaction) : (execWorker settings t call).1 = t := by
  rcases handle_cases settings row.attempt call.later call.reaction with ⟨hhandled, -⟩ | ⟨-, heq⟩
  · exact absurd hhandled hnot
  · simp only [execWorker, processOne, hpick, heq]

/-- The settled row has fewer attempts left. -/
theorem attemptsLeft_settles {row' : OutboxRow} (hactive : OutboxRow.active row = true)
    (hwithin : row.attempts < settings.outboxMaxAttempts) (h : Settles settings row.attempt row') :
    attemptsLeft settings row' < attemptsLeft settings row ∧
      (OutboxRow.active row' = true → row'.attempts < settings.outboxMaxAttempts) := by
  have hbefore : attemptsLeft settings row = settings.outboxMaxAttempts - row.attempts :=
    if_pos hactive
  have hattempts : row'.attempts = row.attempts + 1 := h.attempts
  unfold attemptsLeft at hbefore ⊢
  rcases h.state with hdone | hdone | ⟨hagain, hlt⟩
  · have hinactive : OutboxRow.active row' = false := by simp [OutboxRow.active, hdone]
    rw [hbefore, hinactive]
    exact ⟨by simp only [Bool.false_eq_true, if_false]; omega, nofun⟩
  · have hinactive : OutboxRow.active row' = false := by simp [OutboxRow.active, hdone]
    rw [hbefore, hinactive]
    exact ⟨by simp only [Bool.false_eq_true, if_false]; omega, nofun⟩
  · have hlt' : row.attempts + 1 < settings.outboxMaxAttempts := hlt
    have hactive' : OutboxRow.active row' = true := by simp [OutboxRow.active, hagain]
    rw [hbefore, hactive', hattempts]
    exact ⟨by simp only [if_true]; omega, fun _ => hlt'⟩

theorem unretried_exec (h : Unretried settings t) (hhandled : HandledRun settings t call) :
    Unretried settings (execWorker settings t call).1 := by
  cases hpick : pick t.outbox call.now with
  | none => rwa [exec_of_none hpick]
  | some row =>
    obtain ⟨row', hsettles, houtbox⟩ := exec_of_handled hpick (hhandled row hpick)
    obtain ⟨hmem, hdue⟩ := mem_of_pick hpick
    constructor
    · rw [houtbox, map_id_saveRow]
      exact h.ids
    · rw [houtbox]
      intro other hother hactive
      rcases mem_saveRow hother with rfl | ⟨hold, -⟩
      · exact (attemptsLeft_settles (active_of_due hdue) (h.within row hmem (active_of_due hdue))
          hsettles).2 hactive
      · exact h.within other hold hactive

/-- The attempt is counted exactly when the reaction is handled. -/
theorem counts_iff (h : Unretried settings t) :
    Counts settings t call ↔ HandledRun settings t call := by
  constructor
  · intro hcounts row hpick
    by_contra hnot
    obtain ⟨row', hmem', hid, hattempts⟩ := hcounts row hpick
    rw [exec_of_not_handled hpick hnot] at hmem'
    rw [eq_of_nodup_map h.ids hmem' (mem_of_pick hpick).1 hid] at hattempts
    omega
  · intro hhandled row hpick
    obtain ⟨row', hsettles, houtbox⟩ := exec_of_handled hpick (hhandled row hpick)
    refine ⟨row', ?_, hsettles.messageId, hsettles.attempts⟩
    rw [houtbox]
    exact mem_saveRow_self (mem_of_pick hpick).1 hsettles.messageId

/-! ## Every run -/

theorem sends_le (h : Unretried settings t) {calls : List WorkerRun}
    (hhandled : Along settings (HandledRun settings) t calls) (hmem : row ∈ t.outbox) :
    sends settings row.messageId t calls ≤ attemptsLeft settings row := by
  induction calls generalizing t row with
  | nil => exact Nat.zero_le _
  | cons call rest ih =>
    have hnext := unretried_exec h hhandled.1
    unfold sends
    cases hpick : pick t.outbox call.now with
    | none =>
      have hstays : row ∈ (execWorker settings t call).1.outbox := by rwa [exec_of_none hpick]
      have hrest := ih hnext hhandled.2 hstays
      simpa using hrest
    | some picked =>
      obtain ⟨row', hsettles, houtbox⟩ := exec_of_handled hpick (hhandled.1 picked hpick)
      obtain ⟨hpicked, hdue⟩ := mem_of_pick hpick
      by_cases hsame : picked.messageId = row.messageId
      · obtain rfl := eq_of_nodup_map h.ids hpicked hmem hsame
        have hin : row' ∈ (execWorker settings t call).1.outbox := by
          rw [houtbox]
          exact mem_saveRow_self hpicked hsettles.messageId
        have hrest := ih hnext hhandled.2 hin
        have hless := (attemptsLeft_settles (active_of_due hdue)
          (h.within picked hpicked (active_of_due hdue)) hsettles).1
        have hid : row'.messageId = picked.messageId := hsettles.messageId
        rw [hid] at hrest
        simp only [Option.any_some, decide_true, if_true]
        omega
      · have hid : row'.messageId = picked.messageId := hsettles.messageId
        have hin : row ∈ (execWorker settings t call).1.outbox := by
          rw [houtbox]
          exact mem_saveRow_other hmem (by rw [hid]; exact Ne.symm hsame)
        have hrest := ih hnext hhandled.2 hin
        simpa [hsame] using hrest

/-- While another message is picked before this one, the messages before it lose an attempt. -/
theorem waitingFor_exec (h : Unretried settings t) (hhandled : HandledRun settings t call)
    {picked : OutboxRow} (hpick : pick t.outbox call.now = some picked)
    (hbefore : picked.createdAt ≤ row.createdAt) (hne : picked.messageId ≠ row.messageId) :
    waitingFor settings row (execWorker settings t call).1.outbox < waitingFor settings row t.outbox := by
  obtain ⟨row', hsettles, houtbox⟩ := exec_of_handled hpick (hhandled picked hpick)
  obtain ⟨hpicked, hdue⟩ := mem_of_pick hpick
  have hid : row'.messageId = picked.messageId := hsettles.messageId
  have hcreated : row'.createdAt = picked.createdAt := hsettles.createdAt
  have hless := (attemptsLeft_settles (active_of_due hdue)
    (h.within picked hpicked (active_of_due hdue)) hsettles).1
  have hids : (t.outbox.map OutboxRow.messageId).Nodup := h.ids
  have hsum := sum_replace (fun other : OutboxRow => if other.createdAt ≤ row.createdAt ∧
    other.messageId ≠ row.messageId then attemptsLeft settings other else 0) hids hpicked row'
  rw [if_pos ⟨hbefore, hne⟩, if_pos ⟨hcreated ▸ hbefore, hid ▸ hne⟩] at hsum
  rw [houtbox, saveRow_eq hid]
  unfold waitingFor
  omega

theorem served_of_waiting (h : Unretried settings t) {calls : List WorkerRun}
    (hhandled : Along settings (HandledRun settings) t calls) (hmem : row ∈ t.outbox)
    (hactive : OutboxRow.active row = true) (hdue : ∀ call ∈ calls, row.nextAttemptAt ≤ call.now)
    (hlong : waitingFor settings row t.outbox < calls.length) :
    0 < sends settings row.messageId t calls := by
  induction calls generalizing t with
  | nil => exact absurd hlong (Nat.not_lt_zero _)
  | cons call rest ih =>
    have hnow : row.due call.now = true := by
      have htime := hdue call List.mem_cons_self
      unfold OutboxRow.due
      rw [show (decide (row.state = .pending) || decide (row.state = .retrying)) = true from hactive]
      simpa using htime
    obtain ⟨picked, hpick⟩ := pick_of_due hmem hnow
    unfold sends
    by_cases hsame : picked.messageId = row.messageId
    · simp only [hpick, Option.any_some, hsame, decide_true, if_true]
      omega
    · have hbefore := pick_oldest hpick hmem hnow
      have hless := waitingFor_exec h hhandled.1 hpick hbefore hsame
      obtain ⟨row', hsettles, houtbox⟩ := exec_of_handled hpick (hhandled.1 picked hpick)
      have hid : row'.messageId = picked.messageId := hsettles.messageId
      have hin : row ∈ (execWorker settings t call).1.outbox := by
        rw [houtbox]
        exact mem_saveRow_other hmem (by rw [hid]; exact Ne.symm hsame)
      have hrest := ih (unretried_exec h hhandled.1) hhandled.2 hin
        (fun c hc => hdue c (List.mem_cons_of_mem _ hc)) (by rw [List.length_cons] at hlong; omega)
      omega

theorem along_mono {P Q : WorkerTables → WorkerRun → Prop}
    (hstep : ∀ t call, Unretried settings t → P t call → Q t call ∧
      Unretried settings (execWorker settings t call).1) (h : Unretried settings t)
    {calls : List WorkerRun} (hP : Along settings P t calls) : Along settings Q t calls := by
  induction calls generalizing t with
  | nil => trivial
  | cons call rest ih =>
    obtain ⟨hQ, hnext⟩ := hstep t call h hP.1
    exact ⟨hQ, ih hnext hP.2⟩

end Step

/-- In a list of runs every attempt is counted, the attempts are bounded and no due message is starved,
if and only if every reaction is handled. -/
theorem attempts_bounded_iff (settings : WorkerSettings) {t : WorkerTables}
    (h : Unretried settings t) (calls : List WorkerRun) :
    AttemptsBounded settings t calls ↔ Along settings (HandledRun settings) t calls := by
  constructor
  · intro hbounded
    refine along_mono (fun u call hu hcounts => ?_) h hbounded.increases
    have hhandled := (counts_iff hu).mp hcounts
    exact ⟨hhandled, unretried_exec hu hhandled⟩
  · intro hhandled
    refine ⟨?_, fun row hmem => sends_le h hhandled hmem, fun row hmem hactive hdue hlong =>
      served_of_waiting h hhandled hmem hactive hdue hlong⟩
    exact along_mono (fun u call hu hrun => ⟨(counts_iff hu).mpr hrun, unretried_exec hu hrun⟩) h hhandled

/-! ## An acknowledgement that is a list -/

def workerSettings : WorkerSettings := { jsonb := fun _ => true }

def releasedRow : OutboxRow :=
  { messageId := "QR-1", payload := .obj [("message_id", .str "QR-1")], nextAttemptAt := 0, createdAt := 0 }

def releasedTables : WorkerTables := { outbox := [releasedRow] }

theorem releasedTables_unretried : Unretried workerSettings releasedTables :=
  ⟨by decide, by
    intro row hmem _
    rw [List.mem_singleton.mp hmem]
    decide⟩

/-- The ERP is down at the first attempt. -/
theorem attempts_bounded_unavailable :
    AttemptsBounded workerSettings releasedTables [⟨0, 1, .responds 503 (.error "Expecting value: line 1 column 1 (char 0)")⟩] := by
  refine (attempts_bounded_iff workerSettings releasedTables_unretried _).mpr ⟨fun row _ => ?_, trivial⟩
  exact fun hsuccess => absurd hsuccess.2 (by decide)

/-- An empty list with status 200 leaves the attempt uncounted. -/
theorem list_ack_uncounted : ¬ ∀ (settings : WorkerSettings) (t : WorkerTables), Unretried settings t →
    ∀ calls, AttemptsBounded settings t calls := by
  intro hall
  have hbounded := hall workerSettings releasedTables releasedTables_unretried
    [⟨0, 1, .responds 200 (.ok (.arr []))⟩]
  obtain ⟨row', hmem, -, hattempts⟩ := hbounded.increases.1 releasedRow rfl
  have hsame : row' = releasedRow := List.mem_singleton.mp hmem
  rw [hsame] at hattempts
  exact absurd hattempts (by decide)

end TraceQ.Properties
