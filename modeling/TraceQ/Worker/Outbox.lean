import TraceQ.Domain.Json
import TraceQ.Persistence.Models

/-! # The outbox worker

`process_one` of `worker/main.py` with the adapter of `backend/app/integrations/adapters.py`, and
`retry_outbox` of `backend/app/api/integrations.py`. The heartbeat and the audit trail are left out.
-/
namespace TraceQ.Worker
open Tables
set_option autoImplicit false
set_option maxHeartbeats 250000

/-! ## Tables -/

inductive OutboxState where
  | pending | retrying | delivered | failed
deriving DecidableEq, Repr

/-- A row of `outbox_messages`. -/
structure OutboxRow where
  messageId : String
  destination : String := "erp-emulator"
  messageType : String := "quality.result"
  payload : Json
  state : OutboxState := .pending
  attempts : ℕ := 0
  nextAttemptAt : Instant
  lastError : Option String := none
  createdAt : Instant
  deliveredAt : Option Instant := none

inductive SafePayload where
  | ack (ack : List (String × Json))
  | httpStatus (status attempt : ℕ)
  | errorType (name : String) (attempt : ℕ)
  | invalidAck

structure IntegrationMessage where
  messageId : String
  externalSystem : String
  status : OutboxState
  safePayload : SafePayload

/-- The alert `INVALID_ACK`. -/
structure InvalidAck where
  targetId : String
  ackMessageId : Option Json

structure IntegrationHealth where
  integrationId : String
  status : String
  lastSuccessAt : Option Instant
  safeError : Option String

structure WorkerTables where
  outbox : List OutboxRow := []
  integrationMessages : List IntegrationMessage := []
  alerts : List InvalidAck := []
  health : List IntegrationHealth := []

structure WorkerSettings where
  outboxMaxAttempts : ℕ := 8
  /-- PostgreSQL stores the value in a JSONB column. -/
  jsonb : Json → Bool

/-! ## Reactions -/

/-- What `send_quality_result` meets: a response or an exception. The body of a response that is no JSON stands as
the text of the `ValueError` that `response.json()` raises. -/
inductive Reaction where
  | responds (statusCode : ℕ) (body : Except String Json)
  /-- `httpx.TimeoutException`, with its name. -/
  | timeout (name : String)
  /-- `httpx.NetworkError`. -/
  | networkError (name : String)
  /-- Any other exception. -/
  | raises (name : String)

/-- How the handling of a message ends. -/
inductive Outcome where
  | commits (row : OutboxRow) (entry : IntegrationMessage) (alert : Option InvalidAck)
      (healthy : Bool)
  /-- The outer handler rolls everything back. -/
  | rollsBack

section Handlers
variable (settings : WorkerSettings)

/-- `timedelta(seconds=min(2 ** attempts, 300))`. -/
def backoff (attempts : ℕ) : ℤ := (min (2 ^ attempts) 300 : ℕ) * 1000000

def OutboxRow.entry (row : OutboxRow) (payload : SafePayload) : IntegrationMessage :=
  ⟨row.messageId, row.destination, row.state, payload⟩

def retryState (again : Bool) : OutboxState := if again then .retrying else .failed

/-- `except httpx.HTTPStatusError`. The row has counted the attempt. -/
def httpStatusError (row : OutboxRow) (status : ℕ) (now : Instant) : Outcome :=
  let retryable := decide (status = 408) || decide (status = 429) || decide (status ≥ 500)
  let failed : OutboxRow :=
    { row with
      state := retryState (retryable && decide (row.attempts < settings.outboxMaxAttempts))
      lastError := some ("HTTP " ++ toString status) }
  let row' : OutboxRow :=
    if failed.state = .retrying then { failed with nextAttemptAt := now + backoff row.attempts }
    else failed
  .commits row' (row'.entry (.httpStatus status row.attempts)) none false

/-- `except (httpx.TimeoutException, httpx.NetworkError)`. -/
def transportError (row : OutboxRow) (name : String) (now : Instant) : Outcome :=
  let row' : OutboxRow :=
    { row with
      state := retryState (decide (row.attempts < settings.outboxMaxAttempts))
      lastError := some name
      nextAttemptAt := now + backoff row.attempts }
  .commits row' (row'.entry (.errorType name row.attempts)) none false

/-- `except ValueError`. -/
def valueError (row : OutboxRow) (message : String) (alert : Option InvalidAck) : Outcome :=
  let row' : OutboxRow := { row with state := .failed, lastError := some message }
  .commits row' (row'.entry .invalidAck) alert false

def delivered (row : OutboxRow) (ack : List (String × Json)) (now : Instant) : Outcome :=
  let row' : OutboxRow :=
    { row with state := .delivered, deliveredAt := some now, lastError := none }
  .commits row' (row'.entry (.ack ack)) none true

/-- The acknowledgement correlates with the message. -/
def acknowledges (row : OutboxRow) (ack : List (String × Json)) : Bool :=
  (ack.lookup "message_id").any (fun value => value.beq (.str row.messageId)) &&
    (ack.lookup "status").any fun value => value.beq (.str "ACK")

/-- The acknowledgement as `ack.get` sees it. A value that JSONB refuses fails the commit. -/
def acknowledged (row : OutboxRow) (ack : List (String × Json)) (now : Instant) : Outcome :=
  if acknowledges row ack then
    if settings.jsonb (.obj ack) then delivered row ack now else .rollsBack
  else if (ack.lookup "message_id").all settings.jsonb then
    valueError row "ERP acknowledgement correlation mismatch"
      (some ⟨row.messageId, ack.lookup "message_id"⟩)
  else .rollsBack

/-- The body of the inner `try` with its handlers. `raise_for_status` passes the 2xx only, and a body
that is no object has no `get`. -/
def handle (row : OutboxRow) (now : Instant) : Reaction → Outcome
  | .responds status body =>
      if 200 ≤ status ∧ status < 300 then
        match body with
        | .error message => valueError row message none
        | .ok (.obj ack) => acknowledged settings row ack now
        | .ok _ => .rollsBack
      else httpStatusError settings row status now
  | .timeout name => transportError settings row name now
  | .networkError name => transportError settings row name now
  | .raises _ => .rollsBack

end Handlers

/-! ## Picking a message -/

def OutboxRow.due (row : OutboxRow) (now : Instant) : Bool :=
  (decide (row.state = .pending) || decide (row.state = .retrying)) && decide (row.nextAttemptAt ≤ now)

/-- The oldest due message. -/
def pick (rows : List OutboxRow) (now : Instant) : Option OutboxRow :=
  ((rows.filter fun row => row.due now).insertionSort fun a b => a.createdAt ≤ b.createdAt).head?

/-- `message.attempts += 1`. -/
def OutboxRow.attempt (row : OutboxRow) : OutboxRow := { row with attempts := row.attempts + 1 }

def saveRow (row : OutboxRow) (rows : List OutboxRow) : List OutboxRow :=
  modifyWhere (fun old => decide (old.messageId = row.messageId)) (fun _ => row) rows

/-- What the handled message leaves in the other tables. -/
def saveOutcome (t : WorkerTables) (now : Instant) : Outcome → WorkerTables
  | .commits row entry alert healthy =>
      { outbox := saveRow row t.outbox
        integrationMessages := t.integrationMessages ++ [entry]
        alerts := t.alerts ++ alert.toList
        health := if healthy then
            modifyWhere (fun health => decide (health.integrationId = row.destination))
              (fun health => { health with
                status := "HEALTHY", lastSuccessAt := some now, safeError := none }) t.health
          else t.health }
  | .rollsBack => t

/-- `process_one`, which picks a message at `now` and meets the reaction at `later`. -/
def processOne (settings : WorkerSettings) (t : WorkerTables) (now later : Instant)
    (reaction : Reaction) : WorkerTables × Bool :=
  match pick t.outbox now with
  | none => (t, false)
  | some row =>
      match handle settings row.attempt later reaction with
      | .commits row' entry alert healthy =>
          (saveOutcome t later (.commits row' entry alert healthy), true)
      | .rollsBack => (t, false)

/-! ## Manual retry -/

/-- The row that `retry_outbox` leaves: `read` is the one it loaded, `row` the one it updates. -/
def retryWrite (read : OutboxRow) (now : Instant) (row : OutboxRow) : OutboxRow :=
  { row with
    state := if read.state = .pending then row.state else .pending
    nextAttemptAt := if read.nextAttemptAt = now then row.nextAttemptAt else now
    lastError := if read.lastError = none then row.lastError else none }

end TraceQ.Worker
