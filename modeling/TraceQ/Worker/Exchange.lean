import TraceQ.Erp.Emulator
import TraceQ.Library.Transactions
import TraceQ.Worker.OutboxMeaning

/-! # Workers, retries and the ERP

Any number of workers, manual retries and requests at the ERP, in any order. A worker holds the row of
its message from the pick to the commit; a retry reads it without a lock. A request that was posted
may be handled at any time, whether or not the worker still waits for it, and a reply may be lost.
-/
namespace TraceQ.Worker
open Tables Transactions Erp
set_option autoImplicit false
set_option maxHeartbeats 250000

/-! ## The committed state -/

inductive OutboxEvent where
  | sent (messageId : String)
  | stored (messageId : String) (state : OutboxState)
deriving DecidableEq

/-- The outbox, the emulator, the requests posted and answered so far by their number, and what
happened to the messages. -/
structure Exchange where
  clock : Instant
  outbox : List OutboxRow := []
  erp : Erp.State := {}
  posts : List Json := []
  replies : List (ℕ × Reply) := []
  history : List OutboxEvent := []

/-- The row that a release writes for its result. -/
def releaseRow (result : QualityResultInput) (now : Instant) : OutboxRow :=
  { messageId := result.messageId, payload := result.dump, nextAttemptAt := now, createdAt := now }

def findRow (rows : List OutboxRow) (messageId : String) : Option OutboxRow :=
  rows.find? fun row => decide (row.messageId = messageId)

/-! ## The transactions -/

inductive ExchangeTransaction where
  /-- Time passes. -/
  | waits (time : Instant)
  /-- A release creates the message. -/
  | releases (result : QualityResultInput)
  | works
  | picked (row : OutboxRow)
  | posted (row : OutboxRow) (request : ℕ)
  | answered (row : OutboxRow) (reaction : Reaction)
  | retries (messageId : String)
  | retryRead (row : OutboxRow)
  | handles (request : ℕ)
  /-- The request has read the mode; it may sleep before it is answered. -/
  | decided (request : ℕ) (body : QualityResultInput) (mode : Mode)
  | behaves (mode : Mode)

namespace ExchangeTransaction

/-- The row that the transaction holds until it ends. -/
def row? : ExchangeTransaction → Option OutboxRow
  | .picked row => some row
  | .posted row _ => some row
  | .answered row _ => some row
  | _ => none

inductive Begins : ExchangeTransaction → Prop where
  | waits (time : Instant) : Begins (.waits time)
  | releases (result : QualityResultInput) : Begins (.releases result)
  | works : Begins .works
  | retries (messageId : String) : Begins (.retries messageId)
  | handles (request : ℕ) : Begins (.handles request)
  | behaves (mode : Mode) : Begins (.behaves mode)

end ExchangeTransaction

abbrev ExchangeWorld := World Exchange ExchangeTransaction

/-- No other transaction holds the row of the message. -/
def RowFree (w : ExchangeWorld) (i : ℕ) (messageId : String) : Prop :=
  w.Others i fun m => ∀ row, m.row? = some row → row.messageId ≠ messageId

/-- What a worker that waits for a request may meet. -/
abbrev Answering := Exchange → ℕ → Reaction → Prop

/-- Any behaviour of an ERP. -/
def anyErp : Answering := fun _ _ _ => True

/-- The emulator's own reply, or any failure of the transport. -/
def emulated : Answering := fun x request reaction =>
  match reaction with
  | .responds status body => (request, ⟨status, body.toOption⟩) ∈ x.replies
  | _ => True

section Steps
variable (settings : WorkerSettings) (isoformat : Instant → String) (answers : Answering)
  (w : ExchangeWorld) (i : ℕ)

inductive ExchangeMoves : ExchangeTransaction → ExchangeTransaction → Prop where
  /-- `FOR UPDATE SKIP LOCKED`, the oldest first. -/
  | picks (row : OutboxRow) (hmem : row ∈ w.committed.outbox) (hdue : row.due w.committed.clock = true)
      (hfree : RowFree w i row.messageId)
      (holdest : ∀ other ∈ w.committed.outbox, other.due w.committed.clock = true →
        RowFree w i other.messageId → row.createdAt ≤ other.createdAt) :
      ExchangeMoves .works (.picked row)
  | meets (row : OutboxRow) (request : ℕ) (reaction : Reaction)
      (h : answers w.committed request reaction) :
      ExchangeMoves (.posted row request) (.answered row reaction)
  | retryReads (messageId : String) (row : OutboxRow)
      (hfind : findRow w.committed.outbox messageId = some row) (hstate : row.state ≠ .delivered) :
      ExchangeMoves (.retries messageId) (.retryRead row)

inductive ExchangeCommits :
    ExchangeTransaction → Exchange → Option ExchangeTransaction → Prop where
  | waits (time : Instant) (h : w.committed.clock ≤ time) :
      ExchangeCommits (.waits time) { w.committed with clock := time } none
  | releases (result : QualityResultInput) (hvalid : result.Valid)
      (hfresh : findRow w.committed.outbox result.messageId = none) :
      ExchangeCommits (.releases result)
        { w.committed with
          outbox := w.committed.outbox ++ [releaseRow result w.committed.clock]
          history := w.committed.history ++ [.stored result.messageId .pending] } none
  /-- The message is on its way; nothing is committed to the database. -/
  | posts (row : OutboxRow) :
      ExchangeCommits (.picked row)
        { w.committed with
          posts := w.committed.posts ++ [row.payload]
          history := w.committed.history ++ [.sent row.messageId] }
        (some (.posted row w.committed.posts.length))
  | settles (row row' : OutboxRow) (reaction : Reaction) (entry : IntegrationMessage)
      (alert : Option InvalidAck) (healthy : Bool)
      (h : handle settings row.attempt w.committed.clock reaction = .commits row' entry alert healthy) :
      ExchangeCommits (.answered row reaction)
        { w.committed with
          outbox := saveRow row' w.committed.outbox
          history := w.committed.history ++ [.stored row'.messageId row'.state] } none
  | retries (read row : OutboxRow) (hfind : findRow w.committed.outbox read.messageId = some row)
      (hfree : RowFree w i read.messageId) :
      ExchangeCommits (.retryRead read)
        { w.committed with
          outbox := saveRow (retryWrite read w.committed.clock row) w.committed.outbox
          history := w.committed.history ++
            [.stored row.messageId (retryWrite read w.committed.clock row).state] } none
  | unprocessable (request : ℕ) (value : Json) (hpost : w.committed.posts[request]? = some value)
      (h : QualityResultInput.parse value = none) :
      ExchangeCommits (.handles request)
        { w.committed with replies := w.committed.replies ++ [(request, ⟨422, none⟩)] } none
  | consumes (request : ℕ) (value : Json) (body : QualityResultInput)
      (hpost : w.committed.posts[request]? = some value)
      (h : QualityResultInput.parse value = some body) :
      ExchangeCommits (.handles request)
        { w.committed with erp := Erp.consume w.committed.erp }
        (some (.decided request body w.committed.erp.mode))
  | refuses (request : ℕ) (body : QualityResultInput) (mode : Mode) (reply : Reply)
      (h : Erp.refusal mode = some reply) :
      ExchangeCommits (.decided request body mode)
        { w.committed with replies := w.committed.replies ++ [(request, reply)] } none
  | delivers (request : ℕ) (body : QualityResultInput) (mode : Mode) (h : Erp.refusal mode = none) :
      ExchangeCommits (.decided request body mode)
        { w.committed with
          erp := (Erp.deliver w.committed.erp body (isoformat w.committed.clock)).1
          replies := w.committed.replies ++ [(request, ⟨200, some (.obj
            (Erp.deliver w.committed.erp body (isoformat w.committed.clock)).2.fields)⟩)] } none
  | behaves (mode : Mode) :
      ExchangeCommits (.behaves mode) { w.committed with erp := Erp.behave w.committed.erp mode } none

end Steps

/-- A worker may crash before its commit, and a request may be dropped at any time. -/
def exchangeProtocol (settings : WorkerSettings) (isoformat : Instant → String) (answers : Answering) :
    Protocol Exchange ExchangeTransaction where
  begins := ExchangeTransaction.Begins
  moves := ExchangeMoves answers
  commits := ExchangeCommits settings isoformat
  rollsBack _ := True

end TraceQ.Worker
