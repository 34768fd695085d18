import TraceQ.Domain.Json
import TraceQ.Domain.Events

/-! # The ERP emulator

`erp_emulator/app/main.py`: the quality results it takes, and its modes. A request passes the lock of
the state twice, and may sleep in between.
-/
namespace TraceQ.Erp
set_option autoImplicit false
set_option maxHeartbeats 250000

/-! ## Quality results -/

structure QualityResultInput where
  messageId : String
  itemId : String
  nonconformanceId : String
  decisionId : String
  verdict : String
  disposition : String
  containment : String
  decidedAt : String
deriving DecidableEq

namespace QualityResultInput

/-- `message_id: str = Field(min_length=1, max_length=128)`. -/
def Valid (body : QualityResultInput) : Prop := 1 ≤ body.messageId.length ∧ body.messageId.length ≤ 128

instance (body : QualityResultInput) : Decidable body.Valid := inferInstanceAs (Decidable (_ ∧ _))

/-- `model_dump`. A release writes its payload with the same fields. -/
def dump (body : QualityResultInput) : Json :=
  .obj [("message_id", .str body.messageId), ("item_id", .str body.itemId),
    ("nonconformance_id", .str body.nonconformanceId), ("decision_id", .str body.decisionId),
    ("verdict", .str body.verdict), ("disposition", .str body.disposition),
    ("containment", .str body.containment), ("decided_at", .str body.decidedAt)]

def text (fields : List (String × Json)) (key : String) : Option String :=
  match fields.lookup key with
  | some (.str value) => some value
  | _ => none

/-- The body of a request, unless it is refused with status 422. -/
def parse : Json → Option QualityResultInput
  | .obj fields => do
      let body : QualityResultInput :=
        { messageId := ← text fields "message_id"
          itemId := ← text fields "item_id"
          nonconformanceId := ← text fields "nonconformance_id"
          decisionId := ← text fields "decision_id"
          verdict := ← text fields "verdict"
          disposition := ← text fields "disposition"
          containment := ← text fields "containment"
          decidedAt := ← text fields "decided_at" }
      if body.Valid then some body else none
  | _ => none

/-- What was dumped is read back. -/
theorem parse_dump {body : QualityResultInput} (h : body.Valid) : parse body.dump = some body := by
  show (if body.Valid then some body else none) = some body
  exact if_pos h

end QualityResultInput

/-! ## The state -/

inductive Mode where
  | normal | timeoutOnce | error503 | reject400 | offline
deriving DecidableEq, Repr

structure Ack where
  messageId : String
  status : String
  externalResultId : String
  receivedAt : String
deriving DecidableEq

def Ack.fields (ack : Ack) : List (String × Json) :=
  [("message_id", .str ack.messageId), ("status", .str ack.status),
    ("external_result_id", .str ack.externalResultId), ("received_at", .str ack.receivedAt)]

/-- An entry of the dict `deliveries`, with its key. -/
structure Delivery where
  messageId : String
  payload : Json
  ack : Ack

structure State where
  mode : Mode := .normal
  timeoutConsumed : Bool := false
  deliveries : List Delivery := []

/-- A response: its status and its JSON body, if that matters to anyone. -/
structure Reply where
  status : ℕ
  body : Option Json

def detail (status : ℕ) (text : String) : Reply := ⟨status, some (.obj [("detail", .str text)])⟩

/-- `f"{n:05d}"`. -/
def padded (n : ℕ) : String :=
  String.ofList (List.replicate (5 - (toString n).length) '0') ++ toString n

def shouldTimeout (state : State) : Bool := decide (state.mode = .timeoutOnce) && !state.timeoutConsumed

/-- The first time under the lock. -/
def consume (state : State) : State :=
  if shouldTimeout state then { state with timeoutConsumed := true } else state

/-- What the mode that was read refuses. -/
def refusal : Mode → Option Reply
  | .offline => some (detail 503 "emulator offline")
  | .error503 => some (detail 503 "simulated temporary failure")
  | .reject400 => some (detail 400 "simulated schema rejection")
  | _ => none

def findDelivery (state : State) (messageId : String) : Option Delivery :=
  state.deliveries.find? fun delivery => decide (delivery.messageId = messageId)

def newDelivery (state : State) (body : QualityResultInput) (receivedAt : String) : Delivery :=
  ⟨body.messageId, body.dump,
    ⟨body.messageId, "ACK", "ERP-QR-" ++ padded (state.deliveries.length + 1), receivedAt⟩⟩

/-- The second time under the lock. -/
def deliver (state : State) (body : QualityResultInput) (receivedAt : String) : State × Ack :=
  match findDelivery state body.messageId with
  | some existing => (state, existing.ack)
  | none => ({ state with deliveries := state.deliveries ++ [newDelivery state body receivedAt] },
      (newDelivery state body receivedAt).ack)

/-- `PUT /api/v1/demo/behavior`. -/
def behave (state : State) (mode : Mode) : State := { state with mode := mode, timeoutConsumed := false }

end TraceQ.Erp
